import Mathlib.Data.Int.Bitwise
import Datapath.Proofs.TwosComplement

set_option autoImplicit false

namespace Datapath

namespace Word

def bits (v : Int) : BitVec 32 := BitVec.ofInt 32 v

theorem toInt_bits (v : Int) : (bits v).toInt = signed v := BitVec.toInt_ofInt v

theorem toNat_bits (v : Int) : (bits v).toNat = unsigned v := BitVec.toNat_ofInt v

@[simp] theorem bits_toInt (x : BitVec 32) : bits x.toInt = x := BitVec.ofInt_toInt

@[simp] theorem bits_signed (v : Int) : bits (signed v) = bits v := by
  rw [← toInt_bits, bits_toInt]

theorem bits_natCast (n : Nat) : bits n = BitVec.ofNat 32 n := BitVec.ofInt_natCast 32 n

theorem bits_unsigned (v : Int) : BitVec.ofNat 32 (unsigned v) = bits v := by
  rw [← toNat_bits, BitVec.ofNat_toNat, BitVec.setWidth_eq]

theorem bits_add (a b : Int) : bits (a + b) = bits a + bits b := BitVec.ofInt_add a b

theorem bits_sub (a b : Int) : bits (a - b) = bits a - bits b := by
  rw [Int.sub_eq_add_neg, bits_add, BitVec.sub_eq_add_neg]
  exact congrArg (bits a + ·) BitVec.ofInt_neg

theorem shiftAmount_eq (v : Int) : shiftAmount v = (bits v).toNat % 32 := by
  rw [toNat_bits, shiftAmount, unsigned]
  omega

theorem and_not_one (x : BitVec 32) : x &&& ~~~1#32 = (x >>> 1) <<< 1 := by
  ext i hi
  rw [BitVec.getElem_and, BitVec.getElem_not, BitVec.getElem_one, BitVec.getElem_shiftLeft]
  cases i with
  | zero => simp
  | succ i => simp [Nat.add_comm 1 i, BitVec.getLsbD_eq_getElem hi]

theorem toInt_and_not_one (x : BitVec 32) : (x &&& ~~~1#32).toInt = x.toInt - x.toInt % 2 := by
  have hn : ((x >>> 1) <<< 1).toNat = x.toNat - x.toNat % 2 := by
    rw [BitVec.toNat_shiftLeft, BitVec.toNat_ushiftRight, Nat.shiftLeft_eq,
      Nat.shiftRight_eq_div_pow]
    have := x.isLt
    omega
  rw [and_not_one, BitVec.toInt_eq_toNat_cond, BitVec.toInt_eq_toNat_cond, hn]
  have := x.isLt
  split <;> split <;> omega

namespace Operation

variable (a b : Int)

theorem bits_eval_add : bits (add.eval a b) = bits a + bits b := by
  rw [eval, bits_signed, bits_add]

theorem bits_eval_sub : bits (sub.eval a b) = bits a - bits b := by
  rw [eval, bits_signed, bits_sub]

theorem bits_eval_and : bits (and.eval a b) = bits a &&& bits b := by
  rw [eval, bits_signed, bits_natCast, BitVec.ofNat_and, bits_unsigned, bits_unsigned]

theorem bits_eval_or : bits (or.eval a b) = bits a ||| bits b := by
  rw [eval, bits_signed, bits_natCast, BitVec.ofNat_or, bits_unsigned, bits_unsigned]

theorem bits_eval_xor : bits (xor.eval a b) = bits a ^^^ bits b := by
  rw [eval, bits_signed, bits_natCast, BitVec.ofNat_xor, bits_unsigned, bits_unsigned]

theorem bits_eval_sll : bits (sll.eval a b) = bits a <<< ((bits b).toNat % 32) := by
  rw [eval, bits_signed, bits_natCast, ← shiftAmount_eq, ← toNat_bits]
  apply BitVec.eq_of_toNat_eq
  simp

theorem bits_eval_srl : bits (srl.eval a b) = bits a >>> ((bits b).toNat % 32) := by
  rw [eval, bits_signed, bits_natCast, ← shiftAmount_eq, ← toNat_bits]
  apply BitVec.eq_of_toNat_eq
  rw [BitVec.toNat_ofNat, BitVec.toNat_ushiftRight]
  apply Nat.mod_eq_of_lt
  exact Nat.lt_of_le_of_lt (Nat.shiftRight_le _ _) (bits a).isLt

theorem bits_eval_sra : bits (sra.eval a b) = (bits a).sshiftRight ((bits b).toNat % 32) := by
  rw [eval, ← shiftAmount_eq, ← toInt_bits, ← BitVec.toInt_sshiftRight, bits_toInt]

theorem bits_eval_slt : bits (slt.eval a b) = if (bits a).slt (bits b) then 1 else 0 := by
  simp only [eval, BitVec.slt, toInt_bits, decide_eq_true_eq]
  split <;> rfl

theorem bits_eval_sltu : bits (sltu.eval a b) = if (bits a).ult (bits b) then 1 else 0 := by
  simp only [eval, BitVec.ult, toNat_bits, decide_eq_true_eq]
  split <;> rfl

end Operation

namespace Comparison

variable (a b : Int)

theorem holds_eq : eq.holds a b = (bits a == bits b) := by
  simp only [holds, ← toInt_bits, BitVec.toInt_inj]
  rfl

theorem holds_ne : ne.holds a b = (bits a != bits b) := by
  simp only [holds, ← toInt_bits, ne_eq, BitVec.toInt_inj]
  exact decide_not

theorem holds_lt : lt.holds a b = (bits a).slt (bits b) := by
  rw [holds, BitVec.slt, toInt_bits, toInt_bits]

theorem holds_ge : ge.holds a b = !(bits a).slt (bits b) := by
  rw [holds, BitVec.slt, toInt_bits, toInt_bits, ← decide_not]
  exact decide_eq_decide.2 Int.not_lt.symm

theorem holds_ltu : ltu.holds a b = (bits a).ult (bits b) := by
  rw [holds, BitVec.ult, toNat_bits, toNat_bits]

theorem holds_geu : geu.holds a b = !(bits a).ult (bits b) := by
  rw [holds, BitVec.ult, toNat_bits, toNat_bits, ← decide_not]
  exact decide_eq_decide.2 Nat.not_lt.symm

end Comparison

open Bits (field natCast_field_zero rowCount rowCount_eq_pow testBit_field)

theorem unsigned_eq_field (v : Int) : unsigned v = field v 31 0 := by
  have h : (field v 31 0 : Int) = v % 0x100000000 := natCast_field_zero v 31
  unfold unsigned
  omega

theorem getElem_bits (v : Int) {k : Nat} (hk : k < 32) : (bits v)[k] = v.testBit k := by
  rw [BitVec.getElem_eq_testBit_toNat, toNat_bits, unsigned_eq_field, testBit_field v (by omega),
    Nat.zero_add]

theorem bits_land (a b : Int) : bits (a.land b) = bits a &&& bits b := by
  ext k hk
  simp only [BitVec.getElem_and, getElem_bits, Int.testBit_land]

theorem bits_lor (a b : Int) : bits (a.lor b) = bits a ||| bits b := by
  ext k hk
  simp only [BitVec.getElem_or, getElem_bits, Int.testBit_lor]

theorem bits_xor (a b : Int) : bits (a.xor b) = bits a ^^^ bits b := by
  ext k hk
  simp only [BitVec.getElem_xor, getElem_bits, Int.testBit_lxor]

theorem bits_mul_rowCount (a : Int) (k : Nat) : bits (a * rowCount k) = bits a <<< k := by
  have hk : bits (rowCount k) = BitVec.twoPow 32 k := by
    rw [bits_natCast, rowCount_eq_pow]
    apply BitVec.eq_of_toNat_eq
    simp
  rw [BitVec.shiftLeft_eq_mul_twoPow, ← hk]
  exact BitVec.ofInt_mul a (rowCount k)

theorem bits_emod (v : Int) : bits (v % 0x100000000) = bits v := by
  apply BitVec.eq_of_toInt_eq
  rw [toInt_bits, toInt_bits]
  exact Int.emod_bmod v 0x100000000

theorem shiftAmount_eq_land (v : Int) : shiftAmount v = (v.land 31).toNat :=
  congrArg Int.toNat (Bits.masked_eq_emod v 5).symm

namespace Operation

variable (a b : Int)

/-- Results are words. Of all operations, only an arithmetic shift to the right is not wrapped. -/
theorem signed_eval (o : Operation) : signed (o.eval a b) = o.eval a b := by
  cases o with
  | sra => rw [eval, ← toInt_bits a, ← BitVec.toInt_sshiftRight, ← toInt_bits, bits_toInt]
  | slt => simp only [eval]; split <;> rfl
  | sltu => simp only [eval]; split <;> rfl
  | _ => exact signed_signed _

theorem toInt_bits_eval (o : Operation) : (bits (o.eval a b)).toInt = o.eval a b := by
  rw [toInt_bits, signed_eval]

theorem eval_and : and.eval a b = signed (a.land b) := by
  rw [← toInt_bits, bits_land, ← bits_eval_and, toInt_bits_eval]

theorem eval_or : or.eval a b = signed (a.lor b) := by
  rw [← toInt_bits, bits_lor, ← bits_eval_or, toInt_bits_eval]

theorem eval_xor : xor.eval a b = signed (a.xor b) := by
  rw [← toInt_bits, bits_xor, ← bits_eval_xor, toInt_bits_eval]

theorem eval_sll : sll.eval a b = signed (a * rowCount (shiftAmount b)) := by
  rw [← toInt_bits, bits_mul_rowCount, shiftAmount_eq, ← bits_eval_sll, toInt_bits_eval]

end Operation

end Word

namespace Opcode

open Bits (rowCount)
open Word (bits signed unsigned)

def result? (op : Opcode) (a b : Int) : Option Int := op.operation?.map fun o => o.eval a b

def taken? (op : Opcode) (a b : Int) : Option Bool := op.comparison?.map fun c => c.holds a b

/-- What an instruction computes, as a formula on integers without an end. Only the lowest five bits
of a shift amount count. -/
def formula? : Opcode → Option (Int → Int → Int)
  | add | addi => some fun a b => signed (a + b)
  | sub => some fun a b => signed (a - b)
  | and | andi => some fun a b => signed (a.land b)
  | or | ori => some fun a b => signed (a.lor b)
  | xor | xori => some fun a b => signed (a.xor b)
  | sll | slli => some fun a b => signed (a * rowCount (b.land 31).toNat)
  | srl | srli => some fun a b => signed (unsigned a >>> (b.land 31).toNat : Nat)
  | sra | srai => some fun a b => signed a >>> (b.land 31).toNat
  | slt | slti => some fun a b => if signed a < signed b then 1 else 0
  | sltu | sltiu => some fun a b => if unsigned a < unsigned b then 1 else 0
  | _ => none

/-- The operations on vectors. Only the lowest five bits of a shift amount count. -/
def vectorOperation? : Opcode → Option (BitVec 32 → BitVec 32 → BitVec 32)
  | add | addi => some fun x y => x + y
  | sub => some fun x y => x - y
  | and | andi => some fun x y => x &&& y
  | or | ori => some fun x y => x ||| y
  | xor | xori => some fun x y => x ^^^ y
  | sll | slli => some fun x y => x <<< y.setWidth 5
  | srl | srli => some fun x y => x >>> y.setWidth 5
  | sra | srai => some fun x y => x.sshiftRight' (y.setWidth 5)
  | slt | slti => some fun x y => if x.slt y then 1 else 0
  | sltu | sltiu => some fun x y => if x.ult y then 1 else 0
  | _ => none

def vectorRelation? : Opcode → Option (BitVec 32 → BitVec 32 → Bool)
  | beq => some fun x y => x == y
  | bne => some fun x y => x != y
  | blt => some fun x y => x.slt y
  | bge => some fun x y => y.sle x
  | bltu => some fun x y => x.ult y
  | bgeu => some fun x y => y.ule x
  | _ => none

variable (a b : Int)

theorem map_bits_result? (op : Opcode) :
    (op.result? a b).map bits = op.vectorOperation?.map fun g => g (bits a) (bits b) := by
  unfold result? operation? vectorOperation?
  cases op <;>
    simp only [Option.map_some, Option.map_none, Word.Operation.bits_eval_add,
      Word.Operation.bits_eval_sub, Word.Operation.bits_eval_and, Word.Operation.bits_eval_or,
      Word.Operation.bits_eval_xor, Word.Operation.bits_eval_sll, Word.Operation.bits_eval_srl,
      Word.Operation.bits_eval_sra, Word.Operation.bits_eval_slt, Word.Operation.bits_eval_sltu,
      BitVec.shiftLeft_eq', BitVec.ushiftRight_eq', BitVec.sshiftRight', BitVec.toNat_setWidth,
      Nat.reducePow]

theorem result?_eq (op : Opcode) :
    op.result? a b = op.vectorOperation?.map fun g => (g (bits a) (bits b)).toInt := by
  have h := congrArg (Option.map BitVec.toInt) (map_bits_result? a b op)
  simpa [result?, Function.comp_def, Word.Operation.toInt_bits_eval] using h

theorem result?_eq_formula (op : Opcode) :
    op.result? a b = op.formula?.map fun f => f a b := by
  unfold result? operation? formula?
  cases op <;>
    simp only [Option.map_some, Option.map_none, Word.Operation.eval_and, Word.Operation.eval_or,
      Word.Operation.eval_xor, Word.Operation.eval_sll, Word.shiftAmount_eq_land] <;>
    simp only [Word.Operation.eval, Word.shiftAmount_eq_land]

theorem taken?_eq (op : Opcode) :
    op.taken? a b = op.vectorRelation?.map fun g => g (bits a) (bits b) := by
  unfold taken? comparison? vectorRelation?
  cases op <;>
    simp only [Option.map_some, Option.map_none, Word.Comparison.holds_eq,
      Word.Comparison.holds_ne, Word.Comparison.holds_lt, Word.Comparison.holds_ge,
      Word.Comparison.holds_ltu, Word.Comparison.holds_geu, BitVec.sle_eq_not_slt,
      BitVec.ule_eq_not_ult]

theorem result?_emod (op : Opcode) :
    op.result? (a % 0x100000000) (b % 0x100000000) = op.result? a b := by
  rw [result?_eq, result?_eq, Word.bits_emod, Word.bits_emod]

theorem result?_isSome (op : Opcode) :
    (op.result? a b).isSome ↔ op.kind = some .register ∨ op.kind = some .immediate := by
  cases op <;> simp [result?, operation?, kind, spec]

theorem taken?_isSome (op : Opcode) : (op.taken? a b).isSome ↔ op.kind = some .branch := by
  cases op <;> simp [taken?, comparison?, kind, spec]

/-- The operations and the conditions of instructions are those of vectors of 32 bits, and the
operations are their formulas on integers. -/
theorem computes_on_vectors (op : Opcode) :
    op.result? a b = op.vectorOperation?.map (fun g => (g (bits a) (bits b)).toInt) ∧
    ((op.result? a b).isSome ↔ op.kind = some .register ∨ op.kind = some .immediate) ∧
    (∀ v, op.result? a b = some v → -0x80000000 ≤ v ∧ v < 0x80000000) ∧
    op.result? a b = op.result? (a % 0x100000000) (b % 0x100000000) ∧
    op.taken? a b = op.vectorRelation?.map (fun g => g (bits a) (bits b)) ∧
    ((op.taken? a b).isSome ↔ op.kind = some .branch) ∧
    bne.taken? a b = (beq.taken? a b).map not ∧
    bge.taken? a b = (blt.taken? a b).map not ∧
    bgeu.taken? a b = (bltu.taken? a b).map not ∧
    op.result? a b = op.formula?.map (fun f => f a b) := by
  refine ⟨result?_eq a b op, result?_isSome a b op, ?_, (result?_emod a b op).symm,
    taken?_eq a b op, taken?_isSome a b op, ?_, ?_, ?_, result?_eq_formula a b op⟩
  · intro v hv
    obtain ⟨o, -, rfl⟩ := Option.map_eq_some_iff.1 hv
    rw [← Word.Operation.signed_eval]
    exact ⟨Word.signed_lower _, Word.signed_upper _⟩
  · rw [taken?_eq, taken?_eq]
    rfl
  · simp only [taken?_eq, vectorRelation?, Option.map_some, BitVec.sle_eq_not_slt]
  · simp only [taken?_eq, vectorRelation?, Option.map_some, BitVec.ule_eq_not_ult]

theorem computes_on_vectors_sra :
    sra.result? 0x180000000 (-1) = some (-1) ∧
    -0x80000000 ≤ (-1 : Int) ∧ (-1 : Int) < 0x80000000 := by
  have h := computes_on_vectors 0x180000000 (-1) sra
  have hv : sra.result? 0x180000000 (-1) = some (-1) := h.1.trans (by decide)
  exact ⟨hv, h.2.2.1 _ hv⟩

end Opcode

end Datapath
