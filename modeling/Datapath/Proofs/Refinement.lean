import Datapath.Proofs.Arithmetic
import Datapath.Proofs.Reachable
import Datapath.Proofs.Reference
import Datapath.Proofs.View

/-! Every plan does what the reference machine does. The integers of a machine are the signed values
of the vectors of the reference machine, and each class of instructions is one case. -/

set_option autoImplicit false

namespace Datapath

open Word (bits)

namespace View

/-- The registers and the memory hold the signed values of vectors. -/
structure Represents (v : View) (s : Reference) : Prop where
  pc : v.pc = s.pc
  registers : ∀ i, v.registers.get i = (s.reg i).toInt
  memory : v.memory = s.memory.map BitVec.toInt

variable {v : View} {s : Reference}

theorem Represents.bits_get (h : v.Represents s) (i : Fin 32) :
    bits (v.registers.get i) = s.reg i := by
  rw [h.registers, Word.bits_toInt]

theorem Represents.size_eq (h : v.Represents s) : v.memory.size = s.memory.size := by
  rw [h.memory, Array.size_map]

theorem Represents.get_word (h : v.Represents s) (i : Nat) :
    DataMemory.get ⟨v.memory, [], []⟩ i = (s.word i).toInt := by
  rw [DataMemory.get, Reference.word, h.memory, Array.getD_eq_getD_getElem?,
    Array.getD_eq_getD_getElem?, Array.getElem?_map]
  cases s.memory[i]? <;> rfl

theorem Represents.move (h : v.Represents s) {pc target : Int} (hpc : pc = target) :
    { v with pc }.Represents { s with pc := target } := ⟨hpc, h.registers, h.memory⟩

theorem Represents.next (h : v.Represents s) :
    { v with pc := v.pc + 4 }.Represents s.next.state := h.move (congrArg (· + 4) h.pc)

theorem Represents.set (h : v.Represents s) (rd : Fin 32) {y : Int} {x : BitVec 32}
    (hy : bits y = x) : (v.apply (.register rd y)).Represents (s.set rd x) := by
  refine ⟨h.pc, ?_, h.memory⟩
  intro i
  rw [Reference.reg_set]
  refine (Registers.get_set _ _ _ _).trans ?_
  split
  · rw [← hy, Word.toInt_bits]
  · exact h.registers i

theorem Represents.store (h : v.Represents s) (i : Nat) {y : Int} {x : BitVec 32}
    (hy : bits y = x) :
    (v.apply (.memory i y)).Represents { s with memory := s.memory.setIfInBounds i x } := by
  refine ⟨h.pc, h.registers, ?_⟩
  simp only [apply, h.memory, ← hy]
  rw [← Word.toInt_bits, ← Array.map_setIfInBounds]

end View

def Reference.Effect.phase (e : Reference.Effect) (length : Nat) : Phase :=
  if e.halts then .halted else if e.state.pc / 4 ≥ length then .finished else .ready

namespace View

variable {v : View} {s : Reference}

/-- A plan, or the lack of one, does what an effect says. An escape promises nothing. -/
def Realizes (v : View) (s : Reference) : Except Abort Plan → Reference.Effect → Prop
  | .error (.escape _), _ => True
  | .error (.fault x), e => e = s.fail x.name
  | .ok p, e =>
    e.fault = none ∧ e.halts = p.halts ∧
      { v.apply p.write with pc := if p.halts then v.pc else p.nextPc }.Represents e.state

theorem pc_apply (v : View) (w : Write) : (v.apply w).pc = v.pc := by cases w <;> rfl

theorem follow_of_realizes {x : Except Abort Plan} {e : Reference.Effect} (h : v.Represents s)
    (hx : v.Realizes s x e) {length : Nat} {r : StepReport} {v' : View}
    (hf : v.follow length x = (.ok r, v')) :
    v'.Represents e.state ∧ v'.phase = e.phase length ∧ r = v'.report e.fault := by
  cases x with
  | error a =>
    cases a with
    | escape a => cases hf
    | fault x =>
      obtain rfl := hx
      unfold follow at hf
      cases hm : x.message with
      | error m => simp [hm] at hf
      | ok m =>
        simp only [hm] at hf
        cases hf
        refine ⟨⟨?_, h.registers, h.memory⟩, ?_, rfl⟩
        · exact congrArg (· + 4) h.pc
        · simp [Reference.Effect.phase, Reference.fail, h.pc]
  | ok p =>
    obtain ⟨hfault, hhalts, hrep⟩ := hx
    unfold follow at hf
    cases hm : p.message with
    | error m => simp [hm] at hf
    | ok m =>
      simp only [hm] at hf
      cases hh : p.halts with
      | true =>
        simp only [hh, ↓reduceIte] at hf hrep hhalts
        cases hf
        refine ⟨⟨(pc_apply v p.write).trans hrep.pc, hrep.registers, hrep.memory⟩, ?_, ?_⟩
        · simp [Reference.Effect.phase, hhalts]
        · rw [hfault]
      | false =>
        simp only [hh, Bool.false_eq_true, ↓reduceIte] at hf hrep hhalts
        cases hf
        have hpc : p.nextPc = e.state.pc := hrep.pc
        refine ⟨⟨hpc, hrep.registers, hrep.memory⟩, ?_, ?_⟩
        · simp [Reference.Effect.phase, hhalts, hpc]
        · rw [hfault]
          rfl

end View

namespace Order

open Instruction (orderFor)

theorem register_natCast {n : Nat} (h : n < 32) :
    register (some (n : Int)) = .ok (Reference.register n) := by
  have hn : some (n : Int) = named (Reference.register n) := by
    rw [named, Reference.val_register h]
  rw [hn, register_named]

theorem exactly_orderFor {op : Opcode} (kind : ExecClass) (operands : List (Option Int))
    {α : Type} {part : Opcode → Option α} {x : α} (h : part op = some x) :
    (orderFor op kind operands).exactly part = .ok x := by
  simp only [exactly, Instruction.exact_orderFor]
  simp only [orderFor, h]

end Order

namespace View

open Instruction (orderFor)
open Outcome (ok_bind)
open Reference (register)

variable {v : View} {s : Reference} {op : Opcode} {f : Fields} {operands : List (Option Int)}

theorem Represents.put (h : v.Represents s) (rd : Fin 32) {y : Int} {x : BitVec 32}
    (hy : bits y = x) :
    { v.apply (.register rd y) with pc := v.pc + 4 }.Represents (s.put rd x).state :=
  (h.set rd hy).next

theorem realizes_register (h : v.Represents s) (hf : f.Bounded) {o : Word.Operation}
    (ho : op.operation? = some o) {x : BitVec 32}
    (hx : bits (o.eval (v.registers.get (register f.rs1))
      (v.registers.get (register f.rs2))) = x) :
    v.Realizes s ((orderFor op .register operands).planRegister v.registers v.pc (some f.rd)
      (some f.rs1) (some f.rs2)) (s.put (register f.rd) x) := by
  simp only [Order.planRegister, Order.register_natCast hf.rd, Order.register_natCast hf.rs1,
    Order.register_natCast hf.rs2, Order.exactly_orderFor _ _ ho, ok_bind]
  exact ⟨rfl, rfl, h.put _ hx⟩

theorem realizes_immediate (h : v.Represents s) (hf : f.Bounded) {o : Word.Operation}
    (ho : op.operation? = some o) {x : BitVec 32}
    (hx : bits (o.eval (v.registers.get (register f.rs1)) f.imm) = x) :
    v.Realizes s ((orderFor op .immediate operands).planImmediate v.registers v.pc (some f.rd)
      (some f.rs1) (some f.imm)) (s.put (register f.rd) x) := by
  simp only [Order.planImmediate, Order.register_natCast hf.rd, Order.register_natCast hf.rs1,
    Order.immediate, Order.exactly_orderFor _ _ ho, ok_bind]
  exact ⟨rfl, rfl, h.put _ hx⟩

theorem index_eq (h : v.Represents s) (address : Int) :
    (DataMemory.index ⟨v.memory, [], []⟩ address).mapError
        (fun e => Abort.fault (.memoryOutOfBounds e))
      = if 0 ≤ address / 4 ∧ address / 4 < s.memory.size then .ok (address / 4).toNat
        else .error (.fault (.memoryOutOfBounds (.outOfRange address s.memory.size))) := by
  simp only [DataMemory.index, DataMemory.size, h.size_eq]
  split <;> rfl

theorem realizes_load (h : v.Represents s) (hf : f.Bounded) :
    v.Realizes s ((orderFor op .load operands).planLoad v.registers ⟨v.memory, [], []⟩ v.pc
      (some f.rd) (some f.imm) (some f.rs1))
      (s.load (register f.rd) ((s.reg (register f.rs1)).toInt + f.imm)) := by
  simp only [Order.planLoad, Order.register_natCast hf.rd, Order.register_natCast hf.rs1,
    Order.immediate, ok_bind, index_eq h, h.registers, Reference.load, Reference.access]
  split
  · refine ⟨rfl, rfl, h.put _ ?_⟩
    rw [h.get_word, Word.bits_toInt]
  · rfl

theorem realizes_store (h : v.Represents s) (hf : f.Bounded) :
    v.Realizes s ((orderFor op .store operands).planStore v.registers ⟨v.memory, [], []⟩ v.pc
      (some f.rs2) (some f.imm) (some f.rs1))
      (s.store (s.reg (register f.rs2)) ((s.reg (register f.rs1)).toInt + f.imm)) := by
  simp only [Order.planStore, Order.register_natCast hf.rs2, Order.register_natCast hf.rs1,
    Order.immediate, ok_bind, index_eq h, h.registers, Reference.store, Reference.access]
  split
  · exact ⟨rfl, rfl, (h.store _ (Word.bits_toInt _)).next⟩
  · rfl

theorem realizes_upper (h : v.Represents s) (hf : f.Bounded) :
    v.Realizes s ((orderFor op .upper operands).planUpper v.pc (some f.rd) (some f.imm))
      (s.put (register f.rd) (if op = .lui then BitVec.ofInt 32 (f.imm * 0x1000)
        else BitVec.ofInt 32 (s.pc + f.imm * 0x1000))) := by
  simp only [Order.planUpper, Order.register_natCast hf.rd, Order.immediate, ok_bind,
    Instruction.exact_orderFor]
  refine ⟨rfl, rfl, h.put _ ?_⟩
  by_cases hop : op = .lui
  · simp only [orderFor, hop, decide_true, Bool.and_self, ↓reduceIte, Word.bits_signed]
    rfl
  · simp only [orderFor, hop, decide_false, Bool.and_false, Bool.false_eq_true, ↓reduceIte,
      Word.bits_signed, Word.bits_add, h.pc]
    exact (Word.bits_add _ _).symm

theorem realizes_limited {α : Type} {x : Except Decimal.LimitError α} {k : α → Except Abort Plan}
    {e : Reference.Effect} (hk : ∀ a, v.Realizes s (k a) e) :
    v.Realizes s (Order.limited x >>= k) e := by
  cases x with
  | error _ => trivial
  | ok a => exact hk a

theorem realizes_aligned (o : Order) (target : Int) {p : Plan} {e : Reference.Effect}
    (hp : v.Realizes s (.ok p) e) :
    v.Realizes s (o.alignedTarget target >>= fun _ => pure p)
      (if target < 0 ∨ target % 4 ≠ 0 then s.fail "InvalidBranchTarget" else e) := by
  unfold Order.alignedTarget
  split
  · rfl
  · exact hp

theorem realizes_link (h : v.Represents s) (o : Order) (rd : Fin 32) (offset target : Int)
    (text : String) : v.Realizes s (o.planLink v.pc rd offset target text) (s.link rd target) := by
  have hlink : bits (v.pc + 4) = BitVec.ofInt 32 (s.pc + 4) := by
    rw [h.pc]
    rfl
  exact realizes_aligned o target ⟨rfl, rfl, (h.set rd hlink).move rfl⟩

theorem realizes_jal (h : v.Represents s) (hf : f.Bounded) (rest : List (Option Int)) :
    v.Realizes s ((orderFor .jal .jump operands).planJump v.registers v.pc (some f.rd)
      (some f.imm) rest) (s.link (register f.rd) (s.pc + f.imm)) := by
  simp only [Order.planJump, Order.register_natCast hf.rd, Order.immediate, ok_bind,
    Instruction.exact_orderFor]
  rw [← h.pc]
  exact realizes_limited fun _ => realizes_link h _ _ _ _ _

theorem realizes_jalr (h : v.Represents s) (hf : f.Bounded) (rest : List (Option Int)) :
    v.Realizes s ((orderFor .jalr .jump operands).planJump v.registers v.pc (some f.rd)
      (some f.imm) (some f.rs1 :: rest))
      (s.link (register f.rd)
        ((s.reg (register f.rs1) + BitVec.ofInt 32 f.imm) &&& ~~~1#32).toInt) := by
  have htarget : ((s.reg (register f.rs1) + BitVec.ofInt 32 f.imm) &&& ~~~1#32).toInt
      = Word.signed (v.registers.get (register f.rs1) + f.imm)
        - Word.signed (v.registers.get (register f.rs1) + f.imm) % 2 := by
    rw [Word.toInt_and_not_one, ← Word.toInt_bits, Word.bits_add, h.bits_get]
    rfl
  have hjal : ¬ (orderFor .jalr .jump operands).opcode = .jal := by simp [orderFor]
  simp only [Order.planJump, Order.register_natCast hf.rd, Order.register_natCast hf.rs1,
    Order.immediate, ok_bind, hjal, and_false, ↓reduceIte, List.head?_cons, Option.getD_some,
    htarget]
  exact realizes_limited fun _ => realizes_link h _ _ _ _ _

theorem realizes_branch (h : v.Represents s) (hf : f.Bounded) {c : Word.Comparison}
    (hc : op.comparison? = some c) {taken : Bool}
    (ht : c.holds (v.registers.get (register f.rs1)) (v.registers.get (register f.rs2))
      = taken) (hhalt : ¬ (op = .beq ∧ f.rs1 = 0 ∧ f.rs2 = 0 ∧ f.imm = 0)) :
    v.Realizes s ((orderFor op .branch operands).planBranch v.registers v.pc (some f.rs1)
      (some f.rs2) (some f.imm)) (s.branch taken f.imm) := by
  simp only [Order.planBranch, Order.register_natCast hf.rs1, Order.register_natCast hf.rs2,
    Order.immediate, Order.exactly_orderFor _ _ hc, ok_bind, ht]
  refine realizes_limited fun i => ?_
  have hhalt' : ¬ ((orderFor op .branch operands).opcode = .beq ∧ (register f.rs1).val = 0 ∧
      (register f.rs2).val = 0 ∧ f.imm = 0) := by
    rw [Reference.val_register hf.rs1, Reference.val_register hf.rs2]
    exact hhalt
  rw [if_neg hhalt']
  cases taken with
  | false => exact ⟨rfl, rfl, h.next⟩
  | true =>
    unfold Reference.branch Reference.goto
    simp only [↓reduceIte]
    rw [← h.pc]
    exact realizes_aligned _ _ ⟨rfl, rfl, h.move rfl⟩

theorem realizes_halt (h : v.Represents s) :
    v.Realizes s ((orderFor .beq .branch operands).planBranch v.registers v.pc (some 0) (some 0)
      (some 0)) { state := s, halts := true } := by
  have hr : Order.register (some 0) = .ok 0 := rfl
  have hc : (orderFor .beq .branch operands).exactly Opcode.comparison? = .ok .eq :=
    Order.exactly_orderFor _ _ rfl
  simp only [Order.planBranch, hr, Order.immediate, hc, ok_bind]
  refine realizes_limited fun _ => ?_
  exact ⟨rfl, rfl, h.move h.pc⟩

open Instruction (canonical)

theorem plan_canonical {kind : ExecClass} (hk : op.kind = some kind) (v : View) (f : Fields) :
    v.plan (canonical op f)
      = (orderFor op kind (f.values op.format)).plan v.registers ⟨v.memory, [], []⟩ v.pc := by
  unfold plan Instruction.plan canonical
  rw [Instruction.order?_named, hk]
  rfl

theorem plan_canonical_none (hk : op.kind = none) (v : View) (f : Fields) :
    v.plan (canonical op f) = .error (.fault (.unsupportedOpcode op.name)) := by
  unfold plan Instruction.plan canonical
  rw [Instruction.order?_named, hk]
  rfl

theorem realizes_beq (h : v.Represents s) (hf : f.Bounded) :
    v.Realizes s (v.plan (canonical .beq f)) (s.execute .beq f) := by
  rw [plan_canonical rfl]
  by_cases hhalt : f.rs1 = 0 ∧ f.rs2 = 0 ∧ f.imm = 0
  · obtain ⟨_, rs1, rs2, imm⟩ := f
    obtain ⟨rfl, rfl, rfl⟩ := hhalt
    exact realizes_halt h
  · have he : s.execute .beq f
        = s.branch (s.reg (register f.rs1) == s.reg (register f.rs2)) f.imm := if_neg hhalt
    rw [he]
    apply realizes_branch h hf rfl
    · rw [Word.Comparison.holds_eq, h.bits_get, h.bits_get]
    · exact fun hb => hhalt hb.2

theorem realizes_plan (h : v.Represents s) (hf : f.Bounded) (op : Opcode) :
    v.Realizes s (v.plan (canonical op f)) (s.execute op f) := by
  have ha := h.bits_get (register f.rs1)
  have hb := h.bits_get (register f.rs2)
  have hc : bits f.imm = BitVec.ofInt 32 f.imm := rfl
  cases op with
  | add =>
    rw [plan_canonical rfl]
    exact realizes_register h hf rfl (by rw [Word.Operation.bits_eval_add, ha, hb])
  | sub =>
    rw [plan_canonical rfl]
    exact realizes_register h hf rfl (by rw [Word.Operation.bits_eval_sub, ha, hb])
  | sll =>
    rw [plan_canonical rfl]
    exact realizes_register h hf rfl (by rw [Word.Operation.bits_eval_sll, ha, hb])
  | slt =>
    rw [plan_canonical rfl]
    exact realizes_register h hf rfl (by rw [Word.Operation.bits_eval_slt, ha, hb])
  | sltu =>
    rw [plan_canonical rfl]
    exact realizes_register h hf rfl (by rw [Word.Operation.bits_eval_sltu, ha, hb])
  | xor =>
    rw [plan_canonical rfl]
    exact realizes_register h hf rfl (by rw [Word.Operation.bits_eval_xor, ha, hb])
  | srl =>
    rw [plan_canonical rfl]
    exact realizes_register h hf rfl (by rw [Word.Operation.bits_eval_srl, ha, hb])
  | sra =>
    rw [plan_canonical rfl]
    exact realizes_register h hf rfl (by rw [Word.Operation.bits_eval_sra, ha, hb])
  | or =>
    rw [plan_canonical rfl]
    exact realizes_register h hf rfl (by rw [Word.Operation.bits_eval_or, ha, hb])
  | and =>
    rw [plan_canonical rfl]
    exact realizes_register h hf rfl (by rw [Word.Operation.bits_eval_and, ha, hb])
  | addi =>
    rw [plan_canonical rfl]
    exact realizes_immediate h hf rfl (by rw [Word.Operation.bits_eval_add, ha, hc])
  | slti =>
    rw [plan_canonical rfl]
    exact realizes_immediate h hf rfl (by rw [Word.Operation.bits_eval_slt, ha, hc])
  | sltiu =>
    rw [plan_canonical rfl]
    exact realizes_immediate h hf rfl (by rw [Word.Operation.bits_eval_sltu, ha, hc])
  | xori =>
    rw [plan_canonical rfl]
    exact realizes_immediate h hf rfl (by rw [Word.Operation.bits_eval_xor, ha, hc])
  | ori =>
    rw [plan_canonical rfl]
    exact realizes_immediate h hf rfl (by rw [Word.Operation.bits_eval_or, ha, hc])
  | andi =>
    rw [plan_canonical rfl]
    exact realizes_immediate h hf rfl (by rw [Word.Operation.bits_eval_and, ha, hc])
  | slli =>
    rw [plan_canonical rfl]
    exact realizes_immediate h hf rfl (by rw [Word.Operation.bits_eval_sll, ha, hc])
  | srli =>
    rw [plan_canonical rfl]
    exact realizes_immediate h hf rfl (by rw [Word.Operation.bits_eval_srl, ha, hc])
  | srai =>
    rw [plan_canonical rfl]
    exact realizes_immediate h hf rfl (by rw [Word.Operation.bits_eval_sra, ha, hc])
  | lw =>
    rw [plan_canonical rfl]
    exact realizes_load h hf
  | sw =>
    rw [plan_canonical rfl]
    exact realizes_store h hf
  | lb | lh | lbu | lhu | sb | sh =>
    rw [plan_canonical_none rfl]
    rfl
  | beq => exact realizes_beq h hf
  | bne =>
    rw [plan_canonical rfl]
    exact realizes_branch h hf rfl (by rw [Word.Comparison.holds_ne, ha, hb]) (by simp)
  | blt =>
    rw [plan_canonical rfl]
    exact realizes_branch h hf rfl (by rw [Word.Comparison.holds_lt, ha, hb]) (by simp)
  | bge =>
    rw [plan_canonical rfl]
    exact realizes_branch h hf rfl (by rw [Word.Comparison.holds_ge, ha, hb]) (by simp)
  | bltu =>
    rw [plan_canonical rfl]
    exact realizes_branch h hf rfl (by rw [Word.Comparison.holds_ltu, ha, hb]) (by simp)
  | bgeu =>
    rw [plan_canonical rfl]
    exact realizes_branch h hf rfl (by rw [Word.Comparison.holds_geu, ha, hb]) (by simp)
  | jal =>
    rw [plan_canonical rfl]
    exact realizes_jal h hf []
  | jalr =>
    rw [plan_canonical rfl]
    exact realizes_jalr h hf []
  | lui =>
    rw [plan_canonical rfl]
    exact realizes_upper h hf
  | auipc =>
    rw [plan_canonical rfl]
    exact realizes_upper h hf

/-- The state of the reference machine with the lowest 32 bits of everything. -/
def reference (v : View) : Reference where
  pc := v.pc
  registers := fun i => bits (v.registers.get i)
  memory := v.memory.map bits

theorem represents_reference {v : View} (h : HoldsWords v.registers v.memory) :
    v.Represents v.reference := by
  refine ⟨rfl, ?_, ?_⟩
  · intro i
    by_cases hi : i = 0
    · rw [hi, Reference.reg_zero, h.zero]
      rfl
    · rw [Reference.reg_of_ne _ hi, reference, Word.toInt_bits, h.registers]
  · unfold reference
    rw [Array.map_map]
    have hw : v.memory.map (BitVec.toInt ∘ bits) = v.memory.map id := by
      apply Array.map_congr_left
      intro x hx
      rw [Function.comp_apply, Word.toInt_bits, h.memory x hx]
      rfl
    rw [hw, Array.map_id]

end View

/-- Each step that returns does what the reference machine does. -/
theorem Session.step_refines {s : Session} (hs : s.Reachable) {line : Slot} {i : Instruction}
    {op : Opcode} {f : Fields} (hline : s.machine.fetch = some line)
    (hi : line.parsed = some i) (hd : i.Denotes op f) {r : StepReport} {m : Machine}
    (hstep : s.machine.step = (.ok r, m)) :
    let v := s.machine.view
    let e := v.reference.execute op f
    v.Represents v.reference ∧ m.view.Represents e.state ∧
      m.phase = e.phase s.machine.program.length ∧ r.bare = m.view.report e.fault ∧
      m.program = s.machine.program := by
  have hv : s.machine.view.Represents s.machine.view.reference :=
    View.represents_reference hs.sound
  have henter : s.machine.view.enter.Represents s.machine.view.reference :=
    ⟨hv.pc, hv.registers, hv.memory⟩
  -- Neither extra operands nor another spelling change the plan.
  have hplan : s.machine.view.enter.plan i
      = s.machine.view.enter.plan (Instruction.canonical op f) := hd.plan_eq
  have hreal := View.realizes_plan henter hd.bounded op
  rw [← hplan] at hreal
  have hseen := Machine.seen_step s.machine
  have hlen : s.machine.program.code.length = s.machine.program.length := List.length_map _
  have hgoing : ¬ s.machine.view.pc / 4 ≥ s.machine.program.length := fun hover => by
    cases (Machine.finished_iff.2 hover).symm.trans (Machine.not_finished_of_fetch hline)
  simp only [hstep, View.step, Machine.fetch_view, hline, Option.map_some, hi, hlen,
    if_neg hgoing] at hseen
  obtain ⟨hrep, hphase, hreport⟩ := View.follow_of_realizes henter hreal hseen.symm
  have hprog := Machine.program_step s.machine
  rw [hstep] at hprog
  exact ⟨hv, hrep, hphase, hreport, hprog⟩

theorem Session.step_refines_jalr :
    ∃ (s : Session) (r : StepReport) (m : Machine), s.Reachable ∧ s.machine.step = (.ok r, m) ∧
      m.view.Represents
        (s.machine.view.reference.execute .jalr { rd := 5, rs1 := 5, imm := 9 }).state := by
  let i : Instruction := ⟨"jalr".toList, [some 5, some 9, some 5]⟩
  let line : Slot := ⟨"jalr x5, 9(x5)".toList, 0, some i⟩
  obtain ⟨m, hm⟩ : ∃ m, Machine.create {} = .ok m := ⟨_, rfl⟩
  let s := ((Session.ofMachine m).perform (.load "jalr t0, 9(t0)".toList)).2
  have hs : s.Reachable := .perform _ (.start hm)
  have hp : Program.load "jalr t0, 9(t0)".toList = .ok ⟨[line]⟩ := rfl
  have hmachine : s.machine = m.install ⟨[line]⟩ := by
    simp only [s, Session.perform, Machine.load, Session.ofMachine, hp]
  have hd : i.Denotes .jalr { rd := 5, rs1 := 5, imm := 9 } :=
    .named .jalr { rd := 5, rs1 := 5, imm := 9 } [] ⟨by decide, by decide, by decide⟩
  obtain ⟨p, text, hplan, htext⟩ : ∃ p text,
      i.plan .zero ⟨Array.replicate m.memory.size 0, [], []⟩ 0 = .ok p ∧ p.message = .ok text :=
    ⟨_, _, rfl, rfl⟩
  obtain ⟨r, v, hfollow⟩ := (View.start m.memory.size).enter.exists_follow_ok 1 htext
  have hgoing : ¬ (m.install ⟨[line]⟩).view.pc / 4 ≥ (m.install ⟨[line]⟩).program.code.length := by
    change ¬ (0 : Int) / 4 ≥ (1 : Nat)
    decide
  have hseen : Machine.seen s.machine.step = (.ok r, v) := by
    rw [Machine.seen_step, hmachine, ← hfollow, ← hplan, View.step, if_neg hgoing]
    rfl
  obtain ⟨r', hr, -⟩ := Outcome.map_eq_ok.1 (congrArg Prod.fst hseen)
  have hstep : s.machine.step = (.ok r', s.machine.step.2) := Prod.ext hr rfl
  exact ⟨s, r', _, hs, hstep, (Session.step_refines hs (by rw [hmachine]; rfl) rfl hd hstep).2.1⟩

end Datapath
