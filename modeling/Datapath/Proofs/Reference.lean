import Datapath.Isa

set_option autoImplicit false

namespace Datapath

structure Reference where
  pc : Int
  registers : Fin 32 → BitVec 32
  memory : Array (BitVec 32)

namespace Reference

/-- What an instruction leads to. -/
structure Effect where
  state : Reference
  fault : Option String := none
  halts : Bool := false

theorem mod_lt (n : Nat) : n % 32 < 32 := Nat.mod_lt n (by decide)

def register (n : Nat) : Fin 32 := ⟨n % 32, mod_lt n⟩

theorem val_register {n : Nat} (h : n < 32) : (register n).val = n := Nat.mod_eq_of_lt h

def reg (s : Reference) (i : Fin 32) : BitVec 32 := if i.val = 0 then 0 else s.registers i

def set (s : Reference) (i : Fin 32) (x : BitVec 32) : Reference :=
  { s with registers := fun j => if j = i then x else s.registers j }

theorem reg_zero (s : Reference) : s.reg 0 = 0 := rfl

theorem reg_of_ne (s : Reference) {i : Fin 32} (h : i ≠ 0) : s.reg i = s.registers i := by
  have hv : ¬ i.val = 0 := fun hv => h (Fin.ext hv)
  rw [reg, if_neg hv]

theorem reg_set (s : Reference) (i j : Fin 32) (x : BitVec 32) :
    (s.set i x).reg j = if i = j ∧ i ≠ 0 then x else s.reg j := by
  by_cases hj : j = 0
  · have hn : ¬ (i = j ∧ i ≠ 0) := fun h => h.2 (h.1.trans hj)
    rw [if_neg hn, hj, reg_zero, reg_zero]
  · rw [reg_of_ne _ hj, reg_of_ne _ hj]
    by_cases hi : i = j
    · subst hi
      simp [set, hj]
    · simp [set, hi, Ne.symm hi]

def word (s : Reference) (i : Nat) : BitVec 32 := s.memory.getD i 0

def fail (s : Reference) (name : String) : Effect :=
  { state := { s with pc := s.pc + 4 }, fault := some name }

def next (s : Reference) : Effect := { state := { s with pc := s.pc + 4 } }

def put (s : Reference) (rd : Fin 32) (x : BitVec 32) : Effect := (s.set rd x).next

def goto (s : Reference) (target : Int) : Effect :=
  if target < 0 ∨ target % 4 ≠ 0 then s.fail "InvalidBranchTarget"
  else { state := { s with pc := target } }

def branch (s : Reference) (taken : Bool) (offset : Int) : Effect :=
  if taken then s.goto (s.pc + offset) else s.next

def link (s : Reference) (rd : Fin 32) (target : Int) : Effect :=
  if target < 0 ∨ target % 4 ≠ 0 then s.fail "InvalidBranchTarget"
  else { state := { s.set rd (BitVec.ofInt 32 (s.pc + 4)) with pc := target } }

def access (s : Reference) (address : Int) (f : Nat → Effect) : Effect :=
  let i := address / 4
  if 0 ≤ i ∧ i < s.memory.size then f i.toNat else s.fail "MemoryOutOfBounds"

def load (s : Reference) (rd : Fin 32) (address : Int) : Effect :=
  s.access address fun i => s.put rd (s.word i)

def store (s : Reference) (x : BitVec 32) (address : Int) : Effect :=
  s.access address fun i => { s with memory := s.memory.setIfInBounds i x }.next

/-- The instructions of the machine. Immediates are integers of any size. -/
def execute (s : Reference) (op : Opcode) (f : Fields) : Effect :=
  let rd := register f.rd
  let a := s.reg (register f.rs1)
  let b := s.reg (register f.rs2)
  let c := BitVec.ofInt 32 f.imm
  let shift (x : BitVec 32) : Nat := x.toNat % 32
  match op with
  | .add => s.put rd (a + b)
  | .sub => s.put rd (a - b)
  | .sll => s.put rd (a <<< shift b)
  | .slt => s.put rd (if a.slt b then 1 else 0)
  | .sltu => s.put rd (if a.ult b then 1 else 0)
  | .xor => s.put rd (a ^^^ b)
  | .srl => s.put rd (a >>> shift b)
  | .sra => s.put rd (a.sshiftRight (shift b))
  | .or => s.put rd (a ||| b)
  | .and => s.put rd (a &&& b)
  | .addi => s.put rd (a + c)
  | .slti => s.put rd (if a.slt c then 1 else 0)
  | .sltiu => s.put rd (if a.ult c then 1 else 0)
  | .xori => s.put rd (a ^^^ c)
  | .ori => s.put rd (a ||| c)
  | .andi => s.put rd (a &&& c)
  | .slli => s.put rd (a <<< shift c)
  | .srli => s.put rd (a >>> shift c)
  | .srai => s.put rd (a.sshiftRight (shift c))
  | .lw => s.load rd (a.toInt + f.imm)
  | .sw => s.store b (a.toInt + f.imm)
  | .lb | .lh | .lbu | .lhu | .sb | .sh => s.fail "UnsupportedOpcode"
  | .beq =>
    if f.rs1 = 0 ∧ f.rs2 = 0 ∧ f.imm = 0 then { state := s, halts := true }
    else s.branch (a == b) f.imm
  | .bne => s.branch (a != b) f.imm
  | .blt => s.branch (a.slt b) f.imm
  | .bge => s.branch (!a.slt b) f.imm
  | .bltu => s.branch (a.ult b) f.imm
  | .bgeu => s.branch (!a.ult b) f.imm
  | .jal => s.link rd (s.pc + f.imm)
  | .jalr => s.link rd ((a + c) &&& ~~~1#32).toInt
  | .lui => s.put rd (BitVec.ofInt 32 (f.imm * 0x1000))
  | .auipc => s.put rd (BitVec.ofInt 32 (s.pc + f.imm * 0x1000))

end Reference

end Datapath
