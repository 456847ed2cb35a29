import Datapath.Numeral
import Datapath.Text.Lowercase

set_option autoImplicit false

namespace Datapath

/-- How the fields of an instruction are laid out in a word and written in a line. -/
inductive Format where
  | register
  | immediate
  | shift
  | memory
  | store
  | branch
  | upper
  | jump
  deriving DecidableEq, Repr

def Format.name : Format → Text
  | .register => "R".toList
  | .immediate => "I".toList
  | .shift => "I_SHIFT".toList
  | .memory => "I_MEM".toList
  | .store => "S".toList
  | .branch => "B".toList
  | .upper => "U".toList
  | .jump => "J".toList

inductive ExecClass where
  | register
  | immediate
  | load
  | store
  | branch
  | upper
  | jump
  deriving DecidableEq, Repr

def ExecClass.letter : ExecClass → Char
  | .register => 'R'
  | .immediate => 'I'
  | .load => 'L'
  | .store => 'S'
  | .branch => 'B'
  | .upper => 'U'
  | .jump => 'J'

inductive Opcode where
  | add | sub | sll | slt | sltu | xor | srl | sra | or | and
  | addi | slti | sltiu | xori | ori | andi | slli | srli | srai
  | lb | lh | lw | lbu | lhu
  | sb | sh | sw
  | beq | bne | blt | bge | bltu | bgeu
  | jal | jalr | lui | auipc
  deriving DecidableEq, Repr

/-- One row of the table. Byte and halfword accesses have words but no class. -/
structure Spec where
  format : Format
  major : Nat
  funct3 : Nat
  funct7 : Nat
  kind : Option ExecClass
  deriving DecidableEq, Repr

namespace Opcode

def spec : Opcode → Spec
  | add => ⟨.register, 0b0110011, 0b000, 0b0000000, some .register⟩
  | sub => ⟨.register, 0b0110011, 0b000, 0b0100000, some .register⟩
  | sll => ⟨.register, 0b0110011, 0b001, 0b0000000, some .register⟩
  | slt => ⟨.register, 0b0110011, 0b010, 0b0000000, some .register⟩
  | sltu => ⟨.register, 0b0110011, 0b011, 0b0000000, some .register⟩
  | xor => ⟨.register, 0b0110011, 0b100, 0b0000000, some .register⟩
  | srl => ⟨.register, 0b0110011, 0b101, 0b0000000, some .register⟩
  | sra => ⟨.register, 0b0110011, 0b101, 0b0100000, some .register⟩
  | or => ⟨.register, 0b0110011, 0b110, 0b0000000, some .register⟩
  | and => ⟨.register, 0b0110011, 0b111, 0b0000000, some .register⟩
  | addi => ⟨.immediate, 0b0010011, 0b000, 0, some .immediate⟩
  | slti => ⟨.immediate, 0b0010011, 0b010, 0, some .immediate⟩
  | sltiu => ⟨.immediate, 0b0010011, 0b011, 0, some .immediate⟩
  | xori => ⟨.immediate, 0b0010011, 0b100, 0, some .immediate⟩
  | ori => ⟨.immediate, 0b0010011, 0b110, 0, some .immediate⟩
  | andi => ⟨.immediate, 0b0010011, 0b111, 0, some .immediate⟩
  | slli => ⟨.shift, 0b0010011, 0b001, 0b0000000, some .immediate⟩
  | srli => ⟨.shift, 0b0010011, 0b101, 0b0000000, some .immediate⟩
  | srai => ⟨.shift, 0b0010011, 0b101, 0b0100000, some .immediate⟩
  | lb => ⟨.memory, 0b0000011, 0b000, 0, none⟩
  | lh => ⟨.memory, 0b0000011, 0b001, 0, none⟩
  | lw => ⟨.memory, 0b0000011, 0b010, 0, some .load⟩
  | lbu => ⟨.memory, 0b0000011, 0b100, 0, none⟩
  | lhu => ⟨.memory, 0b0000011, 0b101, 0, none⟩
  | sb => ⟨.store, 0b0100011, 0b000, 0, none⟩
  | sh => ⟨.store, 0b0100011, 0b001, 0, none⟩
  | sw => ⟨.store, 0b0100011, 0b010, 0, some .store⟩
  | beq => ⟨.branch, 0b1100011, 0b000, 0, some .branch⟩
  | bne => ⟨.branch, 0b1100011, 0b001, 0, some .branch⟩
  | blt => ⟨.branch, 0b1100011, 0b100, 0, some .branch⟩
  | bge => ⟨.branch, 0b1100011, 0b101, 0, some .branch⟩
  | bltu => ⟨.branch, 0b1100011, 0b110, 0, some .branch⟩
  | bgeu => ⟨.branch, 0b1100011, 0b111, 0, some .branch⟩
  | jal => ⟨.jump, 0b1101111, 0, 0, some .jump⟩
  | jalr => ⟨.memory, 0b1100111, 0b000, 0, some .jump⟩
  | lui => ⟨.upper, 0b0110111, 0, 0, some .upper⟩
  | auipc => ⟨.upper, 0b0010111, 0, 0, some .upper⟩

def name : Opcode → Text
  | add => "add".toList
  | sub => "sub".toList
  | sll => "sll".toList
  | slt => "slt".toList
  | sltu => "sltu".toList
  | xor => "xor".toList
  | srl => "srl".toList
  | sra => "sra".toList
  | or => "or".toList
  | and => "and".toList
  | addi => "addi".toList
  | slti => "slti".toList
  | sltiu => "sltiu".toList
  | xori => "xori".toList
  | ori => "ori".toList
  | andi => "andi".toList
  | slli => "slli".toList
  | srli => "srli".toList
  | srai => "srai".toList
  | lb => "lb".toList
  | lh => "lh".toList
  | lw => "lw".toList
  | lbu => "lbu".toList
  | lhu => "lhu".toList
  | sb => "sb".toList
  | sh => "sh".toList
  | sw => "sw".toList
  | beq => "beq".toList
  | bne => "bne".toList
  | blt => "blt".toList
  | bge => "bge".toList
  | bltu => "bltu".toList
  | bgeu => "bgeu".toList
  | jal => "jal".toList
  | jalr => "jalr".toList
  | lui => "lui".toList
  | auipc => "auipc".toList

def format (op : Opcode) : Format := op.spec.format

def kind (op : Opcode) : Option ExecClass := op.spec.kind

def all : List Opcode :=
  [add, sub, sll, slt, sltu, xor, srl, sra, or, and,
   addi, slti, sltiu, xori, ori, andi, slli, srli, srai,
   lb, lh, lw, lbu, lhu, sb, sh, sw,
   beq, bne, blt, bge, bltu, bgeu, jal, jalr, lui, auipc]

theorem mem_all (op : Opcode) : op ∈ all := by cases op <;> decide

theorem name_injective {a b : Opcode} (h : a.name = b.name) : a = b := by
  have key : ∀ a ∈ all, ∀ b ∈ all, a.name = b.name → a = b := by decide
  exact key a (mem_all a) b (mem_all b) h

def ofName? (t : Text) : Option Opcode := all.find? (·.name = t)

/-- The mnemonic for doing nothing stands for `addi x0, x0, 0`. -/
def nopName : Text := "nop".toList

/-- The opcode of a mnemonic in any mix of capital and small letters. -/
def lookup? (mnemonic : Text) : Option Opcode :=
  let small := Text.lowercase mnemonic
  if small = nopName then some addi else ofName? small

end Opcode

namespace RegisterName

def conventional : List (Text × Nat) :=
  [("zero".toList, 0), ("ra".toList, 1), ("sp".toList, 2), ("gp".toList, 3), ("tp".toList, 4),
   ("t0".toList, 5), ("t1".toList, 6), ("t2".toList, 7), ("s0".toList, 8), ("fp".toList, 8),
   ("s1".toList, 9), ("a0".toList, 10), ("a1".toList, 11), ("a2".toList, 12), ("a3".toList, 13),
   ("a4".toList, 14), ("a5".toList, 15), ("a6".toList, 16), ("a7".toList, 17), ("s2".toList, 18),
   ("s3".toList, 19), ("s4".toList, 20), ("s5".toList, 21), ("s6".toList, 22), ("s7".toList, 23),
   ("s8".toList, 24), ("s9".toList, 25), ("s10".toList, 26), ("s11".toList, 27), ("t3".toList, 28),
   ("t4".toList, 29), ("t5".toList, 30), ("t6".toList, 31)]

def index? (name : Text) : Option Nat := conventional.lookup name

def shown : List Text :=
  (List.range 32).map fun i => ((conventional.find? (·.2 = i)).map (·.1)).getD []

theorem index?_lt {name : Text} {i : Nat} (h : index? name = some i) : i < 32 := by
  have hall : ∀ p ∈ conventional, p.2 < 32 := by decide
  obtain ⟨l₁, l₂, hl, -⟩ := List.lookup_eq_some_iff.1 h
  exact hall (name, i) (by rw [hl]; simp)

end RegisterName

inductive Role where
  | rd
  | rs1
  | rs2
  | imm
  deriving DecidableEq, Repr

def Format.roles : Format → List Role
  | .register => [.rd, .rs1, .rs2]
  | .immediate => [.rd, .rs1, .imm]
  | .shift => [.rd, .rs1, .imm]
  | .memory => [.rd, .imm, .rs1]
  | .store => [.rs2, .imm, .rs1]
  | .branch => [.rs1, .rs2, .imm]
  | .upper => [.rd, .imm]
  | .jump => [.rd, .imm]

/-- The values of the operands; a format uses those of its roles. -/
structure Fields where
  rd : Nat := 0
  rs1 : Nat := 0
  rs2 : Nat := 0
  imm : Int := 0
  deriving DecidableEq, Repr

namespace Fields

def get (f : Fields) : Role → Int
  | .rd => f.rd
  | .rs1 => f.rs1
  | .rs2 => f.rs2
  | .imm => f.imm

def setRegister (f : Fields) (v : Nat) : Role → Fields
  | .rd => { f with rd := v }
  | .rs1 => { f with rs1 := v }
  | .rs2 => { f with rs2 := v }
  | .imm => f

end Fields

namespace Opcode

open Bits (field)

/-- The word of an instruction. An immediate counts modulo the width of its field. -/
def word (op : Opcode) (f : Fields) : Nat :=
  let s := op.spec
  let base := s.funct3 <<< 12 + s.major
  match s.format with
  | .register => s.funct7 <<< 25 + f.rs2 <<< 20 + f.rs1 <<< 15 + f.rd <<< 7 + base
  | .immediate => field f.imm 11 0 <<< 20 + f.rs1 <<< 15 + f.rd <<< 7 + base
  | .shift => s.funct7 <<< 25 + field f.imm 4 0 <<< 20 + f.rs1 <<< 15 + f.rd <<< 7 + base
  | .memory => field f.imm 11 0 <<< 20 + f.rs1 <<< 15 + f.rd <<< 7 + base
  | .store =>
    field f.imm 11 5 <<< 25 + f.rs2 <<< 20 + f.rs1 <<< 15 + field f.imm 4 0 <<< 7 + base
  | .branch =>
    field f.imm 12 12 <<< 31 + field f.imm 10 5 <<< 25 + f.rs2 <<< 20 + f.rs1 <<< 15
      + field f.imm 4 1 <<< 8 + field f.imm 11 11 <<< 7 + base
  | .upper => field f.imm 19 0 <<< 12 + f.rd <<< 7 + s.major
  | .jump =>
    field f.imm 20 20 <<< 31 + field f.imm 10 1 <<< 21 + field f.imm 11 11 <<< 20
      + field f.imm 19 12 <<< 12 + f.rd <<< 7 + s.major

def immediate (w : Int) : Format → Int
  | .register => 0
  | .immediate => Bits.signExtend (field w 31 20) 12
  | .shift => field w 24 20
  | .memory => Bits.signExtend (field w 31 20) 12
  | .store => Bits.signExtend (field w 31 25 <<< 5 + field w 11 7 : Nat) 12
  | .branch =>
    Bits.signExtend (field w 31 31 <<< 12 + field w 7 7 <<< 11 + field w 30 25 <<< 5
      + field w 11 8 <<< 1 : Nat) 13
  | .upper => Bits.signExtend (field w 31 12) 20
  | .jump =>
    Bits.signExtend (field w 31 31 <<< 20 + field w 19 12 <<< 12 + field w 20 20 <<< 11
      + field w 30 21 <<< 1 : Nat) 21

def fieldsOf (w : Int) (format : Format) : Fields :=
  { rd := field w 11 7, rs1 := field w 19 15, rs2 := field w 24 20, imm := immediate w format }

def Matches (w : Int) (op : Opcode) : Prop :=
  field w 6 0 = op.spec.major ∧
  (op.format = .upper ∨ op.format = .jump ∨ field w 14 12 = op.spec.funct3) ∧
  (op.format ≠ .register ∧ op.format ≠ .shift ∨ field w 31 25 = op.spec.funct7)

instance (w : Int) (op : Opcode) : Decidable (Matches w op) := by
  unfold Matches
  infer_instance

/-- The opcode of a word. -/
def ofWord? (w : Int) : Option Opcode := all.find? fun op => Matches w op

end Opcode

end Datapath
