import Datapath.Machine.Basic

/-! What an instruction is about to do: the one cell that it stores to, the next address, the
control lines and the trace text. A plan is made from the state before the instruction. -/

set_option autoImplicit false

namespace Datapath

inductive Fault where
  | unsupportedOpcode (mnemonic : Text)
  | insufficientOperands (mnemonic : Text) (needed given : Nat)
  | invalidRegister (e : RegisterError)
  | invalidImmediate (mnemonic : Text)
  | memoryOutOfBounds (e : MemoryError)
  | invalidTarget (name : Text) (target : Int)
  deriving DecidableEq, Repr

namespace Fault

def name : Fault → String
  | unsupportedOpcode _ => "UnsupportedOpcode"
  | insufficientOperands .. => "InsufficientOperands"
  | invalidRegister _ => "InvalidRegisterIndex"
  | invalidImmediate _ => "InvalidImmediate"
  | memoryOutOfBounds _ => "MemoryOutOfBounds"
  | invalidTarget .. => "InvalidBranchTarget"

def message : Fault → Except Decimal.LimitError String
  | unsupportedOpcode m => .ok s!"Unrecognized instruction: {String.ofList m}"
  | insufficientOperands m needed given =>
    .ok (s!"Insufficient operands for {String.ofList m}: "
      ++ s!"need {Decimal.shown needed}, got {Decimal.shown given}")
  | invalidRegister e => e.message
  | invalidImmediate m => .ok s!"Invalid immediate for {String.ofList m}: None"
  | memoryOutOfBounds e => e.message
  | invalidTarget n target => do
    let t ← Decimal.write target
    pure s!"{String.ofList n} target {t} is not a valid instruction address"

end Fault

/-- What the machine does not recover from. -/
inductive Escape where
  | noLine
  | limit (e : Decimal.LimitError)
  | noOperation (mnemonic : Text)
  | delay
  deriving DecidableEq, Repr

def Escape.message : Escape → String
  | .noLine => "tuple index out of range"
  | .limit e => e.message
  | .noOperation m => String.ofList m
  | .delay => "integer division result too large for a float"

/-- The storage cell that an instruction changes. -/
inductive Write where
  | nothing
  | register (rd : Fin 32) (v : Int)
  | memory (index : Nat) (v : Int)
  deriving DecidableEq, Repr

/-- The text is part of the plan, but it is written after the store. -/
structure Plan where
  write : Write
  nextPc : Int
  signals : ControlLines
  message : Except Decimal.LimitError String
  halts : Bool := false

inductive Abort where
  | fault : Fault → Abort
  | escape : Escape → Abort
  deriving DecidableEq, Repr

/-- An instruction whose class is known. The mnemonic is kept as it is written: the operation of an
opcode is found only under its exact name. -/
structure Order where
  opcode : Opcode
  kind : ExecClass
  mnemonic : Text
  operands : List (Option Int)
  deriving DecidableEq, Repr

namespace Instruction

def order? (i : Instruction) : Option Order :=
  match Opcode.lookup? i.mnemonic with
  | none => none
  | some op =>
    op.kind.map fun kind =>
      if i.mnemonic = Opcode.nopName then ⟨op, kind, op.name, [some 0, some 0, some 0]⟩
      else ⟨op, kind, i.mnemonic, i.operands⟩

end Instruction

namespace Order

def exact (o : Order) : Bool := o.mnemonic = o.opcode.name

def shownName (o : Order) : Text := o.opcode.name.map Char.toUpper

def needed (o : Order) : Nat :=
  if o.exact ∧ o.opcode ∈ [Opcode.lui, .auipc, .jal] then 2 else 3

def limited {α : Type} (x : Except Decimal.LimitError α) : Except Abort α :=
  x.mapError fun e => .escape (.limit e)

def register (operand : Option Int) : Except Abort (Fin 32) :=
  (Registers.check operand).mapError fun e => .fault (.invalidRegister e)

def immediate (o : Order) : Option Int → Except Abort Int
  | some v => .ok v
  | none => .error (.fault (.invalidImmediate o.mnemonic))

/-- The part of an opcode that exists only under its exact name. -/
def exactly {α : Type} (o : Order) (part : Opcode → Option α) : Except Abort α :=
  match o.exact, part o.opcode with
  | true, some x => .ok x
  | _, _ => .error (.escape (.noOperation o.mnemonic))

def alignedTarget (o : Order) (target : Int) : Except Abort Unit :=
  if target < 0 ∨ target % 4 ≠ 0 then .error (.fault (.invalidTarget o.shownName target))
  else .ok ()

def planRegister (o : Order) (r : Registers) (pc : Int) (a b c : Option Int) :
    Except Abort Plan := do
  let rd ← register a
  let rs1 ← register b
  let rs2 ← register c
  let operation ← o.exactly Opcode.operation?
  let result := operation.eval (r.get rs1) (r.get rs2)
  let name := String.ofList o.shownName
  pure {
    write := .register rd result
    nextPc := pc + 4
    signals := { kind := some .register, regWrite := true, aluOp := some name, aluResult := result }
    message := .ok (s!"{name} x{Decimal.shown rd}, x{Decimal.shown rs1}, x{Decimal.shown rs2} -> "
      ++ s!"x{Decimal.shown rd} = {Decimal.shown result}") }

def planImmediate (o : Order) (r : Registers) (pc : Int) (a b c : Option Int) :
    Except Abort Plan := do
  let rd ← register a
  let rs1 ← register b
  let imm ← o.immediate c
  let operation ← o.exactly Opcode.operation?
  let result := operation.eval (r.get rs1) imm
  let name := String.ofList o.shownName
  pure {
    write := .register rd result
    nextPc := pc + 4
    signals := { kind := some .immediate, regWrite := true, aluSrc := true, aluOp := some name,
                 aluResult := result, immediate := imm }
    message := (fun i => s!"{name} x{Decimal.shown rd}, x{Decimal.shown rs1}, {i} -> "
      ++ s!"x{Decimal.shown rd} = {Decimal.shown result}") <$> Decimal.write imm }

def planLoad (o : Order) (r : Registers) (m : DataMemory) (pc : Int) (a b c : Option Int) :
    Except Abort Plan := do
  let rd ← register a
  let offset ← o.immediate b
  let rs1 ← register c
  let address := r.get rs1 + offset
  let index ← (m.index address).mapError fun e => .fault (.memoryOutOfBounds e)
  let v := m.get index
  pure {
    write := .register rd v
    nextPc := pc + 4
    signals := { kind := some .load, regWrite := true, aluSrc := true, memRead := true,
                 aluOp := some "ADD", aluResult := address, immediate := offset }
    message := (fun i => s!"LW x{Decimal.shown rd}, {i}(x{Decimal.shown rs1}) -> "
      ++ s!"x{Decimal.shown rd} = mem[{Decimal.shown index}] = {Decimal.shown v}")
      <$> Decimal.write offset }

def planStore (o : Order) (r : Registers) (m : DataMemory) (pc : Int) (a b c : Option Int) :
    Except Abort Plan := do
  let rs2 ← register a
  let offset ← o.immediate b
  let rs1 ← register c
  let address := r.get rs1 + offset
  let v := r.get rs2
  let index ← (m.index address).mapError fun e => .fault (.memoryOutOfBounds e)
  pure {
    write := .memory index v
    nextPc := pc + 4
    signals := { kind := some .store, aluSrc := true, memWrite := true, aluOp := some "ADD",
                 aluResult := address, immediate := offset }
    message := (fun i => s!"SW x{Decimal.shown rs2}, {i}(x{Decimal.shown rs1}) -> "
      ++ s!"mem[{Decimal.shown index}] = {Decimal.shown v}") <$> Decimal.write offset }

/-- Branching from a place to itself on equal zeros is how a program halts. -/
def planBranch (o : Order) (r : Registers) (pc : Int) (a b c : Option Int) :
    Except Abort Plan := do
  let rs1 ← register a
  let rs2 ← register b
  let offset ← o.immediate c
  let comparison ← o.exactly Opcode.comparison?
  let taken := comparison.holds (r.get rs1) (r.get rs2)
  let shownOffset ← limited (Decimal.write offset)
  if o.opcode = .beq ∧ rs1.val = 0 ∧ rs2.val = 0 ∧ offset = 0 then
    pure {
      write := .nothing
      nextPc := pc
      signals := { kind := some .branch, branch := true, aluOp := some "SUB" }
      message := .ok "HALT detected (beq x0, x0, 0) - program stopped"
      halts := true }
  else
    let target := pc + offset
    if taken then o.alignedTarget target
    let next := if taken then target else pc + 4
    let name := String.ofList o.shownName
    let outcome := if taken then "branch taken" else "not taken"
    pure {
      write := .nothing
      nextPc := next
      signals := { kind := some .branch, branch := true, branchTaken := taken, aluOp := some "SUB",
                   aluResult := Word.signed (r.get rs1 - r.get rs2), immediate := offset }
      message := (fun n => s!"{name} x{Decimal.shown rs1}, x{Decimal.shown rs2}, {shownOffset} -> "
        ++ s!"{outcome}, PC={n}") <$> Decimal.write next }

def planUpper (o : Order) (pc : Int) (a b : Option Int) : Except Abort Plan := do
  let rd ← register a
  let imm ← o.immediate b
  let upper := Word.signed (imm * 0x1000)
  let alone : Bool := o.exact && o.opcode = .lui
  let result := if alone then upper else Word.signed (pc + upper)
  pure {
    write := .register rd result
    nextPc := pc + 4
    signals := { kind := some .upper, regWrite := true, aluSrc := true,
                 aluOp := some (if alone then "LUI" else "ADD"), aluResult := result,
                 immediate := imm }
    message := (fun i => s!"{String.ofList o.shownName} x{Decimal.shown rd}, {i} -> "
      ++ s!"x{Decimal.shown rd} = {Decimal.shown result}") <$> Decimal.write imm }

/-- The common end of both jumps. The target was computed before the link is stored. -/
def planLink (o : Order) (pc : Int) (rd : Fin 32) (offset target : Int) (text : String) :
    Except Abort Plan := do
  o.alignedTarget target
  let link := pc + 4
  pure {
    write := .register rd link
    nextPc := target
    signals := { kind := some .jump, regWrite := true, aluSrc := true, branch := true,
                 branchTaken := true, aluOp := some "ADD", aluResult := target,
                 immediate := offset }
    message := do
      let l ← Decimal.write link
      let t ← Decimal.write target
      pure s!"{text} -> x{Decimal.shown rd} = {l}, PC={t}" }

def planJump (o : Order) (r : Registers) (pc : Int) (a b : Option Int) (rest : List (Option Int)) :
    Except Abort Plan := do
  let rd ← register a
  let offset ← o.immediate b
  if o.exact ∧ o.opcode = .jal then
    let i ← limited (Decimal.write offset)
    o.planLink pc rd offset (pc + offset) s!"JAL x{Decimal.shown rd}, {i}"
  else
    let rs1 ← register (rest.head?.getD none)
    let sum := Word.signed (r.get rs1 + offset)
    let i ← limited (Decimal.write offset)
    o.planLink pc rd offset (sum - sum % 2)
      s!"JALR x{Decimal.shown rd}, {i}(x{Decimal.shown rs1})"

def plan (o : Order) (r : Registers) (m : DataMemory) (pc : Int) : Except Abort Plan :=
  let missing : Abort :=
    .fault (.insufficientOperands o.mnemonic o.needed o.operands.length)
  if o.operands.length < o.needed then .error missing
  else match o.kind, o.operands with
    | .register, a :: b :: c :: _ => o.planRegister r pc a b c
    | .immediate, a :: b :: c :: _ => o.planImmediate r pc a b c
    | .load, a :: b :: c :: _ => o.planLoad r m pc a b c
    | .store, a :: b :: c :: _ => o.planStore r m pc a b c
    | .branch, a :: b :: c :: _ => o.planBranch r pc a b c
    | .upper, a :: b :: _ => o.planUpper pc a b
    | .jump, a :: b :: rest => o.planJump r pc a b rest
    | _, _ => .error missing

end Order

def Instruction.plan (i : Instruction) (r : Registers) (m : DataMemory) (pc : Int) :
    Except Abort Plan :=
  match i.order? with
  | none => .error (.fault (.unsupportedOpcode i.mnemonic))
  | some o => o.plan r m pc

end Datapath
