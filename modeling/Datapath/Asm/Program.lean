import Datapath.Isa
import Datapath.Text.Word

set_option autoImplicit false

namespace Datapath

namespace Asm

def isCommentMark (c : Char) : Bool := c = '#' || c = ';'

def beforeComment (line : Text) : Text := line.takeWhile (!isCommentMark ·)

def isSeparator (c : Char) : Bool := Text.isBlank c || c = ',' || c = '(' || c = ')'

def tokens (line : Text) : List Text := Text.fields isSeparator line

def registerNumber? : Text → Except Decimal.LimitError (Option Nat)
  | 'x' :: run => Decimal.readNat? run
  | 'X' :: run => Decimal.readNat? run
  | _ => .ok none

def operand? : Text → Except Decimal.LimitError (Option Int)
  | 'x' :: run => (·.map Int.ofNat) <$> Decimal.readNat? run
  | 'X' :: run => (·.map Int.ofNat) <$> Decimal.readNat? run
  | token => Decimal.read? token

end Asm

/-- An operand that is neither a register nor an integer has no value. -/
structure Instruction where
  mnemonic : Text
  operands : List (Option Int)
  deriving DecidableEq, Repr

namespace Instruction

def kind (i : Instruction) : Option ExecClass := (Opcode.lookup? i.mnemonic).bind Opcode.kind

def parse? (line : Text) : Except Decimal.LimitError (Option Instruction) :=
  match Asm.tokens line with
  | [] => .ok none
  | mnemonic :: operands =>
    (fun values => some ⟨Text.lowercase mnemonic, values⟩) <$> operands.mapM Asm.operand?

def operandText : Option Int → Except Decimal.LimitError Text
  | none => .ok "None".toList
  | some v => String.toList <$> Decimal.write v

def text (i : Instruction) : Except Decimal.LimitError Text :=
  (fun values => Text.trimEnd (i.mnemonic ++ ' ' :: Text.join ", ".toList values)) <$>
    i.operands.mapM operandText

end Instruction

namespace Asm

/-- A word that is recognised as a register name but is none in small letters. -/
structure UnknownName where
  name : Text
  deriving DecidableEq, Repr

/-- Names are compared in small letters, and a long s counts as an s. -/
def foldChar (c : Char) : Char := if c = 'ſ' then 's' else c.toLower

def renameWord (word : Text) : Except UnknownName Text :=
  match RegisterName.index? (word.map foldChar) with
  | none => .ok word
  | some _ =>
    let small := word.map Char.toLower
    match RegisterName.index? small with
    | some i => .ok ('x' :: Decimal.digits i)
    | none => .error ⟨small⟩

def renameSegment : Text.Segment → Except UnknownName Text
  | .word w => renameWord w
  | .mark c => .ok [c]

def renameRegisters (line : Text) : Except UnknownName Text :=
  List.flatten <$> (Text.segments line).mapM renameSegment

end Asm

inductive LoadError where
  | name : Asm.UnknownName → LoadError
  | limit : Decimal.LimitError → LoadError
  deriving DecidableEq, Repr

def LoadError.message : LoadError → String
  | .name e => String.ofList e.name
  | .limit e => e.message

/-- One instruction slot. -/
structure Slot where
  raw : Text
  address : Nat
  parsed : Option Instruction
  deriving DecidableEq, Repr

def Slot.index (line : Slot) : Nat := line.address / 4

/-- A line without its label: word characters, a colon, and the blanks after it. -/
def Asm.dropLabel (line : Text) : Text :=
  match line.span Text.isWordChar with
  | ([], _) => line
  | (_, ':' :: rest) => rest.dropWhile Text.isBlank
  | _ => line

/-- The instruction that a source line holds, in the form in which it is read. -/
def Asm.instructionText? (line : Text) : Except Asm.UnknownName (Option Text) :=
  match Text.trim (Asm.beforeComment line) with
  | [] => .ok none
  | '.' :: _ => .ok none
  | '@' :: _ => .ok none
  | body =>
    match Asm.dropLabel body with
    | [] => .ok none
    | rest => (fun t => let t := Text.trim t; if t = [] then none else some t) <$>
        Asm.renameRegisters rest

/-- The instruction lines of a source text, each with the number of its line, counted from one. -/
def Asm.numberedLines (source : Text) : Except Asm.UnknownName (List (Nat × Text)) :=
  List.filterMap id <$>
    ((Text.lines source).zipIdx 1).mapM fun (line, number) =>
      (·.map (number, ·)) <$> Asm.instructionText? line

def Asm.instructionTexts (source : Text) : Except Asm.UnknownName (List Text) :=
  List.map Prod.snd <$> Asm.numberedLines source

structure Program where
  lines : List Slot
  deriving DecidableEq, Repr

namespace Program

def empty : Program := ⟨[]⟩

def length (p : Program) : Nat := p.lines.length

def line? (p : Program) (index : Int) : Option Slot :=
  if index < 0 then none else p.lines[index.toNat]?

/-- The line at an index; a negative index counts from the end. -/
def at? (p : Program) (index : Int) : Option Slot :=
  p.line? (if index < 0 then index + p.length else index)

theorem getElem?_of_at? {p : Program} {index : Int} {line : Slot} (h : p.at? index = some line) :
    ∃ k : Nat, p.lines[k]? = some line ∧ index ≤ k := by
  unfold at? line? at h
  generalize hi : (if index < 0 then index + p.length else index) = i at h
  split at h
  · cases h
  · refine ⟨i.toNat, h, ?_⟩
    split at hi <;> omega

def place (slots : List (Text × Option Instruction)) : Program :=
  ⟨slots.zipIdx.map fun ((raw, parsed), i) => ⟨raw, 4 * i, parsed⟩⟩

def load (source : Text) : Except LoadError Program := do
  let lines ← (Asm.instructionTexts source).mapError .name
  let slots ← lines.mapM fun raw =>
    ((raw, ·) <$> Instruction.parse? raw).mapError LoadError.limit
  pure (place slots)

def listing (p : Program) : Text :=
  Text.join ['\n'] (p.lines.map fun l => Hexadecimal.text 4 l.address ++ ":  ".toList ++ l.raw)

end Program

end Datapath
