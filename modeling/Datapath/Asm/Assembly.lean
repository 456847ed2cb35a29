import Datapath.Asm.Program
import Datapath.Machine.Trace
import Datapath.Text.Quoted

/-! A whole source text as instruction words, one for every line of the program. A line that has no
word of its own gets the word of zeros and a failure. -/

set_option autoImplicit false

namespace Datapath

inductive EncodeError where
  | emptyLine
  | unsupported (mnemonic : Text)
  | missingOperands (mnemonic : Text) (needed given : Nat)
  | invalidRegister (mnemonic token : Text)
  | invalidImmediate (mnemonic token : Text)
  deriving DecidableEq, Repr

def EncodeError.message : EncodeError → String
  | .emptyLine => "empty line"
  | .unsupported m => s!"unsupported instruction: {String.ofList m}"
  | .missingOperands m needed given =>
    s!"{String.ofList m}: expected {Decimal.shown needed} operands, got {Decimal.shown given}"
  | .invalidRegister m t => s!"{String.ofList m}: invalid register '{String.ofList t}'"
  | .invalidImmediate m t => s!"{String.ofList m}: invalid immediate '{String.ofList t}'"

/-- A line is rejected for a fault of its own, or it holds a numeral that is too long to read. -/
inductive EncodeFailure where
  | rejected : EncodeError → EncodeFailure
  | limit : Decimal.LimitError → EncodeFailure
  deriving DecidableEq, Repr

namespace Encoding

def register (mnemonic token : Text) : Except EncodeFailure Nat := do
  match ← (Asm.registerNumber? token).mapError .limit with
  | some i => if i < 32 then pure i else throw (.rejected (.invalidRegister mnemonic token))
  | none => throw (.rejected (.invalidRegister mnemonic token))

def immediate (mnemonic token : Text) : Except EncodeFailure Int := do
  match ← (Decimal.read? token).mapError .limit with
  | some v => pure v
  | none => throw (.rejected (.invalidImmediate mnemonic token))

def readRegisters (mnemonic : Text) : Fields → List (Role × Text) → Except EncodeFailure Fields
  | f, [] => .ok f
  | f, (.imm, _) :: rest => readRegisters mnemonic f rest
  | f, (role, token) :: rest => do
    readRegisters mnemonic (f.setRegister (← register mnemonic token) role) rest

def readImmediate (mnemonic : Text) : Fields → List (Role × Text) → Except EncodeFailure Fields
  | f, [] => .ok f
  | f, (.imm, token) :: _ => do pure { f with imm := ← immediate mnemonic token }
  | f, _ :: rest => readImmediate mnemonic f rest

def fields (mnemonic : Text) (format : Format) (operands : List Text) :
    Except EncodeFailure Fields :=
  if operands.length < format.roles.length then
    .error (.rejected (.missingOperands mnemonic format.roles.length operands.length))
  else do
    let slots := format.roles.zip operands
    readImmediate mnemonic (← readRegisters mnemonic {} slots) slots

/-- The instruction word of a line. -/
def word (line : Text) : Except EncodeFailure Nat :=
  match Asm.tokens (Asm.beforeComment line) with
  | [] => .error (.rejected .emptyLine)
  | first :: operands =>
    let mnemonic := Text.lowercase first
    match Opcode.lookup? first with
    | none => .error (.rejected (.unsupported mnemonic))
    | some op =>
      if mnemonic = Opcode.nopName then .ok (op.word {})
      else op.word <$> fields mnemonic op.format operands

def encode (line : Text) : Except EncodeFailure Text := (Bits.row 32) <$> word line

end Encoding

inductive DecodeError where
  | notBits (text : Text)
  | unknown (major funct3 funct7 : Nat)
  deriving DecidableEq, Repr

def DecodeError.message : DecodeError → String
  | .notBits t => s!"Not a 32-bit binary string: {String.ofList (Text.quoted t)}"
  | .unknown major funct3 funct7 =>
    s!"Unknown encoding: opcode={String.ofList (Bits.row 7 major)} "
      ++ s!"funct3={String.ofList (Bits.row 3 funct3)} funct7={String.ofList (Bits.row 7 funct7)}"

namespace Decoding

/-- The instruction of a word; only the lowest 32 bits count. Operands have the order in which they
are written. -/
def decode (w : Int) : Except DecodeError Instruction :=
  match Opcode.ofWord? w with
  | none => .error (.unknown (Bits.field w 6 0) (Bits.field w 14 12) (Bits.field w 31 25))
  | some op =>
    .ok ⟨op.name, op.format.roles.map fun role => some ((Opcode.fieldsOf w op.format).get role)⟩

def decodeText (t : Text) : Except DecodeError Instruction :=
  if t.length = 32 ∧ t.all (fun c => c = '0' ∨ c = '1') then decode (Bits.value t)
  else .error (.notBits t)

end Decoding

/-- The word of a line that cannot be encoded. -/
def zeroWord : Text := List.replicate 32 '0'

/-- A line that could not be encoded, with its number in the source. -/
structure AssemblyFailure where
  number : Nat
  line : Text
  cause : EncodeError
  deriving DecidableEq, Repr

def AssemblyFailure.message (f : AssemblyFailure) : String :=
  s!"Line {Decimal.shown f.number}: {f.cause.message}"

structure AssembledLine where
  number : Nat
  line : Text
  word : Text
  cause : Option EncodeError
  deriving DecidableEq, Repr

namespace AssembledLine

def failure? (l : AssembledLine) : Option AssemblyFailure := l.cause.map (⟨l.number, l.line, ·⟩)

def ofLine (number : Nat) (line : Text) : Except Decimal.LimitError AssembledLine :=
  match Encoding.encode line with
  | .ok word => .ok ⟨number, line, word, none⟩
  | .error (.rejected e) => .ok ⟨number, line, zeroWord, some e⟩
  | .error (.limit e) => .error e

end AssembledLine

/-- The lines of a source with their words, the failures, and the texts that are told about them. -/
structure Assembly where
  lines : List AssembledLine
  failures : List AssemblyFailure
  errors : List String
  failures_eq : failures = lines.filterMap (·.failure?)
  errors_eq : errors = failures.map (·.message)

namespace Assembly

def empty : Assembly := ⟨[], [], [], rfl, rfl⟩

/-- An assembly with one more line in front. A line that has failed adds its failure and the text
of it. -/
def push (l : AssembledLine) (a : Assembly) : Assembly :=
  match h : l.failure? with
  | none => { a with lines := l :: a.lines, failures_eq := by simp [h, a.failures_eq] }
  | some f =>
    { lines := l :: a.lines
      failures := f :: a.failures
      errors := f.message :: a.errors
      failures_eq := by simp [h, a.failures_eq]
      errors_eq := by simp [a.errors_eq] }

def ofLines (ls : List AssembledLine) : Assembly := ls.foldr push empty

@[simp] theorem lines_push (l : AssembledLine) (a : Assembly) :
    (push l a).lines = l :: a.lines := by
  unfold push
  split <;> rfl

@[simp] theorem lines_ofLines (ls : List AssembledLine) : (ofLines ls).lines = ls := by
  induction ls with
  | nil => rfl
  | cons l ls ih => rw [ofLines, List.foldr_cons, lines_push, ← ofLines, ih]

def words (a : Assembly) : List Text := a.lines.map (·.word)

def succeeded (a : Assembly) : Bool := a.errors.isEmpty

def text (a : Assembly) : Text := Text.join ['\n'] a.words

def listingHead : List Text :=
  ["  ADDR  HEX       BINARY                            SOURCE".toList, List.replicate 72 '-']

def listingRow (i : Nat) (l : AssembledLine) : Text :=
  '$' :: Hexadecimal.text 4 (4 * i) ++ "  ".toList ++ Hexadecimal.text 8 (Bits.value l.word)
    ++ "  ".toList ++ l.word ++ "  ".toList ++ l.line

def listing (a : Assembly) : Text :=
  Text.join ['\n'] (listingHead ++ a.lines.zipIdx.map fun (l, i) => listingRow i l)

def notices (a : Assembly) : List Notice :=
  a.errors.map (⟨.warning, .assembler, ·⟩)
    ++ (if a.succeeded then []
      else [⟨.error, .assembler, s!"Encoding errors on {Decimal.shown a.errors.length} lines"⟩])
    ++ [⟨.info, .assembler, s!"Encoded {Decimal.shown a.words.length} instructions"⟩]

/-- Encodes every instruction line of a source text. -/
def ofSource (source : Text) : Except LoadError Assembly := do
  let lines ← (Asm.numberedLines source).mapError .name
  let lines ← lines.mapM fun (number, line) =>
    (AssembledLine.ofLine number line).mapError LoadError.limit
  pure (ofLines lines)

end Assembly

end Datapath
