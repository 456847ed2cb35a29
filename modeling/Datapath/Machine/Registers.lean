import Datapath.Isa

set_option autoImplicit false

namespace Datapath

namespace Word

/-- An integer modulo `2^32`, with a sign. -/
def signed (v : Int) : Int := v.bmod 0x100000000

/-- An integer modulo `2^32`, without a sign. -/
def unsigned (v : Int) : Nat := (v % 0x100000000).toNat

theorem signed_lower (v : Int) : -0x80000000 ≤ signed v := by
  have := @Int.le_bmod v 0x100000000 (by decide)
  unfold signed
  omega

theorem signed_upper (v : Int) : signed v < 0x80000000 := by
  have := @Int.bmod_lt v 0x100000000 (by decide)
  unfold signed
  omega

theorem signed_of_bounds {v : Int} (hl : -0x80000000 ≤ v) (hu : v < 0x80000000) : signed v = v := by
  unfold signed
  rw [Int.bmod_eq_of_le_mul_two] <;> omega

@[simp] theorem signed_signed (v : Int) : signed (signed v) = signed v :=
  signed_of_bounds (signed_lower v) (signed_upper v)

inductive Operation where
  | add | sub | and | or | xor | sll | srl | sra | slt | sltu
  deriving DecidableEq, Repr

/-- Only the lowest five bits of a shift amount count. -/
def shiftAmount (v : Int) : Nat := (v % 32).toNat

def Operation.eval : Operation → Int → Int → Int
  | add, a, b => signed (a + b)
  | sub, a, b => signed (a - b)
  | and, a, b => signed (unsigned a &&& unsigned b : Nat)
  | or, a, b => signed (unsigned a ||| unsigned b : Nat)
  | xor, a, b => signed (unsigned a ^^^ unsigned b : Nat)
  | sll, a, b => signed (unsigned a <<< shiftAmount b : Nat)
  | srl, a, b => signed (unsigned a >>> shiftAmount b : Nat)
  | sra, a, b => signed a >>> shiftAmount b
  | slt, a, b => if signed a < signed b then 1 else 0
  | sltu, a, b => if unsigned a < unsigned b then 1 else 0

inductive Comparison where
  | eq | ne | lt | ge | ltu | geu
  deriving DecidableEq, Repr

def Comparison.holds : Comparison → Int → Int → Bool
  | eq, a, b => signed a = signed b
  | ne, a, b => signed a ≠ signed b
  | lt, a, b => signed a < signed b
  | ge, a, b => signed a ≥ signed b
  | ltu, a, b => unsigned a < unsigned b
  | geu, a, b => unsigned a ≥ unsigned b

end Word

namespace Opcode

def operation? : Opcode → Option Word.Operation
  | add | addi => some .add
  | sub => some .sub
  | and | andi => some .and
  | or | ori => some .or
  | xor | xori => some .xor
  | sll | slli => some .sll
  | srl | srli => some .srl
  | sra | srai => some .sra
  | slt | slti => some .slt
  | sltu | sltiu => some .sltu
  | _ => none

def comparison? : Opcode → Option Word.Comparison
  | beq => some .eq
  | bne => some .ne
  | blt => some .lt
  | bge => some .ge
  | bltu => some .ltu
  | bgeu => some .geu
  | _ => none

end Opcode

/-- An operand that is no register number; an absent operand is none either. -/
structure RegisterError where
  operand : Option Int
  deriving DecidableEq, Repr

def RegisterError.message : RegisterError → Except Decimal.LimitError String
  | ⟨none⟩ => .ok "Invalid register xNone"
  | ⟨some i⟩ => ("Invalid register x" ++ ·) <$> Decimal.write i

inductive DisplayError where
  | noColumns
  deriving DecidableEq, Repr

def DisplayError.message : DisplayError → String
  | .noColumns => "range() arg 3 must not be zero"

structure Registers where
  words : Vector Int 32
  deriving DecidableEq, Repr

namespace Registers

def zero : Registers := ⟨Vector.replicate 32 0⟩

def get (r : Registers) (i : Fin 32) : Int := r.words[i]

/-- Register zero keeps its value. -/
def set (r : Registers) (i : Fin 32) (v : Int) : Registers :=
  if i = 0 then r else ⟨r.words.set i (Word.signed v)⟩

@[simp] theorem get_zero (i : Fin 32) : zero.get i = 0 := by simp [zero, get]

theorem get_set (r : Registers) (i j : Fin 32) (v : Int) :
    (r.set i v).get j = if i = j ∧ i ≠ 0 then Word.signed v else r.get j := by
  unfold set get
  by_cases hi : i = 0
  · simp [hi]
  · by_cases hj : i = j
    · subst hj; simp [hi]
    · have : i.val ≠ j.val := fun h => hj (Fin.ext h)
      simp [hi, hj, this]

theorem toNat_lt_of_bounds {i : Int} (h : 0 ≤ i ∧ i < 32) : i.toNat < 32 := by omega

def check (operand : Option Int) : Except RegisterError (Fin 32) :=
  match operand with
  | none => .error ⟨none⟩
  | some i =>
    if h : 0 ≤ i ∧ i < 32 then .ok ⟨i.toNat, toNat_lt_of_bounds h⟩ else .error ⟨some i⟩

def read (r : Registers) (index : Int) : Except RegisterError Int := r.get <$> check (some index)

def write (r : Registers) (index v : Int) : Except RegisterError (Bool × Registers) :=
  (fun i => (decide (i ≠ 0), r.set i v)) <$> check (some index)

def cell (i : Nat) (name : Text) (v : Int) : Text :=
  'x' :: Text.padRight ' ' 2 (Decimal.digits i) ++ '(' :: Text.padLeft ' ' 4 name ++ ")=".toList
    ++ Text.padLeft ' ' 11 (Decimal.text v)

def cells (r : Registers) : List Text :=
  (r.words.toList.zip RegisterName.shown).zipIdx.map fun ((v, name), i) => cell i name v

def rows (r : Registers) (width : Nat) : Text :=
  let row (k : Nat) : Text := Text.join [' '] ((r.cells.drop (k * width)).take width)
  Text.join ['\n'] ((List.range ((32 + width - 1) / width)).map row)

def display (r : Registers) (columns : Int) : Except DisplayError Text :=
  if columns = 0 then .error .noColumns
  else if columns < 0 then .ok []
  else .ok (r.rows columns.toNat)

end Registers

/-- A decimal fraction is its digits, the place of its point in them, and its sign. -/
inductive Scalar where
  | absent
  | truth (b : Bool)
  | integer (v : Int)
  | fraction (negative : Bool) (digits : Text) (point : Int)
  | word (t : Text)
  deriving DecidableEq, Repr

namespace Scalar

def positional (digits : Text) (point : Int) : Text :=
  if point ≤ 0 then '0' :: '.' :: List.replicate (-point).toNat '0' ++ digits
  else
    let whole := Text.padRight '0' point.toNat (digits.take point.toNat)
    let rest := digits.drop point.toNat
    whole ++ '.' :: (if rest = [] then ['0'] else rest)

def scientific (digits : Text) (point : Int) : Text :=
  let power := point - 1
  let sign := if power < 0 then '-' else '+'
  let rest := digits.drop 1
  digits.take 1 ++ (if rest = [] then [] else '.' :: rest) ++ 'e' :: sign ::
    Text.padLeft '0' 2 (Decimal.digits power.natAbs)

def fractionText (negative : Bool) (digits : Text) (point : Int) : Text :=
  let sign := if negative then ['-'] else []
  sign ++ (if digits = [] then ['0', '.', '0']
    else if -4 < point ∧ point ≤ 16 then positional digits point
    else scientific digits point)

def text : Scalar → Except Decimal.LimitError String
  | absent => .ok "None"
  | truth b => .ok (if b then "True" else "False")
  | integer v => Decimal.write v
  | fraction negative digits point => .ok (String.ofList (fractionText negative digits point))
  | word t => .ok (String.ofList t)

def normal (negative : Bool) (digits : Text) (point : Int) : Scalar :=
  let tail := digits.dropWhile (· = '0')
  let core := Text.dropEndWhile (· = '0') tail
  fraction negative core (if core = [] then 0 else point - (digits.length - tail.length))

def ofNumeral (t : Text) : Scalar :=
  let negative := t.head? = some '-'
  let body := if negative then t.drop 1 else t
  let whole := body.takeWhile (·.isDigit)
  match body.drop whole.length with
  | [] =>
    let n : Int := Decimal.value whole
    integer (if negative then -n else n)
  | rest =>
    let fractional :=
      if rest.head? = some '.' then (rest.drop 1).takeWhile (·.isDigit) else []
    let power := ((rest.dropWhile fun c => c ≠ 'e' ∧ c ≠ 'E').drop 1)
    let size : Int := Decimal.value (power.filter (·.isDigit))
    let exponent := if power.head? = some '-' then -size else size
    normal negative (whole ++ fractional) (whole.length + exponent)

def register? : Scalar → Option (Fin 32)
  | integer v => (Registers.check (some v)).toOption
  | _ => none

def refusal (s : Scalar) : Except Decimal.LimitError String :=
  ("Invalid register x" ++ ·) <$> s.text

end Scalar

end Datapath
