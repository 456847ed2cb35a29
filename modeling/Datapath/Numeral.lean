import Datapath.Text.Basic

set_option autoImplicit false

namespace Datapath

namespace Text

def zeros : List Nat :=
  [0x30, 0x660, 0x6F0, 0x7C0, 0x966, 0x9E6, 0xA66, 0xAE6, 0xB66, 0xBE6, 0xC66, 0xCE6, 0xD66,
   0xDE6, 0xE50, 0xED0, 0xF20, 0x1040, 0x1090, 0x17E0, 0x1810, 0x1946, 0x19D0, 0x1A80, 0x1A90,
   0x1B50, 0x1BB0, 0x1C40, 0x1C50, 0xA620, 0xA8D0, 0xA900, 0xA9D0, 0xA9F0, 0xAA50, 0xABF0, 0xFF10,
   0x104A0, 0x10D30, 0x11066, 0x110F0, 0x11136, 0x111D0, 0x112F0, 0x11450, 0x114D0, 0x11650,
   0x116C0, 0x11730, 0x118E0, 0x11950, 0x11C50, 0x11D50, 0x11DA0, 0x16A60, 0x16AC0, 0x16B50,
   0x1D7CE, 0x1D7D8, 0x1D7E2, 0x1D7EC, 0x1D7F6, 0x1E140, 0x1E2F0, 0x1E950, 0x1FBF0]

def digitIn : List Nat → Nat → Option Nat
  | [], _ => none
  | first :: rest, n =>
    if n < first then none else if n < first + 10 then some (n - first) else digitIn rest n

def digitValue? (c : Char) : Option Nat := digitIn zeros c.toNat

def isDecimalDigit (c : Char) : Bool := (digitValue? c).isSome

theorem digitIn_lt {blocks : List Nat} {n d : Nat} (h : digitIn blocks n = some d) : d < 10 := by
  induction blocks with
  | nil => simp [digitIn] at h
  | cons first rest ih =>
    simp only [digitIn] at h
    split at h
    · simp at h
    · split at h
      · simp only [Option.some.injEq] at h; omega
      · exact ih h

theorem digitValue?_lt {c : Char} {d : Nat} (h : digitValue? c = some d) : d < 10 := digitIn_lt h

end Text

namespace Decimal

/-- The greatest number of digits of a numeral. -/
def maxDigits : Nat := 4300

inductive LimitError where
  | reading : Nat → LimitError
  | writing : LimitError
  deriving DecidableEq, Repr

def digits (n : Nat) : Text := Nat.toDigits 10 n

def text (n : Int) : Text := if n < 0 then '-' :: digits n.natAbs else digits n.natAbs

def shown (n : Int) : String := String.ofList (text n)

/-- The numeral of an integer, if it is not too long. -/
def write (n : Int) : Except LimitError String :=
  if (digits n.natAbs).length ≤ maxDigits then .ok (shown n) else .error .writing

def LimitError.message (e : LimitError) : String :=
  let value := match e with
    | .reading n => s!": value has {shown n} digits"
    | .writing => ""
  s!"Exceeds the limit ({shown maxDigits} digits) for integer string conversion{value}; "
    ++ "use sys.set_int_max_str_digits() to increase the limit"

def value (run : Text) : Nat :=
  run.foldl (fun n c => 10 * n + (Text.digitValue? c).getD 0) 0

def readDigits (run : Text) : Except LimitError Nat :=
  if run.length ≤ maxDigits then .ok (value run) else .error (.reading run.length)

def digitRun? (t : Text) : Option Text :=
  let run := if t.getLast? = some '\n' then t.dropLast else t
  if run ≠ [] ∧ run.all Text.isDecimalDigit then some run else none

def readNat? (t : Text) : Except LimitError (Option Nat) :=
  match digitRun? t with
  | none => .ok none
  | some run => some <$> readDigits run

/-- An integer with an optional sign; `none` if the text is no such numeral. -/
def read? : Text → Except LimitError (Option Int)
  | '-' :: t => (·.map fun n => -(n : Int)) <$> readNat? t
  | '+' :: t => (·.map fun n => (n : Int)) <$> readNat? t
  | t => (·.map fun n => (n : Int)) <$> readNat? t

end Decimal

namespace Hexadecimal

def text (width n : Nat) : Text := Text.padLeft '0' width ((Nat.toDigits 16 n).map Char.toUpper)

end Hexadecimal

namespace Bits

inductive WidthError where
  | negative
  deriving DecidableEq, Repr

def WidthError.message : WidthError → String
  | .negative => "negative shift count"

def bit (b : Bool) : Char := if b then '1' else '0'

def row : Nat → Nat → Text
  | 0, _ => []
  | width + 1, n => bit (n.testBit width) :: row width n

theorem length_row (width n : Nat) : (row width n).length = width := by
  induction width with
  | zero => rfl
  | succ w ih => simp [row, ih]

def value (t : Text) : Nat := t.foldl (fun n c => 2 * n + if c = '1' then 1 else 0) 0

def rowCount (width : Nat) : Nat := 1 <<< width

/-- The lowest `width` bits of an integer; no bits at all are written as a single zero. -/
def toText (v : Int) (width : Nat) : Text :=
  if width = 0 then ['0'] else row width (v % rowCount width).toNat

def toText? (v width : Int) : Except WidthError Text :=
  if width < 0 then .error .negative else .ok (toText v width.toNat)

/-- The lowest `width` bits as a number with a sign. -/
def signExtend (v : Int) (width : Nat) : Int := v.bmod (rowCount width)

def signExtend? (v width : Int) : Except WidthError Int :=
  if width ≤ 0 then .error .negative else .ok (signExtend v width.toNat)

/-- The bits from `high` down to `low`. -/
def field (v : Int) (high low : Nat) : Nat := (v / rowCount low % rowCount (high - low + 1)).toNat

theorem rowCount_pos (width : Nat) : 0 < rowCount width := by
  rw [rowCount, Nat.shiftLeft_eq, Nat.one_mul]
  exact Nat.two_pow_pos width

theorem field_lt (v : Int) (high low : Nat) : field v high low < rowCount (high - low + 1) := by
  have hp : (0 : Int) < rowCount (high - low + 1) := Int.natCast_pos.2 (rowCount_pos _)
  have hl := Int.emod_lt_of_pos (v / rowCount low) hp
  have hn := Int.emod_nonneg (v / rowCount low) (Int.ne_of_gt hp)
  unfold field
  omega

end Bits

end Datapath
