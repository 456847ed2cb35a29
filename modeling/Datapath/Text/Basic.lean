set_option autoImplicit false

namespace Datapath

/-- A text is the list of its characters. -/
abbrev Text := List Char

namespace Text

/-- Whether `n` lies in one of the ranges; they increase, so the search stops at the first range
that starts above `n`. -/
def inRanges : List (Nat × Nat) → Nat → Bool
  | [], _ => false
  | (first, last) :: rest, n =>
    if n < first then false else if n ≤ last then true else inRanges rest n

theorem exists_range_of_inRanges {ranges : List (Nat × Nat)} {n : Nat}
    (h : inRanges ranges n = true) : ∃ r ∈ ranges, r.1 ≤ n ∧ n ≤ r.2 := by
  induction ranges with
  | nil => simp [inRanges] at h
  | cons r rest ih =>
    obtain ⟨first, last⟩ := r
    simp only [inRanges] at h
    split at h
    · simp at h
    · split at h
      · exact ⟨(first, last), by simp, by omega, by omega⟩
      · obtain ⟨r, hr, hb⟩ := ih h
        exact ⟨r, by simp [hr], hb⟩

def consFirst (c : Char) : List Text → List Text
  | [] => [[c]]
  | piece :: rest => (c :: piece) :: rest

/-- The pieces between separators; there is one more of them than there are separators. -/
def pieces (separator : Char → Bool) : Text → List Text
  | [] => [[]]
  | c :: rest =>
    if separator c then [] :: pieces separator rest else consFirst c (pieces separator rest)

def fields (separator : Char → Bool) (t : Text) : List Text :=
  (pieces separator t).filter (· ≠ [])

def dropEndWhile (p : Char → Bool) (t : Text) : Text := (t.reverse.dropWhile p).reverse

def join (separator : Text) : List Text → Text
  | [] => []
  | [t] => t
  | t :: rest => t ++ separator ++ join separator rest

def padLeft (fill : Char) (width : Nat) (t : Text) : Text :=
  List.replicate (width - t.length) fill ++ t

def padRight (fill : Char) (width : Nat) (t : Text) : Text :=
  t ++ List.replicate (width - t.length) fill

def blankRanges : List (Nat × Nat) :=
  [(0x9, 0xD), (0x1C, 0x20), (0x85, 0x85), (0xA0, 0xA0), (0x1680, 0x1680), (0x2000, 0x200A),
   (0x2028, 0x2029), (0x202F, 0x202F), (0x205F, 0x205F), (0x3000, 0x3000)]

def isBlank (c : Char) : Bool := inRanges blankRanges c.toNat

def trimEnd (t : Text) : Text := dropEndWhile isBlank t

def trim (t : Text) : Text := trimEnd (t.dropWhile isBlank)

def lineBreakRanges : List (Nat × Nat) :=
  [(0xA, 0xD), (0x1C, 0x1E), (0x85, 0x85), (0x2028, 0x2029)]

def isLineBreak (c : Char) : Bool := inRanges lineBreakRanges c.toNat

/-- The lines of a text, without what ends them; a break at the very end starts no further line. -/
def lines : Text → List Text
  | [] => []
  | '\r' :: '\n' :: rest => [] :: lines rest
  | c :: rest => if isLineBreak c then [] :: lines rest else consFirst c (lines rest)

def unifyBreaks : Text → Text
  | [] => []
  | '\r' :: '\n' :: rest => '\n' :: unifyBreaks rest
  | c :: rest => (if c = '\r' then '\n' else c) :: unifyBreaks rest

inductive Utf8Cause where
  | startByte
  | continuationByte
  | endOfData
  deriving DecidableEq, Repr

structure Utf8Error where
  cause : Utf8Cause
  lead : UInt8
  first : Nat
  count : Nat
  deriving DecidableEq, Repr

def Utf8Cause.message : Utf8Cause → Text
  | .startByte => "invalid start byte".toList
  | .continuationByte => "invalid continuation byte".toList
  | .endOfData => "unexpected end of data".toList

def Utf8Error.message (e : Utf8Error) : Text :=
  let place :=
    if e.count = 1 then
      " byte 0x".toList ++ padLeft '0' 2 (Nat.toDigits 16 e.lead.toNat)
        ++ " in position ".toList ++ Nat.toDigits 10 e.first
    else
      " bytes in position ".toList ++ Nat.toDigits 10 e.first ++ '-' ::
        Nat.toDigits 10 (e.first + e.count - 1)
  "'utf-8' codec can't decode".toList ++ place ++ ": ".toList ++ e.cause.message

/-- What a first octet asks for: how many octets follow it, the bits that it gives, and the range
of the octet after it. -/
structure Utf8Lead where
  tail : Nat
  bits : Nat
  least : UInt8
  greatest : UInt8

def Utf8Lead.of? (b : UInt8) : Option Utf8Lead :=
  if b < 0xC2 then none
  else if b < 0xE0 then some ⟨1, b.toNat - 0xC0, 0x80, 0xBF⟩
  else if b = 0xE0 then some ⟨2, 0, 0xA0, 0xBF⟩
  else if b = 0xED then some ⟨2, 0xD, 0x80, 0x9F⟩
  else if b < 0xF0 then some ⟨2, b.toNat - 0xE0, 0x80, 0xBF⟩
  else if b = 0xF0 then some ⟨3, 0, 0x90, 0xBF⟩
  else if b < 0xF4 then some ⟨3, b.toNat - 0xF0, 0x80, 0xBF⟩
  else if b = 0xF4 then some ⟨3, 4, 0x80, 0x8F⟩
  else none

inductive Utf8State where
  | between
  | inside (lead : UInt8) (seen owed bits : Nat) (least greatest : UInt8)

/-- Reads on from `place`; an octet that does not continue its character is reported together with
the octets before it, and is not part of the report. -/
def readUtf8 (place : Nat) : Utf8State → List UInt8 → Except Utf8Error Text
  | .between, [] => .ok []
  | .inside lead seen _ _ _ _, [] => .error ⟨.endOfData, lead, place - seen, seen⟩
  | .between, b :: rest =>
    if b < 0x80 then (Char.ofNat b.toNat :: ·) <$> readUtf8 (place + 1) .between rest
    else match Utf8Lead.of? b with
      | none => .error ⟨.startByte, b, place, 1⟩
      | some l => readUtf8 (place + 1) (.inside b 1 l.tail l.bits l.least l.greatest) rest
  | .inside lead seen owed bits least greatest, b :: rest =>
    if b < least ∨ greatest < b then .error ⟨.continuationByte, lead, place - seen, seen⟩
    else
      let bits := bits * 64 + (b.toNat - 0x80)
      if owed ≤ 1 then (Char.ofNat bits :: ·) <$> readUtf8 (place + 1) .between rest
      else readUtf8 (place + 1) (.inside lead (seen + 1) (owed - 1) bits 0x80 0xBF) rest

def ofUtf8 (octets : List UInt8) : Except Utf8Error Text := readUtf8 0 .between octets

def toUtf8 (t : Text) : List UInt8 := (String.ofList t).toUTF8.toList

end Text

end Datapath
