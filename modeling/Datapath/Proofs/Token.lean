import Mathlib.Data.List.TakeWhile
import Datapath.Asm.Program
import Datapath.Proofs.Outcome

set_option autoImplicit false

namespace Datapath

theorem Text.digitValue?_of_isDigit {c : Char} (h : c.isDigit = true) :
    Text.digitValue? c = some (c.toNat - 48) := by
  have hb : 48 ≤ c.toNat ∧ c.toNat ≤ 57 := by
    simpa [Char.isDigit, UInt32.le_iff_toNat_le] using h
  have hl : ¬ c.toNat < 48 := by omega
  have hu : c.toNat < 48 + 10 := by omega
  simp [Text.digitValue?, Text.zeros, Text.digitIn, hl, hu]

namespace Decimal

theorem isDigit_of_mem_digits {n : Nat} {c : Char} (h : c ∈ digits n) : c.isDigit = true :=
  Nat.isDigit_of_mem_toDigits (by decide) (by decide) h

theorem digits_ne_nil (n : Nat) : digits n ≠ [] := Nat.toDigits_ne_nil

theorem foldl_value_eq {run : Text} (h : ∀ c ∈ run, c.isDigit = true) (start : Nat) :
    run.foldl (fun n c => 10 * n + (Text.digitValue? c).getD 0) start
      = Nat.ofDigitChars 10 run start := by
  induction run generalizing start with
  | nil => simp
  | cons c rest ih =>
    have hc := Text.digitValue?_of_isDigit (h c (by simp))
    have hr : ∀ c ∈ rest, c.isDigit = true := fun c hc => h c (by simp [hc])
    rw [List.foldl_cons, Nat.ofDigitChars_cons, ih hr, hc]
    rfl

theorem value_digits (n : Nat) : value (digits n) = n := by
  rw [value, foldl_value_eq fun _ => isDigit_of_mem_digits]
  exact Nat.ofDigitChars_ten_toDigits

theorem digitRun?_digits (n : Nat) : digitRun? (digits n) = some (digits n) := by
  have hl : (digits n).getLast? ≠ some '\n' := by
    intro h
    have hd := isDigit_of_mem_digits (List.mem_of_getLast? h)
    exact absurd hd (by decide)
  have ha : (digits n).all Text.isDecimalDigit = true := by
    rw [List.all_eq_true]
    intro c hc
    rw [Text.isDecimalDigit, Text.digitValue?_of_isDigit (isDigit_of_mem_digits hc)]
    rfl
  simp [digitRun?, hl, digits_ne_nil, ha]

theorem readNat?_digits {n : Nat} (h : (digits n).length ≤ maxDigits) :
    readNat? (digits n) = .ok (some n) := by
  simp only [readNat?, digitRun?_digits, readDigits, h, ↓reduceIte, value_digits]
  rfl

theorem read?_eq_readNat? {t : Text} (hm : t.head? ≠ some '-') (hp : t.head? ≠ some '+') :
    read? t = (·.map fun n => (n : Int)) <$> readNat? t := by
  unfold read?
  split
  · exact absurd rfl hm
  · exact absurd rfl hp
  · rfl

theorem read?_text {v : Int} (h : (digits v.natAbs).length ≤ maxDigits) :
    read? (text v) = .ok (some v) := by
  have hr := readNat?_digits h
  unfold text
  split
  · have hv : -(v.natAbs : Int) = v := by omega
    have hread : read? ('-' :: digits v.natAbs) = .ok (some (-(v.natAbs : Int))) := by
      rw [read?, hr]
      rfl
    rw [hread, hv]
  · have hv : (v.natAbs : Int) = v := by omega
    have hd {c : Char} (hc : (digits v.natAbs).head? = some c) : c.isDigit = true :=
      isDigit_of_mem_digits (List.mem_of_head? hc)
    have hm : (digits v.natAbs).head? ≠ some '-' := fun hc => absurd (hd hc) (by decide)
    have hp : (digits v.natAbs).head? ≠ some '+' := fun hc => absurd (hd hc) (by decide)
    have hread : read? (digits v.natAbs) = .ok (some (v.natAbs : Int)) := by
      rw [read?_eq_readNat? hm hp, hr]
      rfl
    rw [hread, hv]

theorem text_natCast (n : Nat) : text n = digits n := by
  have hn : ¬ (n : Int) < 0 := by omega
  rw [text, if_neg hn, Int.natAbs_natCast]

theorem text_ne_nil (v : Int) : text v ≠ [] := by
  unfold text
  split
  · simp
  · exact digits_ne_nil _

theorem length_digits_le_iff {n k : Nat} (h : 0 < k) :
    (digits n).length ≤ k ↔ n < Nat.pow 10 k := Nat.length_toDigits_le_iff (by decide) h

theorem length_digits_le {n : Nat} (h : n < 0x100000000000000000) :
    (digits n).length ≤ maxDigits :=
  have hlt : n < Nat.pow 10 21 := Nat.lt_trans h (by decide)
  Nat.le_trans ((length_digits_le_iff (by decide)).2 hlt) (by decide)

theorem write_of_lt {v : Int} (h : v.natAbs < 0x100000000000000000) : write v = .ok (shown v) :=
  if_pos (length_digits_le h)

theorem write_of_lt_pow {v : Int} (h : v.natAbs < Nat.pow 10 maxDigits) : write v = .ok (shown v) :=
  if_pos ((length_digits_le_iff (by decide)).2 h)

theorem write_of_pow_le {v : Int} (h : Nat.pow 10 maxDigits ≤ v.natAbs) :
    write v = .error .writing :=
  if_neg fun hl => Nat.not_lt.2 h ((length_digits_le_iff (by decide)).1 hl)

theorem mem_text {v : Int} {c : Char} (h : c ∈ text v) : c = '-' ∨ c.isDigit = true := by
  unfold text at h
  split at h
  · rcases List.mem_cons.1 h with h | h
    · exact .inl h
    · exact .inr (isDigit_of_mem_digits h)
  · exact .inr (isDigit_of_mem_digits h)

end Decimal

namespace Text

variable {separator : Char → Bool}

/-- A token that separators can neither split nor hide. -/
structure IsToken (separator : Char → Bool) (t : Text) : Prop where
  ne_nil : t ≠ []
  solid : ∀ c ∈ t, separator c = false

theorem isToken_iff {t : Text} :
    t.isEmpty = false ∧ t.any separator = false ↔ IsToken separator t := by
  simp only [List.isEmpty_eq_false_iff, List.any_eq_false, Bool.not_eq_true]
  exact ⟨fun h => ⟨h.1, h.2⟩, fun h => ⟨h.ne_nil, h.solid⟩⟩

instance (t : Text) : Decidable (IsToken separator t) := decidable_of_iff _ isToken_iff

theorem pieces_token {t : Text} (h : ∀ c ∈ t, separator c = false) : pieces separator t = [t] := by
  induction t with
  | nil => rfl
  | cons c t ih =>
    have hc := h c (by simp)
    have ht := ih fun d hd => h d (by simp [hd])
    simp [pieces, hc, ht, consFirst]

theorem pieces_token_append {t : Text} {c : Char} (h : ∀ c ∈ t, separator c = false)
    (hc : separator c = true) (rest : Text) :
    pieces separator (t ++ c :: rest) = t :: pieces separator rest := by
  induction t with
  | nil => simp [pieces, hc]
  | cons d t ih =>
    have hd := h d (by simp)
    have ht := ih fun e he => h e (by simp [he])
    simp [pieces, hd, ht, consFirst]

theorem fields_token {t : Text} (h : IsToken separator t) : fields separator t = [t] := by
  simp [fields, pieces_token h.solid, h.ne_nil]

theorem fields_token_append {t : Text} {c : Char} (h : IsToken separator t)
    (hc : separator c = true) (rest : Text) :
    fields separator (t ++ c :: rest) = t :: fields separator rest := by
  simp [fields, pieces_token_append h.solid hc, h.ne_nil]

theorem fields_gap_append {gap : Text} (h : ∀ c ∈ gap, separator c = true) (rest : Text) :
    fields separator (gap ++ rest) = fields separator rest := by
  induction gap with
  | nil => rfl
  | cons c gap ih =>
    have hc := h c (by simp)
    have hg := ih fun d hd => h d (by simp [hd])
    rw [← hg, List.cons_append]
    simp [fields, pieces, hc]

theorem fields_join {gap : Text} (hn : gap ≠ []) (hg : ∀ c ∈ gap, separator c = true)
    {tokens : List Text} (ht : ∀ t ∈ tokens, IsToken separator t) :
    fields separator (join gap tokens) = tokens := by
  obtain ⟨c, gap, rfl⟩ := List.exists_cons_of_ne_nil hn
  have hc := hg c (by simp)
  have hr : ∀ d ∈ gap, separator d = true := fun d hd => hg d (by simp [hd])
  induction tokens with
  | nil => rfl
  | cons t tokens ih =>
    have h := ht t (by simp)
    have hts := ih fun u hu => ht u (by simp [hu])
    cases tokens with
    | nil => exact fields_token h
    | cons u tokens =>
      have hj : join (c :: gap) (t :: u :: tokens)
          = t ++ c :: (gap ++ join (c :: gap) (u :: tokens)) := by simp [join]
      rw [hj, fields_token_append h hc, fields_gap_append hr, hts]

theorem mem_join {gap : Text} {tokens : List Text} {c : Char} (h : c ∈ join gap tokens) :
    c ∈ gap ∨ ∃ t ∈ tokens, c ∈ t := by
  fun_induction join gap tokens with
  | case1 => cases h
  | case2 t => exact .inr ⟨t, by simp, h⟩
  | case3 t rest hne ih =>
    simp only [List.mem_append] at h
    rcases h with (h | h) | h
    · exact .inr ⟨t, by simp, h⟩
    · exact .inl h
    · rcases ih h with h | ⟨u, hu, h⟩
      · exact .inl h
      · exact .inr ⟨u, by simp [hu], h⟩

end Text

namespace Asm

theorem operand?_of_registerNumber? {token : Text} {i : Nat}
    (h : registerNumber? token = .ok (some i)) : operand? token = .ok (some (i : Int)) := by
  unfold registerNumber? at h
  split at h
  · simp [operand?, h, Functor.map, Except.map]
  · simp [operand?, h, Functor.map, Except.map]
  · cases h

theorem readNat?_of_letter {c : Char} (h : Text.isDecimalDigit c = false) (hn : c ≠ '\n')
    (t : Text) : Decimal.readNat? (c :: t) = .ok none := by
  have hd : Decimal.digitRun? (c :: t) = none := by
    unfold Decimal.digitRun?
    split
    · cases t with
      | nil => simp_all
      | cons d t => simp [List.dropLast, h]
    · simp [h]
  rw [Decimal.readNat?, hd]

theorem read?_of_letter {c : Char} (h : Text.isDecimalDigit c = false) (hn : c ≠ '\n')
    (hm : c ≠ '-') (hp : c ≠ '+') (t : Text) : Decimal.read? (c :: t) = .ok none := by
  rw [Decimal.read?_eq_readNat? (by simpa using hm) (by simpa using hp), readNat?_of_letter h hn]
  rfl

theorem operand?_of_read? {token : Text} {v : Int} (h : Decimal.read? token = .ok (some v)) :
    operand? token = .ok (some v) := by
  unfold operand?
  split
  · rw [read?_of_letter (by decide) (by decide) (by decide) (by decide)] at h
    cases h
  · rw [read?_of_letter (by decide) (by decide) (by decide) (by decide)] at h
    cases h
  · exact h

theorem registerNumber?_digits {i : Nat} (h : (Decimal.digits i).length ≤ Decimal.maxDigits) :
    registerNumber? ('x' :: Decimal.digits i) = .ok (some i) :=
  Decimal.readNat?_digits h

def Plain (t : Text) : Prop := ∀ c ∈ t, isCommentMark c = false

theorem plain_iff {t : Text} : t.any isCommentMark = false ↔ Plain t := by
  simp only [List.any_eq_false, Bool.not_eq_true, Plain]

instance (t : Text) : Decidable (Plain t) := decidable_of_iff _ plain_iff

theorem beforeComment_of_plain {t : Text} (h : Plain t) : beforeComment t = t := by
  rw [beforeComment, List.takeWhile_eq_self_iff]
  intro c hc
  simp [h c hc]

theorem plain_beforeComment (t : Text) : Plain (beforeComment t) := by
  intro c hc
  have := List.mem_takeWhile_imp hc
  simpa using this

theorem isCommentMark_of_isDigit {c : Char} (h : c.isDigit = true) : isCommentMark c = false := by
  unfold isCommentMark
  by_cases hs : c = '#'
  · subst hs; exact absurd h (by decide)
  by_cases hm : c = ';'
  · subst hm; exact absurd h (by decide)
  simp [hs, hm]

theorem plain_renameSegment {s : Text.Segment} {t : Text} (hs : Plain s.text)
    (h : renameSegment s = .ok t) : Plain t := by
  cases s with
  | mark c => cases h; exact hs
  | word w =>
    simp only [renameSegment, renameWord] at h
    split at h
    · cases h; exact hs
    · split at h
      · cases h
        intro c hc
        rcases List.mem_cons.1 hc with rfl | hc
        · decide
        · exact isCommentMark_of_isDigit (Decimal.isDigit_of_mem_digits hc)
      · cases h

theorem plain_renameRegisters {line t : Text} (hl : Plain line) (h : renameRegisters line = .ok t) :
    Plain t := by
  obtain ⟨ts, hts, rfl⟩ := Outcome.map_eq_ok.1 h
  intro c hc
  obtain ⟨u, hu, hcu⟩ := List.mem_flatten.1 hc
  obtain ⟨s, hs, hr⟩ := Outcome.exists_of_mem_mapM hts hu
  have hp : Plain s.text := by
    intro d hd
    apply hl
    rw [← Text.flatMap_text_segments line]
    exact List.mem_flatMap.2 ⟨s, hs, hd⟩
  exact plain_renameSegment hp hr c hcu

end Asm

end Datapath
