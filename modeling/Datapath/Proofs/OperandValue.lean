import Datapath.Proofs.Token

set_option autoImplicit false

namespace Datapath

theorem Text.solid_of_mem_pieces {separator : Char → Bool} {t piece : Text}
    (h : piece ∈ pieces separator t) : ∀ c ∈ piece, separator c = false := by
  induction t generalizing piece with
  | nil =>
    rw [List.mem_singleton.1 h]
    exact fun c hc => nomatch hc
  | cons d t ih =>
    rw [pieces] at h
    split at h
    · rcases List.mem_cons.1 h with rfl | h
      · exact fun c hc => nomatch hc
      · exact ih h
    · next hd =>
      cases hp : pieces separator t with
      | nil =>
        rw [hp] at h
        rw [List.mem_singleton.1 h]
        simpa using hd
      | cons first rest =>
        rw [hp] at h ih
        rcases List.mem_cons.1 h with rfl | h
        · simpa [hd] using ih (List.mem_cons_self ..)
        · exact ih (List.mem_cons_of_mem _ h)

theorem Text.solid_of_mem_fields {separator : Char → Bool} {t token : Text}
    (h : token ∈ fields separator t) : ∀ c ∈ token, separator c = false :=
  solid_of_mem_pieces (List.mem_filter.1 h).1

namespace Decimal

theorem foldl_value_lt (run : Text) (start : Nat) :
    run.foldl (fun n c => 10 * n + (Text.digitValue? c).getD 0) start
      < (start + 1) * Nat.pow 10 run.length := by
  induction run generalizing start with
  | nil => simp
  | cons c run ih =>
    have hdigit : (Text.digitValue? c).getD 0 < 10 := by
      cases h : Text.digitValue? c with
      | none => decide
      | some d => exact Text.digitValue?_lt h
    have hlt := ih (10 * start + (Text.digitValue? c).getD 0)
    have hpow : Nat.pow 10 (run.length + 1) = 10 * Nat.pow 10 run.length := Nat.pow_succ'
    rw [List.foldl_cons, List.length_cons, hpow]
    refine hlt.trans_le ?_
    rw [← Nat.mul_assoc]
    exact Nat.mul_le_mul_right _ (by omega)

theorem length_digits_value {run : Text} (h : run ≠ []) :
    (digits (value run)).length ≤ run.length := by
  have hlt : value run < (0 + 1) * Nat.pow 10 run.length := foldl_value_lt run 0
  rw [Nat.zero_add, Nat.one_mul] at hlt
  exact (length_digits_le_iff (List.length_pos_iff.2 h)).2 hlt

def IsRun (run : Text) : Prop := run ≠ [] ∧ ∀ c ∈ run, Text.isDecimalDigit c = true

theorem isRun_iff {run : Text} : run ≠ [] ∧ run.all Text.isDecimalDigit = true ↔ IsRun run := by
  rw [List.all_eq_true]
  rfl

instance (run : Text) : Decidable (IsRun run) := decidable_of_iff _ isRun_iff

theorem readNat?_eq {run : Text} (h : '\n' ∉ run) : readNat? run
    = if IsRun run then
        if run.length ≤ maxDigits then .ok (some (value run)) else .error (.reading run.length)
      else .ok none := by
  have hlast : run.getLast? ≠ some '\n' := fun hl => h (List.mem_of_getLast? hl)
  unfold readNat? digitRun?
  rw [if_neg hlast]
  dsimp only
  by_cases hr : IsRun run
  · rw [if_pos (isRun_iff.2 hr), if_pos hr]
    unfold readDigits
    dsimp only
    split <;> rfl
  · rw [if_neg (isRun_iff.not.2 hr), if_neg hr]

end Decimal

namespace Asm

open Decimal (IsRun maxDigits)

def leads : List Char := ['x', 'X', '-', '+']

def unled : Text → Text
  | [] => []
  | c :: run => if c ∈ leads then run else c :: run

/-- The value of an operand, if it is a numeral behind its lead. -/
def value? (token : Text) : Option Int :=
  if IsRun (unled token) then
    some (if token.head? = some '-' then -(Decimal.value (unled token) : Int)
      else Decimal.value (unled token))
  else none

/-- A numeral of more digits than can be read. -/
def Oversized (token : Text) : Prop := IsRun (unled token) ∧ maxDigits < (unled token).length

instance (token : Text) : Decidable (Oversized token) := by
  unfold Oversized
  infer_instance

theorem operand?_eq_readNat? (token : Text) : operand? token
    = Option.map (fun n : Nat => if token.head? = some '-' then -(n : Int) else n)
      <$> Decimal.readNat? (unled token) := by
  have hcases : ∀ (x : Except Decimal.LimitError (Option Nat)) (f g : Option Nat → Option Int),
      f none = g none → (∀ n, f (some n) = g (some n)) → f <$> x = g <$> x := by
    rintro (e | (_ | n)) f g hn hs
    · rfl
    · exact congrArg Except.ok hn
    · exact congrArg Except.ok (hs n)
  cases token with
  | nil => rfl
  | cons c run =>
    by_cases hc : c ∈ leads
    · rw [unled, if_pos hc]
      simp only [leads, List.mem_cons, List.not_mem_nil, or_false] at hc
      rcases hc with rfl | rfl | rfl | rfl <;> exact hcases _ _ _ rfl fun _ => rfl
    · rw [unled, if_neg hc]
      simp only [leads, List.mem_cons, List.not_mem_nil, or_false, not_or] at hc
      obtain ⟨hx, hX, hminus, hplus⟩ := hc
      have hoperand : operand? (c :: run) = Decimal.read? (c :: run) := by
        unfold operand?
        split <;> simp_all
      have hhead : (c :: run).head? ≠ some '-' := by simpa using hminus
      rw [hoperand, Decimal.read?_eq_readNat? hhead (by simpa using hplus)]
      exact hcases _ _ _ rfl fun n => congrArg some (if_neg hhead).symm

theorem operand?_eq {token : Text} (h : '\n' ∉ token) : operand? token
    = if Oversized token then .error (.reading (unled token).length) else .ok (value? token) := by
  have hunled : '\n' ∉ unled token := by
    cases token with
    | nil => exact h
    | cons c run =>
      rw [unled]
      split
      · exact fun hm => h (List.mem_cons_of_mem _ hm)
      · exact h
  rw [operand?_eq_readNat?, Decimal.readNat?_eq hunled]
  by_cases ho : Oversized token
  · rw [if_pos ho, if_pos ho.1, if_neg (Nat.not_le.2 ho.2)]
    rfl
  · rw [if_neg ho, value?]
    by_cases hr : IsRun (unled token)
    · rw [if_pos hr, if_pos hr, if_pos (Nat.le_of_not_lt fun hlt => ho ⟨hr, hlt⟩)]
      rfl
    · rw [if_neg hr, if_neg hr]
      rfl

theorem write_of_value? {token : Text} {v : Int} (hs : ¬ Oversized token)
    (h : value? token = some v) : Decimal.write v = .ok (Decimal.shown v) := by
  unfold value? at h
  split at h
  · next hr =>
    have hlen : (unled token).length ≤ maxDigits := Nat.le_of_not_lt fun hlt => hs ⟨hr, hlt⟩
    have hv : v.natAbs = Decimal.value (unled token) := by
      cases h
      split <;> simp
    exact if_pos (hv ▸ (Decimal.length_digits_value hr.1).trans hlen)
  · cases h

end Asm

namespace Text

variable {separator : Char → Bool} {gap lead trail first : Text} {rest : List (Text × Text)}

def IsGap (separator : Char → Bool) (gap : Text) : Prop := ∀ c ∈ gap, separator c = true

instance (gap : Text) : Decidable (IsGap separator gap) := decidable_of_iff _ List.all_eq_true

/-- A token, and behind it other tokens, each with the gap in front of it. -/
def spaced (first : Text) : List (Text × Text) → Text
  | [] => first
  | (gap, token) :: rest => first ++ gap ++ spaced token rest

theorem fields_token_gap_append (h : IsToken separator first) (hn : gap ≠ [])
    (hg : IsGap separator gap) (t : Text) :
    fields separator (first ++ gap ++ t) = first :: fields separator t := by
  obtain ⟨c, gap, rfl⟩ := List.exists_cons_of_ne_nil hn
  have hr : IsGap separator gap := fun d hd => hg d (List.mem_cons_of_mem c hd)
  rw [List.append_assoc, List.cons_append, fields_token_append h (hg c (by simp)),
    fields_gap_append hr]

theorem fields_spaced (hlead : IsGap separator lead) (htrail : IsGap separator trail)
    (hgaps : ∀ p ∈ rest, p.1 ≠ [] ∧ IsGap separator p.1)
    (htokens : ∀ t ∈ first :: rest.map (·.2), IsToken separator t) :
    fields separator (lead ++ spaced first rest ++ trail) = first :: rest.map (·.2) := by
  rw [List.append_assoc, fields_gap_append hlead]
  induction rest generalizing first with
  | nil =>
    have hfirst := htokens first (by simp)
    by_cases hn : trail = []
    · rw [hn, List.append_nil]
      exact fields_token hfirst
    · have hlast := fields_token_gap_append hfirst hn htrail []
      rwa [List.append_nil] at hlast
  | cons p rest ih =>
    obtain ⟨gap, token⟩ := p
    obtain ⟨hn, hg⟩ := hgaps (gap, token) (by simp)
    have hrest := ih (fun q hq => hgaps q (List.mem_cons_of_mem _ hq))
      fun t ht => htokens t (List.mem_cons_of_mem first ht)
    rw [spaced, List.append_assoc, fields_token_gap_append (htokens first (by simp)) hn hg, hrest]
    rfl

end Text

namespace Instruction

open Text (IsGap IsToken spaced)

/-- The token is written for a number that is not too long: it is the number, or a register with
that number. -/
inductive Spells : Text → Int → Prop
  | integer {n : Int} : (Decimal.digits n.natAbs).length ≤ Decimal.maxDigits →
    Spells (Decimal.text n) n
  | register {x : Char} {n : Int} : (Decimal.digits n.natAbs).length ≤ Decimal.maxDigits →
    x = 'x' ∨ x = 'X' → 0 ≤ n → Spells (x :: Decimal.text n) n

theorem operand?_of_spells {token : Text} {n : Int} (h : Spells token n) :
    Asm.operand? token = .ok (some n) := by
  cases h with
  | integer hn => exact Asm.operand?_of_read? (Decimal.read?_text hn)
  | register hn hx hpos =>
    obtain ⟨i, rfl⟩ := Int.eq_ofNat_of_zero_le hpos
    have hread : Decimal.readNat? (Decimal.text i) = .ok (some i) := by
      rw [Decimal.text_natCast]
      exact Decimal.readNat?_digits hn
    apply Asm.operand?_of_registerNumber?
    rcases hx with rfl | rfl <;> exact hread

/-- A line that is written with any separators has the tokens that it was written from. Numbers and
registers are read as the numbers for which they were written, so these are the operands of the
instruction. -/
theorem parse?_spaced {lead trail first : Text} {rest : List (Text × Text)}
    (hlead : IsGap Asm.isSeparator lead) (htrail : IsGap Asm.isSeparator trail)
    (hgaps : ∀ p ∈ rest, p.1 ≠ [] ∧ IsGap Asm.isSeparator p.1)
    (htokens : ∀ t ∈ first :: rest.map (·.2), IsToken Asm.isSeparator t) :
    Asm.tokens (lead ++ spaced first rest ++ trail) = first :: rest.map (·.2) ∧
      (∀ n : Int, (Decimal.digits n.natAbs).length ≤ Decimal.maxDigits →
        Asm.operand? (Decimal.text n) = .ok (some n) ∧
          (0 ≤ n → Asm.operand? ('x' :: Decimal.text n) = .ok (some n) ∧
            Asm.operand? ('X' :: Decimal.text n) = .ok (some n))) ∧
      ∀ values : List Int, List.Forall₂ Spells (rest.map (·.2)) values →
        parse? (lead ++ spaced first rest ++ trail)
          = .ok (some ⟨Text.lowercase first, values.map some⟩) := by
  have hline : Asm.tokens (lead ++ spaced first rest ++ trail) = first :: rest.map (·.2) :=
    Text.fields_spaced hlead htrail hgaps htokens
  refine ⟨hline, fun n hn => ⟨operand?_of_spells (.integer hn), fun hpos =>
    ⟨operand?_of_spells (.register hn (.inl rfl) hpos),
      operand?_of_spells (.register hn (.inr rfl) hpos)⟩⟩, fun values hspell => ?_⟩
  have hread : (rest.map (·.2)).mapM Asm.operand? = .ok (values.map some) := by
    rw [Outcome.mapM_eq_ok, List.forall₂_map_right_iff]
    exact hspell.imp fun _ _ => operand?_of_spells
  rw [parse?, hline]
  dsimp only
  rw [hread]
  rfl

theorem parse?_spaced_load :
    let rest := [(" , ".toList, "x31".toList), ("\u2003".toList, "X7".toList),
      (",((".toList, "-2048".toList)]
    let line := "\t ".toList ++ spaced "LW".toList rest ++ ")) ".toList
    (∀ p ∈ rest, p.1 ≠ [] ∧ IsGap Asm.isSeparator p.1) ∧
      (∀ t ∈ "LW".toList :: rest.map (·.2), IsToken Asm.isSeparator t) ∧
      line = "\t LW , x31\u2003X7,((-2048)) ".toList ∧
      Asm.tokens line = ["LW".toList, "x31".toList, "X7".toList, "-2048".toList] ∧
      parse? line = .ok (some ⟨"lw".toList, [some 31, some 7, some (-2048)]⟩) := by
  intro rest line
  have hgaps : ∀ p ∈ rest, p.1 ≠ [] ∧ IsGap Asm.isSeparator p.1 := by decide
  have htokens : ∀ t ∈ "LW".toList :: rest.map (·.2), IsToken Asm.isSeparator t := by decide
  have hto : Spells "x31".toList 31 := @Spells.register 'x' 31 (by decide) (.inl rfl) (by decide)
  have hbase : Spells "X7".toList 7 := @Spells.register 'X' 7 (by decide) (.inr rfl) (by decide)
  have htext : Decimal.text (-2048) = "-2048".toList := by decide
  have hoffset : Spells "-2048".toList (-2048) := htext ▸ Spells.integer (by decide)
  have hlead : IsGap Asm.isSeparator "\t ".toList := by decide
  have htrail : IsGap Asm.isSeparator ")) ".toList := by decide
  obtain ⟨hread, -, hparse⟩ := parse?_spaced hlead htrail hgaps htokens
  exact ⟨hgaps, htokens, rfl, hread,
    hparse [31, 7, -2048] (.cons hto (.cons hbase (.cons hoffset .nil)))⟩

end Instruction

end Datapath
