import Mathlib.Data.List.Basic
import Mathlib.Data.List.TakeWhile
import Datapath.Asm.Program
import Datapath.Proofs.Outcome

set_option autoImplicit false

namespace Datapath

namespace Text

def Unbroken (t : Text) : Prop := ∀ c ∈ t, isLineBreak c = false

theorem unbroken_iff {t : Text} : t.any isLineBreak = false ↔ Unbroken t := by
  simp only [List.any_eq_false, Bool.not_eq_true, Unbroken]

instance (t : Text) : Decidable (Unbroken t) := decidable_of_iff _ unbroken_iff

theorem Unbroken.of_subset {t u : Text} (h : Unbroken t) (hs : u ⊆ t) : Unbroken u :=
  fun c hc => h c (hs hc)

def onFirst (t : Text) : List Text → List Text
  | [] => [t]
  | line :: rest => (t ++ line) :: rest

theorem consFirst_onFirst (c : Char) (t : Text) (ls : List Text) :
    consFirst c (onFirst t ls) = onFirst (c :: t) ls := by
  cases ls <;> rfl

theorem lines_cons (c : Char) (t : Text) :
    lines (c :: t) = if c = '\r' ∧ t.head? = some '\n' then lines t
      else if isLineBreak c then [] :: lines t else consFirst c (lines t) := by
  have hfeed : isLineBreak '\n' = true := rfl
  split
  · next h =>
    obtain ⟨rfl, ht⟩ := h
    cases t with
    | nil => cases ht
    | cons d t =>
      cases ht
      rw [lines, lines]
      · rfl
      · simp
  · next h =>
    rw [lines]
    intro rest hc ht
    exact h ⟨hc, by rw [ht]; rfl⟩

theorem lines_feed (t : Text) : lines ('\n' :: t) = [] :: lines t := by
  rw [lines_cons]
  rfl

theorem lines_append {t : Text} (hn : t ≠ []) (h : Unbroken t) (rest : Text) :
    lines (t ++ rest) = onFirst t (lines rest) := by
  have hreturn : isLineBreak '\r' = true := rfl
  induction t with
  | nil => exact absurd rfl hn
  | cons c t ih =>
    have hc := h c (by simp)
    have hne : c ≠ '\r' := fun he => absurd (he ▸ hc) (by simp [hreturn])
    rw [List.cons_append, lines_cons, if_neg (fun hr => hne hr.1), hc, if_neg Bool.false_ne_true]
    cases t with
    | nil =>
      rw [List.nil_append]
      cases lines rest <;> rfl
    | cons d t =>
      rw [ih (by simp) (h.of_subset (List.subset_cons_self c _))]
      exact consFirst_onFirst c _ _

theorem lines_append_feed {t : Text} (h : Unbroken t) (rest : Text) :
    lines (t ++ '\n' :: rest) = t :: lines rest := by
  by_cases hn : t = []
  · subst hn
    exact lines_feed rest
  · rw [lines_append hn h, lines_feed, onFirst, List.append_nil]

/-- Only an empty text at the end is no line of the join. -/
theorem lines_join {ls : List Text} (h : ∀ l ∈ ls, Unbroken l) :
    ∃ lost, lines (join ['\n'] ls) ++ lost = ls ∧ ∀ l ∈ lost, l = [] := by
  induction ls with
  | nil => exact ⟨[], rfl, by simp⟩
  | cons t ls ih =>
    have ht := h t (by simp)
    cases ls with
    | nil =>
      by_cases hn : t = []
      · subst hn
        exact ⟨[[]], rfl, by simp⟩
      · have hlines := lines_append hn ht []
        rw [List.append_nil] at hlines
        exact ⟨[], by rw [join, hlines]; simp [lines, onFirst], by simp⟩
    | cons u ls =>
      obtain ⟨lost, hlost, hnil⟩ := ih fun l hl => h l (by simp [hl])
      have hjoin : join ['\n'] (t :: u :: ls) = t ++ '\n' :: join ['\n'] (u :: ls) := by
        simp [join]
      exact ⟨lost, by rw [hjoin, lines_append_feed ht, List.cons_append, hlost], hnil⟩

theorem unbroken_of_mem_lines {t line : Text} (h : line ∈ lines t) : Unbroken line := by
  have hfirst : ∀ {c : Char} {ls : List Text}, isLineBreak c = false →
      (∀ l ∈ ls, Unbroken l) → ∀ l ∈ consFirst c ls, Unbroken l := by
    intro c ls hc hls l hl d hd
    cases ls with
    | nil =>
      rw [List.mem_singleton.1 hl] at hd
      rwa [List.mem_singleton.1 hd]
    | cons first rest =>
      rcases List.mem_cons.1 hl with rfl | hl
      · rcases List.mem_cons.1 hd with rfl | hd
        · exact hc
        · exact hls first (by simp) d hd
      · exact hls l (by simp [hl]) d hd
  induction t generalizing line with
  | nil => cases h
  | cons c t ih =>
    rw [lines_cons] at h
    split at h
    · exact ih h
    · split at h
      · rcases List.mem_cons.1 h with rfl | h
        · simp [Unbroken]
        · exact ih h
      · next hc => exact hfirst (by simpa using hc) (fun l hl => ih hl) line h

theorem head?_of_lines {t line : Text} {rest : List Text} {c : Char} (h : lines t = line :: rest)
    (hc : line.head? = some c) : t.head? = some c := by
  cases t with
  | nil => cases h
  | cons d t =>
    rw [lines_cons] at h
    split at h
    · next hbreak =>
      obtain ⟨-, hd⟩ := hbreak
      cases t with
      | nil => cases hd
      | cons e t =>
        cases hd
        rw [lines_feed] at h
        cases h
        cases hc
    · split at h
      · cases h
        cases hc
      · cases hl : lines t <;> rw [hl] at h <;> cases h <;> exact hc

variable {p : Char → Bool}

theorem dropEndWhile_cons (p : Char → Bool) (c : Char) (t : Text) :
    dropEndWhile p (c :: t)
      = if dropEndWhile p t = [] ∧ p c = true then [] else c :: dropEndWhile p t := by
  simp only [dropEndWhile, List.reverse_cons, List.dropWhile_append, List.isEmpty_iff,
    List.reverse_eq_nil_iff]
  by_cases ht : t.reverse.dropWhile p = []
  · cases hc : p c <;> simp [ht, hc]
  · simp [ht]

theorem dropEndWhile_append {w : Text} (hw : ∀ c ∈ w, p c = false) (t : Text) :
    dropEndWhile p (w ++ t) = w ++ dropEndWhile p t := by
  induction w with
  | nil => rfl
  | cons c w ih =>
    have hc := hw c (by simp)
    rw [List.cons_append, dropEndWhile_cons, ih fun d hd => hw d (by simp [hd]), hc]
    simp

theorem head?_of_dropEndWhile {t : Text} {c : Char} (h : (dropEndWhile p t).head? = some c) :
    t.head? = some c := by
  cases t with
  | nil => cases h
  | cons d t =>
    rw [dropEndWhile_cons] at h
    split at h
    · cases h
    · exact h

structure Trimmed (t : Text) : Prop where
  first : ∀ c, t.head? = some c → isBlank c = false
  last : ∀ c, t.getLast? = some c → isBlank c = false

theorem isBlank_of_head?_dropWhile {t : Text} {c : Char}
    (h : (t.dropWhile isBlank).head? = some c) : isBlank c = false := by
  have hnot := List.head?_dropWhile_not isBlank t
  rw [h] at hnot
  simpa using hnot

theorem trimmed_trim (t : Text) : Trimmed (trim t) where
  first c hc := isBlank_of_head?_dropWhile (head?_of_dropEndWhile hc)
  last c hc := by
    rw [trim, trimEnd, dropEndWhile, List.getLast?_reverse] at hc
    exact isBlank_of_head?_dropWhile hc

theorem dropWhile_of_head? {t : Text} (h : ∀ c, t.head? = some c → isBlank c = false) :
    t.dropWhile isBlank = t := by
  cases t with
  | nil => rfl
  | cons c t => rw [List.dropWhile_cons, h c rfl, if_neg Bool.false_ne_true]

theorem Trimmed.trim_eq {t : Text} (h : Trimmed t) : trim t = t := by
  have hlast : t.reverse.dropWhile isBlank = t.reverse :=
    dropWhile_of_head? fun c hc => h.last c (List.head?_reverse ▸ hc)
  rw [trim, dropWhile_of_head? h.first, trimEnd, dropEndWhile, hlast, List.reverse_reverse]

theorem Trimmed.of_append {t u : Text} (h : Trimmed (t ++ u)) : Trimmed (u.dropWhile isBlank) where
  first _ hc := isBlank_of_head?_dropWhile hc
  last c hc := by
    apply h.last c
    have hu : (u.takeWhile isBlank ++ u.dropWhile isBlank).getLast? = some c := by
      rw [List.getLast?_append, hc]
      rfl
    rw [List.takeWhile_append_dropWhile] at hu
    rw [List.getLast?_append, hu]
    rfl

end Text

namespace Text

structure IsWord (w : Text) : Prop where
  ne_nil : w ≠ []
  solid : ∀ c ∈ w, isWordChar c = true

theorem IsWord.avoids {w : Text} (h : IsWord w) {p : Char → Bool}
    (hp : ∀ c, p c = true → isWordChar c = false) : ∀ c ∈ w, p c = false := by
  intro c hc
  rw [← Bool.not_eq_true]
  intro hpc
  exact absurd (h.solid c hc) (by simp [hp c hpc])

/-- A text that does not go on with a word. -/
def Apart (t : Text) : Prop := ∀ c, t.head? = some c → isWordChar c = false

theorem apart_nil : Apart [] := fun _ h => nomatch h

theorem apart_cons {c : Char} (hc : isWordChar c = false) (t : Text) : Apart (c :: t) := by
  intro d hd
  cases hd
  exact hc

theorem isWord_takeWhile {c : Char} (hc : isWordChar c = true) (t : Text) :
    IsWord ((c :: t).takeWhile isWordChar) where
  ne_nil := by simp [hc]
  solid _ hd := List.mem_takeWhile_imp hd

theorem apart_dropWhile (t : Text) : Apart (t.dropWhile isWordChar) := by
  intro c hc
  have := List.head?_dropWhile_not isWordChar t
  rw [hc] at this
  simpa using this

/-- A text is empty, or it starts with a mark or with a whole word. -/
@[elab_as_elim]
theorem wordInduction {motive : Text → Prop} (nil : motive [])
    (mark : ∀ c t, isWordChar c = false → motive t → motive (c :: t))
    (word : ∀ w t, IsWord w → Apart t → motive t → motive (w ++ t)) (t : Text) : motive t := by
  induction hn : t.length using Nat.strongRecOn generalizing t with
  | ind n ih =>
    cases t with
    | nil => exact nil
    | cons c t =>
      subst hn
      cases hc : isWordChar c with
      | false => exact mark c t hc (ih t.length (by simp) t rfl)
      | true =>
        have hlt : ((c :: t).dropWhile isWordChar).length < (c :: t).length := by
          rw [List.dropWhile_cons_of_pos hc]
          exact Nat.lt_succ_of_le (List.length_dropWhile_le _ _)
        rw [← List.takeWhile_append_dropWhile (p := isWordChar) (l := c :: t)]
        exact word _ _ (isWord_takeWhile hc t) (apart_dropWhile _) (ih _ hlt _ rfl)

theorem segments_mark {c : Char} (hc : isWordChar c = false) (t : Text) :
    segments (c :: t) = .mark c :: segments t := by
  simp [segments, hc]

theorem joinWord_segments {t : Text} (ht : Apart t) (c : Char) :
    joinWord c (segments t) = .word [c] :: segments t := by
  cases t with
  | nil => rfl
  | cons d t =>
    rw [segments_mark (ht d rfl)]
    rfl

theorem segments_word {w t : Text} (hw : IsWord w) (ht : Apart t) :
    segments (w ++ t) = .word w :: segments t := by
  obtain ⟨hne, hsolid⟩ := hw
  induction w with
  | nil => exact absurd rfl hne
  | cons c w ih =>
    have hc := hsolid c (by simp)
    rw [List.cons_append, segments, if_pos hc]
    cases w with
    | nil => exact joinWord_segments ht c
    | cons d w =>
      rw [ih (by simp) fun e he => hsolid e (List.mem_cons_of_mem c he)]
      rfl

def words (t : Text) : List Text :=
  (segments t).filterMap fun
    | .word w => some w
    | .mark _ => none

theorem mem_words {t w : Text} : w ∈ words t ↔ .word w ∈ segments t := by
  simp only [words, List.mem_filterMap]
  constructor
  · rintro ⟨_ | c, hs, heq⟩ <;> cases heq
    exact hs
  · exact fun h => ⟨_, h, rfl⟩

theorem subset_of_mem_words {t w : Text} (h : w ∈ words t) : w ⊆ t := by
  intro c hc
  rw [← flatMap_text_segments t]
  exact List.mem_flatMap.2 ⟨_, mem_words.1 h, hc⟩

end Text

namespace Asm

open Text (IsWord Apart isWordChar)

/-- A word that would be the name of a register with a small s for a long one. -/
def Misnamed (w : Text) : Prop :=
  'ſ' ∈ w ∧ ∃ i, RegisterName.index? (w.map foldChar) = some i

theorem map_foldChar {w : Text} (h : 'ſ' ∉ w) : w.map foldChar = w.map Char.toLower := by
  apply List.map_congr_left
  intro c hc
  have hne : c ≠ 'ſ' := fun he => h (he ▸ hc)
  exact if_neg hne

theorem index?_of_long {name : Text} (h : 'ſ' ∈ name) : RegisterName.index? name = none := by
  have hall : ∀ p ∈ RegisterName.conventional, 'ſ' ∉ p.1 := by decide
  rw [RegisterName.index?, List.lookup_eq_none_iff]
  intro p hp
  have hne : name ≠ p.1 := fun he => hall p hp (he ▸ h)
  simpa using hne

theorem renameWord_eq_error {w : Text} {e : UnknownName} :
    renameWord w = .error e ↔ Misnamed w ∧ e = ⟨w.map Char.toLower⟩ := by
  have hsmall : 'ſ' ∈ w → RegisterName.index? (w.map Char.toLower) = none := fun h =>
    index?_of_long (List.mem_map.2 ⟨'ſ', h, rfl⟩)
  unfold renameWord Misnamed
  cases hfold : RegisterName.index? (w.map foldChar) with
  | none => simp
  | some i =>
    by_cases hs : 'ſ' ∈ w
    · simp [hs, hsmall hs, eq_comm]
    · rw [map_foldChar hs] at hfold
      simp [hs, hfold]

theorem exists_renameWord_iff {w : Text} : (∃ w', renameWord w = .ok w') ↔ ¬ Misnamed w := by
  cases h : renameWord w with
  | ok w' =>
    refine iff_of_true ⟨w', rfl⟩ fun hm => ?_
    cases h.symm.trans (renameWord_eq_error.2 ⟨hm, rfl⟩)
  | error e => exact iff_of_false (by simp) (not_not.2 (renameWord_eq_error.1 h).1)

theorem rename_register {i : Nat} (h : i < 32) :
    IsWord ('x' :: Decimal.digits i) ∧
      renameWord ('x' :: Decimal.digits i) = .ok ('x' :: Decimal.digits i) := by
  have hall : ∀ i < 32, ('x' :: Decimal.digits i).all isWordChar = true ∧
      renameWord ('x' :: Decimal.digits i) = .ok ('x' :: Decimal.digits i) := by decide
  obtain ⟨hword, hname⟩ := hall i h
  exact ⟨⟨by simp, by simpa using hword⟩, hname⟩

theorem renameWord_eq_ok {w w' : Text} (hw : IsWord w) (h : renameWord w = .ok w') :
    IsWord w' ∧ renameWord w' = .ok w' := by
  have h' := h
  unfold renameWord at h
  split at h
  · cases h
    exact ⟨hw, h'⟩
  · dsimp only at h
    split at h
    · next hi =>
      cases h
      exact rename_register (RegisterName.index?_lt hi)
    · cases h

theorem renameRegisters_mark {c : Char} (hc : isWordChar c = false) (t : Text) :
    renameRegisters (c :: t) = (c :: ·) <$> renameRegisters t := by
  unfold renameRegisters
  rw [Text.segments_mark hc, List.mapM_cons, renameSegment, Outcome.ok_bind]
  cases (Text.segments t).mapM renameSegment <;> rfl

theorem renameRegisters_word {w t : Text} (hw : IsWord w) (ht : Apart t) :
    renameRegisters (w ++ t) = renameWord w >>= fun w' => (w' ++ ·) <$> renameRegisters t := by
  unfold renameRegisters
  rw [Text.segments_word hw ht, List.mapM_cons, renameSegment]
  cases renameWord w with
  | error e => rfl
  | ok w' => cases (Text.segments t).mapM renameSegment <;> rfl

theorem misnamed_of_error {t : Text} {e : UnknownName} (h : renameRegisters t = .error e) :
    ∃ w ∈ Text.words t, Misnamed w ∧ e = ⟨w.map Char.toLower⟩ := by
  obtain ⟨s, hs, he⟩ := Outcome.exists_of_mapM_eq_error (Outcome.map_eq_error.1 h)
  cases s with
  | word w => exact ⟨w, Text.mem_words.2 hs, renameWord_eq_error.1 he⟩
  | mark c => cases he

theorem not_misnamed_of_ok {t u w : Text} (h : renameRegisters t = .ok u)
    (hw : w ∈ Text.words t) : ¬ Misnamed w := by
  obtain ⟨ts, hts, -⟩ := Outcome.map_eq_ok.1 h
  obtain ⟨w', -, hw'⟩ := Outcome.exists_of_mem_forall₂ (Outcome.mapM_eq_ok.1 hts).flip
    (Text.mem_words.1 hw)
  exact exists_renameWord_iff.1 ⟨w', hw'⟩

theorem exists_renameRegisters {t : Text} (h : ∀ w ∈ Text.words t, ¬ Misnamed w) :
    ∃ u, renameRegisters t = .ok u := by
  cases hr : renameRegisters t with
  | ok u => exact ⟨u, rfl⟩
  | error e =>
    obtain ⟨w, hw, hm, -⟩ := misnamed_of_error hr
    exact absurd hm (h w hw)

end Asm

end Datapath
