import Datapath.Proofs.Line

set_option autoImplicit false

namespace Datapath

namespace Text

theorem isWordChar_of_ranges {ranges : List (Nat × Nat)} {c : Char}
    (hall : ∀ r ∈ ranges, ∀ i < r.2 + 1 - r.1, inRanges wordRanges (r.1 + i) = false)
    (h : inRanges ranges c.toNat = true) : isWordChar c = false := by
  obtain ⟨r, hr, hl, hu⟩ := exists_range_of_inRanges h
  have hc := hall r hr (c.toNat - r.1) (by omega)
  rwa [Nat.add_sub_cancel' hl] at hc

theorem isWordChar_of_isBlank {c : Char} (h : isBlank c = true) : isWordChar c = false :=
  isWordChar_of_ranges (by decide +kernel) h

theorem isWordChar_of_isLineBreak {c : Char} (h : isLineBreak c = true) : isWordChar c = false :=
  isWordChar_of_ranges (by decide +kernel) h

end Text

namespace Asm

open Text (IsWord Apart isWordChar)

theorem isWordChar_of_isCommentMark {c : Char} (h : isCommentMark c = true) :
    isWordChar c = false := by
  unfold isCommentMark at h
  simp only [Bool.or_eq_true, decide_eq_true_eq] at h
  rcases h with rfl | rfl <;> decide

/-- The second text is the first one with other names for the same registers. -/
inductive Respells : Text → Text → Prop
  | nil : Respells [] []
  | mark {c : Char} {t u : Text} : isWordChar c = false → Respells t u → Respells (c :: t) (c :: u)
  | word {w w' t u : Text} :
    IsWord w → Apart t → renameWord w = .ok w' → Respells t u → Respells (w ++ t) (w' ++ u)

theorem respells_iff {t u : Text} : Respells t u ↔ renameRegisters t = .ok u := by
  constructor
  · intro h
    induction h with
    | nil => rfl
    | mark hc _ ih => rw [renameRegisters_mark hc, ih]; rfl
    | word hw ht hr _ ih => rw [renameRegisters_word hw ht, hr, ih]; rfl
  · intro h
    induction t using Text.wordInduction generalizing u with
    | nil =>
      cases h
      exact .nil
    | mark c t hc ih =>
      rw [renameRegisters_mark hc] at h
      obtain ⟨v, hv, rfl⟩ := Outcome.map_eq_ok.1 h
      exact .mark hc (ih hv)
    | word w t hw ht ih =>
      rw [renameRegisters_word hw ht] at h
      obtain ⟨w', hr, h⟩ := Outcome.bind_eq_ok.1 h
      obtain ⟨v, hv, rfl⟩ := Outcome.map_eq_ok.1 h
      exact .word hw ht hr (ih hv)

namespace Respells

variable {t u : Text} {p : Char → Bool}

theorem unique {v : Text} (h : Respells t u) (h' : Respells t v) : u = v :=
  Except.ok.inj ((respells_iff.1 h).symm.trans (respells_iff.1 h'))

theorem head_iff (h : Respells t u) {c : Char} (hc : isWordChar c = false) :
    t.head? = some c ↔ u.head? = some c := by
  have hword : ∀ {w : Text} (t : Text), IsWord w → (w ++ t).head? ≠ some c := by
    intro w t hw hhead
    obtain ⟨d, w, rfl⟩ := List.exists_cons_of_ne_nil hw.ne_nil
    cases hhead
    exact absurd (hw.solid c (by simp)) (by simp [hc])
  cases h with
  | nil => exact Iff.rfl
  | mark _ _ => exact Iff.rfl
  | word hw _ hr _ => exact iff_of_false (hword _ hw) (hword _ (renameWord_eq_ok hw hr).1)

theorem eq_nil_iff (h : Respells t u) : t = [] ↔ u = [] := by
  cases h with
  | nil => exact Iff.rfl
  | mark _ _ => simp
  | word hw _ hr _ => simp [hw.ne_nil, (renameWord_eq_ok hw hr).1.ne_nil]

theorem apart (h : Respells t u) (ht : Apart t) : Apart u := by
  intro c hc
  cases h with
  | nil => cases hc
  | mark hm _ =>
    cases hc
    exact hm
  | word hw _ _ _ =>
    obtain ⟨d, w, rfl⟩ := List.exists_cons_of_ne_nil hw.ne_nil
    exact absurd (hw.solid d (by simp)) (by simp [ht d rfl])

theorem again (h : Respells t u) : Respells u u := by
  induction h with
  | nil => exact .nil
  | mark hc _ ih => exact .mark hc ih
  | word hw ht hr h ih =>
    obtain ⟨hw', hr'⟩ := renameWord_eq_ok hw hr
    exact .word hw' (h.apart ht) hr' ih

theorem avoids (h : Respells t u) (hp : ∀ c, p c = true → isWordChar c = false)
    (ht : ∀ c ∈ t, p c = false) : ∀ c ∈ u, p c = false := by
  induction h with
  | nil => exact ht
  | mark _ _ ih =>
    rw [List.forall_mem_cons] at ht ⊢
    exact ⟨ht.1, ih ht.2⟩
  | word hw _ hr _ ih =>
    rw [List.forall_mem_append] at ht ⊢
    exact ⟨(renameWord_eq_ok hw hr).1.avoids hp, ih ht.2⟩

theorem takeWhile (h : Respells t u) (hp : ∀ c, p c = true → isWordChar c = false) :
    Respells (t.takeWhile (!p ·)) (u.takeWhile (!p ·)) := by
  induction h with
  | nil => exact .nil
  | @mark c t u hc _ ih =>
    cases hpc : p c with
    | false => simpa [hpc] using Respells.mark hc ih
    | true => simpa [hpc] using Respells.nil
  | @word w w' t u hw ht hr _ ih =>
    obtain ⟨hw', -⟩ := renameWord_eq_ok hw hr
    rw [List.takeWhile_append_of_pos fun c hc => by simp [hw.avoids hp c hc],
      List.takeWhile_append_of_pos fun c hc => by simp [hw'.avoids hp c hc]]
    refine .word hw (fun c hc => ?_) hr ih
    cases t with
    | nil => cases hc
    | cons d t =>
      rw [List.takeWhile_cons] at hc
      split at hc
      · exact ht c hc
      · cases hc

theorem dropWhile (h : Respells t u) (hp : ∀ c, p c = true → isWordChar c = false) :
    Respells (t.dropWhile p) (u.dropWhile p) := by
  have hstop : ∀ {w : Text} (t : Text), IsWord w → (w ++ t).dropWhile p = w ++ t := by
    intro w t hw
    obtain ⟨c, w, rfl⟩ := List.exists_cons_of_ne_nil hw.ne_nil
    simp [hw.avoids hp c (by simp)]
  induction h with
  | nil => exact .nil
  | @mark c t u hc h ih =>
    cases hpc : p c with
    | false => simpa [hpc] using Respells.mark hc h
    | true => simpa [hpc] using ih
  | @word w w' t u hw ht hr h _ =>
    rw [hstop t hw, hstop u (renameWord_eq_ok hw hr).1]
    exact .word hw ht hr h

theorem dropEndWhile (h : Respells t u) (hp : ∀ c, p c = true → isWordChar c = false) :
    Respells (Text.dropEndWhile p t) (Text.dropEndWhile p u) := by
  induction h with
  | nil => exact .nil
  | @mark c t u hc _ ih =>
    simp only [Text.dropEndWhile_cons, ih.eq_nil_iff]
    split
    · exact .nil
    · exact .mark hc ih
  | @word w w' t u hw ht hr _ ih =>
    rw [Text.dropEndWhile_append (hw.avoids hp),
      Text.dropEndWhile_append ((renameWord_eq_ok hw hr).1.avoids hp)]
    exact .word hw (fun c hc => ht c (Text.head?_of_dropEndWhile hc)) hr ih

theorem trim (h : Respells t u) : Respells (Text.trim t) (Text.trim u) :=
  (h.dropWhile fun _ => Text.isWordChar_of_isBlank).dropEndWhile
    fun _ => Text.isWordChar_of_isBlank

theorem beforeComment (h : Respells t u) :
    Respells (Asm.beforeComment t) (Asm.beforeComment u) :=
  h.takeWhile fun _ => isWordChar_of_isCommentMark

theorem consFirst {c : Char} {ls ms : List Text} (hc : isWordChar c = false)
    (h : List.Forall₂ Respells ls ms) :
    List.Forall₂ Respells (Text.consFirst c ls) (Text.consFirst c ms) := by
  cases h with
  | nil => exact .cons (.mark hc .nil) .nil
  | cons hline hrest => exact .cons (.mark hc hline) hrest

theorem onFirst {w w' : Text} {ls ms : List Text} (hw : IsWord w) (hr : renameWord w = .ok w')
    (hls : ∀ line rest, ls = line :: rest → Apart line) (h : List.Forall₂ Respells ls ms) :
    List.Forall₂ Respells (Text.onFirst w ls) (Text.onFirst w' ms) := by
  cases h with
  | nil => exact .cons (by simpa using word hw Text.apart_nil hr .nil) .nil
  | cons hline hrest => exact .cons (.word hw (hls _ _ rfl) hr hline) hrest

theorem lines (h : Respells t u) : List.Forall₂ Respells (Text.lines t) (Text.lines u) := by
  induction h with
  | nil => exact .nil
  | @mark c t u hc h ih =>
    simp only [Text.lines_cons, h.head_iff (c := '\n') rfl]
    split
    · exact ih
    · split
      · exact .cons .nil ih
      · exact consFirst hc ih
  | @word w w' t u hw ht hr h ih =>
    obtain ⟨hw', -⟩ := renameWord_eq_ok hw hr
    rw [Text.lines_append hw.ne_nil (hw.avoids fun _ => Text.isWordChar_of_isLineBreak),
      Text.lines_append hw'.ne_nil (hw'.avoids fun _ => Text.isWordChar_of_isLineBreak)]
    exact onFirst hw hr (fun _ _ hl c hc => ht c (Text.head?_of_lines hl hc)) ih

end Respells

end Asm

end Datapath
