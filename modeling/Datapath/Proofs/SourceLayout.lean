import Datapath.Proofs.InstructionText
import Datapath.Proofs.SourceAssembly

/-! The layout of a source. Comments, blanks at the ends of lines, and lines without an instruction
change neither the program nor its words; the failures move with their lines. -/

set_option autoImplicit false

namespace Datapath

namespace Asm

open Text (IsWord isWordChar isBlank trim)

/-- The same line in other dress: comments behind it, and blanks at its ends. -/
inductive Redressed (line : Text) : Text → Prop
  | same : Redressed line line
  | comment {t : Text} (mark : Char) (text : Text) :
    isCommentMark mark = true → Redressed line t → Redressed line (t ++ mark :: text)
  | lead {t : Text} (blanks : Text) :
    (∀ c ∈ blanks, isBlank c = true) → Redressed line t → Redressed line (blanks ++ t)
  | trail {t : Text} (blanks : Text) :
    (∀ c ∈ blanks, isBlank c = true) → Redressed line t → Redressed line (t ++ blanks)

inductive Filler : Text → Prop
  | blank (blanks : Text) : (∀ c ∈ blanks, isBlank c = true) → Filler blanks
  | comment (blanks : Text) (mark : Char) (text : Text) :
    (∀ c ∈ blanks, isBlank c = true) → isCommentMark mark = true → Filler (blanks ++ mark :: text)
  | directive (text : Text) : Filler ('.' :: text)
  | note (text : Text) : Filler ('@' :: text)
  | label (w blanks : Text) :
    IsWord w → (∀ c ∈ blanks, isBlank c = true) → Filler (w ++ ':' :: blanks)
  | redressed {line t : Text} : Filler line → Redressed line t → Filler t

theorem isCommentMark_of_isBlank {c : Char} (h : isBlank c = true) : isCommentMark c = false := by
  rw [← Bool.not_eq_true]
  intro hmark
  unfold isCommentMark at hmark
  simp only [Bool.or_eq_true, decide_eq_true_eq] at hmark
  rcases hmark with rfl | rfl <;> exact absurd h (by decide)

theorem plain_blanks {blanks : Text} (h : ∀ c ∈ blanks, isBlank c = true) : Plain blanks :=
  fun c hc => isCommentMark_of_isBlank (h c hc)

theorem beforeComment_append {t : Text} (h : Plain t) (rest : Text) :
    beforeComment (t ++ rest) = t ++ beforeComment rest :=
  List.takeWhile_append_of_pos fun c hc => by simp [h c hc]

theorem beforeComment_append_of_not_plain {t : Text} (h : ¬ Plain t) (rest : Text) :
    beforeComment (t ++ rest) = beforeComment t := by
  induction t with
  | nil => exact absurd (by simp [Plain]) h
  | cons c t ih =>
    unfold beforeComment at ih ⊢
    cases hc : isCommentMark c with
    | true => simp [hc]
    | false =>
      have ht : ¬ Plain t := fun ht => h fun d hd => by
        rcases List.mem_cons.1 hd with rfl | hd
        · exact hc
        · exact ht d hd
      simp [hc, ih ht]

theorem beforeComment_comment {mark : Char} (h : isCommentMark mark = true) (t text : Text) :
    beforeComment (t ++ mark :: text) = beforeComment t := by
  by_cases ht : Plain t
  · rw [beforeComment_append ht, beforeComment_of_plain ht]
    simp [beforeComment, h]
  · exact beforeComment_append_of_not_plain ht _

theorem trim_lead {blanks : Text} (h : ∀ c ∈ blanks, isBlank c = true) (t : Text) :
    trim (blanks ++ t) = trim t := by
  rw [trim, List.dropWhile_append_of_pos h, ← trim]

theorem dropEndWhile_trail {blanks : Text} (h : ∀ c ∈ blanks, isBlank c = true) (t : Text) :
    Text.dropEndWhile isBlank (t ++ blanks) = Text.dropEndWhile isBlank t := by
  have hr : ∀ c ∈ blanks.reverse, isBlank c = true := fun c hc => h c (List.mem_reverse.1 hc)
  rw [Text.dropEndWhile, List.reverse_append, List.dropWhile_append_of_pos hr, ← Text.dropEndWhile]

theorem trim_trail {blanks : Text} (h : ∀ c ∈ blanks, isBlank c = true) (t : Text) :
    trim (t ++ blanks) = trim t := by
  induction t with
  | nil =>
    have hnil := trim_lead h []
    rwa [List.append_nil] at hnil
  | cons c t ih =>
    unfold trim at ih ⊢
    rw [List.cons_append, List.dropWhile_cons, List.dropWhile_cons]
    split
    · exact ih
    · exact dropEndWhile_trail h (c :: t)

theorem body_trail {blanks : Text} (h : ∀ c ∈ blanks, isBlank c = true) (t : Text) :
    trim (beforeComment (t ++ blanks)) = trim (beforeComment t) := by
  by_cases ht : Plain t
  · rw [beforeComment_append ht, beforeComment_of_plain ht, beforeComment_of_plain (plain_blanks h),
      trim_trail h]
  · rw [beforeComment_append_of_not_plain ht]

theorem Redressed.body {line t : Text} (h : Redressed line t) :
    trim (beforeComment t) = trim (beforeComment line) := by
  induction h with
  | same => rfl
  | comment _ _ hm _ ih => rw [beforeComment_comment hm, ih]
  | lead _ hb _ ih => rw [beforeComment_append (plain_blanks hb), trim_lead hb, ih]
  | trail _ hb _ ih => rw [body_trail hb, ih]

theorem Redressed.instructionText? {line t : Text} (h : Redressed line t) :
    Asm.instructionText? t = Asm.instructionText? line := by
  unfold Asm.instructionText?
  rw [h.body]

theorem Redressed.subset {line t : Text} (h : Redressed line t) : line ⊆ t := by
  induction h with
  | same => exact List.Subset.refl line
  | comment _ _ _ _ ih | trail _ _ _ ih => exact List.subset_append_of_subset_left _ ih
  | lead _ _ _ ih => exact List.subset_append_of_subset_right _ ih

theorem instructionText?_of_idle {line : Text} (h : Idle (trim (beforeComment line))) :
    instructionText? line = .ok none := by
  have hnone : written? line = none := if_pos h
  rw [instructionText?_eq, hnone]

theorem idle_of_head {c : Char} (hc : c = '.' ∨ c = '@') (text : Text) :
    Idle (trim (beforeComment (c :: text))) := by
  have hmark : isCommentMark c = false ∧ isBlank c = false := by
    rcases hc with rfl | rfl <;> decide
  have hbody : (trim (beforeComment (c :: text))).head? = some c := by
    simp [beforeComment, trim, Text.trimEnd, Text.dropEndWhile_cons, hmark]
  unfold Idle
  rw [hbody]
  rcases hc with rfl | rfl
  · exact .inr (.inl rfl)
  · exact .inr (.inr (.inl rfl))

theorem idle_of_label {w blanks : Text} (hw : IsWord w) (hb : ∀ c ∈ blanks, isBlank c = true) :
    Idle (trim (beforeComment (w ++ ':' :: blanks))) := by
  have hplain : Plain (w ++ [':']) := by
    intro c hc
    rcases List.mem_append.1 hc with hc | hc
    · exact hw.avoids (fun _ => isWordChar_of_isCommentMark) c hc
    · rw [List.mem_singleton.1 hc]
      decide
  have htrimmed : Text.Trimmed (w ++ [':']) := by
    constructor
    · intro c hc
      obtain ⟨d, w, rfl⟩ := List.exists_cons_of_ne_nil hw.ne_nil
      cases hc
      exact hw.avoids (fun _ => Text.isWordChar_of_isBlank) c (by simp)
    · intro c hc
      rw [List.getLast?_append] at hc
      cases hc
      decide
  rw [List.append_cons, body_trail hb, beforeComment_of_plain hplain, htrimmed.trim_eq]
  exact .inr (.inr (.inr (dropLabel_label hw [])))

theorem Filler.instructionText? {line : Text} (h : Filler line) :
    Asm.instructionText? line = .ok none := by
  have hblank : ∀ {blanks : Text}, (∀ c ∈ blanks, isBlank c = true) →
      Idle (trim (beforeComment blanks)) := by
    intro blanks hb
    have hnil := trim_trail hb []
    rw [List.nil_append] at hnil
    rw [beforeComment_of_plain (plain_blanks hb), hnil]
    exact .inl rfl
  induction h with
  | blank _ hb => exact instructionText?_of_idle (hblank hb)
  | comment _ _ _ hb hm =>
    refine instructionText?_of_idle ?_
    rw [beforeComment_comment hm]
    exact hblank hb
  | directive text => exact instructionText?_of_idle (idle_of_head (.inl rfl) text)
  | note text => exact instructionText?_of_idle (idle_of_head (.inr rfl) text)
  | label _ _ hw hb => exact instructionText?_of_idle (idle_of_label hw hb)
  | redressed _ hr ih => rw [hr.instructionText?, ih]

end Asm

/-- A line of a source that is laid out anew: it stands there in other dress, or it was added. -/
inductive LineEdit where
  | kept (before after : Text) (h : Asm.Redressed before after)
  | added (line : Text) (h : Asm.Filler line)

namespace LineEdit

def before? : LineEdit → Option Text
  | kept before _ _ => some before
  | added _ _ => none

def after : LineEdit → Text
  | kept _ after _ => after
  | added line _ => line

/-- The number of lines that were added before a line, which is counted from zero. -/
def addedBefore : List LineEdit → Nat → Nat
  | [], _ => 0
  | added _ _ :: es, n => addedBefore es n + 1
  | kept _ _ _ :: _, 0 => 0
  | kept _ _ _ :: es, n + 1 => addedBefore es n

def oldSource (es : List LineEdit) : Text := Text.join ['\n'] (es.filterMap before?)

def newSource (es : List LineEdit) : Text := Text.join ['\n'] (es.map after)

def moved (es : List LineEdit) (number : Nat) : Nat := number + addedBefore es (number - 1)

variable {es : List LineEdit}

open Asm (foundLines numberedLines)

/-- Edits keep the instructions of the lines, and each moves behind the lines added before it. -/
theorem foundLines_edited (es : List LineEdit) :
    foundLines (es.map after)
      = List.map (fun x => (x.1 + addedBefore es x.1, x.2)) <$>
        foundLines (es.filterMap before?) := by
  induction es with
  | nil => rfl
  | cons e es ih =>
    cases e with
    | kept before after h =>
      have hold : (kept before after h :: es).filterMap before? = before :: es.filterMap before? :=
        rfl
      rw [hold, List.map_cons, foundLines, foundLines, ih, LineEdit.after, h.instructionText?]
      cases Asm.instructionText? before with
      | error e => rfl
      | ok found =>
        cases foundLines (es.filterMap before?) with
        | error e => rfl
        | ok later =>
          refine congrArg Except.ok ?_
          cases found <;> simp [addedBefore, Nat.add_right_comm]
    | added line h =>
      have hold : (added line h :: es).filterMap before? = es.filterMap before? := rfl
      rw [hold, List.map_cons, foundLines, ih, LineEdit.after, h.instructionText?]
      cases foundLines (es.filterMap before?) with
      | error e => rfl
      | ok later => exact congrArg Except.ok (by simp [addedBefore, Nat.add_assoc])

theorem unbroken_before (h : ∀ e ∈ es, Text.Unbroken e.after) :
    ∀ line ∈ es.filterMap before?, Text.Unbroken line := by
  intro line hline
  obtain ⟨e, he, hbefore⟩ := List.mem_filterMap.1 hline
  cases e with
  | kept before after hdress =>
    cases hbefore
    exact (h _ he).of_subset hdress.subset
  | added => cases hbefore

theorem numberedLines_edited (h : ∀ e ∈ es, Text.Unbroken e.after) : numberedLines (newSource es)
    = List.map (fun x => (moved es x.1, x.2)) <$> numberedLines (oldSource es) := by
  have hafter : ∀ line ∈ es.map after, Text.Unbroken line := List.forall_mem_map.2 h
  rw [Asm.numberedLines_eq, Asm.numberedLines_eq, newSource, oldSource,
    Asm.foundLines_join hafter, Asm.foundLines_join (unbroken_before h), foundLines_edited]
  cases foundLines (es.filterMap before?) with
  | error e => rfl
  | ok found => exact congrArg Except.ok (by simp [moved, Nat.add_right_comm])

end LineEdit

open LineEdit (oldSource newSource moved numberedLines_edited)

variable {es : List LineEdit}

theorem Asm.instructionTexts_edited (h : ∀ e ∈ es, Text.Unbroken e.after) :
    instructionTexts (newSource es) = instructionTexts (oldSource es) := by
  rw [instructionTexts, instructionTexts, numberedLines_edited h]
  cases numberedLines (oldSource es) with
  | error e => rfl
  | ok lines => exact congrArg Except.ok (by simp [Function.comp_def])

theorem AssembledLine.ofLine_renumber {number : Nat} {line : Text} {l : AssembledLine}
    (h : ofLine number line = .ok l) (f : Nat → Nat) :
    ofLine (f number) line = .ok { l with number := f l.number } := by
  unfold ofLine at h ⊢
  split at h <;> cases h <;> rfl

def Assembly.renumber (f : Nat → Nat) (a : Assembly) : Assembly :=
  ofLines (a.lines.map fun l => { l with number := f l.number })

theorem Assembly.ofSource_edited (h : ∀ e ∈ es, Text.Unbroken e.after) {a : Assembly}
    (ha : ofSource (oldSource es) = .ok a) :
    ofSource (newSource es) = .ok (a.renumber (moved es)) := by
  obtain ⟨lines, hl, ha⟩ := Outcome.bind_eq_ok.1 ha
  obtain ⟨als, hals, ha⟩ := Outcome.bind_eq_ok.1 ha
  cases ha
  have hlines : Asm.numberedLines (newSource es)
      = .ok (lines.map fun x => (moved es x.1, x.2)) := by
    rw [numberedLines_edited h, Outcome.mapError_eq_ok.1 hl]
    rfl
  refine Outcome.bind_eq_ok.2
    ⟨_, Outcome.mapError_eq_ok.2 hlines, Outcome.bind_eq_ok.2 ⟨_, ?_, rfl⟩⟩
  rw [lines_ofLines, Outcome.mapM_eq_ok, List.forall₂_map_left_iff, List.forall₂_map_right_iff]
  refine (Outcome.mapM_eq_ok.1 hals).imp fun line l hline => ?_
  exact Outcome.mapError_eq_ok.2
    (AssembledLine.ofLine_renumber (Outcome.mapError_eq_ok.1 hline) (moved es))

/-- The layout of a source is not part of its program, and its assembly has the same words and the
same failures. Each failure moves by the number of the lines that were added before its line. -/
theorem Program.load_edited (h : ∀ e ∈ es, Text.Unbroken e.after) {p : Program}
    (hp : load (oldSource es) = .ok p) :
    load (newSource es) = .ok p ∧
      ∃ a a', Assembly.ofSource (oldSource es) = .ok a ∧
        Assembly.ofSource (newSource es) = .ok a' ∧ a'.words = a.words ∧
        a'.failures = a.failures.map fun f => { f with number := moved es f.number } := by
  obtain ⟨a, ha⟩ := Assembly.exists_of_load hp
  refine ⟨?_, a, _, ha, Assembly.ofSource_edited h ha, ?_, ?_⟩
  · rw [← hp, load, load, Asm.instructionTexts_edited h]
  · simp [Assembly.words, Assembly.renumber, Function.comp_def]
  · simp [Assembly.failures_eq, Assembly.renumber, List.filterMap_map, List.map_filterMap,
      Function.comp_def, AssembledLine.failure?]

theorem Program.load_edited_failure :
    ∃ es a a', oldSource es = "loop: add a0, a1, a2\nbad x1".toList ∧
      newSource es = ".text\n loop: add a0, a1, a2;#\nx: ; y\nbad x1\t".toList ∧
      Assembly.ofSource (oldSource es) = .ok a ∧ Assembly.ofSource (newSource es) = .ok a' ∧
      a'.words = a.words ∧ a.failures.map (·.number) = [2] ∧
      a'.failures.map (·.number) = [4] := by
  let es : List LineEdit := [
    .added ".text".toList (.directive _),
    .kept "loop: add a0, a1, a2".toList " loop: add a0, a1, a2;#".toList
      (.lead [' '] (List.all_eq_true.1 rfl) (.comment ';' ['#'] rfl .same)),
    .added "x: ; y".toList
      (.redressed (.label ['x'] [' '] ⟨by simp, List.all_eq_true.1 rfl⟩ (List.all_eq_true.1 rfl))
        (.comment ';' " y".toList rfl .same)),
    .kept "bad x1".toList "bad x1\t".toList (.trail ['\t'] (List.all_eq_true.1 rfl) .same)]
  have hunbroken : ∀ e ∈ es, Text.Unbroken e.after := by decide
  obtain ⟨p, hp⟩ : ∃ p, load (oldSource es) = .ok p := ⟨_, rfl⟩
  obtain ⟨-, a, a', ha, ha', hwords, hfailures⟩ := load_edited hunbroken hp
  have hnumbers : a.failures.map (·.number) = [2] := by
    cases ha
    rfl
  refine ⟨es, a, a', rfl, rfl, ha, ha', hwords, hnumbers, ?_⟩
  have hmap : a'.failures.map (·.number) = (a.failures.map (·.number)).map (moved es) := by
    rw [hfailures]
    simp [Function.comp_def]
  rw [hmap, hnumbers]
  rfl

end Datapath
