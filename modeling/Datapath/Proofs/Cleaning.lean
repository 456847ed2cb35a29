import Datapath.Proofs.InstructionText
import Datapath.Proofs.SourceAssembly

set_option autoImplicit false

namespace Datapath

namespace Asm

open Text (IsWord Apart isWordChar trim)

theorem labelled_word {w t : Text} (hw : IsWord w) (ht : Apart t) :
    Labelled (w ++ t) ↔ t.head? = some ':' := by
  obtain ⟨htake, hdrop⟩ := takeWhile_word hw ht
  rw [labelled_iff, htake, hdrop, and_iff_right hw.ne_nil]

theorem not_labelled_mark {c : Char} (hc : isWordChar c = false) (t : Text) :
    ¬ Labelled (c :: t) := by
  simp [labelled_iff, hc]

namespace Respells

variable {t u : Text}

theorem exists_of_mark {c : Char} (hc : isWordChar c = false) (h : Respells (c :: t) u) :
    ∃ v, u = c :: v ∧ Respells t v := by
  rw [respells_iff, renameRegisters_mark hc] at h
  obtain ⟨v, hv, rfl⟩ := Outcome.map_eq_ok.1 h
  exact ⟨v, rfl, respells_iff.2 hv⟩

theorem labelled_iff (h : Respells t u) : Labelled t ↔ Labelled u := by
  cases h with
  | nil => exact Iff.rfl
  | mark hc _ => exact iff_of_false (not_labelled_mark hc _) (not_labelled_mark hc _)
  | word hw ht hr h =>
    rw [labelled_word hw ht, labelled_word (renameWord_eq_ok hw hr).1 (h.apart ht),
      h.head_iff (by decide)]

theorem dropLabel (h : Respells t u) : Respells (Asm.dropLabel t) (Asm.dropLabel u) := by
  have hcolon : isWordChar ':' = false := by decide
  cases h with
  | nil => exact .nil
  | mark hc h =>
    rw [dropLabel_of_not_labelled (not_labelled_mark hc _),
      dropLabel_of_not_labelled (not_labelled_mark hc _)]
    exact .mark hc h
  | @word w w' t u hw ht hr h =>
    obtain ⟨hw', -⟩ := renameWord_eq_ok hw hr
    by_cases hhead : t.head? = some ':'
    · obtain ⟨t, rfl⟩ := List.head?_eq_some_iff.1 hhead
      obtain ⟨u, rfl, hrest⟩ := h.exists_of_mark hcolon
      rw [dropLabel_label hw, dropLabel_label hw']
      exact hrest.dropWhile fun _ => Text.isWordChar_of_isBlank
    · have hlabel := (labelled_word hw ht).not.2 hhead
      have hlabel' := (labelled_word hw' (h.apart ht)).not.2 ((h.head_iff hcolon).not.1 hhead)
      rw [dropLabel_of_not_labelled hlabel, dropLabel_of_not_labelled hlabel']
      exact .word hw ht hr h

theorem idle_iff (h : Respells t u) : Idle t ↔ Idle u := by
  unfold Idle
  rw [h.eq_nil_iff, h.head_iff (c := '.') (by decide), h.head_iff (c := '@') (by decide),
    h.dropLabel.eq_nil_iff]

theorem instructionText? (h : Respells t u) : Asm.instructionText? t = Asm.instructionText? u := by
  have hbody := h.beforeComment.trim
  rw [instructionText?_eq, instructionText?_eq]
  unfold written?
  dsimp only
  by_cases hidle : Idle (Text.trim (Asm.beforeComment t))
  · rw [if_pos hidle, if_pos (hbody.idle_iff.1 hidle)]
  · have hlabel := hbody.dropLabel
    rw [if_neg hidle, if_neg (hbody.idle_iff.not.1 hidle)]
    dsimp only
    rw [respells_iff.1 hlabel, respells_iff.1 hlabel.again]

theorem numberedLines (h : Respells t u) : Asm.numberedLines t = Asm.numberedLines u := by
  have hfound := foundLines_congr (h.lines.imp fun _ _ => instructionText?)
  rw [numberedLines_eq, numberedLines_eq, hfound]

end Respells

end Asm

/-- Renaming the registers of a whole source is done once and for all, and changes neither the
program nor the words and failures of its assembly. -/
theorem Program.load_respelled {source : Text} (h : 'ſ' ∉ source) :
    ∃ t, Asm.renameRegisters source = .ok t ∧ Asm.renameRegisters t = .ok t ∧
      Program.load t = Program.load source ∧
      Assembly.ofSource t = Assembly.ofSource source ∧
      ∀ p, Program.load source = .ok p → ∃ a, Assembly.ofSource source = .ok a := by
  obtain ⟨t, ht⟩ := Asm.exists_renameRegisters (t := source) fun w hw hm =>
    h (Text.subset_of_mem_words hw hm.1)
  have hrespells := Asm.respells_iff.2 ht
  have hlines := hrespells.numberedLines
  refine ⟨t, ht, Asm.respells_iff.1 hrespells.again, ?_, ?_, ?_⟩
  · unfold load Asm.instructionTexts
    rw [hlines]
  · unfold Assembly.ofSource
    rw [hlines]
  · exact fun p hp => Assembly.exists_of_load hp

theorem Program.load_respelled_label :
    ∃ t, Asm.renameRegisters "a0: add SP, s10, t0 # ra\n.zero\nfp:".toList = .ok t ∧
      t = "x10: add x2, x26, x5 # x1\n.x0\nx8:".toList ∧
      Program.load t = Program.load "a0: add SP, s10, t0 # ra\n.zero\nfp:".toList := by
  have hnone : 'ſ' ∉ "a0: add SP, s10, t0 # ra\n.zero\nfp:".toList := by decide
  obtain ⟨t, ht, -, hload, -, -⟩ := load_respelled hnone
  refine ⟨t, ht, ?_, hload⟩
  cases ht
  rfl

namespace Asm

open Text (Trimmed Unbroken trim)

/-- The line is no directive and starts with no label. -/
structure Settled (line : Text) : Prop where
  dot : line.head? ≠ some '.'
  note : line.head? ≠ some '@'
  label : ¬ Labelled line

theorem settled_iff {line : Text} :
    line.head? ≠ some '.' ∧ line.head? ≠ some '@' ∧ ¬ Labelled line ↔ Settled line :=
  ⟨fun h => ⟨h.1, h.2.1, h.2.2⟩, fun h => ⟨h.dot, h.note, h.label⟩⟩

instance (line : Text) : Decidable (Settled line) := decidable_of_iff _ settled_iff

theorem Respells.settled_iff {t u : Text} (h : Respells t u) : Settled t ↔ Settled u := by
  rw [← Asm.settled_iff, ← Asm.settled_iff, h.labelled_iff, Ne, Ne,
    h.head_iff (c := '.') (by decide), h.head_iff (c := '@') (by decide)]

/-- What is left of a clean line when it is cleaned again. -/
def again (line : Text) : Option Text := if Idle line then none else some (dropLabel line)

theorem dropLabel_eq_self_iff {line : Text} : dropLabel line = line ↔ ¬ Labelled line := by
  refine ⟨?_, dropLabel_of_not_labelled⟩
  rintro h ⟨w, rest, hw, rfl⟩
  rw [dropLabel_label hw] at h
  have hlength := congrArg List.length h
  have hdrop := List.length_dropWhile_le Text.isBlank rest
  rw [List.length_append, List.length_cons] at hlength
  omega

theorem again_eq_self_iff {line : Text} (hn : line ≠ []) :
    again line = some line ↔ Settled line := by
  unfold again
  constructor
  · intro h
    split at h
    · cases h
    · next hidle =>
      have hlabel := dropLabel_eq_self_iff.1 (Option.some.inj h)
      exact ⟨fun hd => hidle (.inr (.inl hd)), fun hd => hidle (.inr (.inr (.inl hd))), hlabel⟩
  · intro h
    have hlabel := dropLabel_of_not_labelled h.label
    have hidle : ¬ Idle line := by
      rintro (hd | hd | hd | hd)
      · exact hn hd
      · exact h.dot hd
      · exact h.note hd
      · exact hn (hlabel.symm.trans hd)
    rw [if_neg hidle, hlabel]

structure Clean (raw : Text) : Prop where
  ne_nil : raw ≠ []
  trimmed : Trimmed raw
  plain : Plain raw
  renamed : Respells raw raw

variable {line raw source : Text} {texts : List Text}

theorem exists_written? (h : instructionText? line = .ok (some raw)) :
    ∃ t, written? line = some t ∧ Respells t raw := by
  rw [instructionText?_eq] at h
  split at h
  · cases h
  · next t ht =>
    obtain ⟨r, hr, h⟩ := Outcome.map_eq_ok.1 h
    cases h
    exact ⟨t, ht, respells_iff.2 hr⟩

theorem clean_instructionText? (h : instructionText? line = .ok (some raw)) : Clean raw := by
  obtain ⟨t, ht, hrespells⟩ := exists_written? h
  exact ⟨fun hnil => written?_ne_nil ht (hrespells.eq_nil_iff.2 hnil),
    hrespells.trimmed (trimmed_written? ht), plain_instructionText? h, hrespells.again⟩

theorem unbroken_instructionText? (hl : Unbroken line)
    (h : instructionText? line = .ok (some raw)) :
    Unbroken raw := by
  obtain ⟨t, ht, hrespells⟩ := exists_written? h
  obtain ⟨-, rfl⟩ := written?_eq_some ht
  have hsub : dropLabel (trim (beforeComment line)) ⊆ line :=
    List.Subset.trans (dropLabel_subset _)
      (List.Subset.trans (trim_subset _) (List.takeWhile_sublist _).subset)
  exact hrespells.avoids (fun _ => Text.isWordChar_of_isLineBreak) (hl.of_subset hsub)

theorem Clean.instructionText? (h : Clean raw) : Asm.instructionText? raw = .ok (again raw) := by
  have hbody : trim (beforeComment raw) = raw := by
    rw [beforeComment_of_plain h.plain, h.trimmed.trim_eq]
  have hwritten : written? raw = if Idle raw then none else some (dropLabel raw) := by
    unfold written?
    rw [hbody]
  rw [instructionText?_eq, hwritten, again]
  by_cases hidle : Idle raw
  · rw [if_pos hidle]
  · rw [if_neg hidle]
    dsimp only
    rw [respells_iff.1 h.renamed.dropLabel]
    rfl

theorem instructionTexts_again (h : instructionTexts source = .ok texts) :
    instructionTexts (Text.join ['\n'] texts) = .ok (texts.filterMap again) := by
  have hunbroken : ∀ raw ∈ texts, Unbroken raw := by
    intro raw hraw
    obtain ⟨line, hline, hfound⟩ := mem_instructionTexts h hraw
    exact unbroken_instructionText? (Text.unbroken_of_mem_lines hline) hfound
  rw [instructionTexts_eq, foundLines_join hunbroken]
  refine texts_of_forall fun raw hraw => ?_
  obtain ⟨line, -, hfound⟩ := mem_instructionTexts h hraw
  exact (clean_instructionText? hfound).instructionText?

theorem filterMap_again_eq_iff (h : ∀ raw ∈ texts, raw ≠ []) :
    texts.filterMap again = texts ↔ ∀ raw ∈ texts, Settled raw := by
  have hmap := List.filterMap_eq_map_iff_forall_eq_some (l := texts) (f := again) (g := id)
  rw [List.map_id] at hmap
  rw [hmap]
  exact forall₂_congr fun raw hraw => again_eq_self_iff (h raw hraw)

/-- What a label hid was hidden from the tests of the line as well. -/
theorem settled_or_label (h : Asm.instructionText? line = .ok (some raw)) :
    Settled raw ∨ Labelled (trim (beforeComment line)) ∧
      ¬ Settled (dropLabel (trim (beforeComment line))) := by
  obtain ⟨t, ht, hrespells⟩ := exists_written? h
  obtain ⟨hidle, rfl⟩ := written?_eq_some ht
  rw [← hrespells.settled_iff]
  by_cases hl : Labelled (trim (beforeComment line))
  · exact (em _).imp id fun hs => ⟨hl, hs⟩
  · rw [dropLabel_of_not_labelled hl]
    exact .inl ⟨fun hd => hidle (.inr (.inl hd)), fun hd => hidle (.inr (.inr (.inl hd))), hl⟩

end Asm

theorem Program.instructionTexts_of_load {source : Text} {p : Program}
    (h : load source = .ok p) : Asm.instructionTexts source = .ok (p.lines.map (·.raw)) := by
  obtain ⟨lines, hlines, hslots⟩ := exists_numberedLines h
  have hraws : p.lines.map (·.raw) = lines.map Prod.snd := by
    rw [← List.forall₂_eq_eq_eq, List.forall₂_map_left_iff, List.forall₂_map_right_iff]
    exact hslots.flip.imp fun _ _ h => h.1
  rw [Asm.instructionTexts, hlines, hraws]
  rfl

/-- Cleaning a clean source loses no more than the directives and the labels that stood behind
labels. Without them it changes nothing, and the program is the same. -/
theorem Program.load_cleaned {source : Text} {texts : List Text}
    (h : Asm.instructionTexts source = .ok texts) :
    Asm.instructionTexts (Text.join ['\n'] texts) = .ok (texts.filterMap Asm.again) ∧
    (Asm.instructionTexts (Text.join ['\n'] texts) = .ok texts
      ↔ ∀ raw ∈ texts, Asm.Settled raw) ∧
    (∀ p, load source = .ok p →
      (load (Text.join ['\n'] texts) = .ok p ↔ ∀ raw ∈ texts, Asm.Settled raw)) ∧
    ∀ raw ∈ texts, raw ≠ [] ∧ Text.Trimmed raw ∧ Asm.Plain raw ∧
      ∃ line ∈ Text.lines source, Asm.instructionText? line = .ok (some raw) ∧
        (Asm.Settled raw ∨ Asm.Labelled (Text.trim (Asm.beforeComment line)) ∧
          ¬ Asm.Settled (Asm.dropLabel (Text.trim (Asm.beforeComment line)))) := by
  have hagain := Asm.instructionTexts_again h
  have hclean : ∀ raw ∈ texts, Asm.Clean raw := by
    intro raw hraw
    obtain ⟨line, -, hline⟩ := Asm.mem_instructionTexts h hraw
    exact Asm.clean_instructionText? hline
  have hsettled : Asm.instructionTexts (Text.join ['\n'] texts) = .ok texts
      ↔ ∀ raw ∈ texts, Asm.Settled raw := by
    rw [hagain, Except.ok.injEq,
      Asm.filterMap_again_eq_iff fun raw hraw => (hclean raw hraw).ne_nil]
  refine ⟨hagain, hsettled, ?_, ?_⟩
  · intro p hp
    rw [← hsettled]
    constructor
    · intro hload
      rw [instructionTexts_of_load hload, ← instructionTexts_of_load hp, h]
    · intro htexts
      rw [← hp, load, load, htexts, h]
  · intro raw hraw
    obtain ⟨line, hline, hfound⟩ := Asm.mem_instructionTexts h hraw
    have hc := hclean raw hraw
    exact ⟨hc.ne_nil, hc.trimmed, hc.plain, line, hline, hfound, Asm.settled_or_label hfound⟩

theorem Program.load_cleaned_label :
    Asm.instructionTexts "a: nop # b: c:\n.text\nadd sp, t0, t1".toList
        = .ok ["nop".toList, "add x2, x5, x6".toList] ∧
      Asm.instructionTexts "nop\nadd x2, x5, x6".toList
        = .ok ["nop".toList, "add x2, x5, x6".toList] := by
  have h : Asm.instructionTexts "a: nop # b: c:\n.text\nadd sp, t0, t1".toList
      = .ok ["nop".toList, "add x2, x5, x6".toList] := rfl
  obtain ⟨-, hsettled, -, -⟩ := load_cleaned h
  exact ⟨h, hsettled.2 (by decide)⟩

/-- A second label outlives the first cleaning and not the next one. -/
theorem Program.cleaned_twice_ne :
    ∃ texts, Asm.instructionTexts "a: b: nop".toList = .ok texts ∧
      (∃ raw ∈ texts, Asm.Labelled raw) ∧
      Asm.instructionTexts (Text.join ['\n'] texts) ≠ .ok texts ∧
      load (Text.join ['\n'] texts) ≠ load "a: b: nop".toList := by
  refine ⟨["b: nop".toList], rfl, ⟨_, List.mem_singleton_self _, by decide⟩, by decide, by decide⟩

end Datapath
