import Mathlib.Data.List.TakeDrop
import Datapath.Asm.Assembly
import Datapath.Proofs.Respelling

set_option autoImplicit false

namespace Datapath

namespace Asm

open Text (IsWord isWordChar isBlank trim Trimmed)

def Labelled (line : Text) : Prop := ∃ w rest, IsWord w ∧ line = w ++ ':' :: rest

theorem takeWhile_word {w rest : Text} (hw : IsWord w) (hr : Text.Apart rest) :
    (w ++ rest).takeWhile isWordChar = w ∧ (w ++ rest).dropWhile isWordChar = rest := by
  have hstop : rest.takeWhile isWordChar = [] ∧ rest.dropWhile isWordChar = rest := by
    cases rest with
    | nil => exact ⟨rfl, rfl⟩
    | cons c rest => simp [hr c rfl]
  rw [List.takeWhile_append_of_pos hw.solid, List.dropWhile_append_of_pos hw.solid, hstop.1,
    hstop.2, List.append_nil]
  exact ⟨rfl, rfl⟩

theorem labelled_iff {line : Text} : Labelled line ↔
    line.takeWhile isWordChar ≠ [] ∧ (line.dropWhile isWordChar).head? = some ':' := by
  constructor
  · rintro ⟨w, rest, hw, rfl⟩
    obtain ⟨htake, hdrop⟩ := takeWhile_word hw (Text.apart_cons (c := ':') (by decide) rest)
    rw [htake, hdrop]
    exact ⟨hw.ne_nil, rfl⟩
  · rintro ⟨hne, hhead⟩
    obtain ⟨rest, hrest⟩ : ∃ rest, line.dropWhile isWordChar = ':' :: rest :=
      ⟨_, (List.head?_eq_some_iff.1 hhead).choose_spec⟩
    refine ⟨line.takeWhile isWordChar, rest, ⟨hne, fun c hc => List.mem_takeWhile_imp hc⟩, ?_⟩
    rw [← hrest, List.takeWhile_append_dropWhile]

instance (line : Text) : Decidable (Labelled line) := decidable_of_iff _ labelled_iff.symm

theorem dropLabel_label {w : Text} (hw : IsWord w) (rest : Text) :
    dropLabel (w ++ ':' :: rest) = rest.dropWhile isBlank := by
  obtain ⟨htake, hdrop⟩ := takeWhile_word hw (Text.apart_cons (c := ':') (by decide) rest)
  obtain ⟨c, w, rfl⟩ := List.exists_cons_of_ne_nil hw.ne_nil
  rw [dropLabel, List.span_eq_takeWhile_dropWhile, htake, hdrop]
  rfl

theorem dropLabel_of_not_labelled {line : Text} (h : ¬ Labelled line) : dropLabel line = line := by
  rw [labelled_iff] at h
  rw [dropLabel, List.span_eq_takeWhile_dropWhile]
  split
  · rfl
  · next hne heq =>
    obtain ⟨htake, hdrop⟩ := Prod.mk.inj heq
    refine absurd ⟨?_, by rw [hdrop]; rfl⟩ h
    rw [htake]
    exact hne
  · rfl

theorem trimmed_dropLabel {line : Text} (h : Trimmed line) : Trimmed (dropLabel line) := by
  by_cases hl : Labelled line
  · obtain ⟨w, rest, hw, rfl⟩ := hl
    rw [dropLabel_label hw]
    rw [List.append_cons] at h
    exact h.of_append
  · rwa [dropLabel_of_not_labelled hl]

def Idle (body : Text) : Prop :=
  body = [] ∨ body.head? = some '.' ∨ body.head? = some '@' ∨ dropLabel body = []

instance (body : Text) : Decidable (Idle body) := by
  unfold Idle
  infer_instance

/-- The instruction of a line with the names that its registers have there. -/
def written? (line : Text) : Option Text :=
  let body := trim (beforeComment line)
  if Idle body then none else some (dropLabel body)

variable {line t u : Text}

theorem written?_eq_some (h : written? line = some t) :
    ¬ Idle (trim (beforeComment line)) ∧ t = dropLabel (trim (beforeComment line)) := by
  unfold written? at h
  dsimp only at h
  split at h
  · cases h
  · next hidle =>
    cases h
    exact ⟨hidle, rfl⟩

theorem trimmed_written? (h : written? line = some t) : Trimmed t := by
  rw [(written?_eq_some h).2]
  exact trimmed_dropLabel (Text.trimmed_trim _)

theorem written?_ne_nil (h : written? line = some t) : t ≠ [] := by
  obtain ⟨hidle, rfl⟩ := written?_eq_some h
  exact fun hnil => hidle (.inr (.inr (.inr hnil)))

theorem Respells.trimmed (h : Respells t u) (ht : Trimmed t) : Trimmed u := by
  have htrim := h.trim
  rw [ht.trim_eq] at htrim
  rw [h.unique htrim]
  exact Text.trimmed_trim u

theorem trim_renamed (hn : t ≠ []) (ht : Trimmed t) :
    (fun r => let r := trim r; if r = [] then none else some r) <$> renameRegisters t
      = some <$> renameRegisters t := by
  cases hr : renameRegisters t with
  | error e => rfl
  | ok r =>
    have hrespells := respells_iff.2 hr
    have hne : r ≠ [] := fun hnil => hn (hrespells.eq_nil_iff.2 hnil)
    have hshow : (if trim r = [] then none else some (trim r)) = some r := by
      rw [(hrespells.trimmed ht).trim_eq, if_neg hne]
    exact congrArg Except.ok hshow

theorem instructionText?_eq (line : Text) : instructionText? line
    = match written? line with
      | none => .ok none
      | some t => some <$> renameRegisters t := by
  have htrimmed := Text.trimmed_trim (beforeComment line)
  unfold instructionText? written?
  generalize trim (beforeComment line) = body at htrimmed
  dsimp only
  split
  · rw [if_pos (.inl rfl)]
  · rw [if_pos (.inr (.inl rfl))]
  · rw [if_pos (.inr (.inr (.inl rfl)))]
  · next hnil hdot hat =>
    have hidle : Idle body ↔ dropLabel body = [] := by
      refine ⟨?_, fun h => .inr (.inr (.inr h))⟩
      rintro (h | h | h | h)
      · exact absurd h hnil
      · obtain ⟨rest, h⟩ := List.head?_eq_some_iff.1 h
        exact absurd h (hdot rest)
      · obtain ⟨rest, h⟩ := List.head?_eq_some_iff.1 h
        exact absurd h (hat rest)
      · exact h
    split
    · next h => rw [if_pos (hidle.2 h)]
    · next h =>
      rw [if_neg (hidle.not.2 h)]
      exact trim_renamed h (trimmed_dropLabel htrimmed)

/-- The instructions of some lines, each with the number of the lines before it. -/
def foundLines : List Text → Except UnknownName (List (Nat × Text))
  | [] => .ok []
  | line :: rest => do
    let found ← instructionText? line
    let later ← foundLines rest
    pure ((found.map (0, ·)).toList ++ later.map (Prod.map (· + 1) id))

theorem numberedLines_eq (source : Text) :
    numberedLines source = List.map (Prod.map (· + 1) id) <$> foundLines (Text.lines source) := by
  have hcons : ∀ (x : Option (Nat × Text)) (m : Except UnknownName (List (Option (Nat × Text)))),
      List.filterMap id <$> (m >>= fun xs => pure (x :: xs))
        = (x.toList ++ ·) <$> (List.filterMap id <$> m) := by
    intro x m
    cases m with
    | error e => rfl
    | ok xs => cases x <;> rfl
  have hfrom : ∀ (ls : List Text) (k : Nat), List.filterMap id <$> ((ls.zipIdx k).mapM fun l =>
      (·.map (l.2, ·)) <$> instructionText? l.1)
        = List.map (Prod.map (· + k) id) <$> foundLines ls := by
    intro ls
    induction ls with
    | nil => intro k; rfl
    | cons line ls ih =>
      intro k
      rw [List.zipIdx_cons, List.mapM_cons, foundLines]
      cases instructionText? line with
      | error e => rfl
      | ok found =>
        rw [Outcome.ok_bind]
        refine (hcons (found.map (k, ·)) _).trans ?_
        rw [ih (k + 1)]
        cases foundLines ls with
        | error e => rfl
        | ok later =>
          refine congrArg Except.ok ?_
          cases found <;> simp [Prod.map, Nat.add_assoc, Nat.add_comm 1]
  exact hfrom _ 1

theorem instructionTexts_eq (source : Text) :
    instructionTexts source = List.map Prod.snd <$> foundLines (Text.lines source) := by
  rw [instructionTexts, numberedLines_eq]
  cases foundLines (Text.lines source) with
  | error e => rfl
  | ok found => exact congrArg Except.ok (by simp [Function.comp_def])

theorem texts_of_forall {ls : List Text} {f : Text → Option Text}
    (h : ∀ line ∈ ls, instructionText? line = .ok (f line)) :
    List.map Prod.snd <$> foundLines ls = .ok (ls.filterMap f) := by
  induction ls with
  | nil => rfl
  | cons line ls ih =>
    obtain ⟨later, hlater, htexts⟩ := Outcome.map_eq_ok.1
      (ih fun l hl => h l (List.mem_cons_of_mem _ hl))
    rw [foundLines, h line List.mem_cons_self, hlater, List.filterMap_cons, ← htexts]
    refine congrArg Except.ok ?_
    cases f line <;> simp [Function.comp_def]

theorem foundLines_congr {ls ms : List Text}
    (h : List.Forall₂ (fun l m => instructionText? l = instructionText? m) ls ms) :
    foundLines ls = foundLines ms := by
  induction h with
  | nil => rfl
  | cons hline _ ih => rw [foundLines, foundLines, hline, ih]

theorem foundLines_append_idle {lost : List Text} (h : ∀ l ∈ lost, instructionText? l = .ok none)
    (ls : List Text) : foundLines (ls ++ lost) = foundLines ls := by
  induction ls with
  | nil =>
    induction lost with
    | nil => rfl
    | cons l lost ih =>
      have hlost := ih fun m hm => h m (by simp [hm])
      rw [List.nil_append] at hlost
      simp only [List.nil_append, foundLines, h l (by simp), hlost]
      rfl
  | cons l ls ih => rw [List.cons_append, foundLines, foundLines, ih]

theorem foundLines_join {ls : List Text} (h : ∀ l ∈ ls, Text.Unbroken l) :
    foundLines (Text.lines (Text.join ['\n'] ls)) = foundLines ls := by
  obtain ⟨lost, hlost, hnil⟩ := Text.lines_join h
  have hidle : ∀ l ∈ lost, instructionText? l = .ok none := by
    intro l hl
    rw [hnil l hl]
    rfl
  have hfound := foundLines_append_idle hidle (Text.lines (Text.join ['\n'] ls))
  rw [hlost] at hfound
  exact hfound.symm

end Asm

end Datapath
