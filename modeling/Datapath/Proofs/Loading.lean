import Datapath.Proofs.ExportedProgram
import Datapath.Proofs.InstructionText
import Datapath.Proofs.OperandValue

set_option autoImplicit false

namespace Datapath

open Asm (tokens value? unled Oversized)

namespace Instruction

def ofTokens : List Text → Option Instruction
  | [] => none
  | mnemonic :: operands => some ⟨Text.lowercase mnemonic, operands.map value?⟩

variable {line : Text}

theorem operand?_of_mem {token : Text} (h : token ∈ (tokens line).tail) : Asm.operand? token
    = if Oversized token then .error (.reading (unled token).length) else .ok (value? token) := by
  refine Asm.operand?_eq fun hfeed => ?_
  have hsolid := Text.solid_of_mem_fields (List.mem_of_mem_tail h) '\n' hfeed
  exact absurd hsolid (by decide)

/-- Operands that are not too long do not stop the reading, whatever they are. -/
theorem parse?_eq_ofTokens (h : ∀ token ∈ (tokens line).tail, ¬ Oversized token) :
    parse? line = .ok (ofTokens (tokens line)) := by
  have hread : ∀ token ∈ (tokens line).tail, Asm.operand? token = .ok (value? token) := by
    intro token ht
    rw [operand?_of_mem ht, if_neg (h token ht)]
  unfold parse?
  cases ht : tokens line with
  | nil => rfl
  | cons mnemonic operands =>
    rw [ht] at hread
    have hvalues : operands.mapM Asm.operand? = .ok (operands.map value?) :=
      Outcome.mapM_of_forall hread
    dsimp only
    rw [hvalues]
    rfl

theorem oversized_of_error {e : Decimal.LimitError} (h : parse? line = .error e) :
    ∃ token ∈ (tokens line).tail, Oversized token ∧ e = .reading (unled token).length := by
  have hread : ∃ token ∈ (tokens line).tail, Asm.operand? token = .error e := by
    unfold parse? at h
    split at h
    · cases h
    · next ht =>
      rw [ht]
      exact Outcome.exists_of_mapM_eq_error (Outcome.map_eq_error.1 h)
  obtain ⟨token, ht, he⟩ := hread
  rw [operand?_of_mem ht] at he
  split at he
  · next ho =>
    cases he
    exact ⟨token, ht, ho, rfl⟩
  · cases he

theorem not_oversized_of_ok {x : Option Instruction} (h : parse? line = .ok x) :
    ∀ token ∈ (tokens line).tail, ¬ Oversized token := by
  intro token ht ho
  have hstop := operand?_of_mem ht
  rw [if_pos ho] at hstop
  unfold parse? at h
  split at h
  · next hnil =>
    rw [hnil] at ht
    cases ht
  · next hcons =>
    rw [hcons] at ht
    obtain ⟨values, hvalues, -⟩ := Outcome.map_eq_ok.1 h
    obtain ⟨v, -, hv⟩ := Outcome.exists_of_mem_forall₂ (Outcome.mapM_eq_ok.1 hvalues).flip ht
    cases hstop.symm.trans hv

end Instruction

namespace Asm

/-- What a line gives to a program, whatever stands on the lines around it. -/
def given? (line : Text) : Option (Text × Option Instruction) :=
  (written? line).map fun t =>
    let raw := (renameRegisters t).toOption.getD t
    (raw, Instruction.ofTokens (tokens raw))

/-- The line stops the loading of its source. -/
inductive Stops (line : Text) : LoadError → Prop
  | name {t w : Text} : written? line = some t → w ∈ Text.words t → Misnamed w →
    Stops line (.name ⟨w.map Char.toLower⟩)
  | limit {raw token : Text} : instructionText? line = .ok (some raw) →
    token ∈ (tokens raw).tail → Oversized token →
    Stops line (.limit (.reading (unled token).length))

variable {line raw : Text}

theorem stops_of_name {e : UnknownName} (h : instructionText? line = .error e) :
    Stops line (.name e) := by
  rw [instructionText?_eq] at h
  split at h
  · cases h
  · next t ht =>
    obtain ⟨w, hw, hm, rfl⟩ := misnamed_of_error (Outcome.map_eq_error.1 h)
    exact .name ht hw hm

theorem stops_of_limit {e : Decimal.LimitError} (hraw : instructionText? line = .ok (some raw))
    (h : Instruction.parse? raw = .error e) : Stops line (.limit e) := by
  obtain ⟨token, ht, ho, rfl⟩ := Instruction.oversized_of_error h
  exact .limit hraw ht ho

theorem not_stops {x : Option Text} (hx : instructionText? line = .ok x)
    (h : ∀ raw, x = some raw → ∃ i, Instruction.parse? raw = .ok i) (e : LoadError) :
    ¬ Stops line e := by
  intro hs
  cases hs with
  | name ht hw hm =>
    rw [instructionText?_eq, ht] at hx
    obtain ⟨u, hu, -⟩ := Outcome.map_eq_ok.1 hx
    exact not_misnamed_of_ok hu hw hm
  | limit hraw ht ho =>
    cases hx.symm.trans hraw
    obtain ⟨i, hi⟩ := h _ rfl
    exact Instruction.not_oversized_of_ok hi _ ht ho

theorem instructionText?_eq_given? (h : ∀ e, ¬ Stops line e) :
    instructionText? line = .ok ((given? line).map Prod.fst) := by
  unfold given?
  rw [instructionText?_eq]
  cases ht : written? line with
  | none => rfl
  | some t =>
    obtain ⟨u, hu⟩ := exists_renameRegisters fun w hw hm => h _ (.name ht hw hm)
    simp only [hu, Option.map_some]
    rfl

theorem parse?_eq_given? (h : ∀ e, ¬ Stops line e) {x : Text × Option Instruction}
    (hx : given? line = some x) : Instruction.parse? x.1 = .ok x.2 := by
  have hraw := instructionText?_eq_given? h
  rw [hx] at hraw
  rw [Instruction.parse?_eq_ofTokens fun token ht ho => h _ (.limit hraw ht ho)]
  obtain ⟨t, -, rfl⟩ := Option.map_eq_some_iff.1 hx
  rfl

end Asm

namespace Program

open Asm (Stops given?)

variable {source : Text} {e : LoadError}

theorem load_of_forall (h : ∀ line ∈ Text.lines source, ∀ e, ¬ Stops line e) :
    load source = .ok (place ((Text.lines source).filterMap given?)) := by
  have htexts : Asm.instructionTexts source
      = .ok (((Text.lines source).filterMap given?).map Prod.fst) := by
    rw [Asm.instructionTexts_eq, Asm.texts_of_forall fun line hl =>
      Asm.instructionText?_eq_given? (h line hl), List.map_filterMap]
  have hslots : ∀ x ∈ (Text.lines source).filterMap given?,
      ((x.1, ·) <$> Instruction.parse? x.1).mapError LoadError.limit = .ok x := by
    intro x hx
    obtain ⟨line, hl, hgiven⟩ := List.mem_filterMap.1 hx
    rw [Asm.parse?_eq_given? (h line hl) hgiven]
    rfl
  -- Both passes over the lines are known by now, the one for names and the one for numerals.
  rw [load, htexts]
  refine Outcome.bind_eq_ok.2 ⟨_, rfl, Outcome.bind_eq_ok.2 ⟨_, ?_, rfl⟩⟩
  rw [Outcome.mapM_eq_ok, List.forall₂_map_left_iff, List.forall₂_same]
  exact hslots

theorem exists_stops (h : load source = .error e) : ∃ line ∈ Text.lines source, Stops line e := by
  rcases Outcome.bind_eq_error.1 h with h | ⟨texts, htexts, h⟩
  · obtain ⟨u, hu, rfl⟩ := Outcome.mapError_eq_error.1 h
    obtain ⟨⟨line, n⟩, hl, he⟩ := Outcome.exists_of_mapM_eq_error
      (Outcome.map_eq_error.1 (Outcome.map_eq_error.1 hu))
    have hline := List.fst_mem_of_mem_zipIdx hl
    exact ⟨line, hline, Asm.stops_of_name (Outcome.map_eq_error.1 he)⟩
  · rcases Outcome.bind_eq_error.1 h with h | ⟨slots, -, h⟩
    · obtain ⟨raw, hraw, he⟩ := Outcome.exists_of_mapM_eq_error h
      obtain ⟨u, hu, rfl⟩ := Outcome.mapError_eq_error.1 he
      obtain ⟨line, hl, hline⟩ := Asm.mem_instructionTexts (Outcome.mapError_eq_ok.1 htexts) hraw
      exact ⟨line, hl, Asm.stops_of_limit hline (Outcome.map_eq_error.1 hu)⟩
    · cases h

theorem not_stops_of_load {p : Program} (h : load source = .ok p) :
    ∀ line ∈ Text.lines source, ∀ e, ¬ Stops line e := by
  intro line hl
  obtain ⟨lines, hlines, hslots⟩ := exists_numberedLines h
  have hread : ∃ x, Asm.instructionText? line = .ok x := by
    obtain ⟨found, hfound, -⟩ := Asm.numberedLines_eq_ok hlines
    have hmem : line ∈ ((Text.lines source).zipIdx 1).map Prod.fst := by simpa using hl
    obtain ⟨⟨_, n⟩, hn, rfl⟩ := List.mem_map.1 hmem
    obtain ⟨_, -, x, hx, -⟩ := Outcome.exists_of_mem_forall₂ hfound.flip hn
    exact ⟨x, hx⟩
  obtain ⟨x, hx⟩ := hread
  refine Asm.not_stops hx ?_
  rintro raw rfl
  obtain ⟨i, hi⟩ := List.mem_iff_getElem?.1 hl
  have hmem : (i + 1, raw) ∈ lines := (Asm.mem_numberedLines hlines).2 ⟨line, by simp, hi, hx⟩
  obtain ⟨slot, -, -, hparsed⟩ := Outcome.exists_of_mem_forall₂ hslots.flip hmem
  exact ⟨slot.parsed, hparsed⟩

end Program

end Datapath
