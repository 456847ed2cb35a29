import Datapath.Isa

set_option autoImplicit false

namespace Datapath

namespace Text

theorem exists_run_of_caseShift {runs : List CaseRun} {n : Nat} (h : caseShift runs n ≠ 0) :
    ∃ run ∈ runs, run.first ≤ n ∧ n ≤ run.last ∧ caseShift runs n = run.shift := by
  induction runs with
  | nil => exact absurd rfl h
  | cons run rest ih =>
    unfold caseShift at h ⊢
    split
    · next hlt => exact absurd (if_pos hlt) h
    · next hge =>
      rw [if_neg hge] at h
      split
      · next hin => exact ⟨run, by simp, Nat.not_lt.1 hge, hin.1, rfl⟩
      · next hout =>
        rw [if_neg hout] at h
        obtain ⟨other, hmem, hrest⟩ := ih h
        exact ⟨other, by simp [hmem], hrest⟩

theorem toNat_ofNat (n : Nat) : (Char.ofNat n).toNat = n ∨ (Char.ofNat n).toNat = 0 := by
  unfold Char.ofNat
  by_cases h : n.isValidChar
  · left
    rw [dif_pos h]
    rfl
  · right
    rw [dif_neg h]
    rfl

theorem lowerChar_eq (c : Char) : lowerChar c = c ∨ ∃ run ∈ caseRuns, run.first ≤ c.toNat ∧
    c.toNat ≤ run.last ∧ lowerChar c = Char.ofNat (c.toNat + run.shift).toNat := by
  by_cases h : caseShift caseRuns c.toNat = 0
  · left
    rw [lowerChar, h, Int.add_zero, Int.toNat_natCast, Char.ofNat_toNat]
  · obtain ⟨run, hmem, hl, hu, hs⟩ := exists_run_of_caseShift h
    exact .inr ⟨run, hmem, hl, hu, by rw [lowerChar, hs]⟩

/-- The capital letters whose lowercase is a small Latin letter; the sign of a unit is one. -/
def IsCapital (c : Char) : Prop := 0x41 ≤ c.toNat ∧ c.toNat ≤ 0x5A ∨ c.toNat = 0x212A

instance (c : Char) : Decidable (IsCapital c) := by
  unfold IsCapital
  infer_instance

theorem lowerChar_ne_of_isCapital {c : Char} (h : IsCapital c) : lowerChar c ≠ c := by
  have hlatin : ∀ n < 0x5B, 0x41 ≤ n → lowerChar (Char.ofNat n) ≠ Char.ofNat n := by decide
  have hunit : lowerChar (Char.ofNat 0x212A) ≠ Char.ofNat 0x212A := by decide
  rw [← Char.ofNat_toNat c]
  rcases h with ⟨hl, hu⟩ | h
  · exact hlatin c.toNat (by omega) hl
  · rwa [h]

theorem not_isCapital_lowerChar (c : Char) : ¬ IsCapital (lowerChar c) := by
  have himage : ∀ run ∈ caseRuns, (run.last + run.shift < 0x41 ∨ 0x5A < run.first + run.shift) ∧
      (run.last + run.shift < 0x212A ∨ 0x212A < run.first + run.shift) := by decide +kernel
  intro hc
  rcases lowerChar_eq c with h | ⟨run, hmem, hl, hu, h⟩
  · rw [h] at hc
    exact lowerChar_ne_of_isCapital hc h
  · obtain ⟨hlatin, hunit⟩ := himage run hmem
    rw [h] at hc
    rcases toNat_ofNat (c.toNat + run.shift).toNat with hn | hn <;>
      rw [IsCapital, hn] at hc <;> omega

theorem isLower_bounds {c : Char} (h : c.isLower = true) : 0x61 ≤ c.toNat ∧ c.toNat ≤ 0x7A := by
  obtain ⟨hl, hu⟩ := Bool.and_eq_true_iff.1 h
  exact ⟨UInt32.le_iff_toNat_le.1 (of_decide_eq_true hl),
    UInt32.le_iff_toNat_le.1 (of_decide_eq_true hu)⟩

theorem lowerChar_eq_of_isLower {c : Char} (hc : ¬ IsCapital c) (h : (lowerChar c).isLower = true) :
    lowerChar c = c := by
  have hsource : ∀ run ∈ caseRuns, run.last + run.shift < 0x61 ∨ 0x7A < run.first + run.shift ∨
      0x41 ≤ run.first ∧ run.last ≤ 0x5A ∨ run.first = 0x212A ∧ run.last = 0x212A := by
    decide +kernel
  rcases lowerChar_eq c with he | ⟨run, hmem, hl, hu, he⟩
  · exact he
  · have hb := isLower_bounds h
    have hrun := hsource run hmem
    rw [he] at hb
    unfold IsCapital at hc
    rcases toNat_ofNat (c.toNat + run.shift).toNat with hn | hn <;> rw [hn] at hb <;> omega

theorem not_isCapital_of_mem_lowerFrom {afterCased : Bool} {t : Text} {c : Char}
    (h : c ∈ lowerFrom afterCased t) : ¬ IsCapital c := by
  induction t generalizing afterCased with
  | nil => cases h
  | cons d rest ih =>
    rcases List.mem_append.1 h with h | h
    · split at h
      · have hsigma : c = 'ς' ∨ c = 'σ' := by
          rw [List.mem_singleton] at h
          split at h
          · exact .inl h
          · exact .inr h
        rcases hsigma with rfl | rfl <;> decide
      · split at h
        · have hdotted : c = 'i' ∨ c = Char.ofNat 0x307 := by simpa using h
          rcases hdotted with rfl | rfl <;> decide
        · rw [List.mem_singleton.1 h]
          exact not_isCapital_lowerChar d
    · exact ih h

theorem lowerFrom_eq_of_isLower {t : Text} (ht : ∀ c ∈ t, ¬ IsCapital c) {afterCased : Bool}
    (h : ∀ c ∈ lowerFrom afterCased t, c.isLower = true) : lowerFrom afterCased t = t := by
  induction t generalizing afterCased with
  | nil => rfl
  | cons c rest ih =>
    unfold lowerFrom at h ⊢
    rw [ih (fun d hd => ht d (by simp [hd])) fun d hd => h d (by simp [hd])]
    split
    · -- Neither form of a sigma is a Latin letter.
      next hsigma =>
      have hc := h (if afterCased && !startsCased rest then 'ς' else 'σ') (by simp [hsigma])
      split at hc <;> cases hc
    · next hsigma =>
      split
      · next hdotted =>
        have hc := h (Char.ofNat 0x307) (by simp [hdotted])
        cases hc
      · next hdotted =>
        have hc := h (lowerChar c) (by simp [hsigma, hdotted])
        rw [lowerChar_eq_of_isLower (ht c (by simp)) hc]
        rfl

theorem lowercase_lowercase_of_isLower {t : Text}
    (h : ∀ c ∈ lowercase (lowercase t), c.isLower = true) :
    lowercase (lowercase t) = lowercase t :=
  lowerFrom_eq_of_isLower (fun _ => not_isCapital_of_mem_lowerFrom) h

end Text

theorem Format.nodup_roles (format : Format) : format.roles.Nodup := by cases format <;> decide

namespace Opcode

/-- Whether the fixed fields of two opcodes leave room for a word of both. -/
def Overlap (a b : Opcode) : Prop :=
  a.spec.major = b.spec.major ∧
  (a.format = .upper ∨ a.format = .jump ∨ b.format = .upper ∨ b.format = .jump ∨
    a.spec.funct3 = b.spec.funct3) ∧
  (a.format ≠ .register ∧ a.format ≠ .shift ∨ b.format ≠ .register ∧ b.format ≠ .shift ∨
    a.spec.funct7 = b.spec.funct7)

instance (a b : Opcode) : Decidable (Overlap a b) := by
  unfold Overlap
  infer_instance

theorem eq_of_overlap {a b : Opcode} (h : Overlap a b) : a = b := by
  have key : ∀ a ∈ all, ∀ b ∈ all, Overlap a b → a = b := by decide
  exact key a (mem_all a) b (mem_all b) h

variable {w : Int} {a b op : Opcode}

theorem overlap_of_matches (ha : Matches w a) (hb : Matches w b) : Overlap a b := by
  obtain ⟨hma, h3a, h7a⟩ := ha
  obtain ⟨hmb, h3b, h7b⟩ := hb
  refine ⟨hma.symm.trans hmb, ?_, ?_⟩
  · rcases h3a with h | h | ha
    · exact .inl h
    · exact .inr (.inl h)
    · rcases h3b with h | h | hb
      · exact .inr (.inr (.inl h))
      · exact .inr (.inr (.inr (.inl h)))
      · exact .inr (.inr (.inr (.inr (ha.symm.trans hb))))
  · rcases h7a with h | ha
    · exact .inl h
    · rcases h7b with h | hb
      · exact .inr (.inl h)
      · exact .inr (.inr (ha.symm.trans hb))

theorem matches_unique (ha : Matches w a) (hb : Matches w b) : a = b :=
  eq_of_overlap (overlap_of_matches ha hb)

/-- A word has the one opcode that its fixed fields name, wherever the table has it. -/
theorem ofWord?_eq_some_iff : ofWord? w = some op ↔ Matches w op := by
  constructor
  · intro h
    simpa using List.find?_some h
  · intro h
    cases hw : ofWord? w with
    | none =>
      have hn := List.find?_eq_none.1 hw op (mem_all op)
      simp [h] at hn
    | some found =>
      -- The first row that matches is the only one.
      have hf : Matches w found := by simpa using List.find?_some hw
      rw [matches_unique hf h]

theorem lowercase_name (op : Opcode) : Text.lowercase op.name = op.name := by
  cases op <;> decide

theorem lowercase_nopName : Text.lowercase nopName = nopName := by decide

theorem name_ne_nopName (op : Opcode) : op.name ≠ nopName := by cases op <;> decide

theorem ofName?_eq_some_iff {t : Text} : ofName? t = some op ↔ op.name = t := by
  constructor
  · intro h
    simpa using List.find?_some h
  · intro h
    cases ht : ofName? t with
    | none =>
      have hn := List.find?_eq_none.1 ht op (mem_all op)
      simp [h] at hn
    | some found =>
      have hf : found.name = t := by simpa using List.find?_some ht
      rw [name_injective (hf.trans h.symm)]

@[simp] theorem lookup?_name (op : Opcode) : lookup? op.name = some op := by
  simp [lookup?, lowercase_name, name_ne_nopName, ofName?_eq_some_iff]

@[simp] theorem lookup?_nopName : lookup? nopName = some addi := by
  simp [lookup?, lowercase_nopName]

theorem lowercase_of_lookup? {t : Text} (h : lookup? t = some op)
    (hn : Text.lowercase t ≠ nopName) : Text.lowercase t = op.name := by
  simp only [lookup?, hn, ↓reduceIte] at h
  exact (ofName?_eq_some_iff.1 h).symm

theorem length_roles (op : Opcode) :
    op.format.roles.length = if op ∈ [lui, auipc, jal] then 2 else 3 := by
  cases op <;> decide

end Opcode

end Datapath
