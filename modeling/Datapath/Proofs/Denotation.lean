import Datapath.Asm.Assembly
import Datapath.Proofs.OpcodeTable
import Datapath.Proofs.Token
import Datapath.Proofs.WordLayout

set_option autoImplicit false

namespace Datapath

namespace Fields

def values (f : Fields) (format : Format) : List (Option Int) :=
  format.roles.map fun role => some (f.get role)

theorem length_values (f : Fields) (format : Format) :
    (f.values format).length = format.roles.length := by
  rw [values, List.length_map]

def wrap (f : Fields) (format : Format) : Fields := { f with imm := format.wrap f.imm }

theorem get_wrap (f : Fields) (format : Format) (role : Role) :
    (f.wrap format).get role = if role = .imm then format.wrap f.imm else f.get role := by
  cases role <;> rfl

theorem wrap_of_fits {f : Fields} {format : Format} (h : format.Fits f.imm) :
    f.wrap format = f := by
  rw [wrap, Format.wrap_of_fits h]

theorem Bounded.setRegister {f : Fields} (h : f.Bounded) {v : Nat} (hv : v < 32) (role : Role) :
    (f.setRegister v role).Bounded := by
  obtain ⟨hd, h1, h2⟩ := h
  cases role <;> constructor <;> assumption

theorem get_setRegister (f : Fields) (v : Nat) {role : Role} (h : role ≠ .imm) :
    (f.setRegister v role).get role = v := by
  cases role <;> first | rfl | exact absurd rfl h

theorem get_setRegister_of_ne (f : Fields) (v : Nat) {role other : Role} (h : other ≠ role) :
    (f.setRegister v role).get other = f.get other := by
  cases role <;> cases other <;> first | rfl | exact absurd rfl h

/-- A token denotes a field: the immediate is a decimal numeral, and a register an `x` with its
number. -/
def Reads (f : Fields) (role : Role) (token : Text) : Prop :=
  (role = .imm → Decimal.read? token = .ok (some f.imm)) ∧
  (role ≠ .imm → ∃ i < 32, Asm.registerNumber? token = .ok (some i) ∧ f.get role = i)

end Fields

namespace Encoding

open Outcome (bind_eq_ok map_eq_ok mapError_eq_ok)

variable {mnemonic token : Text} {f g : Fields}

theorem register_eq_ok {i : Nat} :
    register mnemonic token = .ok i ↔ Asm.registerNumber? token = .ok (some i) ∧ i < 32 := by
  unfold register
  rw [bind_eq_ok]
  constructor
  · rintro ⟨found, hf, h⟩
    rw [mapError_eq_ok] at hf
    cases found with
    | none => cases h
    | some j =>
      dsimp only at h
      split at h
      · cases h
        exact ⟨hf, by assumption⟩
      · cases h
  · rintro ⟨h, hi⟩
    exact ⟨some i, mapError_eq_ok.2 h, by simp [hi]; rfl⟩

theorem immediate_eq_ok {v : Int} :
    immediate mnemonic token = .ok v ↔ Decimal.read? token = .ok (some v) := by
  unfold immediate
  rw [bind_eq_ok]
  constructor
  · rintro ⟨found, hf, h⟩
    rw [mapError_eq_ok] at hf
    cases found with
    | none => cases h
    | some u => cases h; exact hf
  · intro h
    exact ⟨some v, mapError_eq_ok.2 h, rfl⟩

theorem readRegisters_eq_ok {slots : List (Role × Text)} (hn : (slots.map Prod.fst).Nodup)
    (hf : f.Bounded) (h : readRegisters mnemonic f slots = .ok g) :
    g.Bounded ∧ g.imm = f.imm ∧
    (∀ role, role ∉ slots.map Prod.fst → g.get role = f.get role) ∧
    ∀ s ∈ slots, s.1 ≠ .imm →
      ∃ i < 32, Asm.registerNumber? s.2 = .ok (some i) ∧ g.get s.1 = i := by
  fun_induction readRegisters mnemonic f slots with
  | case1 f =>
    cases h
    simp [hf]
  | case2 f t rest ih =>
    simp only [List.map_cons, List.nodup_cons] at hn
    obtain ⟨hb, hi, ho, hs⟩ := ih hn.2 hf h
    refine ⟨hb, hi, ?_, ?_⟩
    · intro role hr
      exact ho role fun hm => hr (by simp [hm])
    · intro s hm hne
      cases List.mem_cons.1 hm with
      | inl he => exact absurd (congrArg Prod.fst he) hne
      | inr hm => exact hs s hm hne
  | case3 f role t rest hne ih =>
    simp only [List.map_cons, List.nodup_cons] at hn
    obtain ⟨i, hi, h⟩ := bind_eq_ok.1 h
    obtain ⟨hr, hlt⟩ := register_eq_ok.1 hi
    -- The role does not come again, so the rest of the slots leaves its field alone.
    obtain ⟨hb, him, ho, hs⟩ := ih i hn.2 (hf.setRegister hlt role) h
    have hrole : role ≠ .imm := fun he => hne he
    refine ⟨hb, ?_, ?_, ?_⟩
    · rw [him]
      cases role <;> rfl
    · intro other hm
      simp only [List.map_cons, List.mem_cons, not_or] at hm
      rw [ho other hm.2, Fields.get_setRegister_of_ne f i hm.1]
    · intro s hm hs'
      cases List.mem_cons.1 hm with
      | inl he =>
        subst he
        exact ⟨i, hlt, hr, by rw [ho role hn.1, Fields.get_setRegister f i hrole]⟩
      | inr hm => exact hs s hm hs'

theorem exists_readRegisters {slots : List (Role × Text)} (mnemonic : Text) (f : Fields)
    (h : ∀ s ∈ slots, s.1 ≠ .imm → ∃ i < 32, Asm.registerNumber? s.2 = .ok (some i)) :
    ∃ g, readRegisters mnemonic f slots = .ok g := by
  induction slots generalizing f with
  | nil => exact ⟨f, rfl⟩
  | cons s rest ih =>
    obtain ⟨role, token⟩ := s
    have hr : ∀ s ∈ rest, s.1 ≠ .imm → ∃ i < 32, Asm.registerNumber? s.2 = .ok (some i) :=
      fun s hs => h s (by simp [hs])
    by_cases hi : role = .imm
    · subst hi
      exact ih f hr
    · obtain ⟨i, hlt, hn⟩ := h (role, token) (by simp) hi
      obtain ⟨g, hg⟩ := ih (f.setRegister i role) hr
      refine ⟨g, ?_⟩
      rw [readRegisters, bind_eq_ok]
      · exact ⟨i, register_eq_ok.2 ⟨hn, hlt⟩, hg⟩
      · exact hi

theorem readImmediate_eq_ok {slots : List (Role × Text)} (hn : (slots.map Prod.fst).Nodup)
    (h : readImmediate mnemonic f slots = .ok g) :
    (∀ role, role ≠ .imm → g.get role = f.get role) ∧
    (f.Bounded → g.Bounded) ∧
    ∀ s ∈ slots, s.1 = .imm → Decimal.read? s.2 = .ok (some (g.get s.1)) := by
  fun_induction readImmediate mnemonic f slots with
  | case1 f =>
    cases h
    simp
  | case2 f t rest =>
    obtain ⟨v, hv, h⟩ := bind_eq_ok.1 h
    cases h
    simp only [List.map_cons, List.nodup_cons] at hn
    refine ⟨?_, fun hb => ⟨hb.rd, hb.rs1, hb.rs2⟩, ?_⟩
    · intro role hr
      cases role <;> first | rfl | exact absurd rfl hr
    · intro s hm hs
      cases List.mem_cons.1 hm with
      | inl he => subst he; exact immediate_eq_ok.1 hv
      | inr hm => exact absurd (hs ▸ List.mem_map_of_mem hm) hn.1
  | case3 f s rest hne ih =>
    simp only [List.map_cons, List.nodup_cons] at hn
    obtain ⟨ho, hb, hs⟩ := ih hn.2 h
    refine ⟨ho, hb, ?_⟩
    intro u hm hu
    cases List.mem_cons.1 hm with
    | inl he =>
      subst he
      obtain ⟨role, token⟩ := u
      exact absurd (congrArg (·, token) hu) (hne token)
    | inr hm => exact hs u hm hu

theorem exists_readImmediate {slots : List (Role × Text)} (mnemonic : Text) (f : Fields)
    (h : ∀ s ∈ slots, s.1 = .imm → ∃ v, Decimal.read? s.2 = .ok (some v)) :
    ∃ g, readImmediate mnemonic f slots = .ok g := by
  induction slots with
  | nil => exact ⟨f, rfl⟩
  | cons s rest ih =>
    obtain ⟨role, token⟩ := s
    by_cases hi : role = .imm
    · subst hi
      obtain ⟨v, hv⟩ := h (.imm, token) (by simp) rfl
      exact ⟨_, bind_eq_ok.2 ⟨v, immediate_eq_ok.2 hv, rfl⟩⟩
    · obtain ⟨g, hg⟩ := ih fun s hs => h s (by simp [hs])
      refine ⟨g, ?_⟩
      rw [readImmediate]
      · exact hg
      · intro t he
        exact hi (congrArg Prod.fst he)

theorem fields_reads {format : Format} {operands : List Text}
    (h : fields mnemonic format operands = .ok f) :
    format.roles.length ≤ operands.length ∧ f.Bounded ∧
    ∀ s ∈ format.roles.zip operands, f.Reads s.1 s.2 := by
  unfold fields at h
  split at h
  · cases h
  · next hl =>
    have hl := Nat.le_of_not_lt hl
    obtain ⟨g, hg, h⟩ := bind_eq_ok.1 h
    have hn : ((format.roles.zip operands).map Prod.fst).Nodup := by
      rw [List.map_fst_zip hl]
      exact format.nodup_roles
    obtain ⟨hb, -, -, hr⟩ := readRegisters_eq_ok hn ⟨by decide, by decide, by decide⟩ hg
    obtain ⟨ho, hk, hi⟩ := readImmediate_eq_ok hn h
    refine ⟨hl, hk hb, fun s hs => ⟨fun he => ?_, fun he => ?_⟩⟩
    · rw [hi s hs he, he]
      rfl
    · rw [ho s.1 he]
      exact hr s hs he

theorem fields_eq_ok {format : Format} {operands : List Text}
    (h : fields mnemonic format operands = .ok f) :
    format.roles.length ≤ operands.length ∧ f.Bounded ∧
    ∀ s ∈ format.roles.zip operands, Asm.operand? s.2 = .ok (some (f.get s.1)) := by
  obtain ⟨hl, hb, hr⟩ := fields_reads h
  refine ⟨hl, hb, fun s hs => ?_⟩
  by_cases he : s.1 = .imm
  · rw [he]
    exact Asm.operand?_of_read? ((hr s hs).1 he)
  · obtain ⟨i, -, hi, hv⟩ := (hr s hs).2 he
    rw [Asm.operand?_of_registerNumber? hi, hv]

theorem exists_fields {format : Format} {operands : List Text}
    (hl : format.roles.length ≤ operands.length)
    (hr : ∀ s ∈ format.roles.zip operands, s.1 ≠ .imm →
      ∃ i < 32, Asm.registerNumber? s.2 = .ok (some i))
    (hi : ∀ s ∈ format.roles.zip operands, s.1 = .imm →
      ∃ v, Decimal.read? s.2 = .ok (some v)) :
    ∃ f, fields mnemonic format operands = .ok f := by
  obtain ⟨g, hg⟩ := exists_readRegisters mnemonic {} hr
  obtain ⟨f, hf⟩ := exists_readImmediate mnemonic g hi
  refine ⟨f, ?_⟩
  rw [fields, if_neg (Nat.not_lt.2 hl)]
  exact bind_eq_ok.2 ⟨g, hg, hf⟩

/-- A line with a word has a mnemonic of the table. The word is that of doing nothing, or that of
the fields of its operands. -/
theorem word_eq_ok {line : Text} {n : Nat} (h : word line = .ok n) :
    ∃ (first : Text) (operands : List Text) (op : Opcode) (f : Fields),
    Asm.tokens (Asm.beforeComment line) = first :: operands ∧ n = op.word f ∧ f.Bounded ∧
    (Text.lowercase first = Opcode.nopName ∧ op = .addi ∧ f = {} ∨
      Text.lowercase first = op.name ∧ fields op.name op.format operands = .ok f) := by
  unfold word at h
  split at h
  · cases h
  · next first operands ht =>
    dsimp only at h
    split at h
    · cases h
    · next op hop =>
      split at h
      · next hnop =>
        cases h
        have ha : op = .addi := by
          simp only [Opcode.lookup?, hnop, ↓reduceIte, Option.some.injEq] at hop
          exact hop.symm
        subst ha
        exact ⟨first, operands, .addi, {}, ht, rfl, ⟨by decide, by decide, by decide⟩,
          .inl ⟨hnop, rfl, rfl⟩⟩
      · next hnop =>
        have hname := Opcode.lowercase_of_lookup? hop hnop
        rw [hname] at h
        obtain ⟨f, hf, hw⟩ := map_eq_ok.1 h
        exact ⟨first, operands, op, f, ht, hw.symm, (fields_eq_ok hf).2.1, .inr ⟨hname, hf⟩⟩

end Encoding

namespace Instruction

/-- An instruction stands for an opcode and its fields. Operands beyond those of the format have no
meaning, and the instruction that does nothing has no operands of its own. -/
inductive Denotes : Instruction → Opcode → Fields → Prop
  | named (op : Opcode) (f : Fields) (more : List (Option Int)) :
    f.Bounded → Denotes ⟨op.name, f.values op.format ++ more⟩ op f
  | idle (operands : List (Option Int)) : Denotes ⟨Opcode.nopName, operands⟩ .addi {}

variable {i : Instruction} {op : Opcode} {f : Fields}

theorem Denotes.bounded (h : i.Denotes op f) : f.Bounded := by
  cases h with
  | named _ _ _ hb => exact hb
  | idle => exact ⟨by decide, by decide, by decide⟩

def Fits (i : Instruction) : Prop :=
  i.mnemonic = Opcode.nopName ∨
  ∀ op : Opcode, op.name = i.mnemonic → ∀ v, (Role.imm, some v) ∈ op.format.roles.zip i.operands →
    op.format.Fits v

theorem Denotes.fits (h : i.Denotes op f) (hf : i.Fits) : op.format.Fits f.imm := by
  cases h with
  | idle => decide
  | named op f more hb =>
    have hfit := (hf.resolve_left (Opcode.name_ne_nopName op)) op rfl f.imm
    unfold Fields.values at hfit
    cases hs : op.format <;> simp [hs, Format.roles, Fields.get] at hfit <;> exact hfit

theorem values_append_drop {roles : List Role} {operands : List Text} {values : List (Option Int)}
    (hv : List.Forall₂ (fun t v => Asm.operand? t = .ok v) operands values)
    (hl : roles.length ≤ operands.length)
    (h : ∀ s ∈ roles.zip operands, Asm.operand? s.2 = .ok (some (f.get s.1))) :
    values = roles.map (fun role => some (f.get role)) ++ values.drop roles.length := by
  induction roles generalizing operands values with
  | nil => rfl
  | cons role roles ih =>
    cases hv with
    | nil => simp at hl
    | @cons t v operands values ht hv =>
      have hs := h (role, t) (by simp)
      have hval : v = some (f.get role) := by
        rw [ht] at hs
        exact Except.ok.inj hs
      have hrest := ih hv (by simpa using hl) fun s hs => h s (by simp [hs])
      simp only [List.map_cons, List.length_cons, List.drop_succ_cons, List.cons_append]
      rw [← hrest, hval]

/-- The instruction that the parser makes of a line denotes what the encoder makes of it. -/
theorem denotes_of_word {line : Text} {n : Nat} {parsed : Option Instruction} (hl : Asm.Plain line)
    (hn : Encoding.word line = .ok n) (hp : parse? line = .ok parsed) :
    ∃ i op f, parsed = some i ∧ i.Denotes op f ∧ n = op.word f := by
  obtain ⟨first, operands, op, f, ht, rfl, hb, hcase⟩ := Encoding.word_eq_ok hn
  rw [Asm.beforeComment_of_plain hl] at ht
  unfold parse? at hp
  rw [ht] at hp
  obtain ⟨values, hv, rfl⟩ := Outcome.map_eq_ok.1 hp
  -- The encoder does not look at the operands of the first kind of line; the parser keeps them.
  rcases hcase with ⟨hnop, rfl, rfl⟩ | ⟨hname, hf⟩
  · rw [hnop]
    exact ⟨_, .addi, {}, rfl, .idle values, rfl⟩
  · obtain ⟨hlen, -, hs⟩ := Encoding.fields_eq_ok hf
    rw [hname, values_append_drop (Outcome.mapM_eq_ok.1 hv) hlen hs]
    exact ⟨_, op, f, rfl, .named op f _ hb, rfl⟩

end Instruction

end Datapath
