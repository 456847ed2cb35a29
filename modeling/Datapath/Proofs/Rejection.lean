import Datapath.Proofs.Loading
import Datapath.Proofs.OperandKind

/-! Lines that cannot be used. They are loaded like all others, and the machine rejects them when it
comes to them: such a line costs its own step, and the machine goes on behind it. -/

set_option autoImplicit false

namespace Datapath

/-- The operands that an order needs are there, each with a value that its role can take. -/
structure Order.Supplied (o : Order) : Prop where
  enough : o.opcode.format.roles.length ≤ o.operands.length
  takes : ∀ s ∈ o.opcode.format.roles.zip o.operands, s.1.Takes s.2

/-- The machine knows the opcode of the instruction, and its operands suit the opcode. -/
def Instruction.Usable (i : Instruction) : Prop := ∃ o, i.order? = some o ∧ o.Supplied

def Order.Told (a : Option Int) : Prop := ∀ v, a = some v → Decimal.write v = .ok (Decimal.shown v)

/-- A computation that looks at operands before all else. It gives a fault, with a text, unless they
are as they should be. -/
inductive Vetted {α : Type} (valid : Prop) : Except Abort α → Prop
  | valid {x : Except Abort α} : valid → Vetted valid x
  | fault {f : Fault} {text : String} : f.message = .ok text → Vetted valid (.error (.fault f))

namespace Vetted

variable {α : Type} {valid valid' : Prop} {a : Option Int}

theorem mono {x : Except Abort α} (hx : Vetted valid x) (h : valid → valid') : Vetted valid' x := by
  cases hx with
  | valid hv => exact .valid (h hv)
  | fault ht => exact .fault ht

theorem register {f : Fin 32 → Except Abort α} (ha : Order.Told a)
    (hf : (∀ role, role ≠ .imm → Role.Takes role a) → ∀ i, Vetted valid (f i)) :
    Vetted valid (Order.register a >>= f) := by
  cases hr : Order.register a with
  | ok i =>
    obtain rfl := Order.register_eq_ok hr
    exact hf (fun role hrole => Role.takes_named hrole i) i
  | error e =>
    cases a with
    | none =>
      cases hr
      exact .fault (f := .invalidRegister ⟨none⟩) rfl
    | some v =>
      have he : e = .fault (.invalidRegister ⟨some v⟩) := by
        unfold Order.register Registers.check at hr
        dsimp only at hr
        split at hr <;> cases hr
        rfl
      have ht : Fault.message (.invalidRegister ⟨some v⟩)
          = .ok ("Invalid register x" ++ Decimal.shown v) := by
        rw [Fault.message, RegisterError.message, ha v rfl]
        rfl
      rw [he]
      exact .fault ht

theorem immediate {o : Order} {f : Int → Except Abort α}
    (hf : Role.imm.Takes a → ∀ v, Vetted valid (f v)) : Vetted valid (o.immediate a >>= f) := by
  cases a with
  | none => exact .fault (f := .invalidImmediate o.mnemonic) rfl
  | some v => exact hf (Role.takes_some v) v

end Vetted

namespace Order

variable {o : Order} {r : Registers} {m : DataMemory} {pc : Int} {a b c : Option Int}
  {rest : List (Option Int)}

abbrev Fit (roles : List Role) (operands : List (Option Int)) : Prop :=
  ∀ s ∈ roles.zip operands, s.1.Takes s.2

theorem fit_nil (operands : List (Option Int)) : Fit [] operands := by simp [Fit]

theorem fit_cons {role : Role} {roles : List Role} (ha : role.Takes a) (h : Fit roles rest) :
    Fit (role :: roles) (a :: rest) := List.forall_mem_cons.2 ⟨ha, h⟩

theorem vetted_register (ha : Told a) (hb : Told b) (hc : Told c) :
    Vetted (Fit [.rd, .rs1, .rs2] (a :: b :: c :: rest)) (o.planRegister r pc a b c) :=
  .register ha fun ha _ => .register hb fun hb _ => .register hc fun hc _ =>
    .valid (fit_cons (ha _ (by decide)) (fit_cons (hb _ (by decide))
      (fit_cons (hc _ (by decide)) (fit_nil rest))))

theorem vetted_immediate (ha : Told a) (hb : Told b) :
    Vetted (Fit [.rd, .rs1, .imm] (a :: b :: c :: rest)) (o.planImmediate r pc a b c) :=
  .register ha fun ha _ => .register hb fun hb _ => .immediate fun hc _ =>
    .valid (fit_cons (ha _ (by decide)) (fit_cons (hb _ (by decide)) (fit_cons hc (fit_nil rest))))

theorem vetted_load (ha : Told a) (hc : Told c) :
    Vetted (Fit [.rd, .imm, .rs1] (a :: b :: c :: rest)) (o.planLoad r m pc a b c) :=
  .register ha fun ha _ => .immediate fun hb _ => .register hc fun hc _ =>
    .valid (fit_cons (ha _ (by decide)) (fit_cons hb (fit_cons (hc _ (by decide)) (fit_nil rest))))

theorem vetted_store (ha : Told a) (hc : Told c) :
    Vetted (Fit [.rs2, .imm, .rs1] (a :: b :: c :: rest)) (o.planStore r m pc a b c) :=
  .register ha fun ha _ => .immediate fun hb _ => .register hc fun hc _ =>
    .valid (fit_cons (ha _ (by decide)) (fit_cons hb (fit_cons (hc _ (by decide)) (fit_nil rest))))

theorem vetted_branch (ha : Told a) (hb : Told b) :
    Vetted (Fit [.rs1, .rs2, .imm] (a :: b :: c :: rest)) (o.planBranch r pc a b c) :=
  .register ha fun ha _ => .register hb fun hb _ => .immediate fun hc _ =>
    .valid (fit_cons (ha _ (by decide)) (fit_cons (hb _ (by decide)) (fit_cons hc (fit_nil rest))))

theorem vetted_upper (ha : Told a) :
    Vetted (Fit [.rd, .imm] (a :: b :: rest)) (o.planUpper pc a b) :=
  .register ha fun ha _ => .immediate fun hb _ =>
    .valid (fit_cons (ha _ (by decide)) (fit_cons hb (fit_nil rest)))

theorem vetted_jump (ha : Told a) (hrest : ∀ c ∈ rest, Told c) :
    Vetted (Fit (if o.opcode = .jal then [.rd, .imm] else [.rd, .imm, .rs1]) (a :: b :: rest))
      (o.planJump r pc a b rest) := by
  refine .register ha fun ha _ => .immediate fun hb _ => ?_
  have hfirst : ∀ {roles}, Fit roles rest → Fit (.rd :: .imm :: roles) (a :: b :: rest) :=
    fun h => fit_cons (ha _ (by decide)) (fit_cons hb h)
  by_cases hop : o.opcode = .jal
  · rw [if_pos hop]
    exact .valid (hfirst (fit_nil rest))
  · rw [if_neg hop, if_neg fun h => hop h.2]
    cases rest with
    | nil => exact .valid (hfirst fun s hs => nomatch hs)
    | cons c rest =>
      exact .register (hrest c (by simp)) fun hc _ =>
        .valid (hfirst (fit_cons (hc _ (by decide)) (fit_nil rest)))

theorem Named.vetted_plan (h : o.Named) (hs : ∀ a ∈ o.operands, Told a) :
    Vetted o.Supplied (o.plan r m pc) := by
  unfold plan
  dsimp only
  split
  · exact .fault (f := .insufficientOperands _ _ _) rfl
  · next hlen =>
    rw [h.needed_eq] at hlen
    have hfit : ∀ {roles operands}, o.opcode.format.roles = roles → o.operands = operands →
        Fit roles operands → o.Supplied := by
      rintro _ _ rfl rfl hf
      exact ⟨Nat.le_of_not_lt hlen, hf⟩
    have hplain : ∀ {kind}, kind ≠ .jump → o.kind = kind → o.opcode.format.roles = kind.roles := by
      rintro _ hne rfl
      exact h.roles_eq hne
    split
    · next hk ho =>
      refine (vetted_register (hs _ ?_) (hs _ ?_) (hs _ ?_)).mono
        (hfit (hplain (by decide) hk) ho)
      all_goals simp [ho]
    · next hk ho =>
      refine (vetted_immediate (hs _ ?_) (hs _ ?_)).mono (hfit (hplain (by decide) hk) ho)
      all_goals simp [ho]
    · next hk ho =>
      refine (vetted_load (hs _ ?_) (hs _ ?_)).mono (hfit (hplain (by decide) hk) ho)
      all_goals simp [ho]
    · next hk ho =>
      refine (vetted_store (hs _ ?_) (hs _ ?_)).mono (hfit (hplain (by decide) hk) ho)
      all_goals simp [ho]
    · next hk ho =>
      refine (vetted_branch (hs _ ?_) (hs _ ?_)).mono (hfit (hplain (by decide) hk) ho)
      all_goals simp [ho]
    · next hk ho =>
      refine (vetted_upper (hs _ ?_)).mono (hfit (hplain (by decide) hk) ho)
      simp [ho]
    · next rest hk ho =>
      have hroles := Opcode.roles_of_kind h.kind
      rw [hk] at hroles
      refine (vetted_jump (hs _ ?_) (fun c hc => hs c ?_)).mono (hfit hroles ho)
      · simp [ho]
      · simp [ho, hc]
    · exact .fault (f := .insufficientOperands _ _ _) rfl

end Order

namespace Instruction

variable {i : Instruction} {r : Registers} {m : DataMemory} {pc : Int}

theorem told_of_order? {o : Order} (h : i.order? = some o) (hs : ∀ a ∈ i.operands, Order.Told a) :
    ∀ a ∈ o.operands, Order.Told a := by
  obtain ⟨-, -, ⟨-, ho⟩ | ⟨-, -, hoperands⟩⟩ := order?_cases h
  · have hzero : Order.Told (some 0) := by
      rintro v ⟨⟩
      rfl
    rw [ho]
    simpa [orderFor] using hzero
  · rw [hoperands]
    exact hs

theorem fault_of_not_usable (hlower : ∃ t, i.mnemonic = Text.lowercase t)
    (hs : ∀ a ∈ i.operands, Order.Told a) (hu : ¬ i.Usable) :
    ∃ f text, i.plan r m pc = .error (.fault f) ∧ f.message = .ok text := by
  unfold plan
  cases ho : i.order? with
  | none => exact ⟨_, _, rfl, rfl⟩
  | some o =>
    obtain ⟨t, ht⟩ := hlower
    have hvetted : Vetted o.Supplied (o.plan r m pc) :=
      (named_of_order? ht ho).vetted_plan (told_of_order? ho hs)
    dsimp only
    generalize o.plan r m pc = x at hvetted
    cases hvetted with
    | valid hsupplied => exact absurd ⟨o, ho, hsupplied⟩ hu
    | fault ht => exact ⟨_, _, rfl, ht⟩

end Instruction

/-- The step goes on to the next line and leaves all that is stored as it is. -/
def Machine.StepsOver (m : Machine) (fault : Option String) : Prop :=
  ∃ r m', m.step = (.ok r, m') ∧ r.fault = fault ∧ m'.pc = m.pc + 4 ∧
    m'.registers = m.registers ∧ m'.memory = m.memory ∧ m'.program = m.program

namespace Machine

variable {m : Machine} {line : Slot}

theorem stepsOver_of_blank (hf : m.fetch = some line) (hi : line.parsed = none) :
    m.StepsOver none := by
  unfold StepsOver
  rw [step_of_blank hf hi]
  exact ⟨_, _, rfl, rfl, rfl, rfl, rfl, rfl⟩

theorem stepsOver_of_fault {i : Instruction} {f : Fault} {text : String}
    (hf : m.fetch = some line) (hi : line.parsed = some i)
    (hp : i.plan m.registers m.memory m.pc = .error (.fault f)) (ht : f.message = .ok text) :
    m.StepsOver (some f.name) := by
  have hp' : i.plan (m.take line).registers (m.take line).memory (m.take line).pc
      = .error (.fault f) := hp
  have hx : (m.take line).execute line i = answer ({ m.take line with signals := .idle }.advance
      (m.pc + 4) s!"Error at PC={Decimal.shown m.pc} ({String.ofList line.raw}): {text}"
      TraceEntry.error f.name) := by
    simp only [execute, hp', ht]
    rfl
  unfold StepsOver
  rw [step_of_parsed hf hi, hx]
  exact ⟨_, _, rfl, rfl, rfl, rfl, rfl, rfl⟩

end Machine

namespace Program

variable {source : Text} {p : Program}

theorem told_of_load (h : load source = .ok p) {l : Slot} (hl : l ∈ p.lines) {i : Instruction}
    (hi : l.parsed = some i) : ∀ a ∈ i.operands, Order.Told a := by
  have hparse := (parsed_of_mem h hl).2
  have hshort := Instruction.not_oversized_of_ok hparse
  rw [Instruction.parse?_eq_ofTokens hshort, hi] at hparse
  cases ht : Asm.tokens l.raw with
  | nil =>
    rw [ht] at hparse
    cases hparse
  | cons mnemonic operands =>
    rw [ht] at hparse hshort
    cases hparse
    intro a ha v hv
    obtain ⟨token, htoken, rfl⟩ := List.mem_map.1 ha
    exact Asm.write_of_value? (hshort token htoken) hv

/-- A source loads unless one of its lines stops it, and it fails as such a line does. Otherwise
each line gives the program what it gives alone, with the values of those operands that are numerals
and with none for all others. The machine steps over a line without an instruction and over an
instruction that cannot be used, which costs it no more than the step. -/
theorem load_outcome (source : Text) :
    ((∃ p, load source = .ok p) ↔ ∀ line ∈ Text.lines source, ∀ e, ¬ Asm.Stops line e) ∧
    (∀ e, load source = .error e → ∃ line ∈ Text.lines source, Asm.Stops line e) ∧
    ∀ p, load source = .ok p →
      p = place ((Text.lines source).filterMap Asm.given?) ∧
      ∀ m : Machine, m.program = p → ∀ line, m.fetch = some line →
        (line.parsed = none → m.StepsOver none) ∧
        ∀ i, line.parsed = some i → ¬ i.Usable → ∃ f : Fault, m.StepsOver (some f.name) := by
  refine ⟨⟨?_, fun h => ⟨_, load_of_forall h⟩⟩, fun e => exists_stops, ?_⟩
  · rintro ⟨p, hp⟩
    exact not_stops_of_load hp
  · intro p hp
    refine ⟨?_, ?_⟩
    · exact Except.ok.inj (hp.symm.trans (load_of_forall (not_stops_of_load hp)))
    · rintro m rfl line hf
      refine ⟨Machine.stepsOver_of_blank hf, fun i hi hu => ?_⟩
      have hline := Machine.mem_of_fetch hf
      obtain ⟨f, text, hplan, ht⟩ := Instruction.fault_of_not_usable
        (exists_lowercase hp hline hi) (told_of_load hp hline hi) hu
      exact ⟨f, Machine.stepsOver_of_fault hf hi hplan ht⟩

/-- A name with a long s is folded to one with a small s and then looked up as it stands. -/
theorem load_long_s :
    load "nop\naddi ſp, x0, 1".toList = .error (.name ⟨"ſp".toList⟩) ∧
      Asm.Stops "addi ſp, x0, 1".toList (.name ⟨"ſp".toList⟩) := by
  have hwritten : Asm.written? "addi ſp, x0, 1".toList = some "addi ſp, x0, 1".toList := by decide
  have hmisnamed : Asm.Misnamed "ſp".toList := ⟨by decide, 2, by decide⟩
  exact ⟨by decide, .name hwritten (w := "ſp".toList) (by decide) hmisnamed⟩

end Program

end Datapath
