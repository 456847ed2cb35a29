import Datapath.Proofs.Escape

set_option autoImplicit false

namespace Datapath

/-- The word that operands in the order of a store lead to: a register, an offset, and the register
that the offset counts from. -/
def DataMemory.wordOf? (m : DataMemory) (r : Registers) : List (Option Int) → Option Nat
  | a :: some offset :: b :: _ => do
    let _ ← (Registers.check a).toOption
    let base ← (Registers.check b).toOption
    (m.index (r.get base + offset)).toOption
  | _ => none

/-- The word that an instruction stores to, if it is a store that can be executed. -/
def Instruction.target? (i : Instruction) (r : Registers) (m : DataMemory) : Option Nat :=
  if Opcode.lookup? i.mnemonic = some .sw then m.wordOf? r i.operands else none

def Machine.target? (m : Machine) : Option Nat :=
  (m.fetch.bind (·.parsed)).bind (·.target? m.registers m.memory)

def Write.word? : Write → Option Nat
  | .memory i _ => some i
  | _ => none

namespace DataMemory

variable {m : DataMemory} {address : Int} {i : Nat}

theorem lt_size_of_index (h : m.index address = .ok i) : i < m.size := by
  unfold index at h
  dsimp only at h
  split at h
  · cases h
    omega
  · cases h

theorem lt_size_of_wordOf? {r : Registers} {operands : List (Option Int)}
    (h : m.wordOf? r operands = some i) : i < m.size := by
  unfold wordOf? at h
  split at h
  · obtain ⟨_, -, h⟩ := Option.bind_eq_some_iff.1 h
    obtain ⟨base, -, h⟩ := Option.bind_eq_some_iff.1 h
    exact lt_size_of_index (Outcome.toOption_eq_some.1 h)
  · cases h

theorem get_store (h : i < m.size) (v : Int) : (m.store i v).get i = Word.signed v := by
  have hi : i < m.words.size := h
  simp [get, store, hi]

end DataMemory

namespace Order

variable {o : Order} {r : Registers} {m : DataMemory} {pc : Int} {a b c : Option Int} {p : Plan}

theorem word?_planStore (rest : List (Option Int)) :
    (o.planStore r m pc a b c).toOption.bind (·.write.word?)
      = m.wordOf? r (a :: b :: c :: rest) := by
  unfold planStore register
  simp only [Outcome.toOption_bind, Outcome.toOption_mapError, Option.bind_assoc]
  cases b with
  | none => cases Registers.check a <;> rfl
  | some offset =>
    refine Option.bind_congr fun _ _ => ?_
    simp only [immediate, Except.toOption, Option.bind_some]
    refine Option.bind_congr fun _ _ => ?_
    exact Option.bind_fun_some _

theorem word?_of_kind (h : o.plan r m pc = .ok p) (hk : o.kind ≠ .store) :
    p.write.word? = none := by
  have hcase := planCase_plan h
  generalize o.operands = operands at hcase
  cases hcase with
  | store hs => exact absurd hs hk
  | register _ _ hw | immediate _ _ hw | load _ _ hw | halt _ _ hw => rw [hw]; rfl
  | branch _ hw | upper _ hw | jump _ hw => rw [hw]; rfl

theorem word?_plan_store (hk : o.kind = .store) (hn : o.needed = 3) :
    (o.plan r m pc).toOption.bind (·.write.word?) = m.wordOf? r o.operands := by
  obtain ⟨op, kind, mnemonic, operands⟩ := o
  cases hk
  unfold plan
  simp only [hn]
  match operands with
  | [] => rfl
  | [a] => cases a <;> rfl
  | [a, b] => cases b <;> rfl
  | a :: b :: c :: rest =>
    have hlen : ¬ (a :: b :: c :: rest).length < 3 := by simp
    rw [if_neg hlen]
    exact word?_planStore rest

end Order

namespace Instruction

variable {i : Instruction} {r : Registers} {m : DataMemory} {pc : Int}

theorem kind_eq_store_iff {op : Opcode} : op.kind = some .store ↔ op = .sw := by
  cases op <;> simp [Opcode.kind, Opcode.spec]

theorem word?_plan : (i.plan r m pc).toOption.bind (·.write.word?) = i.target? r m := by
  unfold plan target?
  by_cases hl : Opcode.lookup? i.mnemonic = some .sw
  · have hn : i.mnemonic ≠ Opcode.nopName := by
      intro hn
      rw [hn] at hl
      cases hl
    rw [if_pos hl, order?_of_lookup? hl rfl hn]
    exact Order.word?_plan_store rfl (by simp [Order.needed])
  · rw [if_neg hl]
    cases ho : i.order? with
    | none => rfl
    | some o =>
      have hk : o.kind ≠ .store := by
        intro hk
        obtain ⟨hop, hkind, -⟩ := order?_cases ho
        rw [hk] at hkind
        exact hl (kind_eq_store_iff.1 hkind ▸ hop)
      rw [Option.bind_eq_none_iff]
      exact fun p hp => Order.word?_of_kind (Outcome.toOption_eq_some.1 hp) hk

theorem lt_size_of_target? {k : Nat} (h : i.target? r m = some k) : k < m.size := by
  unfold target? at h
  split at h
  · exact DataMemory.lt_size_of_wordOf? h
  · cases h

theorem lt_size_of_word? {p : Plan} {k : Nat} (h : i.plan r m pc = .ok p)
    (hw : p.write.word? = some k) : k < m.size := by
  have hplan : (i.plan r m pc).toOption.bind (·.write.word?) = some k := by
    rw [h]
    exact hw
  exact lt_size_of_target? (word?_plan.symm.trans hplan)

end Instruction

namespace Machine

variable {m : Machine}

theorem target?_of_fetch {line : Slot} (hf : m.fetch = some line) :
    m.target? = line.parsed.bind (·.target? m.registers m.memory) := by
  rw [target?, hf]
  rfl

theorem target?_of_plan {line : Slot} {i : Instruction} (hf : m.fetch = some line)
    (hi : line.parsed = some i) : m.target?
      = (i.plan m.registers m.memory m.pc).toOption.bind (·.write.word?) := by
  rw [target?_of_fetch hf, hi, Instruction.word?_plan]
  rfl

theorem lt_size_of_target? {k : Nat} (h : m.target? = some k) : k < m.memory.size := by
  obtain ⟨i, -, h⟩ := Option.bind_eq_some_iff.1 h
  exact Instruction.lt_size_of_target? h

theorem lastMemory_apply {w : Write} (h : m.lastMemory = none) :
    (m.apply w).lastMemory = w.word? := by
  cases w <;> first | exact h | rfl

/-- A step does to the memory what a single write does, and that is a store to the target. -/
theorem memory_step (m : Machine) : ∃ w : Write, w.word? = m.target? ∧
    m.step.2.lastMemory = w.word? ∧ m.step.2.memory = (m.apply w).memory := by
  have hcase := m.stepCase_step
  generalize m.step = x at hcase ⊢
  cases hcase with
  | past hf => exact ⟨.nothing, by rw [target?, fetch_of_finished hf]; rfl, rfl, rfl⟩
  | lost _ hf => exact ⟨.nothing, by rw [target?, hf]; rfl, rfl, rfl⟩
  | blank hf hi => exact ⟨.nothing, by rw [target?_of_fetch hf, hi]; rfl, rfl, rfl⟩
  | fault hf hi hp | unplanned hf hi hp | unnamed hf hi hp =>
    exact ⟨.nothing, by rw [target?_of_plan hf hi, hp]; rfl, rfl, rfl⟩
  | @halt line _ p _ hf hi hp | @proceed line _ p _ hf hi hp | @untold line _ p _ hf hi hp =>
    refine ⟨p.write, by rw [target?_of_plan hf hi, hp]; rfl, lastMemory_apply rfl, ?_⟩
    exact congrArg (·.2.1) (storage_apply_take m line p.write)

theorem memory_step_of_target? {k : Nat} (h : m.target? = some k) :
    ∃ v, m.step.2.memory = m.memory.store k v := by
  obtain ⟨w, hw, -, hm⟩ := m.memory_step
  cases w with
  | memory i v =>
    cases hw.trans h
    exact ⟨v, hm⟩
  | nothing | register => cases hw.trans h

theorem memory_step_of_no_target (h : m.target? = none) : m.step.2.memory = m.memory := by
  obtain ⟨w, hw, -, hm⟩ := m.memory_step
  cases w with
  | memory i v => cases hw.trans h
  | nothing | register => exact hm

end Machine

namespace Write

def register? : Write → Option (Fin 32)
  | .register rd _ => if rd.val = 0 then none else some rd
  | _ => none

variable (w : Write)

theorem register?_or_word? : w.register? = none ∨ w.word? = none := by
  cases w with
  | nothing | register => exact .inr rfl
  | memory => exact .inl rfl

theorem pos_of_register? {rd : Fin 32} (h : w.register? = some rd) : 1 ≤ rd.val := by
  cases w with
  | nothing | memory => cases h
  | register i v =>
    simp only [register?, Option.ite_none_left_eq_some, Option.some.injEq] at h
    omega

end Write

namespace Machine

variable (m : Machine) (w : Write)

theorem lastRegister_apply (h : m.lastRegister = none) :
    (m.apply w).lastRegister = w.register? := by
  cases w <;> first | exact h | rfl

theorem get_registers_apply {j : Fin 32} (h : w.register? ≠ some j) :
    (m.apply w).registers.get j = m.registers.get j := by
  cases w with
  | nothing | memory => rfl
  | register i v =>
    rw [apply, Registers.get_set, if_neg]
    rintro ⟨rfl, hi⟩
    exact h (if_neg fun hz => hi (Fin.ext hz))

theorem getElem?_memory_apply {k : Nat} (h : w.word? ≠ some k) :
    (m.apply w).memory.words[k]? = m.memory.words[k]? := by
  cases w with
  | nothing | register => rfl
  | memory i v =>
    have hi : i ≠ k := fun hk => h (congrArg some hk)
    simp [apply, DataMemory.store, hi]

/-- A machine that names all it has changed since another one: a register, a word of the memory, or
nothing. -/
structure StepFrame (m m' : Machine) : Prop where
  single : m'.lastRegister = none ∨ m'.lastMemory = none
  register : ∀ rd, m'.lastRegister = some rd → 1 ≤ rd.val ∧ rd.val ≤ 31
  word : ∀ k, m'.lastMemory = some k → k < m'.memory.size
  registers : ∀ j, m'.lastRegister ≠ some j → m'.registers.get j = m.registers.get j
  memory : ∀ k : Nat, m'.lastMemory ≠ some k → m'.memory.words[k]? = m.memory.words[k]?
  program : m'.program = m.program
  breakpoints : m'.breakpoints = m.breakpoints
  delay : m'.delay = m.delay
  generation : m'.generation = m.generation

theorem write_step : ∃ w : Write, m.step.2.storage = (m.apply w).storage ∧
    m.step.2.lastRegister = w.register? ∧ m.step.2.lastMemory = w.word? := by
  have hcase := m.stepCase_step
  generalize m.step = x at hcase ⊢
  cases hcase with
  | past | lost | blank | fault | unplanned | unnamed => exact ⟨.nothing, rfl, rfl, rfl⟩
  | @halt line _ p | @proceed line _ p | @untold line _ p =>
    refine ⟨p.write, storage_apply_take m line p.write, ?_, ?_⟩
    · exact lastRegister_apply _ p.write rfl
    · exact lastMemory_apply rfl

theorem step_forget (register : Option (Fin 32)) (word : Option Nat) :
    { m with lastRegister := register, lastMemory := word }.step = m.step := rfl

theorem stepFrame_step : m.StepFrame m.step.2 := by
  obtain ⟨w, hstorage, hr, hm⟩ := m.write_step
  have hregisters : m.step.2.registers = (m.apply w).registers := congrArg (·.1) hstorage
  have hmemory : m.step.2.memory = (m.apply w).memory := congrArg (·.2.1) hstorage
  constructor
  case single =>
    rw [hr, hm]
    exact w.register?_or_word?
  case register =>
    intro rd hrd
    have hpos := w.pos_of_register? (hr.symm.trans hrd)
    omega
  case word =>
    intro k hk
    obtain ⟨u, hu, hlast, -⟩ := m.memory_step
    have hlt := lt_size_of_target? ((hu.symm.trans hlast.symm).trans hk)
    have hsize : m.step.2.memory.size = m.memory.size := congrArg (·.2) m.extent_step
    omega
  case registers =>
    intro j hj
    rw [hregisters, get_registers_apply m w (hr ▸ hj)]
  case memory =>
    intro k hk
    rw [hmemory, getElem?_memory_apply m w (hm ▸ hk)]
  case program => exact m.program_step
  case breakpoints => exact m.breakpoints_step
  case delay => exact m.delay_step
  case generation => exact m.generation_step

variable {m} {m' : Machine} {r : StepReport}

theorem stepFrame_of_step (h : m.step = (.ok r, m')) : m.StepFrame m' := by
  have hframe := m.stepFrame_step
  rwa [h] at hframe

theorem report_of_step (h : m.step = (.ok r, m')) : r = m'.report r.message r.fault := by
  have hreport := report_step (congrArg Prod.fst h)
  rwa [h] at hreport

theorem stepMany_reports {n : Nat} {rs : List StepReport} (h : m.stepMany n = (.ok rs, m')) :
    (∀ j, (∀ r ∈ rs, r.lastRegister ≠ some j) → m'.registers.get j = m.registers.get j) ∧
      ∀ k : Nat, (∀ r ∈ rs, r.lastMemory ≠ some k) →
        m'.memory.words[k]? = m.memory.words[k]? := by
  induction n generalizing m rs with
  | zero =>
    cases h
    exact ⟨fun _ _ => rfl, fun _ _ => rfl⟩
  | succ n ih =>
    unfold stepMany at h
    rcases hs : m.step with ⟨_ | first, m₁⟩ <;> rw [hs] at h
    · cases h
    · dsimp only at h
      rcases hrest : m₁.stepMany n with ⟨_ | rest, m₂⟩ <;> rw [hrest] at h <;> cases h
      obtain ⟨hregisters, hmemory⟩ := ih hrest
      have hframe := stepFrame_of_step hs
      have hregister : first.lastRegister = m₁.lastRegister :=
        congrArg StepReport.lastRegister (report_of_step hs)
      have hword : first.lastMemory = m₁.lastMemory :=
        congrArg StepReport.lastMemory (report_of_step hs)
      refine ⟨fun j hj => ?_, fun k hk => ?_⟩
      · have hfirst : m₁.lastRegister ≠ some j := hregister ▸ hj first (by simp)
        rw [hregisters j fun r hr => hj r (by simp [hr]), hframe.registers j hfirst]
      · have hfirst : m₁.lastMemory ≠ some k := hword ▸ hk first (by simp)
        rw [hmemory k fun r hr => hk r (by simp [hr]), hframe.memory k hfirst]

/-- A step that answers has changed nothing that its report does not name. The report shows the
storage and the names of the machine after the step, and they come from this step alone. -/
theorem step_reports (h : m.step = (.ok r, m')) :
    m.StepFrame m' ∧ r.registers = m'.registers ∧ r.memory = m'.memory.words ∧
      r.lastRegister = m'.lastRegister ∧ r.lastMemory = m'.lastMemory ∧
      ∀ register word,
        { m with lastRegister := register, lastMemory := word }.step = (.ok r, m') := by
  have hforget := fun register word => (m.step_forget register word).trans h
  refine ⟨stepFrame_of_step h, ?_, ?_, ?_, ?_, hforget⟩ <;> rw [report_of_step h] <;> rfl

theorem step_reports_store :
    ∃ m m₁ m₂ r₁ r₂, create {} = .ok m ∧
      (m.load "addi x5, x0, 7\nsw x5, 4(x0)".toList).2.step = (.ok r₁, m₁) ∧
      m₁.step = (.ok r₂, m₂) ∧ m₁.lastRegister = some 5 ∧ r₂.lastRegister = none ∧
      r₂.lastMemory = some 1 ∧ m₂.registers.get 5 = 7 ∧ m₁.StepFrame m₂ := by
  obtain ⟨m, hm⟩ : ∃ m, create {} = .ok m := ⟨_, rfl⟩
  obtain ⟨m₁, m₂, r₁, r₂, h₁, h₂, hfirst, hr, hw, hv⟩ : ∃ m₁ m₂ r₁ r₂,
      (m.load "addi x5, x0, 7\nsw x5, 4(x0)".toList).2.step = (.ok r₁, m₁) ∧
      m₁.step = (.ok r₂, m₂) ∧ m₁.lastRegister = some 5 ∧ m₂.lastRegister = none ∧
      m₂.lastMemory = some 1 ∧ m₁.registers.get 5 = 7 := by
    cases hm
    exact ⟨_, _, _, _, rfl, rfl, rfl, rfl, rfl, rfl⟩
  obtain ⟨hframe, -, -, hregister, hword, -⟩ := step_reports h₂
  have hkept : m₂.registers.get 5 = m₁.registers.get 5 := hframe.registers 5 (by simp [hr])
  exact ⟨m, m₁, m₂, r₁, r₂, hm, h₁, h₂, hfirst, hregister.trans hr, hword.trans hw,
    hkept.trans hv, hframe⟩

end Machine

end Datapath
