import Datapath.Machine.Run
import Datapath.Proofs.Plan

set_option autoImplicit false

namespace Datapath

namespace Machine

def take (m : Machine) (line : Slot) : Machine :=
  { m with lastRegister := none, lastMemory := none }.enter line

def showing (m : Machine) (text : String) : StepReport × Machine := (m.report text none, m)

abbrev answer (x : StepReport × Machine) : Except Escape StepReport × Machine := (.ok x.1, x.2)

/-- The cases of a step. The program is over, or the line holds no instruction, or its instruction
faults, halts or goes on. An escape comes from an address in front of the program, from the plan of
the instruction, from the text of its fault, or from its trace text; the last one finds the store of
the instruction done. -/
inductive StepCase (m : Machine) : Except Escape StepReport × Machine → Prop
  | past : m.finished = true →
      StepCase m (answer (({ m with
        lastRegister := none, lastMemory := none, phase := .finished,
        running := false }.record "Program finished" TraceEntry.error).showing "Program finished"))
  | blank {line : Slot} : m.fetch = some line → line.parsed = none →
      StepCase m (answer ({ m.take line with signals := .idle }.advance (m.pc + 4)
        s!"PC={Decimal.shown m.pc}: empty instruction skipped" TraceEntry.info none))
  | fault {line : Slot} {i : Instruction} {f : Fault} {text : String} :
      m.fetch = some line → line.parsed = some i →
      i.plan m.registers m.memory m.pc = .error (.fault f) → f.message = .ok text →
      StepCase m (answer ({ m.take line with signals := .idle }.advance (m.pc + 4)
        s!"Error at PC={Decimal.shown m.pc} ({String.ofList line.raw}): {text}" TraceEntry.error
        f.name))
  | halt {line : Slot} {i : Instruction} {p : Plan} {text : String} :
      m.fetch = some line → line.parsed = some i → i.plan m.registers m.memory m.pc = .ok p →
      p.message = .ok text → p.halts = true →
      StepCase m (answer (({ (m.take line).apply p.write with
        signals := p.signals, phase := .halted,
        running := false }.record text TraceEntry.success).showing text))
  | proceed {line : Slot} {i : Instruction} {p : Plan} {text : String} :
      m.fetch = some line → line.parsed = some i → i.plan m.registers m.memory m.pc = .ok p →
      p.message = .ok text → p.halts = false →
      StepCase m (answer ({ (m.take line).apply p.write with signals := p.signals }.advance p.nextPc
        text TraceEntry.success none))
  | lost : m.finished = false → m.fetch = none →
      StepCase m (.error .noLine, { m with
        lastRegister := none, lastMemory := none, phase := .executing })
  | unplanned {line : Slot} {i : Instruction} {e : Escape} :
      m.fetch = some line → line.parsed = some i →
      i.plan m.registers m.memory m.pc = .error (.escape e) → StepCase m (.error e, m.take line)
  | unnamed {line : Slot} {i : Instruction} {f : Fault} {e : Decimal.LimitError} :
      m.fetch = some line → line.parsed = some i →
      i.plan m.registers m.memory m.pc = .error (.fault f) → f.message = .error e →
      StepCase m (.error (.limit e), m.take line)
  | untold {line : Slot} {i : Instruction} {p : Plan} {e : Decimal.LimitError} :
      m.fetch = some line → line.parsed = some i → i.plan m.registers m.memory m.pc = .ok p →
      p.message = .error e → StepCase m (.error (.limit e), (m.take line).apply p.write)

theorem stepCase_execute {m : Machine} {line : Slot} {i : Instruction} (hf : m.fetch = some line)
    (hi : line.parsed = some i) : m.StepCase ((m.take line).execute line i) := by
  have hplan : i.plan (m.take line).registers (m.take line).memory (m.take line).pc
      = i.plan m.registers m.memory m.pc := rfl
  unfold execute
  rw [hplan]
  cases hp : i.plan m.registers m.memory m.pc with
  | error a =>
    cases a with
    | escape e => exact .unplanned hf hi hp
    | fault f =>
      cases ht : f.message with
      | error e =>
        simp only [ht]
        exact .unnamed hf hi hp ht
      | ok text =>
        simp only [ht]
        exact .fault hf hi hp ht
  | ok p =>
    cases ht : p.message with
    | error e =>
      simp only [ht]
      exact .untold hf hi hp ht
    | ok text =>
      simp only [ht]
      cases hh : p.halts with
      | true => exact .halt hf hi hp ht hh
      | false => exact .proceed hf hi hp ht hh

theorem finished_iff {m : Machine} : m.finished = true ↔ (m.program.length : Int) ≤ m.pc / 4 :=
  decide_eq_true_iff

theorem not_finished_of_fetch {m : Machine} {line : Slot} (h : m.fetch = some line) :
    m.finished = false := by
  obtain ⟨k, hk, hle⟩ := Program.getElem?_of_at? h
  obtain ⟨hlt, -⟩ := List.getElem?_eq_some_iff.1 hk
  rw [← Bool.not_eq_true, finished_iff, Program.length]
  omega

theorem fetch_of_finished {m : Machine} (h : m.finished = true) : m.fetch = none := by
  cases hf : m.fetch with
  | none => rfl
  | some line => cases h.symm.trans (not_finished_of_fetch hf)

theorem fetch_eq_none_iff {m : Machine} (h : 0 ≤ m.pc) : m.fetch = none ↔ m.finished = true := by
  have hpc : ¬ m.pc / 4 < 0 := by omega
  rw [finished_iff]
  simp only [fetch, Program.at?, Program.line?, hpc, ↓reduceIte, Program.length,
    List.getElem?_eq_none_iff]
  omega

theorem step_of_blank {m : Machine} {line : Slot} (hf : m.fetch = some line)
    (hi : line.parsed = none) :
    m.step = answer ({ m.take line with signals := .idle }.advance (m.pc + 4)
      s!"PC={Decimal.shown m.pc}: empty instruction skipped" TraceEntry.info none) := by
  have hf' : { m with lastRegister := none, lastMemory := none }.fetch = some line := hf
  have hg : { m with lastRegister := none, lastMemory := none }.finished = false :=
    not_finished_of_fetch hf
  simp only [step, hg, hf', hi]
  rfl

theorem step_of_parsed {m : Machine} {line : Slot} {i : Instruction} (hf : m.fetch = some line)
    (hi : line.parsed = some i) : m.step = (m.take line).execute line i := by
  have hf' : { m with lastRegister := none, lastMemory := none }.fetch = some line := hf
  have hg : { m with lastRegister := none, lastMemory := none }.finished = false :=
    not_finished_of_fetch hf
  simp only [step, hg, hf', hi]
  rfl

theorem stepCase_step (m : Machine) : m.StepCase m.step := by
  cases hf : m.fetch with
  | some line =>
    cases hi : line.parsed with
    | none => exact step_of_blank hf hi ▸ .blank hf hi
    | some i => exact step_of_parsed hf hi ▸ stepCase_execute hf hi
  | none =>
    have hf' : { m with lastRegister := none, lastMemory := none }.fetch = none := hf
    unfold step
    simp only [hf']
    split
    · next hover => exact .past hover
    · next hgoing => exact .lost (Bool.eq_false_iff.2 hgoing) hf

theorem report_step {m : Machine} {r : StepReport} (h : m.step.1 = .ok r) :
    r = m.step.2.report r.message r.fault := by
  have hcase := m.stepCase_step
  generalize m.step = x at hcase h ⊢
  cases hcase with
  | past | blank | fault | halt | proceed =>
    cases h
    rfl
  | lost | unplanned | unnamed | untold => cases h

/-- The ways in which a step ends: the program is over, the step escapes without or with a line, it
goes on at an address, or it halts. Texts and control lines are left open. -/
inductive StepEnd (m : Machine) : Except Escape StepReport × Machine → Prop
  | past {r : StepReport} {trace : Trace} {notices : List Notice} : m.finished = true →
      StepEnd m (.ok r, { m with lastRegister := none, lastMemory := none, phase := .finished,
                                 running := false, trace, notices })
  | lost : m.finished = false → m.fetch = none →
      StepEnd m (.error .noLine, { m with lastRegister := none, lastMemory := none,
                                          phase := .executing })
  | escape {line : Slot} {e : Escape} (w : Write) : m.fetch = some line →
      StepEnd m (.error e, (m.take line).apply w)
  | proceed {line : Slot} {r : StepReport} {pc : Int} {signals : ControlLines} {trace : Trace}
      {notices : List Notice} (w : Write) : m.fetch = some line → pc = m.pc + 4 ∨ Aligned pc →
      StepEnd m (.ok r, { (m.take line).apply w with pc, signals, trace, notices }.settle)
  | halt {line : Slot} {i : Instruction} {r : StepReport} {signals : ControlLines} {trace : Trace}
      {notices : List Notice} : m.fetch = some line → line.parsed = some i → i.Halts →
      StepEnd m (.ok r, { m.take line with phase := .halted, running := false, signals, trace,
                                           notices })

theorem stepEnd_step (m : Machine) : m.StepEnd m.step := by
  have h := m.stepCase_step
  generalize m.step = x at h ⊢
  cases h with
  | past hf => exact .past hf
  | lost hf hnone => exact .lost hf hnone
  | blank hf => exact .proceed .nothing hf (.inl rfl)
  | fault hf => exact .proceed .nothing hf (.inl rfl)
  | halt hf hi hp _ hh =>
    rcases Instruction.plan_eq_ok hp with ⟨hgo, -⟩ | ⟨-, hw, hi'⟩
    · cases hgo.symm.trans hh
    · rw [hw]
      exact .halt hf hi hi'
  | @proceed _ _ p _ hf _ hp _ hh =>
    rcases Instruction.plan_eq_ok hp with ⟨-, hpc⟩ | ⟨hstop, -⟩
    · exact .proceed p.write hf hpc
    · cases hstop.symm.trans hh
  | unplanned hf => exact .escape .nothing hf
  | unnamed hf => exact .escape .nothing hf
  | @untold _ _ p _ hf => exact .escape p.write hf

variable (m : Machine)

theorem running_apply (w : Write) : (m.apply w).running = m.running := by cases w <;> rfl

theorem phase_apply (w : Write) : (m.apply w).phase = m.phase := by cases w <;> rfl

theorem pc_apply (w : Write) : (m.apply w).pc = m.pc := by cases w <;> rfl

theorem steps_apply (w : Write) : (m.apply w).steps = m.steps := by cases w <;> rfl

theorem steps_step_of_answer {m m' : Machine} {r : StepReport} (hs : m.step = (.ok r, m'))
    (hf : m.finished = false) : m'.steps = m.steps + 1 := by
  have h := m.stepEnd_step
  rw [hs] at h
  cases h with
  | past hover => cases hf.symm.trans hover
  | proceed w => exact steps_apply _ w
  | halt => rfl

def steering : Nat × List Int × Int := (m.generation, m.breakpoints, m.delay)

theorem steering_apply (w : Write) : (m.apply w).steering = m.steering := by cases w <;> rfl

theorem steering_step : m.step.2.steering = m.steering := by
  have h := m.stepEnd_step
  generalize m.step = x at h ⊢
  cases h with
  | past | lost | halt => rfl
  | escape w | proceed w => exact steering_apply _ w

theorem generation_step : m.step.2.generation = m.generation := congrArg (·.1) m.steering_step

theorem breakpoints_step : m.step.2.breakpoints = m.breakpoints :=
  congrArg (·.2.1) m.steering_step

theorem delay_step : m.step.2.delay = m.delay := congrArg (·.2.2) m.steering_step

variable {m}

theorem step_past (h : m.finished = true) : ∃ r trace notices, m.step
    = (.ok r, { m with lastRegister := none, lastMemory := none, phase := .finished,
                       running := false, trace, notices }) := by
  have hs := m.stepEnd_step
  generalize m.step = x at hs ⊢
  cases hs with
  | past => exact ⟨_, _, _, rfl⟩
  | lost hf => cases h.symm.trans hf
  | escape w hf => cases h.symm.trans (not_finished_of_fetch hf)
  | proceed w hf => cases h.symm.trans (not_finished_of_fetch hf)
  | halt hf => cases h.symm.trans (not_finished_of_fetch hf)

/-- A step after which no run goes on: it halts, or the program was over before it. -/
def endsRuns (m : Machine) : Bool := m.finished || m.step.2.halted

theorem halted_settle (m : Machine) : m.settle.halted = false := by
  unfold settle halted
  split <;> rfl

theorem running_step (m : Machine) : m.step.2.running = (m.running && !m.endsRuns) := by
  have hs := m.stepEnd_step
  unfold endsRuns
  generalize m.step = x at hs ⊢
  cases hs with
  | past hf => simp [hf]
  | lost hf => simp [hf, halted]
  | @escape line _ w hf =>
    have hr : ((m.take line).apply w).running = m.running := running_apply _ w
    have hh : ((m.take line).apply w).halted = false := by rw [halted, phase_apply]; rfl
    simp [not_finished_of_fetch hf, hr, hh]
  | @proceed line _ _ _ _ _ w hf =>
    have hr : ((m.take line).apply w).running = m.running := running_apply _ w
    rw [halted_settle, not_finished_of_fetch hf, settle]
    simp [hr]
  | halt => simp [halted]

theorem running_step_of_idle (h : m.running = false) : m.step.2.running = false := by
  have hs := m.stepEnd_step
  generalize m.step = x at hs ⊢
  cases hs with
  | past => rfl
  | lost => exact h
  | escape w => exact (running_apply _ w).trans h
  | proceed w => exact (running_apply _ w).trans h
  | halt => rfl

theorem running_step_of_going (hf : m.finished = false) (hh : m.step.2.halted = false) :
    m.step.2.running = m.running := by
  rw [running_step, endsRuns, hf, hh]
  simp

def storage (m : Machine) : Registers × DataMemory × Program := (m.registers, m.memory, m.program)

theorem program_apply (m : Machine) (w : Write) : (m.apply w).program = m.program := by
  cases w <;> rfl

theorem storage_apply_take (m : Machine) (line : Slot) (w : Write) :
    ((m.take line).apply w).storage = (m.apply w).storage := by
  cases w <;> rfl

theorem storage_step (m : Machine) : ∃ w, m.step.2.storage = (m.apply w).storage := by
  have h := m.stepEnd_step
  generalize m.step = x at h ⊢
  cases h with
  | past | lost => exact ⟨.nothing, rfl⟩
  | escape w => exact ⟨w, storage_apply_take m _ w⟩
  | proceed w => exact ⟨w, storage_apply_take m _ w⟩
  | halt => exact ⟨.nothing, rfl⟩

theorem program_step (m : Machine) : m.step.2.program = m.program := by
  obtain ⟨w, hw⟩ := m.storage_step
  rw [← program_apply m w]
  exact congrArg (·.2.2) hw

end Machine

end Datapath
