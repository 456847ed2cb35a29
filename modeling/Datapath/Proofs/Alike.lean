import Datapath.Machine.Run
import Datapath.Proofs.Plan

set_option autoImplicit false

namespace Datapath.Machine

/-- What a step reads and what its report shows is the same. -/
structure Alike (p q : Machine) : Prop where
  program : p.program = q.program
  pc : p.pc = q.pc
  registers : p.registers = q.registers
  words : p.memory.words = q.memory.words
  lastRegister : p.lastRegister = q.lastRegister
  lastMemory : p.lastMemory = q.lastMemory
  signals : p.signals = q.signals
  phase : p.phase = q.phase
  current : p.current = q.current

/-- A relation between machines that are alike, which the parts of a step keep. -/
structure StepCongruence (R : Machine → Machine → Prop) : Prop where
  alike {p q : Machine} : R p q → Alike p q
  forget {p q : Machine} : R p q →
    R { p with lastRegister := none, lastMemory := none }
      { q with lastRegister := none, lastMemory := none }
  enter {p q : Machine} (line : Slot) : R p q → R (p.enter line) (q.enter line)
  apply {p q : Machine} (w : Write) : R p q → R (p.apply w) (q.apply w)
  signals {p q : Machine} (c : ControlLines) :
    R p q → R { p with signals := c } { q with signals := c }
  pc {p q : Machine} (a : Int) : R p q → R { p with pc := a } { q with pc := a }
  phase {p q : Machine} (x : Phase) : R p q → R { p with phase := x } { q with phase := x }
  down {p q : Machine} : R p q → R { p with running := false } { q with running := false }
  record {p q : Machine} (text kind : String) :
    R p q → R (p.record text kind) (q.record text kind)

variable {R : Machine → Machine → Prop} {p q : Machine}

theorem Alike.report_eq (h : Alike p q) (text : String) (fault : Option String) :
    p.report text fault = q.report text fault := by
  simp only [report, h.pc, h.registers, h.words, h.lastRegister, h.lastMemory, h.signals, h.phase,
    h.current]

theorem Alike.fetch_eq (h : Alike p q) : p.fetch = q.fetch := by
  simp only [fetch, h.program, h.pc]

theorem Alike.finished_eq (h : Alike p q) : p.finished = q.finished := by
  simp only [finished, h.program, h.pc]

theorem Alike.plan_eq (h : Alike p q) (i : Instruction) :
    i.plan p.registers p.memory p.pc = i.plan q.registers q.memory q.pc := by
  rw [h.registers, h.pc]
  exact Instruction.plan_congr h.words

namespace StepCongruence

theorem settle (hR : StepCongruence R) (h : R p q) : R p.settle q.settle := by
  unfold Machine.settle
  rw [(hR.alike h).finished_eq]
  exact hR.phase _ h

theorem advance (hR : StepCongruence R) (h : R p q) (pc : Int) (text kind : String)
    (fault : Option String) :
    (p.advance pc text kind fault).1 = (q.advance pc text kind fault).1 ∧
      R (p.advance pc text kind fault).2 (q.advance pc text kind fault).2 := by
  have hsettled := hR.settle (hR.record text kind (hR.pc pc h))
  exact ⟨(hR.alike hsettled).report_eq text fault, hsettled⟩

theorem execute (hR : StepCongruence R) (h : R p q) (line : Slot) (i : Instruction) :
    (p.execute line i).1 = (q.execute line i).1 ∧ R (p.execute line i).2 (q.execute line i).2 := by
  unfold Machine.execute
  rw [(hR.alike h).plan_eq i, (hR.alike h).pc]
  cases i.plan q.registers q.memory q.pc with
  | error a =>
    cases a with
    | escape e => exact ⟨rfl, h⟩
    | fault f =>
      cases hf : f.message with
      | error e =>
        simp only [hf]
        exact ⟨trivial, h⟩
      | ok text =>
        simp only [hf]
        obtain ⟨hreport, hafter⟩ := hR.advance (hR.signals .idle h) (q.pc + 4)
          s!"Error at PC={Decimal.shown q.pc} ({String.ofList line.raw}): {text}" TraceEntry.error
          (some f.name)
        exact ⟨congrArg Except.ok hreport, hafter⟩
  | ok x =>
    have hstored := hR.apply x.write h
    cases hm : x.message with
    | error e =>
      simp only [hm]
      exact ⟨trivial, hstored⟩
    | ok text =>
      simp only [hm]
      have hlines := hR.signals x.signals hstored
      cases x.halts with
      | true =>
        have hhalted := hR.record text TraceEntry.success (hR.down (hR.phase .halted hlines))
        exact ⟨congrArg Except.ok ((hR.alike hhalted).report_eq text none), hhalted⟩
      | false =>
        obtain ⟨hreport, hafter⟩ := hR.advance hlines x.nextPc text TraceEntry.success none
        exact ⟨congrArg Except.ok hreport, hafter⟩

/-- Machines in the relation step alike, and their steps lead into the relation again. -/
theorem step (hR : StepCongruence R) (h : R p q) :
    p.step.1 = q.step.1 ∧ R p.step.2 q.step.2 := by
  have hforgot := hR.forget h
  unfold Machine.step
  dsimp only
  rw [(hR.alike hforgot).fetch_eq, (hR.alike hforgot).finished_eq]
  split
  · have hover := hR.record "Program finished" TraceEntry.error
      (hR.down (hR.phase .finished hforgot))
    exact ⟨congrArg Except.ok ((hR.alike hover).report_eq _ none), hover⟩
  · cases { q with lastRegister := none, lastMemory := none }.fetch with
    | none => exact ⟨rfl, hR.phase .executing hforgot⟩
    | some line =>
      have hentered := hR.enter line hforgot
      cases hp : line.parsed with
      | none =>
        simp only [hp]
        rw [(hR.alike hentered).pc]
        obtain ⟨hreport, hafter⟩ := hR.advance (hR.signals .idle hentered) (q.pc + 4)
          s!"PC={Decimal.shown q.pc}: empty instruction skipped" TraceEntry.info none
        exact ⟨congrArg Except.ok hreport, hafter⟩
      | some i =>
        simp only [hp]
        exact hR.execute hentered line i

theorem stepMany (hR : StepCongruence R) (h : R p q) (n : Nat) :
    (p.stepMany n).1 = (q.stepMany n).1 ∧ R (p.stepMany n).2 (q.stepMany n).2 := by
  induction n generalizing p q with
  | zero => exact ⟨rfl, h⟩
  | succ n ih =>
    obtain ⟨hreport, hafter⟩ := hR.step h
    unfold Machine.stepMany
    rcases hp : p.step with ⟨x, p'⟩
    rcases hq : q.step with ⟨y, q'⟩
    rw [hp, hq] at hreport hafter
    obtain rfl : x = y := hreport
    cases x with
    | error e => exact ⟨rfl, hafter⟩
    | ok r =>
      obtain ⟨hreports, hlast⟩ := ih hafter
      exact ⟨congrArg (Functor.map (r :: ·)) hreports, hlast⟩

end StepCongruence

theorem stepCongruence_alike : StepCongruence Alike where
  alike h := h
  forget h := { h with lastRegister := rfl, lastMemory := rfl }
  enter _ h := { h with phase := rfl, current := rfl }
  apply w h := by
    cases w with
    | nothing => exact h
    | register rd v =>
      have hregisters := congrArg (·.set rd v) h.registers
      exact { h with registers := hregisters, lastRegister := rfl }
    | memory i v =>
      have hwords := congrArg (·.setIfInBounds i (Word.signed v)) h.words
      exact { h with words := hwords, lastMemory := rfl }
  signals _ h := { h with signals := rfl }
  pc _ h := { h with pc := rfl }
  phase _ h := { h with phase := rfl }
  down h := { h with }
  record _ _ h := { h with }

end Datapath.Machine
