import Datapath.Proofs.Alike
import Datapath.Proofs.Control

set_option autoImplicit false

namespace Datapath.Machine

/-- The machine without what a paced run and a synchronous one leave different while they go on. -/
def core (m : Machine) : Machine :=
  { m with trace := .empty 0 fun _ => "", notices := [], generation := 0, running := false }

variable {m p q : Machine} {r : Run}

theorem congr_core {α : Type} (h : p.core = q.core) (f : Machine → α) (hf : ∀ m, f m.core = f m) :
    f p = f q := by
  rw [← hf p, h, hf q]

theorem core_apply (m : Machine) (w : Write) : m.core.apply w = (m.apply w).core := by
  cases w <;> rfl

theorem stepCongruence_core : StepCongruence fun p q => p.core = q.core where
  alike h := {
    program := congr_core h program fun _ => rfl
    pc := congr_core h pc fun _ => rfl
    registers := congr_core h registers fun _ => rfl
    words := congr_core h (fun m => m.memory.words) fun _ => rfl
    lastRegister := congr_core h lastRegister fun _ => rfl
    lastMemory := congr_core h lastMemory fun _ => rfl
    signals := congr_core h signals fun _ => rfl
    phase := congr_core h phase fun _ => rfl
    current := congr_core h current fun _ => rfl }
  forget h := congrArg (fun m => { m with lastRegister := none, lastMemory := none }) h
  enter line h := congrArg (fun m => m.enter line) h
  apply w h := by
    rw [← core_apply, ← core_apply]
    exact congrArg (fun m => m.apply w) h
  signals c h := congrArg (fun m => { m with signals := c }) h
  pc a h := congrArg (fun m => { m with pc := a }) h
  phase x h := congrArg (fun m => { m with phase := x }) h
  down h := h
  record _ _ h := h

theorem step_congr_core (h : p.core = q.core) :
    p.step.1 = q.step.1 ∧ p.step.2.core = q.step.2.core :=
  stepCongruence_core.step h

def loopStride (limit : Int) (left : Nat) (m : Machine) : Except Escape RunEnd × Machine :=
  match m.step with
  | (.error e, m) => (.error e, m)
  | (.ok _, m) => if m.halted then (.ok .halt, m) else runLoop limit left false m

theorem runLoop_succ (limit : Int) (left : Nat) (first : Bool) (m : Machine) :
    runLoop limit (left + 1) first m
      = if m.finished then (.ok .finished, { m with phase := .finished })
        else if !first ∧ m.pc ∈ m.breakpoints then (.ok .breakpoint, m)
        else loopStride limit left m := rfl

theorem runLoop_of_finished (h : m.finished = true) (limit : Int) (left : Nat) (first : Bool) :
    runLoop limit left first m = (.ok .finished, { m with phase := .finished }) := by
  cases left <;> simp [runLoop, h]

/-- A paced run `r` on the machine `p`, and a synchronous one on `q`. -/
structure InStep (r : Run) (p q : Machine) : Prop where
  core : p.core = q.core
  current : p.Current r.generation
  sleepable : Run.unsleepable r.delay = false

def EndsFor (reason : RunEnd) (x : Except Escape Progress × Machine) (q : Machine) : Prop :=
  x.2.core = q.core ∧ x.2.running = false ∧ x.1 = .ok (.ended reason)

/-- What a paced run answers after `steps` steps where a synchronous one answers `reason` on the
machine `m`: it looks for a breakpoint before it looks at its limit. -/
def pacedReason (steps : Nat) (m : Machine) (reason : RunEnd) : RunEnd :=
  if reason = .timeout ∧ 0 < steps ∧ m.pc ∈ m.breakpoints then .breakpoint else reason

theorem pacedReason_of_ne {reason : RunEnd} (h : reason ≠ .timeout) (steps : Nat) (m : Machine) :
    pacedReason steps m reason = reason := if_neg fun hr => h hr.1

theorem core_finish (r : Run) {reason : RunEnd} (h : reason ≠ .finished) :
    (m.finish r reason).core = m.core := by
  unfold finish
  split <;> rfl

theorem core_finish_finished (h : r.generation = m.generation) :
    (m.finish r .finished).core = { m.core with phase := .finished } := by
  rw [finish, if_pos h]
  rfl

theorem endsFor_endRun {reason : RunEnd} (hc : m.core = q.core) (hg : r.generation = m.generation)
    (h : reason ≠ .finished) : EndsFor reason (m.endRun r reason) q :=
  ⟨(core_finish r h).trans hc, running_finish hg reason, rfl⟩

theorem InStep.endsFor_finished (h : InStep r p q) :
    EndsFor .finished (p.endRun r .finished) { q with phase := .finished } := by
  refine ⟨?_, running_finish h.current.2 .finished, rfl⟩
  rw [endRun, core_finish_finished h.current.2, h.core]
  rfl

theorem InStep.stride (h : InStep r p q) {k : Nat} {reason : RunEnd} {q' : Machine}
    (hq : loopStride r.limit k q = (.ok reason, q')) :
    let r' := { r with count := r.count + 1 }
    reason = .halt ∧ EndsFor .halt (p.stride r') q' ∨ p.stride r' = (.ok (.asleep r'), p.step.2) ∧
      p.step.2.halted = false ∧ runLoop r.limit k false q.step.2 = (.ok reason, q') := by
  obtain ⟨hreport, hcore⟩ := step_congr_core h.core
  have hgen : r.generation = p.step.2.generation := h.current.2.trans p.generation_step.symm
  have hh : p.step.2.halted = q.step.2.halted := congr_core hcore halted fun _ => rfl
  unfold loopStride at hq
  unfold Machine.stride
  rcases hp : p.step with ⟨x, p'⟩
  rcases hs : q.step with ⟨y, q₁⟩
  rw [hp, hs] at hreport hcore hh
  rw [hp] at hgen
  rw [hs] at hq
  cases hreport
  cases x with
  | error e => cases hq
  | ok report =>
    simp only [hh, h.sleepable]
    cases hhalt : q₁.halted with
    | true =>
      simp only [hhalt] at hq
      cases hq
      exact .inl ⟨rfl, endsFor_endRun hcore hgen (by decide)⟩
    | false =>
      simp only [hhalt] at hq
      exact .inr ⟨rfl, rfl, hq⟩

/-- When the paced run wakes up it ends as the synchronous run does, or both take a step. -/
theorem InStep.turn (h : InStep r p q) {left : Nat} (hl : left = (r.limit - r.count).toNat)
    {reason : RunEnd} {q' : Machine}
    (hq : runLoop r.limit left (decide (r.count = 0)) q = (.ok reason, q')) :
    EndsFor (pacedReason (r.count + left) q' reason) (p.resume r) q' ∨
      ∃ k, left = k + 1 ∧ q.finished = false ∧
        p.resume r = (.ok (.asleep { r with count := r.count + 1 }), p.step.2) ∧
        p.step.2.halted = false ∧ runLoop r.limit k false q.step.2 = (.ok reason, q') := by
  rw [resume_of_current h.current, congr_core h.core finished fun _ => rfl]
  simp only [congr_core h.core pc fun _ => rfl, congr_core h.core breakpoints fun _ => rfl]
  cases hfin : q.finished with
  | true =>
    rw [runLoop_of_finished hfin] at hq
    cases hq
    exact .inl h.endsFor_finished
  | false =>
    cases left with
    | zero =>
      simp only [runLoop, hfin] at hq
      cases hq
      simp only [Bool.false_eq_true, ↓reduceIte]
      left
      -- The synchronous run answers its limit, whether or not there is a breakpoint.
      split
      · next hb =>
        have hreason : pacedReason (r.count + 0) (q.warnLimit r.limit) .timeout = .breakpoint :=
          if_pos ⟨rfl, hb⟩
        rw [hreason]
        exact endsFor_endRun h.core h.current.2 (by decide)
      · next hb =>
        have hreason : pacedReason (r.count + 0) (q.warnLimit r.limit) .timeout = .timeout :=
          if_neg fun hr => hb hr.2
        have hlim : (r.count : Int) ≥ r.limit := by omega
        rw [if_pos hlim, hreason]
        exact endsFor_endRun h.core h.current.2 (by decide)
    | succ k =>
      have hlim : ¬ (r.count : Int) ≥ r.limit := by omega
      have hfirst : (!decide (r.count = 0)) = true ↔ r.count > 0 := by
        simp [Nat.pos_iff_ne_zero]
      simp only [runLoop_succ, hfin, hfirst, Bool.false_eq_true, ↓reduceIte] at hq
      simp only [Bool.false_eq_true, ↓reduceIte, hlim]
      split at hq
      · next hb =>
        cases hq
        rw [if_pos hb, pacedReason_of_ne (by decide)]
        exact .inl (endsFor_endRun h.core h.current.2 (by decide))
      · next hb =>
        rw [if_neg hb]
        refine (h.stride hq).imp ?_ fun hs => ⟨k, rfl, trivial, hs⟩
        rintro ⟨rfl, hend⟩
        exact hend

theorem resumeAll_of_endsFor {reason : RunEnd} (h : EndsFor reason (p.resume r) q) (n k : Nat) :
    p.resumeAll r n (k + 1) = (n, p.resume r) := by
  obtain ⟨-, -, hr⟩ := h
  rw [resumeAll]
  rcases hp : p.resume r with ⟨x, p'⟩
  rw [hp] at hr
  cases hr
  rfl

theorem InStep.run (h : InStep r p q) {left : Nat} (hl : left = (r.limit - r.count).toNat)
    {reason : RunEnd} {q' : Machine}
    (hq : runLoop r.limit left (decide (r.count = 0)) q = (.ok reason, q')) (n : Nat) :
    ∃ sleeps x, p.resumeAll r n (left + 1) = (sleeps, x) ∧
      EndsFor (pacedReason (r.count + left) q' reason) x q' := by
  induction left generalizing p q r n with
  | zero =>
    rcases h.turn hl hq with hend | ⟨k, hk, -⟩
    · exact ⟨n, _, resumeAll_of_endsFor hend n 0, hend⟩
    · cases hk
  | succ left ih =>
    rcases h.turn hl hq with hend | ⟨k, hk, hfin, hresume, hh, hq⟩
    · exact ⟨n, _, resumeAll_of_endsFor hend n _, hend⟩
    · cases hk
      have hgoing : p.finished = false := (congr_core h.core finished fun _ => rfl).trans hfin
      have hcurrent : p.step.2.Current r.generation :=
        ⟨(running_step_of_going hgoing hh).trans h.current.1,
          h.current.2.trans p.generation_step.symm⟩
      obtain ⟨sleeps, x, hx, hend⟩ := ih (r := { r with count := r.count + 1 })
        ⟨(step_congr_core h.core).2, hcurrent, h.sleepable⟩ (by simp only; omega) hq (n + 1)
      have hsteps : r.count + 1 + left = r.count + (left + 1) := by omega
      rw [resumeAll, hresume]
      exact ⟨sleeps, x, hx, hsteps ▸ hend⟩

theorem runPaced_of_idle (h : m.running = false) (delay limit : Option Int) :
    m.runPaced delay limit = m.announce.resumeAll (m.newRun delay limit) 0
      ((limit.getD m.settings.maxSteps).toNat + 1) := by
  have hstart : m.start delay limit = m.announce.resume (m.newRun delay limit) := by
    rw [start, h]
    rfl
  have he := m.announce.resumeEnd_resume (m.newRun delay limit)
  rw [runPaced, hstart, resumeAll]
  generalize m.announce.resume (m.newRun delay limit) = x at he
  cases he <;> rfl

theorem running_runLoop (h : m.running = false) (limit : Int) (left : Nat) (first : Bool) :
    (runLoop limit left first m).2.running = false := by
  refine (path_runLoop limit left first m).keeps (P := fun m => m.running = false)
    (fun _ => running_step_of_idle) ?_ h
  intro m m' he hm
  cases he <;> exact hm

theorem eq_of_core (h : p.core = q.core) (hr : p.running = q.running) :
    { p with trace := q.trace, notices := q.notices, generation := q.generation } = q := by
  cases p
  cases q
  simp_all [core]

/-- Where a synchronous run ends, a paced run that is only woken up ends as well, with the same
machine but for the log, the notices and the generation. -/
theorem runPaced_agrees {m m₁ : Machine} {reason : RunEnd} (delay limit : Option Int)
    (hidle : m.running = false) (hdelay : Run.unsleepable (delay.getD m.delay) = false)
    (hrun : m.runThrough limit = (.ok reason, m₁)) :
    ∃ sleeps reason' m₂, m.runPaced delay limit = (sleeps, .ok (.ended reason'), m₂) ∧
      { m₂ with trace := m₁.trace, notices := m₁.notices, generation := m₁.generation } = m₁ := by
  have hstart : InStep (m.newRun delay limit) m.announce m := ⟨rfl, ⟨rfl, rfl⟩, hdelay⟩
  obtain ⟨sleeps, ⟨x, m₂⟩, hpaced, hcore, hdown, hx⟩ := hstart.run (by simp [newRun]) hrun 0
  have hdown₁ : m₁.running = false := by
    have h := running_runLoop hidle (limit.getD m.settings.maxSteps)
      (limit.getD m.settings.maxSteps).toNat true
    rwa [show runLoop _ _ _ m = _ from hrun] at h
  refine ⟨sleeps, pacedReason (limit.getD m.settings.maxSteps).toNat m₁ reason, m₂, ?_,
    eq_of_core hcore (hdown.trans hdown₁.symm)⟩
  rw [runPaced_of_idle hidle, hpaced, show x = _ from hx, newRun, Nat.zero_add]

theorem runPaced_agrees_breakpoint :
    ∃ m m₁ sleeps reason m₂, create {} = .ok m ∧
      let loaded := (m.load "addi x1, x0, 7\nnop".toList).2.setBreakpoint 4
      loaded.runThrough (some 1) = (.ok .timeout, m₁) ∧ m₁.pc = 4 ∧
        loaded.runPaced (some 5) (some 1) = (sleeps, .ok (.ended reason), m₂) ∧
        { m₂ with trace := m₁.trace, notices := m₁.notices, generation := m₁.generation } = m₁ := by
  obtain ⟨m, hm⟩ : ∃ m, create {} = .ok m := ⟨_, rfl⟩
  let loaded := (m.load "addi x1, x0, 7\nnop".toList).2.setBreakpoint 4
  obtain ⟨m₁, hrun, hpc⟩ : ∃ m₁, loaded.runThrough (some 1) = (.ok .timeout, m₁) ∧ m₁.pc = 4 := by
    cases hm
    exact ⟨_, rfl, rfl⟩
  have hidle : loaded.running = false := by
    cases hm
    rfl
  obtain ⟨sleeps, reason, m₂, hpaced, heq⟩ := runPaced_agrees (some 5) (some 1) hidle rfl hrun
  exact ⟨m, m₁, sleeps, reason, m₂, hm, hrun, hpc, hpaced, heq⟩

/-- Where a synchronous run ends, a paced run that is only woken up ends for the same reason, unless
both have used up their limit before a breakpoint. The synchronous run then answers that it came to
its limit, and the paced one that it came to a breakpoint. -/
theorem runPaced_reason {m m₁ : Machine} {reason : RunEnd} (delay limit : Option Int)
    (hidle : m.running = false) (hdelay : Run.unsleepable (delay.getD m.delay) = false)
    (hrun : m.runThrough limit = (.ok reason, m₁)) :
    ∃ sleeps reason' m₂, m.runPaced delay limit = (sleeps, .ok (.ended reason'), m₂) ∧
      reason' = if reason = .timeout ∧ 0 < limit.getD m.settings.maxSteps ∧
        m₁.pc ∈ m₁.breakpoints then .breakpoint else reason := by
  have hstart : InStep (m.newRun delay limit) m.announce m := ⟨rfl, ⟨rfl, rfl⟩, hdelay⟩
  obtain ⟨sleeps, ⟨x, m₂⟩, hpaced, -, -, hx⟩ := hstart.run (by simp [newRun]) hrun 0
  refine ⟨sleeps, pacedReason (limit.getD m.settings.maxSteps).toNat m₁ reason, m₂, ?_, ?_⟩
  · rw [runPaced_of_idle hidle, hpaced, show x = _ from hx, newRun, Nat.zero_add]
  · simp only [pacedReason, Int.lt_toNat, Int.natCast_zero]

theorem runPaced_reason_breakpoint :
    ∃ m m₁ sleeps m₂, create {} = .ok m ∧
      let loaded := (m.load "nop\nnop\nnop".toList).2.setBreakpoint 4
      loaded.runThrough (some 2) = (.ok .breakpoint, m₁) ∧
        loaded.runPaced (some 5) (some 2) = (sleeps, .ok (.ended .breakpoint), m₂) := by
  obtain ⟨m, hm⟩ : ∃ m, create {} = .ok m := ⟨_, rfl⟩
  let loaded := (m.load "nop\nnop\nnop".toList).2.setBreakpoint 4
  obtain ⟨m₁, hrun⟩ : ∃ m₁, loaded.runThrough (some 2) = (.ok .breakpoint, m₁) := by
    cases hm
    exact ⟨_, rfl⟩
  obtain ⟨sleeps, reason', m₂, hpaced, rfl⟩ :=
    runPaced_reason (some 5) (some 2) (by cases hm; rfl) rfl hrun
  exact ⟨m, m₁, sleeps, m₂, hm, hrun, hpaced⟩

/-- With the limit on the same step, only the paced run tells of the breakpoint. -/
theorem runPaced_reason_ne_runThrough :
    ∃ m, create {} = .ok m ∧
      let loaded := (m.load "nop\nnop\nnop".toList).2.setBreakpoint 4
      loaded.running = false ∧ (loaded.runThrough (some 1)).1 = .ok .timeout ∧
        (loaded.runPaced (some 0) (some 1)).2.1 = .ok (.ended .breakpoint) := by
  obtain ⟨m, hm⟩ : ∃ m, create {} = .ok m := ⟨_, rfl⟩
  refine ⟨m, hm, ?_⟩
  cases hm
  exact ⟨rfl, rfl, rfl⟩

end Datapath.Machine
