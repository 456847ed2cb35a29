import Datapath.Proofs.RunLimit

set_option autoImplicit false

namespace Datapath

namespace Machine

variable {m m' p q q' : Machine} {limit limit' : Int} {left : Nat} {first first' : Bool}
  {reason : RunEnd} {R : Machine → Machine → Prop}

/-- The machines show the same registers and the same words. -/
structure SameStorage (p q : Machine) : Prop where
  registers : p.registers = q.registers
  words : p.memory.words = q.memory.words

theorem Alike.storage (h : Alike p q) : SameStorage p q := ⟨h.registers, h.words⟩

theorem step_of_finished (hf : m.finished = true) :
    ∃ r m₁, m.step = (.ok r, m₁) ∧ m₁.finished = true ∧ SameStorage m₁ m := by
  obtain ⟨r, _, _, hs⟩ := step_past hf
  exact ⟨r, _, hs, hf, ⟨rfl, rfl⟩⟩

theorem loopStride_eq_ok : loopStride limit left m = (.ok reason, m') ↔
    ∃ r m₁, m.step = (.ok r, m₁) ∧
      (m₁.halted = true ∧ reason = .halt ∧ m' = m₁ ∨
        m₁.halted = false ∧ runLoop limit left false m₁ = (.ok reason, m')) := by
  unfold loopStride
  rcases m.step with ⟨e | r, m₁⟩
  · constructor
    · intro h
      cases h
    · rintro ⟨_, _, hs, -⟩
      cases hs
  · dsimp only
    constructor
    · intro h
      cases hh : m₁.halted with
      | true =>
        rw [hh] at h
        cases h
        exact ⟨r, _, rfl, .inl ⟨hh, rfl, rfl⟩⟩
      | false =>
        rw [hh] at h
        exact ⟨r, m₁, rfl, .inr ⟨hh, h⟩⟩
    · rintro ⟨_, _, hs, ⟨hh, rfl, rfl⟩ | ⟨hh, h⟩⟩ <;> cases hs <;> rw [hh]
      · rfl
      · exact h

theorem steps_of_runLoop (h : runLoop limit left first m = (.ok reason, m')) :
    m'.steps = m.steps + (loopTrail left first m).length := by
  induction left generalizing m first with
  | zero =>
    unfold runLoop at h
    split at h <;> cases h <;> rfl
  | succ left ih =>
    rw [runLoop_succ] at h
    unfold loopTrail
    split at h
    · next hf =>
      cases h
      rw [if_pos hf]
      rfl
    · next hf =>
      rw [if_neg hf]
      split at h
      · next hb =>
        cases h
        rw [if_pos hb]
        rfl
      · next hb =>
        obtain ⟨r, m₁, hs, hrest⟩ := loopStride_eq_ok.1 h
        have hstep := steps_step_of_answer hs (Bool.eq_false_iff.2 hf)
        rw [if_neg hb, hs]
        dsimp only
        rcases hrest with ⟨hh, -, rfl⟩ | ⟨hh, hrun⟩
        · rw [hh, hstep]
          rfl
        · rw [hh, if_neg Bool.false_ne_true, ih hrun, hstep, List.length_cons]
          omega

theorem not_held (hb : m.breakpoints = []) (first : Bool) :
    ¬ ((!first) = true ∧ m.pc ∈ m.breakpoints) := by simp [hb]

theorem runLoop_of_going (hf : m.finished = false) (hb : m.breakpoints = []) (limit : Int)
    (left : Nat) (first : Bool) : runLoop limit (left + 1) first m = loopStride limit left m := by
  rw [runLoop_succ, hf, if_neg Bool.false_ne_true, if_neg (not_held hb first)]

theorem mem_loopTrail (hf : m.finished = false) (hb : m.breakpoints = []) (left : Nat)
    (first : Bool) : m ∈ loopTrail (left + 1) first m := by
  rw [loopTrail, hf, if_neg Bool.false_ne_true, if_neg (not_held hb first)]
  exact List.mem_cons_self

theorem loopTrail_of_step (hf : m.finished = false) (hb : m.breakpoints = []) {r : StepReport}
    (hs : m.step = (.ok r, m')) (left : Nat) (first : Bool) : loopTrail (left + 1) first m
      = m :: if m'.halted then [] else loopTrail left false m' := by
  rw [loopTrail, hf, if_neg Bool.false_ne_true, if_neg (not_held hb first), hs]

theorem runLoop_succ_eq_ok (hf : m.finished = false) (hb : m.breakpoints = []) :
    runLoop limit (left + 1) first m = (.ok reason, m') ↔
      ∃ r m₁, m.step = (.ok r, m₁) ∧
        (m₁.halted = true ∧ reason = .halt ∧ m' = m₁ ∨
          m₁.halted = false ∧ runLoop limit left false m₁ = (.ok reason, m')) := by
  rw [runLoop_of_going hf hb]
  exact loopStride_eq_ok

/-- Without breakpoints, machines in a relation that steps keep run alike. The limit that a notice
tells of makes no difference, and neither does the first step. -/
theorem StepCongruence.runLoop (hR : StepCongruence R)
    (hwarn : ∀ {p q : Machine}, R p q → R (p.warnLimit limit) (q.warnLimit limit'))
    (h : R p q) (hp : p.breakpoints = []) (hq : q.breakpoints = []) :
    (Machine.runLoop limit left first p).1 = (Machine.runLoop limit' left first' q).1 ∧
      R (Machine.runLoop limit left first p).2 (Machine.runLoop limit' left first' q).2 := by
  induction left generalizing p q first first' with
  | zero =>
    unfold Machine.runLoop
    rw [(hR.alike h).finished_eq]
    split
    · exact ⟨rfl, hR.phase .finished h⟩
    · exact ⟨rfl, hwarn h⟩
  | succ left ih =>
    cases hf : q.finished with
    | true =>
      rw [runLoop_of_finished ((hR.alike h).finished_eq.trans hf), runLoop_of_finished hf]
      exact ⟨rfl, hR.phase .finished h⟩
    | false =>
      rw [runLoop_of_going ((hR.alike h).finished_eq.trans hf) hp, runLoop_of_going hf hq]
      obtain ⟨hanswer, hafter⟩ := hR.step h
      have hbreak := p.breakpoints_step.trans hp
      have hbreak' := q.breakpoints_step.trans hq
      unfold loopStride
      rcases hsp : p.step with ⟨x, p₁⟩
      rcases hsq : q.step with ⟨y, q₁⟩
      rw [hsp] at hanswer hafter hbreak
      rw [hsq] at hanswer hafter hbreak'
      obtain rfl : x = y := hanswer
      cases x with
      | error e => exact ⟨rfl, hafter⟩
      | ok r =>
        have hhalted : p₁.halted = q₁.halted := by rw [halted, (hR.alike hafter).phase, halted]
        dsimp only
        rw [hhalted]
        split
        · exact ⟨rfl, hafter⟩
        · exact ih hafter hbreak hbreak'

theorem Alike.runLoop (h : Alike p q) (hp : p.breakpoints = []) (hq : q.breakpoints = [])
    (hrun : Machine.runLoop limit left first q = (.ok reason, q')) :
    ∃ p', Machine.runLoop limit left first p = (.ok reason, p') ∧ Alike p' q' := by
  have hloop : (Machine.runLoop limit left first p).1 = (Machine.runLoop limit left first q).1 ∧
      Alike (Machine.runLoop limit left first p).2 (Machine.runLoop limit left first q).2 :=
    stepCongruence_alike.runLoop (fun h => { h with }) h hp hq
  rw [hrun] at hloop
  obtain ⟨hanswer, hafter⟩ := hloop
  exact ⟨(Machine.runLoop limit left first p).2, Prod.ext hanswer rfl, hafter⟩

theorem breakpoints_runLoop (limit : Int) (left : Nat) (first : Bool) (m : Machine) :
    (Machine.runLoop limit left first m).2.breakpoints = m.breakpoints := by
  induction left generalizing m first with
  | zero =>
    unfold Machine.runLoop
    split <;> rfl
  | succ left ih =>
    have hstep := m.breakpoints_step
    unfold Machine.runLoop
    split
    · rfl
    · split
      · rfl
      · rcases hs : m.step with ⟨_ | _, m₁⟩ <;> rw [hs] at hstep
        · exact hstep
        · dsimp only
          split
          · exact hstep
          · exact (ih false m₁).trans hstep

theorem runPaced_eq_ok (delay limit : Option Int) (hb : m.breakpoints = [])
    (hidle : m.running = false) (hs : Run.unsleepable (delay.getD m.delay) = false)
    (h : m.runThrough limit = (.ok reason, m')) :
    ∃ sleeps m₁, m.runPaced delay limit = (sleeps, .ok (.ended reason), m₁) ∧
      m₁.core = m'.core := by
  have hstart : InStep (m.newRun delay limit) m.announce m := ⟨rfl, ⟨rfl, rfl⟩, hs⟩
  obtain ⟨sleeps, ⟨x, m₁⟩, hpaced, hcore, -, hx⟩ := hstart.run (by simp [newRun]) h 0
  have hnone : m'.breakpoints = [] := by
    have hsame := breakpoints_runLoop (limit.getD m.settings.maxSteps)
      (limit.getD m.settings.maxSteps).toNat true m
    rw [show Machine.runLoop _ _ _ m = _ from h] at hsame
    exact hsame.trans hb
  rw [pacedReason, if_neg (by simp [hnone])] at hx
  refine ⟨sleeps, m₁, ?_, hcore⟩
  rw [runPaced_of_idle hidle, hpaced, show x = _ from hx]

theorem setDelay_eq_ok {delay : Int} (hd : 0 ≤ delay) :
    ∃ w, m.setDelay delay = (.ok (), w) ∧ Alike w m ∧ w.breakpoints = m.breakpoints ∧
      w.running = m.running ∧ w.delay = delay :=
  ⟨_, if_neg (Int.not_lt.2 hd), ⟨rfl, rfl, rfl, rfl, rfl, rfl, rfl, rfl, rfl⟩, rfl, rfl, rfl⟩

end Machine

namespace Machine

variable {m m₁ p q : Machine} {limit : Int} {left : Nat} {first : Bool} {reason : RunEnd}

theorem loopStride_of_step {r : StepReport} (hs : m.step = (.ok r, m₁)) (hh : m₁.halted = false)
    (limit : Int) (left : Nat) : loopStride limit left m = runLoop limit left false m₁ := by
  unfold loopStride
  rw [hs]
  dsimp only
  rw [hh, if_neg Bool.false_ne_true]

/-- The machines are the same but for their notices and their breakpoints. -/
abbrev Echoes (p q : Machine) : Prop :=
  p = { q with notices := p.notices, breakpoints := p.breakpoints }

theorem stepCongruence_echoes : StepCongruence Echoes where
  alike {p q} h := (congrArg (Alike · q) h).mpr ⟨rfl, rfl, rfl, rfl, rfl, rfl, rfl, rfl, rfl⟩
  forget h := congrArg (fun m => { m with lastRegister := none, lastMemory := none }) h
  enter line h := congrArg (·.enter line) h
  apply w h := by
    cases w with
    | nothing => exact h
    | register rd v => exact congrArg (·.apply (.register rd v)) h
    | memory i v => exact congrArg (·.apply (.memory i v)) h
  signals c h := congrArg (fun m => { m with signals := c }) h
  pc a h := congrArg (fun m => { m with pc := a }) h
  phase x h := congrArg (fun m => { m with phase := x }) h
  down h := congrArg (fun m => { m with running := false }) h
  record text kind h := congrArg (·.record text kind) h

theorem Echoes.warnLimit (h : Echoes p q) (limit limit' : Int) :
    Echoes (p.warnLimit limit) (q.warnLimit limit') :=
  congrArg (fun m => { m with notices := (p.warnLimit limit).notices }) h

theorem runLoop_split (h : runLoop limit left first m = (.ok reason, m₁))
    (hr : reason = .breakpoint ∨ reason = .timeout) (hp : Echoes p m) (hb : p.breakpoints = [])
    (limit₁ limit₂ : Int) (first₁ first₂ : Bool) (j : Nat) :
    let rest := runLoop limit₁ j first₁ m₁.dropBreakpoints
    let whole := runLoop limit₂ ((loopTrail left first m).length + j) first₂ p
    whole.1 = rest.1 ∧ Echoes whole.2 rest.2 := by
  have hpaused : ∀ {p m₁ : Machine}, Echoes p m₁ → p.breakpoints = [] → ∀ first₂ : Bool,
      let rest := runLoop limit₁ j first₁ m₁.dropBreakpoints
      let whole := runLoop limit₂ (0 + j) first₂ p
      whole.1 = rest.1 ∧ Echoes whole.2 rest.2 := fun hp hb _ => by
    rw [Nat.zero_add]
    exact stepCongruence_echoes.runLoop (·.warnLimit limit₂ limit₁) hp hb rfl
  induction left generalizing m p first first₂ with
  | zero =>
    unfold runLoop at h
    split at h
    · cases h
      simp at hr
    · cases h
      have hp' : Echoes p (m.warnLimit limit) := hp
      exact hpaused hp' hb first₂
  | succ left ih =>
    cases hf : m.finished with
    | true =>
      rw [runLoop_of_finished hf] at h
      cases h
      simp at hr
    | false =>
      rw [runLoop_succ, hf, if_neg Bool.false_ne_true] at h
      simp only [loopTrail, hf, Bool.false_eq_true, ↓reduceIte]
      split at h
      · next hstop =>
        cases h
        rw [if_pos hstop]
        exact hpaused hp hb first₂
      · next hgo =>
        -- The first run takes a step, and so does the whole one.
        obtain ⟨r, m', hs, ⟨-, rfl, -⟩ | ⟨hh, h⟩⟩ := loopStride_eq_ok.1 h
        · simp at hr
        obtain ⟨hanswer, hafter⟩ := stepCongruence_echoes.step hp
        rw [hs] at hanswer hafter
        have hs' : p.step = (.ok r, p.step.2) := Prod.ext hanswer rfl
        have hh' : p.step.2.halted = false := by
          rwa [halted, (stepCongruence_echoes.alike hafter).phase, ← halted]
        have hf' := (stepCongruence_echoes.alike hp).finished_eq.trans hf
        rw [if_neg hgo, hs]
        dsimp only
        rw [hh, if_neg Bool.false_ne_true, List.length_cons, Nat.add_right_comm,
          runLoop_of_going hf' hb, loopStride_of_step hs' hh']
        exact ih h hafter (p.breakpoints_step.trans hb) false

/-- A run that has stopped at a breakpoint or at its limit is only paused. Without breakpoints, to
go on for `j` steps comes to the same end and to the same machine as a single run from the start
that has as many steps more, escapes included. Only the notices tell the two apart. -/
theorem runThrough_split {limit : Option Int} (h : m.runThrough limit = (.ok reason, m₁))
    (hr : reason = .breakpoint ∨ reason = .timeout) (j : Nat) :
    let k := (loopTrail (limit.getD m.settings.maxSteps).toNat true m).length
    let rest := m₁.dropBreakpoints.runThrough (some j)
    let whole := m.dropBreakpoints.runThrough (some ((k + j : Nat) : Int))
    rest.1 = whole.1 ∧ { rest.2 with notices := whole.2.notices } = whole.2 ∧
      m₁.steps = m.steps + k := by
  intro k rest whole
  obtain ⟨hanswer, hafter⟩ := runLoop_split h hr (p := m.dropBreakpoints) rfl rfl j (k + j : Nat)
    true true j
  have hrest : rest.2.breakpoints = [] := breakpoints_runLoop _ _ true m₁.dropBreakpoints
  have hwhole : whole.2.breakpoints = [] := breakpoints_runLoop _ _ true m.dropBreakpoints
  have hsame : whole.2
      = { rest.2 with notices := whole.2.notices, breakpoints := whole.2.breakpoints } := hafter
  rw [hwhole, ← hrest] at hsame
  exact ⟨hanswer.symm, hsame.symm, steps_of_runLoop h⟩

theorem runThrough_split_breakpoint :
    ∃ m m₁, create {} = .ok m ∧
      let loaded := (m.load "addi x1, x0, 7\nnop\nbeq x0, x0, 0".toList).2.setBreakpoint 4
      loaded.runThrough (some 5) = (.ok .breakpoint, m₁) ∧ m₁.steps = 1 ∧
        (m₁.dropBreakpoints.runThrough (some 2)).1 = .ok .halt ∧
        (loaded.dropBreakpoints.runThrough (some 3)).1 = .ok .halt ∧
        { (m₁.dropBreakpoints.runThrough (some 2)).2 with
          notices := (loaded.dropBreakpoints.runThrough (some 3)).2.notices }
          = (loaded.dropBreakpoints.runThrough (some 3)).2 := by
  obtain ⟨m, hm⟩ : ∃ m, create {} = .ok m := ⟨_, rfl⟩
  let loaded := (m.load "addi x1, x0, 7\nnop\nbeq x0, x0, 0".toList).2.setBreakpoint 4
  obtain ⟨m₁, hrun, hk, hrest⟩ : ∃ m₁, loaded.runThrough (some 5) = (.ok .breakpoint, m₁) ∧
      (loopTrail 5 true loaded).length = 1 ∧
      (m₁.dropBreakpoints.runThrough (some 2)).1 = .ok .halt := by
    cases hm
    exact ⟨_, rfl, rfl, rfl⟩
  have hzero : loaded.steps = 0 := rfl
  obtain ⟨hanswer, hsame, hsteps⟩ := runThrough_split hrun (.inl rfl) 2
  have hlimit : ((some 5 : Option Int).getD loaded.settings.maxSteps).toNat = 5 := rfl
  rw [hlimit, hk] at hanswer hsame hsteps
  refine ⟨m, m₁, hm, hrun, ?_, hrest, hanswer.symm.trans hrest, hsame⟩
  rw [hsteps, hzero]

end Machine

end Datapath
