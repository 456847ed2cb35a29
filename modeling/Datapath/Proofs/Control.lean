import Datapath.Proofs.Phase

/-! Which run goes on is decided by the running flag and by the generation. A stale run changes
nothing when it wakes up, and of the other commands only those that cancel runs change either. -/

set_option autoImplicit false

namespace Datapath

namespace Machine

/-- The run of a generation goes on. -/
def Current (m : Machine) (generation : Nat) : Prop :=
  m.running = true ∧ generation = m.generation

variable {m : Machine} {r : Run}

theorem goesOn_iff : m.goesOn r = true ↔ m.Current r.generation := by
  simp [goesOn, Current]

theorem current_congr {m' : Machine} {g : Nat} (hr : m'.running = m.running)
    (hg : m'.generation = m.generation) : m'.Current g ↔ m.Current g := by
  rw [Current, Current, hr, hg]

theorem not_current {g : Nat} (h : m.running = false) : ¬ m.Current g := by
  simp [Current, h]

theorem running_stop (m : Machine) : m.stop.running = false := by
  unfold stop
  split
  · rfl
  · next h => exact Bool.eq_false_iff.2 h

theorem generation_finish (m : Machine) (r : Run) (reason : RunEnd) :
    (m.finish r reason).generation = m.generation := by
  unfold finish
  split
  · dsimp only
    split <;> rfl
  · rfl

theorem running_finish (h : r.generation = m.generation) (reason : RunEnd) :
    (m.finish r reason).running = false := by
  unfold finish
  rw [if_pos h]
  dsimp only
  split <;> rfl

theorem finish_stale (h : ¬ m.Current r.generation) : m.finish r .stopped = m := by
  unfold finish
  split
  · next hg =>
    have hr : m.running = false := Bool.eq_false_iff.2 fun hr => h ⟨hr, hg⟩
    rw [← hr]
    rfl
  · rfl

theorem not_halted_of_escape {e : Escape} {m' : Machine} (h : m.step = (.error e, m')) :
    m'.halted = false := by
  have hs := m.stepEnd_step
  rw [h] at hs
  cases hs with
  | lost => rfl
  | escape w hf => rw [halted, phase_apply]; rfl

def stride (m : Machine) (r : Run) : Except Escape Progress × Machine :=
  match m.step with
  | (.error e, m) => (.error e, m)
  | (.ok _, m) =>
    if m.halted then m.endRun r .halt
    else if Run.unsleepable r.delay then (.error .delay, m)
    else (.ok (.asleep r), m)

theorem resume_of_current (h : m.Current r.generation) :
    m.resume r = if m.finished then m.endRun r .finished
      else if r.count > 0 ∧ m.pc ∈ m.breakpoints then
        (m.record s!"Breakpoint at PC={Decimal.shown m.pc}" TraceEntry.info).endRun r .breakpoint
      else if (r.count : Int) ≥ r.limit then (m.warnLimit r.limit).endRun r .timeout
      else m.stride { r with count := r.count + 1 } := by
  rw [resume, goesOn_iff.2 h]
  rfl

theorem resume_of_not_current (h : ¬ m.Current r.generation) :
    m.resume r = (.ok (.ended .stopped), m) := by
  rw [← goesOn_iff, Bool.not_eq_true] at h
  rw [resume, h, endRun, finish_stale (by simp [← goesOn_iff, h])]
  rfl

/-- A run takes a step when it goes on, the program is not over, and neither a breakpoint nor the
limit holds it up. A breakpoint does not hold up the first step. -/
structure Strides (m : Machine) (r : Run) : Prop where
  current : m.Current r.generation
  going : m.finished = false
  free : r.count = 0 ∨ m.pc ∉ m.breakpoints
  lt : (r.count : Int) < r.limit

inductive ResumeCase (m : Machine) (r : Run) :
    List Machine → Except Escape Progress × Machine → Prop
  | stale : ¬ m.Current r.generation → ResumeCase m r [] (.ok (.ended .stopped), m)
  | finished : m.Current r.generation → m.finished = true →
      ResumeCase m r [] (m.endRun r .finished)
  | breakpoint : m.Current r.generation → 0 < r.count → m.pc ∈ m.breakpoints →
      ResumeCase m r [] ((m.record s!"Breakpoint at PC={Decimal.shown m.pc}"
        TraceEntry.info).endRun r .breakpoint)
  | timeout : m.Current r.generation → m.finished = false → r.limit ≤ r.count →
      ResumeCase m r [] ((m.warnLimit r.limit).endRun r .timeout)
  | halt : m.Strides r → m.step.2.halted = true →
      ResumeCase m r [m] (m.step.2.endRun { r with count := r.count + 1 } .halt)
  | asleep : m.Strides r → m.step.2.halted = false →
      ResumeCase m r [m] (.ok (.asleep { r with count := r.count + 1 }), m.step.2)
  | escape {e : Escape} : m.Strides r → m.step.2.halted = false →
      ResumeCase m r [m] (.error e, m.step.2)

theorem resumeCase_stride (h : m.Strides r) :
    ResumeCase m r [m] (m.stride { r with count := r.count + 1 }) := by
  unfold stride
  rcases hs : m.step with ⟨e | _, m'⟩
  · obtain rfl : m.step.2 = m' := congrArg Prod.snd hs
    exact .escape h (not_halted_of_escape hs)
  · obtain rfl : m.step.2 = m' := congrArg Prod.snd hs
    dsimp only
    split
    · next hh => exact .halt h hh
    · next hh =>
      rw [Bool.not_eq_true] at hh
      split
      · exact .escape h hh
      · exact .asleep h hh

theorem resumeCase_resume (m : Machine) (r : Run) :
    ResumeCase m r (m.resumeTrail r) (m.resume r) := by
  unfold resumeTrail
  by_cases hc : m.Current r.generation
  · rw [goesOn_iff.2 hc, resume_of_current hc]
    simp only [Bool.not_true, Bool.false_eq_true, ↓reduceIte]
    split
    · next hf => exact .finished hc hf
    · next hf =>
      rw [Bool.not_eq_true] at hf
      split
      · next hb => exact .breakpoint hc hb.1 hb.2
      · next hb =>
        split
        · next hl => exact .timeout hc hf hl
        · next hl =>
          refine resumeCase_stride ⟨hc, hf, ?_, Int.not_le.1 hl⟩
          rw [not_and_or, Nat.not_lt, Nat.le_zero] at hb
          exact hb
  · rw [resume_of_not_current hc, Bool.eq_false_iff.2 (mt goesOn_iff.1 hc)]
    exact .stale hc

/-- A stale run answers that it was stopped. Another one ends, or it takes a step and sleeps again,
or it escapes. -/
inductive ResumeEnd (m : Machine) (r : Run) : Except Escape Progress × Machine → Prop
  | stale : ¬ m.Current r.generation → ResumeEnd m r (.ok (.ended .stopped), m)
  | ended {reason : RunEnd} {m' : Machine} : m.Current r.generation → reason ≠ .stopped →
      m'.running = false → m'.generation = m.generation → ResumeEnd m r (.ok (.ended reason), m')
  | asleep : m.Current r.generation → m.resumeTrail r = [m] → m.endsRuns = false →
      ResumeEnd m r (.ok (.asleep { r with count := r.count + 1 }), m.step.2)
  | escape {e : Escape} : m.Current r.generation → m.resumeTrail r = [m] → m.endsRuns = false →
      ResumeEnd m r (.error e, m.step.2)

theorem resumeEnd_endRun {m' : Machine} {r' : Run} {reason : RunEnd} (h : m.Current r.generation)
    (hr : reason ≠ .stopped) (hr' : r'.generation = r.generation)
    (hg : m'.generation = m.generation) : ResumeEnd m r (m'.endRun r' reason) :=
  .ended h hr (running_finish (hr'.trans (h.2.trans hg.symm)) reason)
    ((generation_finish m' r' reason).trans hg)

theorem resumeEnd_resume (m : Machine) (r : Run) : ResumeEnd m r (m.resume r) := by
  have h := m.resumeCase_resume r
  have hends : m.finished = false → m.step.2.halted = false → m.endsRuns = false := by
    intro hf hh
    rw [endsRuns, hf, hh]
    rfl
  generalize ht : m.resumeTrail r = ms at h
  generalize m.resume r = x at h ⊢
  cases h with
  | stale hc => exact .stale hc
  | finished hc => exact resumeEnd_endRun hc (by decide) rfl rfl
  | breakpoint hc => exact resumeEnd_endRun hc (by decide) rfl rfl
  | timeout hc => exact resumeEnd_endRun hc (by decide) rfl rfl
  | halt hs => exact resumeEnd_endRun hs.current (by decide) rfl m.generation_step
  | asleep hs hh => exact .asleep hs.current ht (hends hs.going hh)
  | escape hs hh => exact .escape hs.current ht (hends hs.going hh)

theorem resumeTrail_stale (h : ¬ m.Current r.generation) : m.resumeTrail r = [] := by
  rw [← goesOn_iff, Bool.not_eq_true] at h
  simp [resumeTrail, h]

theorem generation_resume (m : Machine) (r : Run) : (m.resume r).2.generation = m.generation := by
  have h := m.resumeEnd_resume r
  generalize m.resume r = x at h ⊢
  cases h with
  | stale => rfl
  | ended _ _ _ hg => exact hg
  | asleep => exact m.generation_step
  | escape => exact m.generation_step

theorem current_step (hc : m.Current r.generation) (he : m.endsRuns = false) :
    m.step.2.Current r.generation := by
  refine ⟨?_, hc.2.trans m.generation_step.symm⟩
  rw [running_step, hc.1, he]
  rfl

theorem Path.control {m' : Machine} {ms : List Machine} (h : Path Edit m ms m') :
    m'.generation = m.generation ∧ m'.running = (m.running && !ms.any endsRuns) := by
  induction h with
  | nil m => simp
  | @step m m' ms _ ih =>
    obtain ⟨hg, hr⟩ := ih
    refine ⟨hg.trans m.generation_step, ?_⟩
    rw [hr, running_step, List.any_cons, Bool.not_or, Bool.and_assoc]
  | @move m m₁ m' ms he _ ih =>
    obtain ⟨hg, hr⟩ := ih
    have hc : m₁.generation = m.generation ∧ m₁.running = m.running := by
      cases he <;> exact ⟨rfl, rfl⟩
    rw [hg, hr, hc.1, hc.2]
    exact ⟨rfl, rfl⟩

end Machine

def Command.DrivesRun : Command → Prop
  | .start .. | .resume _ => True
  | _ => False

namespace Session

open Machine

/-- What ends the runs that were started before: a stop that takes effect, a reset, a load, another
start, a step that halts, and a step of a program that is over. -/
inductive Cancels (s : Session) : Command → Prop
  | stop : s.machine.running = true → Cancels s .stop
  | reset : Cancels s .reset
  | load {source : Text} {p : Program} : Program.load source = .ok p → Cancels s (.load source)
  | install (p : Program) : Cancels s (.install p)
  | start (name : Text) (delay limit : Option Int) : Cancels s (.start name delay limit)
  | halt {c : Command} {m : Machine} : m ∈ s.stepped c → m.step.2.halted = true → Cancels s c
  | past {c : Command} {m : Machine} : m ∈ s.stepped c → m.finished = true → Cancels s c

theorem cancels_iff_of_not_steers {s : Session} {c : Command} (hc : ¬ c.Steers) :
    s.Cancels c ↔ (s.stepped c).any endsRuns = true := by
  simp only [List.any_eq_true, endsRuns, Bool.or_eq_true]
  constructor
  · intro h
    cases h with
    | halt hm hh => exact ⟨_, hm, .inr hh⟩
    | past hm hf => exact ⟨_, hm, .inl hf⟩
    | _ => exact absurd trivial hc
  · rintro ⟨m, hm, hf | hh⟩
    · exact .past hm hf
    · exact .halt hm hh

/-- A command other than a start and a resume puts the flag down if it cancels runs, and changes
nothing about runs if it does not. -/
theorem control_perform {s : Session} {c : Command} (hc : ¬ c.DrivesRun) :
    (s.Cancels c → (s.perform c).2.machine.running = false) ∧
      (¬ s.Cancels c → (s.perform c).2.machine.generation = s.machine.generation ∧
        (s.perform c).2.machine.running = s.machine.running) := by
  by_cases hs : c.Steers
  · cases c with
    | load source =>
      simp only [perform, Machine.load]
      cases hp : Program.load source with
      | error e =>
        refine ⟨fun h => ?_, fun _ => ⟨rfl, rfl⟩⟩
        cases h with
        | load hp' => cases hp.symm.trans hp'
        | halt hm => cases hm
        | past hm => cases hm
      | ok p => exact ⟨fun _ => rfl, fun h => absurd (.load hp) h⟩
    | install p => exact ⟨fun _ => rfl, fun h => absurd (.install p) h⟩
    | reset => exact ⟨fun _ => rfl, fun h => absurd .reset h⟩
    | stop =>
      refine ⟨fun _ => running_stop _, fun h => ?_⟩
      have hr : ¬ s.machine.running = true := fun hr => h (.stop hr)
      have hm : s.machine.stop = s.machine := if_neg hr
      exact ⟨congrArg Machine.generation hm, congrArg Machine.running hm⟩
    | start | resume => exact absurd trivial hc
    | _ => exact absurd hs id
  · obtain ⟨hg, hr⟩ := (s.path_edit hs).control
    rw [cancels_iff_of_not_steers hs, hr, hg]
    simp +contextual

end Session

end Datapath
