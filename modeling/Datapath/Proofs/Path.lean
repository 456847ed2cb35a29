import Datapath.Machine.Session

/-! A command takes its machine along a path: steps, and changes of other kinds between them. What
every step and every change keeps is kept by every command. -/

set_option autoImplicit false

namespace Datapath

namespace Machine

inductive Edit : Machine → Machine → Prop
  | registers (m : Machine) (c : RegisterCommand) :
      Edit m { m with registers := (m.registers.perform c).2 }
  | memory (m : Machine) (c : MemoryCommand) : Edit m { m with memory := (m.memory.perform c).2 }
  | note (m : Machine) (trace : Trace) (notices : List Notice) (delay : Int)
      (breakpoints : List Int) : Edit m { m with trace, notices, delay, breakpoints }
  | close {m : Machine} : m.finished = true → Edit m { m with phase := .finished }

inductive Move : Machine → Machine → Prop
  | edit {m m' : Machine} : Edit m m' → Move m m'
  | stop (m : Machine) : Move m m.stop
  | reset (m : Machine) : Move m m.reset
  | install (m : Machine) (p : Program) : Move m (m.install p)
  | announce (m : Machine) : Move m m.announce
  | finish {m : Machine} (r : Run) {reason : RunEnd} :
      (reason = .finished → m.finished = true) → Move m (m.finish r reason)

/-- Changes of a kind that keep the watchpoints and the events of the memory. -/
def Unheard (R : Machine → Machine → Prop) (m m' : Machine) : Prop :=
  R m m' ∧ m'.memory.watched = m.memory.watched ∧ m'.memory.events = m.memory.events

/-- Steps, each from a machine of the list, with changes of a kind between them. -/
inductive Path (R : Machine → Machine → Prop) : Machine → List Machine → Machine → Prop
  | nil (m : Machine) : Path R m [] m
  | step {m m' : Machine} {ms : List Machine} : Path R m.step.2 ms m' → Path R m (m :: ms) m'
  | move {m m₁ m' : Machine} {ms : List Machine} : R m m₁ → Path R m₁ ms m' → Path R m ms m'

namespace Path

variable {R S : Machine → Machine → Prop} {m m' : Machine} {ms : List Machine}

theorem one (h : R m m') : Path R m [] m' := .move h (.nil m')

theorem mono (hRS : ∀ m m', R m m' → S m m') (h : Path R m ms m') : Path S m ms m' := by
  induction h with
  | nil m => exact .nil m
  | step _ ih => exact .step ih
  | move hr _ ih => exact .move (hRS _ _ hr) ih

theorem keeps {P : Machine → Prop} (hstep : ∀ m, P m → P m.step.2)
    (hmove : ∀ m m', R m m' → P m → P m') (h : Path R m ms m') (hm : P m) : P m' := by
  induction h with
  | nil => exact hm
  | step _ ih => exact ih (hstep _ hm)
  | move hr _ ih => exact ih (hmove _ _ hr hm)

theorem keeps_stepped {P : Machine → Prop} (hstep : ∀ m, P m → P m.step.2)
    (hmove : ∀ m m', R m m' → P m → P m') (h : Path R m ms m') (hm : P m) : ∀ p ∈ ms, P p := by
  induction h with
  | nil => exact fun p hp => nomatch hp
  | step _ ih =>
    intro p hp
    rcases List.mem_cons.1 hp with rfl | hp
    · exact hm
    · exact ih (hstep _ hm) p hp
  | move hr _ ih => exact ih (hmove _ _ hr hm)

end Path

def trail (m : Machine) : Nat → List Machine
  | 0 => []
  | n + 1 =>
    m :: match m.step with
      | (.error _, _) => []
      | (.ok _, m) => m.trail n

def loopTrail : Nat → Bool → Machine → List Machine
  | 0, _, _ => []
  | left + 1, first, m =>
    if m.finished then []
    else if !first ∧ m.pc ∈ m.breakpoints then []
    else m :: match m.step with
      | (.error _, _) => []
      | (.ok _, m) => if m.halted then [] else loopTrail left false m

def resumeTrail (m : Machine) (r : Run) : List Machine :=
  if !m.goesOn r then []
  else if m.finished then []
  else if r.count > 0 ∧ m.pc ∈ m.breakpoints then []
  else if (r.count : Int) ≥ r.limit then []
  else [m]

def newRun (m : Machine) (delay limit : Option Int) : Run :=
  ⟨m.generation + 1, delay.getD m.delay, limit.getD m.settings.maxSteps, 0⟩

def startTrail (m : Machine) (delay limit : Option Int) : List Machine :=
  if m.running then [] else m.announce.resumeTrail (m.newRun delay limit)

theorem path_stepMany {R : Machine → Machine → Prop} (m : Machine) (n : Nat) :
    Path R m (m.trail n) (m.stepMany n).2 := by
  induction n generalizing m with
  | zero => exact .nil m
  | succ n ih =>
    unfold trail stepMany
    refine .step ?_
    rcases m.step with ⟨_ | _, m'⟩
    · exact .nil m'
    · exact ih m'

theorem unheard_note (m : Machine) (trace : Trace) (notices : List Notice) (delay : Int)
    (breakpoints : List Int) :
    Unheard Edit m { m with trace, notices, delay, breakpoints } :=
  ⟨.note m trace notices delay breakpoints, rfl, rfl⟩

theorem unheard_close {m : Machine} (h : m.finished = true) :
    Unheard Edit m { m with phase := .finished } := ⟨.close h, rfl, rfl⟩

theorem Unheard.move {m m' : Machine} (h : Unheard Edit m m') : Unheard Move m m' :=
  ⟨.edit h.1, h.2⟩

theorem unheard_finish {m : Machine} (r : Run) {reason : RunEnd}
    (h : reason = .finished → m.finished = true) : Unheard Move m (m.finish r reason) := by
  refine ⟨.finish r h, ?_⟩
  unfold finish
  split
  · dsimp only
    split <;> exact ⟨rfl, rfl⟩
  · exact ⟨rfl, rfl⟩

theorem unheard_stop (m : Machine) : Unheard Move m m.stop := by
  refine ⟨.stop m, ?_⟩
  unfold stop
  split <;> exact ⟨rfl, rfl⟩

theorem unheard_runLoop (limit : Int) (left : Nat) (first : Bool) (m : Machine) :
    Path (Unheard Edit) m (loopTrail left first m) (runLoop limit left first m).2 := by
  induction left generalizing m first with
  | zero =>
    unfold loopTrail runLoop
    split
    · next h => exact .one (unheard_close h)
    · exact .one (unheard_note m m.trace _ m.delay m.breakpoints)
  | succ left ih =>
    unfold loopTrail runLoop
    split
    · next h => exact .one (unheard_close h)
    · split
      · exact .nil m
      · refine .step ?_
        rcases m.step with ⟨_ | _, m'⟩
        · exact .nil m'
        · dsimp only
          split
          · exact .nil m'
          · exact ih false m'

theorem path_runLoop (limit : Int) (left : Nat) (first : Bool) (m : Machine) :
    Path Edit m (loopTrail left first m) (runLoop limit left first m).2 :=
  (unheard_runLoop limit left first m).mono fun _ _ => And.left

theorem path_finish (m : Machine) (r : Run) {reason : RunEnd} (h : reason ≠ .finished) :
    Path (Unheard Move) m [] (m.finish r reason) :=
  .one (unheard_finish r fun he => absurd he h)

theorem unheard_resume (m : Machine) (r : Run) :
    Path (Unheard Move) m (m.resumeTrail r) (m.resume r).2 := by
  unfold resumeTrail resume
  split
  · exact path_finish m r (by decide)
  · split
    · next h => exact .one (unheard_finish r fun _ => h)
    · split
      · exact .move (unheard_note m _ _ m.delay m.breakpoints).move (path_finish _ r (by decide))
      · split
        · exact .move (unheard_note m m.trace _ m.delay m.breakpoints).move
            (path_finish _ r (by decide))
        · refine .step ?_
          rcases m.step with ⟨_ | _, m'⟩
          · exact .nil m'
          · dsimp only
            split
            · exact path_finish m' _ (by decide)
            · split <;> exact .nil m'

theorem unheard_start (m : Machine) (delay limit : Option Int) :
    Path (Unheard Move) m (m.startTrail delay limit) (m.start delay limit).2 := by
  unfold startTrail start
  split
  · exact .one (unheard_stop m)
  · exact .move ⟨.announce m, rfl, rfl⟩ (unheard_resume _ _)

end Machine

def Command.Steers : Command → Prop
  | .load _ | .install _ | .start .. | .resume _ | .stop | .reset => True
  | _ => False

namespace Session

open Machine

/-- The machines that a command steps from. -/
def stepped (s : Session) : Command → List Machine
  | .step => [s.machine]
  | .steps n => s.machine.trail n.toNat
  | .run limit => loopTrail (limit.getD s.machine.settings.maxSteps).toNat true s.machine
  | .start _ delay limit => s.machine.startTrail delay limit
  | .resume name =>
    match s.runs.lookup name with
    | some (some r) => s.machine.resumeTrail r
    | _ => []
  | _ => []

theorem machine_progressed (s : Session) (name : Text)
    (result : Except Escape Progress × Machine) :
    (s.progressed name result).2.machine = result.2 := by
  obtain ⟨_ | _ | _, m⟩ := result <;> rfl

theorem unheard_edit (s : Session) {c : Command} (hc : ¬ c.Steers) (hm : ∀ x, c ≠ .memory x) :
    Machine.Path (Unheard Edit) s.machine (s.stepped c) (s.perform c).2.machine := by
  cases c with
  | step => exact .step (.nil _)
  | steps n => exact path_stepMany s.machine n.toNat
  | run limit => exact unheard_runLoop _ _ _ s.machine
  | setDelay ms =>
    simp only [perform, setDelay]
    split
    · exact .nil _
    · exact .one (unheard_note _ _ _ _ _)
  | setBreakpoint pc => exact .one (unheard_note _ _ _ _ _)
  | dropBreakpoint pc => exact .one (unheard_note _ _ _ _ _)
  | dropBreakpoints => exact .one (unheard_note _ _ _ _ _)
  | registers c => exact .one ⟨.registers _ c, rfl, rfl⟩
  | memory c => exact absurd rfl (hm c)
  | trace c => exact .one (unheard_note _ _ _ _ _)
  | current | report | display | flags => exact .nil _
  | load | install | start | resume | stop | reset => exact absurd trivial hc

theorem path_edit (s : Session) {c : Command} (hc : ¬ c.Steers) :
    Machine.Path Edit s.machine (s.stepped c) (s.perform c).2.machine := by
  by_cases hm : ∃ x, c = .memory x
  · obtain ⟨x, rfl⟩ := hm
    exact .one (.memory _ x)
  · exact (s.unheard_edit hc (not_exists.1 hm)).mono fun _ _ => And.left

/-- Watchpoints hear of steps, and of commands that are about the memory itself. -/
theorem unheard_perform (s : Session) {c : Command} (hm : ∀ x, c ≠ .memory x) :
    Machine.Path (Unheard Move) s.machine (s.stepped c) (s.perform c).2.machine := by
  cases c with
  | load source =>
    simp only [perform, Machine.load]
    cases Program.load source with
    | error e => exact .nil _
    | ok p => exact .one ⟨.install _ p, rfl, rfl⟩
  | install p => exact .one ⟨.install _ p, rfl, rfl⟩
  | start name delay limit =>
    simp only [perform, machine_progressed]
    exact unheard_start _ delay limit
  | resume name =>
    simp only [stepped, perform]
    rcases s.runs.lookup name with _ | _ | r
    · exact .nil _
    · exact .nil _
    · simp only [machine_progressed]
      exact unheard_resume _ r
  | stop => exact .one (unheard_stop _)
  | reset => exact .one ⟨.reset _, rfl, rfl⟩
  | _ => exact (s.unheard_edit (by exact id) hm).mono fun _ _ => Unheard.move

theorem path_perform (s : Session) (c : Command) :
    Machine.Path Move s.machine (s.stepped c) (s.perform c).2.machine := by
  by_cases hm : ∃ x, c = .memory x
  · obtain ⟨x, rfl⟩ := hm
    exact .one (.edit (.memory _ x))
  · exact (s.unheard_perform (not_exists.1 hm)).mono fun _ _ => And.left

end Session

end Datapath
