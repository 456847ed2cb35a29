import Datapath.Machine.Plan

/-! Steps and runs. A fault costs its step and nothing else, and an escape leaves the machine in the
middle of the step. A synchronous run goes on to its end. A paced run pauses after every step, and
while it sleeps anything may happen to the machine; when it wakes up it first looks whether it is
still the run that is going on. -/

set_option autoImplicit false

namespace Datapath

structure StepReport where
  pc : Int
  registers : Registers
  memory : Array Int
  lastRegister : Option (Fin 32)
  lastMemory : Option Nat
  signals : ControlLines
  message : String
  phase : Phase
  source : Option Text
  fault : Option String

def StepReport.index (r : StepReport) : Int := r.pc / 4

namespace Machine

def report (m : Machine) (message : String) (fault : Option String) : StepReport where
  pc := m.pc
  registers := m.registers
  memory := m.memory.words
  lastRegister := m.lastRegister
  lastMemory := m.lastMemory
  signals := m.signals
  message := message
  phase := m.phase
  source := m.current.map (·.raw)
  fault := fault

/-- Stores what a plan stores. Register zero takes no word, so it is not reported as changed. -/
def apply (m : Machine) : Write → Machine
  | .nothing => m
  | .register rd v =>
    { m with
      registers := m.registers.set rd v
      lastRegister := if rd.val = 0 then none else some rd }
  | .memory i v => { m with memory := m.memory.store i v, lastMemory := some i }

def settle (m : Machine) : Machine :=
  { m with phase := if m.finished then .finished else .ready }

def advance (m : Machine) (pc : Int) (message kind : String) (fault : Option String) :
    StepReport × Machine :=
  let m := ({ m with pc }.record message kind).settle
  (m.report message fault, m)

def enter (m : Machine) (line : Slot) : Machine :=
  { m with phase := .executing, current := some line, steps := m.steps + 1 }

def execute (m : Machine) (line : Slot) (i : Instruction) :
    Except Escape StepReport × Machine :=
  match i.plan m.registers m.memory m.pc with
  | .error (.escape e) => (.error e, m)
  | .error (.fault f) =>
    match f.message with
    | .error e => (.error (.limit e), m)
    | .ok text =>
      let message := s!"Error at PC={Decimal.shown m.pc} ({String.ofList line.raw}): {text}"
      let (r, m) := { m with signals := .idle }.advance (m.pc + 4) message TraceEntry.error f.name
      (.ok r, m)
  | .ok p =>
    let m := m.apply p.write
    match p.message with
    | .error e => (.error (.limit e), m)
    | .ok message =>
      let m := { m with signals := p.signals }
      if p.halts then
        let m := { m with phase := .halted, running := false }.record message TraceEntry.success
        (.ok (m.report message none), m)
      else
        let (r, m) := m.advance p.nextPc message TraceEntry.success none
        (.ok r, m)

def step (m : Machine) : Except Escape StepReport × Machine :=
  let m := { m with lastRegister := none, lastMemory := none }
  if m.finished then
    let message := "Program finished"
    let m := { m with phase := .finished, running := false }.record message TraceEntry.error
    (.ok (m.report message none), m)
  else match m.fetch with
    | none => (.error .noLine, { m with phase := .executing })
    | some line =>
      let m := m.enter line
      match line.parsed with
      | none =>
        let message := s!"PC={Decimal.shown m.pc}: empty instruction skipped"
        let (r, m) := { m with signals := .idle }.advance (m.pc + 4) message TraceEntry.info none
        (.ok r, m)
      | some i => m.execute line i

def stepMany (m : Machine) : Nat → Except Escape (List StepReport) × Machine
  | 0 => (.ok [], m)
  | n + 1 =>
    match m.step with
    | (.error e, m) => (.error e, m)
    | (.ok r, m) =>
      let (rs, m) := m.stepMany n
      ((r :: ·) <$> rs, m)

end Machine

/-- A run that sleeps. `count` is the number of steps that it has made. -/
structure Run where
  generation : Nat
  delay : Int
  limit : Int
  count : Nat
  deriving DecidableEq, Repr

inductive Progress where
  | asleep (run : Run)
  | ended (reason : RunEnd)
  deriving DecidableEq, Repr

namespace Run

/-- The delays whose seconds exceed every floating-point number of double precision. -/
def unsleepable (delay : Int) : Bool := 1000 * (1 <<< 1024 - 1 <<< 970) ≤ delay.natAbs

end Run

namespace Machine

def goesOn (m : Machine) (r : Run) : Bool := m.running && r.generation = m.generation

/-- The end of a run clears the running flag, unless a newer run or a reset has taken over. -/
def finish (m : Machine) (r : Run) (reason : RunEnd) : Machine :=
  if r.generation = m.generation then
    let m := { m with running := false }
    if reason = .finished then
      { m with phase := .finished }.record "Program finished" TraceEntry.success
    else m
  else m

def endRun (m : Machine) (r : Run) (reason : RunEnd) : Except Escape Progress × Machine :=
  (.ok (.ended reason), m.finish r reason)

def warnLimit (m : Machine) (limit : Int) : Machine :=
  m.notice .warning
    s!"Step limit ({Decimal.shown limit}) reached at PC={Decimal.shown m.pc}"

/-- The part of a run from one sleep to the next one, or to its end. -/
def resume (m : Machine) (r : Run) : Except Escape Progress × Machine :=
  if !m.goesOn r then m.endRun r .stopped
  else if m.finished then m.endRun r .finished
  else if r.count > 0 ∧ m.pc ∈ m.breakpoints then
    (m.record s!"Breakpoint at PC={Decimal.shown m.pc}" TraceEntry.info).endRun r .breakpoint
  else if (r.count : Int) ≥ r.limit then (m.warnLimit r.limit).endRun r .timeout
  else
    let r := { r with count := r.count + 1 }
    match m.step with
    | (.error e, m) => (.error e, m)
    | (.ok _, m) =>
      if m.halted then m.endRun r .halt
      else if Run.unsleepable r.delay then (.error .delay, m)
      else (.ok (.asleep r), m)

def announce (m : Machine) : Machine :=
  { m with running := true, generation := m.generation + 1 }.record
    "Running program..." TraceEntry.success

def start (m : Machine) (delay limit : Option Int) : Except Escape Progress × Machine :=
  if m.running then (.ok (.ended .stopped), m.stop)
  else
    let r : Run := ⟨m.generation + 1, delay.getD m.delay, limit.getD m.settings.maxSteps, 0⟩
    m.announce.resume r

def resumeAll (m : Machine) (r : Run) (sleeps : Nat) : Nat → Nat × Except Escape Progress × Machine
  | 0 => (sleeps, .ok (.asleep r), m)
  | fuel + 1 =>
    match m.resume r with
    | (.ok (.asleep r), m) => m.resumeAll r (sleeps + 1) fuel
    | result => (sleeps, result)

/-- A paced run that nothing interrupts, with the number of its sleeps. A run makes at most as many
steps as its limit allows, so it sleeps no more often. -/
def runPaced (m : Machine) (delay limit : Option Int) : Nat × Except Escape Progress × Machine :=
  match m.start delay limit with
  | (.ok (.asleep r), m) => m.resumeAll r 1 r.limit.toNat
  | result => (0, result)

/-- The loop of a synchronous run with `left` steps to go; a breakpoint does not count before the
first step. -/
def runLoop (limit : Int) : Nat → Bool → Machine → Except Escape RunEnd × Machine
  | 0, _, m =>
    if m.finished then (.ok .finished, { m with phase := .finished })
    else (.ok .timeout, m.warnLimit limit)
  | left + 1, first, m =>
    if m.finished then (.ok .finished, { m with phase := .finished })
    else if !first ∧ m.pc ∈ m.breakpoints then (.ok .breakpoint, m)
    else match m.step with
      | (.error e, m) => (.error e, m)
      | (.ok _, m) => if m.halted then (.ok .halt, m) else runLoop limit left false m

def runThrough (m : Machine) (limit : Option Int) : Except Escape RunEnd × Machine :=
  let limit := limit.getD m.settings.maxSteps
  runLoop limit limit.toNat true m

end Machine

end Datapath
