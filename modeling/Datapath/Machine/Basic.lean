import Datapath.Asm.Program
import Datapath.Machine.DataMemory
import Datapath.Machine.Trace

set_option autoImplicit false

namespace Datapath

structure Settings where
  memoryWords : Int := 64
  executionDelay : Int := 2000
  logCapacity : Int := 50
  maxSteps : Int := 100000
  deriving DecidableEq, Repr

inductive SettingsError where
  | unknownProfile (name : Text)
  | unknownSetting (name : Text)
  deriving DecidableEq, Repr

namespace Settings

def profiles : List (Text × Settings) :=
  [("default".toList, {}),
   ("classroom".toList, { executionDelay := 1000 }),
   ("fast".toList, { executionDelay := 0 }),
   ("large".toList, { memoryWords := 256, executionDelay := 0 })]

def profileNames : List Text := profiles.map (·.1)

def profile (name : Text) : Except SettingsError Settings :=
  match profiles.lookup name with
  | some c => .ok c
  | none => .error (.unknownProfile name)

def set (c : Settings) (name : Text) (v : Int) : Except SettingsError Settings :=
  if name = "memory_words".toList then .ok { c with memoryWords := v }
  else if name = "execution_delay_ms".toList then .ok { c with executionDelay := v }
  else if name = "log_capacity".toList then .ok { c with logCapacity := v }
  else if name = "max_steps".toList then .ok { c with maxSteps := v }
  else .error (.unknownSetting name)

def override (c : Settings) (changes : List (Text × Option Int)) : Except SettingsError Settings :=
  changes.foldlM (fun c (name, v?) => match v? with | none => .ok c | some v => c.set name v) c

end Settings

def SettingsError.message : SettingsError → String
  | .unknownProfile name =>
    let choices := Text.join ", ".toList Settings.profileNames
    s!"Unknown profile '{String.ofList name}' (choose from {String.ofList choices})"
  | .unknownSetting name => String.ofList name

inductive Phase where
  | ready
  | executing
  | halted
  | finished
  deriving DecidableEq, Repr

def Phase.name : Phase → String
  | .ready => "READY"
  | .executing => "EXECUTING"
  | .halted => "HALTED"
  | .finished => "FINISHED"

inductive RunEnd where
  | finished
  | halt
  | breakpoint
  | stopped
  | timeout
  deriving DecidableEq, Repr

def RunEnd.name : RunEnd → String
  | .finished => "FINISHED"
  | .halt => "HALT"
  | .breakpoint => "BREAK"
  | .stopped => "STOPPED"
  | .timeout => "TIMEOUT"

/-- The control lines of one instruction. `aluResult` is the output of the arithmetic unit, or the
address that it computed. -/
structure ControlLines where
  kind : Option ExecClass := none
  regWrite : Bool := false
  aluSrc : Bool := false
  memRead : Bool := false
  memWrite : Bool := false
  branch : Bool := false
  branchTaken : Bool := false
  aluOp : Option String := none
  aluResult : Int := 0
  immediate : Int := 0
  deriving DecidableEq, Repr

def ControlLines.idle : ControlLines := {}

def ControlLines.named (s : ControlLines) : List (String × Bool) :=
  [("reg_write", s.regWrite), ("alu_src", s.aluSrc), ("mem_read", s.memRead),
   ("mem_write", s.memWrite), ("branch", s.branch), ("branch_taken", s.branchTaken)]

def ControlLines.high (s : ControlLines) : List String :=
  (s.named.filter (·.2)).map (·.1)

/-- `generation` counts the starts of runs and the resets; a run that belongs to an older
generation is over. The latest notice comes first. -/
structure Machine where
  settings : Settings
  registers : Registers
  memory : DataMemory
  program : Program
  trace : Trace
  pc : Int
  running : Bool
  phase : Phase
  signals : ControlLines
  current : Option Slot
  lastRegister : Option (Fin 32)
  lastMemory : Option Nat
  steps : Nat
  delay : Int
  breakpoints : List Int
  generation : Nat
  notices : List Notice

/-- What a machine takes from the system it works on: the number of words that the system has no
space for, and the time at which each entry of the log is made. Without a clock there is no time. -/
structure Host where
  space : Int := DataMemory.indexLimit
  clock : Nat → String := fun _ => ""

/-- There is space for so many words. -/
def Host.Holds (host : Host) (words : Int) : Prop :=
  words < DataMemory.indexLimit ∧ words < host.space

inductive BuildError where
  | memory : MemorySizeError → BuildError
  | capacity : CapacityError → BuildError
  deriving DecidableEq, Repr

structure DelayError where
  delay : Int
  deriving DecidableEq, Repr

def DelayError.message (e : DelayError) : Except Decimal.LimitError String :=
  (s!"Execution delay must be >= 0 ms, got {·}") <$> Decimal.write e.delay

def BuildError.message : BuildError → Except Decimal.LimitError String
  | .memory (.notPositive size) =>
    ("Memory size must be positive, got " ++ ·) <$> Decimal.write size
  | .memory .tooLarge => .ok ""
  | .memory .beyondIndices => .ok "cannot fit 'int' into an index-sized integer"
  | .capacity .negative => .ok "maxlen must be non-negative"
  | .capacity .beyondIndices => .ok "cannot fit 'int' into an index-sized integer"

namespace Machine

/-- A new machine has no program; its memory is made before its log. -/
def create (c : Settings) (host : Host := {}) : Except BuildError Machine := do
  let memory ← (DataMemory.create c.memoryWords host.space).mapError .memory
  let trace ← (Trace.create c.logCapacity host.clock).mapError .capacity
  pure {
    settings := c
    registers := .zero
    memory
    program := .empty
    trace
    pc := 0
    running := false
    phase := .ready
    signals := .idle
    current := none
    lastRegister := none
    lastMemory := none
    steps := 0
    delay := c.executionDelay
    breakpoints := []
    generation := 0
    notices := [] }

def notice (m : Machine) (level : Level) (message : String) : Machine :=
  { m with notices := ⟨level, .machine, message⟩ :: m.notices }

/-- Adds an entry to the log and tells the observer, as a warning if it is an error. -/
def record (m : Machine) (message kind : String) : Machine :=
  let m := { m with trace := m.trace.add ⟨message, kind⟩ }
  m.notice (if kind = TraceEntry.error then .warning else .info) message

def fetch (m : Machine) : Option Slot := m.program.at? (m.pc / 4)

def pointed (m : Machine) : Option Slot := m.program.line? (m.pc / 4)

def finished (m : Machine) : Bool := m.pc / 4 ≥ m.program.length

def halted (m : Machine) : Bool := m.phase = .halted

/-- Everything but the settings, the watchpoints, the breakpoints and the log starts anew. -/
def reset (m : Machine) : Machine :=
  { m with
    running := false
    generation := m.generation + 1
    pc := 0
    registers := .zero
    memory := m.memory.reset
    signals := .idle
    current := none
    lastRegister := none
    lastMemory := none
    steps := 0
    phase := .ready }.record "Simulator reset" TraceEntry.success

def install (m : Machine) (p : Program) : Machine :=
  { m with program := p }.reset.record
    s!"Program loaded: {Decimal.shown p.length} instructions" TraceEntry.success

/-- A source that cannot be read changes nothing. -/
def load (m : Machine) (source : Text) : Except LoadError Unit × Machine :=
  match Program.load source with
  | .ok p => (.ok (), m.install p)
  | .error e => (.error e, m)

def setDelay (m : Machine) (ms : Int) : Except DelayError Unit × Machine :=
  if ms < 0 then (.error ⟨ms⟩, m)
  else (.ok (), { m with delay := ms }.notice .debug
    s!"Execution delay set to {Decimal.shown ms} ms")

def stop (m : Machine) : Machine :=
  if m.running then { m with running := false }.record "Execution stopped" TraceEntry.error else m

def setBreakpoint (m : Machine) (pc : Int) : Machine :=
  { m with breakpoints := m.breakpoints.insert pc }

def dropBreakpoint (m : Machine) (pc : Int) : Machine :=
  { m with breakpoints := m.breakpoints.filter (· ≠ pc) }

def dropBreakpoints (m : Machine) : Machine := { m with breakpoints := [] }

def display (m : Machine) : String :=
  s!"PC={Decimal.shown m.pc} ({m.phase.name})\n{String.ofList (m.registers.rows 4)}"

end Machine

end Datapath
