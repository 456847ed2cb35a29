import Datapath.Machine.Run

/-! A session is a machine together with the paced runs that were started on it. Every command
answers, or fails, and the session goes on. -/

set_option autoImplicit false

namespace Datapath

inductive RegisterCommand where
  | read (index : Int)
  | write (index v : Int)
  | count
  | words
  | display (columns : Int)
  | reset

inductive MemoryCommand where
  | index (address : Int)
  | read (address : Int)
  | write (address v : Int)
  | at (index : Int)
  | size
  | preload (words : List Int) (index : Int)
  | watch (index : Int)
  | unwatch
  | words
  | dump (count : Option Int) (nonzeroOnly : Bool)
  | reset

inductive TraceCommand where
  | add (e : Remark)
  | entries
  | errors
  | last
  | count
  | text
  | clear

inductive Command where
  | load (source : Text)
  | install (p : Program)
  | step
  | steps (n : Int)
  | run (limit : Option Int)
  | start (name : Text) (delay limit : Option Int)
  | resume (name : Text)
  | stop
  | reset
  | setDelay (ms : Int)
  | setBreakpoint (pc : Int)
  | dropBreakpoint (pc : Int)
  | dropBreakpoints
  | current
  | report (message : String)
  | display
  | flags
  | registers (c : RegisterCommand)
  | memory (c : MemoryCommand)
  | trace (c : TraceCommand)

/-- What a command answers. -/
inductive Answer where
  | done
  | truth (b : Bool)
  | number (v : Int)
  | extent (words bytes : Nat)
  | text (t : Text)
  | registerWords (r : Registers)
  | memoryWords (m : Array Int)
  | entry (e : Option TraceEntry)
  | entries (es : List TraceEntry)
  | line (l : Option Slot)
  | report (r : StepReport)
  | reports (rs : List StepReport)
  | reason (r : RunEnd)
  | progress (p : Progress)
  | over
  | flags (finished halted : Bool)

/-- Why a command fails. -/
inductive Failure where
  | register (e : RegisterError)
  | memory (e : MemoryError)
  | noSuchWord
  | display (e : DisplayError)
  | delay (e : DelayError)
  | load (e : LoadError)
  | escape (e : Escape)
  | unknownRun (name : Text)

def Failure.message : Failure → Except Decimal.LimitError String
  | register e => e.message
  | memory e => e.message
  | noSuchWord => .ok "list index out of range"
  | display e => .ok e.message
  | delay e => e.message
  | load e => .ok e.message
  | escape e => .ok e.message
  | unknownRun name => .ok (String.ofList name)

namespace Registers

def perform (r : Registers) : RegisterCommand → Except Failure Answer × Registers
  | .read i => ((Answer.number <$> r.read i).mapError .register, r)
  | .write i v =>
    match r.write i v with
    | .ok (taken, r) => (.ok (.truth taken), r)
    | .error e => (.error (.register e), r)
  | .count => (.ok (.number 32), r)
  | .words => (.ok (.registerWords r), r)
  | .display columns => ((Answer.text <$> r.display columns).mapError .display, r)
  | .reset => (.ok .done, zero)

end Registers

namespace DataMemory

def perform (m : DataMemory) : MemoryCommand → Except Failure Answer × DataMemory
  | .index a => (((Answer.number ∘ Int.ofNat) <$> m.index a).mapError .memory, m)
  | .read a => ((Answer.number <$> m.read a).mapError .memory, m)
  | .write a v =>
    match m.write a v with
    | .ok (i, m) => (.ok (.number i), m)
    | .error e => (.error (.memory e), m)
  | .at i =>
    match m.at? i with
    | some v => (.ok (.number v), m)
    | none => (.error .noSuchWord, m)
  | .size => (.ok (.extent m.size (4 * m.size)), m)
  | .preload words i =>
    let (result, m) := m.preload i words
    ((fun _ => Answer.done) <$> result.mapError .memory, m)
  | .watch i => (.ok .done, m.watch i)
  | .unwatch => (.ok .done, m.unwatch)
  | .words => (.ok (.memoryWords m.words), m)
  | .dump count nonzeroOnly => (.ok (.text (m.dump count nonzeroOnly)), m)
  | .reset => (.ok .done, m.reset)

end DataMemory

namespace Trace

def perform (l : Trace) : TraceCommand → Answer × Trace
  | .add e => (.entry (some (l.stamp e)), l.add e)
  | .entries => (.entries l.entries.toList, l)
  | .errors => (.entries l.errors, l)
  | .last => (.entry l.last?, l)
  | .count => (.number l.entries.size, l)
  | .text => (.text l.text.toList, l)
  | .clear => (.done, l.clear)

end Trace

/-- A run that sleeps, or one that has ended or has failed. -/
abbrev RunState := Option Run

structure Session where
  machine : Machine
  runs : List (Text × RunState)

namespace Session

def ofMachine (m : Machine) : Session := ⟨m, []⟩

def setRun (s : Session) (name : Text) (r : RunState) : Session :=
  { s with runs := (name, r) :: s.runs.filter (·.1 ≠ name) }

def progressed (s : Session) (name : Text) (result : Except Escape Progress × Machine) :
    Except Failure Answer × Session :=
  let s := { s with machine := result.2 }
  match result.1 with
  | .ok (.asleep r) => (.ok (.progress (.asleep r)), s.setRun name (some r))
  | .ok (.ended reason) => (.ok (.progress (.ended reason)), s.setRun name none)
  | .error e => (.error (.escape e), s.setRun name none)

def quietly (s : Session) (m : Machine) : Except Failure Answer × Session :=
  (.ok .done, { s with machine := m })

def perform (s : Session) : Command → Except Failure Answer × Session
  | .load source =>
    match s.machine.load source with
    | (.ok (), m) => (.ok (.number m.program.length), { s with machine := m })
    | (.error e, m) => (.error (.load e), { s with machine := m })
  | .install p => s.quietly (s.machine.install p)
  | .step =>
    let (result, m) := s.machine.step
    ((Answer.report <$> result).mapError .escape, { s with machine := m })
  | .steps n =>
    let (result, m) := s.machine.stepMany n.toNat
    ((Answer.reports <$> result).mapError .escape, { s with machine := m })
  | .run limit =>
    let (result, m) := s.machine.runThrough limit
    ((Answer.reason <$> result).mapError .escape, { s with machine := m })
  | .start name delay limit => s.progressed name (s.machine.start delay limit)
  | .resume name =>
    match s.runs.lookup name with
    | none => (.error (.unknownRun name), s)
    | some none => (.ok .over, s)
    | some (some r) => s.progressed name (s.machine.resume r)
  | .stop => s.quietly s.machine.stop
  | .reset => s.quietly s.machine.reset
  | .setDelay ms =>
    let (result, m) := s.machine.setDelay ms
    ((fun _ => Answer.done) <$> result.mapError .delay, { s with machine := m })
  | .setBreakpoint pc => s.quietly (s.machine.setBreakpoint pc)
  | .dropBreakpoint pc => s.quietly (s.machine.dropBreakpoint pc)
  | .dropBreakpoints => s.quietly s.machine.dropBreakpoints
  | .current => (.ok (.line s.machine.pointed), s)
  | .report message => (.ok (.report (s.machine.report message none)), s)
  | .display => (.ok (.text s.machine.display.toList), s)
  | .flags => (.ok (.flags s.machine.finished s.machine.halted), s)
  | .registers c =>
    let (result, registers) := s.machine.registers.perform c
    (result, { s with machine := { s.machine with registers } })
  | .memory c =>
    let (result, memory) := s.machine.memory.perform c
    (result, { s with machine := { s.machine with memory } })
  | .trace c =>
    let (answer, trace) := s.machine.trace.perform c
    (.ok answer, { s with machine := { s.machine with trace } })

end Session

end Datapath
