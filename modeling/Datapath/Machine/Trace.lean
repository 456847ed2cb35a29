import Datapath.Text.Basic

set_option autoImplicit false

namespace Datapath

inductive Level where
  | debug
  | info
  | warning
  | error
  deriving DecidableEq, Repr

def Level.name : Level → String
  | .debug => "DEBUG"
  | .info => "INFO"
  | .warning => "WARNING"
  | .error => "ERROR"

def Level.rank : Level → Nat
  | .debug => 0
  | .info => 1
  | .warning => 2
  | .error => 3

inductive Origin where
  | simulator
  | machine
  | loader
  | assembler
  deriving DecidableEq, Repr

def Origin.name : Origin → String
  | .simulator => "rv32i_emulator"
  | .machine => "rv32i_emulator.emu"
  | .loader => "rv32i_asm.loader"
  | .assembler => "rv32i_asm.assembler"

structure Notice where
  level : Level
  origin : Origin
  message : String
  deriving DecidableEq, Repr

structure Remark where
  message : String
  kind : String
  deriving DecidableEq, Repr

structure TraceEntry extends Remark where
  time : String
  deriving DecidableEq, Repr

namespace TraceEntry

def info : String := "info"
def success : String := "success"
def error : String := "error"

def text (e : TraceEntry) : String :=
  if e.time = "" then e.message else s!"[{e.time}] {e.message}"

end TraceEntry

inductive CapacityError where
  | negative
  | beyondIndices
  deriving DecidableEq, Repr

/-- `clock` tells the time at which each entry is made, and `made` counts the entries so far, with
those that have been dropped. -/
structure Trace where
  capacity : Nat
  clock : Nat → String
  made : Nat
  entries : Array TraceEntry
  bounded : entries.size ≤ capacity

namespace Trace

def empty (capacity : Nat) (clock : Nat → String) : Trace :=
  ⟨capacity, clock, 0, #[], Nat.zero_le _⟩

def create (capacity : Int) (clock : Nat → String) : Except CapacityError Trace :=
  if capacity < -0x8000000000000000 ∨ 0x8000000000000000 ≤ capacity then .error .beyondIndices
  else if capacity < 0 then .error .negative
  else .ok (.empty capacity.toNat clock)

def stamp (l : Trace) (e : Remark) : TraceEntry := ⟨e, l.clock l.made⟩

/-- A full log drops its oldest entry first, and a log without room stays empty. -/
def add (l : Trace) (e : Remark) : Trace :=
  let entries := l.entries.push (l.stamp e)
  if h : l.entries.size < l.capacity then
    { l with made := l.made + 1, entries, bounded := by simpa [entries] using Nat.succ_le_of_lt h }
  else
    { l with
      made := l.made + 1
      entries := entries.extract 1
      bounded := by simpa [entries] using l.bounded }

def errors (l : Trace) : List TraceEntry :=
  l.entries.toList.filter (·.kind = TraceEntry.error)

def last? (l : Trace) : Option TraceEntry := l.entries.back?

def clear (l : Trace) : Trace := { l with entries := #[], bounded := Nat.zero_le _ }

def text (l : Trace) : String := "\n".intercalate (l.entries.toList.map (·.text))

end Trace

end Datapath
