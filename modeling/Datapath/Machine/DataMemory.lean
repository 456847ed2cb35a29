import Datapath.Machine.Registers

/-! The data memory: a row of words under byte addresses. A byte address belongs to the word that
it lies in, and an address outside the row is refused before anything is read or written. Words can
be watched: a watchpoint has a callback, and the events of a memory are what callbacks hear that do
no more than write it down. -/

set_option autoImplicit false

namespace Datapath

inductive MemorySizeError where
  | notPositive (size : Int)
  | tooLarge
  | beyondIndices
  deriving DecidableEq, Repr

inductive MemoryError where
  | outOfRange (address : Int) (size : Nat)
  | preloadPastEnd (index : Int)
  deriving DecidableEq, Repr

def MemoryError.message : MemoryError → Except Decimal.LimitError String
  | .outOfRange address size => do
    let a ← Decimal.write address
    let i ← Decimal.write (address / 4)
    pure s!"Memory address out of range: {a} (word index {i}, size {Decimal.shown size})"
  | .preloadPastEnd index => do
    let i ← Decimal.write index
    pure s!"Preload past end of memory at word index {i}"

structure WatchEvent where
  index : Nat
  before : Int
  after : Int
  deriving DecidableEq, Repr

/-- `watched` has one entry for every watchpoint, `events` holds the latest event first. -/
structure DataMemory where
  words : Array Int
  watched : List Int
  events : List WatchEvent
  deriving DecidableEq, Repr

namespace DataMemory

def indexLimit : Int := 0x8000000000000000

def create (size : Int) (space : Int := indexLimit) : Except MemorySizeError DataMemory :=
  if size ≤ 0 then .error (.notPositive size)
  else if indexLimit ≤ size then .error .beyondIndices
  else if space ≤ size then .error .tooLarge
  else .ok ⟨Array.replicate size.toNat 0, [], []⟩

def size (m : DataMemory) : Nat := m.words.size

def get (m : DataMemory) (index : Nat) : Int := m.words.getD index 0

/-- The word that a byte address lies in. -/
def index (m : DataMemory) (address : Int) : Except MemoryError Nat :=
  let i := address / 4
  if 0 ≤ i ∧ i < m.size then .ok i.toNat else .error (.outOfRange address m.size)

def read (m : DataMemory) (address : Int) : Except MemoryError Int := m.get <$> m.index address

/-- The events of a store, the latest first: one for every watchpoint on the word. -/
def eventsOf (m : DataMemory) (i : Nat) (v : Int) : List WatchEvent :=
  List.replicate (m.watched.count (i : Int)) ⟨i, m.get i, v⟩

def store (m : DataMemory) (i : Nat) (v : Int) : DataMemory :=
  let w := Word.signed v
  let events := m.eventsOf i w ++ m.events
  { m with words := m.words.setIfInBounds i w, events }

/-- What is called for a watchpoint, on a memory and on whatever else there is. It can raise an
error, and it can leave both of them as it likes. -/
def Callback (ε ω : Type) : Type := WatchEvent → DataMemory → ω → Except ε Unit × DataMemory × ω

def notify {ε ω : Type} (e : WatchEvent) :
    List (Callback ε ω) → DataMemory → ω → Except ε Unit × DataMemory × ω
  | [], m, w => (.ok (), m, w)
  | f :: fs, m, w =>
    match f e m w with
    | (.ok _, m, w) => notify e fs m w
    | (.error x, m, w) => (.error x, m, w)

def callbacksOn {ε ω : Type} (watching : List (Int × Callback ε ω)) (i : Nat) :
    List (Callback ε ω) :=
  (watching.filter (·.1 = (i : Int))).map (·.2)

/-- Stores a word and calls the callbacks on it. -/
def storeCalling {ε ω : Type} (m : DataMemory) (watching : List (Int × Callback ε ω)) (i : Nat)
    (v : Int) (w : ω) : Except ε Unit × DataMemory × ω :=
  let value := Word.signed v
  notify ⟨i, m.get i, value⟩ (callbacksOn watching i)
    { m with words := m.words.setIfInBounds i value } w

def write (m : DataMemory) (address v : Int) : Except MemoryError (Nat × DataMemory) :=
  (fun i => (i, m.store i v)) <$> m.index address

/-- Sets words from an index on, without events; words before the first refused index stay set. -/
def preload (m : DataMemory) (index : Int) : List Int → Except MemoryError Unit × DataMemory
  | [] => (.ok (), m)
  | v :: rest =>
    if 0 ≤ index ∧ index < m.size then
      { m with words := m.words.setIfInBounds index.toNat (Word.signed v) }.preload (index + 1) rest
    else (.error (.preloadPastEnd index), m)

def at? (m : DataMemory) (index : Int) : Option Int :=
  let i := if index < 0 then index + m.size else index
  if i < 0 then none else m.words[i.toNat]?

def watch (m : DataMemory) (index : Int) : DataMemory := { m with watched := m.watched ++ [index] }

def unwatch (m : DataMemory) : DataMemory := { m with watched := [] }

def reset (m : DataMemory) : DataMemory := { m with words := Array.replicate m.size 0 }

def dumpRow (i : Nat) (v : Int) : Text :=
  '[' :: Text.padLeft ' ' 3 (Decimal.digits i) ++ "] 0x".toList ++ Hexadecimal.text 4 (4 * i)
    ++ ": 0x".toList ++ Hexadecimal.text 8 (Word.unsigned v) ++ "  ".toList ++ Decimal.text v

def dump (m : DataMemory) (count : Option Int) (nonzeroOnly : Bool) : Text :=
  let shown := match count with
    | none => m.words.toList
    | some n => m.words.toList.take n.toNat
  let rows := shown.zipIdx.filter fun (v, _) => !(nonzeroOnly && v = 0)
  Text.join ['\n'] (rows.map fun (v, i) => dumpRow i v)

end DataMemory

end Datapath
