import Datapath.Asm.Program
import Datapath.Machine.Trace
import Datapath.Text.Quoted

set_option autoImplicit false

namespace Datapath

/-- The root of a path is empty for a path from the working folder. -/
structure Path where
  root : Text
  parts : List Text
  deriving DecidableEq, Repr

namespace Path

/-- Two slashes at the start are a root of their own, three are the same as one. -/
def rootOf (t : Text) : Text :=
  match (t.takeWhile (· = '/')).length with
  | 0 => []
  | 2 => ['/', '/']
  | _ => ['/']

def ofText (t : Text) : Path :=
  ⟨rootOf t, (Text.fields (· = '/') t).filter (· ≠ ['.'])⟩

def text (p : Path) : Text :=
  if p.root = [] ∧ p.parts = [] then ['.'] else p.root ++ Text.join ['/'] p.parts

/-- Puts a part behind the others. A double dot takes the part before it away, and above the root
there is nothing. -/
def climb (root : Text) (parts : List Text) (part : Text) : List Text :=
  if part = ['.', '.'] then
    match parts.getLast? with
    | none => if root = [] then [part] else []
    | some last => if last = part then parts ++ [part] else parts.dropLast
  else parts ++ [part]

def normal (p : Path) : Path := { p with parts := p.parts.foldl (climb p.root) [] }

def parent (p : Path) : Path := { p with parts := p.parts.dropLast }

def name (p : Path) : Text := p.parts.getLast?.getD []

def suffix (p : Path) : Text :=
  let after := (p.name.reverse.takeWhile (· ≠ '.')).reverse
  let before := p.name.length - after.length
  if after ≠ [] ∧ 1 < before then '.' :: after else []

end Path

inductive FileCause where
  | notFound
  | exists
  | notFolder
  | isFolder
  | nameTooLong
  deriving DecidableEq, Repr

structure FileError where
  cause : FileCause
  path : Text
  deriving DecidableEq, Repr

inductive AccessError where
  | system : FileError → AccessError
  | nullCharacter : AccessError
  deriving DecidableEq, Repr

def FileCause.code : FileCause → Nat
  | .notFound => 2
  | .exists => 17
  | .notFolder => 20
  | .isFolder => 21
  | .nameTooLong => 36

def FileCause.message : FileCause → String
  | .notFound => "No such file or directory"
  | .exists => "File exists"
  | .notFolder => "Not a directory"
  | .isFolder => "Is a directory"
  | .nameTooLong => "File name too long"

def FileError.message (e : FileError) : String :=
  s!"[Errno {Decimal.shown e.cause.code}] {e.cause.message}: {String.ofList (Text.quoted e.path)}"

def AccessError.message : AccessError → String
  | .system e => e.message
  | .nullCharacter => "embedded null byte"

inductive Node where
  | file (octets : List UInt8)
  | folder
  deriving DecidableEq, Repr

abbrev Place := List Text

structure Folder where
  nodes : List (Place × Node)
  deriving Repr

namespace Folder

def empty : Folder := ⟨[]⟩

def here : Place := [[]]

def node? (f : Folder) (place : Place) : Option Node :=
  if place = [] ∨ place = here then some .folder else f.nodes.lookup place

def put (f : Folder) (place : Place) (node : Node) : Folder :=
  ⟨(place, node) :: f.nodes.filter (·.1 ≠ place)⟩

def provide (f : Folder) (p : Path) (node : Node) : Folder :=
  let above := (List.range p.parts.length).filterMap fun n =>
    if n = 0 then none else some (here ++ p.parts.take n)
  (above.foldl (fun f place => if (f.node? place).isSome then f else f.put place .folder) f).put
    (here ++ p.parts) node

def nameLimit : Nat := 255

def pathLimit : Nat := 4096

def hereLength : Nat := 16

def fullLength (p : Path) : Nat :=
  let own := (Text.toUtf8 p.text).length
  if p.root ≠ [] then own else if p.parts = [] then hereLength else hereLength + 1 + own

def down (place : Place) (name : Text) : Except FileCause Place :=
  if name = ['.', '.'] then .ok place.dropLast
  else if nameLimit < (Text.toUtf8 name).length then .error .nameTooLong
  else .ok (place ++ [name])

def walk (f : Folder) : Place → List Text → Except FileCause Place
  | place, [] => .ok place
  | place, name :: rest =>
    match down place name with
    | .error e => .error e
    | .ok next =>
      match f.node? next with
      | some .folder => walk f next rest
      | some (.file _) => .error .notFolder
      | none => .error .notFound

/-- Every path on the way to a path, and the place that it denotes if everything is there. -/
def stations (p : Path) : List (Path × Place) :=
  (List.range (p.parts.length + 1)).filterMap fun n =>
    let parts := p.parts.take n
    let start : Except FileCause Place := .ok (if p.root = [] then here else [])
    match parts.foldl (fun place name => place.bind (down · name)) start with
    | .ok place => if n = 0 then none else some (⟨p.root, parts⟩, place)
    | .error _ => none

def locate (f : Folder) (p : Path) : Except FileCause Place :=
  if pathLimit ≤ (Text.toUtf8 p.text).length then .error .nameTooLong
  else
    let start := if p.root = [] then here else []
    match p.parts.getLast? with
    | none => .ok start
    | some name =>
      match f.walk start p.parts.dropLast with
      | .ok place => down place name
      | .error e => .error e

def find (f : Folder) (p : Path) : Except AccessError Place :=
  if '\x00' ∈ p.text then .error .nullCharacter
  else (f.locate p).mapError fun cause => .system ⟨cause, p.text⟩

def isFolder (f : Folder) (p : Path) : Bool :=
  match f.find p with
  | .ok place => f.node? place = some .folder
  | .error _ => false

def fail {α : Type} (cause : FileCause) (p : Path) : Except AccessError α :=
  .error (.system ⟨cause, p.text⟩)

def read (f : Folder) (p : Path) : Except AccessError (List UInt8) := do
  match f.node? (← f.find p) with
  | some (.file octets) => pure octets
  | some .folder => fail .isFolder p
  | none => fail .notFound p

def update (f : Folder) (p : Path) (change : List UInt8 → List UInt8) :
    Except AccessError Folder := do
  let place ← f.find p
  match f.node? place with
  | some (.file octets) => pure (f.put place (.file (change octets)))
  | some .folder => fail .isFolder p
  | none => pure (f.put place (.file (change [])))

def write (f : Folder) (p : Path) (t : Text) : Except AccessError Folder :=
  f.update p fun _ => Text.toUtf8 t

def append (f : Folder) (p : Path) (t : Text) : Except AccessError Folder :=
  f.update p (· ++ Text.toUtf8 t)

/-- Opens a file to add to it, under its full path without double dots, and answers that path. -/
def openFull (f : Folder) (p : Path) : Except AccessError (Path × Folder) :=
  let q := p.normal
  if '\x00' ∈ q.text then .error .nullCharacter
  else if pathLimit ≤ fullLength q then fail .nameTooLong q
  else (q, ·) <$> f.append q []

def make (f : Folder) (p : Path) : Except AccessError Folder := do
  let place ← f.find p
  if (f.node? place).isSome then fail .exists p else pure (f.put place .folder)

def tolerate (f : Folder) (p : Path) (e : AccessError) : Except AccessError Folder :=
  if f.isFolder p then .ok f else .error e

/-- Makes a folder and, if they are missing, the folders above it. The names come last first. -/
def makeUpwards (f : Folder) (root : Text) : List Text → Except AccessError Folder
  | [] => .ok f
  | name :: above =>
    let p : Path := ⟨root, (name :: above).reverse⟩
    match f.make p with
    | .ok f => .ok f
    | .error (.system ⟨.notFound, t⟩) =>
      if above = [] then .error (.system ⟨.notFound, t⟩)
      else match makeUpwards f root above with
        | .error e => .error e
        | .ok f =>
          match f.make p with
          | .ok f => .ok f
          | .error e => f.tolerate p e
    | .error e => f.tolerate p e

def makeAll (f : Folder) (p : Path) : Except AccessError Folder :=
  f.makeUpwards p.root p.parts.reverse

end Folder

inductive ReadError where
  | access : AccessError → ReadError
  | undecodable : Text.Utf8Error → ReadError
  deriving DecidableEq, Repr

inductive SourceError where
  | unsupported (suffix : Text)
  | system (path : Text) (e : FileError)
  | undecodable (path : Text) (e : Text.Utf8Error)
  | nullCharacter
  | load (e : LoadError)
  deriving DecidableEq, Repr

def ReadError.message : ReadError → String
  | .access e => e.message
  | .undecodable e => String.ofList e.message

namespace Source

def suffixes : List Text := [".asm".toList, ".s".toList, ".txt".toList]

def read (f : Folder) (p : Path) : Except ReadError Text :=
  match f.read p with
  | .error e => .error (.access e)
  | .ok octets =>
    match Text.ofUtf8 octets with
    | .error e => .error (.undecodable e)
    | .ok t => .ok (Text.unifyBreaks t)

def ReadError.asSource (path : Text) : ReadError → SourceError
  | .access (.system e) => .system path e
  | .access .nullCharacter => .nullCharacter
  | .undecodable e => .undecodable path e

def load (f : Folder) (path : Text) : Except SourceError Program × List Notice :=
  let p := Path.ofText path
  if suffixes.contains (Text.lowercase p.suffix) then
    match read f p with
    | .error e => (.error (ReadError.asSource p.text e), [])
    | .ok t =>
      let start : Notice := ⟨.info, .loader, s!"Read {String.ofList p.text}"⟩
      match Program.load t with
      | .error e => (.error (.load e), [start])
      | .ok program =>
        (.ok program,
          [⟨.debug, .loader, s!"Loaded {Decimal.shown program.length} instructions"⟩, start])
  else (.error (.unsupported p.suffix), [])

end Source

def SourceError.message : SourceError → String
  | .unsupported suffix =>
    let choices := Text.join ", ".toList Source.suffixes
    s!"Unsupported file type '{String.ofList suffix}' (expected one of {String.ofList choices})"
  | .system path e => s!"Cannot read {String.ofList path}: {e.message}"
  | .undecodable path e => s!"Cannot read {String.ofList path}: {String.ofList e.message}"
  | .nullCharacter => AccessError.nullCharacter.message
  | .load e => e.message

end Datapath
