import Datapath.CommandLine.Job

set_option autoImplicit false

namespace Datapath.CommandLine

def Options.paths (o : Options) : List Path :=
  (o.program :: o.exportTo.value?.toList ++ o.logFile.value?.toList).map Path.ofText

def pathString (p : Path) : String := String.ofList p.text

def nodeAt? (p : Path) : IO (Option Node) := do
  try
    pure (some (.file (← IO.FS.readBinFile (pathString p)).toList))
  catch
    | .noFileOrDirectory .. => pure none
    | .inappropriateType .. => pure (some .folder)
    | _ => pure none

def gather (paths : List Path) : IO Folder := do
  let mut folder := Folder.empty
  for (p, place) in paths.flatMap Folder.stations do
    if let some node ← nodeAt? p then folder := folder.put place node
  pure folder

/-- Puts back what differs from what was gathered. -/
def putBack (paths : List Path) (before after : Folder) : IO Unit := do
  for (p, place) in paths.flatMap Folder.stations do
    if before.node? place ≠ after.node? place then
      match after.node? place with
      | some .folder => IO.FS.createDirAll (pathString p)
      | some (.file octets) => IO.FS.writeBinFile (pathString p) (ByteArray.mk octets.toArray)
      | none => pure ()

def showDesk (d : Desk) : IO Unit := do
  for ms in d.sleeps do IO.sleep (UInt32.ofNat ms.toNat)
  IO.print d.output
  IO.eprint d.complaints
  for n in d.console.reverse do IO.eprintln s!"{n.level.name} {n.message}"

def Crash.message : Crash → String
  | .emptyOption o => s!"{String.ofList o.shown} is empty"
  | .logFile e => e.message
  | .memory e => Job.textOf (BuildError.memory e).message
  | .name e => String.ofList e.name

def start (arguments : List Text) : IO UInt32 := do
  let paths := match Options.ofArguments arguments with
    | .ok o => o.paths
    | .error _ => []
  let before ← gather paths
  match run arguments before with
  | .error c => do
    IO.eprintln c.message
    pure 1
  | .ok (ending, desk) => do
    putBack paths before desk.files
    showDesk desk
    match ending with
    | .code n => pure (UInt32.ofNat n)
    | .usage e => do
      IO.eprintln e.line
      pure 2

end Datapath.CommandLine

def main (arguments : List String) : IO UInt32 :=
  Datapath.CommandLine.start (arguments.map String.toList)
