import Datapath.Asm.Assembly
import Datapath.CommandLine.Arguments
import Datapath.Files.Source
import Datapath.Machine.Run

/-! What the command line does: it loads a program, writes its words, runs it, and prints what there
is to see. Everything that it reads and writes lies on a desk. -/

set_option autoImplicit false

namespace Datapath.CommandLine

def programName : String := "rv32isim"

def versionLine : String := programName ++ " 0.3.0"

def helpLines : List String :=
  ["usage: rv32isim [-h] [--steps N | --run] [--max-steps N] [--delay MS]",
   "                [--export OUT] [--memory-words N]",
   "                [--profile \x7bdefault,classroom,fast,large\x7d] [--trace]",
   "                [--dump-memory N] [--log-file PATH] [--verbose] [--version]",
   "                program",
   "",
   "Single-cycle RV32I datapath simulator",
   "",
   "positional arguments:",
   "  program               Assembly source file (.asm, .s, .txt)",
   "",
   "options:",
   "  -h, --help            show this help message and exit",
   "  --steps N             Execute N single steps",
   "  --run                 Run until the program finishes or halts",
   "  --max-steps N         Step limit for --run (default: from profile)",
   "  --delay MS            Pause between steps for --run, in milliseconds",
   "  --export OUT          Write the encoded program (one 32-bit word per line)",
   "  --memory-words N      Data memory size in 32-bit words",
   "  --profile \x7bdefault,classroom,fast,large\x7d",
   "                        Simulator profile (default: default)",
   "  --trace               Print the execution log after running",
   "  --dump-memory N       Print the first N data memory words",
   "  --log-file PATH       Also write a DEBUG log to this file",
   "  --verbose, -v         Log simulator activity to stderr",
   "  --version             show program's version number and exit",
   "",
   "Profiles: default, classroom, fast, large"]

/-- What the program reads and writes. Console records have the latest first, and so have the
requested delays. -/
structure Desk where
  files : Folder
  output : String := ""
  complaints : String := ""
  console : List Notice := []
  sleeps : List Int := []
  threshold : Level := .warning
  logFile : Option Path := none

inductive Stop where
  | invalid (text : String)
  | unreadable (text : String)
  | misconfigured (text : String)
  | unwritable (text : String)
  | inner (text : String)

def Stop.code : Stop → Nat
  | invalid _ | unreadable _ | misconfigured _ | unwritable _ => 1
  | inner _ => 2

def Stop.message : Stop → String
  | invalid t | unreadable t => s!"Error: {t}"
  | misconfigured t => s!"Configuration error: {t}"
  | unwritable t => s!"Error writing output: {t}"
  | inner t => s!"Internal simulator error: {t}"

/-- What ends the program without an exit code. -/
inductive Crash where
  | emptyOption (o : Opt)
  | logFile (e : AccessError)
  | memory (e : MemorySizeError)
  | name (e : Asm.UnknownName)

inductive Interrupt where
  | stop (s : Stop)
  | crash (c : Crash)

/-- A job works on the desk, and what it has done stays done when it stops. -/
abbrev Job := ExceptT Interrupt (StateM Desk)

namespace Job

def stop {α : Type} (s : Stop) : Job α := throw (.stop s)

def print (t : String) : Job Unit := modify fun d => { d with output := d.output ++ t ++ "\n" }

def complain (t : String) : Job Unit :=
  modify fun d => { d with complaints := d.complaints ++ t ++ "\n" }

def logLine (n : Notice) : String :=
  let level := Text.padRight ' ' 7 n.level.name.toList
  s!"{String.ofList level} | {n.origin.name} | {n.message}\n"

def tell (notices : List Notice) : Job Unit := modify fun d =>
  let urgent := notices.filter (d.threshold.rank ≤ ·.level.rank)
  let files := match d.logFile with
    | none => d.files
    | some p =>
      (d.files.append p (String.join (notices.map logLine)).toList).toOption.getD d.files
  { d with console := urgent.reverse ++ d.console, files }

def drain (m : Machine) : Job Machine := do
  tell m.notices.reverse
  pure { m with notices := [] }

/-- An escape of the machine ends the job after its notices have been handed on. -/
def escaped {α : Type} (e : Escape) (m : Machine) : Job α := do
  let _ ← drain m
  match e with
  | .limit e => stop (.invalid e.message)
  | .noOperation name => stop (.inner (String.ofList (Text.quoted name)))
  | .noLine | .delay => stop (.inner e.message)

def textOf (message : Except Decimal.LimitError String) : String :=
  match message with
  | .ok t => t
  | .error e => e.message

def openLog (t : Text) : Job Unit := do
  let p := Path.ofText t
  let files := (← get).files
  match files.makeAll p.parent >>= fun files => files.openFull p with
  | .error e => throw (.crash (.logFile e))
  | .ok (q, files) => modify fun d => { d with files, logFile := some q }
  tell [⟨.info, .simulator, s!"Log file: {String.ofList p.text}"⟩]

def needed {α : Type} (o : Opt) : Given α → Job (Option α)
  | .absent => pure none
  | .empty => throw (.crash (.emptyOption o))
  | .value v => pure (some v)

def settings (o : Options) : Job Settings := do
  let name ← needed .profile o.profile
  let profile := (name.bind fun t => (Settings.profile t).toOption).getD {}
  let words ← needed .memoryWords o.memoryWords
  pure { profile with memoryWords := words.getD profile.memoryWords }

def build (c : Settings) (host : Host) : Job Machine :=
  match Machine.create c host with
  | .ok m => pure m
  | .error (.memory (.notPositive size)) =>
    stop (.misconfigured (textOf (BuildError.memory (.notPositive size)).message))
  | .error (.memory e) => throw (.crash (.memory e))
  | .error (.capacity e) => stop (.misconfigured (textOf (BuildError.capacity e).message))

def load (m : Machine) (program : Text) : Job (Program × Machine) := do
  let (result, notices) := Source.load (← get).files program
  tell notices.reverse
  match result with
  | .ok p => pure (p, ← drain (m.install p))
  | .error (.load (.name e)) => throw (.crash (.name e))
  | .error (.load (.limit e)) => stop (.misconfigured e.message)
  | .error .nullCharacter => stop (.misconfigured SourceError.nullCharacter.message)
  | .error e => stop (.unreadable e.message)

def accessFailed {α : Type} (e : AccessError) : Job α :=
  match e with
  | .system e => stop (.unwritable e.message)
  | .nullCharacter => stop (.invalid e.message)

def writeWords (program target : Text) (verbose : Bool) : Job Unit := do
  match Source.read (← get).files (Path.ofText program) with
  | .error (.access e) => accessFailed e
  | .error (.undecodable e) => stop (.invalid (String.ofList e.message))
  | .ok source =>
    match Assembly.ofSource source with
    | .error (.name e) => stop (.inner (String.ofList (Text.quoted e.name)))
    | .error (.limit e) => stop (.invalid e.message)
    | .ok a =>
      tell a.notices
      let p := Path.ofText target
      match (← get).files.write p a.text with
      | .error e => accessFailed e
      | .ok files =>
        modify fun d => { d with files }
        let count := Decimal.shown a.words.length
        tell [⟨.info, .assembler, s!"Exported {count} instructions to {String.ofList p.text}"⟩]
        for e in a.errors do complain s!"Encoding error: {e}"
        if verbose then
          complain s!"[{programName}] Export: {String.ofList target} ({count} words)"

def stepAll (m : Machine) : Nat → Job Machine
  | 0 => pure m
  | n + 1 =>
    match m.step with
    | (.error e, m) => escaped e m
    | (.ok r, m) => do
      print r.message
      if m.halted || m.finished then pure m else stepAll m n

def incomparable {α : Type} (sign : String) : Job α :=
  stop (.inner s!"'{sign}' not supported between instances of 'int' and 'list'")

/-- Ends the job where steps are counted up to an empty option. -/
def uncountable {α : Type} : Job α :=
  stop (.inner "'list' object cannot be interpreted as an integer")

def pacedRun (m : Machine) (delay : Int) (limit : Option Int) : Job (RunEnd × Machine) := do
  match m.setDelay delay with
  | (.error e, _) => stop (.invalid (textOf e.message))
  | (.ok (), m) =>
    let (sleeps, result, m) := m.runPaced none limit
    modify fun d => { d with sleeps := List.replicate sleeps delay ++ d.sleeps }
    match result with
    | .ok (.ended reason) => pure (reason, m)
    | .ok (.asleep _) => pure (.stopped, m)
    | .error e => escaped e m

/-- A run with pauses and an empty limit: it ends where the first step asks for the limit. -/
def unlimitedRun (m : Machine) (delay : Int) : Job (RunEnd × Machine) := do
  if m.finished then pacedRun m delay (some 0)
  else match m.setDelay delay with
    | (.error e, _) => stop (.invalid (textOf e.message))
    | (.ok (), m) =>
      let _ ← drain m.announce
      incomparable ">="

def steadyRun (m : Machine) (limit : Option Int) : Job (RunEnd × Machine) :=
  match m.runThrough limit with
  | (.ok reason, m) => pure (reason, m)
  | (.error e, m) => escaped e m

def runWith (o : Options) (m : Machine) : Job (RunEnd × Machine) :=
  match o.delay.value?.getD 0, o.maxSteps with
  | 0, .empty => uncountable
  | 0, limit => steadyRun m limit.value?
  | delay, .empty => unlimitedRun m delay
  | delay, limit => pacedRun m delay limit.value?

def perform (o : Options) (p : Program) (m : Machine) : Job (Option RunEnd × Machine) := do
  match o.steps with
  | .value n => pure (none, ← stepAll m n.toNat)
  | .empty => incomparable ">"
  | .absent =>
    if o.run then
      let (reason, m) ← runWith o m
      pure (some reason, m)
    else
      print (String.ofList p.listing)
      pure (none, m)

def summary (o : Options) (reason : Option RunEnd) (m : Machine) : Job Unit := do
  if !o.steps.isAbsent || o.run then
    if let some r := reason then print s!"Stopped: {r.name} at PC={Decimal.shown m.pc}"
    print (String.ofList (m.registers.rows 4))
  if let some n := o.dumpMemory.value? then
    if n ≠ 0 then print (String.ofList (m.memory.dump (some n) false))
  if o.trace then print m.trace.text
  if reason = some .timeout then
    complain "Warning: step limit reached before the program finished"

def ofOptions (o : Options) (host : Host) : Job Unit := do
  if o.verbose then modify fun d => { d with threshold := .info }
  if let some t ← needed .logFile o.logFile then openLog t
  let settings ← settings o
  let (p, m) ← load (← build settings host) o.program
  if o.verbose then
    complain (s!"[{programName}] Program: {String.ofList o.program} "
      ++ s!"({Decimal.shown p.length} instructions)")
    complain (s!"[{programName}] Profile: {String.ofList (o.profile.value?.getD [])}, "
      ++ s!"memory {Decimal.shown settings.memoryWords} words")
  if let some target := o.exportTo.value? then
    if target ≠ [] then writeWords o.program target o.verbose
  let (reason, m) ← perform o p m
  summary o reason (← drain m)

end Job

/-- How the program ends: with an exit code, or with a word about its arguments. -/
inductive Ending where
  | code (n : Nat)
  | usage (e : UsageError)

def UsageError.line (e : UsageError) : String :=
  s!"{programName}: error: {String.ofList e.message}"

/-- Runs the command line on the files of a folder. -/
def run (arguments : List Text) (files : Folder) (host : Host := {}) :
    Except Crash (Ending × Desk) :=
  let desk : Desk := { files }
  match Options.ofArguments arguments with
  | .error .help => .ok (.code 0, { desk with output := "\n".intercalate helpLines ++ "\n" })
  | .error .version => .ok (.code 0, { desk with output := versionLine ++ "\n" })
  | .error (.usage e) => .ok (.usage e, desk)
  | .ok o =>
    match (Job.ofOptions o host).run.run desk with
    | (.ok (), desk) => .ok (.code 0, desk)
    | (.error (.crash c), _) => .error c
    | (.error (.stop s), desk) =>
      .ok (.code s.code, { desk with complaints := desk.complaints ++ s.message ++ "\n" })

end Datapath.CommandLine
