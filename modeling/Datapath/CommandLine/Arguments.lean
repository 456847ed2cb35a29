import Datapath.Machine.Basic
import Datapath.Text.Quoted

set_option autoImplicit false

namespace Datapath.CommandLine

def isPadding (c : Char) : Bool := Text.isBlank c && !(0x1C ≤ c.toNat && c.toNat ≤ 0x1F)

/-- The digits of a text in which single underscores may stand between digits. -/
def looseDigits? : Text → Option Text
  | [] => none
  | [c] => if Text.isDecimalDigit c then some [c] else none
  | c :: '_' :: rest =>
    if Text.isDecimalDigit c then (c :: ·) <$> looseDigits? rest else none
  | c :: rest => if Text.isDecimalDigit c then (c :: ·) <$> looseDigits? rest else none

def looseNat? (t : Text) : Option Nat := do
  let run ← looseDigits? t
  (Decimal.readDigits run).toOption

def integer? (t : Text) : Option Int :=
  match Text.dropEndWhile isPadding (t.dropWhile isPadding) with
  | '-' :: rest => (fun n => -(n : Int)) <$> looseNat? rest
  | '+' :: rest => (fun n => (n : Int)) <$> looseNat? rest
  | rest => (fun n => (n : Int)) <$> looseNat? rest

/-- A minus sign before digits, or before digits with one point among or before them. -/
def looksNegative : Text → Bool
  | '-' :: rest =>
    let body := if rest.getLast? = some '\n' then rest.dropLast else rest
    match body.dropWhile Text.isDecimalDigit with
    | [] => !body.isEmpty
    | '.' :: fraction => !fraction.isEmpty && fraction.all Text.isDecimalDigit
    | _ => false
  | _ => false

inductive Opt where
  | help
  | steps
  | run
  | maxSteps
  | delay
  | exportTo
  | memoryWords
  | profile
  | trace
  | dumpMemory
  | logFile
  | verbose
  | version
  deriving DecidableEq, Repr

inductive Value where
  | none
  | integer
  | text
  | profile
  deriving DecidableEq, Repr

namespace Opt

def value : Opt → Value
  | help | run | trace | verbose | version => .none
  | steps | maxSteps | delay | memoryWords | dumpMemory => .integer
  | exportTo | logFile => .text
  | profile => .profile

def spellings : List (Text × Opt) :=
  [("-h".toList, help), ("--help".toList, help), ("--steps".toList, steps), ("--run".toList, run),
   ("--max-steps".toList, maxSteps), ("--delay".toList, delay), ("--export".toList, exportTo),
   ("--memory-words".toList, memoryWords), ("--profile".toList, profile),
   ("--trace".toList, trace), ("--dump-memory".toList, dumpMemory), ("--log-file".toList, logFile),
   ("--verbose".toList, verbose), ("-v".toList, verbose), ("--version".toList, version)]

def ofSpelling? (t : Text) : Option Opt := spellings.lookup t

def shown (o : Opt) : Text :=
  Text.join ['/'] ((spellings.filter (·.2 = o)).map (·.1))

end Opt

/-- What an option brings along. An empty option is there, but it has no value. -/
inductive Given (α : Type) where
  | absent
  | empty
  | value (v : α)
  deriving DecidableEq, Repr

namespace Given

def value? {α : Type} : Given α → Option α
  | .value v => some v
  | _ => none

def isAbsent {α : Type} : Given α → Bool
  | .absent => true
  | _ => false

end Given

structure Options where
  program : Text
  steps : Given Int := .absent
  run : Bool := false
  maxSteps : Given Int := .absent
  delay : Given Int := .absent
  exportTo : Given Text := .absent
  memoryWords : Given Int := .absent
  profile : Given Text := .value "default".toList
  trace : Bool := false
  dumpMemory : Given Int := .absent
  logFile : Given Text := .absent
  verbose : Bool := false
  deriving DecidableEq, Repr

inductive UsageError where
  | ambiguous (argument : Text) (spellings : List Text)
  | missingValue (o : Opt)
  | ignoredValue (o : Opt) (value : Text)
  | invalidInteger (o : Opt) (value : Text)
  | invalidChoice (o : Opt) (value : Text)
  | conflict (o other : Opt)
  | missingProgram
  | unrecognized (arguments : List Text)
  deriving DecidableEq, Repr

inductive Exit where
  | help
  | version
  | usage (e : UsageError)
  deriving DecidableEq, Repr

def about (o : Opt) (t : Text) : Text := "argument ".toList ++ o.shown ++ ": ".toList ++ t

def UsageError.message : UsageError → Text
  | .ambiguous a spellings =>
    "ambiguous option: ".toList ++ a ++ " could match ".toList ++ Text.join ", ".toList spellings
  | .missingValue o => about o "expected one argument".toList
  | .ignoredValue o v => about o ("ignored explicit argument ".toList ++ Text.quoted v)
  | .invalidInteger o v => about o ("invalid int value: ".toList ++ Text.quoted v)
  | .invalidChoice o v =>
    about o ("invalid choice: ".toList ++ Text.quoted v ++ " (choose from ".toList
      ++ Text.join ", ".toList (Settings.profileNames.map Text.quoted) ++ [')'])
  | .conflict o other => about o ("not allowed with argument ".toList ++ other.shown)
  | .missingProgram => "the following arguments are required: program".toList
  | .unrecognized args => "unrecognized arguments: ".toList ++ Text.join [' '] args

/-- The kind of an argument. What is written in the same argument as an option, after an equals sign
or after the letter of the option, is attached to it. -/
inductive Piece where
  | plain (t : Text)
  | doubleDash
  | option (o : Opt) (single : Bool) (attached : Option Text)
  | unknown (t : Text)
  deriving DecidableEq, Repr

def splitSign (t : Text) : Text × Option Text :=
  match t.dropWhile (· ≠ '=') with
  | [] => (t, none)
  | _ :: v => (t.takeWhile (· ≠ '='), some v)

def isSingle (spelling : Text) : Bool := spelling.take 2 ≠ ['-', '-']

/-- The options that an argument may mean, each with its spelling. -/
def candidates (t : Text) : List (Text × Opt × Option Text) :=
  if isSingle t then
    Opt.spellings.filterMap fun (spelling, o) =>
      if spelling = t.take 2 then some (spelling, o, some (t.drop 2))
      else if t.isPrefixOf spelling then some (spelling, o, none)
      else none
  else
    let (stem, v) := splitSign t
    (Opt.spellings.filter fun (spelling, _) => stem.isPrefixOf spelling).map
      fun (spelling, o) => (spelling, o, v)

/-- A negative number, a text with a space and a lone dash are no options. -/
def classify (t : Text) : Except UsageError Piece :=
  match t with
  | '-' :: _ :: _ =>
    match Opt.ofSpelling? t with
    | some o => .ok (.option o (isSingle t) none)
    | none =>
      match splitSign t with
      | (stem, some v) =>
        match Opt.ofSpelling? stem with
        | some o => .ok (.option o (isSingle stem) (some v))
        | none => guess t
      | (_, none) => guess t
  | _ => .ok (.plain t)
where
  guess (t : Text) : Except UsageError Piece :=
    match candidates t with
    | [(spelling, o, v)] => .ok (.option o (isSingle spelling) v)
    | [] => .ok (if looksNegative t || ' ' ∈ t then .plain t else .unknown t)
    | several => .error (.ambiguous t (several.map (·.1)))

def pieces : List Text → Except UsageError (List Piece)
  | [] => .ok []
  | t :: rest =>
    if t = ['-', '-'] then .ok (.doubleDash :: rest.map .plain)
    else do
      let p ← classify t
      pure (p :: (← pieces rest))

structure Reading where
  options : Options
  program : Option Text
  extras : List Text

namespace Reading

def start : Reading := ⟨{ program := [] }, none, []⟩

def extra (r : Reading) (t : Text) : Reading := { r with extras := r.extras ++ [t] }

def conflict? (r : Reading) : Opt → Option Opt
  | .steps => if r.options.run then some .run else none
  | .run => if r.options.steps.isAbsent then none else some .steps
  | _ => none

def checked (r : Reading) (o : Opt) (options : Options) : Except Exit Reading :=
  match r.conflict? o with
  | some other => .error (.usage (.conflict o other))
  | none => .ok { r with options }

def flag (r : Reading) (o : Opt) : Except Exit Reading :=
  match o with
  | .help => .error .help
  | .version => .error .version
  | .run => r.checked o { r.options with run := true }
  | .trace => r.checked o { r.options with trace := true }
  | .verbose => r.checked o { r.options with verbose := true }
  | _ => .ok r

def integer (r : Reading) (o : Opt) (v : Given Int) : Except Exit Reading :=
  match o with
  | .steps => r.checked o { r.options with steps := v }
  | .maxSteps => r.checked o { r.options with maxSteps := v }
  | .delay => r.checked o { r.options with delay := v }
  | .memoryWords => r.checked o { r.options with memoryWords := v }
  | .dumpMemory => r.checked o { r.options with dumpMemory := v }
  | _ => .ok r

def text (r : Reading) (o : Opt) (v : Given Text) : Except Exit Reading :=
  match o with
  | .exportTo => r.checked o { r.options with exportTo := v }
  | .logFile => r.checked o { r.options with logFile := v }
  | .profile => r.checked o { r.options with profile := v }
  | _ => .ok r

def assign (r : Reading) (o : Opt) (t : Text) : Except Exit Reading :=
  match o.value with
  | .none => r.flag o
  | .integer =>
    if t = ['-', '-'] then r.integer o .empty
    else match integer? t with
      | some v => r.integer o (.value v)
      | none => .error (.usage (.invalidInteger o t))
  | .profile =>
    if t = ['-', '-'] then r.text o .empty
    else if t ∈ Settings.profileNames then r.text o (.value t)
    else .error (.usage (.invalidChoice o t))
  | .text => r.text o (if t = ['-', '-'] then .empty else .value t)

def cluster (o : Opt) : Text → Except UsageError (List Opt)
  | [] => .ok [o]
  | c :: rest =>
    match Opt.ofSpelling? ['-', c] with
    | none => .error (.ignoredValue o (c :: rest))
    | some next => (o :: ·) <$> cluster next rest

def letters (r : Reading) (o : Opt) (single : Bool) (v : Text) : Except Exit Reading :=
  if single ∧ v ≠ [] then
    match cluster o v with
    | .error e => .error (.usage e)
    | .ok os => os.foldlM flag r
  else .error (.usage (.ignoredValue o v))

def option (r : Reading) (o : Opt) (single : Bool) (attached : Option Text) :
    Except Exit Reading :=
  match o.value, attached with
  | .none, none => r.flag o
  | .none, some v => r.letters o single v
  | _, none => .error (.usage (.missingValue o))
  | _, some v => r.assign o v

/-- The first plain argument is the program; a double dash directly after it, or before it, belongs
to it. -/
def scan (r : Reading) : List Piece → Except Exit Reading
  | [] => .ok r
  | .option o single v :: .plain t :: rest =>
    if o.value ≠ .none ∧ v = none then
      match r.assign o t with
      | .error e => .error e
      | .ok r => scan r rest
    else
      match r.option o single v with
      | .error e => .error e
      | .ok r => scan r (.plain t :: rest)
  | .option o single v :: rest =>
    match r.option o single v with
    | .error e => .error e
    | .ok r => scan r rest
  | .unknown t :: rest => scan (r.extra t) rest
  | .plain t :: .doubleDash :: rest =>
    if r.program.isNone then scan { r with program := some t } rest
    else scan (r.extra t) (.doubleDash :: rest)
  | .plain t :: rest =>
    if r.program.isNone then scan { r with program := some t } rest else scan (r.extra t) rest
  | .doubleDash :: .plain t :: rest =>
    if r.program.isNone then scan { r with program := some t } rest
    else scan (r.extra ['-', '-']) (.plain t :: rest)
  | .doubleDash :: rest => scan (r.extra ['-', '-']) rest

def close (r : Reading) : Except Exit Options :=
  match r.program with
  | none => .error (.usage .missingProgram)
  | some program =>
    if r.extras = [] then .ok { r.options with program }
    else .error (.usage (.unrecognized r.extras))

end Reading

/-- The options that the arguments ask for. -/
def Options.ofArguments (arguments : List Text) : Except Exit Options :=
  match pieces arguments with
  | .error e => .error (.usage e)
  | .ok ps => do (← Reading.start.scan ps).close

end Datapath.CommandLine
