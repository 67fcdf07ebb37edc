import Triage.Settings
import Triage.Verdict

namespace Triage.Cli

inductive Flag
  | batch
  | verbose
  | quiet
  | help
  deriving DecidableEq, Repr

inductive Key
  | interpreter
  | interpreterArg
  | workers
  | timeout
  | parseTimeout
  | batchTimeout
  | exclude
  | searchPath
  | searchPathVar
  | mode
  | lintModule
  | policy
  | maxOutputChars
  | json
  | csv
  | report
  deriving DecidableEq, Repr

def longNames : List (String × (Flag ⊕ Key)) :=
  [("batch", .inl .batch), ("verbose", .inl .verbose), ("quiet", .inl .quiet), ("help", .inl .help),
    ("interpreter", .inr .interpreter), ("interpreter-arg", .inr .interpreterArg),
    ("workers", .inr .workers), ("timeout", .inr .timeout), ("parse-timeout", .inr .parseTimeout),
    ("batch-timeout", .inr .batchTimeout), ("exclude", .inr .exclude),
    ("search-path", .inr .searchPath), ("search-path-var", .inr .searchPathVar),
    ("mode", .inr .mode), ("lint-module", .inr .lintModule), ("policy", .inr .policy),
    ("max-output-chars", .inr .maxOutputChars), ("json", .inr .json), ("csv", .inr .csv),
    ("report", .inr .report)]

def shortNames : List (Char × (Flag ⊕ Key)) :=
  [('v', .inl .verbose), ('q', .inl .quiet), ('h', .inl .help), ('w', .inr .workers),
    ('t', .inr .timeout)]

namespace Key

def takesHyphens (k : Key) : Bool := k = .interpreterArg

def repeats (k : Key) : Bool := k = .interpreterArg || k = .exclude

end Key

inductive Fault
  | unknown (arg : String)
  | missingValue (k : Key)
  | unneededValue (f : Flag)
  | badValue (k : Key) (value : String)
  | emptyDirectory
  | repeated (arg : Flag ⊕ Key)
  | extra (arg : String)
  | missingDirectory
  | conflict
  deriving DecidableEq, Repr

inductive Item
  | flag (f : Flag)
  | value (k : Key) (value : String)
  | directory (path : String)
  | fault (f : Fault)
  deriving DecidableEq, Repr

/-- The options of an argument with one hyphen, and one that still needs its value. -/
def cluster (arg : String) : List Char → List Item × Option Key
  | [] => ([], none)
  | c :: cs =>
    match shortNames.lookup c with
    | none => ([.fault (.unknown arg)], none)
    | some (.inl f) =>
      let (items, pending) := cluster arg cs
      (.flag f :: items, pending)
    | some (.inr k) =>
      match cs with
      | [] => ([], some k)
      | '=' :: value => ([.value k (String.ofList value)], none)
      | value => ([.value k (String.ofList value)], none)

def long (arg : String) (body : List Char) : List Item × Option Key :=
  let (name, value) := match Text.splitOnce? ['='] body with
    | some (name, value) => (String.ofList name, some (String.ofList value))
    | none => (String.ofList body, none)
  match longNames.lookup name, value with
  | none, _ => ([.fault (.unknown arg)], none)
  | some (.inl f), none => ([.flag f], none)
  | some (.inl f), some _ => ([.fault (.unneededValue f)], none)
  | some (.inr k), none => ([], some k)
  | some (.inr k), some v => ([.value k v], none)

/-- The items of the arguments; `pending` is an option that waits for its value. -/
def items : (pending : Option Key) → List String → List Item
  | none, [] => []
  | some k, [] => [.fault (.missingValue k)]
  | some k, arg :: args =>
    if k.takesHyphens || arg = "-" || arg.toList.head? ≠ some '-' then
      .value k arg :: items none args
    else [.fault (.missingValue k)]
  | none, arg :: args =>
    match arg.toList with
    | ['-', '-'] => args.map .directory
    | '-' :: '-' :: body =>
      let (found, pending) := long arg body
      found ++ items pending args
    | '-' :: c :: cs =>
      let (found, pending) := cluster arg (c :: cs)
      found ++ items pending args
    | _ => .directory arg :: items none args

structure Options where
  directory : Option String := none
  settings : Settings := { root := "" }
  batch : Bool := false
  verbose : Nat := 0
  quiet : Bool := false
  given : List (Flag ⊕ Key) := []

inductive Stop
  | help
  | fault (f : Fault)
  deriving DecidableEq, Repr

def number (k : Key) (value : String) : Except Stop Nat :=
  match Verdict.number? value.toList with
  | some n => .ok n
  | none => .error (.fault (.badValue k value))

def secondsOf (k : Key) (value : String) : Except Stop Duration := do
  return Clock.seconds (← number k value)

def path (k : Key) (value : String) : Except Stop String :=
  if value.isEmpty then .error (.fault (.badValue k value)) else .ok value

def choice (named : List (String × α)) (k : Key) (value : String) : Except Stop α :=
  match chooseByName? false named value with
  | some a => .ok a
  | none => .error (.fault (.badValue k value))

def setValue (s : Settings) (k : Key) (v : String) : Except Stop Settings :=
  match k with
  | .interpreter => .ok { s with interpreter := v }
  | .interpreterArg => .ok { s with interpreterArgs := s.interpreterArgs ++ [v] }
  | .workers => do return { s with workers := some (← number k v) }
  | .timeout => do return s.withCheckTimeout (← secondsOf k v)
  | .parseTimeout => do return { s with parseTimeout := ← secondsOf k v }
  | .batchTimeout => do return { s with batchTimeout := ← secondsOf k v }
  | .exclude => .ok (s.exclude v)
  | .searchPath => do return { s with searchPath := some (← path k v) }
  | .searchPathVar => .ok { s with searchPathVar := v }
  | .mode => do return { s with mode := ← choice Mode.named k v }
  | .lintModule => .ok { s with lintModule := v }
  | .policy => do return { s with policy := ← choice Policy.named k v }
  | .maxOutputChars => do return { s with maxOutputChars := ← number k v }
  | .json => do return { s with jsonFile := some (← path k v) }
  | .csv => do return { s with csvFile := some (← path k v) }
  | .report => do return { s with reportFile := some (← path k v) }

def once (o : Options) (arg : Flag ⊕ Key) : Except Stop Options :=
  if o.given.contains arg then .error (.fault (.repeated arg))
  else .ok { o with given := arg :: o.given }

def apply (o : Options) : Item → Except Stop Options
  | .fault f => .error (.fault f)
  | .flag .help => .error .help
  | .flag .verbose => .ok { o with verbose := o.verbose + 1 }
  | .flag .batch => do return { ← once o (.inl .batch) with batch := true }
  | .flag .quiet => do return { ← once o (.inl .quiet) with quiet := true }
  | .value k v => do
    let settings ← setValue o.settings k v
    let o ← if k.repeats then .ok o else once o (.inr k)
    return { o with settings }
  | .directory d =>
    if o.directory.isSome then .error (.fault (.extra d))
    else if d.isEmpty then .error (.fault .emptyDirectory)
    else .ok { o with directory := some d }

def Options.ofArgs (args : List String) : Except Stop (Options × Settings) := do
  let o ← (items none args).foldlM apply {}
  if o.quiet && 0 < o.verbose then throw (.fault .conflict)
  match o.directory with
  | none => throw (.fault .missingDirectory)
  | some root => return (o, { o.settings with root })

end Triage.Cli
