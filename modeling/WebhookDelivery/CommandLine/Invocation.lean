import WebhookDelivery.CommandLine.Usage
import WebhookDelivery.Service
import WebhookDelivery.Settings.Environment

/-!
# WebhookDelivery.CommandLine.Invocation

From the words of a command line to what is to be done, and from what came of it to the lines that
the program prints and its exit code. Options take precedence over the environment.
-/

namespace WebhookDelivery
namespace CommandLine

/-- What a command line asks for. -/
inductive Invocation where
  | run (settings : Settings)
  | dispatchPending (settings : Settings) (limit : Int)
  | serve (settings : Settings) (host : String) (port : Int)

/-- What the program printed, its exit code, and the error that it did not foresee. -/
structure Outcome where
  exitCode : Nat
  lines : List String
  uncaught : Option OperationError
  deriving DecidableEq, Repr

/-- Why nothing is to be done. -/
inductive Ending where
  | shown (lines : List String)
  | nothingGiven
  | misused (c : CommandSpec) (e : UsageError)
  | settings (e : Environment.LoadError)

def versionLine : String := programName ++ ", version " ++ engineVersion

/-- A command line that asks for a text. -/
def textAskedFor? (c : CommandSpec) (w : Words) : Option (List String) :=
  match w.given.find? (·.1.isEager) with
  | none => none
  | some (o, _) => some (if o = versionOption then [versionLine] else c.helpLines)

/-- The words of a command with its options checked. -/
def readCommand (environment : List (String × String)) (c : CommandSpec) (args : List String) :
    Except Ending (List (OptionSpec × String) × List String) :=
  match readWords c.allOptions (c != program) args with
  | .error e => .error (.misused c e)
  | .ok words =>
    match textAskedFor? c words with
    | some lines => .error (.shown lines)
    | none =>
      let values := settle environment c.options words
      match checkValues values with
      | .error e => .error (.misused c e)
      | .ok () => .ok (values, words.rest)

def value? (values : List (OptionSpec × String)) (name : String) : Option String :=
  (values.find? (·.1.name == name)).map (·.2)

def number? (values : List (OptionSpec × String)) (name : String) : Option Int :=
  (value? values name).bind fun s => Integer.read? s.toList

/-- The settings of the environment with the program's own options put over them. -/
def loadSettings (environment : List (String × String)) (values : List (OptionSpec × String)) :
    Except Environment.LoadError Settings :=
  (Settings.load environment (.obj [])).map fun s =>
    let format := match value? values "--log-format" with
      | some "json" => .json
      | some "text" => .text
      | _ => s.logFormat
    { s with
      databasePath := (value? values "--database").getD s.databasePath
      logLevel := (value? values "--log-level").getD s.logLevel
      logFormat := format }

/-- The settings of a worker with the options of the command put over them. -/
def overrideWorker (values : List (OptionSpec × String)) (s : WorkerSettings) : WorkerSettings :=
  { s with
    name := (value? values "--name").getD s.name
    version := (value? values "--worker-version").or s.version
    dedicated := s.dedicated || (value? values "--dedicated").isSome
    concurrency := (number? values "--concurrency").getD s.concurrency
    disableTargetCheck :=
      s.disableTargetCheck || (value? values "--disable-target-ip-check").isSome }

def invocation (c : CommandSpec) (s : Settings) (values : List (OptionSpec × String)) :
    Invocation :=
  if c = runCommand then .run { s with worker := overrideWorker values s.worker }
  else if c = dispatchCommand then .dispatchPending s ((number? values "--limit").getD 100)
  else .serve s ((value? values "--host").getD "127.0.0.1")
    ((number? values "--port").getD 8080)

/-- Reads a command line in an environment. -/
def read (environment : List (String × String)) (args : List String) : Except Ending Invocation :=
  if args.isEmpty then .error .nothingGiven
  else match readCommand environment program args with
    | .error e => .error e
    | .ok (_, []) => .error (.misused program .missingCommand)
    | .ok (values, name :: args) =>
      match commands.find? (·.name == name) with
      | none =>
        let names := commands.map (·.name)
        .error (.misused program (.unknownCommand name (resembling name names)))
      | some c =>
        match loadSettings environment values with
        | .error e => .error (.settings e)
        | .ok settings =>
          match readCommand environment c args with
          | .error e => .error e
          | .ok (values, []) => .ok (invocation c settings values)
          | .ok (_, extra) => .error (.misused c (.extraArguments extra))

def Ending.outcome : Ending → Outcome
  | .shown lines => ⟨0, lines, none⟩
  | .nothingGiven => ⟨2, program.helpLines, none⟩
  | .misused c e => ⟨2, e.lines c, none⟩
  | .settings (.invalid e) => ⟨1, [], some (.record e)⟩
  | .settings (.notJson _) => ⟨1, [], some .unreadableSettings⟩

/-- The outcome of an operation that failed. -/
def failed (lead : String) : OperationError → Outcome
  | .engine e => ⟨1, ["Error: " ++ lead ++ e.message], none⟩
  | e => ⟨1, [], some e⟩

/-- The outcome of a pool of workers. -/
def ofPool : Except OperationError Unit → Outcome
  | .ok () => ⟨0, [], none⟩
  | .error e => failed "Worker stopped: " e

/-- The outcome of creating attempts, which gives their number. -/
def ofDispatch : Except OperationError Nat → Outcome
  | .ok n => ⟨0, ["Created " ++ toString n ++ " request attempt(s)"], none⟩
  | .error e => failed "" e

/-- Runs a pool of workers on the store at the path of the settings. -/
def runPool (s : Settings) (site : DatabaseSite) (stopAfter : Nat) : Engine Unit :=
  Service.opened s.databasePath site (Pool.run s.worker s.retry stopAfter)

def dispatch (s : Settings) (site : DatabaseSite) (limit : Int) : Engine Nat :=
  Service.opened s.databasePath site (Service.dispatchPending limit)

end CommandLine
end WebhookDelivery
