/-!
# WebhookDelivery.CommandLine.Basic

What a command line may hold: the options of the program and of each of its commands.
-/

namespace WebhookDelivery
namespace CommandLine

/-- What an option takes after its name. -/
inductive OptionKind where
  | flag
  | text
  | integer
  | range (least : Int) (most : Option Int)
  | choice (among : List String)
  deriving DecidableEq, Repr

/-- An option; `standIn` names the variable of the environment that stands in for it. -/
structure OptionSpec where
  name : String
  kind : OptionKind
  standIn : Option String
  help : String
  deriving DecidableEq, Repr

/-- A command, or the program itself under the name that it is called by. -/
structure CommandSpec where
  name : String
  summary : String
  options : List OptionSpec
  deriving DecidableEq, Repr

def helpOption : OptionSpec := ⟨"--help", .flag, none, "Show this message and exit."⟩

def versionOption : OptionSpec := ⟨"--version", .flag, none, "Show the version and exit."⟩

/-- The options that are acted on before all others. -/
def OptionSpec.isEager (o : OptionSpec) : Bool := o = helpOption || o = versionOption

def CommandSpec.allOptions (c : CommandSpec) : List OptionSpec := c.options ++ [helpOption]

def programName : String := "hook0-worker"

def program : CommandSpec where
  name := programName
  summary := "Hook0 webhook delivery engine."
  options :=
    [versionOption,
      ⟨"--database", .text, some "HOOK0_DATABASE_PATH", "SQLite database of the Attempt Store"⟩,
      ⟨"--log-level", .text, some "HOOK0_LOG_LEVEL", "Logging level"⟩,
      ⟨"--log-format", .choice ["json", "text"], some "HOOK0_LOG_FORMAT", "Log output format"⟩]

def dispatchCommand : CommandSpec where
  name := "dispatch-pending"
  summary := "Create attempts for stored events whose dispatch never completed."
  options := [⟨"--limit", .range 1 none, none, "Events to recover"⟩]

def runCommand : CommandSpec where
  name := "run"
  summary := "Claim and deliver request attempts until interrupted."
  options :=
    [⟨"--name", .text, none, "Worker name recorded on attempts"⟩,
      ⟨"--worker-version", .text, none, "Worker version recorded on attempts"⟩,
      ⟨"--dedicated", .flag, none, "Serve only subscriptions naming this worker"⟩,
      ⟨"--concurrency", .range 1 (some 256), none, "Number of units"⟩,
      ⟨"--disable-target-ip-check", .flag, none,
        "Allow targets resolving to private or loopback addresses"⟩]

def serveCommand : CommandSpec where
  name := "serve"
  summary := "Serve the HTTP API (ingestion, history, replay)."
  options :=
    [⟨"--host", .text, none, "Bind address"⟩, ⟨"--port", .integer, none, "Bind port"⟩]

/-- The commands in the order of their names. -/
def commands : List CommandSpec := [dispatchCommand, runCommand, serveCommand]

end CommandLine
end WebhookDelivery
