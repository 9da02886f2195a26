import WebhookDelivery.CommandLine.Parser

/-!
# WebhookDelivery.CommandLine.Usage

The texts that the program shows of its own use, 78 columns wide.
-/

namespace WebhookDelivery
namespace CommandLine

def width : Nat := 78

/-- The name by which a command is called. -/
def CommandSpec.path (c : CommandSpec) : String :=
  if c = program then programName else programName ++ " " ++ c.name

def CommandSpec.usageLine (c : CommandSpec) : String :=
  "Usage: " ++ c.path ++ " [OPTIONS]" ++ if c = program then " COMMAND [ARGS]..." else ""

/-- The lines shown for an error. -/
def UsageError.lines (e : UsageError) (c : CommandSpec) : List String :=
  let error := "Error: " ++ e.message
  if e.showsUsage then
    [c.usageLine, "Try '" ++ c.path ++ " --help' for help.", "", error]
  else [error]

/-- What follows the name of an option in a list of options. -/
def OptionKind.placeholder : OptionKind → String
  | .flag => ""
  | .text => " TEXT"
  | .integer => " INTEGER"
  | .range _ _ => " INTEGER RANGE"
  | .choice among => " [" ++ "|".intercalate among ++ "]"

def OptionSpec.description (o : OptionSpec) : String :=
  match o.kind with
  | .range least most => o.help ++ "  [" ++ writeBounds least most ++ "]"
  | _ => o.help

def words (s : String) : List String :=
  ((s.splitOn " ").filter (!·.isEmpty))

/-- Fills lines of a width with words, after those already on the line. -/
def fillLines (columns : Nat) (line : String) : List String → List String
  | [] => if line.isEmpty then [] else [line]
  | word :: rest =>
    if line.isEmpty then fillLines columns word rest
    else if line.length + 1 + word.length ≤ columns then
      fillLines columns (line ++ " " ++ word) rest
    else line :: fillLines columns word rest

def spaces (n : Nat) : String := String.ofList (List.replicate n ' ')

/-- A list of names with descriptions in two columns, the second filled to the width. -/
def definitionLines (fill : Nat → String → List String) (rows : List (String × String)) :
    List String :=
  let column := (rows.map (·.1.length)).foldl max 0 + 2
  rows.flatMap fun row =>
    match fill (width - column - 2) row.2 with
    | [] => ["  " ++ row.1]
    | first :: rest =>
      ("  " ++ row.1 ++ spaces (column - row.1.length) ++ first) ::
        rest.map fun line => spaces (column + 2) ++ line

/-- A description that may hold two spaces between its words. -/
def fillDescription (columns : Nat) (s : String) : List String :=
  if s.length ≤ columns then [s] else fillLines columns "" (words s)

/-- The number of words from the start of a text that fit into a number of columns. -/
def fittingWords (columns : Nat) (used : Nat) : List String → Nat
  | [] => 0
  | word :: rest =>
    let used := if used = 0 then word.length else used + 1 + word.length
    if columns < used then 0 else fittingWords columns used rest + 1

/-- The first words of a summary, with dots after them where not all of it fits. -/
def shorten (columns : Nat) (s : String) : String :=
  if s.length ≤ columns then s
  else " ".intercalate ((words s).take (fittingWords (columns - 3) 0 (words s))) ++ "..."

def commandLines : List String :=
  let longest := (commands.map (·.name.length)).foldl max 0
  let rows := commands.map fun c => (c.name, shorten (width - 6 - longest) c.summary)
  "" :: "Commands:" :: definitionLines fillDescription rows

/-- The text that describes a command. -/
def CommandSpec.helpLines (c : CommandSpec) : List String :=
  let rows := c.allOptions.map fun o => (o.name ++ o.kind.placeholder, o.description)
  [c.usageLine, "", "  " ++ c.summary, "", "Options:"] ++ definitionLines fillDescription rows ++
    if c = program then commandLines else []

end CommandLine
end WebhookDelivery
