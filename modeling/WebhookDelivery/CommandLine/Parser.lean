import WebhookDelivery.CommandLine.Basic
import WebhookDelivery.CommandLine.Suggestion
import WebhookDelivery.Integer
import WebhookDelivery.Text.Quoted

/-!
# WebhookDelivery.CommandLine.Parser

Reading the words of a command line. The value of an option is the word after it or stands behind an
equals sign; of an option that is given more than once the last value counts.
-/

namespace WebhookDelivery
namespace CommandLine

/-- Why a command line cannot be read. -/
inductive UsageError where
  | unknownOption (name : String) (resembling : List String)
  | unknownCommand (name : String) (resembling : List String)
  | needsValue (option : String)
  | takesNoValue (option : String)
  | invalidValue (option : String) (reason : String)
  | extraArguments (arguments : List String)
  | missingCommand
  deriving DecidableEq, Repr

def suggestion (names : List String) : String :=
  match names with
  | [] => ""
  | [name] => " Did you mean " ++ Text.quoteString name ++ "?"
  | names =>
    " (Possible options: " ++
      ", ".intercalate ((names.mergeSort fun a b => a ≤ b).map Text.quoteString) ++ ")"

namespace UsageError

def message : UsageError → String
  | unknownOption name names =>
    "No such option " ++ Text.quoteString name ++ "." ++ suggestion names
  | unknownCommand name names =>
    "No such command " ++ Text.quoteString name ++ "." ++ suggestion names
  | needsValue option => "Option " ++ Text.quoteString option ++ " requires an argument."
  | takesNoValue option => "Option " ++ Text.quoteString option ++ " does not take a value."
  | invalidValue option reason =>
    "Invalid value for " ++ Text.quoteString option ++ ": " ++ reason
  | extraArguments [argument] => "Got unexpected extra argument (" ++ argument ++ ")"
  | extraArguments arguments =>
    "Got unexpected extra arguments (" ++ " ".intercalate arguments ++ ")"
  | missingCommand => "Missing command."

/-- The usage is shown above the error. -/
def showsUsage : UsageError → Bool
  | needsValue _ | takesNoValue _ => false
  | _ => true

end UsageError

/-- The options in the order in which they were given, and the words that are no options. -/
structure Words where
  given : List (OptionSpec × String)
  rest : List String
  deriving DecidableEq, Repr

namespace Words

def give (o : OptionSpec) (value : String) (w : Words) : Words :=
  { w with given := (o, value) :: w.given }

def keep (word : String) (w : Words) : Words := { w with rest := word :: w.rest }

/-- The value of an option that is given. -/
def last? (w : Words) (o : OptionSpec) : Option String :=
  (w.given.reverse.find? (·.1 == o)).map (·.2)

end Words

/-- The name and the value of a word that holds both. -/
def splitValue (word : String) : String × Option String :=
  let s := word.toList
  if s.contains '=' then
    (String.ofList (s.takeWhile (· != '=')), some (String.ofList ((s.dropWhile (· != '=')).drop 1)))
  else (word, none)

def isOption (word : String) : Bool := word.toList.head? = some '-' && 1 < word.length

/-- The error for a word that is not a known option; of several letters behind one hyphen the first
is the one not known. -/
def unknown (options : List OptionSpec) (word name : String) : UsageError :=
  match word.toList with
  | '-' :: '-' :: _ => .unknownOption name (resembling name (options.map (·.name)))
  | '-' :: c :: _ => .unknownOption (String.ofList ['-', c]) []
  | _ => .unknownOption name []

/-- Sorts words into options and others. The others may stand between the options, or else the first
of them ends the options. -/
def readWords (options : List OptionSpec) (between : Bool) : List String → Except UsageError Words
  | [] => .ok ⟨[], []⟩
  | word :: rest =>
    if word = "--" then .ok ⟨[], rest⟩
    else if !isOption word then
      if between then (readWords options between rest).map (Words.keep word)
      else .ok ⟨[], word :: rest⟩
    else
      let (name, value) := splitValue word
      match options.find? (·.name == name), value with
      | none, _ => .error (unknown options word name)
      | some o, some value =>
        if o.kind = .flag then .error (.takesNoValue name)
        else (readWords options between rest).map (Words.give o value)
      | some o, none =>
        if o.kind = .flag then (readWords options between rest).map (Words.give o "")
        else match rest with
          | [] => .error (.needsValue name)
          | value :: rest => (readWords options between rest).map (Words.give o value)

/-- The bounds of a range around the letter `x`. -/
def writeBounds (least : Int) : (most : Option Int) → String
  | none => "x>=" ++ toString least
  | some most => toString least ++ "<=x<=" ++ toString most

/-- The number that a value stands for, as its option demands. -/
def readNumber (o : OptionSpec) (value : String) : Except UsageError Int :=
  let isNot := fun what : String =>
    UsageError.invalidValue o.name (Text.quoteString value ++ " is not a valid " ++ what ++ ".")
  match o.kind, Integer.read? value.toList with
  | .range _ _, none => .error (isNot "integer range")
  | _, none => .error (isNot "integer")
  | .range least most, some n =>
    if least ≤ n && most.all (n ≤ ·) then .ok n
    else .error (.invalidValue o.name
      (toString n ++ " is not in the range " ++ writeBounds least most ++ "."))
  | _, some n => .ok n

/-- Checks the value of an option against its kind. -/
def checkValue (o : OptionSpec) (value : String) : Except UsageError Unit :=
  match o.kind with
  | .choice among =>
    if among.contains value then .ok ()
    else .error (.invalidValue o.name (Text.quoteString value ++ " is not one of " ++
      ", ".intercalate (among.map Text.quoteString) ++ "."))
  | .integer | .range _ _ => (readNumber o value).map fun _ => ()
  | _ => .ok ()

/-- The options with values: those of the command line in their order, then those that the
environment stands in for. A variable that is empty stands for nothing. -/
def settle (environment : List (String × String)) (options : List OptionSpec) (w : Words) :
    List (OptionSpec × String) :=
  let given := (w.given.map (·.1)).eraseDups
  let fromLine := given.filterMap fun o => (w.last? o).map fun value => (o, value)
  let others := options.filter fun o => !given.contains o
  fromLine ++ others.filterMap fun o =>
    match o.standIn.bind fun name => (environment.find? (·.1 == name)).map (·.2) with
    | none | some "" => none
    | some value => some (o, value)

def checkValues : List (OptionSpec × String) → Except UsageError Unit
  | [] => .ok ()
  | (o, value) :: rest =>
    match checkValue o value with
    | .ok () => checkValues rest
    | .error e => .error e

end CommandLine
end WebhookDelivery
