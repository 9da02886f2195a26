import WebhookDelivery.Validation

/-!
# WebhookDelivery.RetrySchedule

The delays that a subscription asks for between the executions of a delivery, in place of the
general ones.
-/

namespace WebhookDelivery

inductive RetryStrategy where
  | exponential
  | linear
  | custom
  deriving DecidableEq, Repr

def RetryStrategy.name : RetryStrategy → String
  | .exponential => "exponential"
  | .linear => "linear"
  | .custom => "custom"

/-- `intervals` are seconds; `maxAttempts` is the number of retries before the delivery fails. -/
structure RetrySchedule where
  strategy : RetryStrategy
  intervals : List Int
  maxAttempts : Int
  deriving DecidableEq, Repr

namespace RetrySchedule

/-- Five seconds, five minutes, half an hour, two hours, five hours, then ten hours. -/
def defaultIntervals : List Int := [5, 300, 1800, 7200, 18000, 36000, 36000, 36000]

def secondsPerWeek : Int := 604800

/-- The first interval that is too short or too long decides what is wrong with a list. -/
def intervalFault? (intervals : List Int) : Option Fault :=
  intervals.findSome? fun interval =>
    if interval < 1 then some (.value "all intervals must be at least 1 second")
    else if secondsPerWeek < interval then some (.value "intervals cannot exceed one week")
    else none

def readIntervals : Reader (List Int) := fun j =>
  ((Reader.list Reader.integer j).require (fun xs => !xs.isEmpty) .tooShort).andThen fun xs =>
    match intervalFault? xs with
    | some fault => .fail fault
    | none => .valid xs

def readStrategy : Reader RetryStrategy :=
  Reader.oneOf ([RetryStrategy.exponential, .linear, .custom].map fun s => (s.name, s)) .enumMember

def readMaxAttempts : Reader Int := fun j =>
  ((Reader.integer j).require (1 ≤ ·) .greaterThanEqual).require (· ≤ 100) .lessThanEqual

def fieldNames : List String := ["strategy", "intervals", "max_attempts"]

def read : Reader RetrySchedule :=
  Reader.closedRecord fieldNames fun members =>
    mk <$> Reader.withDefault members "strategy" .exponential readStrategy
      <*> Reader.withDefault members "intervals" defaultIntervals readIntervals
      <*> Reader.withDefault members "max_attempts" 8 readMaxAttempts

/-- The interval after `count` retries. A linear schedule has one; others walk the list and repeat
its last. A negative count counts from the end. -/
def interval? (s : RetrySchedule) (count : Int) : Option Int :=
  match s.strategy with
  | .linear => s.intervals.head?
  | _ =>
    let index := min count ((s.intervals.length : Int) - 1)
    let index := if index < 0 then index + s.intervals.length else index
    if index < 0 then none else s.intervals[index.toNat]?

end RetrySchedule
end WebhookDelivery
