import WebhookDelivery.Response
import WebhookDelivery.RetrySchedule
import WebhookDelivery.Settings

/-!
# WebhookDelivery.RetryPolicy

What follows a failed execution: another one after a delay, or giving up. A subscription with a
schedule of its own overrides the general delays and their number; the jitter always applies.
-/

namespace WebhookDelivery

inductive GiveUp where
  | notRetryable (failure : Failure)
  | ceilingReached (ceiling : Int)
  deriving DecidableEq, Repr

def GiveUp.reason : GiveUp → String
  | .notRetryable failure =>
    failure.kind.code ++ (match failure.httpCode with
      | some code => " " ++ toString code
      | none => "") ++ " is not retryable"
  | .ceilingReached ceiling => "retry ceiling reached (" ++ toString ceiling ++ ")"

inductive RetryDecision where
  | giveUp (why : GiveUp)
  | retryAt (time : ClockTime) (delay : Float)

inductive RetryError where
  | noInterval
  | time (e : TimeError)
  deriving DecidableEq, Repr

/-- A source of numbers between 0 and 1 that runs through a list again and again. -/
structure Draws where
  cycle : List Float
  used : Nat

def Draws.next (d : Draws) : Float × Draws :=
  (d.cycle.getD (d.used % d.cycle.length) 0.0, { d with used := d.used + 1 })

namespace RetrySettings

/-- The largest power of two by which the base delay is multiplied. -/
def maxExponent : Nat := 62

def backoff (base limit : Float) (count : Int) : Float :=
  let delay := base * Double.nearest (Nat.pow 2 (min count.toNat maxExponent)) 1
  if limit < delay then limit else delay

/-- The number of retries after which a delivery fails. -/
def ceiling (s : RetrySettings) (schedule : Option RetrySchedule) : Int :=
  match schedule with
  | some schedule => schedule.maxAttempts
  | none => s.maxRetries

/-- The delay in seconds before jitter. -/
def delay? (s : RetrySettings) (schedule : Option RetrySchedule) (count : Int) :
    Except RetryError Float :=
  match schedule with
  | none => .ok (backoff s.baseDelay s.maxDelay count)
  | some schedule =>
    match schedule.interval? count with
    | some interval => .ok (Double.ofRatio interval 1)
    | none => .error .noInterval

def jitter (s : RetrySettings) (draw : Float) : Float :=
  s.jitterMin + (s.jitterMax - s.jitterMin) * draw

/-- Why a failure after `count` retries is final, if it is. -/
def giveUp? (s : RetrySettings) (schedule : Option RetrySchedule) (count : Int)
    (failure : Failure) : Option GiveUp :=
  if !failure.isRetryable then some (.notRetryable failure)
  else if s.ceiling schedule ≤ count then some (.ceilingReached (s.ceiling schedule))
  else none

/-- Decides at a time, drawing a jitter factor only for a retry. -/
def decide (s : RetrySettings) (draws : Draws) (schedule : Option RetrySchedule) (count : Int)
    (failure : Failure) (now : ClockTime) : Except RetryError RetryDecision × Draws :=
  match s.giveUp? schedule count failure with
  | some why => (.ok (.giveUp why), draws)
  | none =>
    match s.delay? schedule count with
    | .error e => (.error e, draws)
    | .ok delay =>
      let (draw, draws) := draws.next
      let delay := delay * s.jitter draw
      match now.addSeconds? delay with
      | .ok time => (.ok (.retryAt time delay), draws)
      | .error e => (.error (.time e), draws)

end RetrySettings
end WebhookDelivery
