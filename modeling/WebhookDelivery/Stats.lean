import WebhookDelivery.Attempt

/-!
# WebhookDelivery.Stats

Numbers of attempts by status.
-/

namespace WebhookDelivery

structure AttemptStats where
  waiting : Int
  pending : Int
  inProgress : Int
  successful : Int
  failed : Int
  deriving DecidableEq, Repr

namespace AttemptStats

def zero : AttemptStats := ⟨0, 0, 0, 0, 0⟩

def get (s : AttemptStats) : AttemptStatus → Int
  | .waiting => s.waiting
  | .pending => s.pending
  | .inProgress => s.inProgress
  | .successful => s.successful
  | .failed => s.failed

def members (s : AttemptStats) : List (String × Json) :=
  AttemptStatus.all.map fun status => (status.name, .int (s.get status))

def fieldNames : List String := AttemptStatus.all.map AttemptStatus.name

def read : Reader AttemptStats :=
  Reader.closedRecord fieldNames fun members =>
    let count := fun status : AttemptStatus =>
      Reader.withDefault members status.name 0 fun j =>
        (Reader.integer j).require (0 ≤ ·) .greaterThanEqual
    mk <$> count .waiting <*> count .pending <*> count .inProgress <*> count .successful
      <*> count .failed

end AttemptStats
end WebhookDelivery
