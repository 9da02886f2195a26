import WebhookDelivery.Validation

/-!
# WebhookDelivery.Settings

The settings of the delivery engine: the general retry policy, one worker process, and the whole.
-/

namespace WebhookDelivery

/-- The delay after `n` retries is `baseDelay · 2 ^ n` seconds, at most `maxDelay`, times a factor
drawn between `jitterMin` and `jitterMax`. -/
structure RetrySettings where
  baseDelay : Float
  maxDelay : Float
  maxRetries : Int
  jitterMin : Float
  jitterMax : Float

namespace RetrySettings

def default : RetrySettings := ⟨5.0, 300.0, 8, 0.5, 1.0⟩

/-- A text of the form `name (value) must not exceed name (value)`. -/
def inverted (low : String) (x : Float) (high : String) (y : Float) : Fault :=
  .value (low ++ " (" ++ Decimal.write x ++ ") must not exceed " ++ high ++ " (" ++
    Decimal.write y ++ ")")

def checkBounds (s : RetrySettings) : Validated RetrySettings :=
  if s.jitterMin > s.jitterMax then
    .fail (inverted "jitter_min" s.jitterMin "jitter_max" s.jitterMax)
  else if s.baseDelay > s.maxDelay then
    .fail (inverted "base_delay_seconds" s.baseDelay "max_delay_seconds" s.maxDelay)
  else .valid s

def readPositive : Reader Float := fun j => (Reader.float j).require (· > 0.0) .greaterThan

def readFactor : Reader Float := fun j =>
  ((Reader.float j).require (· ≥ 0.5) .greaterThanEqual).require (· ≤ 1.0) .lessThanEqual

def readMaxRetries : Reader Int := fun j =>
  ((Reader.integer j).require (0 ≤ ·) .greaterThanEqual).require (· ≤ 100) .lessThanEqual

def read : Reader RetrySettings := fun j =>
  (Reader.record (fun members =>
    mk <$> Reader.withDefault members "base_delay_seconds" default.baseDelay readPositive
      <*> Reader.withDefault members "max_delay_seconds" default.maxDelay readPositive
      <*> Reader.withDefault members "max_retries" default.maxRetries readMaxRetries
      <*> Reader.withDefault members "jitter_min" default.jitterMin readFactor
      <*> Reader.withDefault members "jitter_max" default.jitterMax readFactor) j).andThen checkBounds

end RetrySettings

/-- A dedicated worker serves only the subscriptions that name it. `concurrency` is the number of
independent claim loops; a claim older than the timeout and the grace period counts as abandoned. -/
structure WorkerSettings where
  name : String
  version : Option String
  dedicated : Bool
  concurrency : Int
  connectTimeout : Float
  timeout : Float
  claimGrace : Float
  minPoll : Float
  maxPoll : Float
  disableTargetCheck : Bool
  signatureHeader : String
  signedHeaders : List String
  maxBodyBytes : Int

namespace WorkerSettings

def defaultSignedHeaders : List String := ["hook0-event-id", "hook0-event-type"]

def default : WorkerSettings where
  name := "default"
  version := none
  dedicated := false
  concurrency := 1
  connectTimeout := 5.0
  timeout := 15.0
  claimGrace := 30.0
  minPoll := 1.0
  maxPoll := 10.0
  disableTargetCheck := false
  signatureHeader := "Hook0-Signature"
  signedHeaders := defaultSignedHeaders
  maxBodyBytes := 65536

def checkPolling (s : WorkerSettings) : Validated WorkerSettings :=
  if s.minPoll > s.maxPoll then
    .fail (RetrySettings.inverted "min_poll_seconds" s.minPoll "max_poll_seconds" s.maxPoll)
  else .valid s

def readConcurrency : Reader Int := fun j =>
  ((Reader.integer j).require (1 ≤ ·) .greaterThanEqual).require (· ≤ 256) .lessThanEqual

def readNonnegative : Reader Float := fun j => (Reader.float j).require (· ≥ 0.0) .greaterThanEqual

def readSize : Reader Int := fun j => (Reader.integer j).require (0 ≤ ·) .greaterThanEqual

def read : Reader WorkerSettings := fun j =>
  let positive := RetrySettings.readPositive
  (Reader.record (fun members =>
    mk <$> Reader.withDefault members "name" default.name (Reader.textOfLength 1)
      <*> Reader.withDefault members "version" none (Reader.nullable Reader.text)
      <*> Reader.withDefault members "dedicated" false Reader.boolean
      <*> Reader.withDefault members "concurrency" 1 readConcurrency
      <*> Reader.withDefault members "connect_timeout_seconds" default.connectTimeout positive
      <*> Reader.withDefault members "timeout_seconds" default.timeout positive
      <*> Reader.withDefault members "claim_grace_seconds" default.claimGrace readNonnegative
      <*> Reader.withDefault members "min_poll_seconds" default.minPoll positive
      <*> Reader.withDefault members "max_poll_seconds" default.maxPoll positive
      <*> Reader.withDefault members "disable_target_ip_check" false Reader.boolean
      <*> Reader.withDefault members "signature_header_name" default.signatureHeader
        (Reader.textOfLength 1)
      <*> Reader.withDefault members "signed_headers" defaultSignedHeaders (Reader.list Reader.text)
      <*> Reader.withDefault members "max_response_body_bytes" default.maxBodyBytes readSize)
    j).andThen checkPolling

/-- The age in seconds from which a claim counts as abandoned. -/
def staleSeconds (s : WorkerSettings) : Float := s.timeout + s.claimGrace

end WorkerSettings

inductive Stage where
  | development
  | production
  | test
  deriving DecidableEq, Repr

def Stage.name : Stage → String
  | development => "development"
  | production => "production"
  | test => "test"

inductive LogFormat where
  | json
  | text
  deriving DecidableEq, Repr

def LogFormat.name : LogFormat → String
  | json => "json"
  | text => "text"

structure Settings where
  stage : Stage
  databasePath : String
  busyTimeoutMs : Int
  retry : RetrySettings
  worker : WorkerSettings
  signatureTolerance : Int
  logLevel : String
  logFormat : LogFormat

namespace Settings

def default : Settings where
  stage := .development
  databasePath := "hook0.db"
  busyTimeoutMs := 5000
  retry := RetrySettings.default
  worker := WorkerSettings.default
  signatureTolerance := 300
  logLevel := "INFO"
  logFormat := .json

def fieldNames : List String :=
  ["env", "database_path", "store_busy_timeout_ms", "retry", "worker",
    "signature_tolerance_seconds", "log_level", "log_format"]

def readStage : Reader Stage :=
  Reader.oneOf ([Stage.development, .production, .test].map fun s => (s.name, s)) .literal

def readLogFormat : Reader LogFormat :=
  Reader.oneOf ([LogFormat.json, .text].map fun f => (f.name, f)) .literal

def readTolerance : Reader Int := fun j => (Reader.integer j).require (1 ≤ ·) .greaterThanEqual

def read : Reader Settings :=
  Reader.closedRecord fieldNames fun members =>
    mk <$> Reader.withDefault members "env" default.stage readStage
      <*> Reader.withDefault members "database_path" default.databasePath Reader.text
      <*> Reader.withDefault members "store_busy_timeout_ms" default.busyTimeoutMs
        WorkerSettings.readSize
      <*> Reader.withDefault members "retry" default.retry RetrySettings.read
      <*> Reader.withDefault members "worker" default.worker WorkerSettings.read
      <*> Reader.withDefault members "signature_tolerance_seconds" default.signatureTolerance
        readTolerance
      <*> Reader.withDefault members "log_level" default.logLevel Reader.text
      <*> Reader.withDefault members "log_format" default.logFormat readLogFormat

/-- What a deployment should be told about its settings. -/
def warnings (s : Settings) : List String :=
  if s.stage = .production ∧ s.worker.disableTargetCheck then
    ["Target IP check is disabled in production: webhooks may reach loopback or private addresses."]
  else []

end Settings
end WebhookDelivery
