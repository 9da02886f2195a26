import WebhookDelivery.Delivery.Header

/-!
# WebhookDelivery.Delivery.Exchange

One HTTP exchange as the receiver plays it: a reply after some time, whose body comes in pieces with
delays and faults between them. The body is read up to a limit, and the whole exchange must be over
within a time.

* `ExchangeFault.ofClass`: what an error is taken for.
* `ofReply`: what comes of an exchange with a reply.
-/

namespace WebhookDelivery

/-- How an exchange can break off. -/
inductive ExchangeFault where
  | timeout
  | invalidUrl (message : String)
  | unsupportedProtocol (message : String)
  | connection (message : String)
  | crash (message : String)
  deriving DecidableEq, Repr

namespace ExchangeFault

/-- The classes of errors that an exchange is broken off by, each with the one that it extends. What
extends a class stands before it. -/
def bases : List (String × String) :=
  [("ConnectTimeout", "TimeoutException"), ("ReadTimeout", "TimeoutException"),
    ("WriteTimeout", "TimeoutException"), ("PoolTimeout", "TimeoutException"),
    ("TimeoutException", "TransportError"), ("ConnectError", "NetworkError"),
    ("ReadError", "NetworkError"), ("WriteError", "NetworkError"), ("CloseError", "NetworkError"),
    ("NetworkError", "TransportError"), ("LocalProtocolError", "ProtocolError"),
    ("RemoteProtocolError", "ProtocolError"), ("ProtocolError", "TransportError"),
    ("ProxyError", "TransportError"), ("UnsupportedProtocol", "TransportError"),
    ("TransportError", "RequestError"), ("DecodingError", "RequestError"),
    ("TooManyRedirects", "RequestError")]

/-- A class and all that it extends. -/
def classes (name : String) : List String :=
  bases.foldl (fun known e => if known.contains e.1 then e.2 :: known else known) [name]

/-- The fault that an error of a class is. What is none of a request is not caught. -/
def ofClass (name message : String) : ExchangeFault :=
  let classes := classes name
  if classes.contains "TimeoutError" || classes.contains "TimeoutException" then .timeout
  else if classes.contains "InvalidURL" then .invalidUrl message
  else if classes.contains "UnsupportedProtocol" then .unsupportedProtocol message
  else if classes.contains "RequestError" then .connection message
  else .crash message

end ExchangeFault

inductive Chunk where
  | data (bytes : Bytes)
  | delay (micros : Int)
  | fault (f : ExchangeFault)
  deriving DecidableEq, Repr

structure Reply where
  status : Int
  headers : List HeaderField
  takes : Int
  fault : Option ExchangeFault
  chunks : List Chunk
  deriving DecidableEq, Repr

inductive ExchangeResult where
  | complete (body : Bytes)
  | timedOut
  | broken (f : ExchangeFault)
  deriving DecidableEq, Repr

/-- What came of an exchange, the microseconds that it took, and the number of pieces read. -/
structure Exchange where
  result : ExchangeResult
  elapsed : Int
  chunksRead : Nat
  deriving DecidableEq, Repr

namespace Exchange

/-- The time allowed for an exchange; nothing where there is no end to it. -/
abbrev Allowance := Option Int

def exceeds (allowed : Allowance) (elapsed : Int) : Bool :=
  match allowed with
  | none => false
  | some limit => limit < elapsed

/-- An exchange that was cut off when its time was up. -/
def cutOff (allowed : Allowance) (elapsed : Int) (chunksRead : Nat) : Exchange :=
  ⟨.timedOut, allowed.getD elapsed, chunksRead⟩

/-- The bytes before an index, which counts from the end where it is negative. -/
def before (index : Int) (bytes : Bytes) : Bytes :=
  if index < 0 then bytes.take (bytes.length + index).toNat else bytes.take index.toNat

/-- As long as a body is within the limit, what is left of the limit counts from the beginning. -/
theorem before_sub {limit : Nat} {body : Bytes} (h : body.length ≤ limit) (bytes : Bytes) :
    before (limit - body.length) bytes = bytes.take (limit - body.length) := by
  rw [before, if_neg (by omega)]
  congr 1
  omega

/-- Reads pieces after `body`. Reading stops with the first piece that is not empty and brings the
body to the limit; of that piece only what fits is kept. -/
def readBody (limit : Nat) (allowed : Allowance) (body : Bytes) (elapsed : Int)
    (chunksRead : Nat) : List Chunk → Exchange
  | [] => ⟨.complete body, elapsed, chunksRead⟩
  | .data bytes :: rest =>
    if bytes.isEmpty then readBody limit allowed body elapsed (chunksRead + 1) rest
    else
      let body := body ++ before (limit - body.length) bytes
      if limit ≤ body.length then ⟨.complete body, elapsed, chunksRead + 1⟩
      else readBody limit allowed body elapsed (chunksRead + 1) rest
  | .delay micros :: rest =>
    if exceeds allowed (elapsed + micros) then cutOff allowed elapsed chunksRead
    else readBody limit allowed body (elapsed + micros) chunksRead rest
  | .fault f :: _ => ⟨.broken f, elapsed, chunksRead⟩

def ofReply (limit : Nat) (allowed : Allowance) (r : Reply) : Exchange :=
  if exceeds allowed r.takes then cutOff allowed 0 0
  else match r.fault with
    | some f => ⟨.broken f, r.takes, 0⟩
    | none => readBody limit allowed [] r.takes 0 r.chunks

end Exchange
end WebhookDelivery
