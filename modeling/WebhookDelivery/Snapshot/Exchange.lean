import WebhookDelivery.Api.Message
import WebhookDelivery.Snapshot
import WebhookDelivery.World

/-!
# WebhookDelivery.Snapshot.Exchange

The requests that were sent, and the answers of the HTTP interface, as documents.
-/

namespace WebhookDelivery
namespace Snapshot

/-- Bytes as a text where they are ASCII. -/
def ofAsciiBytes (bs : Bytes) : Json :=
  if bs.all (· < 0x80) then .str (String.ofList (Text.utf8Lossy bs)) else ofBytes bs

/-- The headers of the connection, which are not shown. -/
def connectionHeaders : List Bytes :=
  ["host", "accept", "accept-encoding", "connection", "user-agent", "content-length",
    "transfer-encoding", "cookie"].map Text.utf8String

/-- The headers of a request by name, and of one name by value. -/
def ofHeaders (b : HeaderBlock) : Json :=
  let rows := (b.fields.map fun f => (f.key, f.value)).filter fun f =>
    !connectionHeaders.contains f.1
  let sorted := rows.mergeSort fun x y => x.1 < y.1 || (x.1 == y.1 && x.2 ≤ y.2)
  .arr (sorted.map fun f => .arr [ofAsciiBytes f.1, ofAsciiBytes f.2])

end Snapshot

instance : Snapshot SentRequest where
  snapshot r := .obj [("method", snapshot r.method), ("body", snapshot r.body),
    ("headers", Snapshot.ofHeaders r.headers), ("chunks_read", snapshot r.chunksRead)]

instance : Snapshot ApiAnswer where
  snapshot a :=
    let body :=
      match a.content with
      | .document j => snapshot j
      | .text s => .str s
      | .faults fs => .arr (fs.map fun f =>
          .obj [("loc", snapshot f.path), ("type", .str f.fault.code)])
    .obj [("status", snapshot a.status), ("body", body)]

end WebhookDelivery
