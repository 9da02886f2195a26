import WebhookDelivery.Main
import WebhookDelivery.Api.Server
import WebhookDelivery.Session
import WebhookDelivery.Snapshot.Exchange
import WebhookDelivery.Store.Contention
import WebhookDelivery.Text.Lines
import WebhookDelivery.Text.Template
import WebhookDelivery.Proofs.Routing
import WebhookDelivery.Proofs.Tables
import WebhookDelivery.Proofs.Run
import WebhookDelivery.Proofs.ClaimExclusion
import WebhookDelivery.Proofs.WorkerRuns
import WebhookDelivery.Proofs.References
import WebhookDelivery.Proofs.ResponseHistory
import WebhookDelivery.Proofs.Integrity
import WebhookDelivery.Proofs.DispatchKeys
import WebhookDelivery.Proofs.FanOut
import WebhookDelivery.Proofs.OpenPairs
import WebhookDelivery.Proofs.SignatureText
import WebhookDelivery.Proofs.SignedContent
import WebhookDelivery.Proofs.Requests
import WebhookDelivery.Proofs.LifeCycle
import WebhookDelivery.Proofs.FirstDispatch
import WebhookDelivery.Proofs.Locality
import WebhookDelivery.Proofs.Tenancy
import WebhookDelivery.Proofs.Isolation
import WebhookDelivery.Proofs.Statuses
import WebhookDelivery.Proofs.Executions
import WebhookDelivery.Proofs.RetryBounds
import WebhookDelivery.Proofs.Programs
import WebhookDelivery.Proofs.Atomicity
import WebhookDelivery.Proofs.Encodings
import WebhookDelivery.Proofs.HeaderFields
import WebhookDelivery.Proofs.DeliveryHeaders
import WebhookDelivery.Proofs.Sending
import WebhookDelivery.Proofs.DeliveredContent
import WebhookDelivery.Proofs.LooseTexts
import WebhookDelivery.Proofs.Verification
import WebhookDelivery.Proofs.Outcomes
import WebhookDelivery.Proofs.Readability
import WebhookDelivery.Proofs.Recovery
import WebhookDelivery.Proofs.LetterCase
import WebhookDelivery.Proofs.NormalForm
import WebhookDelivery.Proofs.Agreement
import WebhookDelivery.Proofs.Grounding
import WebhookDelivery.Proofs.NextClaim
import WebhookDelivery.Proofs.Replays
import WebhookDelivery.Proofs.Addresses
import WebhookDelivery.Proofs.Targets
import WebhookDelivery.Proofs.Ingestion
import WebhookDelivery.Proofs.Durations
import WebhookDelivery.Proofs.Reaping
import WebhookDelivery.Proofs.Capitals
import WebhookDelivery.Proofs.JsonText
import WebhookDelivery.Proofs.Acceptance
import WebhookDelivery.Proofs.Origins
import WebhookDelivery.Proofs.Columns
import WebhookDelivery.Proofs.AcceptedRows
import WebhookDelivery.Proofs.Storage
import WebhookDelivery.Proofs.Listings
import WebhookDelivery.Proofs.Calendar
import WebhookDelivery.Proofs.Instants
import WebhookDelivery.Proofs.Truncation
