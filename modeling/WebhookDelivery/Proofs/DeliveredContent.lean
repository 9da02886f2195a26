import WebhookDelivery.Proofs.RetryBounds
import WebhookDelivery.Proofs.Sending
import WebhookDelivery.Proofs.Statuses

/-!
# WebhookDelivery.Proofs.DeliveredContent

What is delivered is the event as it was first submitted, and its signature can be verified.

* `Submissions onFile s events`: a store is reached in which `events` were submitted, in this order,
  whatever else was done to it.
* `Submissions.content_event?`: what is stored of an event is the first that was submitted under its
  identifier, but for the time of its dispatch.
* `deliveries_carry_first_event`: so is what workers send, with the headers that describe the event,
  and the receiver can verify it.
* `credentials_break_signature`: unless the credentials of a URL replace a header that was signed.
-/

namespace WebhookDelivery

/-- An event but for the time of its dispatch, which alone changes. -/
def Event.content (e : Event) : Event := { e with dispatchedAt := none }

@[simp] theorem Event.payload_content (e : Event) : e.content.payload = e.payload := rfl

@[simp] theorem Event.headers_content (e : Event) : e.content.headers = e.headers := rfl

/-! ## Events by their content -/

namespace Tables

theorem content_markDispatched (t : Tables) (id : Uuid) (now : Int) (id' : Uuid) :
    ((t.markDispatched id now).2.event? id').map Event.content =
      (t.event? id').map Event.content := by
  unfold markDispatched
  dsimp only
  rw [t.event?_updateRows (fun e => { e with dispatchedAt := some now }) fun _ => rfl]
  cases t.event? id' with
  | none => rfl
  | some e =>
    simp only [Option.map_some]
    split <;> rfl

/-- An event that is inserted is found if there was none of its identifier. -/
theorem event?_insertEvent_eq (t : Tables) (e : Event) (id : Uuid) :
    (t.insertEvent e).2.event? id =
      (t.event? id).or ([e].find? (·.eventId == id)) := by
  by_cases hid : e.eventId = id
  · subst hid
    rw [t.event?_insertEvent]
    cases t.event? e.eventId <;> simp
  · rw [t.event?_insertEvent_of_ne hid]
    simp [hid]

end Tables

/-- What an ingested event is found as, but for its mark. -/
theorem Data.content_ingest (d : Data) (e : Event) (now : Int) (id : Uuid) :
    ((d.ingest e now).tables.event? id).map Event.content =
      ((d.tables.insertEvent e).2.event? id).map Event.content := by
  have hfanOut : ((d.insertEvent e).fanOut (d.asStored e) now).tables.event? id =
      ((d.tables.insertEvent e).2.markDispatched (d.asStored e).eventId now).2.event? id :=
    event?_fanOut _ _ _ _
  cases he : d.tables.event? e.eventId with
  | none =>
    have hnew : d.ingest e now = (d.insertEvent e).fanOut (d.asStored e) now := by
      unfold ingest insertEvent Tables.insertEvent asStored
      rw [he]
      rfl
    rw [hnew, hfanOut, Tables.content_markDispatched]
  | some stored =>
    rcases d.ingest_cases e now with hd | hd
    · have hsame : (d.tables.insertEvent e).2 = d.tables := by
        unfold Tables.insertEvent
        rw [he]
        rfl
      rw [hd, hsame]
    · rw [hd, hfanOut, Tables.content_markDispatched]

namespace Call

variable {x : Call}

/-- The event that a call has submitted with success. -/
def accepted? (x : Call) : Option Event :=
  match x.answer with
  | .ok _ => x.operation.submitted
  | .error _ => none

/-- A submitted event is found unless another of its identifier was stored before. -/
theorem content_after (hi : x.before.IsIdle) (id : Uuid) :
    (x.after.tables.event? id).map Event.content =
      ((x.before.tables.event? id).or
        (x.accepted?.toList.find? (·.eventId == id))).map Event.content := by
  unfold accepted?
  cases ha : x.answer with
  | error e => simp [tables_of_error hi ha]
  | ok a =>
    dsimp only
    cases hop : x.operation with
    | storeEvent e =>
      rw [tables_of_storeEvent hop ha, Tables.event?_insertEvent_eq]
      rfl
    | ingest e now =>
      rw [tables_of_ingest hop ha, Data.content_ingest, Tables.event?_insertEvent_eq]
      rfl
    | _ =>
      have hnone : x.operation.submitted = none := by
        rw [hop]
        rfl
      have he : x.after.tables.events = x.before.tables.events :=
        (Operation.meets_events hnone x.world).2 a ha
      unfold Tables.event?
      rw [he]
      simp [Operation.submitted]

end Call

/-! ## Changes that submit no event -/

/-- A transaction keeps what holds of the tables before it if its statements do. -/
theorem Engine.atomically_invariant {α : Type} {body : Engine α} {w : World}
    (hi : w.store.IsIdle) {I : Tables → Prop} (h : I w.store.tables)
    (hm : (atomically body).Meets fun d _ d' => I d.tables → I d'.tables) :
    I (atomically body w).2.store.tables := by
  cases hr : (atomically body w).1 with
  | error e =>
    rw [Reverts.atomically body w hi.inTransaction e hr]
    exact h
  | ok a => exact (hm w).2 a hr h

theorem Engine.content_markDispatched {w : World} (hi : w.store.IsIdle) (id : Uuid) (time : Int)
    (id' : Uuid) : ((markDispatched id time w).2.store.tables.event? id').map Event.content =
      (w.store.tables.event? id').map Event.content := by
  refine atomically_invariant hi
    (I := fun t => (t.event? id').map Event.content =
      (w.store.tables.event? id').map Event.content) rfl ?_
  refine (meets_markDispatched id time).mono ?_
  rintro d _ d' ⟨ht, -⟩ hd
  have htables : d'.tables = (d.tables.markDispatched id time).2 := congrArg Prod.snd ht
  rw [htables, Tables.content_markDispatched]
  exact hd

namespace Store

variable {s t : Store}

theorem Tampers.events (h : s.Tampers t) (hi : s.IsIdle) : t.tables.events = s.tables.events := by
  obtain ⟨-, heq | ⟨id, edit, n, he⟩⟩ := h.tables hi
  · rw [heq]
  · exact (Tables.editAttempt_frame he).1

theorem Inserts.events (h : s.Inserts t) (hi : s.IsIdle) : t.tables.events = s.tables.events := by
  obtain ⟨-, heq | ⟨a, key, isNew, hn⟩⟩ := h.tables hi
  · rw [heq]
  · rw [(Tables.insertAttempt_eq_ok hn).1]
    exact (s.tables.offer_frame _).1

end Store

/-! ## Submitted events -/

/-- A store that is reached, and the events that were submitted in the meantime, in their order.
Besides calls, events are marked, rows are changed from outside and attempts are inserted. -/
inductive Submissions (onFile : Bool) : Store → List Event → Prop
  | create : Submissions onFile (.create onFile) []
  | call {events : List Event} (x : Call) (h : Submissions onFile x.before events) :
      Submissions onFile x.after (events ++ x.accepted?.toList)
  | mark {events : List Event} {w : World} (h : Submissions onFile w.store events) (id : Uuid)
      (time : Int) : Submissions onFile (Engine.markDispatched id time w).2.store events
  | stray {events : List Event} {s t : Store} (h : Submissions onFile s events)
      (hs : s.Tampers t ∨ s.Inserts t) : Submissions onFile t events

namespace Submissions

variable {onFile : Bool} {s t : Store} {events : List Event}

theorem strays (h : Submissions onFile s events) : (Store.create onFile).Strays s := by
  induction h with
  | create => exact .refl
  | call x _ ih =>
    refine ih.tail (.inl ⟨.operation x.operation, x.world, rfl, ?_⟩)
    rw [Request.run, Engine.store_map]
    rfl
  | @mark _ w _ id time ih =>
    refine ih.tail (.inl ⟨.markDispatched id time, w, rfl, ?_⟩)
    rw [Request.run, Engine.store_map]
  | stray _ hs ih => exact ih.tail (.inr hs)

theorem isIdle (h : Submissions onFile s events) : s.IsIdle :=
  (h.strays.isCoherent (Store.isCoherent_create onFile)).idle

/-- What is stored of an event is the first that was submitted under its identifier. -/
theorem content_event? (h : Submissions onFile s events) (id : Uuid) :
    (s.tables.event? id).map Event.content =
      (events.find? (·.eventId == id)).map Event.content := by
  induction h with
  | create => rfl
  | call x hx ih =>
    rw [Call.content_after hx.isIdle, List.find?_append, Option.map_or, Option.map_or, ih]
  | mark hx id time ih => rw [Engine.content_markDispatched hx.isIdle, ih]
  | stray hx hs ih =>
    have he := hs.elim (fun h => h.events hx.isIdle) fun h => h.events hx.isIdle
    rw [← ih]
    unfold Tables.event?
    rw [he]

theorem run {calls : List Call} (h : Submissions onFile s events) (hrun : Run s calls t) :
    Submissions onFile t (events ++ calls.flatMap (·.accepted?.toList)) := by
  induction hrun generalizing events with
  | nil => simpa using h
  | @cons x _ _ _ ih =>
    rw [List.flatMap_cons, ← List.append_assoc]
    exact ih (h.call x)

end Submissions

/-- Whatever is done to a store, some events were submitted to it. -/
theorem Store.Strays.exists_submissions {onFile : Bool} {s : Store}
    (h : (Store.create onFile).Strays s) : ∃ events, Submissions onFile s events := by
  induction h with
  | refl => exact ⟨[], .create⟩
  | tail _ hstep ih =>
    obtain ⟨events, hs⟩ := ih
    rcases hstep with ⟨q, w, rfl, rfl⟩ | hstray
    · rcases q.run_calls w with ⟨id, time, rfl⟩ | ⟨calls, hrun, -⟩
      · rw [Request.run, Engine.store_map]
        exact ⟨events, hs.mark id time⟩
      · exact ⟨_, hs.run hrun⟩
    · exact ⟨events, hs.stray hstray⟩

/-! ## Claims -/

/-- A claim is handed out with its event as it was stored before. -/
theorem Call.HandsOutClaim.event? {x : Call} {claim : Claim} (h : x.HandsOutClaim claim) :
    x.before.tables.event? claim.attempt.eventId = some claim.event := by
  obtain ⟨b, hb, hm⟩ := h
  obtain ⟨r, hr⟩ := (x.operation.meets_isOf x.world).2 b hb claim hm
  have hevents : x.world.data.tables.event? r.eventId = some claim.event := by
    have hevent := hr.loads.event
    unfold Tables.event? at hevent ⊢
    rwa [hr.events] at hevent
  rw [(AttemptRow.read_eq_ok hr.loads.attempt).2.2.1]
  exact hevents

theorem Call.Claims.handsOutClaim {x : Call} {claim : Claim} (h : x.Claims claim) :
    x.HandsOutClaim claim := by
  obtain ⟨_, _, -, ha⟩ := h
  exact ⟨_, ha, List.mem_cons_self⟩

/-- The event of a claim is the first that was submitted under the identifier of its attempt. -/
theorem Submissions.content_of_claim {onFile : Bool} {s : Store} {events : List Event}
    (h : Submissions onFile s events) {x : Call} {claim : Claim} (hx : x.HandsOutClaim claim)
    (hevents : x.before.tables.events = s.tables.events) :
    ∃ e, events.find? (·.eventId == claim.attempt.eventId) = some e ∧
      claim.event.content = e.content := by
  have hfound : s.tables.event? claim.attempt.eventId = some claim.event := by
    rw [← hx.event?, Tables.event?, Tables.event?, hevents]
  have hcontent := h.content_event? claim.attempt.eventId
  rw [hfound] at hcontent
  obtain ⟨e, he, hsame⟩ := Option.map_eq_some_iff.1 hcontent.symm
  exact ⟨e, he, hsame.symm⟩

/-! ## Deliveries -/

namespace SentRequest

/-- The headers of a request as they are received. -/
def received (r : SentRequest) : List (String × String) :=
  HeaderBlock.toEntries ⟨r.headers.fields, none⟩

/-- A request carries an event to a subscription: the payload as its body, a single header for each
that describes the event unless the signature takes its name, and a signature that the receiver
accepts. -/
structure Carries (r : SentRequest) (settings : WorkerSettings) (s : Subscription) (e : Event) :
    Prop where
  body : r.body = e.payload
  described : ∀ h ∈ e.headers,
    Text.lowerString settings.signatureHeader ≠ Text.lowerString h.1 →
      r.headers.valuesOf h.1 = [Text.utf8String h.2]
  verified : settings.SignsFor s.target → ∃ signature,
    Entries.get? r.received (Text.lowerString settings.signatureHeader) = some signature ∧
      Signature.IsAccepted signature r.body s.secret r.received

theorem IsDelivery.carries {r : SentRequest} {settings : WorkerSettings} {event e : Event}
    {s : Subscription} {now : Int}
    (h : r.IsDelivery settings event s (ClockTime.unixSeconds now))
    (he : event.content = e.content) : r.Carries settings s e := by
  have hpayload : event.payload = e.payload := by
    rw [← event.payload_content, he, e.payload_content]
  have hheaders : event.headers = e.headers := by
    rw [← event.headers_content, he, e.headers_content]
  refine ⟨h.body.trans hpayload, fun field hfield hne => ?_, fun hs => ?_⟩
  · rw [← hheaders] at hfield
    exact Client.valuesOf_outboundHeaders h.headers hfield hne
  · rw [h.body]
    exact Client.isAccepted_outboundHeaders hs (ClockTime.digitCount_unixSeconds now) h.headers

end SentRequest

/-- Whatever was submitted, also again under the same identifier, and whatever else was done to the
store: an execution of a claim and a turn of a unit send nothing but requests that carry the event
that was first submitted under the identifier of the attempt. -/
theorem deliveries_carry_first_event {onFile : Bool} :
    (∀ s, (Store.create onFile).Strays s → ∃ events, Submissions onFile s events) ∧
    (∀ (q : IngestRequest) now e, q.toEvent now = .ok e → q.Describes e) ∧
    ∀ events,
      (∀ (x : Call) claim, Submissions onFile x.before events → x.HandsOutClaim claim →
        ∃ e, events.find? (·.eventId == claim.attempt.eventId) = some e ∧
          ∀ u : WorkerUnit,
            (u.process claim).Sends (·.Carries u.settings claim.subscription e)) ∧
      ∀ (w : World), Submissions onFile w.store events → ∀ u : WorkerUnit,
        ∃ sent, (u.runOnce w).2.2.network.requests = w.network.requests ++ sent ∧
          ∀ r ∈ sent, ∃ (x : Call) (claim : Claim) (e : Event), w.store.Leads x.before ∧
            x.Claims claim ∧
            events.find? (·.eventId == claim.attempt.eventId) = some e ∧
            r.Carries u.settings claim.subscription e := by
  refine ⟨fun s hs => hs.exists_submissions, fun q now e => IngestRequest.describes_toEvent,
    fun events => ⟨fun x claim h hx => ?_, fun w h u => ?_⟩⟩
  · obtain ⟨e, he, hcontent⟩ := h.content_of_claim hx rfl
    refine ⟨e, he, fun u => (u.sends_process claim).mono fun r hr => ?_⟩
    obtain ⟨now, hdelivery⟩ := hr
    exact hdelivery.carries hcontent
  · obtain ⟨sent, hsent, hall⟩ := u.sends_runOnce w
    refine ⟨sent, hsent, fun r hr => ?_⟩
    obtain ⟨x, claim, now, hleads, hevents, hx, hdelivery⟩ := hall r hr
    obtain ⟨e, he, hcontent⟩ := h.content_of_claim hx.handsOutClaim hevents
    exact ⟨x, claim, e, hleads, hx, he, hdelivery.carries hcontent⟩

namespace Sample

/-- A subscription whose target sets headers of its own, one of which describes the content. -/
def tagged : Subscription :=
  { subscription with
    eventTypes := ["user.créé"]
    target := ⟨"POST", "https://hooks.example.com/webhook",
      [("content-type", "text/plain"), ("X-Tenant", "a")]⟩ }

def original : Event :=
  { event with eventType := "user.créé", payload := Text.utf8String "\x7b\x7d" }

/-- Another event under the same identifier. -/
def copy : Event :=
  { original with payload := Text.utf8String "[]", contentType := "application/x-list" }

def sentTwice : List Operation :=
  [.saveSubscription tagged, .ingest original 0, .ingest copy 0]

/-- The attempt is claimed after the copy was submitted. -/
def claimAfterCopy : Call := ⟨.claim claimant 5, world.runAll sentTwice⟩

def claimOfOriginal : Claim where
  attempt := claimed 5
  event := { original with dispatchedAt := some 0 }
  subscription := tagged

/-- A unit that signs the content type and a header of the target. -/
def signing : WorkerUnit :=
  { unit with settings := { unit.settings with signedHeaders := ["Content-Type", "x-tenant"] } }

theorem submissions_claimAfterCopy : Submissions true claimAfterCopy.before [original, copy] := by
  have hstart : Submissions true world.store [] := .create
  have hevents : (Call.inTurn world sentTwice).flatMap (·.accepted?.toList) =
      [original, copy] := by decide +kernel
  have hafter := hstart.run (run_inTurn world sentTwice)
  rw [hevents, List.nil_append] at hafter
  rw [Call.before, claimAfterCopy]
  exact hafter

theorem requests_claimAfterCopy : claimAfterCopy.world.network.requests = [] :=
  List.length_eq_zero_iff.1 (by decide +kernel)

theorem exists_request :
    ∃ r, (signing.process claimOfOriginal claimAfterCopy.world).2.network.requests = [r] := by
  -- The seconds of the clock are not evaluated: any signature can be put into the block.
  have hheaders : (Client.outboundHeaders signing.settings claimOfOriginal.event tagged
      (ClockTime.unixSeconds claimAfterCopy.world.clock)).isOk := by decide +kernel
  cases h : Client.outboundHeaders signing.settings claimOfOriginal.event tagged
      (ClockTime.unixSeconds claimAfterCopy.world.clock) with
  | error e =>
    rw [h] at hheaders
    cases hheaders
  | ok headers =>
    obtain ⟨r, hr⟩ := signing.requests_process h (by decide +kernel)
    rw [requests_claimAfterCopy] at hr
    exact ⟨r, hr⟩

end Sample

open Sample in
/-- The copy is accepted, and the original is delivered. -/
theorem original_is_delivered : Submissions true claimAfterCopy.before [original, copy] ∧
    claimAfterCopy.HandsOutClaim claimOfOriginal ∧
    ∃ r, (signing.process claimOfOriginal claimAfterCopy.world).2.network.requests = [r] ∧
      r.body = Text.utf8String "\x7b\x7d" ∧
      r.headers.valuesOf contentTypeHeader = [Text.utf8String "application/json"] ∧
      ∃ signature, Entries.get? r.received "hook0-signature" = some signature ∧
        Signature.IsAccepted signature r.body "whsec_test" r.received := by
  have hclaim : claimAfterCopy.HandsOutClaim claimOfOriginal :=
    Call.handsOutClaim_of_only (by decide +kernel)
  refine ⟨submissions_claimAfterCopy, hclaim, ?_⟩
  obtain ⟨-, -, hall⟩ := @deliveries_carry_first_event true
  obtain ⟨e, he, hsends⟩ :=
    (hall [original, copy]).1 claimAfterCopy claimOfOriginal submissions_claimAfterCopy hclaim
  have hfirst : [original, copy].find? (·.eventId == claimOfOriginal.attempt.eventId) =
      some original := by decide +kernel
  obtain rfl : original = e := Option.some.inj (hfirst.symm.trans he)
  obtain ⟨sent, hsent, hcarries⟩ := hsends signing claimAfterCopy.world
  obtain ⟨r, hr⟩ := exists_request
  rw [hr, requests_claimAfterCopy, List.nil_append] at hsent
  have hc := hcarries r (hsent ▸ List.mem_cons_self)
  have hsigns : signing.settings.SignsFor tagged.target :=
    ⟨by decide +kernel, by decide +kernel, by decide +kernel, by decide +kernel⟩
  have hname : Text.lowerString signing.settings.signatureHeader = "hook0-signature" := by
    decide +kernel
  have hcontent := hc.described (contentTypeHeader, original.contentType) List.mem_cons_self
    (by decide +kernel)
  rw [← hname]
  exact ⟨r, hr, hc.body, hcontent, hc.verified hsigns⟩

namespace Sample

/-- A subscription whose URL carries credentials and whose target sets another authorization. -/
def credentialed : Subscription :=
  { subscription with target := ⟨"POST", "https://user:pw@hooks.example.com/webhook",
      [("Authorization", "Bearer x")]⟩ }

def authorizing : WorkerSettings :=
  { WorkerSettings.default with signedHeaders := ["authorization"] }

/-- The time that a signature gives and what the receiver says of it at noon on the first of March
2024. -/
def verdict? (headers : HeaderBlock) : Option (Option Int × Except SecondsError Bool) :=
  let received := HeaderBlock.toEntries ⟨headers.fields, none⟩
  (Entries.get? received (Text.lowerString authorizing.signatureHeader)).map fun signature =>
    ((Signature.parse signature).toOption.map (·.timestamp),
      Signature.verify signature event.payload [credentialed.secret] received
        (some Signature.defaultTolerance) (.whole 1709294400))

end Sample

open Sample in
set_option maxRecDepth 10000 in
/-- The header of the target is signed, and the credentials of the URL are sent in its place. -/
theorem credentials_break_signature :
    (∀ h ∈ credentialed.target.headers, Signature.IsHeaderName h.1 ∧ Text.isAscii h.2.toList) ∧
    (credentialed.target.headers.map fun h => Text.lowerString h.1).Nodup ∧
    Text.lowerString authorizing.signatureHeader ∉
      (authorizing.signedHeaders ++ eventHeaderNames).map Text.lowerString ∧
    ∃ r : SentRequest, r.IsDelivery authorizing event credentialed 1709294400 ∧
      ∃ signature, Entries.get? r.received (Text.lowerString authorizing.signatureHeader) =
          some signature ∧
        (Signature.parse signature).toOption.map (·.timestamp) = some 1709294400 ∧
        Signature.verify signature r.body [credentialed.secret] r.received
          (some Signature.defaultTolerance) (.whole 1709294400) = .ok false := by
  refine ⟨by decide +kernel, by decide +kernel, by decide +kernel, ?_⟩
  have hverdict : (Client.outboundHeaders authorizing event credentialed 1709294400).map verdict? =
      .ok (some (some 1709294400, .ok false)) := by decide +kernel
  cases hsent : Client.outboundHeaders authorizing event credentialed 1709294400 with
  | error e =>
    rw [hsent] at hverdict
    cases hverdict
  | ok headers =>
    rw [hsent] at hverdict
    obtain ⟨signature, hsignature, hsays⟩ := Option.map_eq_some_iff.1 (Except.ok.inj hverdict)
    obtain ⟨htime, hfalse⟩ := Prod.mk.inj hsays
    exact ⟨⟨_, _, headers, _, 0⟩, ⟨rfl, rfl, rfl, hsent⟩, signature, hsignature, htime, hfalse⟩

end WebhookDelivery
