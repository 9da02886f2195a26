import Mathlib.Algebra.Group.Nat.Defs
import WebhookDelivery.Delivery.Client
import WebhookDelivery.Proofs.HeaderFields

/-!
# WebhookDelivery.Proofs.DeliveryHeaders

The headers of a delivery as they are sent, from those of the target to those of the credentials.

* `outboundHeaders_eq_ok`: what was put over the target's headers, and in which order.
* `valuesOf_outboundHeaders`: an event is described by single headers, whatever the target's are.
* `isAccepted_outboundHeaders`: the receiver can verify the signature, unless the credentials of the
  URL replace a header that it covers, or the signature itself.
-/

namespace WebhookDelivery

/-! ## Seconds of a clock -/

namespace Double

theorem decode?_bounds {x : Float} {d : Dyadic} (h : decode? x = some d) :
    d.mantissa < 2 ^ 53 ∧ d.exponent ≤ 971 := by
  have hfraction : x.toBits.toNat % Nat.pow 2 52 < 2 ^ 52 := Nat.mod_lt _ (by decide)
  have hbiased : x.toBits.toNat / Nat.pow 2 52 % Nat.pow 2 11 < 2048 := Nat.mod_lt _ (by decide)
  have hpow : Nat.pow 2 52 = 2 ^ 52 := rfl
  unfold decode? at h
  dsimp only at h
  split at h
  · cases h
  · split at h
    · cases h
      dsimp only
      omega
    · cases h
      dsimp only
      omega

theorem mul_two_pow_lt {m e k l : Nat} (hm : m < 2 ^ k) (he : e ≤ l) : m * 2 ^ e < 2 ^ (k + l) :=
  calc m * 2 ^ e
      ≤ m * 2 ^ l := Nat.mul_le_mul_left m (Nat.pow_le_pow_right (by decide) he)
    _ < 2 ^ k * 2 ^ l := Nat.mul_lt_mul_of_pos_right hm (Nat.pow_pos (by decide))
    _ = 2 ^ (k + l) := by rw [Nat.pow_add]

/-- A number that is cut to an integer is less than the least infinite one. -/
theorem natAbs_truncate?_lt {x : Float} {i : Int} (h : truncate? x = some i) :
    i.natAbs < 2 ^ (53 + 971) := by
  obtain ⟨d, hd, hi⟩ := Option.map_eq_some_iff.1 h
  obtain ⟨hmantissa, hexponent⟩ := decode?_bounds hd
  have habs : i.natAbs = Dyadic.floorAbs d := by
    rw [← hi]
    split <;> simp
  rw [habs, Dyadic.floorAbs]
  split
  · have hle : d.exponent.toNat ≤ 971 := by omega
    have hlt := mul_two_pow_lt hmantissa hle
    exact hlt
  · refine (Nat.div_le_self _ _).trans_lt ?_
    have hone := mul_two_pow_lt hmantissa (Nat.zero_le 971)
    rwa [Nat.pow_zero, Nat.mul_one] at hone

end Double

/-- An integer has no more decimal digits than binary ones. -/
theorem Integer.digitCount_le {i : Int} {k : Nat} (hk : 0 < k) (h : i.natAbs < 2 ^ k) :
    digitCount i ≤ k :=
  (Nat.length_toDigits_le_iff (by decide) hk).2 (h.trans_le (Nat.pow_le_pow_left (by decide) k))

/-- The seconds of a clock are never too long to be read. -/
theorem ClockTime.digitCount_unixSeconds (micros : Int) :
    Integer.digitCount (unixSeconds micros) ≤ Integer.maxDigits := by
  unfold unixSeconds
  cases ht : Double.truncate? (Double.ofRatio micros 1000000) with
  | none => decide
  | some i =>
    exact (Integer.digitCount_le (by decide) (Double.natAbs_truncate?_lt ht)).trans (by decide)

/-! ## Covered headers -/

/-- Headers are chosen from entries by names that may be in any case, each at most once. -/
structure Chosen (entries : List (String × String)) (names : List String)
    (covered : List (String × String)) : Prop where
  nodup : (covered.map (·.1)).Nodup
  get? : ∀ e ∈ covered, Entries.get? entries e.1 = some e.2
  named : ∀ e ∈ covered, e.1 ∈ names.map Text.lowerString

theorem Chosen.put {entries covered : List (String × String)} {names : List String}
    (h : Chosen entries names covered) {name value : String} (hn : name ∈ names)
    (hget : Entries.get? entries (Text.lowerString name) = some value) :
    Chosen entries names (Entries.put covered (Text.lowerString name) value) where
  nodup := Entries.nodup_put h.nodup _ _
  get? := by
    intro e he
    rcases Entries.mem_put he with rfl | he
    · exact hget
    · exact h.get? e he
  named := by
    intro e he
    rcases Entries.mem_put he with rfl | he
    · exact List.mem_map_of_mem hn
    · exact h.named e he

/-- What one of the chosen names adds to the covered headers. -/
def coverHeader (b : HeaderBlock) (covered : List (String × String)) (name : String) :
    Except HeaderError (List (String × String)) :=
  match b.get? name with
  | .error e => .error e
  | .ok none => .ok covered
  | .ok (some value) => .ok (Entries.put covered (Text.lowerString name) value)

theorem signedHeaders_eq (b : HeaderBlock) (names : List String) :
    signedHeaders b names = names.foldlM (coverHeader b) [] := rfl

/-- The covered headers are those of the block that were chosen. -/
theorem chosen_signedHeaders {fields : List HeaderField} {entries : List (String × String)}
    (h : HeaderBlock.Lists fields entries) {b : HeaderBlock} (hb : b = ⟨fields, none⟩)
    {names : List String} {covered : List (String × String)}
    (hcovered : signedHeaders b names = .ok covered) : Chosen entries names covered := by
  have hall : ∀ (rest : List String) (done : List (String × String)), (∀ n ∈ rest, n ∈ names) →
      Chosen entries names done → rest.foldlM (coverHeader b) done = .ok covered →
      Chosen entries names covered := by
    intro rest
    induction rest with
    | nil =>
      intro done _ hdone hfold
      cases hfold
      exact hdone
    | cons name rest ih =>
      intro done hsub hdone hfold
      rw [List.forall_mem_cons] at hsub
      rw [List.foldlM_cons, coverHeader] at hfold
      cases hget : b.get? name with
      | error e =>
        rw [hget] at hfold
        cases hfold
      | ok found =>
        rw [hget] at hfold
        cases found with
        | none => exact ih done hsub.2 hdone hfold
        | some value => exact ih _ hsub.2 (hdone.put hsub.1 (h.get?_eq_ok hb hget).symm) hfold
  rw [signedHeaders_eq] at hcovered
  exact hall names [] (fun _ hn => hn) ⟨by simp, by simp, by simp⟩ hcovered

namespace Signature

theorem lowerNames_eq_self {headers : List (String × String)}
    (hlower : ∀ h ∈ headers, Text.lowerString h.1 = h.1) (hn : (headers.map (·.1)).Nodup) :
    lowerNames headers = headers := by
  have hmap : headers.map (fun h => (Text.lowerString h.1, h.2)) = headers := by
    conv => rhs; rw [← List.map_id headers]
    refine List.map_congr_left fun h hh => ?_
    rw [hlower h hh]
    rfl
  rw [lowerNames, hmap, Entries.ofList_of_nodup hn]

theorem parse_sign {payload : Bytes} {timestamp : Int} {secret : String}
    {covered : List (String × String)} (hnames : ∀ h ∈ covered, IsHeaderName h.1)
    (hcount : Integer.digitCount timestamp ≤ Integer.maxDigits) :
    parse (sign payload timestamp secret covered) =
      .ok (make payload timestamp secret covered) := by
  have hnormal : (make payload timestamp secret covered).IsNormal :=
    ⟨.inr rfl, fun name h => isHeaderName_of_mem_lowerNames hnames h⟩
  have hcount' : Integer.digitCount (make payload timestamp secret covered).timestamp ≤
      Integer.maxDigits := hcount
  rw [sign, parse_toHeader hnormal, if_pos hcount']

/-- The text of a signature is accepted at the time that it gives, whatever is tolerated. -/
def IsAccepted (text : String) (payload : Bytes) (secret : String)
    (received : List (String × String)) : Prop :=
  ∃ s, parse text = .ok s ∧ ∀ tolerance : Option Int, (∀ t, tolerance = some t → 0 ≤ t) →
    verify text payload [secret] received tolerance (.whole s.timestamp) = .ok true

/-- A signature is accepted where every covered header is received with its value. -/
theorem isAccepted_sign {payload : Bytes} {timestamp : Int} {secret : String}
    {covered received : List (String × String)} (hnames : ∀ h ∈ covered, IsHeaderName h.1)
    (hcovered : lowerNames covered = covered) (hreceived : lowerNames received = received)
    (hget : ∀ h ∈ covered, Entries.get? received h.1 = some h.2)
    (hcount : Integer.digitCount timestamp ≤ Integer.maxDigits) :
    IsAccepted (sign payload timestamp secret covered) payload secret received := by
  have hcarries : Carries covered received := by
    intro h hh
    rw [hcovered] at hh
    rw [hreceived, hget h hh]
    rfl
  have hcontent : receivedContent payload timestamp covered received =
      signedContent payload timestamp covered := by
    have hvalues : receivedValues covered received = covered.map (·.2) := by
      rw [receivedValues, hcovered, hreceived]
      exact List.map_congr_left fun h hh => by simp [hget h hh]
    rw [receivedContent, signedContent, hvalues, hcovered]
  have hmatches : (make payload timestamp secret covered).matchesAny payload [secret] received =
      true := by
    simp [matchesAny, claimed?_make, hcarries, hcontent]
  have hparse : parse (sign payload timestamp secret covered) =
      .ok (make payload timestamp secret covered) := parse_sign hnames hcount
  refine ⟨_, hparse, fun tolerance htolerance => ?_⟩
  rw [verify, hparse]
  cases tolerance with
  | none => simp [hmatches]
  | some t => simp [Seconds.farFrom, hmatches, htolerance t rfl]

end Signature

/-! ## Credentials of a URL -/

/-- A URL carries a user name or a password. -/
def Url.carriesCredentials (text : String) : Bool :=
  (Url.credentials? text).isSome

/-- The header that credentials are sent in. -/
def authorizationHeader : String := "Authorization"

/-- Credentials are put in the place of what the header had. -/
theorem Client.addCredentials_eq_ok {url : String} {b b' : HeaderBlock}
    (h : addCredentials url b = .ok b') : (Url.carriesCredentials url = false ∧ b' = b) ∨
      Url.carriesCredentials url = true ∧ ∃ token, b.put authorizationHeader token = .ok b' := by
  unfold addCredentials at h
  unfold Url.carriesCredentials
  cases hc : Url.credentials? url with
  | none =>
    rw [hc] at h
    cases h
    exact .inl ⟨rfl, rfl⟩
  | some credentials =>
    rw [hc] at h
    exact .inr ⟨rfl, _, h⟩

/-! ## Outbound headers -/

/-- The headers that describe an event. -/
def Event.headers (e : Event) : List (String × String) :=
  [(contentTypeHeader, e.contentType), (eventIdHeader, e.eventId.write),
    (eventTypeHeader, e.eventType)]

/-- The names of the headers that describe events. -/
def eventHeaderNames : List String := [contentTypeHeader, eventIdHeader, eventTypeHeader]

theorem Event.mem_eventHeaderNames {e : Event} {h : String × String} (hh : h ∈ e.headers) :
    h.1 ∈ eventHeaderNames := by
  have hnames : e.headers.map (·.1) = eventHeaderNames := rfl
  rw [← hnames]
  exact List.mem_map_of_mem hh

theorem isHeaderName_eventHeaderNames : ∀ name ∈ eventHeaderNames,
    Signature.IsHeaderName name ∧ Text.lowerString name ≠ Text.lowerString authorizationHeader := by
  decide +kernel

theorem nodup_eventHeaderNames : (eventHeaderNames.map HeaderField.keyOf).Nodup := by
  decide +kernel

theorem isAscii_eventHeaderNames {name : String} (h : name ∈ eventHeaderNames) :
    ∀ c ∈ name.toList, c.toNat < 0x80 :=
  fun c hc => ((isHeaderName_eventHeaderNames name h).1.plain c hc).1

theorem isAscii_authorizationHeader : ∀ c ∈ authorizationHeader.toList, c.toNat < 0x80 := by
  have h : Signature.IsHeaderName authorizationHeader := by decide +kernel
  exact fun c hc => (h.plain c hc).1

theorem eventHeaders_eq (event : Event) (target : Target) : eventHeaders event target =
    HeaderBlock.ofAscii target.headers >>= fun b => b.putAll event.headers := by
  simp [eventHeaders, HeaderBlock.putAll, Event.headers]

namespace Client

/-- The headers of a delivery as they are sent. -/
def outboundHeaders (settings : WorkerSettings) (event : Event) (subscription : Subscription)
    (timestamp : Int) : Except HeaderError HeaderBlock :=
  deliveryHeaders settings event subscription timestamp >>= sendable >>=
    addCredentials subscription.target.url

/-- The steps in which the headers of a delivery are made: the target's own ones, those of the event
over them, and the signature over these, which covers some of them. -/
structure Steps (settings : WorkerSettings) (event : Event) (subscription : Subscription)
    (timestamp : Int) where
  own : HeaderBlock
  described : HeaderBlock
  covered : List (String × String)
  signed : HeaderBlock
  own_eq : HeaderBlock.ofAscii subscription.target.headers = .ok own
  described_eq : own.putAll event.headers = .ok described
  covered_eq : signedHeaders described settings.signedHeaders = .ok covered
  signed_eq : (if settings.signedHeaders.isEmpty then described else described.settle).put
    settings.signatureHeader (Signature.sign event.payload timestamp subscription.secret covered) =
      .ok signed
  sendable : ∀ f ∈ signed.fields, ∀ b ∈ f.name, b < 0x80

theorem outboundHeaders_eq_ok {settings : WorkerSettings} {event : Event}
    {subscription : Subscription} {timestamp : Int} {sent : HeaderBlock}
    (h : outboundHeaders settings event subscription timestamp = .ok sent) :
    ∃ x : Steps settings event subscription timestamp,
      addCredentials subscription.target.url x.signed = .ok sent := by
  obtain ⟨b, hb, hsent⟩ := bind_eq_ok h
  obtain ⟨c, hc, hsendable⟩ := bind_eq_ok hb
  rw [deliveryHeaders, eventHeaders_eq] at hc
  obtain ⟨described, hdescribed, hc⟩ := bind_eq_ok hc
  obtain ⟨own, hown, hdescribed⟩ := bind_eq_ok hdescribed
  obtain ⟨covered, hcovered, hsigned⟩ := bind_eq_ok hc
  unfold Client.sendable at hsendable
  split at hsendable
  · rename_i hascii
    cases hsendable
    exact ⟨⟨own, described, covered, b, hown, hdescribed, hcovered, hsigned, by simpa using hascii⟩,
      hsent⟩
  · cases hsendable

namespace Steps

variable {settings : WorkerSettings} {event : Event} {subscription : Subscription}
  {timestamp : Int} (x : Steps settings event subscription timestamp)

def signature : String :=
  Signature.sign event.payload timestamp subscription.secret x.covered

theorem own_fields : x.own = ⟨subscription.target.headers.map .ofText, none⟩ :=
  (HeaderBlock.ofAscii_eq_ok x.own_eq).1

theorem described_fields :
    x.described = ⟨HeaderBlock.putFields x.own.fields event.headers, none⟩ := by
  rw [HeaderBlock.putAll_eq_ok (by simp [own_fields]) x.described_eq, x.own_fields]

theorem isText_described : HeaderBlock.IsText x.described.fields := by
  rw [x.described_fields]
  refine HeaderBlock.IsText.putFields (fun f hf => ?_) event.headers
  rw [x.own_fields] at hf
  obtain ⟨h, -, rfl⟩ := List.mem_map.1 hf
  exact ⟨h, rfl⟩

theorem encoding_described : x.described.encoding = none := by
  rw [x.described_fields]

/-- The block that the signature is put into. -/
def unsigned : HeaderBlock :=
  if settings.signedHeaders.isEmpty then x.described else x.described.settle

theorem fields_unsigned : x.unsigned.fields = x.described.fields := by
  unfold unsigned
  split <;> rfl

theorem encoding_unsigned : x.unsigned.encoding ≠ some .latin1 := by
  unfold unsigned
  split
  · simp [x.encoding_described]
  · have hne := x.isText_described.encodingOf_ne (by simp [x.encoding_described])
    simpa [HeaderBlock.settle] using hne

theorem signed_fields : x.signed = ⟨HeaderBlock.putField
    (.ofText (settings.signatureHeader, x.signature)) x.described.fields, x.unsigned.encoding⟩ := by
  rw [← x.fields_unsigned]
  exact HeaderBlock.put_eq_ok x.encoding_unsigned x.signed_eq

theorem encoding_signed : x.signed.encoding ≠ some .latin1 := by
  rw [x.signed_fields]
  exact x.encoding_unsigned

include x in
/-- The name of the signature's header is in ASCII. -/
theorem isAscii_signatureHeader : ∀ c ∈ settings.signatureHeader.toList, c.toNat < 0x80 := by
  have hsendable := x.sendable
  rw [x.signed_fields] at hsendable
  exact Text.forall_mem_utf8_lt.1 (hsendable _ (HeaderBlock.mem_putField_self _ _))

/-- Each header of the event is the only one of its name, unless the signature takes its name. -/
theorem valuesOf_signed {h : String × String} (hh : h ∈ event.headers)
    (hne : Text.lowerString settings.signatureHeader ≠ Text.lowerString h.1) :
    x.signed.valuesOf h.1 = [Text.utf8String h.2] := by
  have hkey : HeaderField.keyOf settings.signatureHeader ≠ HeaderField.keyOf h.1 :=
    HeaderBlock.keyOf_ne x.isAscii_signatureHeader
      (isAscii_eventHeaderNames (Event.mem_eventHeaderNames hh)) hne
  have hnames : (event.headers.map fun h => HeaderField.keyOf h.1).Nodup := nodup_eventHeaderNames
  have hdescribed := HeaderBlock.valuesOf_putAll (by simp [own_fields]) hnames x.described_eq h hh
  have hunsigned : x.unsigned.valuesOf h.1 = x.described.valuesOf h.1 := by
    rw [HeaderBlock.valuesOf, HeaderBlock.valuesOf, x.fields_unsigned]
  have hsigned : x.signed.valuesOf h.1 = x.unsigned.valuesOf h.1 :=
    HeaderBlock.valuesOf_put_of_ne x.encoding_unsigned hkey x.signed_eq
  rw [hsigned, hunsigned, hdescribed]

end Steps

/-- An event is described by single headers, whatever the target's are. -/
theorem valuesOf_outboundHeaders {settings : WorkerSettings} {event : Event}
    {subscription : Subscription} {timestamp : Int} {sent : HeaderBlock}
    (hsent : outboundHeaders settings event subscription timestamp = .ok sent)
    {h : String × String} (hh : h ∈ event.headers)
    (hne : Text.lowerString settings.signatureHeader ≠ Text.lowerString h.1) :
    sent.valuesOf h.1 = [Text.utf8String h.2] := by
  obtain ⟨x, hx⟩ := outboundHeaders_eq_ok hsent
  have hsigned := x.valuesOf_signed hh hne
  rcases addCredentials_eq_ok hx with ⟨-, rfl⟩ | ⟨-, token, hput⟩
  · exact hsigned
  · have hmem := Event.mem_eventHeaderNames hh
    have hkey : HeaderField.keyOf authorizationHeader ≠ HeaderField.keyOf h.1 :=
      HeaderBlock.keyOf_ne isAscii_authorizationHeader (isAscii_eventHeaderNames hmem)
        (isHeaderName_eventHeaderNames h.1 hmem).2.symm
    rw [HeaderBlock.valuesOf_put_of_ne x.encoding_signed hkey hput, hsigned]

end Client

/-! ## Verification -/

/-- What the receiver of a request needs to verify it. The target's headers have ordinary names that
differ in more than case, the signature's header is none that is covered or describes the event, and
the credentials of the URL replace neither it nor a covered header of the target. -/
structure WorkerSettings.SignsFor (settings : WorkerSettings) (target : Target) : Prop where
  names : ∀ h ∈ target.headers, Signature.IsHeaderName h.1
  distinct : (target.headers.map fun h => Text.lowerString h.1).Nodup
  apart : Text.lowerString settings.signatureHeader ∉
    (settings.signedHeaders ++ eventHeaderNames).map Text.lowerString
  credentials : Url.carriesCredentials target.url = true →
    Text.lowerString settings.signatureHeader ≠ Text.lowerString authorizationHeader ∧
    ¬ (Text.lowerString authorizationHeader ∈ settings.signedHeaders.map Text.lowerString ∧
      Text.lowerString authorizationHeader ∈ target.headers.map fun h => Text.lowerString h.1)

/-- The names of a target's headers in lower case, with their values. -/
def Target.entries (target : Target) : List (String × String) :=
  target.headers.map fun h => (Text.lowerString h.1, h.2)

/-- The same with the headers of an event put over them. -/
def Event.entriesOver (event : Event) (target : Target) : List (String × String) :=
  Entries.putLower target.entries event.headers

theorem Event.mem_entriesOver {event : Event} {target : Target} {e : String × String}
    (h : Entries.get? (event.entriesOver target) e.1 = some e.2) :
    e.1 ∈ (target.headers.map fun h => Text.lowerString h.1) ∨
      e.1 ∈ eventHeaderNames.map Text.lowerString := by
  have hmem : e.1 ∈ (event.entriesOver target).map (·.1) := by
    rw [← Entries.contains_iff_mem, ← Entries.isSome_get?, h]
    rfl
  simpa [Target.entries, Event.headers, eventHeaderNames] using Entries.mem_fst_putLower hmem

namespace Client.Steps

variable {settings : WorkerSettings} {event : Event} {subscription : Subscription}
  {timestamp : Int} (x : Steps settings event subscription timestamp)

/-- The entries of the headers of the event and of the signature. -/
def signedEntries : List (String × String) :=
  Entries.put (event.entriesOver subscription.target) (Text.lowerString settings.signatureHeader)
    x.signature

/-- Entries that are received: the signed ones, with the credentials that the URL carries. -/
def IsReceived (received : List (String × String)) : Prop :=
  received = x.signedEntries ∨ Url.carriesCredentials subscription.target.url = true ∧
    ∃ token, received = Entries.put x.signedEntries (Text.lowerString authorizationHeader) token

section
variable (hs : settings.SignsFor subscription.target)
include hs

theorem lists_described :
    HeaderBlock.Lists x.described.fields (event.entriesOver subscription.target) := by
  have hown := HeaderBlock.lists_of_ofAscii x.own_eq hs.distinct
  rw [x.described_fields]
  exact hown.putFields fun h hh => isAscii_eventHeaderNames (Event.mem_eventHeaderNames hh)

theorem chosen_covered :
    Chosen (event.entriesOver subscription.target) settings.signedHeaders x.covered := by
  refine chosen_signedHeaders (x.lists_described hs) ?_ x.covered_eq
  rw [x.described_fields]

theorem isHeaderName_covered : ∀ h ∈ x.covered,
    Signature.IsHeaderName h.1 ∧ Text.lowerString h.1 = h.1 := by
  intro h hh
  rcases Event.mem_entriesOver ((x.chosen_covered hs).get? h hh) with hmem | hmem
  · obtain ⟨own, hown, hname⟩ := List.mem_map.1 hmem
    have hordinary := hs.names own hown
    rw [← hname]
    exact ⟨hordinary.lowerString, hordinary.lowerString_idem⟩
  · obtain ⟨name, hname, heq⟩ := List.mem_map.1 hmem
    have hordinary := (isHeaderName_eventHeaderNames name hname).1
    rw [← heq]
    exact ⟨hordinary.lowerString, hordinary.lowerString_idem⟩

/-- What is put under a name that is not covered leaves the covered headers as they are. -/
theorem get?_received {received : List (String × String)} (hreceived : x.IsReceived received) :
    Entries.get? received (Text.lowerString settings.signatureHeader) = some x.signature ∧
      ∀ h ∈ x.covered, Entries.get? received h.1 = some h.2 := by
  have hchosen := x.chosen_covered hs
  have hsigned : ∀ h ∈ x.covered, Entries.get? x.signedEntries h.1 = some h.2 := by
    intro h hh
    rw [signedEntries, Entries.get?_put_of_ne, hchosen.get? h hh]
    intro hname
    refine hs.apart ?_
    rw [hname, List.map_append]
    exact List.mem_append_left _ (hchosen.named h hh)
  rcases hreceived with rfl | ⟨hcredentials, token, rfl⟩
  · exact ⟨Entries.get?_put_self _ _ _, hsigned⟩
  · obtain ⟨hsignature, hcovered⟩ := hs.credentials hcredentials
    refine ⟨?_, fun h hh => ?_⟩
    · rw [Entries.get?_put_of_ne hsignature.symm, signedEntries, Entries.get?_put_self]
    · rw [Entries.get?_put_of_ne, hsigned h hh]
      intro hname
      have hnamed := hchosen.named h hh
      rcases Event.mem_entriesOver (hchosen.get? h hh) with hmem | hmem
      · rw [← hname] at hnamed hmem
        exact hcovered ⟨hnamed, hmem⟩
      · rw [← hname] at hmem
        obtain ⟨name, hname, heq⟩ := List.mem_map.1 hmem
        exact (isHeaderName_eventHeaderNames name hname).2 heq

theorem isReceived_toEntries {sent : HeaderBlock}
    (h : addCredentials subscription.target.url x.signed = .ok sent) :
    x.IsReceived (HeaderBlock.toEntries ⟨sent.fields, none⟩) ∧
      Signature.lowerNames (HeaderBlock.toEntries ⟨sent.fields, none⟩) =
        HeaderBlock.toEntries ⟨sent.fields, none⟩ := by
  have hsigned : HeaderBlock.Lists x.signed.fields x.signedEntries := by
    rw [x.signed_fields]
    exact (x.lists_described hs).put x.isAscii_signatureHeader x.signature
  rcases addCredentials_eq_ok h with ⟨-, rfl⟩ | ⟨hcredentials, token, hput⟩
  · rw [hsigned.toEntries_eq rfl]
    exact ⟨.inl rfl,
      Signature.lowerNames_eq_self (fun e he => hsigned.lowerString_eq he) hsigned.nodup⟩
  · have hsent := hsigned.put isAscii_authorizationHeader token
    rw [HeaderBlock.put_eq_ok x.encoding_signed hput, hsent.toEntries_eq rfl]
    exact ⟨.inr ⟨hcredentials, token, rfl⟩,
      Signature.lowerNames_eq_self (fun e he => hsent.lowerString_eq he) hsent.nodup⟩

end
end Client.Steps

/-- The receiver of a delivery can verify its signature at the time at which it was signed. -/
theorem Client.isAccepted_outboundHeaders {settings : WorkerSettings} {event : Event}
    {subscription : Subscription} {timestamp : Int} {sent : HeaderBlock}
    (hs : settings.SignsFor subscription.target)
    (hcount : Integer.digitCount timestamp ≤ Integer.maxDigits)
    (hsent : outboundHeaders settings event subscription timestamp = .ok sent) :
    ∃ signature, Entries.get? (HeaderBlock.toEntries ⟨sent.fields, none⟩)
        (Text.lowerString settings.signatureHeader) = some signature ∧
      Signature.IsAccepted signature event.payload subscription.secret
        (HeaderBlock.toEntries ⟨sent.fields, none⟩) := by
  obtain ⟨x, hx⟩ := outboundHeaders_eq_ok hsent
  obtain ⟨hreceived, hlower⟩ := x.isReceived_toEntries hs hx
  obtain ⟨hsignature, hget⟩ := x.get?_received hs hreceived
  have hordinary := x.isHeaderName_covered hs
  have hcovered : Signature.lowerNames x.covered = x.covered :=
    Signature.lowerNames_eq_self (fun h hh => (hordinary h hh).2) (x.chosen_covered hs).nodup
  exact ⟨x.signature, hsignature, Signature.isAccepted_sign
    (fun h hh => (hordinary h hh).1) hcovered hlower hget hcount⟩

end WebhookDelivery
