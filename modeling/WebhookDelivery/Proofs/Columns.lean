import WebhookDelivery.Proofs.Acceptance
import WebhookDelivery.Proofs.JsonText
import WebhookDelivery.Proofs.Readability

/-!
# WebhookDelivery.Proofs.Columns

The columns of a row tell its record.

* `Event.read_columns`, `Subscription.read_columns`, `Response.read_columns`: a record that obeys
  the rules of its kind is read back from the row that it is stored as, if its times lie in the
  calendar.
* `Event.read_columns_eq_check` and the like: nothing else can keep it from being read back.
* `Tables.columns_insertEvent`, `Tables.columns_saveSubscription`, `Tables.columns_insertResponse`:
  what the statements do to the columns is what they do to the records.
-/

namespace WebhookDelivery

/-! ## Values -/

namespace Column

theorem readId_write (id : Uuid) : readId id.write = .ok id := by
  rw [readId, Uuid.read?_write]

theorem readDocument_dump {space : List Char} (hspace : ∀ c ∈ space, Json.isSpace c = true)
    {j : Json} (h : j.IsPlain) : readDocument (String.ofList (j.dump space)) = .ok j := by
  rw [readDocument, String.toList_ofList, Json.parse_dump hspace h]
  rfl

theorem readDocument_columnText {j : Json} (h : j.IsPlain) : readDocument j.columnText = .ok j :=
  readDocument_dump (List.forall_mem_singleton.mpr rfl) h

theorem readTime_of_inRange {micros : Int} (h : ClockTime.inRange micros) :
    readTime micros = .ok (.utc micros) := by
  rw [readTime, ClockTime.ofMicros?, if_pos h]
  rfl

theorem readTime_of_not_inRange {micros : Int} (h : ¬ ClockTime.inRange micros) :
    readTime micros = .error (.record (.time .outOfRange)) := by
  rw [readTime, ClockTime.ofMicros?, if_neg h]
  rfl

/-- A column that may be empty is read back if it is where it is not. -/
theorem mapM_option_map {α β : Type} {read : String → Except ColumnError β} {write : α → String}
    {give : α → β} {x : Option α} (h : ∀ a ∈ x, read (write a) = .ok (give a)) :
    (x.map write).mapM read = .ok (x.map give) := by
  cases x with
  | none => rfl
  | some a =>
    rw [Option.map_some, Option.mapM_some, h a rfl]
    rfl

theorem readErrorName_code (kind : FailureKind) : readErrorName kind.code = .ok kind := by
  cases kind <;> rfl

end Column

namespace Json

theorem isPlain_ofEntries {entries : List (String × String)} (h : (entries.map (·.1)).Nodup) :
    (ofEntries entries).IsPlain := by
  refine .obj _ ?_ ?_
  · rw [List.map_map]
    exact h
  · intro m hm
    obtain ⟨e, -, rfl⟩ := List.mem_map.mp hm
    exact .str e.2

theorem isPlain_texts (texts : List String) : (arr (texts.map .str)).IsPlain := by
  refine .arr _ fun x hx => ?_
  obtain ⟨s, -, rfl⟩ := List.mem_map.mp hx
  exact .str s

end Json

theorem RetrySchedule.isPlain_document {s : RetrySchedule} (h : s.IsAccepted) :
    s.document.IsPlain := by
  have hshort : ∀ i : Int, 0 ≤ i → i ≤ secondsPerWeek →
      (Nat.toDigits 10 i.natAbs).length ≤ 4300 := by
    intro i hlow hhigh
    have hsmall : i.natAbs < 10 ^ 6 := by
      have : i ≤ 604800 := hhigh
      omega
    exact ((Nat.length_toDigits_le_iff (by decide) (by decide)).2 hsmall).trans (by decide)
  refine .obj _ (by simp) ?_
  rw [List.forall_mem_cons, List.forall_mem_cons, List.forall_mem_cons]
  refine ⟨.str _, .arr _ ?_, .int _ (hshort _ (by have := h.attempts.1; omega) ?_),
    fun _ hm => absurd hm List.not_mem_nil⟩
  · intro x hx
    obtain ⟨i, hi, rfl⟩ := List.mem_map.mp hx
    obtain ⟨hlow, hhigh⟩ := h.bounded i hi
    exact .int i (hshort i (by omega) hhigh)
  · exact h.attempts.2.trans (by decide)

/-! ## Members -/

namespace Reader

variable {α β : Type} {members : List (String × Json)} {name name' : String} {read : Reader α}
  {j : Json} {a : α}

/-- A record whose members are all known is what its members give. -/
theorem closedRecord_of_known {names : List String} {give : List (String × Json) → Validated α}
    (h : (members.map (·.1)).all names.contains = true) :
    closedRecord names give (.obj members) = give members := by
  have hothers : members.filter (fun m => !names.contains m.1) = [] := by
    rw [List.filter_eq_nil_iff]
    intro m hm
    have hknown := List.all_eq_true.mp h m.1 (List.mem_map_of_mem hm)
    rw [hknown]
    exact Bool.false_ne_true
  change ((give members).map fun x _ => x).seq (noOthers members names) = _
  rw [noOthers, hothers]
  cases give members <;> rfl

theorem required_of_find? (hfind : members.find? (·.1 == name) = some (name', j))
    (h : read j = .valid a) : required members name read = .valid a := by
  rw [required, hfind]
  dsimp only
  rw [h]
  rfl

theorem withDefault_of_find? (hfind : members.find? (·.1 == name) = some (name', j))
    (h : read j = .valid a) (standIn : α) : withDefault members name standIn read = .valid a := by
  rw [withDefault, hfind]
  dsimp only
  rw [h]
  rfl

theorem nullable_getD_map {x : Option β} {write : β → Json} {read : Reader β}
    (h : ∀ b ∈ x, write b ≠ .null ∧ read (write b) = .valid b) :
    nullable read ((x.map write).getD .null) = .valid x := by
  cases x with
  | none => rfl
  | some b =>
    obtain ⟨hne, hread⟩ := h b rfl
    rw [Option.map_some, Option.getD_some, nullable_of_ne_null hne, hread]
    rfl

end Reader

theorem Uuid.read_write (id : Uuid) : Reader.uuid (.str id.write) = .valid id := by
  rw [Reader.uuid, Uuid.read?_write]

/-! ## Rows -/

open Column

namespace Event

theorem readDocument_labels {e : Event} (h : e.IsAccepted) :
    readDocument (Json.ofEntries (Entries.sort e.labels)).columnText =
      .ok (Json.ofEntries e.labels) := by
  rw [Entries.sort_of_pairwise h.sorted]
  exact readDocument_columnText (Json.isPlain_ofEntries (h.sorted.imp ne_of_lt))

theorem read_columns {e : Event} (h : e.IsAccepted)
    (occurred : ClockTime.inRange e.occurredAt) (received : ClockTime.inRange e.receivedAt)
    (dispatched : ∀ t ∈ e.dispatchedAt, ClockTime.inRange t) : e.columns.read = .ok e := by
  have hdispatched : e.dispatchedAt.mapM readTime = .ok (e.dispatchedAt.map .utc) := by
    cases hd : e.dispatchedAt with
    | none => rfl
    | some t =>
      rw [Option.mapM_some, readTime_of_inRange (dispatched t hd)]
      rfl
  have hmicros : (e.dispatchedAt.map ClockTime.utc).map ClockTime.micros = e.dispatchedAt := by
    cases e.dispatchedAt with
    | none => rfl
    | some t => exact congrArg some (ClockTime.micros_utc t)
  unfold EventColumns.read
  simp only [Event.columns]
  rw [readId_write, readId_write, readDocument_labels h, readTime_of_inRange occurred,
    readTime_of_inRange received, hdispatched]
  dsimp only [bind, Except.bind]
  rw [Reader.textOfLength_one h.eventType, Reader.textOfLength_one h.contentType,
    readLabels_ofEntries h.labels h.sorted, ClockTime.micros_utc, ClockTime.micros_utc,
    hmicros]
  rfl

/-- The row of an event is read back exactly if the event passes its check. -/
theorem read_columns_eq_check {e : Event} (h : e.IsAccepted) :
    e.columns.read = e.check.mapError .record := by
  by_cases hc : e.check = .ok e
  · obtain ⟨⟨hoccurred, hreceived, hdispatched⟩, -⟩ := check_eq_ok_iff.mp hc
    rw [hc, read_columns h hoccurred hreceived fun t ht => by
      rwa [Option.mem_def.mp ht] at hdispatched]
    rfl
  · have hout : ¬ (ClockTime.inRange e.occurredAt ∧ ClockTime.inRange e.receivedAt ∧
        e.dispatchedAt.all ClockTime.inRange) := fun ht => hc (check_eq_ok_iff.mpr ⟨ht, h.labels⟩)
    have herror : e.check = .error (.time .outOfRange) := by
      have htimes : (!([e.occurredAt, e.receivedAt] ++ e.dispatchedAt.toList).all
          ClockTime.inRange) = true := by
        rw [Bool.not_eq_true', ← Bool.not_eq_true]
        cases hd : e.dispatchedAt <;> simpa [hd] using hout
      rw [check, if_pos htimes]
    rw [herror]
    unfold EventColumns.read
    simp only [columns]
    rw [readId_write, readId_write, readDocument_labels h]
    by_cases hoccurred : ClockTime.inRange e.occurredAt
    · by_cases hreceived : ClockTime.inRange e.receivedAt
      · obtain ⟨t, ht, hlate⟩ : ∃ t, e.dispatchedAt = some t ∧ ¬ ClockTime.inRange t := by
          cases hd : e.dispatchedAt <;> simp_all
        rw [readTime_of_inRange hoccurred, readTime_of_inRange hreceived, ht, Option.mapM_some,
          readTime_of_not_inRange hlate]
        rfl
      · rw [readTime_of_inRange hoccurred, readTime_of_not_inRange hreceived]
        rfl
    · rw [readTime_of_not_inRange hoccurred]
      rfl

end Event

namespace Subscription

/-- The members that are read from the columns of a subscription. -/
def members (s : Subscription) : List (String × Json) :=
  s.columns.members (.arr (s.eventTypes.map .str)) (Json.ofEntries s.target.headers)
    (.arr (s.dedicatedWorkers.map .str)) (s.retrySchedule.map RetrySchedule.document)

theorem readFields_members {s : Subscription} (h : s.IsAccepted) :
    readFields default s.createdAt.micros s.members = .valid s.toRow := by
  have hisEnabled : Reader.boolean (.bool (s.columns.isEnabled != 0)) = .valid s.isEnabled := by
    unfold columns
    cases s.isEnabled <;> rfl
  have heventTypes : readEventTypes (.arr (s.eventTypes.map .str)) = .valid s.eventTypes := by
    rw [readEventTypes, Reader.textSet_of_pairwise h.sorted]
    exact Validated.require_valid (by simpa using h.eventTypes)
  have hschedule : Reader.nullable RetrySchedule.read
      ((s.retrySchedule.map RetrySchedule.document).getD .null) = .valid s.retrySchedule :=
    Reader.nullable_getD_map fun schedule hs =>
      ⟨Json.noConfusion, RetrySchedule.read_document (h.schedule schedule hs)⟩
  have hdescription : Reader.nullable Reader.text (.ofString? s.description) =
      .valid s.description := by
    cases s.description <;> rfl
  rw [readFields, Reader.withDefault_of_find? rfl (Uuid.read_write s.subscriptionId),
    Reader.required_of_find? rfl (Uuid.read_write s.applicationId),
    Reader.withDefault_of_find? rfl hisEnabled, Reader.required_of_find? rfl heventTypes,
    Reader.required_of_find? rfl (Reader.textOfLength_one h.labelKey),
    Reader.required_of_find? rfl (Reader.textOfLength_one h.labelValue),
    Reader.required_of_find? rfl (Target.read_document h.target),
    Reader.required_of_find? rfl (Reader.textOfLength_one h.secret),
    Reader.withDefault_of_find? rfl (Reader.list_text s.dedicatedWorkers),
    Reader.withDefault_of_find? rfl hschedule, Reader.withDefault_of_find? rfl hdescription]
  rfl

theorem read_members {s : Subscription} (h : s.IsAccepted) :
    read default s.createdAt.micros (.obj s.members) = .valid s.toRow := by
  have hnames : s.members.map (·.1) = fieldNames.take 11 := rfl
  have hknown : (s.members.map (·.1)).all fieldNames.contains = true := by
    rw [hnames]
    decide
  rw [read, Reader.closedRecord_of_known hknown, readFields_members h]
  exact Validated.require_valid (decide_eq_true h.workers)

/-- The documents of a row are those that were written. -/
theorem readDocuments {s : Subscription} (h : s.IsAccepted) :
    readDocument s.columns.eventTypes = .ok (.arr (s.eventTypes.map .str)) ∧
      readDocument s.columns.targetHeaders = .ok (Json.ofEntries s.target.headers) ∧
      readDocument s.columns.dedicatedWorkers = .ok (.arr (s.dedicatedWorkers.map .str)) ∧
      s.columns.retrySchedule.mapM readDocument =
        .ok (s.retrySchedule.map RetrySchedule.document) := by
  have heventTypes : readDocument s.columns.eventTypes = .ok (.arr (s.eventTypes.map .str)) := by
    have hsort : s.eventTypes.mergeSort (fun a b => a ≤ b) = s.eventTypes :=
      List.mergeSort_of_pairwise (h.sorted.imp fun hlt => decide_eq_true hlt.le)
    rw [columns]
    dsimp only
    rw [hsort]
    exact readDocument_columnText (Json.isPlain_texts _)
  have hschedule : s.columns.retrySchedule.mapM readDocument =
      .ok (s.retrySchedule.map RetrySchedule.document) :=
    mapM_option_map fun schedule hs =>
      readDocument_dump (fun _ hc => absurd hc List.not_mem_nil)
        (RetrySchedule.isPlain_document (h.schedule schedule hs))
  exact ⟨heventTypes, readDocument_columnText (Json.isPlain_ofEntries h.target.headers),
    readDocument_columnText (Json.isPlain_texts _), hschedule⟩

/-- A subscription is read back from its row. -/
theorem read_columns {s : Subscription} (h : s.IsAccepted)
    (created : ClockTime.inRange s.createdAt.micros) : s.columns.read = .ok s.toRow := by
  obtain ⟨heventTypes, hheaders, hworkers, hschedule⟩ := readDocuments h
  have hcreated : readTime s.columns.createdAt = .ok (.utc s.createdAt.micros) :=
    readTime_of_inRange created
  unfold SubscriptionColumns.read
  rw [heventTypes, hheaders, hworkers, hschedule, hcreated]
  dsimp only [bind, Except.bind]
  rw [ClockTime.micros_utc]
  change (read default s.createdAt.micros (.obj s.members)).toExcept.mapError _ = _
  rw [read_members h]
  rfl

/-- The row of a subscription is read back exactly if its time can be read. -/
theorem read_columns_eq_readRow {s : Subscription} (h : s.IsAccepted) :
    s.columns.read = s.toRow.readRow.mapError .record := by
  have hmicros : s.toRow.createdAt.micros = s.createdAt.micros := ClockTime.micros_utc _
  unfold readRow
  rw [hmicros]
  split
  · rename_i created
    exact read_columns h created
  · rename_i hout
    obtain ⟨heventTypes, hheaders, hworkers, hschedule⟩ := readDocuments h
    have hcreated : readTime s.columns.createdAt = .error (.record (.time .outOfRange)) :=
      readTime_of_not_inRange hout
    unfold SubscriptionColumns.read
    rw [heventTypes, hheaders, hworkers, hschedule, hcreated]
    rfl

end Subscription

namespace Response

/-- Headers that are all texts. -/
def HasTextHeaders (r : Response) : Prop :=
  ∀ headers ∈ r.headers, ∀ x ∈ headers, ∃ s, x.2 = .str s

theorem readErrorName_columns (r : Response) :
    r.columns.errorName.mapM readErrorName = .ok r.error := by
  have hcodes : (r.error.map FailureKind.code).mapM readErrorName = .ok (r.error.map id) :=
    mapM_option_map fun kind _ => readErrorName_code kind
  rwa [Option.map_id_fun, id_eq] at hcodes

theorem readDocument_headers {r : Response} (h : r.IsAccepted) (texts : r.HasTextHeaders) :
    r.columns.headers.mapM readDocument = .ok (r.headers.map .obj) :=
  mapM_option_map fun headers hr => by
    refine readDocument_columnText (.obj _ (h.headers headers hr) fun m hm => ?_)
    obtain ⟨s, hs⟩ := texts headers hr m hm
    exact hs ▸ .str s

theorem read_columns {r : Response} (h : r.IsAccepted) (texts : r.HasTextHeaders)
    (created : ClockTime.inRange r.createdAt.micros) : r.columns.read = .ok r.toRow := by
  have herror := r.readErrorName_columns
  have hheaders := readDocument_headers h texts
  have hcreated : readTime r.columns.createdAt = .ok (.utc r.createdAt.micros) :=
    readTime_of_inRange created
  have hread : Reader.nullable (Reader.dictionary Reader.anything)
      ((r.headers.map Json.obj).getD .null) = .valid r.headers :=
    Reader.nullable_getD_map fun headers _ => ⟨Json.noConfusion, by
      have hdictionary := @Reader.dictionary_map Json Reader.anything id headers fun _ _ => rfl
      rwa [show headers.map (fun e => (e.1, id e.2)) = headers from List.map_id _] at hdictionary⟩
  have helapsed : (Validated.valid r.elapsedMs).require (0 ≤ ·) .greaterThanEqual =
      .valid r.elapsedMs :=
    Validated.require_valid (decide_eq_true h.elapsed)
  unfold ResponseColumns.read
  rw [herror, hheaders, hcreated]
  simp only [columns]
  rw [readId_write, readId_write, readId_write]
  dsimp only [bind, Except.bind]
  rw [hread, helapsed]
  rfl

/-- The row of a response is read back exactly if its time can be read. -/
theorem read_columns_eq_readRow {r : Response} (h : r.IsAccepted) (texts : r.HasTextHeaders) :
    r.columns.read = r.toRow.readRow.mapError .record := by
  have hmicros : r.toRow.createdAt.micros = r.createdAt.micros := ClockTime.micros_utc _
  unfold readRow
  rw [hmicros]
  split
  · rename_i created
    exact read_columns h texts created
  · rename_i hout
    have hcreated : readTime r.columns.createdAt = .error (.record (.time .outOfRange)) :=
      readTime_of_not_inRange hout
    unfold ResponseColumns.read
    rw [r.readErrorName_columns, readDocument_headers h texts, hcreated]
    simp only [columns]
    rw [readId_write, readId_write, readId_write]
    rfl

end Response

/-! ## Statements -/

theorem Uuid.write_beq (a b : Uuid) : (a.write == b.write) = (a == b) := by
  rw [Bool.eq_iff_iff, beq_iff_eq, beq_iff_eq]
  exact ⟨write_injective, congrArg write⟩

theorem Subscription.columns_toRow (s : Subscription) : s.toRow.columns = s.columns := by
  unfold toRow columns
  rw [ClockTime.micros_utc]

theorem Subscription.columns_updated {s old : Subscription}
    (h : old.subscriptionId = s.subscriptionId) :
    columns { s.toRow with applicationId := old.applicationId, createdAt := old.createdAt } =
      old.columns.updated s.columns := by
  have hid : old.columns.subscriptionId = s.columns.subscriptionId := congrArg Uuid.write h
  rw [SubscriptionColumns.updated, hid]
  rfl

theorem Response.columns_toRow (r : Response) : r.toRow.columns = r.columns := by
  unfold toRow columns
  rw [ClockTime.micros_utc]

namespace Tables

variable (t : Tables)

/-- Rows are selected by the texts of their identifiers as records are by their identifiers. -/
theorem find?_map_columns {α β : Type} {columns : α → β} {key : β → String} {id : α → Uuid}
    (h : ∀ a, key (columns a) = (id a).write) (rows : List α) (x : Uuid) :
    (rows.map columns).find? (key · == x.write) = (rows.find? (id · == x)).map columns := by
  have hselect : (fun row => key row == x.write) ∘ columns = fun a => id a == x :=
    funext fun a => by rw [Function.comp_apply, h, Uuid.write_beq]
  rw [List.find?_map, hselect]

theorem columns_event? (id : Uuid) :
    t.columns.event? id.write = (t.event? id).map Event.columns :=
  @find?_map_columns _ _ Event.columns EventColumns.eventId Event.eventId (fun _ => rfl) t.events id

theorem columns_subscription? (id : Uuid) :
    t.columns.subscription? id.write = (t.subscription? id).map Subscription.columns :=
  @find?_map_columns _ _ Subscription.columns SubscriptionColumns.subscriptionId
    Subscription.subscriptionId (fun _ => rfl) t.subscriptions id

theorem columns_response? (id : Uuid) :
    t.columns.response? id.write = (t.response? id).map Response.columns :=
  @find?_map_columns _ _ Response.columns ResponseColumns.responseId Response.responseId
    (fun _ => rfl) t.responses id

theorem columns_insertEvent (e : Event) :
    (t.insertEvent e).2.columns = t.columns.insertEvent e.columns := by
  have htaken : (t.columns.event? e.columns.eventId).isSome = (t.event? e.eventId).isSome := by
    rw [show e.columns.eventId = e.eventId.write from rfl, columns_event?, Option.isSome_map]
  unfold insertEvent ColumnTables.insertEvent
  rw [htaken]
  split
  · rfl
  · unfold columns
    rw [List.map_append]
    rfl

theorem columns_saveSubscription (s : Subscription) :
    (t.saveSubscription s).columns = t.columns.saveSubscription s.columns := by
  have htaken : (t.columns.subscription? s.columns.subscriptionId).isSome =
      t.subscriptions.any fun old => old.subscriptionId == s.toRow.subscriptionId := by
    rw [show s.columns.subscriptionId = s.subscriptionId.write from rfl, columns_subscription?,
      Option.isSome_map, subscription?, Bool.eq_iff_iff, List.find?_isSome, List.any_eq_true]
    rfl
  unfold saveSubscription ColumnTables.saveSubscription
  dsimp only
  rw [htaken]
  split
  · unfold columns updateRows
    dsimp only
    rw [List.map_map, List.map_map]
    refine congrArg (ColumnTables.mk _ · _) (List.map_congr_left fun old _ => ?_)
    rw [Function.comp_apply, Function.comp_apply]
    by_cases hid : old.subscriptionId = s.toRow.subscriptionId
    · have hsame : old.columns.subscriptionId = s.columns.subscriptionId := congrArg Uuid.write hid
      rw [if_pos (beq_iff_eq.mpr hid), if_pos (beq_iff_eq.mpr hsame)]
      exact Subscription.columns_updated hid
    · have hother : old.columns.subscriptionId ≠ s.columns.subscriptionId := fun hsame =>
        hid (Uuid.write_injective hsame)
      rw [if_neg (mt beq_iff_eq.mp hid), if_neg (mt beq_iff_eq.mp hother)]
  · unfold columns
    rw [List.map_append, List.map_singleton, Subscription.columns_toRow]

theorem columns_insertResponse {t t' : Tables} {r : Response} (h : t.insertResponse r = .ok t') :
    t.columns.insertResponse r.columns = .ok t'.columns := by
  have htaken : (t.columns.response? r.columns.responseId).isSome =
      (t.response? r.responseId).isSome := by
    rw [show r.columns.responseId = r.responseId.write from rfl, columns_response?,
      Option.isSome_map]
  unfold insertResponse at h
  unfold ColumnTables.insertResponse
  rw [htaken]
  split at h
  · cases h
  · rename_i hnew
    split at h
    · cases h
    · cases h
      rw [if_neg hnew]
      unfold columns
      rw [List.map_append, List.map_singleton, Response.columns_toRow]

end Tables
end WebhookDelivery
