import Mathlib.Algebra.Ring.Int.Defs
import WebhookDelivery.Proofs.LifeCycle

/-!
# WebhookDelivery.Proofs.Statuses

The status of an attempt is told in three ways: by the attempt itself, by the conditions under which
a listing selects rows, and by the conditions under which rows are counted.

* `AttemptRow.record`, `read_eq_ok_iff`: the attempt that a row stands for, and when the row can be
  read back as it.
* `AttemptRow.EndsOnce`, `hasStatus_iff`: a row that has not ended in two ways is selected for a
  status exactly if that is the status of its attempt.
* `AttemptRow.countsAs_iff`: it adds to the number of a status exactly if it is selected for it.
* `Store.Strays`: requests lead from a store to another, with rows changed and attempts inserted from
  outside the engine in between; `Strays.isCoherent` says that all rows end at most once there.
* `statuses_agree`: the result about all these stores.
-/

namespace WebhookDelivery

section

variable {α β ε : Type} {read : α → Except ε β} {rows : List α}

/-- Rows that can all be read are read in turn. -/
theorem mapM_eq_ok {f : α → β} (h : ∀ x ∈ rows, read x = .ok (f x)) :
    rows.mapM read = .ok (rows.map f) := by
  induction rows with
  | nil => rfl
  | cons x rest ih =>
    rw [List.forall_mem_cons] at h
    rw [List.mapM_cons, h.1, ih h.2]
    rfl

theorem ok_of_mapM {found : List β} (h : rows.mapM read = .ok found) :
    ∀ x ∈ rows, ∃ y, read x = .ok y := by
  induction rows generalizing found with
  | nil => exact fun _ hx => absurd hx List.not_mem_nil
  | cons x rest ih =>
    rw [List.mapM_cons] at h
    cases hx : read x with
    | error e =>
      rw [hx] at h
      cases h
    | ok y =>
      rw [hx] at h
      cases hrest : rest.mapM read with
      | error e =>
        rw [hrest] at h
        cases h
      | ok more => exact List.forall_mem_cons.mpr ⟨⟨y, hx⟩, ih hrest⟩

end

namespace Truth

variable {a b : Truth} {column : Option Int}

@[simp]
theorem both_eq_true : both a b = some true ↔ a = some true ∧ b = some true := by
  rcases a with _ | _ | _ <;> rcases b with _ | _ | _ <;> simp [both]

@[simp]
theorem either_eq_true : either a b = some true ↔ a = some true ∨ b = some true := by
  rcases a with _ | _ | _ <;> rcases b with _ | _ | _ <;> simp [either]

@[simp]
theorem isNull_eq_true : isNull column = some true ↔ column.isNone = true := by
  rw [isNull, Option.some.injEq]

@[simp]
theorem isNotNull_eq_true : isNotNull column = some true ↔ column.isSome = true := by
  rw [isNotNull, Option.some.injEq]

@[simp]
theorem compare_eq_true {condition : Int → Bool} :
    compare column condition = some true ↔ ∃ n, column = some n ∧ condition n = true :=
  Option.map_eq_some_iff

/-- A sum that is taken for none where it is not there is the number of what is true. -/
theorem sum_getD (truths : List Truth) : (sum truths).getD 0 = truths.countP (· == some true) := by
  have hsum : (sum truths).getD 0 = (truths.filterMap id).countP id := by
    unfold sum
    cases truths.filterMap id <;> rfl
  rw [hsum, List.countP_filterMap]
  refine List.countP_congr fun t _ => ?_
  rcases t with _ | _ | _ <;> simp

end Truth

namespace AttemptRow

/-- The attempt that a row stands for, whether or not its times have a reading in the calendar. -/
def record (r : AttemptRow) : Attempt where
  attemptId := r.attemptId
  applicationId := r.applicationId
  eventId := r.eventId
  subscriptionId := r.subscriptionId
  createdAt := .utc r.createdAt
  pickedAt := r.pickedAt.map .utc
  succeededAt := r.succeededAt.map .utc
  failedAt := r.failedAt.map .utc
  retryCount := r.retryCount
  delayUntil := r.delayUntil.map .utc
  workerName := r.workerName
  workerVersion := r.workerVersion
  responseId := r.responseId

structure IsReadable (r : AttemptRow) : Prop where
  times : r.times.all ClockTime.inRange
  retryCount : r.retryCount ≤ maxInteger

theorem read_eq_ok_iff {r : AttemptRow} {a : Attempt} :
    r.read = .ok a ↔ r.IsReadable ∧ a = r.record := by
  unfold read
  constructor
  · intro h
    split at h
    · cases h
    · rename_i ht
      split at h
      · cases h
      · rename_i hc
        cases h
        exact ⟨⟨by simpa using ht, Int.not_lt.mp hc⟩, rfl⟩
  · rintro ⟨⟨ht, hc⟩, rfl⟩
    rw [ht, if_neg (by simp), if_neg (Int.not_lt.mpr hc)]
    rfl

theorem mapM_read {rows : List AttemptRow} (h : ∀ r ∈ rows, r.IsReadable) :
    rows.mapM read = .ok (rows.map record) :=
  mapM_eq_ok fun r hr => read_eq_ok_iff.mpr ⟨h r hr, rfl⟩

/-- One row that cannot be read spoils all of them. -/
theorem mapM_read_error {rows : List AttemptRow} (h : ∃ r ∈ rows, ¬ r.IsReadable) :
    ∃ e, rows.mapM read = .error e := by
  cases hm : rows.mapM read with
  | error e => exact ⟨e, rfl⟩
  | ok attempts =>
    obtain ⟨r, hr, hn⟩ := h
    obtain ⟨a, ha⟩ := ok_of_mapM hm r hr
    exact absurd (read_eq_ok_iff.mp ha).1 hn

/-- The row has not both succeeded and failed. -/
def EndsOnce (r : AttemptRow) : Prop := r.succeededAt = none ∨ r.failedAt = none

theorem isAfter?_utc {now : ClockTime} (aware : now.isAware) (due : Int) :
    (ClockTime.utc due).isAfter? now = .ok (decide (now.micros < due)) := by
  have hu : (ClockTime.utc due).isAware = true := rfl
  rw [ClockTime.isAfter?, hu, aware, ClockTime.micros_utc]
  rfl

/-- The conditions of the counts hold of a row where those of a listing select it. -/
theorem countsAs_iff (r : AttemptRow) (now : Int) (status : AttemptStatus) :
    r.countsAs now status = some true ↔ r.hasStatus now status := by
  have hdue : r.isDue now ↔ r.delayUntil.isNone ∨ ∃ due, r.delayUntil = some due ∧ due ≤ now := by
    unfold isDue
    cases r.delayUntil <;> simp
  have hlater : r.isDue now = false ↔ ∃ due, r.delayUntil = some due ∧ now < due := by
    unfold isDue
    cases r.delayUntil <;> simp
  cases status with
  | failed | successful => simp [countsAs, hasStatus]
  | inProgress => simp [countsAs, hasStatus, isOpen, and_comm]
  | waiting => simp [countsAs, hasStatus, isFree, isOpen, hlater, and_comm]
  | pending => simp [countsAs, hasStatus, isFree, isOpen, hdue, and_comm]

/-- The conditions of a query say the same of a row as its attempt does. -/
theorem hasStatus_iff {r : AttemptRow} (h : r.EndsOnce) {now : ClockTime} (aware : now.isAware)
    (status : AttemptStatus) :
    r.hasStatus now.micros status ↔ r.record.statusAt now = .ok status := by
  unfold Attempt.statusAt record
  simp only [Option.isSome_map]
  cases hf : r.failedAt with
  | some failedAt =>
    have hs : r.succeededAt = none := h.resolve_right (by simp [hf])
    cases status <;> simp [hasStatus, isFree, isOpen, hf, hs]
  | none =>
    cases hs : r.succeededAt with
    | some succeededAt => cases status <;> simp [hasStatus, isFree, isOpen, hf, hs]
    | none =>
      cases hp : r.pickedAt with
      | some pickedAt => cases status <;> simp [hasStatus, isFree, isOpen, hf, hs, hp]
      | none =>
        cases hd : r.delayUntil with
        | none => cases status <;> simp [hasStatus, isFree, isOpen, isDue, hf, hs, hp, hd]
        | some due =>
          by_cases hlt : now.micros < due
          · have hle : ¬ due ≤ now.micros := Int.not_le.mpr hlt
            cases status <;>
              simp [hasStatus, isFree, isOpen, isDue, hf, hs, hp, hd, isAfter?_utc aware, hlt, hle]
          · have hle : due ≤ now.micros := Int.not_lt.mp hlt
            cases status <;>
              simp [hasStatus, isFree, isOpen, isDue, hf, hs, hp, hd, isAfter?_utc aware, hlt, hle]

/-- Under a clock of known distance an attempt has one status. -/
theorem exists_statusAt (r : AttemptRow) {now : ClockTime} (aware : now.isAware) :
    ∃! status, r.record.statusAt now = .ok status := by
  have hsome : ∃ status, r.record.statusAt now = .ok status := by
    unfold Attempt.statusAt record
    simp only [Option.isSome_map]
    split
    · exact ⟨_, rfl⟩
    · split
      · exact ⟨_, rfl⟩
      · split
        · exact ⟨_, rfl⟩
        · cases r.delayUntil with
          | none => exact ⟨_, rfl⟩
          | some due =>
            simp only [Option.map_some, isAfter?_utc aware]
            exact ⟨_, rfl⟩
  obtain ⟨status, hs⟩ := hsome
  refine ⟨status, hs, fun other ho => ?_⟩
  rw [hs] at ho
  exact (Except.ok.inj ho).symm

/-! ## No row ends in two ways -/

theorem IsFresh.endsOnce {r : AttemptRow} (h : r.IsFresh) : r.EndsOnce := .inl h.succeededAt

theorem Evolves.endsOnce {ends : Ending → Prop} {r r' : AttemptRow} (h : r.Evolves ends r')
    (hr : r.EndsOnce) : r'.EndsOnce := by
  cases h with
  | same => exact hr
  | claimed c now _ _ => exact hr
  | ended e held _ =>
    obtain ⟨hs, hf⟩ := isOpen_iff.mp (ClaimToken.holds_iff.mp held).2.2.2
    cases he : e.outcome with
    | succeeded time => exact .inr hf
    | retried due => exact .inl hs
    | failed time => exact .inl hs

end AttemptRow

namespace Tables

theorem Change.endsOnce {ends : Ending → Prop} {t t' : Tables} (h : Change ends t t')
    (hs : t.Indexed) (ht : ∀ r ∈ t.attempts, r.EndsOnce) : ∀ r ∈ t'.attempts, r.EndsOnce := by
  intro r hr
  rcases h.attempts hs with ⟨new, fresh, -, ha⟩ | ⟨f, ha, hf⟩
  · rw [ha] at hr
    rcases List.mem_append.mp hr with hr | hr
    · exact ht r hr
    · rw [List.mem_singleton.mp hr]
      exact fresh.endsOnce
  · rw [ha] at hr
    obtain ⟨old, hold, rfl⟩ := List.mem_map.mp hr
    exact (hf old hold).endsOnce (ht old hold)

/-- The rules of the tables refuse a row that has ended in two ways. -/
theorem endsOnce_of_checkEdited {t : Tables} {old new : AttemptRow}
    (h : t.checkEdited old new = .ok ()) : new.EndsOnce := by
  unfold checkEdited at h
  dsimp only at h
  split at h
  · cases h
  · split at h
    · cases h
    · split at h
      · cases h
      · rename_i hn
        rw [Bool.and_eq_true, not_and_or] at hn
        simpa [AttemptRow.EndsOnce] using hn

theorem editAttempt_endsOnce {t t' : Tables} {id : Uuid} {edit : AttemptRow.Edit} {n : Nat}
    (h : t.editAttempt id edit = .ok (n, t')) (ht : ∀ r ∈ t.attempts, r.EndsOnce) :
    ∀ r ∈ t'.attempts, r.EndsOnce := by
  unfold editAttempt at h
  split at h
  · cases h
    exact ht
  · split at h
    · cases h
    · split at h
      · cases h
      · rename_i hc
        cases h
        intro r hr
        obtain ⟨old, hold, rfl⟩ := List.mem_map.mp hr
        split
        · exact endsOnce_of_checkEdited hc
        · exact ht old hold

end Tables

namespace Store

/-- An attempt is inserted as the caller gives it. -/
def Inserts (s t : Store) : Prop := ∃ (w : World) (a : Attempt) (key : String), w.store = s ∧
  (Engine.insertAttempt a key w).2.store = t

abbrev Strays : Store → Store → Prop :=
  Relation.ReflTransGen fun s t => s.Asks t ∨ s.Tampers t ∨ s.Inserts t

structure IsCoherent (s : Store) : Prop where
  idle : s.IsIdle
  indexed : s.tables.Indexed
  endsOnce : ∀ r ∈ s.tables.attempts, r.EndsOnce

theorem isCoherent_create (onFile : Bool) : (create onFile).IsCoherent :=
  ⟨isIdle_create onFile, Tables.sound_empty.toIndexed, fun _ h => absurd h List.not_mem_nil⟩

variable {s t : Store}

theorem Asks.isCoherent (h : s.Asks t) (hs : s.IsCoherent) : t.IsCoherent := by
  obtain ⟨hi, hx, -⟩ := h.retains hs.idle hs.indexed
  refine ⟨hi, hx, ?_⟩
  obtain ⟨q, w, rfl, rfl⟩ := h
  have hinv := (q.changes hs.idle).invariant
    (I := fun t => t.Indexed ∧ ∀ r ∈ t.attempts, r.EndsOnce) ⟨hs.indexed, hs.endsOnce⟩
    fun _ _ hc ht => ⟨hc.indexed ht.1, hc.endsOnce ht.1 ht.2⟩
  exact hinv.2

theorem Tampers.isCoherent (h : s.Tampers t) (hs : s.IsCoherent) : t.IsCoherent := by
  obtain ⟨hi, hx, -⟩ := h.retains hs.idle hs.indexed
  refine ⟨hi, hx, ?_⟩
  obtain ⟨-, heq | ⟨id, edit, n, he⟩⟩ := h.tables hs.idle
  · rw [heq]
    exact hs.endsOnce
  · exact Tables.editAttempt_endsOnce he hs.endsOnce

/-- An insertion from outside is refused, or it is the insertion of a row. -/
theorem Inserts.tables (h : s.Inserts t) (hi : s.IsIdle) : t.IsIdle ∧
    (t.tables = s.tables ∨ ∃ a key isNew,
      s.tables.insertAttempt (.new a key) = .ok (isNew, t.tables)) := by
  obtain ⟨w, a, key, rfl, rfl⟩ := h
  obtain ⟨hc, hm⟩ := Engine.Meets.atomically ((Engine.meets_touch .attempt).bind fun _ =>
    (Engine.meets_checkInteger a.retryCount).bind fun _ =>
      Engine.meets_statement (·.insertAttempt (.new a key))) w
  refine ⟨⟨hc.isOpen.trans hi.isOpen, hc.inTransaction.trans hi.inTransaction⟩, ?_⟩
  cases hr : (Engine.insertAttempt a key w).1 with
  | error e => exact .inl (Engine.Reverts.atomically _ w hi.inTransaction e hr)
  | ok isNew =>
    obtain ⟨_, _, rfl, _, _, rfl, ht, -⟩ := hm isNew hr
    exact .inr ⟨a, key, isNew, ht⟩

theorem Inserts.isCoherent (h : s.Inserts t) (hs : s.IsCoherent) : t.IsCoherent := by
  obtain ⟨hi, heq | ⟨a, key, isNew, hn⟩⟩ := h.tables hs.idle
  · exact ⟨hi, heq ▸ hs.indexed, heq ▸ hs.endsOnce⟩
  · have ht : t.tables = s.tables.offer (.new a key) := (Tables.insertAttempt_eq_ok hn).1
    refine ⟨hi, ht ▸ hs.indexed.offer _, ?_⟩
    rw [ht, Tables.offer]
    split
    · exact hs.endsOnce
    · intro r hmem
      rcases List.mem_append.mp hmem with hmem | hmem
      · exact hs.endsOnce r hmem
      · rw [List.mem_singleton.mp hmem]
        exact .inl rfl

theorem Leads.strays (h : s.Leads t) : s.Strays t := h.lift id fun _ _ h => .inl h

theorem Strays.isCoherent (h : s.Strays t) (hs : s.IsCoherent) : t.IsCoherent := by
  induction h with
  | refl => exact hs
  | tail _ hstep ih =>
    rcases hstep with h | h | h
    · exact h.isCoherent ih
    · exact h.isCoherent ih
    · exact h.isCoherent ih

end Store

/-! ## What listings and counts give -/

namespace Engine

/-- Rows are read in turn, and the first that cannot be read ends it. -/
theorem mapM_ofExcept_apply {α β ε : Type} (wrap : ε → OperationError) (read : α → Except ε β)
    (rows : List α) (w : World) : rows.mapM (fun x => ofExcept wrap (read x)) w =
      ((rows.mapM read).mapError wrap, w) := by
  induction rows with
  | nil => rfl
  | cons r rest ih =>
    rw [List.mapM_cons, List.mapM_cons, bind_apply]
    cases read r with
    | error e => rfl
    | ok b =>
      change (rest.mapM (fun x => ofExcept wrap (read x)) >>= fun more => pure (b :: more)) w = _
      rw [bind_apply, ih]
      cases rest.mapM read <;> rfl

/-- A number that a column of integers can hold. -/
def Fits (n : Int) : Prop := -AttemptRow.maxInteger - 1 ≤ n ∧ n ≤ AttemptRow.maxInteger

theorem checkInteger_apply {n : Int} (h : Fits n) (w : World) : checkInteger n w = (.ok (), w) := by
  unfold checkInteger
  rw [if_pos (by exact h)]
  rfl

/-- A listing reads the rows that are selected, and leaves everything as it is. -/
theorem listAttempts_eq {w : World} (hw : w.store.IsCoherent) (application : Uuid)
    (filter : AttemptFilter) (now : Int) {limit offset : Int} (hl : Fits limit)
    (ho : Fits offset) : listAttempts application filter now limit offset w =
      (((w.store.tables.attemptsOf application filter now limit offset).mapM
        AttemptRow.read).mapError .record, w) := by
  have hsame : { w with store := { w.store with inTransaction := false } } = w := by
    rw [← hw.idle.inTransaction]
  unfold listAttempts
  rw [bind_apply, atomically_apply (x := w.store.tables.attemptsOf application filter now limit offset)
    (v := { w with store := { w.store with inTransaction := true } }) hw.idle.isOpen
    hw.idle.inTransaction]
  · dsimp only
    rw [hsame]
    exact mapM_ofExcept_apply .record AttemptRow.read _ w
  · rw [bind_apply, touch_apply (by exact hw.indexed.lost)]
    dsimp only
    rw [bind_apply, checkInteger_apply hl]
    dsimp only
    rw [bind_apply, checkInteger_apply ho]
    rfl
  · exact Tables.keepsReferences_self _

theorem listAttempts_apply {w : World} (hw : w.store.IsCoherent) (application : Uuid)
    (filter : AttemptFilter) (now : Int) {limit offset : Int} (hl : Fits limit)
    (ho : Fits offset) : (listAttempts application filter now limit offset w).1 =
      ((w.store.tables.attemptsOf application filter now limit offset).mapM
        AttemptRow.read).mapError .record :=
  congrArg Prod.fst (listAttempts_eq hw application filter now hl ho)

theorem attemptStats_apply {w : World} (hw : w.store.IsCoherent) (application : Uuid) (now : Int) :
    ∃ stats, (attemptStats application now w).1 = .ok stats ∧
      ∀ status, stats.get status = w.store.tables.countOf application now status := by
  refine ⟨⟨w.store.tables.countOf application now .waiting,
    w.store.tables.countOf application now .pending,
    w.store.tables.countOf application now .inProgress,
    w.store.tables.countOf application now .successful,
    w.store.tables.countOf application now .failed⟩, ?_, fun status => by cases status <;> rfl⟩
  unfold attemptStats
  rw [atomically_apply (v := { w with store := { w.store with inTransaction := true } })
    hw.idle.isOpen hw.idle.inTransaction]
  · rw [bind_apply, touch_apply (by exact hw.indexed.lost)]
    rfl
  · exact Tables.keepsReferences_self _

end Engine

/-- The restriction of a listing to a status. -/
def AttemptFilter.ofStatus (status : AttemptStatus) : AttemptFilter where
  event := none
  subscription := none
  status := some status
  minCreatedAt := none
  maxCreatedAt := none

namespace Tables

def rowsOf (t : Tables) (application : Uuid) : List AttemptRow :=
  t.attempts.filter (·.applicationId == application)

/-- The rows of an application whose attempts have a status. -/
def rowsWith (t : Tables) (application : Uuid) (now : ClockTime) (status : AttemptStatus) :
    List AttemptRow :=
  (t.rowsOf application).filter fun r => r.record.statusAt now = .ok status

variable {t : Tables} {now : ClockTime}

theorem filter_hasStatus (ht : ∀ r ∈ t.attempts, r.EndsOnce) (aware : now.isAware)
    (application : Uuid) (status : AttemptStatus) :
    t.attempts.filter (fun r => r.applicationId == application && r.hasStatus now.micros status) =
      t.rowsWith application now status := by
  rw [rowsWith, rowsOf, List.filter_filter]
  refine List.filter_congr fun r hr => ?_
  rw [Bool.and_comm, Bool.eq_iff_iff, Bool.and_eq_true, Bool.and_eq_true, decide_eq_true_eq,
    AttemptRow.hasStatus_iff (ht r hr) aware]

/-- A listing that is not cut short gives the rows with the status, each once. -/
theorem attemptsOf_perm (ht : ∀ r ∈ t.attempts, r.EndsOnce) (aware : now.isAware)
    (application : Uuid) (status : AttemptStatus) {limit : Int}
    (unbounded : limit < 0 ∨ t.attempts.length ≤ limit) :
    (t.attemptsOf application (.ofStatus status) now.micros limit 0).Perm
      (t.rowsWith application now status) := by
  have hadmits : ∀ r : AttemptRow,
      (AttemptFilter.ofStatus status).admits now.micros r = r.hasStatus now.micros status := by
    intro r
    simp [AttemptFilter.admits, AttemptFilter.ofStatus]
  have hlimited : ∀ rows : List AttemptRow, rows.length ≤ t.attempts.length →
      limited limit rows = rows := by
    intro rows hlen
    unfold limited
    split
    · rfl
    · rename_i hneg
      exact List.take_of_length_le (by omega)
  unfold attemptsOf
  simp only [hadmits, filter_hasStatus ht aware application status]
  have hlen : (t.rowsWith application now status).length ≤ t.attempts.length :=
    ((List.filter_sublist).trans List.filter_sublist).length_le
  rw [Int.toNat_zero, List.drop_zero, hlimited _ (by rw [List.length_mergeSort]; exact hlen)]
  exact List.mergeSort_perm _ _

theorem countOf_eq (ht : ∀ r ∈ t.attempts, r.EndsOnce) (aware : now.isAware) (application : Uuid)
    (status : AttemptStatus) :
    t.countOf application now.micros status = (t.rowsWith application now status).length := by
  have hcounts (r : AttemptRow) : (r.countsAs now.micros status == some true) =
      r.hasStatus now.micros status := by
    rw [Bool.eq_iff_iff, beq_iff_eq]
    exact r.countsAs_iff now.micros status
  rw [countOf, Truth.sum_getD, List.countP_map, List.countP_filter,
    List.countP_eq_length_filter, ← filter_hasStatus ht aware]
  refine congrArg List.length (List.filter_congr fun r _ => ?_)
  rw [Function.comp_apply, hcounts, Bool.and_comm]

/-- Each row of the application counts for one status. -/
theorem sum_length_rowsWith (aware : now.isAware) (application : Uuid) :
    (AttemptStatus.all.map fun status => (t.rowsWith application now status).length).sum =
      (t.rowsOf application).length := by
  simp only [rowsWith]
  induction t.rowsOf application with
  | nil => rfl
  | cons r rest ih =>
    obtain ⟨status, hs, -⟩ := r.exists_statusAt aware
    simp only [AttemptStatus.all, List.map_cons, List.map_nil, List.sum_cons, List.sum_nil,
      List.filter_cons, hs, List.length_cons] at ih ⊢
    cases status <;> simp <;> omega

end Tables

/-- In every store that arises from requests, from changes of rows and from insertions of attempts:
listed by a status without a bound, an application's attempts are those whose status it is, each
once, provided that their rows can be read back, and otherwise the listing fails; the counts are
the numbers of attempts with each status, they add up to the number of the application's attempts,
and every attempt has exactly one status. -/
theorem statuses_agree {onFile : Bool} {w : World} (h : (Store.create onFile).Strays w.store)
    (application : Uuid) {now : ClockTime} (aware : now.isAware) {limit : Int}
    (fits : Engine.Fits limit) (unbounded : limit < 0 ∨ w.store.tables.attempts.length ≤ limit) :
    (∀ status,
      let listed :=
        (Engine.listAttempts application (.ofStatus status) now.micros limit 0 w).1
      let rows := w.store.tables.rowsWith application now status
      ((∀ r ∈ rows, r.IsReadable) → ∃ attempts, listed = .ok attempts ∧
        attempts.Perm (rows.map (·.record))) ∧
      ((∃ r ∈ rows, ¬ r.IsReadable) → ∃ e, listed = .error (.record e))) ∧
    (∃ stats, (Engine.attemptStats application now.micros w).1 = .ok stats ∧
      (∀ status, stats.get status =
        ((w.store.tables.rowsWith application now status).length : Int)) ∧
      (AttemptStatus.all.map stats.get).sum =
        ((w.store.tables.rowsOf application).length : Int)) ∧
    ∀ r ∈ w.store.tables.rowsOf application, ∃! status,
      r ∈ w.store.tables.rowsWith application now status := by
  have hw : w.store.IsCoherent := h.isCoherent (Store.isCoherent_create onFile)
  have hzero : Engine.Fits 0 := ⟨by decide, by decide⟩
  refine ⟨fun status => ?_, ?_, fun r hr => ?_⟩
  · have hperm := Tables.attemptsOf_perm hw.endsOnce aware application status unbounded
    dsimp only
    rw [Engine.listAttempts_apply hw application _ _ fits hzero]
    constructor
    · intro hread
      rw [AttemptRow.mapM_read fun r hr => hread r (hperm.mem_iff.mp hr)]
      exact ⟨_, rfl, hperm.map _⟩
    · rintro ⟨r, hr, hn⟩
      obtain ⟨e, he⟩ := AttemptRow.mapM_read_error ⟨r, hperm.mem_iff.mpr hr, hn⟩
      rw [he]
      exact ⟨e, rfl⟩
  · obtain ⟨stats, hstats, hget⟩ := Engine.attemptStats_apply hw application now.micros
    have hcount : ∀ status, stats.get status =
        ((w.store.tables.rowsWith application now status).length : Int) := by
      intro status
      rw [hget, Tables.countOf_eq hw.endsOnce aware]
    refine ⟨stats, hstats, hcount, ?_⟩
    rw [← Tables.sum_length_rowsWith aware application, List.map_congr_left fun s _ => hcount s]
    simp only [AttemptStatus.all, List.map_cons, List.map_nil, List.sum_cons, List.sum_nil]
    push_cast
    rfl
  · obtain ⟨status, hs, hunique⟩ := r.exists_statusAt aware
    refine ⟨status, List.mem_filter.mpr ⟨hr, by simpa using hs⟩, fun other ho => ?_⟩
    exact hunique other (by simpa using (List.mem_filter.mp ho).2)

/-- Of four attempts one is claimed, two are due and one still waits. -/
def Sample.dispersed : World :=
  world.runAll [.saveSubscription subscription, .storeEvent event,
    .replay event.eventId application (some subscription.subscriptionId) 1,
    .claim claimant 2,
    .storeEvent { event with eventId := .ofNat 4 },
    .replay (.ofNat 4) application (some subscription.subscriptionId) 9,
    .storeEvent { event with eventId := .ofNat 5 },
    .replay (.ofNat 5) application (some subscription.subscriptionId) 4,
    .storeEvent { event with eventId := .ofNat 6 },
    .replay (.ofNat 6) application (some subscription.subscriptionId) 5]

/-- Each attempt is listed by its status, and counted for it alone. -/
theorem dispersed_attempts_are_counted :
    (∀ status, ∃ attempts, (Engine.listAttempts Sample.application (.ofStatus status) 5 (-1) 0
        Sample.dispersed).1 = .ok attempts ∧
          (attempts.length : Int) = AttemptStats.get ⟨1, 2, 1, 0, 0⟩ status) ∧
      ∃ stats, (Engine.attemptStats Sample.application 5 Sample.dispersed).1 = .ok stats ∧
        AttemptStatus.all.map stats.get = [1, 2, 1, 0, 0] ∧
        (AttemptStatus.all.map stats.get).sum = 4 := by
  have h : (Store.create true).Strays Sample.dispersed.store :=
    (Store.leads_runAll Sample.world _).strays
  have aware : (ClockTime.utc 5).isAware := rfl
  have fits : Engine.Fits (-1) := ⟨by decide, by decide⟩
  have hnumbers : ∀ status,
      ((Sample.dispersed.store.tables.rowsWith Sample.application (.utc 5) status).length : Int) =
        AttemptStats.get ⟨1, 2, 1, 0, 0⟩ status := by
    intro status
    cases status <;> decide +kernel
  have hreadable : ∀ r ∈ Sample.dispersed.store.tables.attempts,
      r.times.all ClockTime.inRange ∧ r.retryCount ≤ AttemptRow.maxInteger := by decide +kernel
  obtain ⟨hlisted, ⟨stats, hstats, hcount, hsum⟩, -⟩ :=
    statuses_agree h Sample.application aware fits (.inl (by decide))
  refine ⟨fun status => ?_, stats, hstats, ?_, ?_⟩
  · obtain ⟨attempts, hattempts, hperm⟩ := (hlisted status).1 fun r hr =>
      have hread := hreadable r (List.mem_of_mem_filter (List.mem_of_mem_filter hr))
      ⟨hread.1, hread.2⟩
    exact ⟨attempts, hattempts, by rw [hperm.length_eq, List.length_map, hnumbers]⟩
  · have hget : stats.get = AttemptStats.get ⟨1, 2, 1, 0, 0⟩ :=
      funext fun status => (hcount status).trans (hnumbers status)
    rw [hget]
    rfl
  · rw [hsum]
    decide +kernel

/-- A store with an attempt that was created in the last hour of the year 9999 in the west. -/
def overdated : World :=
  (Engine.insertAttempt
    { Attempt.new (.ofNat 7) Sample.application Sample.event.eventId
        Sample.subscription.subscriptionId 0 0 with
      createdAt := ⟨ClockTime.latest, some (-3600000000)⟩ } "key"
    (Sample.world.runAll [.saveSubscription Sample.subscription, .storeEvent Sample.event])).2

/-- It is pending and counted so, but the listing of pending attempts fails. -/
theorem overdated_attempt_is_not_listed :
    (Store.create true).Strays overdated.store ∧
      (overdated.store.tables.rowsWith Sample.application (.utc 5) .pending).length = 1 ∧
      (Engine.attemptStats Sample.application 5 overdated).1 = .ok ⟨0, 1, 0, 0, 0⟩ ∧
      (Engine.listAttempts Sample.application (.ofStatus .pending) 5 (-1) 0 overdated).1 =
        .error (.record (.time .outOfRange)) := by
  have h : (Store.create true).Strays overdated.store :=
    (Store.leads_runAll Sample.world [.saveSubscription Sample.subscription,
      .storeEvent Sample.event]).strays.tail (.inr (.inr ⟨_, _, _, rfl, rfl⟩))
  refine ⟨h, rfl, rfl, ?_⟩
  rw [Engine.listAttempts_apply (h.isCoherent (Store.isCoherent_create true)) _ _ _
    ⟨by decide, by decide⟩ ⟨by decide, by decide⟩]
  have hrows : overdated.store.tables.attemptsOf Sample.application (.ofStatus .pending) 5 (-1) 0 =
      overdated.store.tables.attempts := List.mergeSort_singleton _
  rw [hrows]
  rfl

end WebhookDelivery
