import Mathlib.Data.String.Basic
import WebhookDelivery.Proofs.DispatchKeys
import WebhookDelivery.Proofs.Statuses
import WebhookDelivery.Service

/-!
# WebhookDelivery.Proofs.Listings

An application's attempts, listed page by page.

* `Uuid.write_lt_iff`: the order of identifiers is that of their texts.
* `AttemptFilter.Selects`, `Attempt.ListsBefore`: what is asked for, and in which order.
* `Tables.history`: the rows of which every page is a part, `pairwise_history` their order and
  `history_split` what becomes of them when they are listed in two parts.
* `Engine.GoesThrough`: a caller asks for one page after another; `goesThrough_iff` says what comes
  of it, and `Service.Lists` that it does so for pages of every length.
* `pages_lose_and_repeat_nothing`: what a caller gets of every store that is reached.
-/

namespace WebhookDelivery

/-! ## The order of identifiers -/

namespace Text

/-- Behind texts of the same length, what follows decides where these are the same. -/
theorem append_lt_append_iff {s t u v : List Char} (h : s.length = t.length) :
    s ++ u < t ++ v ↔ s < t ∨ s = t ∧ u < v := by
  induction s generalizing t with
  | nil =>
    obtain rfl := List.eq_nil_of_length_eq_zero h.symm
    simp
  | cons c s ih =>
    cases t with
    | nil => cases h
    | cons d t =>
      rw [List.cons_append, List.cons_append, List.cons_lt_cons_iff, ih (Nat.succ.inj h),
        List.cons_lt_cons_iff, List.cons.injEq]
      tauto

theorem hexDigit_lt {m n : Nat} (h : m < n) (hn : n < 16) : hexDigit m < hexDigit n := by
  have hall : ∀ n < 16, ∀ m < n, hexDigit m < hexDigit n := by decide
  exact hall n hn m h

/-- Of two numbers with so many digits the smaller one comes first also as a text. -/
theorem hexDigits_lt {width m n : Nat} (h : m < n) (hn : n < 16 ^ width) :
    hexDigits width m < hexDigits width n := by
  induction width generalizing m n with
  | zero =>
    rw [Nat.pow_zero] at hn
    omega
  | succ width ih =>
    rw [hexDigits, hexDigits]
    rw [append_lt_append_iff (by rw [length_hexDigits, length_hexDigits])]
    rcases Nat.lt_or_ge (m / 16) (n / 16) with hlt | hle
    · rw [Nat.pow_succ] at hn
      exact .inl (ih hlt (by omega))
    · have heq : m / 16 = n / 16 := by omega
      refine .inr ⟨by rw [heq], List.cons_lt_cons_iff.mpr (.inl ?_)⟩
      exact hexDigit_lt (by omega) (by omega)

end Text

namespace Uuid

theorem eq_of_toNat_eq {a b : Uuid} (h : a.bits.toNat = b.bits.toNat) : a = b :=
  congrArg mk (BitVec.eq_of_toNat_eq h)

theorem group_lt {lengths : List Nat} {s t : List Char} (hs : s.length = lengths.sum)
    (ht : t.length = lengths.sum) (h : s < t) : group s lengths < group t lengths := by
  induction lengths generalizing s t with
  | nil =>
    obtain rfl := List.eq_nil_of_length_eq_zero ht
    exact absurd h (List.not_lt_nil s)
  | cons n rest ih =>
    cases rest with
    | nil =>
      rw [List.sum_cons, List.sum_nil, Nat.add_zero] at hs ht
      rwa [group, group, List.take_of_length_le hs.le, List.take_of_length_le ht.le]
    | cons m rest =>
      rw [List.sum_cons] at hs ht
      have hgroup : ∀ u, group u (n :: m :: rest) =
          u.take n ++ '-' :: group (u.drop n) (m :: rest) := fun _ => rfl
      have htake : (s.take n).length = (t.take n).length := by
        rw [List.length_take, List.length_take, hs, ht]
      rw [← List.take_append_drop n s, ← List.take_append_drop n t,
        Text.append_lt_append_iff htake] at h
      rw [hgroup, hgroup, Text.append_lt_append_iff htake]
      refine h.imp_right (And.imp_right fun hlt => List.cons_lt_cons_iff.mpr (.inr ⟨rfl, ?_⟩))
      exact ih (by rw [List.length_drop]; omega) (by rw [List.length_drop]; omega) hlt

theorem toList_lt {a b : Uuid} (h : a.bits.toNat < b.bits.toNat) : a.toList < b.toList :=
  group_lt (Text.length_hexDigits 32 _) (Text.length_hexDigits 32 _)
    (Text.hexDigits_lt h b.bits.isLt)

/-- The order of identifiers is that of their texts. -/
theorem write_lt_iff {a b : Uuid} : a.write < b.write ↔ a.bits.toNat < b.bits.toNat := by
  rw [write, write, String.lt_iff_toList_lt, String.toList_ofList, String.toList_ofList]
  refine ⟨fun h => ?_, toList_lt⟩
  by_contra hle
  rcases (Nat.not_lt.mp hle).eq_or_lt with heq | hlt
  · rw [eq_of_toNat_eq heq] at h
    exact lt_irrefl _ h
  · exact lt_asymm h (toList_lt hlt)

end Uuid

/-! ## What is listed -/

/-- The attempt satisfies a filter. -/
structure AttemptFilter.Selects (f : AttemptFilter) (now : ClockTime) (a : Attempt) : Prop where
  event : ∀ id ∈ f.event, a.eventId = id
  subscription : ∀ id ∈ f.subscription, a.subscriptionId = id
  status : ∀ status ∈ f.status, a.statusAt now = .ok status
  min : ∀ time ∈ f.minCreatedAt, time ≤ a.createdAt.micros
  max : ∀ time ∈ f.maxCreatedAt, a.createdAt.micros < time

/-- The order of a listing: newest first, and of equal times by the text of the identifier. -/
def Attempt.ListsBefore (a b : Attempt) : Prop :=
  b.createdAt.micros < a.createdAt.micros ∨
    a.createdAt.micros = b.createdAt.micros ∧ a.attemptId.write < b.attemptId.write

/-- Nothing is listed before itself. -/
theorem Attempt.ListsBefore.ne {a b : Attempt} (h : a.ListsBefore b) : a ≠ b := by
  rintro rfl
  rcases h with hlt | ⟨-, hlt⟩
  · exact Int.lt_irrefl _ hlt
  · exact String.lt_irrefl _ hlt

namespace AttemptRow

/-- The row stands for an attempt of the application that satisfies the filter. -/
def IsSelected (r : AttemptRow) (application : Uuid) (f : AttemptFilter) (now : ClockTime) :
    Prop :=
  r.applicationId = application ∧ f.Selects now r.record

theorem micros_record (r : AttemptRow) : r.record.createdAt.micros = r.createdAt :=
  ClockTime.micros_utc r.createdAt

theorem admits_iff {r : AttemptRow} (h : r.EndsOnce) {now : ClockTime} (aware : now.isAware)
    (f : AttemptFilter) : f.admits now.micros r = true ↔ f.Selects now r.record := by
  have hcreated := micros_record r
  simp only [AttemptFilter.admits, Bool.and_eq_true, Option.all_eq_true, beq_iff_eq,
    decide_eq_true_eq, hasStatus_iff h aware]
  constructor
  · rintro ⟨⟨⟨⟨hevent, hsubscription⟩, hstatus⟩, hmin⟩, hmax⟩
    exact ⟨fun id hid => (hevent id hid).symm, fun id hid => (hsubscription id hid).symm, hstatus,
      hcreated ▸ hmin, hcreated ▸ hmax⟩
  · rintro ⟨hevent, hsubscription, hstatus, hmin, hmax⟩
    rw [hcreated] at hmin hmax
    exact ⟨⟨⟨⟨fun id hid => (hevent id hid).symm, fun id hid => (hsubscription id hid).symm⟩,
      hstatus⟩, hmin⟩, hmax⟩

theorem listsBefore_iff {a b : AttemptRow} : a.listsBefore b = true ↔
    b.createdAt < a.createdAt ∨
      a.createdAt = b.createdAt ∧ a.attemptId.bits.toNat ≤ b.attemptId.bits.toNat := by
  simp [listsBefore, Uuid.le]

/-- Of rows with different identifiers one is listed before the other. -/
theorem listsBefore_record {a b : AttemptRow} (h : a.listsBefore b = true)
    (hne : a.attemptId ≠ b.attemptId) : a.record.ListsBefore b.record := by
  have hbits : a.attemptId.bits.toNat ≠ b.attemptId.bits.toNat := mt Uuid.eq_of_toNat_eq hne
  rw [Attempt.ListsBefore, micros_record, micros_record, Uuid.write_lt_iff]
  exact (listsBefore_iff.mp h).imp_right (And.imp_right fun hle => hle.lt_of_ne hbits)

end AttemptRow

namespace Tables

variable {t : Tables} {application : Uuid} {filter : AttemptFilter} {now : ClockTime}

/-- The rows that a listing selects. -/
def selected (t : Tables) (application : Uuid) (f : AttemptFilter) (now : Int) : List AttemptRow :=
  t.attempts.filter fun r => r.applicationId == application && f.admits now r

/-- All of them, in the order of a listing. -/
def history (t : Tables) (application : Uuid) (f : AttemptFilter) (now : Int) : List AttemptRow :=
  (t.selected application f now).mergeSort AttemptRow.listsBefore

theorem history_perm (application : Uuid) (f : AttemptFilter) (now : Int) :
    (t.history application f now).Perm (t.selected application f now) :=
  List.mergeSort_perm _ _

/-- A page is a part of them. -/
theorem attemptsOf_eq (application : Uuid) (f : AttemptFilter) (now : Int) (limit offset : Nat) :
    t.attemptsOf application f now limit offset =
      ((t.history application f now).drop offset).take limit := by
  rw [attemptsOf, limited, if_neg (by omega), Int.toNat_natCast, Int.toNat_natCast]
  rfl

theorem length_history_le (application : Uuid) (f : AttemptFilter) (now : Int) :
    (t.history application f now).length ≤ t.attempts.length := by
  rw [(history_perm application f now).length_eq]
  exact List.length_filter_le _ _

theorem mem_history_iff (ht : ∀ r ∈ t.attempts, r.EndsOnce) (aware : now.isAware)
    {r : AttemptRow} : r ∈ t.history application filter now.micros ↔
      r ∈ t.attempts ∧ r.IsSelected application filter now := by
  rw [(history_perm application filter now.micros).mem_iff, selected, List.mem_filter]
  refine and_congr_right fun hr => ?_
  rw [Bool.and_eq_true, beq_iff_eq, AttemptRow.admits_iff (ht r hr) aware, AttemptRow.IsSelected]

theorem sorted_history (application : Uuid) (f : AttemptFilter) (now : Int) :
    (t.history application f now).Pairwise fun a b => a.listsBefore b = true := by
  refine List.pairwise_mergeSort (fun a b c hab hbc => ?_) (fun a b => ?_) _
  · rw [AttemptRow.listsBefore_iff] at hab hbc ⊢
    omega
  · rw [Bool.or_eq_true, AttemptRow.listsBefore_iff, AttemptRow.listsBefore_iff]
    omega

/-- No attempt is listed twice. -/
theorem pairwise_history (hi : t.Indexed) (application : Uuid) (f : AttemptFilter) (now : Int) :
    ((t.history application f now).map (·.record)).Pairwise Attempt.ListsBefore := by
  have hids : (t.history application f now).Pairwise fun a b => a.attemptId ≠ b.attemptId := by
    refine ((history_perm application f now).pairwise_iff fun h => h.symm).mpr ?_
    exact (List.pairwise_map.mp hi.attemptIds).filter _
  refine List.pairwise_map.mpr ?_
  exact (hids.and (sorted_history application f now)).imp fun h =>
    AttemptRow.listsBefore_record h.2 h.1

theorem selected_min (application : Uuid) (now time : Int) (hmin : filter.minCreatedAt = none) :
    t.selected application { filter with minCreatedAt := some time } now =
      (t.selected application filter now).filter (time ≤ ·.createdAt) := by
  rw [selected, selected, List.filter_filter]
  congr 1
  funext r
  simp only [AttemptFilter.admits, hmin, Option.all_some, Option.all_none, Bool.and_true]
  ac_rfl

theorem selected_max (application : Uuid) (now time : Int) (hmax : filter.maxCreatedAt = none) :
    t.selected application { filter with maxCreatedAt := some time } now =
      (t.selected application filter now).filter fun r => !decide (time ≤ r.createdAt) := by
  rw [selected, selected, List.filter_filter]
  congr 1
  funext r
  have hlt : decide (r.createdAt < time) = !decide (time ≤ r.createdAt) := by
    simp only [← decide_not, Int.not_le]
  simp only [AttemptFilter.admits, hmax, hlt, Option.all_some, Option.all_none, Bool.and_true]
  ac_rfl

/-- What is not older than a time, followed by what is older, is all that is listed. -/
theorem history_split (hi : t.Indexed) (application : Uuid) (now time : Int)
    (hmin : filter.minCreatedAt = none) (hmax : filter.maxCreatedAt = none) :
    t.history application filter now =
      t.history application { filter with minCreatedAt := some time } now ++
        t.history application { filter with maxCreatedAt := some time } now := by
  have hnewer := history_perm (t := t) application { filter with minCreatedAt := some time } now
  have holder := history_perm (t := t) application { filter with maxCreatedAt := some time } now
  rw [selected_min application now time hmin] at hnewer
  rw [selected_max application now time hmax] at holder
  have hall := history_perm (t := t) application filter now
  have hperm := (hnewer.append holder).trans (List.filter_append_perm _ _)
  refine List.Perm.eq_of_pairwise ?_ (sorted_history application filter now) ?_
    (hall.trans hperm.symm)
  · intro a b ha hb hab hba
    have ha := List.mem_of_mem_filter (hall.mem_iff.mp ha)
    have hb := List.mem_of_mem_filter (hperm.mem_iff.mp hb)
    rw [AttemptRow.listsBefore_iff] at hab hba
    have hbits : a.attemptId.bits.toNat = b.attemptId.bits.toNat := by omega
    exact List.inj_on_of_nodup_map hi.attemptIds ha hb (Uuid.eq_of_toNat_eq hbits)
  · refine List.pairwise_append.mpr ⟨sorted_history _ _ _, sorted_history _ _ _, ?_⟩
    intro a ha b hb
    have ha := (List.mem_filter.mp (hnewer.mem_iff.mp ha)).2
    have hb := (List.mem_filter.mp (holder.mem_iff.mp hb)).2
    rw [decide_eq_true_eq] at ha
    rw [Bool.not_eq_true', decide_eq_false_iff_not, Int.not_le] at hb
    exact AttemptRow.listsBefore_iff.mpr (.inl (Int.lt_of_lt_of_le hb ha))

end Tables

/-! ## Page after page -/

namespace Engine

variable {α β ε : Type}

/-- A caller asks for the pages of a listing from an offset on, until one of them is shorter than it
may be, and puts them together. -/
inductive GoesThrough (page : Nat → Engine (List α)) (size : Nat) :
    Nat → World → Except OperationError (List α) → World → Prop where
  | last {offset w found v} : page offset w = (.ok found, v) → found.length < size →
      GoesThrough page size offset w (.ok found) v
  | next {offset w found v rest u} : page offset w = (.ok found, v) → size ≤ found.length →
      GoesThrough page size (offset + size) v rest u →
      GoesThrough page size offset w (rest.map (found ++ ·)) u
  | failed {offset w e v} : page offset w = (.error e, v) →
      GoesThrough page size offset w (.error e) v

variable {page : Nat → Engine (List α)} {size : Nat}

theorem GoesThrough.deterministic {offset : Nat} {w v u : World}
    {r s : Except OperationError (List α)} (h : GoesThrough page size offset w r v)
    (h' : GoesThrough page size offset w s u) : s = r ∧ u = v := by
  induction h generalizing s u with
  | last hpage hshort =>
    cases h' with
    | last hpage' _ =>
      rw [hpage] at hpage'
      cases hpage'
      exact ⟨rfl, rfl⟩
    | next hpage' hfull _ =>
      rw [hpage] at hpage'
      cases hpage'
      omega
    | failed hpage' =>
      rw [hpage] at hpage'
      cases hpage'
  | next hpage hfull _ ih =>
    cases h' with
    | last hpage' hshort =>
      rw [hpage] at hpage'
      cases hpage'
      omega
    | next hpage' _ hrest =>
      rw [hpage] at hpage'
      cases hpage'
      obtain ⟨rfl, rfl⟩ := ih hrest
      exact ⟨rfl, rfl⟩
    | failed hpage' =>
      rw [hpage] at hpage'
      cases hpage'
  | failed hpage =>
    cases h' with
    | last hpage' _ =>
      rw [hpage] at hpage'
      cases hpage'
    | next hpage' _ _ =>
      rw [hpage] at hpage'
      cases hpage'
    | failed hpage' =>
      rw [hpage] at hpage'
      cases hpage'
      exact ⟨rfl, rfl⟩

theorem length_of_mapM {read : β → Except ε α} {rows : List β} {found : List α}
    (h : rows.mapM read = .ok found) : found.length = rows.length := by
  induction rows generalizing found with
  | nil =>
    cases h
    rfl
  | cons x rest ih =>
    rw [List.mapM_cons] at h
    cases hx : read x with
    | error e =>
      rw [hx] at h
      cases h
    | ok y =>
      cases hrest : rest.mapM read with
      | error e =>
        rw [hx, hrest] at h
        cases h
      | ok more =>
        rw [hx, hrest] at h
        cases h
        rw [List.length_cons, List.length_cons, ih hrest]

/-- Pages that are read as parts of a list come to reading all that is left of it. -/
theorem goesThrough_pages {rows : List β} {read : β → Except ε α} {wrap : ε → OperationError}
    {w : World} (hpos : 0 < size)
    (hpage : ∀ offset ≤ rows.length, page offset w =
      ((((rows.drop offset).take size).mapM read).mapError wrap, w))
    {offset : Nat} (ho : offset ≤ rows.length) :
    GoesThrough page size offset w (((rows.drop offset).mapM read).mapError wrap) w := by
  induction hleft : rows.length - offset using Nat.strong_induction_on generalizing offset with
  | _ left ih =>
  have hnow := hpage offset ho
  have hsplit : (rows.drop offset).mapM read = (do
      let found ← ((rows.drop offset).take size).mapM read
      let more ← (rows.drop (offset + size)).mapM read
      return found ++ more) := by
    rw [← List.drop_drop, ← List.mapM_append, List.take_append_drop]
  cases hfound : ((rows.drop offset).take size).mapM read with
  | error e =>
    rw [hfound] at hnow hsplit
    rw [hsplit]
    exact .failed hnow
  | ok found =>
    rw [hfound] at hnow
    have hlength := length_of_mapM hfound
    rw [List.length_take, List.length_drop] at hlength
    by_cases hshort : found.length < size
    · have hall : (rows.drop offset).take size = rows.drop offset :=
        List.take_of_length_le (by rw [List.length_drop]; omega)
      rw [← hall, hfound]
      exact .last hnow hshort
    · have hrest := ih (rows.length - (offset + size)) (by omega) (by omega) rfl
      have hjoin : ((rows.drop offset).mapM read).mapError wrap =
          ((((rows.drop (offset + size)).mapM read).mapError wrap).map (found ++ ·)) := by
        rw [hsplit, hfound]
        cases (rows.drop (offset + size)).mapM read <;> rfl
      rw [hjoin]
      exact .next hnow (Nat.not_lt.mp hshort) hrest

theorem goesThrough_iff {rows : List β} {read : β → Except ε α} {wrap : ε → OperationError}
    {w : World} (hpos : 0 < size)
    (hpage : ∀ offset ≤ rows.length, page offset w =
      ((((rows.drop offset).take size).mapM read).mapError wrap, w))
    (r : Except OperationError (List α)) (v : World) :
    GoesThrough page size 0 w r v ↔ r = (rows.mapM read).mapError wrap ∧ v = w := by
  have hall := goesThrough_pages hpos hpage (Nat.zero_le rows.length)
  rw [List.drop_zero] at hall
  constructor
  · exact hall.deterministic
  · rintro ⟨rfl, rfl⟩
    exact hall

end Engine

namespace Service

open Engine

/-- However long its pages may be, a caller who goes through a listing gets this of it and nothing
else, and leaves everything as it is. -/
def Lists (application : Uuid) (f : AttemptFilter) (now : Int) (w : World)
    (result : Except OperationError (List Attempt)) : Prop :=
  ∀ size : Nat, 0 < size → size ≤ maxPageSize → ∀ r v,
    GoesThrough (fun offset => listAttempts application f now size offset) size 0 w r v ↔
      r = result ∧ v = w

theorem lists_history {w : World} (hw : w.store.IsCoherent)
    (bounded : (w.store.tables.attempts.length : Int) ≤ AttemptRow.maxInteger) (application : Uuid)
    (f : AttemptFilter) (now : Int) : Lists application f now w
      (((w.store.tables.history application f now).mapM AttemptRow.read).mapError .record) := by
  intro size hpos hsize
  refine goesThrough_iff hpos fun offset ho => ?_
  have hlength := w.store.tables.length_history_le application f now
  have hlimit : Fits (size : Int) := by
    rw [maxPageSize] at hsize
    rw [Fits, AttemptRow.maxInteger]
    omega
  have hoffset : Fits (offset : Int) := by
    rw [Fits]
    rw [AttemptRow.maxInteger] at bounded ⊢
    omega
  rw [listAttempts, Int.min_eq_left hsize, listAttempts_eq hw application f now hlimit hoffset,
    Tables.attemptsOf_eq]

end Service

/-- The pages of a history lose and repeat nothing. In every store that arises from requests, from
changes of rows and from insertions of attempts, and however long its pages are, a listing comes to
the attempts of the application that satisfy the filter, each once, the newest first and of equal
times by their identifiers, provided that their rows can be read back; otherwise it fails. Cut at
any time, it falls into what is listed from that time on and what is listed before it. -/
theorem pages_lose_and_repeat_nothing {onFile : Bool} {w : World}
    (reached : (Store.create onFile).Strays w.store)
    (bounded : (w.store.tables.attempts.length : Int) ≤ AttemptRow.maxInteger) (application : Uuid)
    {now : ClockTime} (aware : now.isAware) (filter : AttemptFilter) :
    ((∀ r ∈ w.store.tables.attempts, r.IsSelected application filter now → r.IsReadable) →
      ∃ listing, Service.Lists application filter now.micros w (.ok listing) ∧
        (∀ a, a ∈ listing ↔ ∃ r ∈ w.store.tables.attempts, r.IsSelected application filter now ∧
          r.record = a) ∧
        listing.Nodup ∧ listing.Pairwise Attempt.ListsBefore ∧
        (filter.minCreatedAt = none → filter.maxCreatedAt = none → ∀ time, ∃ newer older,
          listing = newer ++ older ∧
          Service.Lists application { filter with minCreatedAt := some time } now.micros w
            (.ok newer) ∧
          Service.Lists application { filter with maxCreatedAt := some time } now.micros w
            (.ok older))) ∧
    ((∃ r ∈ w.store.tables.attempts, r.IsSelected application filter now ∧ ¬ r.IsReadable) →
      ∃ e, Service.Lists application filter now.micros w (.error (.record e))) := by
  have hw : w.store.IsCoherent := reached.isCoherent (Store.isCoherent_create onFile)
  have hmem : ∀ r, r ∈ w.store.tables.history application filter now.micros ↔
      r ∈ w.store.tables.attempts ∧ r.IsSelected application filter now := fun r =>
    Tables.mem_history_iff hw.endsOnce aware
  constructor
  · intro hread
    have hall : ∀ r ∈ w.store.tables.history application filter now.micros, r.IsReadable :=
      fun r hr => hread r ((hmem r).mp hr).1 ((hmem r).mp hr).2
    have hlists : ∀ f, (∀ r ∈ w.store.tables.history application f now.micros, r.IsReadable) →
        Service.Lists application f now.micros w
          (.ok ((w.store.tables.history application f now.micros).map (·.record))) := by
      intro f hf
      have hlists := Service.lists_history hw bounded application f now.micros
      rwa [AttemptRow.mapM_read hf] at hlists
    have hsorted := Tables.pairwise_history hw.indexed application filter now.micros
    refine ⟨_, hlists filter hall, fun a => ?_, hsorted.imp Attempt.ListsBefore.ne, hsorted,
      fun hmin hmax time => ?_⟩
    · simp only [List.mem_map, hmem, and_assoc]
    · have hsplit := Tables.history_split hw.indexed application now.micros time hmin hmax
      rw [hsplit, List.forall_mem_append] at hall
      refine ⟨_, _, ?_, hlists _ hall.1, hlists _ hall.2⟩
      rw [hsplit, List.map_append]
  · rintro ⟨r, hr, hselected, hunreadable⟩
    obtain ⟨e, he⟩ := AttemptRow.mapM_read_error ⟨r, (hmem r).mpr ⟨hr, hselected⟩, hunreadable⟩
    have hlists := Service.lists_history hw bounded application filter now.micros
    rw [he] at hlists
    exact ⟨e, hlists⟩

namespace Sample

def everything : AttemptFilter := ⟨none, none, none, none, none⟩

theorem selects_everything (now : ClockTime) (a : Attempt) : everything.Selects now a where
  event := nofun
  subscription := nofun
  status := nofun
  min := nofun
  max := nofun

/-- A store with two attempts that were created at the same time. -/
def twofold : World :=
  (Engine.insertAttempt (Attempt.new (.ofNat 7) application event.eventId
    subscription.subscriptionId 0 0) "key" (world.runAll begin)).2

end Sample

open Sample in
/-- Two attempts of the same time are both listed, on one page or on three. -/
theorem twofold_history_is_listed :
    (Store.create true).Strays twofold.store ∧
      ∃ listing, Service.Lists application everything 5 twofold (.ok listing) ∧
        listing.Perm (twofold.store.tables.attempts.map (·.record)) ∧ listing.length = 2 := by
  have hreached : (Store.create true).Strays twofold.store :=
    (Store.leads_runAll world begin).strays.tail (.inr (.inr ⟨_, _, _, rfl, rfl⟩))
  have hbounded : (twofold.store.tables.attempts.length : Int) ≤ AttemptRow.maxInteger := by decide
  have haware : (ClockTime.utc 5).isAware := rfl
  have hrows : ∀ r ∈ twofold.store.tables.attempts, r.applicationId = application ∧
      r.times.all ClockTime.inRange ∧ r.retryCount ≤ AttemptRow.maxInteger := by decide
  have hselected : ∀ r ∈ twofold.store.tables.attempts,
      r.IsSelected application everything (.utc 5) := fun r hr =>
    ⟨(hrows r hr).1, selects_everything _ _⟩
  obtain ⟨listing, hlists, hmem, hnodup, -⟩ :=
    (pages_lose_and_repeat_nothing hreached hbounded application haware everything).1
      fun r hr _ => ⟨(hrows r hr).2.1, (hrows r hr).2.2⟩
  have hperm : listing.Perm (twofold.store.tables.attempts.map (·.record)) := by
    refine (List.perm_ext_iff_of_nodup hnodup (by decide)).mpr fun a => ?_
    rw [hmem, List.mem_map]
    exact exists_congr fun r => and_congr_right fun hr => and_iff_right (hselected r hr)
  exact ⟨hreached, listing, hlists, hperm, hperm.length_eq⟩

open Sample in
/-- The attempt that was created in the last hour of the year 9999 in the west satisfies a listing
without restrictions, but all that comes of its pages is an error. -/
theorem overdated_history_is_not_listed :
    (Store.create true).Strays overdated.store ∧
      (∃ r ∈ overdated.store.tables.attempts, r.IsSelected application everything (.utc 5)) ∧
      Service.Lists application everything 5 overdated (.error (.record (.time .outOfRange))) := by
  have hreached : (Store.create true).Strays overdated.store :=
    (Store.leads_runAll world [.saveSubscription subscription, .storeEvent event]).strays.tail
      (.inr (.inr ⟨_, _, _, rfl, rfl⟩))
  have hselected : ∃ r ∈ overdated.store.tables.attempts, r.applicationId = application := by decide
  obtain ⟨r, hr, happlication⟩ := hselected
  refine ⟨hreached, ⟨r, hr, happlication, selects_everything _ _⟩, ?_⟩
  have hlists := Service.lists_history (hreached.isCoherent (Store.isCoherent_create true))
    (by decide) application everything 5
  have hhistory : overdated.store.tables.history application everything 5 =
      overdated.store.tables.attempts := List.mergeSort_singleton _
  rwa [hhistory] at hlists

end WebhookDelivery
