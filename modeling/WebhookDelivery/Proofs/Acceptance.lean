import Mathlib.Data.String.Basic
import WebhookDelivery.Proofs.Addresses
import WebhookDelivery.Proofs.Capitals
import WebhookDelivery.Proofs.Ingestion
import WebhookDelivery.Store.Columns

/-!
# WebhookDelivery.Proofs.Acceptance

What the readers accept, and what they give of documents that were written.

* `Uuid.read?_write`: an identifier is read back from its text.
* `Reader.textSet_of_pairwise`, `Entries.sort_of_pairwise`: sets and maps that are in order stay as
  they are; `Reader.pairwise_of_textSet` and `Entries.pairwise_sort` say that those that are read
  are in order.
* `RetrySchedule.read_document`, `Target.read_document`: schedules and targets that obey their rules
  are read back.
* `Event.isAccepted_of_read` and the like: the rules that every record obeys that was read.
-/

namespace WebhookDelivery

/-! ## Identifiers -/

namespace Uuid

theorem readDigits?_hexDigits (u : Uuid) :
    readDigits? (Text.hexDigits 32 u.bits.toNat) = some u := by
  have hfold := Address.foldlM_hexDigits 32 u.bits.toNat 0
  have hvalue : 16 ^ 32 * 0 + u.bits.toNat % 16 ^ 32 = u.bits.toNat := by
    rw [Nat.mul_zero, Nat.zero_add]
    exact Nat.mod_eq_of_lt u.bits.isLt
  rw [hvalue] at hfold
  rw [readDigits?, if_pos (Text.length_hexDigits 32 _)]
  change ((Text.hexDigits 32 u.bits.toNat).foldlM Address.extend? 0).map ofNat = _
  rw [hfold, Option.map_some, ofNat, BitVec.ofNat_toNat, BitVec.setWidth_eq]

theorem filter_group {s : List Char} (h : '-' ∉ s) {lengths : List Nat}
    (hlength : s.length = lengths.sum) : (group s lengths).filter (· != '-') = s := by
  have hkeep : ∀ t : List Char, '-' ∉ t → t.filter (· != '-') = t := fun t ht =>
    List.filter_eq_self.mpr fun c hc => bne_iff_ne.mpr fun hsame => ht (hsame ▸ hc)
  induction lengths generalizing s with
  | nil =>
    rw [List.sum_nil, List.length_eq_zero_iff] at hlength
    rw [hlength]
    rfl
  | cons n rest ih =>
    cases rest with
    | nil =>
      rw [List.sum_cons, List.sum_nil, Nat.add_zero] at hlength
      rw [group, List.take_of_length_le hlength.le, hkeep s h]
    | cons m rest =>
      rw [List.sum_cons] at hlength
      have hgroup : group s (n :: m :: rest) = s.take n ++ '-' :: group (s.drop n) (m :: rest) :=
        rfl
      have hdrop := ih (s := s.drop n) (fun hc => h (List.mem_of_mem_drop hc))
        (by rw [List.length_drop]; omega)
      rw [hgroup, List.filter_append, hkeep _ fun hc => h (List.mem_of_mem_take hc),
        List.filter_cons_of_neg (by decide), hdrop, List.take_append_drop]

/-- An identifier is read back. -/
theorem read?_toList (u : Uuid) : read? u.toList = some u := by
  have hlength := length_toList u
  have hdigits := Text.length_hexDigits 32 u.bits.toNat
  have hfilter : u.toList.filter (· != '-') = Text.hexDigits 32 u.bits.toNat :=
    filter_group (fun hc => by cases Text.isSome_of_mem_hexDigits hc) hdigits
  have hmarks : u.toList[8]? = some '-' ∧ u.toList[13]? = some '-' ∧ u.toList[18]? = some '-' ∧
      u.toList[23]? = some '-' := by
    rw [toList]
    generalize Text.hexDigits 32 u.bits.toNat = s at hdigits
    simp [group, hdigits]
  rw [read?, if_neg (by omega), if_pos hlength, readGroups?, if_pos ⟨hlength, hmarks⟩, hfilter,
    readDigits?_hexDigits]

theorem read?_write (u : Uuid) : read? u.write.toList = some u := by
  rw [write, String.toList_ofList, read?_toList]

theorem write_injective {a b : Uuid} (h : a.write = b.write) : a = b := by
  have hread := read?_write a
  rw [h, read?_write] at hread
  exact (Option.some.inj hread).symm

end Uuid

/-! ## Lists, sets and maps -/

namespace Validated

variable {α β : Type}

theorem require_valid {ok : α → Bool} {fault : Fault} {x : α} (h : ok x = true) :
    (valid x).require ok fault = valid x := if_pos h

theorem items_map_valid (index : Nat) (xs : List α) : items index (xs.map valid) = valid xs := by
  induction xs generalizing index with
  | nil => rfl
  | cons x rest ih =>
    rw [List.map_cons, items, ih]
    rfl

theorem members_map_valid (entries : List (String × α)) :
    members (entries.map fun e => (e.1, valid e.2)) = valid entries := by
  induction entries with
  | nil => rfl
  | cons e rest ih =>
    rw [List.map_cons, members, ih]
    rfl

theorem map_fst_of_members {entries : List (String × Validated α)} {out : List (String × α)}
    (h : members entries = valid out) : out.map (·.1) = entries.map (·.1) := by
  induction entries generalizing out with
  | nil =>
    cases h
    rfl
  | cons e rest ih =>
    obtain ⟨g, tail, hhead, htail, rfl⟩ := seq_eq_valid h
    obtain ⟨x, -, rfl⟩ := map_eq_valid hhead
    rw [List.map_cons, List.map_cons, ih htail]

end Validated

namespace Reader

variable {α : Type} {read : Reader α} {write : α → Json}

/-- A list is read back if its items are. -/
theorem list_map {xs : List α} (h : ∀ x ∈ xs, read (write x) = .valid x) :
    list read (.arr (xs.map write)) = .valid xs := by
  have hitems : xs.map (fun x => read (write x)) = xs.map Validated.valid :=
    List.map_congr_left h
  rw [list, List.map_map]
  change Validated.items 0 (xs.map fun x => read (write x)) = _
  rw [hitems, Validated.items_map_valid]

/-- A map is read back if its values are. -/
theorem dictionary_map {entries : List (String × α)}
    (h : ∀ e ∈ entries, read (write e.2) = .valid e.2) :
    dictionary read (.obj (entries.map fun e => (e.1, write e.2))) = .valid entries := by
  have hentries : entries.map (fun e => (e.1, read (write e.2))) =
      entries.map fun e => (e.1, .valid e.2) :=
    List.map_congr_left fun e he => by rw [h e he]
  rw [dictionary, List.map_map]
  change Validated.members (entries.map fun e => (e.1, read (write e.2))) = _
  rw [hentries, Validated.members_map_valid]

theorem dictionary_ofEntries (entries : List (String × String)) :
    dictionary text (Json.ofEntries entries) = .valid entries :=
  @dictionary_map _ text .str entries fun _ _ => rfl

theorem list_text (xs : List String) : list text (.arr (xs.map .str)) = .valid xs :=
  list_map fun _ _ => rfl

/-- A text that is greater than those of a set stands after them. -/
theorem insertText_of_forall_lt {s : String} {set : List String} (h : ∀ t ∈ set, t < s) :
    insertText s set = set ++ [s] := by
  induction set with
  | nil => rfl
  | cons t rest ih =>
    rw [List.forall_mem_cons] at h
    rw [insertText, if_neg h.1.ne', if_neg (lt_asymm h.1), ih h.2, List.cons_append]

theorem foldl_insertText {xs set : List String} (h : (set ++ xs).Pairwise (· < ·)) :
    xs.foldl (fun set s => insertText s set) set = set ++ xs := by
  induction xs generalizing set with
  | nil => rw [List.foldl_nil, List.append_nil]
  | cons s rest ih =>
    have hless : ∀ t ∈ set, t < s := fun t ht =>
      (List.pairwise_append.mp h).2.2 t ht s List.mem_cons_self
    rw [List.foldl_cons, insertText_of_forall_lt hless, ih]
    · rw [List.append_assoc, List.singleton_append]
    · rwa [List.append_assoc, List.singleton_append]

/-- A set is read back from its texts in increasing order. -/
theorem textSet_of_pairwise {xs : List String} (h : xs.Pairwise (· < ·)) :
    textSet (.arr (xs.map .str)) = .valid xs := by
  have hread : (xs.map Json.str).map text = xs.map .valid := by
    rw [List.map_map]
    rfl
  rw [textSet, hread, Validated.items_map_valid, Validated.map,
    @foldl_insertText xs [] h, List.nil_append]

theorem mem_insertText {s t : String} {set : List String} :
    t ∈ insertText s set ↔ t = s ∨ t ∈ set := by
  induction set with
  | nil => rw [insertText, List.mem_singleton, List.mem_nil_iff, or_false]
  | cons u rest ih =>
    rw [insertText]
    split_ifs with hsame hless
    · rw [hsame, List.mem_cons, ← or_assoc, or_self]
    · rw [List.mem_cons]
    · rw [List.mem_cons, ih, List.mem_cons, or_left_comm]

theorem pairwise_insertText {set : List String} (h : set.Pairwise (· < ·)) (s : String) :
    (insertText s set).Pairwise (· < ·) := by
  induction set with
  | nil => exact List.pairwise_singleton _ _
  | cons u rest ih =>
    rw [insertText]
    rw [List.pairwise_cons] at h
    split_ifs with hsame hless
    · exact List.pairwise_cons.mpr h
    · refine List.pairwise_cons.mpr ⟨?_, List.pairwise_cons.mpr h⟩
      exact List.forall_mem_cons.mpr ⟨hless, fun t ht => hless.trans (h.1 t ht)⟩
    · refine List.pairwise_cons.mpr ⟨fun t ht => ?_, ih h.2⟩
      rcases mem_insertText.mp ht with rfl | ht
      · exact lt_of_le_of_ne (not_lt.mp hless) (Ne.symm hsame)
      · exact h.1 t ht

theorem pairwise_of_textSet {j : Json} {xs : List String} (h : textSet j = .valid xs) :
    xs.Pairwise (· < ·) := by
  have hfold : ∀ texts set : List String, set.Pairwise (· < ·) →
      (texts.foldl (fun set s => insertText s set) set).Pairwise (· < ·) := by
    intro texts
    induction texts with
    | nil => exact fun _ hset => hset
    | cons s rest ih => exact fun set hset => ih _ (pairwise_insertText hset s)
  cases j with
  | arr items =>
    obtain ⟨texts, -, rfl⟩ := Validated.map_eq_valid h
    exact hfold texts [] List.Pairwise.nil
  | _ => cases h

end Reader

namespace Entries

variable {β : Type}

theorem sort_of_pairwise {entries : List (String × β)}
    (h : (entries.map (·.1)).Pairwise (· < ·)) : sort entries = entries := by
  induction entries with
  | nil => rfl
  | cons e rest ih =>
    rw [List.map_cons, List.pairwise_cons] at h
    change insertSorted e.1 e.2 (sort rest) = e :: rest
    rw [ih h.2]
    cases rest with
    | nil => rfl
    | cons f more => rw [insertSorted, if_neg (lt_asymm (h.1 f.1 List.mem_cons_self))]

theorem map_fst_insertSorted_perm (name : String) (value : β) (entries : List (String × β)) :
    ((insertSorted name value entries).map (·.1)).Perm (name :: entries.map (·.1)) := by
  induction entries with
  | nil => exact .refl _
  | cons e rest ih =>
    rw [insertSorted]
    split
    · rw [List.map_cons, List.map_cons]
      exact (ih.cons e.1).trans (.swap name e.1 _)
    · exact .refl _

theorem pairwise_insertSorted {name : String} {entries : List (String × β)}
    (hnew : name ∉ entries.map (·.1)) (h : (entries.map (·.1)).Pairwise (· < ·)) (value : β) :
    ((insertSorted name value entries).map (·.1)).Pairwise (· < ·) := by
  induction entries with
  | nil => exact List.pairwise_singleton _ _
  | cons e rest ih =>
    rw [List.map_cons, List.mem_cons, not_or] at hnew
    rw [List.map_cons, List.pairwise_cons] at h
    rw [insertSorted]
    split_ifs with hless
    · rw [List.map_cons, List.pairwise_cons]
      refine ⟨fun other hother => ?_, ih hnew.2 h.2⟩
      rcases List.mem_cons.mp ((map_fst_insertSorted_perm name value rest).mem_iff.mp hother) with
        rfl | hother
      · exact hless
      · exact h.1 other hother
    · have hgreater : name < e.1 := lt_of_le_of_ne (not_lt.mp hless) hnew.1
      rw [List.map_cons, List.map_cons, List.pairwise_cons, List.pairwise_cons]
      exact ⟨List.forall_mem_cons.mpr ⟨hgreater, fun other ho => hgreater.trans (h.1 other ho)⟩, h⟩

/-- Entries of different names are sorted by their names. -/
theorem pairwise_sort {entries : List (String × β)} (h : (entries.map (·.1)).Nodup) :
    ((sort entries).map (·.1)).Pairwise (· < ·) ∧
      ((sort entries).map (·.1)).Perm (entries.map (·.1)) := by
  induction entries with
  | nil => exact ⟨.nil, .refl _⟩
  | cons e rest ih =>
    rw [List.map_cons, List.nodup_cons] at h
    obtain ⟨hsorted, hperm⟩ := ih h.2
    change ((insertSorted e.1 e.2 (sort rest)).map (·.1)).Pairwise (· < ·) ∧
      ((insertSorted e.1 e.2 (sort rest)).map (·.1)).Perm (e.1 :: rest.map (·.1))
    exact ⟨pairwise_insertSorted (fun hmem => h.1 (hperm.mem_iff.mp hmem)) hsorted e.2,
      (map_fst_insertSorted_perm e.1 e.2 _).trans (hperm.cons e.1)⟩

end Entries

/-! ## Texts and members -/

namespace Reader

variable {α : Type} {members : List (String × Json)} {name : String} {read : Reader α} {a : α}

theorem textOfLength_one {s : String} (h : s ≠ "") : textOfLength 1 (.str s) = .valid s := by
  have hlength : 1 ≤ s.length := Nat.one_le_iff_ne_zero.mpr fun hzero =>
    h (String.length_eq_zero_iff.mp hzero)
  exact Validated.require_valid (decide_eq_true hlength)

theorem ne_empty_of_textOfLength {j : Json} {s : String} (h : textOfLength 1 j = .valid s) :
    s ≠ "" := by
  have hlength := (Validated.require_eq_valid h).2
  rintro rfl
  cases hlength

theorem mem_of_find? {name' : String} {j : Json}
    (h : members.find? (·.1 == name) = some (name', j)) : (name, j) ∈ members := by
  have hname := List.find?_some h
  rw [beq_iff_eq] at hname
  exact hname ▸ List.mem_of_find?_eq_some h

theorem mem_of_required (h : required members name read = .valid a) :
    ∃ j, (name, j) ∈ members ∧ read j = .valid a := by
  unfold required at h
  split at h
  · rename_i hfind
    exact ⟨_, mem_of_find? hfind, Validated.below_eq_valid h⟩
  · cases h

theorem mem_of_withDefault {standIn : α} (h : withDefault members name standIn read = .valid a) :
    a = standIn ∨ ∃ j, (name, j) ∈ members ∧ read j = .valid a := by
  unfold withDefault at h
  split at h
  · rename_i hfind
    exact .inr ⟨_, mem_of_find? hfind, Validated.below_eq_valid h⟩
  · cases h
    exact .inl rfl

theorem of_nullable {j : Json} {x : Option α} (h : nullable read j = .valid x) :
    x = none ∨ ∃ a, x = some a ∧ read j = .valid a := by
  unfold nullable at h
  split at h
  · cases h
    exact .inl rfl
  · obtain ⟨a, ha, rfl⟩ := Validated.map_eq_valid h
    exact .inr ⟨a, rfl, ha⟩

theorem nullable_of_ne_null {j : Json} (h : j ≠ .null) : nullable read j = (read j).map some := by
  unfold nullable
  split
  · exact absurd rfl h
  · rfl

end Reader

/-- Every object of the document names each member once, as those do that were read from a text. -/
inductive Json.IsProper : Json → Prop
  | null : IsProper .null
  | bool (b : Bool) : IsProper (.bool b)
  | int (i : Int) : IsProper (.int i)
  | float (x : Float) : IsProper (.float x)
  | str (s : String) : IsProper (.str s)
  | arr (items : List Json) (each : ∀ x ∈ items, IsProper x) : IsProper (.arr items)
  | obj (members : List (String × Json)) (distinct : (members.map (·.1)).Nodup)
      (each : ∀ m ∈ members, IsProper m.2) : IsProper (.obj members)

theorem Json.IsProper.member {members : List (String × Json)} (h : IsProper (.obj members))
    {name : String} {j : Json} (hj : (name, j) ∈ members) : j.IsProper := by
  cases h with
  | obj _ _ each => exact each _ hj

theorem Json.IsProper.nodup_of_dictionary {α : Type} {read : Reader α} {j : Json} (h : j.IsProper)
    {entries : List (String × α)} (hread : Reader.dictionary read j = .valid entries) :
    (entries.map (·.1)).Nodup := by
  cases h with
  | obj members distinct _ =>
    have hnames := Validated.map_fst_of_members hread
    rw [List.map_map] at hnames
    rw [hnames]
    exact distinct
  | _ => cases hread

/-! ## Schedules -/

namespace RetrySchedule

/-- The rules of a schedule. -/
structure IsAccepted (s : RetrySchedule) : Prop where
  intervals : s.intervals ≠ []
  bounded : ∀ i ∈ s.intervals, 1 ≤ i ∧ i ≤ secondsPerWeek
  attempts : 1 ≤ s.maxAttempts ∧ s.maxAttempts ≤ 100

theorem intervalFault?_eq_none {intervals : List Int} :
    intervalFault? intervals = none ↔ ∀ i ∈ intervals, 1 ≤ i ∧ i ≤ secondsPerWeek := by
  rw [intervalFault?, List.findSome?_eq_none_iff]
  refine forall₂_congr fun i _ => ?_
  split_ifs with hshort hlong
  · simp [hshort]
  · simp [hlong]
  · simp [not_lt.mp hshort, not_lt.mp hlong]

theorem readIntervals_map_int {intervals : List Int} (hne : intervals ≠ [])
    (h : ∀ i ∈ intervals, 1 ≤ i ∧ i ≤ secondsPerWeek) :
    readIntervals (.arr (intervals.map .int)) = .valid intervals := by
  have hlist : Reader.list Reader.integer (.arr (intervals.map .int)) = .valid intervals :=
    Reader.list_map fun _ _ => rfl
  have hnonempty : (Validated.valid intervals).require (fun xs => !xs.isEmpty) .tooShort =
      .valid intervals :=
    Validated.require_valid (by simpa using hne)
  rw [readIntervals, hlist, hnonempty]
  dsimp only [Validated.andThen]
  rw [intervalFault?_eq_none.mpr h]

theorem of_readIntervals {j : Json} {intervals : List Int}
    (h : readIntervals j = .valid intervals) :
    intervals ≠ [] ∧ ∀ i ∈ intervals, 1 ≤ i ∧ i ≤ secondsPerWeek := by
  unfold readIntervals at h
  cases hlist : (Reader.list Reader.integer j).require (fun xs => !xs.isEmpty) .tooShort with
  | invalid faults =>
    rw [hlist] at h
    cases h
  | valid xs =>
    rw [hlist] at h
    dsimp only [Validated.andThen] at h
    split at h
    · cases h
    · rename_i hnone
      cases h
      exact ⟨by simpa using (Validated.require_eq_valid hlist).2, intervalFault?_eq_none.mp hnone⟩

theorem readStrategy_name (s : RetryStrategy) : readStrategy (.str s.name) = .valid s := by
  cases s <;> rfl

theorem readMaxAttempts_int {n : Int} (h : 1 ≤ n ∧ n ≤ 100) :
    readMaxAttempts (.int n) = .valid n := by
  have hlow : (Validated.valid n).require (1 ≤ ·) .greaterThanEqual = .valid n :=
    Validated.require_valid (decide_eq_true h.1)
  rw [readMaxAttempts, Reader.integer, hlow]
  exact Validated.require_valid (decide_eq_true h.2)

/-- A schedule is read back from its document. -/
theorem read_document {s : RetrySchedule} (h : s.IsAccepted) : read s.document = .valid s := by
  have hstrategy := readStrategy_name s.strategy
  have hintervals := readIntervals_map_int h.intervals h.bounded
  have hattempts := readMaxAttempts_int h.attempts
  change (((mk <$> (readStrategy (.str s.strategy.name)).below (.member "strategy")
    <*> (readIntervals (.arr (s.intervals.map .int))).below (.member "intervals")
    <*> (readMaxAttempts (.int s.maxAttempts)).below (.member "max_attempts")).map
      fun x _ => x).seq (.valid ())) = _
  rw [hstrategy, hintervals, hattempts]
  rfl

theorem isAccepted_of_read {j : Json} {s : RetrySchedule} (h : read j = .valid s) :
    s.IsAccepted := by
  obtain ⟨members, -, hmembers⟩ := Reader.closedRecord_eq_valid h
  obtain ⟨_, attempts, h₂, hattempts, rfl⟩ := Validated.seq_eq_valid hmembers
  obtain ⟨_, intervals, h₁, hintervals, rfl⟩ := Validated.seq_eq_valid h₂
  obtain ⟨strategy, -, rfl⟩ := Validated.map_eq_valid h₁
  have hbounded : intervals ≠ [] ∧ ∀ i ∈ intervals, 1 ≤ i ∧ i ≤ secondsPerWeek := by
    rcases Reader.mem_of_withDefault hintervals with rfl | ⟨j, -, hj⟩
    · decide
    · exact of_readIntervals hj
  refine ⟨hbounded.1, hbounded.2, ?_⟩
  rcases Reader.mem_of_withDefault hattempts with rfl | ⟨j, -, hj⟩
  · exact ⟨(by decide : (1 : Int) ≤ 8), (by decide : (8 : Int) ≤ 100)⟩
  · obtain ⟨hlow, hhigh⟩ := Validated.require_eq_valid hj
    exact ⟨by simpa using (Validated.require_eq_valid hlow).2, by simpa using hhigh⟩

end RetrySchedule

/-! ## Targets -/

namespace Target

/-- The rules of a target. -/
structure IsAccepted (t : Target) : Prop where
  method : t.method ≠ ""
  capital : Text.upperString t.method = t.method
  url : t.url ≠ ""
  headers : (t.headers.map (·.1)).Nodup

def document (t : Target) : Json :=
  .obj [("method", .str t.method), ("url", .str t.url), ("headers", Json.ofEntries t.headers)]

theorem read_document {t : Target} (h : t.IsAccepted) : read t.document = .valid t := by
  change (((mk <$> ((Reader.textOfLength 1 (.str t.method)).map Text.upperString).below
      (.member "method")
    <*> (Reader.textOfLength 1 (.str t.url)).below (.member "url")
    <*> (Reader.dictionary Reader.text (Json.ofEntries t.headers)).below (.member "headers")).map
      fun x _ => x).seq (.valid ())) = _
  rw [Reader.textOfLength_one h.method, Reader.textOfLength_one h.url,
    Reader.dictionary_ofEntries, Validated.map, h.capital]
  rfl

theorem isAccepted_of_read {j : Json} (hj : j.IsProper) {t : Target} (h : read j = .valid t) :
    t.IsAccepted := by
  obtain ⟨members, rfl, hmembers⟩ := Reader.closedRecord_eq_valid h
  obtain ⟨_, headers, h₂, hheaders, rfl⟩ := Validated.seq_eq_valid hmembers
  obtain ⟨_, url, h₁, hurl, rfl⟩ := Validated.seq_eq_valid h₂
  obtain ⟨method, hmethod, rfl⟩ := Validated.map_eq_valid h₁
  obtain ⟨_, -, hurl⟩ := Reader.mem_of_required hurl
  have hcapital : method ≠ "" ∧ Text.upperString method = method := by
    rcases Reader.mem_of_withDefault hmethod with rfl | ⟨j, -, hread⟩
    · decide
    · obtain ⟨s, hs, rfl⟩ := Validated.map_eq_valid hread
      exact ⟨Text.upperString_ne_empty (Reader.ne_empty_of_textOfLength hs),
        Text.upperString_upperString s⟩
  refine ⟨hcapital.1, hcapital.2, Reader.ne_empty_of_textOfLength hurl, ?_⟩
  rcases Reader.mem_of_withDefault hheaders with rfl | ⟨j, hmem, hread⟩
  · exact List.nodup_nil
  · exact (hj.member hmem).nodup_of_dictionary hread

end Target

/-! ## Records -/

namespace Event

/-- The rules of an event, but for those of its times. -/
structure IsAccepted (e : Event) : Prop where
  eventType : e.eventType ≠ ""
  contentType : e.contentType ≠ ""
  labels : e.labels ≠ []
  sorted : (e.labels.map (·.1)).Pairwise (· < ·)

theorem readLabels_ofEntries {labels : List (String × String)} (hne : labels ≠ [])
    (hsorted : (labels.map (·.1)).Pairwise (· < ·)) :
    readLabels (Json.ofEntries labels) = .valid labels := by
  have hread : (Reader.dictionary Reader.text (Json.ofEntries labels)).map Entries.sort =
      .valid labels := by
    rw [Reader.dictionary_ofEntries, Validated.map, Entries.sort_of_pairwise hsorted]
  rw [readLabels, hread]
  exact Validated.require_valid (by simpa using hne)

theorem of_readLabels {j : Json} (hj : j.IsProper) {labels : List (String × String)}
    (h : readLabels j = .valid labels) :
    labels ≠ [] ∧ (labels.map (·.1)).Pairwise (· < ·) := by
  obtain ⟨hsort, hne⟩ := Validated.require_eq_valid h
  obtain ⟨entries, hentries, rfl⟩ := Validated.map_eq_valid hsort
  exact ⟨by simpa using hne, (Entries.pairwise_sort (hj.nodup_of_dictionary hentries)).1⟩

/-- An event that is read obeys the rules. -/
theorem isAccepted_of_read {now : Int} {j : Json} (hj : j.IsProper) {e : Event}
    (h : read now j = .ok e) : e.IsAccepted := by
  unfold read at h
  split at h
  · cases h
  · obtain ⟨members, rfl, hmembers⟩ :=
      Reader.closedRecord_eq_valid (Validated.toExcept_eq_ok h)
    obtain ⟨_, _, h₈, -, rfl⟩ := Validated.seq_eq_valid hmembers
    obtain ⟨_, _, h₇, -, rfl⟩ := Validated.seq_eq_valid h₈
    obtain ⟨_, _, h₆, -, rfl⟩ := Validated.seq_eq_valid h₇
    obtain ⟨_, labels, h₅, hlabels, rfl⟩ := Validated.seq_eq_valid h₆
    obtain ⟨_, contentType, h₄, hcontentType, rfl⟩ := Validated.seq_eq_valid h₅
    obtain ⟨_, _, h₃, -, rfl⟩ := Validated.seq_eq_valid h₄
    obtain ⟨_, eventType, h₂, heventType, rfl⟩ := Validated.seq_eq_valid h₃
    obtain ⟨_, _, h₁, -, rfl⟩ := Validated.seq_eq_valid h₂
    obtain ⟨_, -, rfl⟩ := Validated.map_eq_valid h₁
    obtain ⟨_, -, heventType⟩ := Reader.mem_of_required heventType
    obtain ⟨j, hmem, hlabels⟩ := Reader.mem_of_required hlabels
    obtain ⟨hne, hsorted⟩ := of_readLabels (hj.member hmem) hlabels
    refine ⟨Reader.ne_empty_of_textOfLength heventType, ?_, hne, hsorted⟩
    rcases Reader.mem_of_withDefault hcontentType with rfl | ⟨_, -, hcontentType⟩
    · change defaultContentType ≠ ""
      decide
    · exact Reader.ne_empty_of_textOfLength hcontentType

end Event

namespace Subscription

/-- The rules of a subscription. -/
structure IsAccepted (s : Subscription) : Prop where
  eventTypes : s.eventTypes ≠ []
  sorted : s.eventTypes.Pairwise (· < ·)
  labelKey : s.labelKey ≠ ""
  labelValue : s.labelValue ≠ ""
  target : s.target.IsAccepted
  secret : s.secret ≠ ""
  workers : s.dedicatedWorkers.Nodup
  schedule : ∀ schedule ∈ s.retrySchedule, schedule.IsAccepted

/-- A subscription that is read obeys the rules. -/
theorem isAccepted_of_read {freshId : Uuid} {now : Int} {j : Json} (hj : j.IsProper)
    {s : Subscription} (h : read freshId now j = .valid s) : s.IsAccepted := by
  obtain ⟨hclosed, hworkers⟩ := Validated.require_eq_valid h
  obtain ⟨members, rfl, hmembers⟩ := Reader.closedRecord_eq_valid hclosed
  obtain ⟨_, _, h₁₁, -, rfl⟩ := Validated.seq_eq_valid hmembers
  obtain ⟨_, _, h₁₀, -, rfl⟩ := Validated.seq_eq_valid h₁₁
  obtain ⟨_, schedule, h₉, hschedule, rfl⟩ := Validated.seq_eq_valid h₁₀
  obtain ⟨_, _, h₈, -, rfl⟩ := Validated.seq_eq_valid h₉
  obtain ⟨_, secret, h₇, hsecret, rfl⟩ := Validated.seq_eq_valid h₈
  obtain ⟨_, target, h₆, htarget, rfl⟩ := Validated.seq_eq_valid h₇
  obtain ⟨_, labelValue, h₅, hlabelValue, rfl⟩ := Validated.seq_eq_valid h₆
  obtain ⟨_, labelKey, h₄, hlabelKey, rfl⟩ := Validated.seq_eq_valid h₅
  obtain ⟨_, eventTypes, h₃, heventTypes, rfl⟩ := Validated.seq_eq_valid h₄
  obtain ⟨_, _, h₂, -, rfl⟩ := Validated.seq_eq_valid h₃
  obtain ⟨_, _, h₁, -, rfl⟩ := Validated.seq_eq_valid h₂
  obtain ⟨_, -, rfl⟩ := Validated.map_eq_valid h₁
  obtain ⟨_, -, heventTypes⟩ := Reader.mem_of_required heventTypes
  obtain ⟨_, -, hlabelKey⟩ := Reader.mem_of_required hlabelKey
  obtain ⟨_, -, hlabelValue⟩ := Reader.mem_of_required hlabelValue
  obtain ⟨_, htargetMem, htarget⟩ := Reader.mem_of_required htarget
  obtain ⟨_, -, hsecret⟩ := Reader.mem_of_required hsecret
  obtain ⟨hset, hne⟩ := Validated.require_eq_valid heventTypes
  exact {
    eventTypes := by simpa using hne
    sorted := Reader.pairwise_of_textSet hset
    labelKey := Reader.ne_empty_of_textOfLength hlabelKey
    labelValue := Reader.ne_empty_of_textOfLength hlabelValue
    target := Target.isAccepted_of_read (hj.member htargetMem) htarget
    secret := Reader.ne_empty_of_textOfLength hsecret
    workers := by simpa using hworkers
    schedule := by
      rintro x (rfl : schedule = some x)
      rcases Reader.mem_of_withDefault hschedule with hnone | ⟨_, -, hread⟩
      · cases hnone
      · rcases Reader.of_nullable hread with hnone | ⟨_, hsome, hread⟩
        · cases hnone
        · cases hsome
          exact RetrySchedule.isAccepted_of_read hread }

end Subscription

namespace Response

/-- The rules of a response, whose headers come from an object. -/
structure IsAccepted (r : Response) : Prop where
  elapsed : 0 ≤ r.elapsedMs
  headers : ∀ headers ∈ r.headers, (headers.map (·.1)).Nodup

/-- A response that is read obeys the rules. -/
theorem isAccepted_of_read {freshId : Uuid} {now : Int} {j : Json} (hj : j.IsProper) {r : Response}
    (h : read freshId now j = .valid r) : r.IsAccepted := by
  obtain ⟨members, rfl, hmembers⟩ := Reader.closedRecord_eq_valid h
  obtain ⟨_, _, h₈, -, rfl⟩ := Validated.seq_eq_valid hmembers
  obtain ⟨_, elapsed, h₇, helapsed, rfl⟩ := Validated.seq_eq_valid h₈
  obtain ⟨_, _, h₆, -, rfl⟩ := Validated.seq_eq_valid h₇
  obtain ⟨_, headers, h₅, hheaders, rfl⟩ := Validated.seq_eq_valid h₆
  obtain ⟨_, _, h₄, -, rfl⟩ := Validated.seq_eq_valid h₅
  obtain ⟨_, _, h₃, -, rfl⟩ := Validated.seq_eq_valid h₄
  obtain ⟨_, _, h₂, -, rfl⟩ := Validated.seq_eq_valid h₃
  obtain ⟨_, _, h₁, -, rfl⟩ := Validated.seq_eq_valid h₂
  obtain ⟨_, -, rfl⟩ := Validated.map_eq_valid h₁
  constructor
  · rcases Reader.mem_of_withDefault helapsed with rfl | ⟨_, -, hread⟩
    · exact Int.le_refl 0
    · simpa using (Validated.require_eq_valid hread).2
  · rintro x (rfl : headers = some x)
    rcases Reader.mem_of_withDefault hheaders with hnone | ⟨_, hmem, hread⟩
    · cases hnone
    · rcases Reader.of_nullable hread with hnone | ⟨_, hsome, hread⟩
      · cases hnone
      · cases hsome
        exact (hj.member hmem).nodup_of_dictionary hread

end Response

end WebhookDelivery
