import WebhookDelivery.Proofs.SignatureText

/-!
# WebhookDelivery.Proofs.LetterCase

Lower case is a normal form: a text in lower case is its own lower case. The case table gives the
lower-case forms in runs, so it is enough to compare the run of forms that a run of capitals leads to
with all runs of capitals.

* `lowerRuns_apart`: the lower-case forms of the table are no capitals, no blanks and no commas.
* `isLowerFormOf_of_mem_lowerChar`: a lower-case form of a character is its own lower case.
* `lower_lower`: lower case is a normal form.
* `comma_of_mem_lower`, `trim_lower_trim`: in lower case a text gets no commas, and no blanks at its
  ends.
-/

namespace WebhookDelivery
namespace Text

/-! ## Runs of the case table -/

namespace CaseRun

/-- The run of the forms to which the characters of a run are mapped. -/
def target (r : CaseRun) : CaseRun where
  first := (r.first + r.offset).toNat
  last := (r.last + r.offset).toNat
  stride := r.stride
  offset := 0

/-- The runs do not overlap, or else one holds only even and the other only odd characters. -/
def isApart (a b : CaseRun) : Bool :=
  a.last.blt b.first || b.last.blt a.first ||
    ((a.stride.beq 2 || a.first.beq a.last) && b.stride.beq 2 && ((a.first + b.first) % 2).beq 1)

theorem contains_iff {r : CaseRun} {n : Nat} : r.contains n = true ↔
    r.first ≤ n ∧ n ≤ r.last ∧ (n - r.first) % r.stride = 0 := by
  simp [contains, and_assoc]

theorem not_contains_of_isApart {a b : CaseRun} {n : Nat} (h : a.isApart b = true)
    (ha : a.contains n = true) : b.contains n = false := by
  rw [Bool.eq_false_iff, ne_eq, contains_iff]
  rw [contains_iff] at ha
  simp only [isApart, Bool.or_eq_true, Bool.and_eq_true, Nat.blt_eq, Nat.beq_eq] at h
  rintro ⟨hfirst, hlast, hb⟩
  obtain ⟨hfirst', hlast', ha⟩ := ha
  rcases h with (h | h) | ⟨⟨hstride | hsingle, hb'⟩, hparity⟩
  · omega
  · omega
  · rw [hstride] at ha
    rw [hb'] at hb
    omega
  · rw [hb'] at hb
    omega

theorem target_contains {r : CaseRun} {n : Nat} (hr : 0 ≤ (r.first : Int) + r.offset)
    (h : r.contains n = true) : r.target.contains ((n : Int) + r.offset).toNat = true := by
  rw [contains_iff] at h ⊢
  obtain ⟨hfirst, hlast, hstep⟩ := h
  have hsame : ((n : Int) + r.offset).toNat - (r.first + r.offset).toNat = n - r.first := by omega
  refine ⟨?_, ?_, ?_⟩
  · exact Int.toNat_le_toNat (by omega)
  · exact Int.toNat_le_toNat (by omega)
  · change (((n : Int) + r.offset).toNat - (r.first + r.offset).toNat) % r.stride = 0
    rw [hsame, hstep]

theorem mem_and_contains_of_find? {runs : Array CaseRun} {n : Nat} {r : CaseRun}
    (h : runs.find? (·.contains n) = some r) : r ∈ runs.toList ∧ r.contains n = true :=
  ⟨Array.mem_def.1 (Array.mem_of_find?_eq_some h), by
    simpa using Array.find?_some h⟩

end CaseRun

/-- The capital I with dot, which is in no run, the comma, and the blanks. -/
def otherRuns : List CaseRun :=
  [⟨0x130, 0x130, 1, 0⟩, ⟨0x2c, 0x2c, 1, 0⟩, ⟨0x09, 0x0d, 1, 0⟩, ⟨0x1c, 0x20, 1, 0⟩,
    ⟨0x85, 0x85, 1, 0⟩, ⟨0xa0, 0xa0, 1, 0⟩, ⟨0x1680, 0x1680, 1, 0⟩, ⟨0x2000, 0x200a, 1, 0⟩,
    ⟨0x2028, 0x2029, 1, 0⟩, ⟨0x202f, 0x202f, 1, 0⟩, ⟨0x205f, 0x205f, 1, 0⟩,
    ⟨0x3000, 0x3000, 1, 0⟩]

theorem lowerRuns_all_apart : (lowerRuns.toList.all fun r => 0 ≤ (r.first : Int) + r.offset &&
    (lowerRuns.toList ++ otherRuns).all r.target.isApart) = true := by
  decide +kernel

theorem lowerRuns_apart {r : CaseRun} (hr : r ∈ lowerRuns.toList) :
    0 ≤ (r.first : Int) + r.offset ∧
      ∀ other ∈ lowerRuns.toList ++ otherRuns, r.target.isApart other = true := by
  simpa only [Bool.and_eq_true, decide_eq_true_eq, List.all_eq_true] using
    List.all_eq_true.1 lowerRuns_all_apart r hr

/-! ## Characters -/

/-- A character that is its own lower case wherever it stands. -/
structure IsSettled (c : Char) : Prop where
  lower : lowerChar c = [c]
  not_sigma : c.toNat ≠ 0x3a3

/-- The table gives a lower-case form for the character. -/
def hasLowerForm (n : Nat) : Bool := lowerRuns.toList.any (·.contains n)

theorem hasLowerForm_eq_false {n : Nat} :
    hasLowerForm n = false ↔ ∀ r ∈ lowerRuns.toList, r.contains n = false := by
  rw [hasLowerForm, List.any_eq_false]
  exact forall₂_congr fun r _ => Bool.eq_false_iff.symm

/-- The table holds the capital sigma and the capitals of ASCII, and none of the forms that it does
not give. -/
theorem hasLowerForm_cases : hasLowerForm 0x3a3 = true ∧
    (∀ n < 0x80, (Char.ofNat n).toLower = Char.ofNat n ∨ hasLowerForm n = true) ∧
    ∀ n ∈ [0x307, 0x3c2, 0x3c3], hasLowerForm n = false := by
  decide +kernel

theorem isSettled_of_not_hasLowerForm {c : Char} (h : hasLowerForm c.toNat = false)
    (hdot : c.toNat ≠ 0x130) : IsSettled c := by
  obtain ⟨hsigma, hcapital, -⟩ := hasLowerForm_cases
  constructor
  · rw [lowerChar]
    split
    · rename_i hascii
      have hlower := (hcapital c.toNat hascii).resolve_right (by simp [h])
      rw [Char.ofNat_toNat] at hlower
      rw [hlower]
    · have hfind : lowerRuns.find? (·.contains c.toNat) = none := by
        rw [Array.find?_eq_none]
        intro r hr
        rw [hasLowerForm_eq_false.1 h r (Array.mem_def.1 hr)]
        exact Bool.false_ne_true
      rw [shiftCase, hfind]
  · intro he
    rw [he, hsigma] at h
    exact absurd h (by decide)

theorem isSettled_form {n : Nat} (hn : n ∈ [0x307, 0x3c2, 0x3c3]) : IsSettled (Char.ofNat n) := by
  obtain ⟨-, -, hforms⟩ := hasLowerForm_cases
  have hvalue : (Char.ofNat n).toNat = n ∧ n ≠ 0x130 := by
    revert n
    decide
  refine isSettled_of_not_hasLowerForm ?_ (hvalue.1.symm ▸ hvalue.2)
  rw [hvalue.1]
  exact hforms n hn

theorem isBlank_iff {c : Char} :
    isBlank c = true ↔ ∃ r ∈ otherRuns.drop 2, r.contains c.toNat = true := by
  simp [isBlank, otherRuns, CaseRun.contains_iff, Nat.mod_one]
  omega

/-- What a lower-case form of a character is. -/
structure IsLowerFormOf (c d : Char) : Prop where
  settled : IsSettled d
  comma : d = ',' → c = ','
  blank : isBlank d = true → isBlank c = true

theorem isLowerFormOf_of_plain (c : Char) {d : Char} (hsettled : IsSettled d) (hcomma : d ≠ ',')
    (hblank : isBlank d = false) : IsLowerFormOf c d :=
  ⟨hsettled, fun h => absurd h hcomma, fun h => absurd h (by simp [hblank])⟩

theorem isLowerFormOf_ofNat {n : Nat} (c : Char)
    (h : ∀ r ∈ lowerRuns.toList ++ otherRuns, r.contains n = false) :
    IsLowerFormOf c (Char.ofNat n) := by
  by_cases hvalid : n.isValidChar
  · have hn : (Char.ofNat n).toNat = n := by
      rw [Char.ofNat, dif_pos hvalid]
      rfl
    have hrun : hasLowerForm (Char.ofNat n).toNat = false := by
      rw [hn, hasLowerForm_eq_false]
      exact fun r hr => h r (List.mem_append_left _ hr)
    have hother : ∀ r ∈ otherRuns, r.contains (Char.ofNat n).toNat = false := fun r hr => by
      rw [hn]
      exact h r (List.mem_append_right _ hr)
    refine isLowerFormOf_of_plain c (isSettled_of_not_hasLowerForm hrun fun hdot => ?_)
      (fun hcomma => ?_) ?_
    · have := hother ⟨0x130, 0x130, 1, 0⟩ (by simp [otherRuns])
      rw [hdot] at this
      exact absurd this (by decide)
    · have := hother ⟨0x2c, 0x2c, 1, 0⟩ (by simp [otherRuns])
      rw [hcomma] at this
      exact absurd this (by decide)
    · rw [Bool.eq_false_iff]
      intro hblank
      obtain ⟨r, hr, hcontains⟩ := isBlank_iff.1 hblank
      rw [hother r (List.mem_of_mem_drop hr)] at hcontains
      exact absurd hcontains (by decide)
  · have hn : Char.ofNat n = Char.ofNat 0 := by
      rw [Char.ofNat, dif_neg hvalid]
      rfl
    rw [hn]
    exact isLowerFormOf_of_plain c ⟨by decide, by decide⟩ (by decide) (by decide)

theorem isLowerFormOf_of_mem_lowerChar {c d : Char} (hd : d ∈ lowerChar c) :
    IsLowerFormOf c d := by
  rw [lowerChar] at hd
  split at hd
  · rename_i hascii
    obtain rfl := List.mem_singleton.1 hd
    obtain ⟨hlow, hidem, hcomma, hblank⟩ := toLower_of_isAscii hascii
    refine ⟨⟨?_, by omega⟩, hcomma.1, fun hb => hblank ▸ hb⟩
    rw [lowerChar, if_pos hlow, hidem]
  · split at hd
    · have hdot : d = 'i' ∨ d = Char.ofNat 0x307 := by simpa using hd
      rcases hdot with rfl | rfl
      · exact isLowerFormOf_of_plain c ⟨by decide, by decide⟩ (by decide) (by decide)
      · exact isLowerFormOf_of_plain c (isSettled_form (by decide)) (by decide) (by decide)
    · rename_i hdot
      rw [List.mem_singleton, shiftCase] at hd
      split at hd
      · rename_i r hfind
        subst hd
        obtain ⟨hr, hcontains⟩ := CaseRun.mem_and_contains_of_find? hfind
        obtain ⟨hpos, hapart⟩ := lowerRuns_apart hr
        exact isLowerFormOf_ofNat c fun other hother =>
          CaseRun.not_contains_of_isApart (hapart other hother)
            (CaseRun.target_contains hpos hcontains)
      · rename_i hfind
        rw [Array.find?_eq_none] at hfind
        have hnone : hasLowerForm c.toNat = false := hasLowerForm_eq_false.2 fun r hr =>
          Bool.eq_false_iff.2 (hfind r (Array.mem_def.2 hr))
        rw [hd]
        exact ⟨isSettled_of_not_hasLowerForm hnone hdot, id, id⟩

theorem lowerChar_ne_nil (c : Char) : lowerChar c ≠ [] := by
  rw [lowerChar]
  split
  · simp
  · split <;> simp

/-! ## Texts -/

/-- The lower-case form of a character where it stands between two texts. -/
def lowerForm (before : List Char) (c : Char) (rest : List Char) : List Char :=
  if c.toNat = 0x3a3 then [Char.ofNat (if endsWord before rest then 0x3c2 else 0x3c3)]
  else lowerChar c

theorem lowerAfter_cons (before : List Char) (c : Char) (rest : List Char) :
    lowerAfter before (c :: rest) = lowerForm before c rest ++ lowerAfter (c :: before) rest := rfl

theorem lowerForm_ne_nil (before : List Char) (c : Char) (rest : List Char) :
    lowerForm before c rest ≠ [] := by
  rw [lowerForm]
  split
  · simp
  · exact lowerChar_ne_nil c

theorem isLowerFormOf_of_mem_lowerForm {before rest : List Char} {c d : Char}
    (hd : d ∈ lowerForm before c rest) : IsLowerFormOf c d := by
  rw [lowerForm] at hd
  split at hd
  · obtain rfl := List.mem_singleton.1 hd
    split
    · exact isLowerFormOf_of_plain c (isSettled_form (by decide)) (by decide) (by decide)
    · exact isLowerFormOf_of_plain c (isSettled_form (by decide)) (by decide) (by decide)
  · exact isLowerFormOf_of_mem_lowerChar hd

theorem isLowerFormOf_of_mem_lowerAfter {before s : List Char} {d : Char}
    (hd : d ∈ lowerAfter before s) : ∃ c ∈ s, IsLowerFormOf c d := by
  induction s generalizing before with
  | nil => exact absurd hd List.not_mem_nil
  | cons c rest ih =>
    rw [lowerAfter_cons, List.mem_append] at hd
    rcases hd with hd | hd
    · exact ⟨c, List.mem_cons_self, isLowerFormOf_of_mem_lowerForm hd⟩
    · obtain ⟨e, he, hform⟩ := ih hd
      exact ⟨e, List.mem_cons_of_mem c he, hform⟩

theorem lowerAfter_of_isSettled {s : List Char} (h : ∀ c ∈ s, IsSettled c) (before : List Char) :
    lowerAfter before s = s := by
  induction s generalizing before with
  | nil => rfl
  | cons c rest ih =>
    have hc := h c List.mem_cons_self
    have hrest := ih (fun d hd => h d (List.mem_cons_of_mem c hd)) (c :: before)
    rw [lowerAfter_cons, lowerForm, if_neg hc.not_sigma, hc.lower, hrest, List.singleton_append]

/-- Lower case is a normal form. -/
theorem lower_lower (s : List Char) : lower (lower s) = lower s := by
  refine lowerAfter_of_isSettled (fun d hd => ?_) []
  obtain ⟨c, -, hform⟩ := isLowerFormOf_of_mem_lowerAfter hd
  exact hform.settled

theorem comma_of_mem_lower {s : List Char} (h : ',' ∈ lower s) : ',' ∈ s := by
  obtain ⟨c, hc, hform⟩ := isLowerFormOf_of_mem_lowerAfter h
  exact hform.comma rfl ▸ hc

theorem lowerAfter_ne_nil {before s : List Char} (h : s ≠ []) : lowerAfter before s ≠ [] := by
  obtain ⟨c, rest, rfl⟩ := List.exists_cons_of_ne_nil h
  rw [lowerAfter_cons]
  exact List.append_ne_nil_of_left_ne_nil (lowerForm_ne_nil before c rest) _

theorem head?_lowerAfter {before s : List Char} (h : ∀ c ∈ s.head?, isBlank c = false) :
    ∀ d ∈ (lowerAfter before s).head?, isBlank d = false := by
  cases s with
  | nil => exact h
  | cons c rest =>
    intro d hd
    rw [lowerAfter_cons, List.head?_append_of_ne_nil _ (lowerForm_ne_nil before c rest)] at hd
    have hform := isLowerFormOf_of_mem_lowerForm (List.mem_of_mem_head? hd)
    rw [Bool.eq_false_iff]
    intro hblank
    exact absurd (hform.blank hblank) (by simp [h c rfl])

theorem getLast?_lowerAfter {before s : List Char} (h : ∀ c ∈ s.getLast?, isBlank c = false) :
    ∀ d ∈ (lowerAfter before s).getLast?, isBlank d = false := by
  induction s generalizing before with
  | nil => exact h
  | cons c rest ih =>
    intro d hd
    rw [lowerAfter_cons] at hd
    by_cases hrest : rest = []
    · subst hrest
      rw [lowerAfter, List.append_nil] at hd
      have hform := isLowerFormOf_of_mem_lowerForm (List.mem_of_mem_getLast? hd)
      rw [Bool.eq_false_iff]
      intro hblank
      exact absurd (hform.blank hblank) (by simp [h c rfl])
    · rw [List.getLast?_append_of_ne_nil _ (lowerAfter_ne_nil hrest)] at hd
      have hlast : (c :: rest).getLast? = rest.getLast? := by
        obtain ⟨e, rest, rfl⟩ := List.exists_cons_of_ne_nil hrest
        rfl
      exact ih (fun e he => h e (hlast ▸ he)) d hd

/-! ## Ends -/

theorem trimBy_ends (class_ : Char → Bool) (s : List Char) :
    (∀ c ∈ (trimBy class_ s).head?, class_ c = false) ∧
      ∀ c ∈ (trimBy class_ s).getLast?, class_ c = false := by
  have hfirst (t : List Char) : ∀ c ∈ (t.dropWhile class_).head?, class_ c = false := by
    intro c hc
    have hnot := List.head?_dropWhile_not class_ t
    rw [Option.mem_def.1 hc] at hnot
    simpa using hnot
  constructor
  · intro c hc
    have hprefix : trimBy class_ s <+: s.dropWhile class_ := by
      rw [trimBy, ← List.reverse_suffix, List.reverse_reverse]
      exact List.dropWhile_suffix class_
    obtain ⟨rest, hrest⟩ := hprefix
    refine hfirst s c ?_
    rw [← hrest, Option.mem_def, List.head?_append, Option.mem_def.1 hc]
    rfl
  · intro c hc
    rw [trimBy, List.getLast?_reverse] at hc
    exact hfirst _ c hc

/-- A text without blanks at its ends has none there in lower case. -/
theorem trim_lower_trim (s : List Char) : trim (lower (trim s)) = lower (trim s) :=
  trimBy_of_ends (head?_lowerAfter (trimBy_ends isBlank s).1)
    (getLast?_lowerAfter (trimBy_ends isBlank s).2)

end Text
end WebhookDelivery
