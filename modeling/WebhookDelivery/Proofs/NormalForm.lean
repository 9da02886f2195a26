import Mathlib.Algebra.Ring.Nat
import WebhookDelivery.Proofs.LetterCase

/-!
# WebhookDelivery.Proofs.NormalForm

The text that is written for a signature is a normal form of all texts that are read as it: what
may differ between them, the spelling of the number and of the digests, blanks, fields that are
repeated or unknown, and the case of the names, is gone when the text is written.

* `digitCount_le_of_read?`: an integer that was read has few enough digits to be read again.
* `isCarried_of_parse`: the text of a signature that was read carries its names.
* `signatures_have_normal_form`: a signature that was read, or one with ordinary names, is read from
  the text written for it.
-/

namespace WebhookDelivery
namespace Integer

theorem digitValue?_lt {c : Char} {v : Nat} (h : Text.digitValue? c = some v) : v < 10 := by
  unfold Text.digitValue? at h
  split at h
  · split at h
    · rename_i hdigit
      obtain rfl := Option.some.inj h
      have hnine : c.toNat ≤ 57 := Char.le_def.1 hdigit.2
      omega
    · exact absurd h (by simp)
  · obtain ⟨first, hfirst, rfl⟩ := Option.map_eq_some_iff.1 h
    have hrange := Array.find?_some hfirst
    simp only [Bool.and_eq_true, decide_eq_true_eq] at hrange
    omega

/-- Each digit multiplies the bound of the value by ten. -/
theorem digitsAfter_lt {s : List Char} {value count n total : Nat}
    (h : digitsAfter value count s = some (n, total)) (hv : value < 10 ^ count) :
    n < 10 ^ total := by
  have hstep {c : Char} {value count v : Nat} (hc : Text.digitValue? c = some v)
      (hv : value < 10 ^ count) : 10 * value + v < 10 ^ (count + 1) := by
    have := digitValue?_lt hc
    rw [Nat.pow_succ]
    omega
  fun_induction digitsAfter value count s with
  | case1 value count =>
    cases h
    exact hv
  | case2 value count d rest v hd ih => exact ih h (hstep hd hv)
  | case3 value count d rest hd => cases h
  | case4 value count c rest hne v hc ih => exact ih h (hstep hc hv)
  | case5 value count c rest hne hc => cases h

theorem readDigits?_lt {s : List Char} {n : Nat} (h : readDigits? s = some n) :
    n < 10 ^ maxDigits := by
  unfold readDigits? at h
  split at h
  · cases h
  · split at h
    · rename_i c rest v hc
      split at h
      · rename_i m count hdigits
        split at h
        · rename_i hcount
          obtain rfl := Option.some.inj h
          have hv : v < 10 ^ 1 := digitValue?_lt hc
          exact Nat.lt_of_lt_of_le (digitsAfter_lt hdigits hv)
            (Nat.pow_le_pow_right (by decide) hcount)
        · cases h
      · cases h
    · cases h

theorem readSigned?_cases {s : List Char} {i : Int} (h : readSigned? s = some i) :
    ∃ digits n, readDigits? digits = some n ∧ i.natAbs = n := by
  unfold readSigned? at h
  split at h
  all_goals
    obtain ⟨m, hm, rfl⟩ := Option.map_eq_some_iff.1 h
    simp only [Option.pure_def, Option.bind_eq_bind, Option.bind_eq_some_iff, Option.some.injEq] at hm
    obtain ⟨n, hn, rfl⟩ := hm
    exact ⟨_, n, hn, by simp⟩

/-- An integer that was read has few enough digits to be read again. -/
theorem digitCount_le_of_read? {s : List Char} {i : Int} (h : read? s = some i) :
    digitCount i ≤ maxDigits := by
  obtain ⟨digits, n, hdigits, hn⟩ := readSigned?_cases h
  rw [digitCount, hn]
  exact (Nat.length_toDigits_le_iff (by decide) (by decide)).2 (readDigits?_lt hdigits)

end Integer

namespace Signature

theorem not_mem_splitAt {mark : Char} {s piece : List Char} (h : piece ∈ splitAt mark s) :
    mark ∉ piece := by
  induction s generalizing piece with
  | nil =>
    obtain rfl := List.mem_singleton.1 h
    exact List.not_mem_nil
  | cons c rest ih =>
    rw [splitAt] at h
    split at h
    · rcases List.mem_cons.1 h with rfl | h
      · exact List.not_mem_nil
      · exact ih h
    · rename_i hc
      split at h
      · rename_i first pieces hrest
        rcases List.mem_cons.1 h with rfl | h
        · have hfirst : mark ∉ first := ih (hrest ▸ List.mem_cons_self)
          simp [hfirst, Ne.symm hc]
        · exact ih (hrest ▸ List.mem_cons_of_mem first h)
      · rename_i hrest
        exact absurd hrest (splitAt_ne_nil mark rest)

theorem mem_of_mem_trim {s : List Char} {c : Char} (h : c ∈ Text.trim s) : c ∈ s := by
  rw [Text.trim, Text.trimBy, List.mem_reverse] at h
  exact (List.dropWhile_sublist _).mem (List.mem_reverse.1 ((List.dropWhile_sublist _).mem h))

/-- The value of a field is a part of the piece in which it was found. -/
theorem mem_of_field? {piece key value : List Char} {c : Char}
    (h : field? '=' Text.trim piece = some (key, value)) (hc : c ∈ value) : c ∈ piece := by
  rw [field?] at h
  split at h
  · rename_i mark rest hdrop
    simp only [Option.some.injEq, Prod.mk.injEq] at h
    have hrest : c ∈ piece.dropWhile (· != '=') := by
      rw [hdrop]
      exact List.mem_cons_of_mem mark (mem_of_mem_trim (h.2 ▸ hc))
    exact (List.dropWhile_sublist _).mem hrest
  · cases h

theorem get?_ofList_mem {items : List (List Char × List Char)} {name value : List Char}
    (h : Entries.get? (Entries.ofList items) name = some value) : (name, value) ∈ items := by
  induction items using List.reverseRecOn with
  | nil => cases h
  | append_singleton items e ih =>
    rw [Entries.ofList_append_singleton] at h
    by_cases he : e.1 = name
    · subst he
      rw [Entries.get?_put_self] at h
      obtain rfl := Option.some.inj h
      simp
    · rw [Entries.get?_put_of_ne he] at h
      exact List.mem_append_left _ (ih h)

theorem comma_notMem_get? {s name value : List Char}
    (h : Entries.get? (fields s) name = some value) : ',' ∉ value := by
  obtain ⟨piece, hpiece, hfield⟩ := List.mem_filterMap.1 (get?_ofList_mem h)
  exact fun hc => not_mem_splitAt hpiece (mem_of_field? hfield hc)

/-- The text from which the names are read. -/
theorem readNames_eq (s : List Char) : ∃ text : List Char,
    ',' ∉ text ∧ Text.trim text = text ∧ Text.lower text = text ∧
      readNames (fields s) = if text.isEmpty then [] else (splitAt ' ' text).map String.ofList := by
  refine ⟨Text.lower (Text.trim ((Entries.get? (fields s) ['h']).getD [])), fun hc => ?_,
    Text.trim_lower_trim _, Text.lower_lower _, by rw [readNames]⟩
  have hvalue := mem_of_mem_trim (Text.comma_of_mem_lower hc)
  cases hget : Entries.get? (fields s) ['h'] with
  | none => simp [hget] at hvalue
  | some value =>
    rw [hget] at hvalue
    exact comma_notMem_get? hget hvalue

/-- What reading a signature tells of it. -/
theorem parse_cases {value : String} {s : Signature} (h : parse value = .ok s) :
    (∃ text, Integer.read? text = some s.timestamp) ∧ (s.v0.isSome ∨ s.v1.isSome) ∧
      s.headerNames = readNames (fields value.toList) := by
  simp only [parse] at h
  split at h
  · cases h
  · rename_i text ht
    split at h
    · cases h
    · rename_i timestamp hread
      split at h
      · cases h
      · rename_i v0 hv0
        split at h
        · cases h
        · rename_i v1 hv1
          split at h
          · cases h
          · rename_i hdigest
            obtain rfl := Except.ok.inj h
            have hsome : v0.isSome ∨ v1.isSome := by
              cases v0 <;> cases v1 <;> simp_all
            exact ⟨⟨text, hread⟩, hsome, by simp only⟩

/-- The text of a signature that was read carries its names. -/
theorem isCarried_of_parse {value : String} {s : Signature} (h : parse value = .ok s) :
    s.IsCarried := by
  obtain ⟨-, hdigest, hnames⟩ := parse_cases h
  obtain ⟨text, hcomma, htrim, hlower, hread⟩ := readNames_eq value.toList
  have htext : s.namesText = text := by
    rw [namesText, hnames, hread]
    split
    · rename_i hempty
      rw [List.isEmpty_iff.1 hempty]
      rfl
    · have hself : String.toList ∘ String.ofList = id := funext fun _ => String.toList_ofList
      rw [List.map_map, hself, List.map_id, join_splitAt]
  refine ⟨hdigest, ?_, ?_, ?_, ?_⟩
  · rw [htext]
    exact hcomma
  · rw [htext, htrim]
  · rw [htext, hlower]
  · rw [htext, hnames, hread]

/-- A signature that was read, however it was spelt, is read from the text written for it; and so is
every signature with a digest and ordinary names whose timestamp has not too many digits. -/
theorem signatures_have_normal_form :
    (∀ (value : String) (s : Signature), parse value = .ok s → parse s.toHeader = .ok s) ∧
      ∀ s : Signature, s.IsNormal → Integer.digitCount s.timestamp ≤ Integer.maxDigits →
        parse s.toHeader = .ok s := by
  constructor
  · intro value s h
    obtain ⟨⟨text, hread⟩, -⟩ := parse_cases h
    rw [(isCarried_of_parse h).parse_toHeader, if_pos (Integer.digitCount_le_of_read? hread)]
  · intro s h hcount
    rw [parse_toHeader h, if_pos hcount]

/-- A signature with a sign and a mark in the number, capitals and a blank in the digest, an unknown
field, a repeated one and two blanks between the names. -/
theorem loose_spelling_has_normal_form :
    parse " t = +1_6 ,v1= aB 0c,x=1,junk,h=y,h= X-Id  Host " =
        .ok ⟨16, some [0xab, 0x0c], none, ["x-id", "", "host"]⟩ ∧
      parse "t=16,v1=ab0c,h=x-id  host" =
        .ok ⟨16, some [0xab, 0x0c], none, ["x-id", "", "host"]⟩ := by
  have hread : parse " t = +1_6 ,v1= aB 0c,x=1,junk,h=y,h= X-Id  Host " =
      .ok ⟨16, some [0xab, 0x0c], none, ["x-id", "", "host"]⟩ := by decide +kernel
  have hwritten : toHeader ⟨16, some [0xab, 0x0c], none, ["x-id", "", "host"]⟩ =
      "t=16,v1=ab0c,h=x-id  host" := by decide +kernel
  have hnormal := signatures_have_normal_form.1 _ _ hread
  rw [hwritten] at hnormal
  exact ⟨hread, hnormal⟩

end Signature
end WebhookDelivery
