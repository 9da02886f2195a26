import WebhookDelivery.Proofs.LetterCase

/-!
# WebhookDelivery.Proofs.Capitals

Upper case is a normal form, as lower case is: what the table gives for a character has no capital
form of its own.

* `upperChar_of_not_small`: a character outside the runs of the table is its own upper case.
* `upperString_upperString`, `upperString_ne_empty`: upper case is a normal form, and no text
  vanishes in it.
-/

namespace WebhookDelivery
namespace Text

/-- The characters for which the table gives one capital, and those for which it gives several. -/
def smallRuns : List CaseRun :=
  upperRuns.toList ++ upperSequences.toList.map fun s => ⟨s.1, s.1, 1, 0⟩

/-- The table gives a capital form for the character. -/
def hasCapital (n : Nat) : Bool := smallRuns.any (·.contains n)

theorem hasCapital_eq_false {n : Nat} :
    hasCapital n = false ↔ ∀ r ∈ smallRuns, r.contains n = false := by
  rw [hasCapital, List.any_eq_false]
  exact forall₂_congr fun r _ => Bool.eq_false_iff.symm

theorem upperRuns_all_apart : (upperRuns.toList.all fun r => 0 ≤ (r.first : Int) + r.offset &&
    smallRuns.all r.target.isApart) = true := by
  decide +kernel

theorem upperRuns_apart {r : CaseRun} (hr : r ∈ upperRuns.toList) :
    0 ≤ (r.first : Int) + r.offset ∧ ∀ other ∈ smallRuns, r.target.isApart other = true := by
  simpa only [Bool.and_eq_true, decide_eq_true_eq, List.all_eq_true] using
    List.all_eq_true.1 upperRuns_all_apart r hr

/-- The table holds the small letters of ASCII, and none of the characters of its sequences, which
are not empty. -/
theorem hasCapital_cases :
    (∀ n < 0x80, (Char.ofNat n).toUpper = Char.ofNat n ∨ hasCapital n = true) ∧
    (upperSequences.toList.all fun s => !s.2.isEmpty && s.2.all fun n => !hasCapital n) = true := by
  decide +kernel

theorem upperChar_of_not_small {c : Char} (h : hasCapital c.toNat = false) : upperChar c = [c] := by
  have hruns := hasCapital_eq_false.1 h
  rw [upperChar]
  split
  · rename_i hascii
    have hupper := (hasCapital_cases.1 c.toNat hascii).resolve_right (by simp [h])
    rw [Char.ofNat_toNat] at hupper
    rw [hupper]
  · have hsequence : upperSequences.find? (·.1 == c.toNat) = none := by
      rw [Array.find?_eq_none]
      intro s hs hsame
      have hnot := hruns ⟨s.1, s.1, 1, 0⟩
        (List.mem_append_right _ (List.mem_map.mpr ⟨s, Array.mem_def.1 hs, rfl⟩))
      rw [eq_of_beq hsame] at hnot
      simp [CaseRun.contains] at hnot
    have hrun : upperRuns.find? (·.contains c.toNat) = none := by
      rw [Array.find?_eq_none]
      intro r hr
      rw [hruns r (List.mem_append_left _ (Array.mem_def.1 hr))]
      exact Bool.false_ne_true
    rw [hsequence]
    dsimp only
    rw [shiftCase, hrun]

theorem toNat_ofNat {n : Nat} (h : n.isValidChar) : (Char.ofNat n).toNat = n := by
  rw [Char.ofNat, dif_pos h]
  rfl

theorem upperChar_ofNat {n : Nat} (h : hasCapital n = false) :
    upperChar (Char.ofNat n) = [Char.ofNat n] := by
  by_cases hvalid : n.isValidChar
  · exact upperChar_of_not_small (by rwa [toNat_ofNat hvalid])
  · have hzero : Char.ofNat n = Char.ofNat 0 := by
      rw [Char.ofNat, dif_neg hvalid]
      rfl
    rw [hzero]
    decide

/-- A character of a capital form is its own capital form. -/
theorem upperChar_of_mem_upperChar {c d : Char} (hd : d ∈ upperChar c) : upperChar d = [d] := by
  rw [upperChar] at hd
  split at hd
  · rename_i hascii
    obtain rfl := List.mem_singleton.1 hd
    have hall : ∀ n < 0x80, (Char.ofNat n).toUpper.toNat < 0x80 ∧
        (Char.ofNat n).toUpper.toUpper = (Char.ofNat n).toUpper := by decide
    obtain ⟨hlow, hidem⟩ := hall c.toNat hascii
    rw [Char.ofNat_toNat] at hlow hidem
    rw [upperChar, if_pos hlow, hidem]
  · rename_i hascii
    split at hd
    · rename_i forms hfind
      obtain ⟨n, hn, rfl⟩ := List.mem_map.1 hd
      have hforms := List.all_eq_true.1 hasCapital_cases.2 _
        (Array.mem_def.1 (Array.mem_of_find?_eq_some hfind))
      rw [Bool.and_eq_true] at hforms
      have hform := List.all_eq_true.1 hforms.2 n hn
      exact upperChar_ofNat (Bool.not_eq_true' _ ▸ hform)
    · rename_i hsequence
      rw [List.mem_singleton, shiftCase] at hd
      split at hd
      · rename_i r hfind
        obtain ⟨hr, hcontains⟩ := CaseRun.mem_and_contains_of_find? hfind
        obtain ⟨hpos, hapart⟩ := upperRuns_apart hr
        rw [hd]
        exact upperChar_ofNat (hasCapital_eq_false.2 fun other hother =>
          CaseRun.not_contains_of_isApart (hapart other hother)
            (CaseRun.target_contains hpos hcontains))
      · rename_i hrun
        rw [hd, upperChar, if_neg hascii, hsequence]
        dsimp only
        rw [shiftCase, hrun]

theorem upperChar_ne_nil (c : Char) : upperChar c ≠ [] := by
  rw [upperChar]
  split
  · exact List.cons_ne_nil _ _
  · split
    · rename_i forms hfind
      have hforms := List.all_eq_true.1 hasCapital_cases.2 _
        (Array.mem_def.1 (Array.mem_of_find?_eq_some hfind))
      rw [Bool.and_eq_true] at hforms
      rw [ne_eq, List.map_eq_nil_iff, ← List.isEmpty_iff]
      simpa using hforms.1
    · exact List.cons_ne_nil _ _

theorem upper_ne_nil {s : List Char} (h : s ≠ []) : upper s ≠ [] := by
  obtain ⟨c, rest, rfl⟩ := List.exists_cons_of_ne_nil h
  rw [upper, List.flatMap_cons]
  exact List.append_ne_nil_of_left_ne_nil (upperChar_ne_nil c) _

/-- Upper case is a normal form. -/
theorem upper_upper (s : List Char) : upper (upper s) = upper s := by
  have hfixed : ∀ t : List Char, (∀ d ∈ t, upperChar d = [d]) → upper t = t := by
    intro t ht
    induction t with
    | nil => rfl
    | cons d rest ih =>
      rw [List.forall_mem_cons] at ht
      rw [upper, List.flatMap_cons, ht.1, ← upper, ih ht.2, List.singleton_append]
  refine hfixed _ fun d hd => ?_
  obtain ⟨c, -, hc⟩ := List.mem_flatMap.1 hd
  exact upperChar_of_mem_upperChar hc

theorem upperString_upperString (s : String) : upperString (upperString s) = upperString s := by
  rw [upperString, upperString, String.toList_ofList, upper_upper]

theorem upperString_ne_empty {s : String} (h : s ≠ "") : upperString s ≠ "" := by
  intro hempty
  have hlist : upper s.toList = [] := by
    rw [← String.toList_ofList (l := upper s.toList), ← upperString, hempty, String.toList_empty]
  exact upper_ne_nil (fun hnil => h (String.toList_eq_nil_iff.mp hnil)) hlist

end Text
end WebhookDelivery
