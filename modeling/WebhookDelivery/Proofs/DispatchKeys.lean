import Mathlib.Algebra.Ring.Nat
import WebhookDelivery.Matching

/-!
# WebhookDelivery.Proofs.DispatchKeys

The keys under which attempts are created tell their event, their subscription, and whether the
attempt is one of dispatch or of replay.

* `Uuid.toList_injective`: identifiers are told by their texts, which are of one length.
* `DispatchKey.initial_injective`, `DispatchKey.replay_injective`, `DispatchKey.initial_ne_replay`:
  what keys tell.
-/

namespace WebhookDelivery

namespace Text

theorem length_hexDigits (width n : Nat) : (hexDigits width n).length = width := by
  induction width generalizing n with
  | zero => rfl
  | succ width ih => rw [hexDigits, List.length_append, ih, List.length_singleton]

theorem hexDigit_injective {m n : Nat} (hm : m < 16) (hn : n < 16) (h : hexDigit m = hexDigit n) :
    m = n := by
  have hv := congrArg hexValue? h
  rw [hexValue?_hexDigit m hm, hexValue?_hexDigit n hn] at hv
  exact Option.some.inj hv

/-- Digits tell a number that has no more of them. -/
theorem hexDigits_injective {width m n : Nat} (hm : m < 16 ^ width) (hn : n < 16 ^ width)
    (h : hexDigits width m = hexDigits width n) : m = n := by
  induction width generalizing m n with
  | zero => omega
  | succ width ih =>
    rw [hexDigits, hexDigits] at h
    have hl : (hexDigits width (m / 16)).length = (hexDigits width (n / 16)).length := by
      rw [length_hexDigits, length_hexDigits]
    obtain ⟨hhigh, hlow⟩ := List.append_inj h hl
    rw [Nat.pow_succ] at hm hn
    have hq : m / 16 = n / 16 := ih (by omega) (by omega) hhigh
    have hr : m % 16 = n % 16 :=
      hexDigit_injective (by omega) (by omega) (List.head_eq_of_cons_eq hlow)
    omega

end Text

namespace Uuid

theorem length_group {s : List Char} {lengths : List Nat} (h : s.length = lengths.sum)
    (hne : lengths ≠ []) : (group s lengths).length + 1 = lengths.sum + lengths.length := by
  induction lengths generalizing s with
  | nil => exact absurd rfl hne
  | cons n rest ih =>
    cases rest with
    | nil =>
      simp only [List.sum_cons, List.sum_nil, Nat.add_zero] at h
      simp [group, h]
    | cons m rest =>
      simp only [List.sum_cons] at h
      have hd : (s.drop n).length = (m :: rest).sum := by
        simp only [List.length_drop, List.sum_cons]
        omega
      have hr := ih hd (List.cons_ne_nil m rest)
      simp only [group, List.length_append, List.length_take, List.length_cons, List.sum_cons] at hr ⊢
      omega

theorem group_injective {s t : List Char} {lengths : List Nat} (hs : s.length = lengths.sum)
    (ht : t.length = lengths.sum) (h : group s lengths = group t lengths) : s = t := by
  induction lengths generalizing s t with
  | nil =>
    rw [List.sum_nil, List.length_eq_zero_iff] at hs ht
    rw [hs, ht]
  | cons n rest ih =>
    rw [List.sum_cons] at hs ht
    cases rest with
    | nil =>
      rw [List.sum_nil, Nat.add_zero] at hs ht
      rw [group, group, ← hs, List.take_length, hs, ← ht, List.take_length] at h
      exact h
    | cons m rest =>
      have hg : ∀ x, group x (n :: m :: rest) = x.take n ++ '-' :: group (x.drop n) (m :: rest) :=
        fun _ => rfl
      rw [hg, hg] at h
      have hl : (s.take n).length = (t.take n).length := by
        rw [List.length_take, List.length_take, hs, ht]
      obtain ⟨htake, hdrop⟩ := List.append_inj h hl
      have hsd : (s.drop n).length = (m :: rest).sum := by
        rw [List.length_drop]
        omega
      have htd : (t.drop n).length = (m :: rest).sum := by
        rw [List.length_drop]
        omega
      have hd : s.drop n = t.drop n := ih hsd htd (List.tail_eq_of_cons_eq hdrop)
      rw [← List.take_append_drop n s, ← List.take_append_drop n t, htake, hd]

theorem length_toList (u : Uuid) : u.toList.length = 36 := by
  have h : (group (Text.hexDigits 32 u.bits.toNat) [8, 4, 4, 4, 12]).length + 1 = 37 :=
    length_group (Text.length_hexDigits _ _) (List.cons_ne_nil _ _)
  rw [toList]
  omega

theorem toList_injective {a b : Uuid} (h : a.toList = b.toList) : a = b := by
  have hg : group (Text.hexDigits 32 a.bits.toNat) [8, 4, 4, 4, 12] =
      group (Text.hexDigits 32 b.bits.toNat) [8, 4, 4, 4, 12] := h
  have hd : Text.hexDigits 32 a.bits.toNat = Text.hexDigits 32 b.bits.toNat :=
    group_injective (Text.length_hexDigits _ _) (Text.length_hexDigits _ _) hg
  have hn := Text.hexDigits_injective a.bits.isLt b.bits.isLt hd
  exact (Uuid.mk.injEq ..).mpr (BitVec.eq_of_toNat_eq hn)

end Uuid

namespace DispatchKey

theorem toList_initial (e s : Uuid) :
    (initial e s).write.toList = e.toList ++ ':' :: (s.toList ++ ":initial".toList) := by
  simp [write, Uuid.write]

theorem toList_replay (e s draw : Uuid) :
    (replay e s draw).write.toList =
      e.toList ++ ':' :: (s.toList ++ (":replay:".toList ++ draw.toList)) := by
  simp [write, Uuid.write]

/-- Two identifiers at the head of a text are told from it, and what follows. -/
theorem pair_injective {e s e' s' : Uuid} {rest rest' : List Char}
    (h : e.toList ++ ':' :: (s.toList ++ rest) = e'.toList ++ ':' :: (s'.toList ++ rest')) :
    e = e' ∧ s = s' ∧ rest = rest' := by
  obtain ⟨he, hr⟩ := List.append_inj h (by rw [Uuid.length_toList, Uuid.length_toList])
  obtain ⟨hs, hrest⟩ := List.append_inj (List.tail_eq_of_cons_eq hr)
    (by rw [Uuid.length_toList, Uuid.length_toList])
  exact ⟨Uuid.toList_injective he, Uuid.toList_injective hs, hrest⟩

/-- The key of a dispatch tells its event and its subscription. -/
theorem initial_injective {e s e' s' : Uuid} (h : (initial e s).write = (initial e' s').write) :
    e = e' ∧ s = s' := by
  have hl := congrArg String.toList h
  rw [toList_initial, toList_initial] at hl
  obtain ⟨he, hs, -⟩ := pair_injective hl
  exact ⟨he, hs⟩

/-- So does the key of a replay, and it also tells the draw. -/
theorem replay_injective {e s draw e' s' draw' : Uuid}
    (h : (replay e s draw).write = (replay e' s' draw').write) :
    e = e' ∧ s = s' ∧ draw = draw' := by
  have hl := congrArg String.toList h
  rw [toList_replay, toList_replay] at hl
  obtain ⟨he, hs, hrest⟩ := pair_injective hl
  exact ⟨he, hs, Uuid.toList_injective (List.append_cancel_left hrest)⟩

/-- The key of a dispatch is none of a replay. -/
theorem initial_ne_replay (e s e' s' draw : Uuid) :
    (initial e s).write ≠ (replay e' s' draw).write := by
  intro h
  have hl : (initial e s).write.toList.length = (replay e' s' draw).write.toList.length := by rw [h]
  rw [toList_initial, toList_replay] at hl
  simp [Uuid.length_toList] at hl

end DispatchKey
end WebhookDelivery
