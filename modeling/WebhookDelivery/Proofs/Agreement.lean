import WebhookDelivery.Proofs.DeliveryHeaders
import WebhookDelivery.Proofs.Verification

/-!
# WebhookDelivery.Proofs.Agreement

The two ends of a delivery agree on its signature: what one end signs is accepted by the other, in
time and with the signed headers, and refused late or without one of them.

* `get?_lowerNames`: headers in lower case keep the last value of each name.
* `verify_signed`: a signature with ordinary names is refused for its age or for its digest only.
* `signing_and_verifying_agree`: when the verification of a signature succeeds and when it fails.
* `broken_secret_has_no_answer`: a candidate without bytes keeps the right secret from being tried.
-/

namespace WebhookDelivery
namespace Entries

variable {α β : Type} [BEq α] [LawfulBEq α]

theorem nodup_ofList (items : List (α × β)) : ((ofList items).map (·.1)).Nodup := by
  induction items using List.reverseRecOn with
  | nil => exact List.nodup_nil
  | append_singleton items e ih =>
    rw [ofList_append_singleton]
    exact nodup_put ih e.1 e.2

theorem get?_of_mem {items : List (α × β)} (h : (items.map (·.1)).Nodup) {e : α × β}
    (he : e ∈ items) : get? items e.1 = some e.2 := by
  induction items with
  | nil => exact absurd he List.not_mem_nil
  | cons first rest ih =>
    rw [List.map_cons, List.nodup_cons] at h
    rw [get?_cons]
    rcases List.mem_cons.1 he with rfl | he
    · rw [if_pos (BEq.refl _)]
    · have hne : ¬ (first.1 == e.1) = true := fun hname =>
        h.1 (List.mem_map.2 ⟨e, he, (eq_of_beq hname).symm⟩)
      rw [if_neg hne, ih h.2 he]

end Entries

namespace LooseSignature

open LooseText (HasHalf ofString ofString_injective)
open Signature (IsHeaderName)

/-! ## Headers by their names -/

/-- The value of a header, whatever the case of its name; of several the last counts. -/
def valueOf? (headers : List (LooseText × LooseText)) (name : LooseText) : Option LooseText :=
  (headers.reverse.find? fun h => h.1.lower == name.lower).map (·.2)

theorem valueOf?_eq_none {headers : List (LooseText × LooseText)} {name : LooseText} :
    valueOf? headers name = none ↔ ∀ h ∈ headers, h.1.lower ≠ name.lower := by
  simp [valueOf?]

/-- Headers in lower case keep the last value of each name. -/
theorem get?_lowerNames (headers : List (LooseText × LooseText)) (name : LooseText) :
    Entries.get? (lowerNames headers) name.lower = valueOf? headers name := by
  induction headers using List.reverseRecOn with
  | nil => rfl
  | append_singleton headers h ih =>
    rw [lowerNames, List.map_append, List.map_singleton, Entries.ofList_append_singleton, valueOf?,
      List.reverse_append, List.reverse_singleton, List.singleton_append, List.find?_cons]
    by_cases hname : h.1.lower = name.lower
    · simp [hname, Entries.get?_put_self]
    · have hne : (h.1.lower == name.lower) = false := beq_eq_false_iff_ne.2 hname
      rw [Entries.get?_put_of_ne hname, hne]
      exact ih

/-- Every signed header has come with the value that was signed. -/
def Returns (headers received : List (LooseText × LooseText)) : Prop :=
  ∀ h ∈ headers, valueOf? received h.1 = valueOf? headers h.1

instance (headers received : List (LooseText × LooseText)) : Decidable (Returns headers received) :=
  inferInstanceAs (Decidable (∀ _ ∈ _, _))

theorem exists_name_of_mem {headers : List (LooseText × LooseText)} {e : LooseText × LooseText}
    (he : e ∈ lowerNames headers) : ∃ h ∈ headers, h.1.lower = e.1 := by
  have hname := Entries.mem_fst_ofList (List.mem_map_of_mem (f := (·.1)) he)
  rw [List.map_map] at hname
  exact List.mem_map.1 hname

theorem Returns.get?_received {headers received : List (LooseText × LooseText)}
    (h : Returns headers received) {e : LooseText × LooseText} (he : e ∈ lowerNames headers) :
    Entries.get? (lowerNames received) e.1 = some e.2 := by
  obtain ⟨header, hheader, hname⟩ := exists_name_of_mem he
  rw [← Entries.get?_of_mem (Entries.nodup_ofList _) he, ← hname, ← lowerNames, get?_lowerNames,
    get?_lowerNames, h header hheader]

/-- The names and the values that are compared at the two ends are the same. -/
theorem Returns.mapM_get? {headers received : List (LooseText × LooseText)}
    (h : Returns headers received) :
    ((lowerNames headers).map (·.1)).mapM (Entries.get? (lowerNames received)) =
      some ((lowerNames headers).map (·.2)) := by
  have hall : ∀ name ∈ (lowerNames headers).map (·.1),
      (Entries.get? (lowerNames received) name).isSome = true := by
    intro name hname
    obtain ⟨e, he, rfl⟩ := List.mem_map.1 hname
    rw [h.get?_received he]
    rfl
  rw [Signature.mapM_eq_of_isSome [] hall, List.map_map]
  refine congrArg some (List.map_congr_left fun e he => ?_)
  rw [Function.comp_apply, h.get?_received he, Option.getD_some]

theorem mapM_get?_of_missing {headers received : List (LooseText × LooseText)}
    {h : LooseText × LooseText} (hh : h ∈ headers)
    (hmissing : ∀ r ∈ received, r.1.lower ≠ h.1.lower) :
    ((lowerNames headers).map (·.1)).mapM (Entries.get? (lowerNames received)) = none := by
  have hsigned : (Entries.get? (lowerNames headers) h.1.lower).isSome = true := by
    rw [get?_lowerNames, ← Option.not_isNone, Bool.not_eq_true', ← Bool.not_eq_true,
      Option.isNone_iff_eq_none, valueOf?_eq_none]
    exact fun hnone => hnone h hh rfl
  rw [Entries.isSome_get?, Entries.contains_iff_mem] at hsigned
  refine Signature.mapM_eq_none ⟨_, hsigned, ?_⟩
  rw [get?_lowerNames, valueOf?_eq_none.2 hmissing]

/-! ## Signing -/

/-- Headers whose names are texts. -/
def named (headers : List (String × LooseText)) : List (LooseText × LooseText) :=
  headers.map (Prod.map ofString id)

theorem lowerNames_named (headers : List (String × LooseText)) : lowerNames (named headers) =
    named (Entries.ofList (headers.map fun h => (Text.lowerString h.1, h.2))) := by
  rw [named, named, ← Entries.ofList_map _ ofString_injective, lowerNames, List.map_map,
    List.map_map]
  refine congrArg Entries.ofList (List.map_congr_left fun h _ => ?_)
  simp [ofString, Text.lowerString]

/-- A delivery is signed if its secret and the values of its headers have bytes. -/
theorem sign_eq_ok {headers : List (String × LooseText)} {secret : LooseText}
    (hvalues : ∀ h ∈ lowerNames (named headers), ¬ h.2.HasHalf) (hsecret : ¬ secret.HasHalf)
    (payload : Bytes) (timestamp : Int) :
    ∃ content digest,
      canonicalContent payload timestamp ((lowerNames (named headers)).map (·.1))
        ((lowerNames (named headers)).map (·.2)) = .ok content ∧
      computeDigest secret content = .ok digest ∧
      sign payload timestamp secret (named headers) = .ok (toHeader
        ⟨timestamp, some digest, none, (lowerNames (named headers)).map (·.1)⟩) := by
  have hcontent : ¬ ∃ e, canonicalContent payload timestamp
      ((lowerNames (named headers)).map (·.1)) ((lowerNames (named headers)).map (·.2)) =
        .error e := by
    rw [canonicalContent_eq_error_iff]
    rintro ⟨-, text, htext, hhalf⟩
    rcases List.mem_append.1 htext with hname | hvalue
    · rw [lowerNames_named] at hname
      obtain ⟨_, he, rfl⟩ := List.mem_map.1 hname
      obtain ⟨e, -, rfl⟩ := List.mem_map.1 he
      exact LooseText.not_hasHalf_ofChars _ hhalf
    · obtain ⟨e, he, rfl⟩ := List.mem_map.1 hvalue
      exact hvalues e he hhalf
  rw [← LooseText.utf8_eq_error_iff] at hsecret
  unfold sign
  cases hc : canonicalContent payload timestamp ((lowerNames (named headers)).map (·.1))
      ((lowerNames (named headers)).map (·.2)) with
  | error e => exact absurd ⟨e, hc⟩ hcontent
  | ok content =>
    cases hutf8 : secret.utf8 with
    | error e => exact absurd ⟨e, hutf8⟩ hsecret
    | ok key =>
      have hdigest : computeDigest secret content = .ok (Sha256.hmac key content) := by
        rw [computeDigest, hutf8]
        rfl
      exact ⟨content, _, rfl, hdigest, by simp only [hc, hdigest]⟩

section Ordinary

variable {headers : List (String × LooseText)} (hnames : ∀ h ∈ headers, IsHeaderName h.1)
  {timestamp : Int} (hcount : Integer.digitCount timestamp ≤ Integer.maxDigits)
include hnames hcount

/-- A signature with ordinary names is read back. -/
theorem parse?_signed (digest : Bytes) :
    parse? (toHeader ⟨timestamp, some digest, none, (lowerNames (named headers)).map (·.1)⟩) =
      some ⟨timestamp, some digest, none, (lowerNames (named headers)).map (·.1)⟩ := by
  have hplain : ∀ name ∈ (Entries.ofList (headers.map fun h => (Text.lowerString h.1, h.2))).map
      (·.1), IsHeaderName name ∧ Text.lowerString name = name := by
    intro name hname
    have hmem := Entries.mem_fst_ofList hname
    rw [List.map_map] at hmem
    obtain ⟨h, hh, rfl⟩ := List.mem_map.1 hmem
    exact ⟨(hnames h hh).lowerString, (hnames h hh).lowerString_idem⟩
  rw [lowerNames_named]
  generalize Entries.ofList (headers.map fun h => (Text.lowerString h.1, h.2)) = signed at hplain ⊢
  have hloose : (⟨timestamp, some digest, none, (named signed).map (·.1)⟩ : LooseSignature) =
      Signature.toLoose ⟨timestamp, some digest, none, signed.map (·.1)⟩ := by
    simp [named, Signature.toLoose]
  have hparse := @Signature.parse_toHeader ⟨timestamp, some digest, none, signed.map (·.1)⟩
    ⟨.inr rfl, hplain⟩
  rw [if_pos hcount] at hparse
  rw [hloose, toHeader_toLoose, parse?_ofString, hparse]
  rfl

/-- A signature with ordinary names is refused for its age or for its digest only. -/
theorem verify_signed (digest payload : Bytes) (secrets : List LooseText)
    (received : List (LooseText × LooseText)) (tolerance : Option Int) (now : Int) :
    verify (toHeader ⟨timestamp, some digest, none, (lowerNames (named headers)).map (·.1)⟩) payload
        secrets received tolerance (.whole now) =
      if ∀ seconds ∈ tolerance, ((now - timestamp).natAbs : Int) ≤ seconds then
        (matchesAny ⟨timestamp, some digest, none, (lowerNames (named headers)).map (·.1)⟩ payload
          secrets received).mapError .encoding
      else .ok false := by
  rw [verify, parse?_signed hnames hcount]
  cases tolerance with
  | none => simp
  | some seconds =>
    simp only [Seconds.farFrom, Option.mem_def, Option.some.injEq, forall_eq']
    by_cases hlate : seconds < ((now - timestamp).natAbs : Int)
    · rw [if_neg (Int.not_le.2 hlate), decide_eq_true hlate]
    · rw [if_pos (Int.not_lt.1 hlate), decide_eq_false hlate]

/-- A payload is signed if the secret and the signed values have bytes. The signature is accepted in
time, under a list of such secrets with its own, with all signed headers as they were; it is refused
when it is older or newer than what is tolerated, and when a signed header has not come. -/
theorem signing_and_verifying_agree {secret : LooseText}
    (hvalues : ∀ h ∈ lowerNames (named headers), ¬ h.2.HasHalf) (hsecret : ¬ secret.HasHalf)
    (payload : Bytes) :
    ∃ signature, sign payload timestamp secret (named headers) = .ok signature ∧
      ∀ (secrets : List LooseText) (received : List (LooseText × LooseText))
        (tolerance : Option Int) (now : Int),
        (secret ∈ secrets → (∀ s ∈ secrets, ¬ s.HasHalf) → Returns (named headers) received →
          (∀ seconds ∈ tolerance, ((now - timestamp).natAbs : Int) ≤ seconds) →
          verify signature payload secrets received tolerance (.whole now) = .ok true) ∧
        ((∃ seconds ∈ tolerance, seconds < ((now - timestamp).natAbs : Int)) ∨
            (∃ h ∈ named headers, ∀ r ∈ received, r.1.lower ≠ h.1.lower) →
          verify signature payload secrets received tolerance (.whole now) = .ok false) := by
  obtain ⟨content, digest, hcontent, hdigest, hsign⟩ :=
    sign_eq_ok hvalues hsecret payload timestamp
  refine ⟨_, hsign, fun secrets received tolerance now => ?_⟩
  rw [verify_signed hnames hcount]
  constructor
  · intro hmem hwhole hreturns htime
    rw [if_pos htime]
    simp only [matchesAny, claimed?, hreturns.mapM_get?, Option.map_some, hcontent]
    rcases digests_cases secrets content with ⟨⟨s, hs, hhalf⟩, -⟩ | ⟨-, digests, hdigests, hiff⟩
    · exact absurd hhalf (hwhole s hs)
    · have hany : digests.any (· == digest) = true := by
        simpa using (hiff digest).2 ⟨secret, hmem, hdigest⟩
      simp only [hdigests, Except.map, Except.mapError, hany]
  · intro hcause
    split
    · rename_i htime
      rcases hcause with ⟨seconds, hseconds, hlate⟩ | ⟨h, hh, hmissing⟩
      · exact absurd (htime seconds hseconds) (Int.not_le.2 hlate)
      · simp only [matchesAny, claimed?, mapM_get?_of_missing hh hmissing, Option.map_none]
        rfl
    · rfl

end Ordinary

/-- A header given twice and one with an equals sign in its name, both signed before the epoch and
received among others, one of which has no bytes, in another order. -/
theorem repeated_header_is_signed :
    ∃ signature, sign [0x7b] (-5) (ofString "s")
        (named [("X-Id", ofString "1"), ("x-id", ofString "2"), ("A=B", ofString "c,d")]) =
          .ok signature ∧
      verify signature [0x7b] [ofString "old", ofString "s"]
        [(ofString "via", [.half 0]), (ofString "a=b", ofString "c,d"),
          (ofString "X-ID", ofString "2")]
        (some 5) (.whole 0) = .ok true ∧
      verify signature [0x7b] [ofString "old", ofString "s"]
        [(ofString "via", [.half 0]), (ofString "X-ID", ofString "2")] none (.whole 0) =
        .ok false := by
  have hnames : ∀ h ∈ [("X-Id", ofString "1"), ("x-id", ofString "2"), ("A=B", ofString "c,d")],
      IsHeaderName h.1 := by decide +kernel
  have hcount : Integer.digitCount (-5) ≤ Integer.maxDigits := by decide
  have hvalues : ∀ h ∈ lowerNames (named [("X-Id", ofString "1"), ("x-id", ofString "2"),
      ("A=B", ofString "c,d")]), ¬ h.2.HasHalf := by decide +kernel
  have hsecret : ¬ (ofString "s").HasHalf := by decide
  obtain ⟨signature, hsign, hverify⟩ :=
    signing_and_verifying_agree hnames hcount hvalues hsecret [0x7b]
  refine ⟨signature, hsign, ?_, ?_⟩
  · exact (hverify _ _ (some 5) 0).1 (by simp) (by decide) (by decide +kernel) (by simp)
  · exact (hverify _ _ none 0).2
      (.inr ⟨(ofString "A=B", ofString "c,d"), by decide +kernel, by decide +kernel⟩)

/-- A candidate with half of a surrogate pair stands before the secret that the payload was signed
with. -/
theorem broken_secret_has_no_answer :
    ∃ signature, sign [] 0 (ofString "whsec_test") [] = .ok signature ∧
      ofString "whsec_test" ∈ [[.half 0], ofString "whsec_test"] ∧ Returns [] [] ∧
      verify signature [] [[.half 0], ofString "whsec_test"] [] none (.whole 0) =
        .error (.encoding ⟨0, 0, 0⟩) := by
  have hvalues : ∀ h ∈ lowerNames (named []), ¬ h.2.HasHalf := by
    simp [named, lowerNames, Entries.ofList]
  have hsecret : ¬ (ofString "whsec_test").HasHalf := by decide
  have hnames : ∀ h ∈ ([] : List (String × LooseText)), IsHeaderName h.1 := by simp
  have hcount : Integer.digitCount 0 ≤ Integer.maxDigits := by decide
  obtain ⟨content, digest, hcontent, hdigest, hsign⟩ := sign_eq_ok hvalues hsecret [] 0
  refine ⟨_, hsign, by simp, by decide, ?_⟩
  have hverify := verify_signed hnames hcount digest [] [[.half 0], ofString "whsec_test"] [] none 0
  rw [hverify, if_pos (by simp)]
  rfl

end LooseSignature
end WebhookDelivery
