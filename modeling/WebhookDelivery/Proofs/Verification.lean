import Mathlib.Algebra.Order.Ring.Nat
import Mathlib.Data.Nat.Log
import WebhookDelivery.Proofs.LooseTexts
import WebhookDelivery.Proofs.SignedContent

/-!
# WebhookDelivery.Proofs.Verification

When `LooseSignature.verify` answers, and with what.

* `ofInt?_eq_none_iff`: the integers that have no double-precision number near them.
* `parse?_eq_none_iff`: the texts that are no signature.
* `matchesAny_cases`: whether a digest can be compared, and with what outcome.
* `verify_endings`: an answer is given unless the age of the signature is to be checked and its
  timestamp is too large for a double-precision number, or a text that is to be signed or to sign
  with has no bytes.
-/

namespace WebhookDelivery

/-! ## Integers in double precision -/

namespace Double

/-- A half is rounded up to an even number. -/
theorem even_le_roundHalfEven_iff {num den k : Nat} (hden : 0 < den) (hk : k % 2 = 0) :
    k ≤ roundHalfEven num den ↔ 2 * (k * den) ≤ 2 * num + den := by
  have hnum := Nat.div_add_mod num den
  have hlt := Nat.mod_lt num hden
  unfold roundHalfEven
  dsimp only
  generalize num / den = q at hnum ⊢
  generalize num % den = r at hnum hlt ⊢
  rw [Nat.mul_comm] at hnum
  -- Where `k` stands to the quotient decides where `k * den` stands to the number.
  have hplace : k ≤ q ∧ k * den ≤ q * den ∨ k = q + 1 ∧ k * den = q * den + den ∨
      q + 2 ≤ k ∧ q * den + 2 * den ≤ k * den := by
    rcases Nat.lt_trichotomy k (q + 1) with h | h | h
    · exact .inl ⟨Nat.le_of_lt_succ h, Nat.mul_le_mul_right den (Nat.le_of_lt_succ h)⟩
    · exact .inr (.inl ⟨h, by rw [h, Nat.succ_mul]⟩)
    · exact .inr (.inr ⟨h, by rw [← Nat.add_mul]; exact Nat.mul_le_mul_right den h⟩)
  split
  · omega
  · split
    · omega
    · split <;> omega

theorem unitExponent_one {n : Nat} (hn : n ≠ 0) : unitExponent n 1 = (n.log2 : Int) - 52 := by
  have hle : 2 ^ n.log2 ≤ n := Nat.log2_self_le hn
  have hone : (1 : Nat).log2 = 0 := by decide
  unfold unitExponent
  dsimp only
  rw [hone]
  have hsmall : ¬ (if (0 : Int) ≤ (n.log2 : Int) - (0 : Nat) - 52
      then n < 1 * Nat.pow 2 (52 + ((n.log2 : Int) - (0 : Nat) - 52).toNat)
      else n * Nat.pow 2 (-((n.log2 : Int) - (0 : Nat) - 52)).toNat < 1 * Nat.pow 2 52) := by
    split
    · have : 52 + ((n.log2 : Int) - (0 : Nat) - 52).toNat = n.log2 := by omega
      rw [this, Nat.one_mul, Nat.not_lt]
      exact hle
    · have hexp : (-((n.log2 : Int) - (0 : Nat) - 52)).toNat + n.log2 = 52 := by omega
      rw [Nat.one_mul, Nat.not_lt]
      calc 2 ^ 52 = 2 ^ n.log2 * 2 ^ (-((n.log2 : Int) - (0 : Nat) - 52)).toNat := by
            rw [← Nat.pow_add, Nat.add_comm, hexp]
        _ ≤ n * 2 ^ (-((n.log2 : Int) - (0 : Nat) - 52)).toNat := Nat.mul_le_mul_right _ hle
  rw [if_neg hsmall]
  omega

/-- Half a unit above the greatest number, where rounding goes to infinity. -/
def overflowBound : Nat := (2 ^ 54 - 1) * 2 ^ 970

theorem nearestBits_one {n e : Nat} (he : n.log2 = 52 + e) :
    nearestBits n 1 =
      min ((e + 1074) * 2 ^ 52 + roundHalfEven n (2 ^ e)) (2047 * 2 ^ 52) := by
  have hn : n ≠ 0 := by
    rintro rfl
    rw [Nat.log2_zero] at he
    omega
  have hunit : unitExponent n 1 = (e : Int) := by
    rw [unitExponent_one hn, he]
    omega
  rw [nearestBits, if_neg (by simp [hn]), hunit]
  dsimp only
  rw [if_pos (Int.natCast_nonneg e), Int.toNat_natCast, Nat.one_mul]
  rfl

theorem nearestBits_one_of_lt {n : Nat} (hn : n < 2 ^ 52) : nearestBits n 1 < 2047 * 2 ^ 52 := by
  rcases Nat.eq_zero_or_pos n with rfl | hpos
  · decide
  · have hlog : n.log2 < 52 := (Nat.log2_lt hpos.ne').2 hn
    have hunit : ¬ (0 : Int) ≤ unitExponent n 1 := by
      rw [unitExponent_one hpos.ne']
      omega
    have hround : ∀ m, roundHalfEven m 1 = m := fun m => by simp [roundHalfEven, Nat.mod_one]
    have hmantissa : n * 2 ^ (52 - n.log2) < 2 ^ 53 := by
      calc n * 2 ^ (52 - n.log2)
          < 2 ^ (n.log2 + 1) * 2 ^ (52 - n.log2) :=
            Nat.mul_lt_mul_of_pos_right Nat.lt_log2_self (Nat.pow_pos (by decide))
        _ = 2 ^ 53 := by
            rw [← Nat.pow_add]
            congr 1
            omega
    have hexp : (-unitExponent n 1).toNat = 52 - n.log2 := by
      rw [unitExponent_one hpos.ne']
      omega
    rw [nearestBits, if_neg (by simp [hpos.ne'])]
    dsimp only
    rw [if_neg hunit, hround, hexp, unitExponent_one hpos.ne']
    change min (((n.log2 : Int) - 52 + 1074).toNat * 2 ^ 52 + n * 2 ^ (52 - n.log2))
      (2047 * 2 ^ 52) < 2047 * 2 ^ 52
    omega

/-- A mantissa of `53` digits and the exponent of its unit, against the greatest exponent `a + 1`. -/
theorem rounds_to_top_iff {n e : Nat} (a : Nat) (hlow : 2 ^ 52 * 2 ^ e ≤ n)
    (hhigh : n < 2 ^ 53 * 2 ^ e) :
    2 * ((a + 3 - e) * 2 ^ 52 * 2 ^ e) ≤ 2 * n + 2 ^ e ↔ (2 ^ 54 - 1) * 2 ^ a ≤ n := by
  rw [Nat.mul_assoc]
  rcases Nat.lt_or_ge e (a + 1) with hsmall | hlarge
  · have hpow : 2 ^ e ≤ 2 ^ a := Nat.pow_le_pow_right (by decide) (by omega)
    have hthree : 3 * (2 ^ 52 * 2 ^ e) ≤ (a + 3 - e) * (2 ^ 52 * 2 ^ e) :=
      Nat.mul_le_mul_right _ (by omega)
    omega
  · obtain ⟨k, rfl⟩ := Nat.exists_eq_add_of_le hlarge
    have hpow : 2 ^ (a + 1 + k) = 2 ^ k * (2 * 2 ^ a) := by
      rw [Nat.mul_comm, ← Nat.pow_succ', ← Nat.pow_add]
    rw [hpow] at hlow hhigh ⊢
    match k with
    | 0 =>
      rw [show a + 3 - (a + 1 + 0) = 2 by omega]
      omega
    | 1 =>
      rw [show a + 3 - (a + 1 + 1) = 1 by omega]
      omega
    | k + 2 =>
      have hk : 2 ^ 2 * (2 * 2 ^ a) ≤ 2 ^ (k + 2) * (2 * 2 ^ a) :=
        Nat.mul_le_mul_right _ (Nat.pow_le_pow_right (by decide) (by omega))
      rw [show a + 3 - (a + 1 + (k + 2)) = 0 by omega, Nat.zero_mul, Nat.mul_zero]
      omega

theorem nearestBits_one_eq_iff (n : Nat) :
    nearestBits n 1 = 2047 * 2 ^ 52 ↔ overflowBound ≤ n := by
  rcases Nat.lt_or_ge n (2 ^ 52) with hn | hn
  · have hbits := nearestBits_one_of_lt hn
    have hbound : 2 ^ 52 ≤ overflowBound := by decide +kernel
    omega
  · have hne : n ≠ 0 := by omega
    have hlog : 52 ≤ n.log2 := (Nat.le_log2 hne).2 hn
    obtain ⟨e, he⟩ := Nat.exists_eq_add_of_le hlog
    have hlow : 2 ^ 52 * 2 ^ e ≤ n := by
      rw [← Nat.pow_add, ← he]
      exact Nat.log2_self_le hne
    have hhigh : n < 2 ^ 53 * 2 ^ e := by
      have hlt := @Nat.lt_log2_self n
      rwa [he, show 52 + e + 1 = 53 + e by omega, Nat.pow_add] at hlt
    have hround : (973 - e) * 2 ^ 52 ≤ roundHalfEven n (2 ^ e) ↔
        2 * ((973 - e) * 2 ^ 52 * 2 ^ e) ≤ 2 * n + 2 ^ e :=
      even_le_roundHalfEven_iff (Nat.two_pow_pos e) (by omega)
    have htop : nearestBits n 1 = 2047 * 2 ^ 52 ↔ (973 - e) * 2 ^ 52 ≤ roundHalfEven n (2 ^ e) := by
      rw [nearestBits_one he]
      omega
    rw [htop, hround, overflowBound]
    exact rounds_to_top_iff 970 hlow hhigh

theorem ofInt?_eq_none_iff (i : Int) : ofInt? i = none ↔ overflowBound ≤ i.natAbs := by
  have hpow : Nat.pow 2 52 = 2 ^ 52 := rfl
  rw [← nearestBits_one_eq_iff, ofInt?, hpow]
  dsimp only
  split <;> simp_all

end Double

/-! ## Signatures that can be read -/

namespace LooseSignature

open LooseText (HasHalf ofChars ofString)

/-- A field that is present does not hold a digest. -/
def IsGarbled (fields : List (LooseText × LooseText)) (name : String) : Prop :=
  ∃ text, Entries.get? fields (ofString name) = some text ∧
    text.chars?.bind Text.hexDecode? = none

/-- A text whose fields make up no signature: the timestamp is missing or is no integer, a digest is
garbled, or there is none. -/
def IsMalformed (value : LooseText) : Prop :=
  (∀ text, Entries.get? (fields value) (ofString "t") = some text →
    text.chars?.bind Integer.read? = none) ∨
  IsGarbled (fields value) "v0" ∨ IsGarbled (fields value) "v1" ∨
  Entries.get? (fields value) (ofString "v0") = none ∧
    Entries.get? (fields value) (ofString "v1") = none

theorem readDigest?_cases (fields : List (LooseText × LooseText)) (name : String) :
    IsGarbled fields name ∧ readDigest? fields name = none ∨
    ¬ IsGarbled fields name ∧ ∃ digest, readDigest? fields name = some digest ∧
      (digest.isNone = true ↔ Entries.get? fields (ofString name) = none) := by
  unfold readDigest? IsGarbled
  cases Entries.get? fields (ofString name) with
  | none => exact .inr ⟨by simp, none, rfl, by simp⟩
  | some text =>
    cases hdecode : text.chars?.bind Text.hexDecode? with
    | none => exact .inl ⟨⟨text, rfl, hdecode⟩, by simp [hdecode]⟩
    | some bytes =>
      refine .inr ⟨?_, some bytes, by simp only [hdecode], by simp⟩
      rintro ⟨_, ⟨⟩, hnone⟩
      rw [hdecode] at hnone
      cases hnone

/-- A text is a signature unless it is malformed, whichever of its faults is found first. -/
theorem parse?_eq_none_iff (value : LooseText) : parse? value = none ↔ IsMalformed value := by
  unfold parse? IsMalformed
  dsimp only
  cases ht : Entries.get? (fields value) (ofString "t") with
  | none => simp
  | some text =>
    cases hread : text.chars?.bind Integer.read? with
    | none => simp [hread, -Option.bind_eq_none_iff]
    | some timestamp =>
      rcases readDigest?_cases (fields value) "v0" with ⟨hv0, h0⟩ | ⟨hv0, v0, h0, hnone0⟩
      · simp [h0, hv0, hread]
      · rcases readDigest?_cases (fields value) "v1" with ⟨hv1, h1⟩ | ⟨hv1, v1, h1, hnone1⟩
        · simp [h0, h1, hv1, hread]
        · have hone : ¬ ∀ t, some text = some t → t.chars?.bind Integer.read? = none := by
            simp [hread, -Option.bind_eq_none_iff]
          simp only [Option.bind_some, h0, h1, hread, hv0, hv1, ← hnone0, ← hnone1, hone]
          cases v0 <;> cases v1 <;> simp

/-- The names of a signature that has been read are some text. -/
theorem join_headerNames_ne_nil {value : LooseText} {s : LooseSignature}
    (hparse : parse? value = some s) (hnames : s.headerNames ≠ []) :
    Signature.join [.char ' '] s.headerNames ≠ [] := by
  have hread : s.headerNames = readNames (fields value) := by
    unfold parse? at hparse
    dsimp only at hparse
    split at hparse
    · cases hparse
    · split at hparse
      · split at hparse
        · cases hparse
        · rw [← Option.some.inj hparse]
      · cases hparse
  rw [hread] at hnames ⊢
  unfold readNames at hnames ⊢
  dsimp only at hnames ⊢
  split
  · rename_i hempty
    exact absurd (if_pos hempty) hnames
  · rename_i hne
    rw [Signature.join_splitAt]
    simpa using hne

/-! ## Answers -/

/-- The age of the signature is to be checked and its timestamp has no double-precision number near
it. -/
def IsUnbounded (s : LooseSignature) (tolerance : Option Int) : Prop :=
  tolerance.isSome = true ∧ Double.overflowBound ≤ s.timestamp.natAbs

/-- The clock has moved away from the timestamp by more than the tolerance. -/
def IsOutdated (s : LooseSignature) (tolerance : Option Int) (now : Float) : Prop :=
  ∃ seconds t, tolerance = some seconds ∧ Double.ofInt? s.timestamp = some t ∧
    Double.compareInt? (now - t).abs seconds = some .gt

/-- The names of the headers that the compared digest covers. -/
def coveredNames (s : LooseSignature) : List LooseText :=
  if s.v1.isSome then s.headerNames else []

/-- The value with which a header has been received. -/
def received? (received : List (LooseText × LooseText)) (name : LooseText) : Option LooseText :=
  Entries.get? (lowerNames received) name

/-- Every covered header has been received. -/
def IsReceived (s : LooseSignature) (received : List (LooseText × LooseText)) : Prop :=
  ∀ name ∈ s.coveredNames, (received? received name).isSome = true

/-- There is half of a surrogate pair in a covered name, in its value or in a secret, and the digest is
to be compared. -/
def IsUnencodable (s : LooseSignature) (secrets : List LooseText)
    (received : List (LooseText × LooseText)) : Prop :=
  s.IsReceived received ∧
    ((∃ name ∈ s.coveredNames, HasHalf name ∨ ∃ value ∈ received? received name, HasHalf value) ∨
      ∃ secret ∈ secrets, HasHalf secret)

/-- Every covered header has been received, and one of the secrets gives the digest. -/
def IsGenuine (s : LooseSignature) (payload : Bytes) (secrets : List LooseText)
    (received : List (LooseText × LooseText)) : Prop :=
  ∃ content digest, s.claimed? payload received = some (.ok content, digest) ∧
    ∃ secret ∈ secrets, computeDigest secret content = .ok digest

theorem claimed?_eq_none_iff (s : LooseSignature) (payload : Bytes)
    (received : List (LooseText × LooseText)) :
    s.claimed? payload received = none ↔ ¬ s.IsReceived received := by
  obtain ⟨timestamp, v1, v0, names⟩ := s
  cases v1 with
  | none => simp [claimed?, IsReceived, coveredNames]
  | some digest =>
    simp only [claimed?, IsReceived, coveredNames, received?, Option.map_eq_none_iff,
      Option.isSome_some, if_true]
    by_cases hall : ∀ name ∈ names, (Entries.get? (lowerNames received) name).isSome = true
    · exact iff_of_false (by simp [Signature.mapM_eq_of_isSome [] hall]) (not_not_intro hall)
    · have hmissing : ∃ name ∈ names, Entries.get? (lowerNames received) name = none := by
        simpa using hall
      simp only [Signature.mapM_eq_none hmissing, hall, not_false_iff]

theorem isReceived_of_claimed? {s : LooseSignature} {payload : Bytes}
    {received : List (LooseText × LooseText)} {claimed : Except EncodingFault Bytes × Bytes}
    (hclaimed : s.claimed? payload received = some claimed) : s.IsReceived received := by
  by_contra hnot
  rw [(claimed?_eq_none_iff s payload received).2 hnot] at hclaimed
  cases hclaimed

/-- The content cannot be encoded exactly for halves in the covered names and values. -/
theorem claimed?_error_iff {value : LooseText} {s : LooseSignature} (hparse : parse? value = some s)
    {payload : Bytes} {received : List (LooseText × LooseText)}
    {content : Except EncodingFault Bytes} {digest : Bytes}
    (hclaimed : s.claimed? payload received = some (content, digest)) :
    (∃ e, content = .error e) ↔ ∃ name ∈ s.coveredNames,
      HasHalf name ∨ ∃ value ∈ received? received name, HasHalf value := by
  have hjoin := join_headerNames_ne_nil hparse
  have hreceived := isReceived_of_claimed? hclaimed
  obtain ⟨timestamp, v1, v0, names⟩ := s
  cases v1 with
  | none =>
    obtain ⟨rfl, -⟩ := Prod.mk.inj (Option.some.inj hclaimed)
    simp [canonicalContent, coveredNames, Signature.join]
  | some v1 =>
    have hall : ∀ name ∈ names, (Entries.get? (lowerNames received) name).isSome = true := hreceived
    simp only [claimed?, Signature.mapM_eq_of_isSome [] hall, Option.map_some, Option.some.injEq,
      Prod.mk.injEq] at hclaimed
    rw [← hclaimed.1, canonicalContent_eq_error_iff]
    have hvalue {name : LooseText} (hname : name ∈ names) :
        HasHalf ((Entries.get? (lowerNames received) name).getD []) ↔
          ∃ value ∈ received? received name, HasHalf value := by
      obtain ⟨value, hget⟩ := Option.isSome_iff_exists.1 (hall name hname)
      simp [received?, hget]
    constructor
    · rintro ⟨-, text, htext, hhalf⟩
      rcases List.mem_append.1 htext with hname | hmem
      · exact ⟨text, hname, .inl hhalf⟩
      · obtain ⟨name, hname, rfl⟩ := List.mem_map.1 hmem
        exact ⟨name, hname, .inr ((hvalue hname).1 hhalf)⟩
    · rintro ⟨name, hname, hhalf⟩
      have hname : name ∈ names := hname
      refine ⟨hjoin (List.ne_nil_of_mem hname), ?_⟩
      rcases hhalf with hhalf | hhalf
      · exact ⟨name, List.mem_append_left _ hname, hhalf⟩
      · exact ⟨_, List.mem_append_right _ (List.mem_map_of_mem hname), (hvalue hname).2 hhalf⟩

/-- All digests are computed unless there is half of a surrogate pair in a secret. -/
theorem digests_cases (secrets : List LooseText) (content : Bytes) :
    (∃ secret ∈ secrets, HasHalf secret) ∧
        (∃ e, secrets.mapM (computeDigest · content) = .error e) ∨
      ¬ (∃ secret ∈ secrets, HasHalf secret) ∧
        ∃ digests, secrets.mapM (computeDigest · content) = .ok digests ∧
          ∀ digest, digest ∈ digests ↔
            ∃ secret ∈ secrets, computeDigest secret content = .ok digest := by
  induction secrets with
  | nil => exact .inr ⟨by simp, [], rfl, by simp⟩
  | cons secret rest ih =>
    have hsecret := LooseText.utf8_eq_error_iff secret
    rw [List.mapM_cons]
    cases hutf8 : secret.utf8 with
    | error e =>
      refine .inl ⟨⟨secret, List.mem_cons_self, hsecret.1 ⟨e, hutf8⟩⟩, e, ?_⟩
      simp [computeDigest, hutf8, Except.map, bind, Except.bind]
    | ok key =>
      have hdigest : computeDigest secret content = .ok (Sha256.hmac key content) := by
        simp [computeDigest, hutf8, Except.map]
      have hwhole : ¬ secret.HasHalf := by
        rw [← hsecret, hutf8]
        simp
      rw [hdigest]
      rcases ih with ⟨⟨s, hs, hhalf⟩, e, hrest⟩ | ⟨hnone, digests, hrest, hmem⟩
      · exact .inl ⟨⟨s, List.mem_cons_of_mem secret hs, hhalf⟩, e, by rw [hrest]; rfl⟩
      · refine .inr ⟨?_, Sha256.hmac key content :: digests, by rw [hrest]; rfl, fun digest => ?_⟩
        · rintro ⟨s, hs, hhalf⟩
          rcases List.mem_cons.1 hs with rfl | hs
          · exact hwhole hhalf
          · exact hnone ⟨s, hs, hhalf⟩
        · simp [hmem, hdigest, eq_comm]

/-- Whether the digest can be compared, and with what outcome. -/
theorem matchesAny_cases {value : LooseText} {s : LooseSignature} (hparse : parse? value = some s)
    (payload : Bytes) (secrets : List LooseText) (received : List (LooseText × LooseText)) :
    s.IsUnencodable secrets received ∧ (∃ e, s.matchesAny payload secrets received = .error e) ∨
      ¬ s.IsUnencodable secrets received ∧ ∃ answer,
        s.matchesAny payload secrets received = .ok answer ∧
        (answer = true ↔ s.IsGenuine payload secrets received) := by
  unfold matchesAny IsGenuine
  cases hclaimed : s.claimed? payload received with
  | none =>
    have hmissing := (claimed?_eq_none_iff s payload received).1 hclaimed
    exact .inr ⟨fun h => hmissing h.1, false, rfl, by simp⟩
  | some claimed =>
    obtain ⟨content, digest⟩ := claimed
    have hreceived := isReceived_of_claimed? hclaimed
    have hcontent := claimed?_error_iff hparse hclaimed
    cases content with
    | error e => exact .inl ⟨⟨hreceived, .inl (hcontent.1 ⟨e, rfl⟩)⟩, e, rfl⟩
    | ok content =>
      have hcovered : ¬ ∃ name ∈ s.coveredNames,
          HasHalf name ∨ ∃ value ∈ received? received name, HasHalf value := by
        rw [← hcontent]
        simp
      rcases digests_cases secrets content with ⟨hhalf, e, herror⟩ | ⟨hwhole, digests, hok, hmem⟩
      · exact .inl ⟨⟨hreceived, .inr hhalf⟩, e, by simp only [herror]; rfl⟩
      · refine .inr ⟨fun h => h.2.elim hcovered hwhole, digests.any (· == digest),
          by simp only [hok]; rfl, ?_⟩
        have hany : digests.any (· == digest) = true ↔ digest ∈ digests := by simp
        rw [hany, hmem]
        constructor
        · exact fun h => ⟨content, digest, rfl, h⟩
        · rintro ⟨_, _, ⟨⟩, h⟩
          exact h

/-- What the clock says of a signature: its timestamp is out of reach, or it is outdated, or not. -/
theorem farFrom_cases (s : LooseSignature) (seconds : Int) (now : Float) :
    s.IsUnbounded (some seconds) ∧
        (Seconds.real now).farFrom s.timestamp seconds = .error .overflow ∨
      ¬ s.IsUnbounded (some seconds) ∧ ∃ far,
        (Seconds.real now).farFrom s.timestamp seconds = .ok far ∧
        (far = true ↔ s.IsOutdated (some seconds) now) := by
  unfold Seconds.farFrom
  cases ht : Double.ofInt? s.timestamp with
  | none => exact .inl ⟨⟨rfl, (Double.ofInt?_eq_none_iff _).1 ht⟩, rfl⟩
  | some t =>
    refine .inr ⟨fun h => ?_, _, rfl, ?_⟩
    · rw [(Double.ofInt?_eq_none_iff _).2 h.2] at ht
      cases ht
    · simp [IsOutdated, ht]

/-- A signature that has been read is left to the clock first and then to its digest. -/
theorem verify_of_parse? {signature : LooseText} {s : LooseSignature}
    (hparse : parse? signature = some s) (payload : Bytes) (secrets : List LooseText)
    (received : List (LooseText × LooseText)) (tolerance : Option Int) (now : Float) :
    s.IsUnbounded tolerance ∧
        verify signature payload secrets received tolerance (.real now) =
          .error (.clock .overflow) ∨
      ¬ s.IsUnbounded tolerance ∧ s.IsOutdated tolerance now ∧
        verify signature payload secrets received tolerance (.real now) = .ok false ∨
      ¬ s.IsUnbounded tolerance ∧ ¬ s.IsOutdated tolerance now ∧
        verify signature payload secrets received tolerance (.real now) =
          (s.matchesAny payload secrets received).mapError .encoding := by
  rw [verify, hparse]
  cases tolerance with
  | none => exact .inr (.inr ⟨by simp [IsUnbounded], by simp [IsOutdated], rfl⟩)
  | some seconds =>
    rcases farFrom_cases s seconds now with ⟨hunbounded, hfar⟩ | ⟨hbounded, far, hfar, hiff⟩
    · exact .inl ⟨hunbounded, by simp only [hfar]⟩
    · cases far with
      | true => exact .inr (.inl ⟨hbounded, hiff.1 rfl, by simp only [hfar]⟩)
      | false =>
        exact .inr (.inr ⟨hbounded, fun h => Bool.noConfusion (hiff.2 h), by simp only [hfar]⟩)

/-- Verification breaks off when the age of the signature is to be checked and its timestamp is too
large for a double-precision number, and when the digest is to be compared and a covered name, a
received value of one or a secret has no bytes. It answers no to what is no signature, to an outdated
one, and to one that is not genuine, and yes to the others. -/
theorem verify_endings (signature : LooseText) (payload : Bytes) (secrets : List LooseText)
    (received : List (LooseText × LooseText)) (tolerance : Option Int) (now : Float) :
    (verify signature payload secrets received tolerance (.real now) = .error (.clock .overflow) ↔
      ∃ s, parse? signature = some s ∧ s.IsUnbounded tolerance) ∧
    ((∃ e, verify signature payload secrets received tolerance (.real now) =
        .error (.encoding e)) ↔
      ∃ s, parse? signature = some s ∧ ¬ s.IsUnbounded tolerance ∧ ¬ s.IsOutdated tolerance now ∧
        s.IsUnencodable secrets received) ∧
    (verify signature payload secrets received tolerance (.real now) = .ok false ↔
      IsMalformed signature ∨ ∃ s, parse? signature = some s ∧ ¬ s.IsUnbounded tolerance ∧
        (s.IsOutdated tolerance now ∨
          ¬ s.IsUnencodable secrets received ∧ ¬ s.IsGenuine payload secrets received)) ∧
    (verify signature payload secrets received tolerance (.real now) = .ok true ↔
      ∃ s, parse? signature = some s ∧ ¬ s.IsUnbounded tolerance ∧ ¬ s.IsOutdated tolerance now ∧
        ¬ s.IsUnencodable secrets received ∧ s.IsGenuine payload secrets received) := by
  rw [← parse?_eq_none_iff]
  cases hparse : parse? signature with
  | none => simp [verify, hparse]
  | some s =>
    rcases verify_of_parse? hparse payload secrets received tolerance now with
      ⟨hunbounded, hverify⟩ | ⟨hbounded, houtdated, hverify⟩ | ⟨hbounded, hcurrent, hverify⟩
    · simp [hverify, hunbounded]
    · simp [hverify, hbounded, houtdated]
    · rcases matchesAny_cases hparse payload secrets received with
        ⟨hhalf, e, hmatches⟩ | ⟨hwhole, answer, hmatches, hiff⟩
      · simp [hverify, hmatches, Except.mapError, hbounded, hcurrent, hhalf]
      · have hanswer : s.IsGenuine payload secrets received ↔ answer = true := hiff.symm
        cases answer <;>
          simp [hverify, hmatches, Except.mapError, hbounded, hcurrent, hwhole, hanswer]

/-- A timestamp of 309 digits. -/
theorem unbounded_timestamp_has_no_answer :
    verify (ofChars ("t=2".toList ++ List.replicate 308 '0' ++ ",v1=00".toList)) []
      [ofString "whsec_test"] [] (some Signature.defaultTolerance) (.real 1709294400.0) =
        .error (.clock .overflow) := by
  have hparse : parse? (ofChars ("t=2".toList ++ List.replicate 308 '0' ++ ",v1=00".toList)) =
      some ⟨2 * 10 ^ 308, some [0], none, []⟩ := by
    decide +kernel
  have hbound : Double.overflowBound ≤ (2 * 10 ^ 308 : Int).natAbs := by decide +kernel
  rcases verify_of_parse? hparse [] [ofString "whsec_test"] [] (some Signature.defaultTolerance)
    1709294400.0 with ⟨-, hverify⟩ | ⟨hbounded, -⟩ | ⟨hbounded, -⟩
  · exact hverify
  · exact absurd ⟨rfl, hbound⟩ hbounded
  · exact absurd ⟨rfl, hbound⟩ hbounded

end LooseSignature
end WebhookDelivery
