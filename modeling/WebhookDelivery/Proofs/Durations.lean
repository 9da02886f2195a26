import Mathlib
import WebhookDelivery.Proofs.DeliveryHeaders
import WebhookDelivery.Proofs.Statuses

/-!
# WebhookDelivery.Proofs.Durations

Durations in double precision do not outgrow the columns that they are stored in. Sizes are told by
powers of two, and each rounding may add one.

* `IsBelow`: a number that is taken apart is less than `2 ^ k`, if it is finite. `isBelow_round` and
  `isBelow_mul` say so of what is rounded and multiplied.
* `IsLess`: the same of a number. `isLess_nearest` and `isLess_ofRatio` are about what is nearest to
  a ratio of integers.
* `natAbs_truncate?_lt_two_pow`: then its integer part is less than `2 ^ k` too.
* `WorkerUnit.fits_millisBetween`: the milliseconds between two instants fit where they are stored.
-/

namespace WebhookDelivery

namespace Double

open Float.Model Float.Model.UnpackedFloat

/-! ## Logarithms -/

theorem log2_div_two_pow {n k : Nat} (h : n / 2 ^ k ≠ 0) : (n / 2 ^ k).log2 + k ≤ n.log2 := by
  have hpow : 2 ^ ((n / 2 ^ k).log2 + k) ≤ n :=
    calc 2 ^ ((n / 2 ^ k).log2 + k)
        = 2 ^ (n / 2 ^ k).log2 * 2 ^ k := Nat.pow_add ..
      _ ≤ n / 2 ^ k * 2 ^ k := Nat.mul_le_mul_right _ (Nat.log2_self_le h)
      _ ≤ n := Nat.div_mul_le_self ..
  have hn : n ≠ 0 := by
    rintro rfl
    exact h (Nat.zero_div _)
  exact (Nat.le_log2 hn).2 hpow

theorem log2_succ_le (n : Nat) : (n + 1).log2 ≤ n.log2 + 1 := by
  have hlt : n + 1 < 2 ^ (n.log2 + 2) := by
    have hself := @Nat.lt_log2_self n
    rw [Nat.pow_succ]
    omega
  exact Nat.le_of_lt_succ ((Nat.log2_lt n.succ_ne_zero).2 hlt)

theorem log2_mul_le {m n : Nat} (h : m * n ≠ 0) : (m * n).log2 ≤ m.log2 + n.log2 + 1 := by
  have hlt : m * n < 2 ^ (m.log2 + n.log2 + 2) :=
    calc m * n
        < 2 ^ (m.log2 + 1) * 2 ^ (n.log2 + 1) :=
          Nat.mul_lt_mul'' Nat.lt_log2_self Nat.lt_log2_self
      _ = 2 ^ (m.log2 + n.log2 + 2) := by
          rw [← Nat.pow_add]
          congr 1
          omega
  exact Nat.le_of_lt_succ ((Nat.log2_lt h).2 hlt)

/-! ## Rounding -/

/-- The number is less than `2 ^ k`, if it is finite. -/
def IsBelow (k : Int) : UnpackedFloat → Prop
  | .finite _ m e _ => totalExponent m e ≤ k
  | _ => True

theorem mantissa_shiftRight (em : ExtendedMantissa) (n : Nat) :
    (em >>> n).mantissa = em.mantissa / 2 ^ n := by
  induction n with
  | zero => exact (Nat.div_one _).symm
  | succ n ih =>
    change (em >>> n).mantissa / 2 = _
    rw [ih, Nat.div_div_eq_div_mul, Nat.pow_succ]

theorem roundedMantissa_le (em : ExtendedMantissa) : em.roundedMantissa ≤ em.mantissa + 1 := by
  obtain ⟨m, roundBit, stickyBit⟩ := em
  cases roundBit <;> cases stickyBit <;>
    simp only [ExtendedMantissa.roundedMantissa, ExtendedMantissa.accuracy,
      Accuracy.roundToNearestEven] <;> omega

theorem totalExponent_shift {m a : Nat} (h : m / 2 ^ a ≠ 0) (e : Int) :
    totalExponent (m / 2 ^ a) (e + a) ≤ totalExponent m e := by
  have hlog := log2_div_two_pow h
  unfold totalExponent
  omega

/-- A mantissa that is shifted to an exponent no greater than `k`, and then rounded. -/
theorem totalExponent_rounded {em : ExtendedMantissa} {m a : Nat} {e k : Int}
    (hem : em.mantissa = m / 2 ^ a) (hm : totalExponent m e ≤ k) (ha : e + a ≤ max k e) :
    totalExponent em.roundedMantissa (e + a) ≤ k + 1 := by
  have hround := roundedMantissa_le em
  rw [hem] at hround
  have hlog : em.roundedMantissa.log2 ≤ (m / 2 ^ a + 1).log2 := by
    rw [Nat.log2_eq_log_two, Nat.log2_eq_log_two]
    exact Nat.log_mono_right hround
  by_cases hzero : m / 2 ^ a = 0
  · have hone : (m / 2 ^ a + 1).log2 = 0 := by
      rw [hzero]
      decide
    unfold totalExponent at hm ⊢
    omega
  · have hshift := totalExponent_shift hzero e
    have hsucc := log2_succ_le (m / 2 ^ a)
    unfold totalExponent at hm hshift ⊢
    omega

theorem isBelow_round {s : Sign} {m : Nat} {e k : Int} (hm : totalExponent m e ≤ k)
    (hk : -1074 ≤ k) : IsBelow (k + 1) (roundWithAccuracy Format.binary64 s m e .exact) := by
  have htarget : Format.binary64.targetExponent (totalExponent m e) ≤ k := by
    simp only [Format.targetExponent, Format.mantissaBits, Format.minExponent]
    omega
  unfold roundWithAccuracy shiftToTargetExponent shiftToExponent
  dsimp only
  generalize htimes : (Format.binary64.targetExponent (totalExponent m e) - e).toNat = a
  generalize hem : ExtendedMantissa.ofMantissaAndAccuracy m .exact >>> a = em
  have hmantissa : em.mantissa = m / 2 ^ a := by
    rw [← hem, mantissa_shiftRight]
    rfl
  have hrounded := totalExponent_rounded hmantissa hm (by omega)
  generalize (Format.binary64.targetExponent (totalExponent em.roundedMantissa (e + a)) -
    (e + a)).toNat = b
  split
  · trivial
  · rename_i hfinal
    rw [mantissa_shiftRight] at hfinal
    have hshift := totalExponent_shift hfinal (e + a)
    change totalExponent
      (ExtendedMantissa.ofMantissaAndAccuracy em.roundedMantissa .exact >>> b).mantissa _ ≤ k + 1
    rw [mantissa_shiftRight]
    exact hshift.trans hrounded

theorem isBelow_mul {x y : UnpackedFloat} {j k : Int} (hx : IsBelow j x) (hy : IsBelow k y)
    (hjk : -1074 ≤ j + k) : IsBelow (j + k + 1) (UnpackedFloat.mul Format.binary64 x y) := by
  unfold UnpackedFloat.mul
  split <;> try trivial
  rename_i s₁ m₁ e₁ h₁ s₂ m₂ e₂ h₂
  have hlog := log2_mul_le (Nat.mul_ne_zero h₁.ne' h₂.ne')
  refine isBelow_round ?_ hjk
  simp only [IsBelow, totalExponent] at hx hy ⊢
  omega

theorem isBelow_neg {x : UnpackedFloat} {k : Int} (h : IsBelow k x) : IsBelow k x.neg := by
  cases x with
  | finite s m e hm => exact h
  | _ => trivial

/-! ## Bits -/

/-- The exponent of a number as it is stored. -/
def exponentField (bits : BitVec 64) : Nat := bits.toNat / 2 ^ 52 % 2 ^ 11

theorem toNat_unpackExponent (bits : BitVec 64) :
    (@unpackExponent Format.binary64 bits).toNat = exponentField bits := by
  simp [unpackExponent, exponentField, Nat.shiftRight_eq_div_pow]

theorem log2_toNat_le {n : Nat} (b : BitVec (n + 1)) : b.toNat.log2 ≤ n := by
  by_cases hzero : b.toNat = 0
  · simp [hzero]
  · exact Nat.le_of_lt_succ ((Nat.log2_lt hzero).2 b.isLt)

/-- Bits of a number that is less than `2 ^ k`, or of what is not finite: that has the greatest
exponent. -/
def BitsBelow (k : Int) (bits : BitVec 64) : Prop :=
  exponentField bits = 2047 ∨ (exponentField bits : Int) ≤ k + 1022

theorem isBelow_unpack {bits : BitVec 64} {k : Int} (h : BitsBelow k bits) :
    IsBelow k (UnpackedFloat.unpack Format.binary64 bits) := by
  have hexponent := toNat_unpackExponent bits
  have hbias : (Format.binary64.exponentBias : Int) = 1023 := rfl
  unfold BitsBelow at h
  unfold UnpackedFloat.unpack
  dsimp only
  split
  · split <;> trivial
  · rename_i hfinite
    have hfield : exponentField bits ≠ 2047 :=
      fun htop => hfinite (BitVec.eq_of_toNat_eq (hexponent.trans htop))
    split
    · rename_i hzero
      rw [hzero, BitVec.toNat_ofNat] at hexponent
      split
      · trivial
      · have hlog := log2_toNat_le (n := 51) (@unpackMantissa Format.binary64 bits)
        simp only [IsBelow, totalExponent, hbias, hzero, BitVec.toNat_ofNat]
        omega
    · have hlog := log2_toNat_le (n := 52) (1#1 ++ @unpackMantissa Format.binary64 bits)
      simp only [IsBelow, totalExponent, hbias, hexponent]
      omega

theorem toNat_packComponents (s : Sign) (exponent : BitVec 11) (mantissa : BitVec 52) :
    (packComponents Format.binary64 s exponent mantissa).toNat =
      s.toBitVec.toNat * 2 ^ 63 + exponent.toNat * 2 ^ 52 + mantissa.toNat := by
  unfold packComponents
  rw [BitVec.toNat_append, BitVec.toNat_append, ← Nat.shiftLeft_add_eq_or_of_lt mantissa.isLt,
    ← Nat.shiftLeft_add_eq_or_of_lt exponent.isLt, Nat.shiftLeft_eq, Nat.shiftLeft_eq]
  simp
  omega

theorem exponentField_packComponents (s : Sign) (exponent : BitVec 11) (mantissa : BitVec 52) :
    exponentField (packComponents Format.binary64 s exponent mantissa) = exponent.toNat := by
  have hexponent := exponent.isLt
  have hmantissa := mantissa.isLt
  rw [exponentField, toNat_packComponents]
  omega

theorem bitsBelow_pack {f : UnpackedFloat} {k : Int} (h : IsBelow k f) (hk : -1022 ≤ k) :
    BitsBelow k (UnpackedFloat.pack Format.binary64 f) := by
  have hinfinity : ∀ s, BitsBelow k (packedInfinity Format.binary64 s) :=
    fun s => .inl (exponentField_packComponents s _ _)
  have hsubnormal : ∀ s mantissa, BitsBelow k (packComponents Format.binary64 s 0#_ mantissa) := by
    intro s mantissa
    have hfield := exponentField_packComponents s 0#_ mantissa
    refine .inr ?_
    rw [hfield, BitVec.toNat_ofNat]
    omega
  cases f with
  | infinity s => exact hinfinity s
  | notANumber => exact .inl (exponentField_packComponents .positive _ _)
  | zero s => exact hsubnormal s 0
  | finite s m e hm =>
    have hbias : (Format.binary64.exponentBias : Int) = 1023 := rfl
    have hbits : Format.binary64.mantissaBits = 53 := rfl
    unfold UnpackedFloat.pack
    dsimp only
    split
    · exact hinfinity s
    · split
      · refine .inr ?_
        rw [exponentField_packComponents, BitVec.toNat_ofNat]
        simp only [IsBelow, totalExponent] at h
        omega
      · exact hsubnormal s _

/-! ## Numbers -/

/-- The magnitude of a number is less than `2 ^ k`, if it is finite. -/
def IsLess (k : Int) (x : Float) : Prop := BitsBelow k x.toBits.toBitVec

section

variable {j k : Int} {x y : Float}

theorem IsLess.mul (hx : IsLess j x) (hy : IsLess k y) (hjk : -1023 ≤ j + k) :
    IsLess (j + k + 1) (x * y) :=
  bitsBelow_pack (isBelow_mul (isBelow_unpack hx) (isBelow_unpack hy) (by omega)) (by omega)

theorem IsLess.neg (h : IsLess k x) (hk : -1022 ≤ k) : IsLess k (-x) :=
  bitsBelow_pack (isBelow_neg (isBelow_unpack h)) hk

theorem isLess_ofBits {bits : UInt64} (h : BitsBelow k bits.toBitVec) (hk : -1022 ≤ k) :
    IsLess k (Float.ofBits bits) :=
  bitsBelow_pack (isBelow_unpack h) hk

theorem floorAbs_lt {d : Dyadic} {k : Nat} (hm : d.mantissa < 2 ^ 53) (he : d.exponent + 53 ≤ k) :
    Dyadic.floorAbs d < 2 ^ k := by
  unfold Dyadic.floorAbs
  split
  · have hle : d.exponent.toNat ≤ k - 53 := by omega
    have hlt := mul_two_pow_lt hm hle
    rwa [show 53 + (k - 53) = k by omega] at hlt
  · refine (Nat.div_lt_iff_lt_mul (Nat.pow_pos (by decide))).2 ?_
    calc d.mantissa
        < 2 ^ 53 := hm
      _ ≤ 2 ^ (k + (-d.exponent).toNat) := Nat.pow_le_pow_right (by decide) (by omega)
      _ = 2 ^ k * 2 ^ (-d.exponent).toNat := Nat.pow_add ..

theorem exponent_of_decode? {d : Dyadic} (h : decode? x = some d) :
    exponentField x.toBits.toBitVec ≠ 2047 ∧
      d.exponent ≤ max ((exponentField x.toBits.toBitVec : Int) - 1075) (-1074) := by
  have hfield : exponentField x.toBits.toBitVec =
      x.toBits.toNat / Nat.pow 2 52 % Nat.pow 2 11 := rfl
  rw [hfield]
  unfold decode? at h
  dsimp only at h
  split at h
  · cases h
  · split at h <;> cases h <;> dsimp only <;> omega

/-- The integer part of a number is not greater than the number. -/
theorem natAbs_truncate?_lt_two_pow {k : Nat} {i : Int} (hx : IsLess k x)
    (h : truncate? x = some i) : i.natAbs < 2 ^ k := by
  obtain ⟨d, hd, hi⟩ := Option.map_eq_some_iff.1 h
  obtain ⟨hmantissa, -⟩ := decode?_bounds hd
  obtain ⟨hfinite, hexponent⟩ := exponent_of_decode? hd
  have habs : i.natAbs = Dyadic.floorAbs d := by
    rw [← hi]
    split <;> simp
  have hfield := hx.resolve_left hfinite
  rw [habs]
  exact floorAbs_lt hmantissa (by omega)

end

/-! ## Quotients -/

theorem roundHalfEven_le {num den b : Nat} (hden : 0 < den) (h : num < b * den) :
    roundHalfEven num den ≤ b := by
  have hlt : num / den < b := (Nat.div_lt_iff_lt_mul hden).2 h
  unfold roundHalfEven
  dsimp only
  split
  · omega
  · split
    · omega
    · split <;> omega

theorem unitExponent_bounds (num den : Nat) :
    (num.log2 : Int) - den.log2 - 53 ≤ unitExponent num den ∧
      unitExponent num den ≤ max ((num.log2 : Int) - den.log2 - 52) (-1074) ∧
      -1074 ≤ unitExponent num den := by
  unfold unitExponent
  dsimp only
  split <;> omega

/-- A quotient in its unit has at most 54 digits. -/
theorem mantissa_le {num den : Nat} (hden : den ≠ 0) {e : Int}
    (he : (num.log2 : Int) - den.log2 - 53 ≤ e) :
    (if 0 ≤ e then roundHalfEven num (den * 2 ^ e.toNat)
      else roundHalfEven (num * 2 ^ (-e).toNat) den) ≤ 2 ^ 54 := by
  have hnum := @Nat.lt_log2_self num
  have hden' := Nat.log2_self_le hden
  split
  · refine roundHalfEven_le (Nat.mul_pos (Nat.pos_of_ne_zero hden) (Nat.two_pow_pos _)) ?_
    calc num
        < 2 ^ (num.log2 + 1) := hnum
      _ ≤ 2 ^ (54 + (den.log2 + e.toNat)) := Nat.pow_le_pow_right (by decide) (by omega)
      _ = 2 ^ 54 * (2 ^ den.log2 * 2 ^ e.toNat) := by rw [Nat.pow_add, Nat.pow_add]
      _ ≤ 2 ^ 54 * (den * 2 ^ e.toNat) := Nat.mul_le_mul_left _ (Nat.mul_le_mul_right _ hden')
  · refine roundHalfEven_le (Nat.pos_of_ne_zero hden) ?_
    calc num * 2 ^ (-e).toNat
        < 2 ^ (num.log2 + 1) * 2 ^ (-e).toNat :=
          Nat.mul_lt_mul_of_pos_right hnum (Nat.two_pow_pos _)
      _ = 2 ^ (num.log2 + 1 + (-e).toNat) := (Nat.pow_add ..).symm
      _ ≤ 2 ^ (54 + den.log2) := Nat.pow_le_pow_right (by decide) (by omega)
      _ = 2 ^ 54 * 2 ^ den.log2 := Nat.pow_add ..
      _ ≤ 2 ^ 54 * den := Nat.mul_le_mul_left _ hden'

theorem nearestBits_le {num den : Nat} (hden : den ≠ 0) {k : Int}
    (h : (num.log2 : Int) - den.log2 + 4 ≤ k) (hk : -1018 ≤ k) :
    nearestBits num den ≤ (k + 1022).toNat * 2 ^ 52 := by
  obtain ⟨hlower, hupper, hleast⟩ := unitExponent_bounds num den
  have hmantissa := mantissa_le hden hlower
  unfold nearestBits
  split
  · exact Nat.zero_le _
  · refine (min_le_left _ _).trans ?_
    have hunits : (unitExponent num den + 1074).toNat + 4 ≤ (k + 1022).toNat := by omega
    calc _
        ≤ (unitExponent num den + 1074).toNat * 2 ^ 52 + 2 ^ 54 := Nat.add_le_add_left hmantissa _
      _ = ((unitExponent num den + 1074).toNat + 4) * 2 ^ 52 := by omega
      _ ≤ (k + 1022).toNat * 2 ^ 52 := Nat.mul_le_mul_right _ hunits

theorem isLess_nearest {num den : Nat} (hden : den ≠ 0) {k : Int}
    (h : (num.log2 : Int) - den.log2 + 4 ≤ k) (hk : -1018 ≤ k) : IsLess k (nearest num den) := by
  refine isLess_ofBits (.inr ?_) (by omega)
  have hquotient : nearestBits num den / 2 ^ 52 ≤ (k + 1022).toNat :=
    Nat.div_le_of_le_mul (by rw [Nat.mul_comm]; exact nearestBits_le hden h hk)
  have hmax : nearestBits num den < 2 ^ 64 := by
    unfold nearestBits
    split
    · decide
    · exact (min_le_right _ _).trans_lt (by decide)
  have hbits : (UInt64.ofNat (nearestBits num den)).toBitVec.toNat = nearestBits num den :=
    Nat.mod_eq_of_lt hmax
  have hfield : exponentField (UInt64.ofNat (nearestBits num den)).toBitVec ≤
      nearestBits num den / 2 ^ 52 := by
    rw [exponentField, hbits]
    exact Nat.mod_le _ _
  omega

theorem isLess_ofRatio {num : Int} {den : Nat} (hden : den ≠ 0) {k : Int}
    (h : (num.natAbs.log2 : Int) - den.log2 + 4 ≤ k) (hk : -1018 ≤ k) :
    IsLess k (ofRatio num den) := by
  have hnearest := isLess_nearest hden h hk
  unfold ofRatio
  dsimp only
  split
  · exact hnearest.neg (by omega)
  · exact hnearest

end Double

/-! ## Elapsed time -/

namespace WorkerUnit

/-- The milliseconds between two instants fit where they are stored. -/
theorem fits_millisBetween {earlier later : Int} (h : (later - earlier).natAbs < 2 ^ 67) :
    Engine.Fits (millisBetween earlier later) := by
  have hlog : (later - earlier).natAbs.log2 ≤ 66 := by
    by_cases hzero : (later - earlier).natAbs = 0
    · simp [hzero]
    · exact Nat.le_of_lt_succ ((Nat.log2_lt hzero).2 h)
  have hmillion : Nat.log2 1000000 = 19 := by decide
  have hseconds : Double.IsLess 51 (Double.ofRatio (later - earlier) 1000000) :=
    Double.isLess_ofRatio (by decide) (by omega) (by decide)
  have hthousand : Double.IsLess 10 1000.0 := .inr (by decide +kernel)
  have hproduct := hseconds.mul hthousand (by decide)
  unfold millisBetween
  cases hmillis : Double.truncate? (Double.ofRatio (later - earlier) 1000000 * 1000.0) with
  | none => exact ⟨by decide, by decide⟩
  | some i =>
    have hi : i.natAbs < 2 ^ 62 := Double.natAbs_truncate?_lt_two_pow hproduct hmillis
    unfold Engine.Fits AttemptRow.maxInteger
    rw [Option.getD_some]
    omega

end WorkerUnit
end WebhookDelivery
