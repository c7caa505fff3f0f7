import Mathlib
import RuntimeScriptProfiler.Framework.FloatValue

/-!
# How far rounding goes

The arithmetic of `Float.Model` computes a mantissa with a remark on where the exact
number lies above it (`Accuracy`), drops bits to the exponent of the format, rounds to the
nearest, and shifts once more if rounding has made the mantissa too long. The remark is a
statement about a number (`Locates`), which dropping bits keeps (`Locates.shiftRight`). So
the result is within half a unit in the last place of the exact number, for any format
and any number below its infinity (`roundWithAccuracy_spec`), and for one that is not
subnormal within a relative error of half the last place (`roundWithAccuracy_rel`).

Products and quotients of floats are instances (`near_mul`, `near_div`).
-/

namespace FloatValue

open Float.Model Float.Model.UnpackedFloat

/-! ### Where a number lies above a mantissa -/

/-- What an accuracy says of a number `y` whose approximation is `m`, in units of the last
place. -/
def Locates (m : ℕ) (y : ℚ) : Accuracy → Prop
  | .exact => y = m
  | .inexact .lt => m < y ∧ y < m + 1 / 2
  | .inexact .eq => y = m + 1 / 2
  | .inexact .gt => m + 1 / 2 < y ∧ y < m + 1

namespace Locates

variable {m : ℕ} {y : ℚ} {a : Accuracy}

/-- The approximation is the integral part. -/
theorem floor (h : Locates m y a) : (m : ℚ) ≤ y ∧ y < m + 1 := by
  rcases a with - | - | - | - <;> simp only [Locates] at h <;> constructor <;> linarith

/-- Rounding moves by half a unit at most. -/
theorem abs_round_sub_le (h : Locates m y a) :
    |(a.roundToNearestEven m : ℚ) - y| ≤ 1 / 2 := by
  have hmod : m % 2 = 0 ∨ m % 2 = 1 := by omega
  rw [abs_le]
  rcases a with - | - | - | -
  · simp only [Locates] at h
    rw [Accuracy.roundToNearestEven, h]
    constructor <;> linarith
  · simp only [Locates] at h
    rw [Accuracy.roundToNearestEven]
    constructor <;> linarith
  · -- a tie, which may go either way
    simp only [Locates] at h
    rw [Accuracy.roundToNearestEven]
    rcases hmod with hmod | hmod <;> rw [hmod] <;> push_cast <;> constructor <;> linarith
  · simp only [Locates] at h
    rw [Accuracy.roundToNearestEven]
    push_cast
    constructor <;> linarith

/-- The remark that goes with an extended mantissa is the one it was made from. -/
theorem ofMantissaAndAccuracy (h : Locates m y a) :
    Locates (ExtendedMantissa.ofMantissaAndAccuracy m a).mantissa y
      (ExtendedMantissa.ofMantissaAndAccuracy m a).accuracy := by
  rcases a with - | - | - | - <;> exact h

/-- Dropping a bit halves the unit. -/
theorem shiftRightOne {em : ExtendedMantissa} (h : Locates em.mantissa y em.accuracy) :
    Locates em.shiftRightOne.mantissa (y / 2) em.shiftRightOne.accuracy := by
  obtain ⟨m, roundBit, stickyBit⟩ := em
  obtain ⟨q, rfl | rfl⟩ : ∃ q, m = 2 * q ∨ m = 2 * q + 1 := ⟨m / 2, by omega⟩
  · -- the bit that is dropped is zero
    have hdiv : 2 * q / 2 = q := by omega
    have hbit : (2 * q % 2 != 0) = false := by simp
    cases roundBit <;> cases stickyBit <;>
      simp only [Locates, ExtendedMantissa.accuracy, ExtendedMantissa.shiftRightOne, hdiv, hbit,
        Bool.or_false, Bool.or_true] at h ⊢ <;> push_cast at h <;>
      first | linarith | (constructor <;> linarith)
  · have hdiv : (2 * q + 1) / 2 = q := by omega
    have hbit : ((2 * q + 1) % 2 != 0) = true := by simp [Nat.add_mod]
    cases roundBit <;> cases stickyBit <;>
      simp only [Locates, ExtendedMantissa.accuracy, ExtendedMantissa.shiftRightOne, hdiv, hbit,
        Bool.or_false, Bool.or_true] at h ⊢ <;> push_cast at h <;>
      first | linarith | (constructor <;> linarith)

/-- Dropping `k` bits divides by `2 ^ k`. -/
theorem shiftRight {em : ExtendedMantissa} (h : Locates em.mantissa y em.accuracy) (k : ℕ) :
    Locates (em >>> k).mantissa (y / 2 ^ k) (em >>> k).accuracy := by
  induction k with
  | zero =>
    rw [pow_zero, div_one]
    exact h
  | succ k ih =>
    have hstep : em >>> (k + 1) = (em >>> k).shiftRightOne := rfl
    rw [hstep, pow_succ, ← div_div]
    exact ih.shiftRightOne

end Locates

/-! ### Rounding to a format -/

section Round

variable {spec : Format} {m : ℕ} {e : ℤ} {a : Accuracy} {x : ℚ}

/-- The unit in the last place of a format, at a given number. -/
def ulp (spec : Format) (m : ℕ) (e : ℤ) : ℤ := spec.targetExponent (totalExponent m e)

/-- A number with a sign. -/
def withSign : Sign → ℚ → ℚ
  | .positive, q => q
  | .negative, q => -q

theorem toRat_finite (s : Sign) (hm : 0 < m) :
    toRat (.finite s m e hm) = withSign s (m * 2 ^ e) := by
  cases s <;> rfl

theorem abs_withSign_sub (s : Sign) (p q : ℚ) : |withSign s p - withSign s q| = |p - q| := by
  cases s with
  | positive => rfl
  | negative => rw [withSign, withSign, neg_sub_neg, abs_sub_comm]

/-- The first shift, as a remark about the number in the new units. -/
theorem locates_shiftToTargetExponent (hle : e ≤ ulp spec m e) (h : Locates m (x / 2 ^ e) a) :
    (shiftToTargetExponent spec m e a).2 = ulp spec m e ∧
      Locates (shiftToTargetExponent spec m e a).1.mantissa (x / 2 ^ ulp spec m e)
        (shiftToTargetExponent spec m e a).1.accuracy := by
  obtain ⟨k, hk⟩ := Int.eq_ofNat_of_zero_le (sub_nonneg.mpr hle)
  have hulp : ulp spec m e = e + k := by omega
  have hshift : shiftToTargetExponent spec m e a
      = (ExtendedMantissa.ofMantissaAndAccuracy m a >>> k, e + k) := by
    rw [shiftToTargetExponent, shiftToExponent]
    rw [ulp] at hk
    simp only [hk, Int.toNat_natCast]
  have hdiv : x / 2 ^ (e + k) = x / 2 ^ e / 2 ^ k := by
    rw [zpow_add₀ two_ne_zero, zpow_natCast, div_div]
  rw [hshift, hulp, hdiv]
  exact ⟨rfl, h.ofMantissaAndAccuracy.shiftRight k⟩

/-- The second shift changes no number: the mantissa is too long by one bit at most, and
that bit is a zero. -/
theorem shiftToTargetExponent_rounded {r : ℕ} {t : ℤ} (hr : r ≤ 2 ^ spec.mantissaBits)
    (ht : spec.minExponent ≤ t) :
    (r < 2 ^ spec.mantissaBits ∧
        shiftToTargetExponent spec r t .exact = (⟨r, false, false⟩, t)) ∨
      (r = 2 ^ spec.mantissaBits ∧
        shiftToTargetExponent spec r t .exact
          = (⟨2 ^ (spec.mantissaBits - 1), false, false⟩, t + 1)) := by
  rcases hr.lt_or_eq with hlt | rfl
  · left
    refine ⟨hlt, ?_⟩
    have hlog : r.log2 < spec.mantissaBits := by
      rcases Nat.eq_zero_or_pos r with rfl | hpos
      · rw [Nat.log2_zero, Format.mantissaBits]
        omega
      · exact (Nat.log2_lt hpos.ne').mpr hlt
    have hzero : (spec.targetExponent (totalExponent r t) - t).toNat = 0 := by
      unfold Format.targetExponent totalExponent
      omega
    rw [shiftToTargetExponent, shiftToExponent]
    simp only [hzero]
    rw [Nat.cast_zero, add_zero]
    rfl
  · right
    refine ⟨rfl, ?_⟩
    have hone : (spec.targetExponent (totalExponent (2 ^ spec.mantissaBits) t) - t).toNat = 1 := by
      unfold Format.targetExponent totalExponent
      rw [Nat.log2_two_pow]
      omega
    have hbits : spec.mantissaBits = spec.mantissaBits - 1 + 1 := by
      unfold Format.mantissaBits
      omega
    have hhalf : 2 ^ spec.mantissaBits / 2 = 2 ^ (spec.mantissaBits - 1) := by
      rw [hbits, pow_succ, Nat.mul_div_cancel _ two_pos, Nat.add_sub_cancel]
    have heven : (2 ^ spec.mantissaBits % 2 != 0) = false := by
      rw [hbits, pow_succ, Nat.mul_mod_left]
      rfl
    rw [shiftToTargetExponent, shiftToExponent]
    simp only [hone]
    change (ExtendedMantissa.shiftRightOne ⟨2 ^ spec.mantissaBits, false, false⟩, t + 1) = _
    simp only [ExtendedMantissa.shiftRightOne, hhalf, heven, Bool.or_false]

theorem locates_exact (m : ℕ) (e : ℤ) : Locates m (m * 2 ^ e / 2 ^ e) .exact :=
  mul_div_cancel_right₀ _ (by positivity)

/-- The place of the first bit. -/
theorem two_zpow_le (hm : 0 < m) (h : Locates m (x / 2 ^ e) a) :
    (2 : ℚ) ^ (totalExponent m e - 1) ≤ x := by
  have hpos : (0 : ℚ) < 2 ^ e := by positivity
  have hlog : ((2 ^ m.log2 : ℕ) : ℚ) ≤ m := Nat.cast_le.mpr (Nat.log2_self_le hm.ne')
  calc (2 : ℚ) ^ (totalExponent m e - 1) = (2 ^ m.log2 : ℕ) * 2 ^ e := by
        rw [show totalExponent m e - 1 = m.log2 + e by unfold totalExponent; ring,
          zpow_add₀ two_ne_zero, zpow_natCast]
        push_cast
        rfl
    _ ≤ m * 2 ^ e := by gcongr
    _ ≤ x := (le_div_iff₀ hpos).mp h.floor.1

theorem lt_two_zpow (h : Locates m (x / 2 ^ e) a) : x < 2 ^ totalExponent m e := by
  have hpos : (0 : ℚ) < 2 ^ e := by positivity
  have hlog : ((m + 1 : ℕ) : ℚ) ≤ (2 ^ (m.log2 + 1) : ℕ) := Nat.cast_le.mpr Nat.lt_log2_self
  calc x < (m + 1 : ℕ) * 2 ^ e := by
        push_cast
        exact (div_lt_iff₀ hpos).mp h.floor.2
    _ ≤ (2 ^ (m.log2 + 1) : ℕ) * 2 ^ e := by gcongr
    _ = 2 ^ totalExponent m e := by
        rw [totalExponent, zpow_add₀ two_ne_zero]
        push_cast
        rfl

/-- A whole number above a number is above what it is rounded to, and one below it below. -/
theorem le_of_abs_sub_le {r N : ℕ} {y : ℚ} (h : |(r : ℚ) - y| ≤ 1 / 2) (hN : y ≤ N) : r ≤ N := by
  have hlt : (r : ℚ) < (N + 1 : ℕ) := by
    push_cast
    linarith [(abs_le.mp h).2]
  exact Nat.lt_succ_iff.mp (by exact_mod_cast hlt)

theorem ge_of_abs_sub_le {r N : ℕ} {y : ℚ} (h : |(r : ℚ) - y| ≤ 1 / 2) (hN : (N : ℚ) ≤ y) :
    N ≤ r := by
  have hlt : (N : ℚ) < (r + 1 : ℕ) := by
    push_cast
    linarith [(abs_le.mp h).1]
  exact Nat.lt_succ_iff.mp (by exact_mod_cast hlt)

/-- The last place is that of the format's least exponent, or the first bit fills the
mantissa. -/
theorem ulp_cases (spec : Format) (m : ℕ) (e : ℤ) :
    spec.minExponent ≤ ulp spec m e ∧ totalExponent m e ≤ ulp spec m e + spec.mantissaBits ∧
      (ulp spec m e = spec.minExponent ∨
        ulp spec m e + spec.mantissaBits = totalExponent m e) := by
  unfold ulp Format.targetExponent
  omega

/-- A number below the format's infinity has its last place below it. -/
theorem ulp_add_lt (hspec : 1 < spec.exponentBits) (hm : 0 < m) (h : Locates m (x / 2 ^ e) a)
    (hx : x < 2 ^ ((2 : ℤ) ^ (spec.exponentBits - 1) - 1)) :
    ulp spec m e + spec.mantissaBits + 1 ≤ 2 ^ (spec.exponentBits - 1) := by
  have htwo : (2 : ℤ) ≤ 2 ^ (spec.exponentBits - 1) := le_self_pow₀ one_le_two (by omega)
  obtain ⟨-, -, hlast | hlast⟩ := ulp_cases spec m e
  · rw [hlast, Format.minExponent]
    omega
  · have hlt := (zpow_lt_zpow_iff_right₀ one_lt_two).mp ((two_zpow_le hm h).trans_lt hx)
    omega

theorem mantissaBits_eq_succ (spec : Format) :
    spec.mantissaBits = spec.mantissaBits - 1 + 1 := by
  unfold Format.mantissaBits
  omega

/-- A mantissa that has been rounded up to a bit too many is halved, and the number stays in the
format. -/
theorem isCanonical_carry (s : Sign) (hp : 0 < 2 ^ (spec.mantissaBits - 1)) {t : ℤ}
    (hmin : spec.minExponent ≤ t)
    (hfin : t + spec.mantissaBits + 1 ≤ 2 ^ (spec.exponentBits - 1)) :
    IsCanonical spec (.finite s (2 ^ (spec.mantissaBits - 1)) (t + 1) hp) := by
  have hbits := mantissaBits_eq_succ spec
  refine ⟨?_, ?_, Or.inr ?_, ?_⟩
  · rw [Nat.log2_two_pow]
    omega
  · omega
  · rw [Nat.log2_two_pow]
    omega
  · rw [totalExponent, Nat.log2_two_pow]
    omega

theorem carry_mul (spec : Format) (t : ℤ) :
    ((2 ^ (spec.mantissaBits - 1) : ℕ) : ℚ) * 2 ^ (t + 1)
      = (2 ^ spec.mantissaBits : ℕ) * 2 ^ t := by
  have htwice : (2 : ℚ) ^ spec.mantissaBits = 2 ^ (spec.mantissaBits - 1) * 2 := by
    rw [← pow_succ, ← mantissaBits_eq_succ]
  rw [zpow_add_one₀ two_ne_zero]
  push_cast
  rw [htwice]
  ring

/-- **Rounding is to the nearest multiple of the last place**, and stays in the format. -/
theorem roundWithAccuracy_spec (s : Sign) (hspec : 1 < spec.exponentBits) (hm : 0 < m)
    (hle : e ≤ ulp spec m e) (h : Locates m (x / 2 ^ e) a)
    (hx : x < 2 ^ ((2 : ℤ) ^ (spec.exponentBits - 1) - 1)) :
    IsCanonical spec (roundWithAccuracy spec s m e a) ∧
      (roundWithAccuracy spec s m e a).isFinite = true ∧
      ∃ r : ℕ, |(r : ℚ) - x / 2 ^ ulp spec m e| ≤ 1 / 2 ∧
        toRat (roundWithAccuracy spec s m e a) = withSign s (r * 2 ^ ulp spec m e) := by
  obtain ⟨hexp, hloc⟩ := locates_shiftToTargetExponent hle h
  have hround := hloc.abs_round_sub_le
  have hfin := ulp_add_lt hspec hm h hx
  obtain ⟨hmin, htotal, hlast⟩ := ulp_cases spec m e
  -- the last place, and the mantissa before the second shift
  generalize ulp spec m e = t at *
  obtain ⟨r, hr⟩ : ∃ r, (shiftToTargetExponent spec m e a).1.roundedMantissa = r := ⟨_, rfl⟩
  change |((shiftToTargetExponent spec m e a).1.roundedMantissa : ℚ) - _| ≤ _ at hround
  rw [hr] at hround
  have hpos : (0 : ℚ) < 2 ^ t := by positivity
  have hbound : r ≤ 2 ^ spec.mantissaBits := by
    refine le_of_abs_sub_le hround ?_
    rw [div_le_iff₀ hpos, Nat.cast_pow, Nat.cast_ofNat, ← zpow_natCast, ← zpow_add₀ two_ne_zero]
    exact (lt_two_zpow h).le.trans (zpow_le_zpow_right₀ one_le_two (by omega))
  rcases shiftToTargetExponent_rounded hbound hmin with ⟨hlt, hshift⟩ | ⟨heq, hshift⟩
  · have hrw : roundWithAccuracy spec s m e a
        = if h : r = 0 then .zero s else .finite s r t (Nat.pos_of_ne_zero h) := by
      rw [roundWithAccuracy]
      simp only [hexp, hr, hshift]
    by_cases hzero : r = 0
    · rw [hrw, dif_pos hzero]
      refine ⟨trivial, rfl, r, hround, ?_⟩
      rw [hzero]
      cases s <;> simp [withSign, toRat]
    · rw [hrw, dif_neg hzero, toRat_finite]
      have hlog : r.log2 < spec.mantissaBits := (Nat.log2_lt hzero).mpr hlt
      refine ⟨⟨hlog, hmin, ?_, ?_⟩, rfl, r, hround, rfl⟩
      · -- above the subnormal numbers the first bit stays where it was
        refine hlast.imp id fun hlast => ?_
        have hge : 2 ^ (spec.mantissaBits - 1) ≤ r := by
          refine ge_of_abs_sub_le hround ?_
          rw [le_div_iff₀ hpos, Nat.cast_pow, Nat.cast_ofNat, ← zpow_natCast,
            ← zpow_add₀ two_ne_zero]
          refine (zpow_le_zpow_right₀ one_le_two ?_).trans (two_zpow_le hm h)
          unfold Format.mantissaBits at hlast ⊢
          omega
        have := (Nat.le_log2 hzero).mpr hge
        omega
      · unfold totalExponent
        omega
  · have hp : 0 < 2 ^ (spec.mantissaBits - 1) := by positivity
    have hrw : roundWithAccuracy spec s m e a
        = .finite s (2 ^ (spec.mantissaBits - 1)) (t + 1) hp := by
      rw [roundWithAccuracy]
      simp only [hexp, hr, hshift, dif_neg hp.ne']
    rw [hrw, toRat_finite, carry_mul, ← heq]
    exact ⟨isCanonical_carry s hp hmin hfin, rfl, r, hround, rfl⟩

/-- A multiple of the last place is not rounded. -/
theorem roundWithAccuracy_exact (s : Sign) (hspec : 1 < spec.exponentBits) (hm : 0 < m)
    (hle : e ≤ ulp spec m e) (h : Locates m (x / 2 ^ e) a)
    (hx : x < 2 ^ ((2 : ℤ) ^ (spec.exponentBits - 1) - 1)) {N : ℕ}
    (hN : x = N * 2 ^ ulp spec m e) :
    toRat (roundWithAccuracy spec s m e a) = withSign s x := by
  obtain ⟨-, -, r, hround, hvalue⟩ := roundWithAccuracy_spec s hspec hm hle h hx
  have hpos : (0 : ℚ) < 2 ^ ulp spec m e := by positivity
  rw [hN, mul_div_cancel_right₀ _ hpos.ne'] at hround
  have hle : r ≤ N := le_of_abs_sub_le hround le_rfl
  have hge : N ≤ r := ge_of_abs_sub_le hround le_rfl
  rw [hvalue, hN, le_antisymm hle hge]

/-- The least number that a format keeps with a mantissa of full length. -/
def minNormal (spec : Format) : ℚ := 2 ^ (spec.minExponent + spec.mantissaBits - 1)

/-- **The relative error of rounding** a number that is not subnormal. -/
theorem roundWithAccuracy_rel (s : Sign) (hspec : 1 < spec.exponentBits) (hm : 0 < m)
    (hle : e ≤ ulp spec m e) (h : Locates m (x / 2 ^ e) a)
    (hx : x < 2 ^ ((2 : ℤ) ^ (spec.exponentBits - 1) - 1)) (hnormal : minNormal spec ≤ x) :
    IsCanonical spec (roundWithAccuracy spec s m e a) ∧
      (roundWithAccuracy spec s m e a).isFinite = true ∧
      |toRat (roundWithAccuracy spec s m e a) - withSign s x| ≤ x / 2 ^ spec.mantissaBits := by
  obtain ⟨hcanonical, hfinite, r, hround, hvalue⟩ := roundWithAccuracy_spec s hspec hm hle h hx
  refine ⟨hcanonical, hfinite, ?_⟩
  -- the first bit of `x` is as far above the last place as the format has bits
  have hfirst : (2 : ℚ) ^ (ulp spec m e + spec.mantissaBits - 1) ≤ x := by
    obtain ⟨-, -, hlast | hlast⟩ := ulp_cases spec m e
    · rw [hlast]
      exact hnormal
    · rw [hlast]
      exact two_zpow_le hm h
  generalize ulp spec m e = t at *
  have hpos : (0 : ℚ) < 2 ^ t := by positivity
  calc |toRat (roundWithAccuracy spec s m e a) - withSign s x|
      = |(r - x / 2 ^ t) * 2 ^ t| := by
        rw [hvalue, abs_withSign_sub, sub_mul, div_mul_cancel₀ x hpos.ne']
    _ = |(r : ℚ) - x / 2 ^ t| * 2 ^ t := by rw [abs_mul, abs_of_pos hpos]
    _ ≤ 1 / 2 * 2 ^ t := by gcongr
    _ = 2 ^ (t + spec.mantissaBits - 1) / 2 ^ spec.mantissaBits := by
        rw [zpow_sub₀ two_ne_zero, zpow_add₀ two_ne_zero, zpow_natCast, zpow_one]
        field_simp
    _ ≤ x / 2 ^ spec.mantissaBits := by gcongr

end Round

/-! ### Products, quotients and whole numbers -/

section Operations

variable {spec : Format} {u v : UnpackedFloat}

/-- A float of the format that stands for a number close to `x`: within one part in
`2 ^ mantissaBits`. -/
structure Near (spec : Format) (u : UnpackedFloat) (x : ℚ) : Prop where
  canonical : IsCanonical spec u
  finite : u.isFinite = true
  err : |toRat u - x| ≤ |x| / 2 ^ spec.mantissaBits

/-- A number that the format can round without underflow or overflow. -/
structure InRange (spec : Format) (x : ℚ) : Prop where
  normal : x = 0 ∨ minNormal spec ≤ |x|
  lt : |x| < 2 ^ ((2 : ℤ) ^ (spec.exponentBits - 1) - 1)

theorem near_zero (s : Sign) : Near spec (.zero s) 0 := by
  refine ⟨trivial, rfl, ?_⟩
  simp [toRat]

theorem abs_withSign (s : Sign) {q : ℚ} (hq : 0 ≤ q) : |withSign s q| = q := by
  cases s with
  | positive => exact abs_of_nonneg hq
  | negative => rw [withSign, abs_neg, abs_of_nonneg hq]

theorem withSign_mul (s₁ s₂ : Sign) (p q : ℚ) :
    withSign s₁ p * withSign s₂ q = withSign (s₁ * s₂) (p * q) := by
  cases s₁ <;> cases s₂ <;> simp only [withSign, neg_mul, mul_neg, neg_neg]

theorem withSign_div (s₁ s₂ : Sign) (p q : ℚ) :
    withSign s₁ p / withSign s₂ q = withSign (s₁ / s₂) (p / q) := by
  cases s₁ <;> cases s₂ <;> simp only [withSign, neg_div, div_neg, neg_neg] <;> rfl

/-- A number in range, rounded. -/
theorem near_roundWithAccuracy {m : ℕ} {e : ℤ} {a : Accuracy} {x : ℚ} (s : Sign)
    (hspec : 1 < spec.exponentBits) (hm : 0 < m) (hle : e ≤ ulp spec m e)
    (h : Locates m (x / 2 ^ e) a) (hx : InRange spec (withSign s x)) :
    Near spec (roundWithAccuracy spec s m e a) (withSign s x) := by
  have hpos : 0 < x := (zpow_pos two_pos _).trans_le (two_zpow_le hm h)
  have habs : |withSign s x| = x := abs_withSign s hpos.le
  have hne : withSign s x ≠ 0 := by
    rw [← abs_pos, habs]
    exact hpos
  obtain ⟨hcanonical, hfinite, herr⟩ := roundWithAccuracy_rel s hspec hm hle h
    (habs ▸ hx.lt) (habs ▸ hx.normal.resolve_left hne)
  exact ⟨hcanonical, hfinite, by rwa [habs]⟩

/-- A product has as many bits as either factor, so none has to be shifted in. -/
theorem le_ulp_mul (hspec : 1 < spec.exponentBits) {m₁ m₂ : ℕ} {e₁ e₂ : ℤ} (hm₁ : 0 < m₁)
    (hm₂ : 0 < m₂) (h₁ : Canonical spec m₁ e₁) (h₂ : Canonical spec m₂ e₂) :
    e₁ + e₂ ≤ ulp spec (m₁ * m₂) (e₁ + e₂) := by
  have hlog₁ : m₁.log2 ≤ (m₁ * m₂).log2 := by
    rw [Nat.le_log2 (Nat.mul_pos hm₁ hm₂).ne']
    exact (Nat.log2_self_le hm₁.ne').trans (Nat.le_mul_of_pos_right _ hm₂)
  have hlog₂ : m₂.log2 ≤ (m₁ * m₂).log2 := by
    rw [Nat.le_log2 (Nat.mul_pos hm₁ hm₂).ne']
    exact (Nat.log2_self_le hm₂.ne').trans (Nat.le_mul_of_pos_left _ hm₁)
  have htwo : (2 : ℤ) ≤ 2 ^ (spec.exponentBits - 1) := le_self_pow₀ one_le_two (by omega)
  have hbits := spec.hm
  have hleast₁ := h₁.least
  have hleast₂ := h₂.least
  unfold ulp Format.targetExponent totalExponent
  unfold Format.minExponent Format.mantissaBits at *
  omega

/-- The product of two mantissas is exact. -/
theorem locates_mul (m₁ m₂ : ℕ) (e₁ e₂ : ℤ) :
    Locates (m₁ * m₂) (m₁ * 2 ^ e₁ * (m₂ * 2 ^ e₂) / 2 ^ (e₁ + e₂)) .exact := by
  have hpos : (2 : ℚ) ^ (e₁ + e₂) ≠ 0 := by positivity
  rw [Locates, div_eq_iff hpos, zpow_add₀ two_ne_zero]
  push_cast
  ring

/-- **The product of two floats** is near the product of their numbers. -/
theorem near_mul (hspec : 1 < spec.exponentBits) (hu : IsCanonical spec u)
    (hv : IsCanonical spec v) (hfu : u.isFinite = true) (hfv : v.isFinite = true)
    (hx : InRange spec (toRat u * toRat v)) :
    Near spec (UnpackedFloat.mul spec u v) (toRat u * toRat v) := by
  obtain ⟨s₁, rfl⟩ | ⟨s₁, m₁, e₁, hm₁, rfl⟩ := eq_zero_or_finite hfu
  · rw [show toRat (.zero s₁) = 0 from rfl, zero_mul]
    obtain ⟨s₂, rfl⟩ | ⟨s₂, m₂, e₂, hm₂, rfl⟩ := eq_zero_or_finite hfv <;> exact near_zero _
  · obtain ⟨s₂, rfl⟩ | ⟨s₂, m₂, e₂, hm₂, rfl⟩ := eq_zero_or_finite hfv
    · rw [show toRat (.zero s₂) = 0 from rfl, mul_zero]
      exact near_zero _
    · rw [toRat_finite, toRat_finite, withSign_mul] at hx ⊢
      exact near_roundWithAccuracy _ hspec (Nat.mul_pos hm₁ hm₂) (le_ulp_mul hspec hm₁ hm₂ hu hv)
        (locates_mul m₁ m₂ e₁ e₂) hx

/-- The place of the first bit of a number does not depend on how it is written. -/
theorem totalExponent_congr {m m' : ℕ} {e e' : ℤ} (hm : 0 < m) (hm' : 0 < m')
    (h : (m * 2 ^ e : ℚ) = m' * 2 ^ e') : totalExponent m e = totalExponent m' e' := by
  have h₁ := (two_zpow_le hm (locates_exact m e)).trans_lt (h ▸ lt_two_zpow (locates_exact m' e'))
  have h₂ := (two_zpow_le hm' (locates_exact m' e')).trans_lt (h ▸ lt_two_zpow (locates_exact m e))
  have := (zpow_lt_zpow_iff_right₀ one_lt_two).mp h₁
  have := (zpow_lt_zpow_iff_right₀ one_lt_two).mp h₂
  omega

/-- **A product that the format has** is computed without error. -/
theorem mul_exact (hspec : 1 < spec.exponentBits) {s₁ s₂ : Sign} {m₁ m₂ m : ℕ} {e₁ e₂ e : ℤ}
    (hm₁ : 0 < m₁) (hm₂ : 0 < m₂) (hm : 0 < m) (h₁ : Canonical spec m₁ e₁)
    (h₂ : Canonical spec m₂ e₂) (h : Canonical spec m e)
    (hlt : totalExponent m e < 2 ^ (spec.exponentBits - 1))
    (hvalue : (m₁ * 2 ^ e₁ * (m₂ * 2 ^ e₂) : ℚ) = m * 2 ^ e) :
    let w := UnpackedFloat.mul spec (.finite s₁ m₁ e₁ hm₁) (.finite s₂ m₂ e₂ hm₂)
    IsCanonical spec w ∧ w.isFinite = true ∧ toRat w = withSign (s₁ * s₂) (m * 2 ^ e) := by
  intro w
  have hlocates := locates_mul m₁ m₂ e₁ e₂
  have hprod : ((m₁ * m₂ : ℕ) * 2 ^ (e₁ + e₂) : ℚ) = m * 2 ^ e := by
    rw [← hvalue, zpow_add₀ two_ne_zero]
    push_cast
    ring
  have htotal := totalExponent_congr (Nat.mul_pos hm₁ hm₂) hm hprod
  -- the last place of the product is the exponent that the format gives the number
  have hulp : ulp spec (m₁ * m₂) (e₁ + e₂) = e := by
    have hlog := h.log2_lt
    have hmin := h.minExponent_le
    have hleast := h.least
    rw [ulp, htotal]
    unfold Format.targetExponent totalExponent
    omega
  have hx : (m₁ * 2 ^ e₁ * (m₂ * 2 ^ e₂) : ℚ) < 2 ^ ((2 : ℤ) ^ (spec.exponentBits - 1) - 1) := by
    refine (lt_two_zpow hlocates).trans_le (zpow_le_zpow_right₀ one_le_two ?_)
    omega
  have hle := le_ulp_mul hspec hm₁ hm₂ h₁ h₂
  obtain ⟨hcanonical, hfinite, -⟩ := roundWithAccuracy_spec (s₁ * s₂) hspec
    (Nat.mul_pos hm₁ hm₂) hle hlocates hx
  refine ⟨hcanonical, hfinite, ?_⟩
  rw [← hvalue]
  exact roundWithAccuracy_exact (s₁ * s₂) hspec (Nat.mul_pos hm₁ hm₂) hle hlocates hx
    (N := m) (by rw [hulp, hvalue])

/-- Multiplying by one changes no number of the format. -/
theorem mul_one_exact (hspec : 1 < spec.exponentBits) {u : UnpackedFloat}
    (hu : IsCanonical spec u) (hfinite : u.isFinite = true) {n : ℕ} {d : ℤ} (hn : 0 < n)
    (hcanonical : Canonical spec n d) (hone : (n * 2 ^ d : ℚ) = 1) {k : ℤ}
    (hk : k < 2 ^ (spec.exponentBits - 1)) (hlt : |toRat u| < 2 ^ k) :
    let w := UnpackedFloat.mul spec u (.finite .positive n d hn)
    IsCanonical spec w ∧ w.isFinite = true ∧ toRat w = toRat u := by
  obtain ⟨s, rfl⟩ | ⟨s, m, e, hm, rfl⟩ := eq_zero_or_finite hfinite
  · exact ⟨trivial, rfl, rfl⟩
  · have hexponent : totalExponent m e < 2 ^ (spec.exponentBits - 1) := by
      have hle : (2 : ℚ) ^ (totalExponent m e - 1) ≤ |toRat (.finite s m e hm)| := by
        rw [toRat_finite, abs_withSign s (by positivity)]
        exact two_zpow_le hm (locates_exact m e)
      have := (zpow_lt_zpow_iff_right₀ one_lt_two).mp (hle.trans_lt hlt)
      omega
    obtain ⟨hcanonical', hfinite', hvalue⟩ := @mul_exact _ hspec s .positive _ _ _ _ _ _ hm hn hm hu
      hcanonical hu hexponent (by rw [hone, mul_one])
    refine ⟨hcanonical', hfinite', ?_⟩
    rw [hvalue, toRat_finite]
    cases s <;> rfl

/-- The remainder of a division says where the quotient lies. -/
theorem locates_div {n d : ℕ} (hd : 0 < d) :
    Locates (n / d) ((n : ℚ) / d) (accuracyOfFraction (n % d) d) := by
  have hpos : (0 : ℚ) < d := Nat.cast_pos.mpr hd
  have hquot : (n : ℚ) / d = (n / d : ℕ) + (n % d : ℕ) / d := by
    have hdivmod : (n : ℚ) = d * (n / d : ℕ) + (n % d : ℕ) := by
      exact_mod_cast (Nat.div_add_mod n d).symm
    rw [div_eq_iff hpos.ne', add_mul, div_mul_cancel₀ _ hpos.ne', mul_comm]
    exact hdivmod
  have hlt : ((n % d : ℕ) : ℚ) / d < 1 := by
    rw [div_lt_one hpos]
    exact_mod_cast Nat.mod_lt n hd
  rw [hquot, accuracyOfFraction]
  generalize n % d = k at hlt ⊢
  by_cases hk : k = 0
  · rw [if_pos hk, Locates, hk, Nat.cast_zero, zero_div, add_zero]
  · rw [if_neg hk]
    have hkpos : (0 : ℚ) < k / d := by
      have : (0 : ℚ) < k := Nat.cast_pos.mpr (Nat.pos_of_ne_zero hk)
      positivity
    -- the remainder against half the divisor
    rcases lt_trichotomy (2 * k) d with hcmp | hcmp | hcmp
    · rw [compare_lt_iff_lt.mpr hcmp]
      have hhalf : (k : ℚ) / d < 1 / 2 := by
        rw [div_lt_div_iff₀ hpos two_pos, one_mul, mul_comm]
        exact_mod_cast hcmp
      exact ⟨by linarith, by linarith⟩
    · rw [compare_eq_iff_eq.mpr hcmp]
      have hhalf : (k : ℚ) / d = 1 / 2 := by
        rw [div_eq_div_iff hpos.ne' two_ne_zero, one_mul, mul_comm]
        exact_mod_cast hcmp
      rw [Locates, hhalf]
    · rw [compare_gt_iff_gt.mpr hcmp]
      have hhalf : 1 / 2 < (k : ℚ) / d := by
        rw [div_lt_div_iff₀ two_pos hpos, one_mul, mul_comm]
        exact_mod_cast hcmp
      exact ⟨by linarith, by linarith⟩

/-- The place of the first bit of a quotient, to one place. -/
theorem two_zpow_lt_div {m₁ m₂ : ℕ} {e₁ e₂ : ℤ} (hm₁ : 0 < m₁) (hm₂ : 0 < m₂) :
    (2 : ℚ) ^ (totalExponent m₁ e₁ - totalExponent m₂ e₂ - 1)
      < m₁ * 2 ^ e₁ / (m₂ * 2 ^ e₂) := by
  have hnum := two_zpow_le hm₁ (locates_exact m₁ e₁)
  have hden := lt_two_zpow (locates_exact m₂ e₂)
  have hpos : (0 : ℚ) < m₂ * 2 ^ e₂ := by positivity
  calc (2 : ℚ) ^ (totalExponent m₁ e₁ - totalExponent m₂ e₂ - 1)
      = 2 ^ (totalExponent m₁ e₁ - 1) / 2 ^ totalExponent m₂ e₂ := by
        rw [← zpow_sub₀ two_ne_zero]
        congr 1
        ring
    _ ≤ m₁ * 2 ^ e₁ / 2 ^ totalExponent m₂ e₂ := by gcongr
    _ < m₁ * 2 ^ e₁ / (m₂ * 2 ^ e₂) := by gcongr

/-- **The quotient of two floats** is near the quotient of their numbers. -/
theorem near_div (hspec : 1 < spec.exponentBits) (hfu : u.isFinite = true)
    (hfv : v.isFinite = true) (hv : toRat v ≠ 0) (hx : InRange spec (toRat u / toRat v)) :
    Near spec (UnpackedFloat.div spec u v) (toRat u / toRat v) := by
  obtain ⟨s₂, rfl⟩ | ⟨s₂, m₂, e₂, hm₂, rfl⟩ := eq_zero_or_finite hfv
  · exact absurd rfl hv
  obtain ⟨s₁, rfl⟩ | ⟨s₁, m₁, e₁, hm₁, rfl⟩ := eq_zero_or_finite hfu
  · rw [show toRat (.zero s₁) = 0 from rfl, zero_div]
    exact near_zero _
  rw [toRat_finite, toRat_finite, withSign_div] at hx ⊢
  -- the exponent of the quotient, and the bits that are shifted in for it
  have hfirst := @two_zpow_lt_div m₁ m₂ e₁ e₂ hm₁ hm₂
  obtain ⟨T, hT⟩ : ∃ T, totalExponent m₁ e₁ - totalExponent m₂ e₂ = T := ⟨_, rfl⟩
  obtain ⟨t, ht⟩ : ∃ t, min (e₁ - e₂) (spec.targetExponent T) = t := ⟨_, rfl⟩
  obtain ⟨k, hk⟩ := Int.eq_ofNat_of_zero_le (sub_nonneg.mpr (ht ▸ min_le_left _ _ : t ≤ e₁ - e₂))
  have hcore : divCore spec m₁ e₁ m₂ e₂
      = (m₁ <<< k / m₂, t, accuracyOfFraction (m₁ <<< k % m₂) m₂) := by
    rw [divCore]
    simp only [hT, ht, hk, Int.toNat_natCast]
  have hdiv : UnpackedFloat.div spec (.finite s₁ m₁ e₁ hm₁) (.finite s₂ m₂ e₂ hm₂)
      = roundWithAccuracy spec (s₁ / s₂) (m₁ <<< k / m₂) t
          (accuracyOfFraction (m₁ <<< k % m₂) m₂) := by
    rw [UnpackedFloat.div]
    simp only [hcore]
  rw [hT] at hfirst
  generalize hxdef : (m₁ * 2 ^ e₁ / (m₂ * 2 ^ e₂) : ℚ) = x at hx hfirst ⊢
  have hxpos : 0 < x := (zpow_pos two_pos _).trans hfirst
  have hlocates : Locates (m₁ <<< k / m₂) (x / 2 ^ t) (accuracyOfFraction (m₁ <<< k % m₂) m₂) := by
    have hy : x / 2 ^ t = (m₁ <<< k : ℕ) / m₂ := by
      rw [← hxdef, show e₁ = e₂ + (t + k) by omega, zpow_add₀ two_ne_zero, zpow_add₀ two_ne_zero,
        zpow_natCast, Nat.shiftLeft_eq]
      push_cast
      field_simp
    rw [hy]
    exact locates_div hm₂
  have hquot : 0 < m₁ <<< k / m₂ := by
    have hle : (2 : ℚ) ^ t ≤ x := by
      have hmax : t ≤ max (T - spec.mantissaBits) spec.minExponent := ht ▸ min_le_right _ _
      have hbits : 1 ≤ spec.mantissaBits := by
        unfold Format.mantissaBits
        omega
      rcases le_max_iff.mp hmax with hle | hle
      · exact (zpow_le_zpow_right₀ one_le_two (by omega)).trans hfirst.le
      · have hnormal : minNormal spec ≤ x := by
          have habs : |withSign (s₁ / s₂) x| = x := abs_withSign _ hxpos.le
          have hne : withSign (s₁ / s₂) x ≠ 0 := by
            rw [← abs_pos, habs]
            exact hxpos
          exact habs ▸ hx.normal.resolve_left hne
        exact (zpow_le_zpow_right₀ one_le_two (by omega)).trans hnormal
    have hone : (1 : ℚ) ≤ x / 2 ^ t := (one_le_div (by positivity)).mpr hle
    have hlt : (0 : ℚ) < (m₁ <<< k / m₂ : ℕ) := by linarith [hlocates.floor.2]
    exact_mod_cast hlt
  rw [hdiv]
  refine near_roundWithAccuracy _ hspec hquot ?_ hlocates hx
  -- the quotient has its first bit where the exponent was made for, or one place up
  have hT' := (zpow_lt_zpow_iff_right₀ one_lt_two).mp (hfirst.trans (lt_two_zpow hlocates))
  unfold ulp
  unfold Format.targetExponent at ht ⊢
  omega

/-- A whole number with no more bits than the format is kept as it is. -/
theorem ofInt_spec (hfin : spec.mantissaBits ≤ 2 ^ (spec.exponentBits - 1)) {n : ℤ}
    (hn : |n| < 2 ^ spec.mantissaBits) :
    IsCanonical spec (UnpackedFloat.ofInt spec n) ∧
      (UnpackedFloat.ofInt spec n).isFinite = true ∧
      toRat (UnpackedFloat.ofInt spec n) = n := by
  have hround : ∀ (s : Sign) {m : ℕ}, 0 < m → m < 2 ^ spec.mantissaBits →
      IsCanonical spec (UnpackedFloat.round spec s m 0) ∧
        (UnpackedFloat.round spec s m 0).isFinite = true ∧
        toRat (UnpackedFloat.round spec s m 0) = withSign s m := by
    intro s m hm hlt
    have hlog := (Nat.log2_lt hm.ne').mpr hlt
    have hmin : spec.minExponent ≤ 0 := by
      have htwo : (1 : ℤ) ≤ 2 ^ (spec.exponentBits - 1) := one_le_pow₀ one_le_two
      have hbits := spec.hm
      unfold Format.minExponent Format.mantissaBits
      omega
    have hle : spec.targetExponent (totalExponent m 0) ≤ 0 := by
      unfold Format.targetExponent totalExponent
      omega
    obtain ⟨k, hm', hrw, hcanonical⟩ := round_of_targetExponent_le (s := s) hm hle (by
      unfold totalExponent
      zify at hfin
      omega)
    rw [hrw]
    refine ⟨hcanonical, rfl, ?_⟩
    rw [toRat_shiftLeft k hm hm', toRat_finite, zpow_zero, mul_one]
  unfold UnpackedFloat.ofInt UnpackedFloat.normalize
  rcases lt_trichotomy n 0 with hneg | rfl | hpos
  · rw [compare_lt_iff_lt.mpr hneg]
    obtain ⟨hcanonical, hfinite, hvalue⟩ := hround .negative (m := (-n).toNat) (by omega) (by
      zify
      rw [Int.toNat_of_nonneg (by omega)]
      exact (neg_le_abs n).trans_lt hn)
    refine ⟨hcanonical, hfinite, hvalue.trans ?_⟩
    have hcast : (((-n).toNat : ℤ) : ℚ) = ((-n : ℤ) : ℚ) := by rw [Int.toNat_of_nonneg (by omega)]
    rw [withSign, ← Int.cast_natCast, hcast, Int.cast_neg, neg_neg]
  · exact ⟨trivial, rfl, by simp [toRat]⟩
  · rw [compare_gt_iff_gt.mpr hpos]
    obtain ⟨hcanonical, hfinite, hvalue⟩ := hround .positive (m := n.toNat) (by omega) (by
      zify
      rw [Int.toNat_of_nonneg hpos.le]
      exact (le_abs_self n).trans_lt hn)
    refine ⟨hcanonical, hfinite, hvalue.trans ?_⟩
    have hcast : ((n.toNat : ℤ) : ℚ) = (n : ℚ) := by rw [Int.toNat_of_nonneg hpos.le]
    rw [withSign, ← Int.cast_natCast, hcast]

/-! ### Packing what was computed -/

/-- **Packing keeps the numbers of the format**, its zeros included. -/
theorem unpack_pack_of_isCanonical (hspec : 1 < spec.exponentBits) (hu : IsCanonical spec u)
    (hfu : u.isFinite = true) :
    UnpackedFloat.unpack spec (UnpackedFloat.pack spec u) = u := by
  obtain ⟨s, rfl⟩ | ⟨s, m, e, hm, rfl⟩ := eq_zero_or_finite hfu
  · exact UnpackedFloat.unpack_packedZero
  · exact unpack_pack hm hspec hu

end Operations

end FloatValue
