import Mathlib

/-!
# The numbers behind machine floats

The unpacked floats of `Float.Model`, read as rational numbers (`toRat`). A format keeps
a number with one mantissa and exponent only (`Canonical`), which makes comparison,
packing and rounding say something about the numbers:

* floats of one format compare as the numbers they stand for (`lt_iff`);
* unpacking gives floats of the format (`isCanonical_unpack`), and packing loses none of
  them (`unpack_pack`);
* rounding to a wider format keeps the number (`round_of_narrower`, `toRat_shiftLeft`).
-/

namespace FloatValue

open Float.Model Float.Model.UnpackedFloat

/-! ### Numbers of a format -/

/-- The number an unpacked float stands for, and zero if it stands for none. -/
def toRat : UnpackedFloat → ℚ
  | .finite .positive m e _ => m * 2 ^ e
  | .finite .negative m e _ => -(m * 2 ^ e)
  | _ => 0

/-- The number `m * 2 ^ e` as a format keeps it: the mantissa fits, the exponent is the
least one with which it does, and the number is below the format's infinity. -/
structure Canonical (spec : Format) (m : ℕ) (e : ℤ) : Prop where
  log2_lt : m.log2 < spec.mantissaBits
  minExponent_le : spec.minExponent ≤ e
  least : e = spec.minExponent ∨ m.log2 + 1 = spec.mantissaBits
  finite : totalExponent m e ≤ 2 ^ (spec.exponentBits - 1)

/-- An unpacked float that a format has. -/
def IsCanonical (spec : Format) : UnpackedFloat → Prop
  | .finite _ m e _ => Canonical spec m e
  | _ => True

/-- The floats that stand for a number. -/
theorem eq_zero_or_finite {u : UnpackedFloat} (h : u.isFinite = true) :
    (∃ s, u = .zero s) ∨ ∃ s m e hm, u = .finite s m e hm := by
  cases u with
  | infinity s => exact absurd h Bool.false_ne_true
  | notANumber => exact absurd h Bool.false_ne_true
  | zero s => exact Or.inl ⟨s, rfl⟩
  | finite s m e hm => exact Or.inr ⟨s, m, e, hm, rfl⟩

/-! ### Comparing -/

section Compare

variable {spec : Format} {m m₁ m₂ : ℕ} {e e₁ e₂ : ℤ}

theorem Canonical.lt_two_pow (h : Canonical spec m e) : m < 2 ^ spec.mantissaBits :=
  Nat.lt_log2_self.trans_le (Nat.pow_le_pow_right (by decide) h.log2_lt)

/-- Above the least exponent the mantissa uses all its bits. -/
theorem Canonical.two_pow_le (h : Canonical spec m e) (hm : 0 < m) (he : spec.minExponent < e) :
    2 ^ spec.mantissaBits ≤ 2 * m := by
  have hlog : m.log2 + 1 = spec.mantissaBits := h.least.resolve_left he.ne'
  rw [← hlog, pow_succ, mul_comm]
  exact Nat.mul_le_mul_left 2 (Nat.log2_self_le hm.ne')

/-- Of two numbers the one with the smaller exponent is the smaller. -/
theorem magnitude_lt (h₁ : Canonical spec m₁ e₁) (h₂ : Canonical spec m₂ e₂) (hm₂ : 0 < m₂)
    (he : e₁ < e₂) : (m₁ * 2 ^ e₁ : ℚ) < m₂ * 2 ^ e₂ := by
  have hlow : 2 ^ spec.mantissaBits ≤ 2 * m₂ :=
    h₂.two_pow_le hm₂ (h₁.minExponent_le.trans_lt he)
  have hm : m₁ < 2 * m₂ := h₁.lt_two_pow.trans_le hlow
  -- one more in the exponent makes up for any mantissa
  have hpow : (2 : ℚ) * 2 ^ e₁ ≤ 2 ^ e₂ := by
    rw [← zpow_one_add₀ two_ne_zero]
    exact zpow_le_zpow_right₀ one_le_two (by omega)
  calc (m₁ * 2 ^ e₁ : ℚ) < (2 * m₂ : ℕ) * 2 ^ e₁ := by gcongr
    _ = m₂ * (2 * 2 ^ e₁) := by push_cast; ring
    _ ≤ m₂ * 2 ^ e₂ := by gcongr

/-- Exponents are compared first, then mantissas. -/
theorem magnitude_lt_iff (h₁ : Canonical spec m₁ e₁) (h₂ : Canonical spec m₂ e₂)
    (hm₁ : 0 < m₁) (hm₂ : 0 < m₂) :
    (m₁ * 2 ^ e₁ : ℚ) < m₂ * 2 ^ e₂ ↔ (compare e₁ e₂).then (compare m₁ m₂) = .lt := by
  rcases lt_trichotomy e₁ e₂ with he | rfl | he
  · rw [compare_lt_iff_lt.mpr he]
    exact iff_of_true (magnitude_lt h₁ h₂ hm₂ he) rfl
  · rw [compare_eq_iff_eq.mpr rfl]
    have hpos : (0 : ℚ) < 2 ^ e₁ := by positivity
    rw [mul_lt_mul_iff_left₀ hpos, Nat.cast_lt]
    exact compare_lt_iff_lt.symm
  · rw [compare_gt_iff_gt.mpr he]
    exact iff_of_false (magnitude_lt h₂ h₁ hm₁ he).not_gt (by simp)

/-- Bounds that lie in the same gap between two multiples of `2 ^ a` are the same bound
for these multiples. -/
theorem lt_iff_lt_of_gap {M : ℕ} {a : ℤ} {q : ℚ} (hlow : (M - 1) * 2 ^ a < q)
    (hhigh : q ≤ M * 2 ^ a) (hsmall : e < a → (m * 2 ^ e : ℚ) < q) :
    (m * 2 ^ e : ℚ) < M * 2 ^ a ↔ (m * 2 ^ e : ℚ) < q := by
  refine ⟨fun h => ?_, fun h => h.trans_le hhigh⟩
  by_cases he : e < a
  · exact hsmall he
  · -- a multiple of `2 ^ a` below `M * 2 ^ a` is at most the one before it
    obtain ⟨j, hj⟩ := Int.eq_ofNat_of_zero_le (sub_nonneg.mpr (not_lt.mp he))
    have hpos : (0 : ℚ) < 2 ^ a := by positivity
    have heq : (m * 2 ^ e : ℚ) = (m * 2 ^ j : ℕ) * 2 ^ a := by
      rw [show e = a + j by omega, zpow_add₀ two_ne_zero, zpow_natCast]
      push_cast
      ring
    rw [heq] at h ⊢
    have hlt : m * 2 ^ j < M := by
      exact_mod_cast lt_of_mul_lt_mul_right h hpos.le
    have hle : ((m * 2 ^ j : ℕ) : ℚ) ≤ M - 1 := by
      rw [le_sub_iff_add_le]
      exact_mod_cast hlt
    calc ((m * 2 ^ j : ℕ) : ℚ) * 2 ^ a ≤ (M - 1) * 2 ^ a := by gcongr
      _ < q := hlow

/-- **Floats compare as their numbers.** -/
theorem lt_iff {a b : UnpackedFloat} (ha : IsCanonical spec a) (hb : IsCanonical spec b)
    (hra : a.isFinite = true) (hrb : b.isFinite = true) :
    a.lt b = true ↔ toRat a < toRat b := by
  have hpos : ∀ {m : ℕ} {e : ℤ}, 0 < m → (0 : ℚ) < m * 2 ^ e := by
    intro m e hm
    positivity
  have hlt : ∀ o : Ordering, (some o == some Ordering.lt) = true ↔ o = .lt := by
    intro o
    cases o <;> decide
  unfold UnpackedFloat.lt
  -- zeros and signs decide all but two cases
  obtain ⟨s, rfl⟩ | ⟨s, m₁, e₁, hm₁, rfl⟩ := eq_zero_or_finite hra
  · obtain ⟨s', rfl⟩ | ⟨s', m, e, hm, rfl⟩ := eq_zero_or_finite hrb
    · exact iff_of_false (by simp [UnpackedFloat.compare]) (lt_irrefl _)
    · cases s' with
      | positive => exact iff_of_true rfl (hpos hm)
      | negative =>
        exact iff_of_false (by simp [UnpackedFloat.compare]) (neg_neg_of_pos (hpos hm)).not_gt
  · obtain ⟨s', rfl⟩ | ⟨s', m₂, e₂, hm₂, rfl⟩ := eq_zero_or_finite hrb
    · cases s with
      | positive => exact iff_of_false (by simp [UnpackedFloat.compare]) (hpos hm₁).not_gt
      | negative => exact iff_of_true rfl (neg_neg_of_pos (hpos hm₁))
    · cases s with
      | positive =>
        cases s' with
        | positive => exact (hlt _).trans (magnitude_lt_iff ha hb hm₁ hm₂).symm
        | negative =>
          refine iff_of_false (by simp [UnpackedFloat.compare]) ?_
          exact ((neg_neg_of_pos (hpos hm₂)).trans (hpos hm₁)).not_gt
      | negative =>
        cases s' with
        | positive => exact iff_of_true rfl ((neg_neg_of_pos (hpos hm₁)).trans (hpos hm₂))
        | negative =>
          -- negative numbers compare the other way round
          have hswap : ((compare e₁ e₂).then (compare m₁ m₂)).swap
              = (compare e₂ e₁).then (compare m₂ m₁) := by
            rw [Ordering.swap_then, ← Std.OrientedCmp.eq_swap, ← Std.OrientedCmp.eq_swap]
          refine (hlt _).trans ?_
          rw [hswap, ← magnitude_lt_iff hb ha hm₂ hm₁]
          exact neg_lt_neg_iff.symm

end Compare

/-! ### Packing -/

section Format

variable (spec : Format)

theorem exponentBias_eq : (spec.exponentBias : ℤ) = 2 ^ (spec.exponentBits - 1) - 1 := by
  have hpos : 1 ≤ 2 ^ (spec.exponentBits - 1) := Nat.one_le_two_pow
  simp [Format.exponentBias, hpos]

/-- The exponent of a subnormal number. -/
theorem minExponent_eq :
    spec.minExponent = 1 - (spec.exponentBias + spec.mantissaBitsWithoutImplicit) := by
  rw [exponentBias_eq, Format.minExponent, Format.mantissaBits]
  push_cast
  ring

theorem two_pow_exponentBits : (2 : ℤ) ^ spec.exponentBits = 2 * 2 ^ (spec.exponentBits - 1) := by
  rw [← pow_succ', Nat.sub_add_cancel spec.he]

end Format

section Pack

variable {spec : Format}

/-- A mantissa with its implicit bit. -/
theorem toNat_implicit (v : BitVec spec.mantissaBitsWithoutImplicit) :
    (1#1 ++ v).toNat = 2 ^ spec.mantissaBitsWithoutImplicit + v.toNat := by
  rw [BitVec.toNat_append, Nat.shiftLeft_eq, mul_comm, ← Nat.two_pow_add_eq_or_of_lt v.isLt]
  simp

theorem log2_implicit (v : BitVec spec.mantissaBitsWithoutImplicit) :
    (1#1 ++ v).toNat.log2 = spec.mantissaBitsWithoutImplicit := by
  have hlt := v.isLt
  rw [toNat_implicit]
  refine (Nat.log2_eq_iff (by positivity)).mpr ⟨Nat.le_add_right _ _, ?_⟩
  rw [pow_succ]
  omega

/-- **Unpacking gives numbers of the format.** -/
theorem isCanonical_unpack (b : BitVec spec.numBits) :
    IsCanonical spec (UnpackedFloat.unpack spec b) := by
  have hmin := minExponent_eq spec
  have hbias := exponentBias_eq spec
  have hpow := two_pow_exponentBits spec
  have hone : (1 : ℤ) ≤ 2 ^ (spec.exponentBits - 1) := one_le_pow₀ one_le_two
  unfold UnpackedFloat.unpack
  simp only
  split
  · split <;> trivial
  · rename_i hinf
    split
    · rename_i hzero
      split
      · trivial
      · -- a subnormal number: its mantissa is short
        rename_i hmant
        have hne : (unpackMantissa b).toNat ≠ 0 := fun h => hmant (BitVec.eq_of_toNat_eq h)
        have hlog : (unpackMantissa b).toNat.log2 < spec.mantissaBitsWithoutImplicit :=
          (Nat.log2_lt hne).mpr (unpackMantissa b).isLt
        have hexp : ((unpackExponent b).toNat : ℤ) = 0 := by rw [hzero]; rfl
        refine ⟨?_, ?_, Or.inl ?_, ?_⟩
        · unfold Format.mantissaBits
          omega
        · omega
        · omega
        · unfold totalExponent
          omega
    · -- a normal number: its implicit bit fills the mantissa
      rename_i hnormal
      have hpos : 0 < (unpackExponent b).toNat := by
        refine Nat.pos_of_ne_zero fun h => hnormal (BitVec.eq_of_toNat_eq h)
      have hlt : (unpackExponent b).toNat + 1 < 2 ^ spec.exponentBits := by
        have hne : (unpackExponent b).toNat ≠ 2 ^ spec.exponentBits - 1 := fun h =>
          hinf (BitVec.eq_of_toNat_eq (by simpa [BitVec.neg_one_eq_allOnes] using h))
        have := (unpackExponent b).isLt
        omega
      zify at hlt
      refine ⟨?_, ?_, Or.inr ?_, ?_⟩
      · rw [log2_implicit]
        unfold Format.mantissaBits
        omega
      · omega
      · rw [log2_implicit, Format.mantissaBits, add_comm]
      · rw [totalExponent, log2_implicit]
        omega

/-- The exponent field of a number is neither that of zero nor that of infinity. -/
theorem unpack_normal (s : Sign) {ev : BitVec spec.exponentBits}
    (mv : BitVec spec.mantissaBitsWithoutImplicit) (hzero : ev ≠ 0#_) (hinf : ev ≠ -1#_) :
    ∃ hm, UnpackedFloat.unpack spec (packComponents spec s ev mv)
      = .finite s (1#1 ++ mv).toNat
          (ev.toNat - (spec.exponentBias + spec.mantissaBitsWithoutImplicit)) hm := by
  refine ⟨by rw [toNat_implicit]; positivity, ?_⟩
  simp only [UnpackedFloat.unpack, unpackExponent_packComponents, unpackMantissa_packComponents,
    unpackSign_packComponents, Sign.ofBitVec_toBitVec, if_neg hzero, if_neg hinf]

theorem unpack_subnormal (s : Sign) {mv : BitVec spec.mantissaBitsWithoutImplicit}
    (hmv : mv ≠ 0#_) :
    ∃ hm, UnpackedFloat.unpack spec (packComponents spec s 0#_ mv)
      = .finite s mv.toNat spec.minExponent hm := by
  have hm : 0 < mv.toNat := Nat.pos_of_ne_zero fun h => hmv (BitVec.eq_of_toNat_eq h)
  have hinf : (0#_ : BitVec spec.exponentBits) ≠ -1#_ := by
    have hone : 1 < 2 ^ spec.exponentBits := Nat.one_lt_two_pow spec.he.ne'
    rw [ne_eq, ← BitVec.toNat_inj, BitVec.neg_one_eq_allOnes, BitVec.toNat_allOnes,
      BitVec.toNat_zero]
    omega
  have hexp : spec.minExponent = ((0#_ : BitVec spec.exponentBits).toNat : ℤ)
      - (spec.exponentBias + spec.mantissaBitsWithoutImplicit) + 1 := by
    rw [minExponent_eq]
    simp
    ring
  refine ⟨hm, ?_⟩
  simp only [UnpackedFloat.unpack, unpackExponent_packComponents, unpackMantissa_packComponents,
    unpackSign_packComponents, Sign.ofBitVec_toBitVec, if_neg hinf, if_true, dif_neg hmv, hexp]

/-- The exponent field of a number of the format. -/
theorem Canonical.exists_exponentField {m : ℕ} {e : ℤ} (h : Canonical spec m e)
    (hspec : 1 < spec.exponentBits) :
    ∃ b : ℕ, e + spec.exponentBias + spec.mantissaBitsWithoutImplicit = b ∧
      1 ≤ b ∧ b + 1 < 2 ^ spec.exponentBits := by
  have hmin := minExponent_eq spec
  have hbias := exponentBias_eq spec
  have hpow := two_pow_exponentBits spec
  have htwo : (2 : ℤ) ≤ 2 ^ (spec.exponentBits - 1) :=
    le_self_pow₀ one_le_two (by omega)
  have hlow := h.minExponent_le
  have hfin := h.finite
  unfold totalExponent at hfin
  obtain ⟨b, hb⟩ : ∃ b : ℕ, e + spec.exponentBias + spec.mantissaBitsWithoutImplicit = b :=
    Int.eq_ofNat_of_zero_le (by omega)
  refine ⟨b, hb, ?_⟩
  zify
  rcases h.least with heq | heq
  · -- the field that packing replaces by zero
    omega
  · unfold Format.mantissaBits at heq
    omega

/-- A mantissa of full length is its last bits and the implicit one. -/
theorem toNat_implicit_ofNat {m : ℕ} (hm : 0 < m)
    (hlog : m.log2 = spec.mantissaBitsWithoutImplicit) :
    (1#1 ++ BitVec.ofNat spec.mantissaBitsWithoutImplicit m).toNat = m := by
  obtain ⟨hle, hlt⟩ := (Nat.log2_eq_iff hm.ne').mp hlog
  rw [pow_succ] at hlt
  -- taking the implicit bit off is subtracting it
  rw [toNat_implicit, BitVec.toNat_ofNat, Nat.mod_eq_sub_mod hle, Nat.mod_eq_of_lt (by omega)]
  omega

/-- **Packing keeps the numbers of the format.** -/
theorem unpack_pack {s : Sign} {m : ℕ} {e : ℤ} (hm : 0 < m) (hspec : 1 < spec.exponentBits)
    (h : Canonical spec m e) :
    UnpackedFloat.unpack spec (UnpackedFloat.pack spec (.finite s m e hm))
      = .finite s m e hm := by
  have hlog := h.log2_lt
  unfold Format.mantissaBits at hlog
  obtain ⟨b, hb, hpos, hlt⟩ := h.exists_exponentField hspec
  have hrange : ¬ 2 ^ spec.exponentBits ≤ b + 1 := by omega
  unfold UnpackedFloat.pack
  simp only [hb, Int.toNat_natCast, if_neg hrange]
  by_cases hnormal : m.log2 + 1 = spec.mantissaBits
  · rw [if_pos hnormal]
    unfold Format.mantissaBits at hnormal
    have hev : (BitVec.ofNat spec.exponentBits b).toNat = b := by
      rw [BitVec.toNat_ofNat, Nat.mod_eq_of_lt (by omega)]
    have hzero : BitVec.ofNat spec.exponentBits b ≠ 0#_ := by
      rw [ne_eq, ← BitVec.toNat_inj, hev, BitVec.toNat_zero]
      omega
    have hinf : BitVec.ofNat spec.exponentBits b ≠ -1#_ := by
      rw [ne_eq, ← BitVec.toNat_inj, hev, BitVec.neg_one_eq_allOnes, BitVec.toNat_allOnes]
      omega
    have hmant : (1#1 ++ BitVec.ofNat spec.mantissaBitsWithoutImplicit m).toNat = m :=
      toNat_implicit_ofNat hm (by omega)
    obtain ⟨hm', hunpack⟩ := unpack_normal s (BitVec.ofNat _ m) hzero hinf
    rw [hunpack]
    congr 1
    omega
  · rw [if_neg hnormal]
    have hlt' : m < 2 ^ spec.mantissaBitsWithoutImplicit := by
      refine (Nat.log2_lt hm.ne').mp ?_
      unfold Format.mantissaBits at hnormal
      omega
    have hmv : (BitVec.ofNat spec.mantissaBitsWithoutImplicit m).toNat = m := by
      rw [BitVec.toNat_ofNat, Nat.mod_eq_of_lt hlt']
    have hne : BitVec.ofNat spec.mantissaBitsWithoutImplicit m ≠ 0#_ := by
      rw [ne_eq, ← BitVec.toNat_inj, hmv, BitVec.toNat_zero]
      exact hm.ne'
    obtain ⟨hm', hunpack⟩ := unpack_subnormal s hne
    rw [hunpack]
    congr 1
    exact (h.least.resolve_right hnormal).symm

end Pack

/-! ### Rounding what needs none -/

section Round

variable {spec spec' : Format} {s : Sign} {m : ℕ} {e : ℤ}

theorem log2_shiftLeft (hm : 0 < m) (k : ℕ) : (m <<< k).log2 = m.log2 + k := by
  obtain ⟨hle, hlt⟩ := (Nat.log2_eq_iff hm.ne').mp rfl
  have hpos : 0 < 2 ^ k := by positivity
  rw [Nat.shiftLeft_eq]
  refine (Nat.log2_eq_iff (by positivity)).mpr ⟨?_, ?_⟩
  · rw [pow_add]
    gcongr
  · rw [show m.log2 + k + 1 = m.log2 + 1 + k by ring, pow_add]
    gcongr

/-- A number that already has the exponent of its format is not shifted. -/
theorem shiftToTargetExponent_self (he : spec.targetExponent (totalExponent m e) = e) :
    shiftToTargetExponent spec m e .exact = (⟨m, false, false⟩, e) := by
  rw [shiftToTargetExponent, he, shiftToExponent, sub_self]
  simp [ExtendedMantissa.ofMantissaAndAccuracy]
  rfl

/-- A number that already has the exponent of its format is not rounded. -/
theorem roundWithAccuracy_self (hm : 0 < m)
    (he : spec.targetExponent (totalExponent m e) = e) :
    roundWithAccuracy spec s m e .exact = .finite s m e hm := by
  have hshift := shiftToTargetExponent_self he
  have hround : (⟨m, false, false⟩ : ExtendedMantissa).roundedMantissa = m := rfl
  simp only [roundWithAccuracy, hshift, hround, dif_neg hm.ne']

/-- A format that is no wider than another in either of its fields. -/
structure Narrower (spec spec' : Format) : Prop where
  mantissaBits : spec.mantissaBits ≤ spec'.mantissaBits
  exponentBits : spec.exponentBits ≤ spec'.exponentBits

theorem Narrower.two_pow_le (h : Narrower spec spec') :
    (2 : ℤ) ^ (spec.exponentBits - 1) ≤ 2 ^ (spec'.exponentBits - 1) :=
  pow_le_pow_right₀ one_le_two (Nat.sub_le_sub_right h.exponentBits 1)

/-- **A number that is short enough is not rounded.** It is kept with a longer mantissa. -/
theorem round_of_targetExponent_le (hm : 0 < m)
    (hle : spec.targetExponent (totalExponent m e) ≤ e)
    (hfin : totalExponent m e ≤ 2 ^ (spec.exponentBits - 1)) :
    ∃ k hm', UnpackedFloat.round spec s m e = .finite s (m <<< k) (e - k) hm' ∧
      Canonical spec (m <<< k) (e - k) := by
  -- `k` more bits, which leave the position of the first one where it was
  obtain ⟨k, hk⟩ := Int.eq_ofNat_of_zero_le (sub_nonneg.mpr hle)
  have htarget : spec.targetExponent (totalExponent m e) = e - k := by omega
  have htotal : totalExponent (m <<< k) (e - k) = totalExponent m e := by
    unfold totalExponent
    rw [log2_shiftLeft hm]
    push_cast
    ring
  have hm' : 0 < m <<< k := by
    rw [Nat.shiftLeft_eq]
    positivity
  refine ⟨k, hm', ?_, ?_⟩
  · rw [UnpackedFloat.round]
    simp only [htarget, decreaseExponent, sub_sub_cancel, Int.toNat_natCast]
    refine roundWithAccuracy_self hm' ?_
    rw [htotal, htarget]
  · have hmax : max (totalExponent m e - spec.mantissaBits) spec.minExponent = e - k := htarget
    rw [← htotal] at hmax hfin
    unfold totalExponent at hmax hfin
    exact
      { log2_lt := by omega
        minExponent_le := by omega
        least := by omega
        finite := hfin }

/-- **A wider format rounds nothing off.** It keeps a number of the narrower format with a
longer mantissa. -/
theorem round_of_narrower (hspec : Narrower spec spec') (hm : 0 < m) (h : Canonical spec m e) :
    ∃ k hm', UnpackedFloat.round spec' s m e = .finite s (m <<< k) (e - k) hm' ∧
      Canonical spec' (m <<< k) (e - k) := by
  have hpow := hspec.two_pow_le
  have hbits := hspec.mantissaBits
  have hlog := h.log2_lt
  have hlow := h.minExponent_le
  refine round_of_targetExponent_le hm ?_ (h.finite.trans hpow)
  unfold Format.targetExponent totalExponent
  unfold Format.minExponent at hlow ⊢
  omega

/-- Longer mantissas change no number. -/
theorem toRat_shiftLeft (k : ℕ) (hm : 0 < m) (hm' : 0 < m <<< k) :
    toRat (.finite s (m <<< k) (e - k) hm') = toRat (.finite s m e hm) := by
  have hmul : ((m <<< k : ℕ) : ℚ) * 2 ^ (e - k) = m * 2 ^ e := by
    rw [Nat.shiftLeft_eq, zpow_sub₀ two_ne_zero, zpow_natCast]
    push_cast
    field_simp
  cases s with
  | positive => exact hmul
  | negative => exact congrArg Neg.neg hmul

end Round

end FloatValue
