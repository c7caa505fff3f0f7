import Mathlib
import RuntimeScriptProfiler.Framework.FloatRounding
import RuntimeScriptProfiler.Profiler.Exactness
import RuntimeScriptProfiler.Profiler.Reader

/-!
# How accurate the printed times are

An entry shows a `float` product, a separator a `double` product and quotient, and both
are printed to ten decimals. Each of these steps rounds. `near_scriptMs` and
`near_frameMs` bound what is lost before printing, `toRat?_printed` what printing loses,
and `readLog_accurate` puts them together: a reader of the file that a run leaves finds
one record for each event of the run's log, with the form ID of the script or the mark of
a frame, and a time that is off by a relative error of `2⁻²⁴` (of `2⁻⁵¹` for a frame) and
half a digit in the last place.
-/

namespace RuntimeScriptProfiler

open FloatValue Float.Model Float.Model.UnpackedFloat

/-! ### What the arithmetic loses -/

section Arith

/-- A result survives packing and unpacking. -/
theorem near_unpack_pack {spec : Format} {u : UnpackedFloat} {x : ℚ}
    (hspec : 1 < spec.exponentBits) (h : Near spec u x) :
    Near spec (UnpackedFloat.unpack spec (UnpackedFloat.pack spec u)) x := by
  rwa [unpack_pack_of_isCanonical hspec h.canonical h.finite]

theorem Float32.isCanonical (x : Float32) : IsCanonical .binary32 x.toModel.unpack :=
  isCanonical_unpack _

theorem Float.isCanonical (x : Float) : IsCanonical .binary64 x.toModel.unpack :=
  isCanonical_unpack _

theorem Float32.near_mul {x y : Float32} (hx : x.isFinite = true) (hy : y.isFinite = true)
    (hrange : InRange .binary32 (Float32.toRat x * Float32.toRat y)) :
    Near .binary32 (x * y).toModel.unpack (Float32.toRat x * Float32.toRat y) :=
  near_unpack_pack (by decide)
    (FloatValue.near_mul (by decide) (Float32.isCanonical x) (Float32.isCanonical y) hx hy hrange)

theorem Float.near_mul {x y : Float} (hx : x.isFinite = true) (hy : y.isFinite = true)
    (hrange : InRange .binary64 (Float.toRat x * Float.toRat y)) :
    Near .binary64 (x * y).toModel.unpack (Float.toRat x * Float.toRat y) :=
  near_unpack_pack (by decide)
    (FloatValue.near_mul (by decide) (Float.isCanonical x) (Float.isCanonical y) hx hy hrange)

theorem Float.near_div {x y : Float} (hx : x.isFinite = true) (hy : y.isFinite = true)
    (hne : Float.toRat y ≠ 0) (hrange : InRange .binary64 (Float.toRat x / Float.toRat y)) :
    Near .binary64 (x / y).toModel.unpack (Float.toRat x / Float.toRat y) :=
  near_unpack_pack (by decide) (FloatValue.near_div (by decide) hx hy hne hrange)

/-- Numbers that `float` rounds without underflow or overflow. -/
theorem inRange_binary32 {q : ℚ} (hlow : 1 / 2 ^ 126 ≤ q) (hhigh : q < 2 ^ 127) :
    InRange .binary32 q := by
  have hpos : 0 < q := by linarith
  have hnormal : minNormal .binary32 = 1 / 2 ^ 126 := by decide +kernel
  have hlarge : (2 : ℚ) ^ ((2 : ℤ) ^ (Format.binary32.exponentBits - 1) - 1) = 2 ^ 127 := by
    decide +kernel
  refine ⟨Or.inr ?_, ?_⟩
  · rwa [abs_of_pos hpos, hnormal]
  · rwa [abs_of_pos hpos, hlarge]

/-- Numbers that `double` rounds so, among them those of the frames. -/
theorem inRange_binary64 {q : ℚ} (hlow : q = 0 ∨ 1 / 2 ^ 53 ≤ q) (hhigh : q < 2 ^ 64) :
    InRange .binary64 q := by
  have hnonneg : 0 ≤ q := by
    rcases hlow with h | h
    · exact h.ge
    · linarith
  have hnormal : minNormal .binary64 ≤ 1 / 2 ^ 53 := by decide +kernel
  have hlarge : (2 : ℚ) ^ 64 ≤ 2 ^ ((2 : ℤ) ^ (Format.binary64.exponentBits - 1) - 1) := by
    decide +kernel
  refine ⟨hlow.imp id fun h => ?_, ?_⟩
  -- zero is exact, and everything else is far above the smallest normal number
  · rw [abs_of_nonneg hnonneg]
    exact hnormal.trans h
  · rw [abs_of_nonneg hnonneg]
    exact hhigh.trans_le hlarge

/-- The milliseconds of a script, to a relative error of `2⁻²⁴`: one rounding to `float`,
and none by the promotion. -/
theorem near_scriptMs {t : Float32} (ht : t.isFinite = true)
    (hlow : HookArith.belowResolution t = false) (hhigh : Float32.toRat t < 2 ^ 117) :
    (HookArith.scriptMs t : Float).isFinite = true ∧
      |Float.toRat (HookArith.scriptMs t) - Float32.toRat t * 1000|
        ≤ Float32.toRat t * 1000 / 2 ^ 24 := by
  -- the entry was let through, so its time is no smaller than the threshold
  have hresolution : (0.0000000000001 : ℚ) ≤ Float32.toRat t := by
    rw [belowResolution_toRat ht] at hlow
    exact not_lt.mp (of_decide_eq_false hlow)
  have hthousand : Float32.toRat 1000 = 1000 := by decide +kernel
  have hpos : 0 < Float32.toRat t * 1000 := by linarith
  have hrange : InRange .binary32 (Float32.toRat t * Float32.toRat 1000) := by
    rw [hthousand]
    apply inRange_binary32
    · calc (1 / 2 ^ 126 : ℚ) ≤ 0.0000000000001 * 1000 := by decide +kernel
        _ ≤ Float32.toRat t * 1000 := by gcongr
    · calc Float32.toRat t * 1000 < 2 ^ 117 * 1000 := by gcongr
        _ ≤ 2 ^ 127 := by decide +kernel
  -- the product is where the rounding is; the promotion keeps the value
  have hproduct := Float32.near_mul ht (by decide +kernel : Float32.isFinite 1000 = true) hrange
  obtain ⟨hfinite, hvalue⟩ := promote_spec (x := t * 1000) hproduct.finite
  refine ⟨hfinite, ?_⟩
  have herr := hproduct.err
  change |Float32.toRat (t * 1000) - Float32.toRat t * Float32.toRat 1000| ≤ _ at herr
  rw [hthousand, abs_of_pos hpos] at herr
  change |Float.toRat (Float32.promote (t * 1000)) - _| ≤ _
  rw [hvalue]
  exact herr

/-- Multiplying by one is exact. -/
theorem Float.mul_one_spec {x : Float} (hx : x.isFinite = true) (hlt : |Float.toRat x| < 2 ^ 53) :
    (x * 1).isFinite = true ∧ Float.toRat (x * 1) = Float.toRat x := by
  obtain ⟨hpos, hone⟩ : ∃ h, (Float.toModel 1).unpack = .finite .positive (2 ^ 52) (-52) h :=
    ⟨by decide, rfl⟩
  have hcanonical : Canonical .binary64 (2 ^ 52) (-52) := by
    have h := Float.isCanonical 1
    rwa [hone] at h
  -- one, as the mantissa and exponent that its bits unpack to
  have hvalue : (((2 ^ 52 : ℕ) : ℚ) * 2 ^ (-52 : ℤ) : ℚ) = 1 := by
    push_cast
    rw [zpow_neg]
    norm_num
  have hspec := mul_one_exact (by decide) (Float.isCanonical x) hx hpos hcanonical hvalue
    (by decide : (53 : ℤ) < 2 ^ (Format.binary64.exponentBits - 1)) (by exact_mod_cast hlt)
  have hproduct : (x * 1).toModel.unpack
      = UnpackedFloat.mul .binary64 x.toModel.unpack (.finite .positive (2 ^ 52) (-52) hpos) := by
    rw [← unpack_pack_of_isCanonical (by decide) hspec.1 hspec.2.1, ← hone]
    rfl
  change (x * 1).toModel.unpack.isFinite = true ∧ FloatValue.toRat (x * 1).toModel.unpack = _
  rw [hproduct]
  exact hspec.2

/-- Whole numbers below `2⁵³` are converted exactly. -/
theorem toFloat_spec {n : ℕ} (hn : n < 2 ^ 53) :
    n.toUInt64.toFloat.isFinite = true ∧ Float.toRat n.toUInt64.toFloat = n := by
  -- the number fits a word, so the word is the number
  have hword : (n.toUInt64.toNat : ℤ) = n := by
    rw [UInt64.toNat_ofNat', Nat.mod_eq_of_lt (by omega)]
  have hconv : n.toUInt64.toFloat.toModel.unpack
      = UnpackedFloat.unpack .binary64 (UnpackedFloat.pack .binary64
          (UnpackedFloat.ofInt .binary64 n)) := by
    rw [← hword]
    rfl
  have habs : |(n : ℤ)| < 2 ^ (Format.binary64).mantissaBits := by
    rw [abs_of_nonneg (Int.natCast_nonneg n)]
    exact_mod_cast hn
  -- it also fits a mantissa, so nothing is rounded
  obtain ⟨hcanonical, hfinite, hvalue⟩ := @ofInt_spec .binary64 (by decide) n habs
  change n.toUInt64.toFloat.toModel.unpack.isFinite = true ∧
    FloatValue.toRat n.toUInt64.toFloat.toModel.unpack = n
  rw [hconv, unpack_pack_of_isCanonical (by decide) hcanonical hfinite]
  exact ⟨hfinite, hvalue.trans (Int.cast_natCast n)⟩

/-- Whole numbers below `2⁵³` are `double`s. -/
theorem ofInt_natCast {n : ℕ} (hn : n < 2 ^ 53) :
    (Float.ofInt n).isFinite = true ∧ Float.toRat (Float.ofInt n) = n := by
  -- a conversion, which is exact, times one
  have hofInt : Float.ofInt n = n.toUInt64.toFloat * 1 := by
    change Float.ofScientific n false 0 = _
    rw [Float.ofScientific, dif_pos ⟨hn, by decide⟩]
    rfl
  obtain ⟨hfinite, hvalue⟩ := toFloat_spec hn
  have hlt : |Float.toRat n.toUInt64.toFloat| < 2 ^ 53 := by
    rw [hvalue, Nat.abs_cast]
    exact_mod_cast hn
  obtain ⟨hfinite', hvalue'⟩ := Float.mul_one_spec hfinite hlt
  rw [hofInt]
  exact ⟨hfinite', hvalue'.trans hvalue⟩

/-- The product of a frame's ticks with a thousand, to a relative error of `2⁻⁵³`. -/
theorem near_ticks {n : ℕ} (hn : n < 2 ^ 53) :
    (Float.ofInt n * 1000.0).isFinite = true ∧
      |Float.toRat (Float.ofInt n * 1000.0) - n * 1000| ≤ n * 1000 / 2 ^ 53 := by
  obtain ⟨hfinite, hvalue⟩ := ofInt_natCast hn
  have hthousand : Float.toRat 1000.0 = 1000 := by decide +kernel
  have hcast : (n : ℚ) < 2 ^ 53 := by exact_mod_cast hn
  have hrange : InRange .binary64 (Float.toRat (Float.ofInt n) * Float.toRat 1000.0) := by
    rw [hvalue, hthousand]
    refine inRange_binary64 ?_ (by linarith)
    -- a frame of no ticks gives an exact zero, a longer one at least a thousand
    rcases Nat.eq_zero_or_pos n with rfl | hpos
    · exact Or.inl (by rw [Nat.cast_zero, zero_mul])
    · have hone : (1 : ℚ) ≤ n := by exact_mod_cast hpos
      exact Or.inr (by linarith)
  have hproduct := Float.near_mul hfinite (by decide +kernel) hrange
  have herr := hproduct.err
  rw [hvalue, hthousand, abs_of_nonneg (by positivity : (0 : ℚ) ≤ n * 1000)] at herr
  exact ⟨hproduct.finite, herr⟩

/-- The errors of a product and of a quotient add up. -/
theorem abs_sub_div_le {a f p q : ℚ} (ha : 0 ≤ a) (hf : 0 < f) (hp : |p - a| ≤ a / 2 ^ 53)
    (hq : |q - p / f| ≤ p / f / 2 ^ 53) : |q - a / f| ≤ a / f / 2 ^ 51 := by
  -- dividing by the exact `f` keeps the first relative error
  have hdiff : |p / f - a / f| ≤ a / f / 2 ^ 53 := by
    rw [← sub_div, abs_div, abs_of_pos hf, div_right_comm]
    gcongr
  -- the second error is relative to the rounded product, which is at most twice the exact one
  have hpf : p / f ≤ 2 * (a / f) := by
    rw [← mul_div_assoc]
    gcongr
    linarith [(abs_le.mp hp).2]
  have hnonneg : 0 ≤ a / f / 2 ^ 51 := by positivity
  calc |q - a / f| = |(q - p / f) + (p / f - a / f)| := by rw [sub_add_sub_cancel]
    _ ≤ |q - p / f| + |p / f - a / f| := abs_add_le _ _
    _ ≤ p / f / 2 ^ 53 + a / f / 2 ^ 53 := add_le_add hq hdiff
    _ ≤ 2 * (a / f) / 2 ^ 53 + a / f / 2 ^ 53 := by gcongr
    _ = 3 / 4 * (a / f / 2 ^ 51) := by ring
    _ ≤ a / f / 2 ^ 51 := by linarith

/-- The milliseconds of a frame, to a relative error of `2⁻⁵¹`: the conversions are exact,
and the product and the quotient round once each. -/
theorem near_frameMs {ticks frequency : ℤ} (hticks : 0 ≤ ticks) (hticks' : ticks < 2 ^ 53)
    (hfrequency : 0 < frequency) (hfrequency' : frequency < 2 ^ 53) :
    (HookArith.frameMs Float32 ticks frequency : Float).isFinite = true ∧
      |Float.toRat (HookArith.frameMs Float32 ticks frequency) - ticks * 1000 / frequency|
        ≤ ticks * 1000 / frequency / 2 ^ 51 := by
  obtain ⟨n, rfl⟩ := Int.eq_ofNat_of_zero_le hticks
  obtain ⟨f, rfl⟩ := Int.eq_ofNat_of_zero_le hfrequency.le
  -- the product first, then the quotient by a frequency that is exact
  obtain ⟨hpfinite, hperr⟩ := near_ticks (n := n) (by omega)
  obtain ⟨hffinite, hf⟩ := ofInt_natCast (n := f) (by omega)
  obtain ⟨p, hp⟩ : ∃ p, Float.toRat (Float.ofInt n * 1000.0) = p := ⟨_, rfl⟩
  rw [hp] at hperr
  obtain ⟨hplow, hphigh⟩ := abs_le.mp hperr
  have hncast : (n : ℚ) < 2 ^ 53 := by exact_mod_cast hticks'
  have hnnonneg : (0 : ℚ) ≤ n := Nat.cast_nonneg n
  have hfcast : (f : ℚ) < 2 ^ 53 := by exact_mod_cast hfrequency'
  have hfone : (1 : ℚ) ≤ f := by exact_mod_cast hfrequency
  have hfpos : (0 : ℚ) < f := one_pos.trans_le hfone
  have hpnonneg : 0 ≤ p := by linarith
  have hrange : InRange .binary64
      (Float.toRat (Float.ofInt n * 1000.0) / Float.toRat (Float.ofInt f)) := by
    rw [hp, hf]
    refine inRange_binary64 ?_ ?_
    · -- the rounded product is zero exactly for no ticks
      rcases Nat.eq_zero_or_pos n with rfl | hpos
      · rw [Nat.cast_zero] at hplow hphigh
        exact Or.inl (by rw [show p = 0 by linarith, zero_div])
      · have hone : (1 : ℚ) ≤ n := by exact_mod_cast hpos
        refine Or.inr ?_
        rw [div_le_div_iff₀ (by positivity) hfpos]
        linarith
    · -- it is no larger than the product, as the frequency is at least one
      rw [div_lt_iff₀ hfpos]
      linarith
  have hquotient := Float.near_div hpfinite hffinite (by rw [hf]; exact hfpos.ne') hrange
  have hqerr := hquotient.err
  rw [hp, hf, abs_of_nonneg (div_nonneg hpnonneg hfpos.le)] at hqerr
  refine ⟨hquotient.finite, ?_⟩
  rw [Int.cast_natCast, Int.cast_natCast]
  exact abs_sub_div_le (by positivity) hfpos hperr hqerr

end Arith

/-! ### What printing loses -/

/-- The number that is printed. -/
def Printed.toRat? : Printed → Option ℚ
  | .fixed false u => some (u / 10 ^ 10)
  | .fixed true u => some (-(u / 10 ^ 10))
  | _ => none

/-- A number is printed to the nearest unit. -/
theorem abs_units_sub_le {q : ℚ} (hq : 0 ≤ q) :
    |(units q : ℚ) / 10 ^ 10 - q| ≤ 1 / 2 / 10 ^ 10 := by
  -- adding a half and taking the floor is off by half a unit at most
  have hfloor : ((units q : ℤ) : ℚ) = (⌊q * 10 ^ 10 + 1 / 2⌋ : ℚ) := by
    rw [units, Int.toNat_of_nonneg (Int.floor_nonneg.mpr (by positivity))]
  have hlow := Int.lt_floor_add_one (q * 10 ^ 10 + 1 / 2)
  have hhigh := Int.floor_le (q * 10 ^ 10 + 1 / 2)
  rw [← hfloor, Int.cast_natCast] at hlow hhigh
  have herr : |(units q : ℚ) - q * 10 ^ 10| ≤ 1 / 2 := by
    rw [abs_le]
    constructor <;> linarith
  have hscale : (units q : ℚ) / 10 ^ 10 - q = (units q - q * 10 ^ 10) / 10 ^ 10 := by ring
  rw [hscale, abs_div, abs_of_pos (by positivity : (0 : ℚ) < 10 ^ 10)]
  gcongr

/-- **Printing is to half a digit in the last place**, for every number. -/
theorem toRat?_printed {x : Float} (hx : x.isFinite = true) :
    ∃ q, (Legible.printed x).toRat? = some q ∧ |q - Float.toRat x| ≤ 1 / 2 / 10 ^ 10 := by
  -- the sign is printed apart, so it is enough to print the magnitude well
  have hsigned : ∀ (s : Sign) {q : ℚ}, 0 ≤ q →
      ∃ q', (Printed.fixed (s == .negative) (units q)).toRat? = some q' ∧
        |q' - withSign s q| ≤ 1 / 2 / 10 ^ 10 := by
    intro s q hq
    refine ⟨withSign s (units q / 10 ^ 10), by cases s <;> rfl, ?_⟩
    rw [abs_withSign_sub]
    exact abs_units_sub_le hq
  rw [Float.toRat]
  -- a finite `double` is a zero with a sign, or a mantissa and an exponent
  obtain ⟨s, hu⟩ | ⟨s, m, e, hm, hu⟩ := eq_zero_or_finite hx
  · have hzero : FloatValue.toRat (.zero s) = withSign s 0 := by
      cases s with
      | positive => rfl
      | negative => exact neg_zero.symm
    rw [printed_zero hu, hu, hzero]
    exact hsigned s le_rfl
  · rw [printed_finite hu, hu, toRat_finite]
    exact hsigned s (by positivity)

/-! ### The log, read -/

/-- A record tells of an event what it should: the script and its time, or the time of
the frame. -/
def Record.TellsOf (game : Game) : Event (Execution Float32) → Record → Prop
  | .script _ x, .entry refID elapsedMs =>
    refID = x.script.refID ∧ ∃ q, elapsedMs.toRat? = some q ∧
      |q - Float32.toRat x.elapsed * 1000|
        ≤ Float32.toRat x.elapsed * 1000 / 2 ^ 24 + 1 / 2 / 10 ^ 10
  | .frameEnd start stop, .separator elapsedMs =>
    ∃ q, elapsedMs.toRat? = some q ∧
      |q - (stop - start) * 1000 / game.frequency|
        ≤ (stop - start) * 1000 / game.frequency / 2 ^ 51 + 1 / 2 / 10 ^ 10
  | _, _ => False

/-- The errors of the arithmetic and of printing add up. -/
theorem toRat?_printed_near {x : Float} {q ε : ℚ} (hx : x.isFinite = true)
    (herr : |Float.toRat x - q| ≤ ε) :
    ∃ q', (Legible.printed x).toRat? = some q' ∧ |q' - q| ≤ ε + 1 / 2 / 10 ^ 10 := by
  obtain ⟨q', hq', hprint⟩ := toRat?_printed hx
  refine ⟨q', hq', ?_⟩
  calc |q' - q| = |(q' - Float.toRat x) + (Float.toRat x - q)| := by rw [sub_add_sub_cancel]
    _ ≤ |q' - Float.toRat x| + |Float.toRat x - q| := abs_add_le _ _
    _ ≤ ε + 1 / 2 / 10 ^ 10 := by linarith

/-- The frame ends of a run are those of its frames. -/
theorem exists_frame_of_mem_chronicleFrom {X : Type} {k : ℕ} {is : List (Item X)}
    {start stop : LargeInteger} (h : Event.frameEnd start stop ∈ chronicleFrom k is) :
    ∃ f ∈ is.filterMap Item.frame?, f.start.counter = start ∧ f.stop = stop := by
  induction is generalizing k with
  | nil => exact absurd h List.not_mem_nil
  | cons i is ih =>
    cases i with
    | script x =>
      rw [chronicleFrom, List.mem_cons] at h
      exact ih (h.resolve_left (by simp))
    | frame f =>
      rw [chronicleFrom, List.mem_append] at h
      rcases h with h | h
      · rw [Frame.events, List.mem_append, List.mem_map, List.mem_singleton] at h
        rcases h with ⟨x, -, hx⟩ | h
        · exact absurd hx (by simp)
        · obtain ⟨rfl, rfl⟩ := Event.frameEnd.inj h
          exact ⟨f, List.mem_cons_self, rfl, rfl⟩
      · obtain ⟨g, hg, hends⟩ := ih h
        exact ⟨g, List.mem_cons_of_mem _ hg, hends⟩

theorem exists_frame_of_mem_chronicle {X : Type} {r : Run X} {start stop : LargeInteger}
    (h : Event.frameEnd start stop ∈ r.chronicle) :
    ∃ f ∈ r.frames, f.start.counter = start ∧ f.stop = stop := by
  rw [Run.chronicle, List.mem_append] at h
  rcases h with h | h
  · exact exists_frame_of_mem_chronicleFrom h
  · -- the frame that is still open has no end
    cases hcurrent : r.current with
    | none =>
      rw [hcurrent] at h
      exact absurd h List.not_mem_nil
    | some open? =>
      rw [hcurrent] at h
      obtain ⟨x, -, hx⟩ := List.mem_map.mp h
      exact absurd hx (by simp)

/-- Runs whose numbers the arithmetic of the hooks can take: elapsed times that are
numbers, short of 2^117 seconds, and differences and a frequency of the counter that fit
the mantissa of a `double`. -/
structure Run.Measurable (game : Game) (r : Run (Execution Float32)) : Prop where
  elapsed : ∀ p ∈ r.executions,
    p.2.elapsed.isFinite = true ∧ Float32.toRat p.2.elapsed < 2 ^ 117
  ticks : ∀ f ∈ r.frames, 0 ≤ f.stop - f.start.counter ∧ f.stop - f.start.counter < 2 ^ 53
  frequency : game.frequency < 2 ^ 53

/-- Each event of the log is told of by what its line shows. -/
theorem tellsOf_record {game : Game} {o : Options} {r : Run (Execution Float32)}
    (hr : r.Measurable game) {e : Event (Execution Float32)} (he : e ∈ r.log game o) :
    Record.TellsOf game e (e.record game) := by
  obtain ⟨hmem, hwrites⟩ := List.mem_filter.mp ((Blocks.compactFrom_sublist _ _).mem he)
  -- an entry of the log has passed the threshold; a separator belongs to a frame of the run
  cases e with
  | script k x =>
    obtain ⟨hfinite, hlt⟩ := hr.elapsed (r.starts.take k, x)
      (List.mem_filterMap.mpr ⟨_, hmem, rfl⟩)
    have hlow : HookArith.belowResolution x.elapsed = false := by
      rw [writes_script, Bool.and_eq_true, Bool.and_eq_true, Execution.loggable,
        decide_eq_true_eq] at hwrites
      exact Bool.not_eq_true _ ▸ hwrites.1.2.1
    obtain ⟨hms, herr⟩ := near_scriptMs hfinite hlow hlt
    exact ⟨rfl, toRat?_printed_near hms herr⟩
  | frameEnd start stop =>
    obtain ⟨f, hf, rfl, rfl⟩ := exists_frame_of_mem_chronicle hmem
    obtain ⟨hnonneg, hlt⟩ := hr.ticks f hf
    obtain ⟨hms, herr⟩ := near_frameMs hnonneg hlt game.frequency_pos hr.frequency
    rw [Int.cast_sub] at herr
    exact toRat?_printed_near hms herr

/-- **What a reader of the log learns.** The file that a run leaves reads as one record
for each event of the run's log, in order, and each record tells of its event the form ID
and the time, up to the rounding of one product (of two operations for a frame) and of
the tenth decimal. -/
theorem readLog_accurate (fsopen : String → Bool) (ini : PrivateProfile) (game : Game)
    (r : Run (Execution Float32)) {name : String}
    (hname : (IDebugLog.names logPath).find? fsopen = some name) (hr : r.Measurable game) :
    ∃ (file : FILE Float) (records : List Record),
      (process fsopen ini game r).gLog.logFile = some file ∧
      readLog file.chars = some records ∧
      List.Forall₂ (Record.TellsOf game) (r.log game (handleIniOptions ini)) records := by
  refine ⟨_, _, logFile_process ini game r hname, readLog_runFile game name _ r, ?_⟩
  -- the records are the events' own, so each event can be looked at by itself
  rw [List.forall₂_map_right_iff, List.forall₂_same]
  exact fun e he => tellsOf_record hr he

theorem measurable_sampleRun : sampleRun.Measurable sampleGame where
  elapsed p hp := by
    have hexecutions : sampleRun.executions = [([⟨fun _ _ => 0, 0⟩], sampleExecution)] := rfl
    rw [hexecutions, List.mem_singleton] at hp
    subst hp
    decide +kernel
  ticks f hf := by
    have hframes : sampleRun.frames = [⟨⟨fun _ _ => 0, 0⟩, [sampleExecution], 16⟩] := rfl
    rw [hframes, List.mem_singleton] at hf
    subst hf
    decide
  frequency := by decide

theorem readLog_accurate_sampleRun :
    ∃ (file : FILE Float) (records : List Record),
      (process (fun _ => true) (PrivateProfile.ofOptions sampleOptions) sampleGame
        sampleRun).gLog.logFile = some file ∧
      readLog file.chars = some records ∧
      List.Forall₂ (Record.TellsOf sampleGame)
        (sampleRun.log sampleGame (handleIniOptions (PrivateProfile.ofOptions sampleOptions)))
        records :=
  readLog_accurate _ _ _ _ rfl measurable_sampleRun

end RuntimeScriptProfiler
