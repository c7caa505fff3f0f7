import RuntimeScriptProfiler.Framework.FloatValue
import RuntimeScriptProfiler.Profiler.WholeLog

/-!
# Rounding leaves the events of the log alone

The compiled hook compares a promoted `float` with a `double` close to `10⁻¹³`, and the
proofs about times are over exact numbers. Which executions are logged does not depend on
the difference: promotion is exact (`promote_spec`), and no `float` lies between the
literal of the source and the `double` it is compiled to (`toRat_lt_literal_iff`). The
log of a run whose elapsed times are numbers is then, event by event, the log of the run
with exact times (`log_exact`). What rounding does change is the times printed.
-/

namespace RuntimeScriptProfiler

open Blocks FloatValue Float.Model Float.Model.UnpackedFloat

/-! ### Promotion is exact -/

/-- The number a `float` stands for. -/
def Float32.toRat (x : Float32) : ℚ := FloatValue.toRat x.toModel.unpack

/-- The number a `double` stands for. -/
def Float.toRat (x : Float) : ℚ := FloatValue.toRat x.toModel.unpack

/-- Every `float` is a `double`. -/
theorem narrower_binary32 : Narrower .binary32 .binary64 := ⟨by decide, by decide⟩

theorem unpack_promote (x : Float32) :
    (Float32.promote x).toModel.unpack
      = UnpackedFloat.unpack .binary64 (UnpackedFloat.pack .binary64
          (match x.toModel.unpack with
            | .finite s m e _ => UnpackedFloat.round .binary64 s m e
            | u => u)) := rfl

/-- **Promotion is exact.** -/
theorem promote_spec {x : Float32} (hx : x.isFinite = true) :
    (Float32.promote x).isFinite = true ∧
      Float.toRat (Float32.promote x) = Float32.toRat x := by
  have hcanonical : IsCanonical .binary32 x.toModel.unpack := isCanonical_unpack _
  change x.toModel.unpack.isFinite = true at hx
  change (Float32.promote x).toModel.unpack.isFinite = true ∧
    FloatValue.toRat (Float32.promote x).toModel.unpack = FloatValue.toRat x.toModel.unpack
  rw [unpack_promote]
  obtain ⟨s, hu⟩ | ⟨s, m, e, hm, hu⟩ := eq_zero_or_finite hx
  · rw [hu]
    cases s <;> exact ⟨rfl, rfl⟩
  · rw [hu] at hcanonical ⊢
    obtain ⟨k, hm', hround, hwide⟩ := round_of_narrower (s := s) narrower_binary32 hm hcanonical
    -- the longer mantissa fits as it is, so packing it loses nothing
    simp only [hround]
    rw [unpack_pack hm' (by decide) hwide]
    exact ⟨rfl, toRat_shiftLeft k hm hm'⟩

/-- Two `double`s compare as the numbers they stand for. -/
theorem lt_iff_toRat_lt {x y : Float} (hx : x.isFinite = true) (hy : y.isFinite = true) :
    x < y ↔ Float.toRat x < Float.toRat y := by
  have hlt : x < y ↔ x.toModel.unpack.lt y.toModel.unpack = true := decide_eq_true_iff
  rw [hlt]
  exact lt_iff (isCanonical_unpack _) (isCanonical_unpack _) hx hy

/-! ### The threshold -/

/-- The literal, as it is compiled: the next `double` above the number it is written as. -/
theorem toRat_literal : Float.toRat 0.0000000000001 = 0x1C25C268497682 * 2 ^ (-96 : ℤ) := rfl

/-- No `float` tells the literal from the number it is written as. -/
theorem toRat_lt_literal_iff {x : Float32} (hx : x.isFinite = true) :
    Float32.toRat x < 0x1C25C268497682 * 2 ^ (-96 : ℤ) ↔ Float32.toRat x < 0.0000000000001 := by
  have hcanonical : IsCanonical .binary32 x.toModel.unpack := isCanonical_unpack _
  change x.toModel.unpack.isFinite = true at hx
  have hpos : ∀ {m : ℕ} {e : ℤ}, (0 : ℚ) ≤ m * 2 ^ e := by
    intro m e
    positivity
  unfold Float32.toRat
  obtain ⟨s, hu⟩ | ⟨s, m, e, hm, hu⟩ := eq_zero_or_finite hx
  · rw [hu]
    change (0 : ℚ) < _ ↔ (0 : ℚ) < _
    exact iff_of_true (by decide +kernel) (by decide +kernel)
  · rw [hu] at hcanonical ⊢
    cases s with
    | negative =>
      have hle : -(m * 2 ^ e : ℚ) ≤ 0 := neg_nonpos.mpr hpos
      exact iff_of_true (hle.trans_lt (by decide +kernel)) (hle.trans_lt (by decide +kernel))
    | positive =>
      have hm' : m < 2 ^ 24 := hcanonical.lt_two_pow
      refine lt_iff_lt_of_gap (M := 0x1C25C268497682) (by decide +kernel) (by decide +kernel) ?_
      intro he
      -- too small a number to reach the threshold with a mantissa of 24 bits
      calc (m * 2 ^ e : ℚ) ≤ (2 ^ 24 : ℕ) * 2 ^ (-97 : ℤ) := by
            gcongr
            · exact one_le_two
            · omega
        _ < 0.0000000000001 := by decide +kernel

/-- **The threshold of the compiled hook** is that of the source, for every elapsed time
that is a number. -/
theorem belowResolution_toRat {x : Float32} (hx : x.isFinite = true) :
    HookArith.belowResolution x = HookArith.belowResolution (Float32.toRat x) := by
  obtain ⟨hfinite, hvalue⟩ := promote_spec hx
  apply decide_eq_decide.mpr
  rw [lt_iff_toRat_lt hfinite (by decide +kernel), hvalue, toRat_literal]
  exact toRat_lt_literal_iff hx

/-! ### The log of exact times -/

/-- An execution with the number its elapsed time stands for. -/
def Execution.exact (x : Execution Float32) : Execution ℚ :=
  { x with elapsed := Float32.toRat x.elapsed }

/-- **The log of exact times.** In a run whose elapsed times are numbers, the log has the
entries and separators that it would have without rounding. -/
theorem log_exact (game : Game) (o : Options) (r : Run (Execution Float32))
    (h : ∀ p ∈ r.executions, p.2.elapsed.isFinite = true) :
    (r.map Execution.exact).log game o = (r.log game o).map (Event.map Execution.exact) := by
  rw [log_map, Run.log]
  refine congrArg (fun es => (compact _ es).map _) (List.filter_congr ?_)
  intro e he
  cases e with
  | frameEnd a b => rfl
  | script k x =>
    have hx : x.elapsed.isFinite = true :=
      h (r.starts.take k, x) (List.mem_filterMap.mpr ⟨_, he, rfl⟩)
    rw [Event.map, writes_script, writes_script, Execution.loggable, Execution.loggable,
      belowResolution_toRat hx]
    rfl

/-- Two scripts in a frame, which run for as long as the last `float` below the threshold and the
first above it. -/
def thresholdFrame : Frame (Execution Float32) :=
  ⟨⟨fun _ _ => 0, 0⟩, [{ sampleExecution with elapsed := .ofBits 0x29E12E13 },
    { sampleExecution with elapsed := .ofBits 0x29E12E14 }], 16⟩

/-- Only the second is logged, with and without rounding. -/
theorem log_exact_thresholdFrame :
    let r : Run (Execution Float32) := ⟨[.frame thresholdFrame], none⟩
    (r.map Execution.exact).log sampleGame sampleOptions
        = (r.log sampleGame sampleOptions).map (Event.map Execution.exact) ∧
      r.log sampleGame sampleOptions
        = [.script 1 { sampleExecution with elapsed := .ofBits 0x29E12E14 }, .frameEnd 0 16] := by
  intro r
  constructor
  · refine log_exact sampleGame sampleOptions _ fun p hp => ?_
    have hexecutions : r.executions
        = thresholdFrame.scripts.map (([thresholdFrame.start], ·)) := rfl
    rw [hexecutions] at hp
    obtain ⟨x, hx, rfl⟩ := List.mem_map.mp hp
    have hfinite : ∀ x ∈ thresholdFrame.scripts, x.elapsed.isFinite = true := by decide +kernel
    exact hfinite x hx
  · decide +kernel

end RuntimeScriptProfiler
