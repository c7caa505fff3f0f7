import Mathlib.Data.Rat.Floor
import RuntimeScriptProfiler.Log.Stdio

/-!
# The arithmetic of the hooks

The hooks do four things with time: compare a script's elapsed time with the
literal `0.0000000000001`, scale it to milliseconds, turn a difference of counter
readings into milliseconds, and print. `HookArith F D` collects the four for
elapsed times of type `F` (the `float` the game reports) and printed times of type
`D` (the `double` that reaches the format).

Two instances are given. `Float32` with `Float` is the arithmetic the plugin is
compiled to in the configurations with the toolset `v140` (`Release ng` and `Debug ng`):
`float` times `int` is a `float` product, the comparison and the argument passing
promote to `double`, and `long double` is `double`. In those with `v90` (`Release` and
`Debug`) the x87 unit keeps its intermediate results, so that the product need not be
rounded to a `float` before it is printed. `ℚ` with `ℚ` is the same arithmetic without
rounding.

The text of a printed number is that of its exact value, rounded half up. The C runtime
decides itself which way a tie goes, what it prints for a value that is not a number, and
which digits follow the seventeenth.
-/

namespace RuntimeScriptProfiler

/-! ### Printing -/

/-- The decimal digits of a nonnegative number, rounded half up to `n` places. -/
def fixedAbs (n : ℕ) (q : ℚ) : String :=
  let scaled := ⌊q * 10 ^ n + 1 / 2⌋.toNat
  let whole := toString (scaled / 10 ^ n)
  let frac := String.ofList (List.leftpad n '0' (Nat.toDigits 10 (scaled % 10 ^ n)))
  whole ++ "." ++ frac

instance : PrintfDouble ℚ where
  fixed n q := if q < 0 then "-" ++ fixedAbs n (-q) else fixedAbs n q

open Float.Model in
instance : PrintfDouble Float where
  fixed n x :=
    let signed (s : UnpackedFloat.Sign) (t : String) : String :=
      match s with
      | .positive => t
      | .negative => "-" ++ t
    match x.toModel.unpack with
    | .notANumber => "nan"
    | .infinity s => signed s "inf"
    | .zero s => signed s (fixedAbs n 0)
    | .finite s m e _ => signed s (fixedAbs n (m * (2 : ℚ) ^ e))

/-! ### The operations of the hooks -/

/-- The operations the hooks perform on elapsed times of type `F` and printed times
of type `D`. -/
class HookArith (F : Type) (D : outParam Type) extends PrintfDouble D where
  /-- `ElapsedTime < 0.0000000000001`. -/
  belowResolution : F → Bool
  /-- `ElapsedTime * 1000`, as passed to the format. -/
  scriptMs : F → D
  /-- `ticks * 1000.0 / frequency`, `ticks` a difference of counter readings. -/
  frameMs : ℤ → ℤ → D

/-- The usual conversion of a `float` to a `double`. -/
def Float32.promote (x : Float32) : Float :=
  .ofModel <| .pack <|
    match x.toModel.unpack with
    | .finite s m e _ => Float.Model.UnpackedFloat.round .binary64 s m e
    | u => u

/-- The arithmetic of the compiled hooks. -/
instance : HookArith Float32 Float where
  belowResolution x := Float32.promote x < 0.0000000000001
  scriptMs x := Float32.promote (x * 1000)
  frameMs ticks frequency := Float.ofInt ticks * 1000.0 / Float.ofInt frequency

/-- The same arithmetic, exact. -/
instance : HookArith ℚ ℚ where
  belowResolution x := x < 0.0000000000001
  scriptMs x := x * 1000
  frameMs ticks frequency := ticks * 1000 / frequency

end RuntimeScriptProfiler
