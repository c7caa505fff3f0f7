import Mathlib.Data.List.Basic
import Mathlib.Logic.Relation

/-!
# Passes until nothing is new

A loop goes through what there is to be found, tries each item it does not know, and does
so again until a pass has taken nothing. What there is to be found may depend on what has
been done, and trying an item may fail for good (`Except`).

`pass_rule` is the induction over one pass, and `passes_eq_some` says what a loop that has
ended went through: passes that took something, and a last one that did not. `passes_keeps`
is the invariant rule for the whole loop, and `passes_isSome` says that the loop ends where
only so many items can be taken.
-/

namespace RuntimeScriptProfiler

namespace Passes

variable {S α E : Type}

section Pass

variable (known : S → α → Bool) (attempt : α → S → Except E (Bool × S))

/-- The items that are not known are tried, one after the other, and those taken are
counted. -/
def pass : List α → S → Except E (ℕ × S)
  | [], s => .ok (0, s)
  | a :: as, s =>
    if known s a then pass as s
    else
      match attempt a s with
      | .error e => .error e
      | .ok (taken, s) =>
        match pass as s with
        | .error e => .error e
        | .ok (n, s) => .ok (n + taken.toNat, s)

/-- Passes over what there is to be found, till one takes nothing, `none` if there are more than
`fuel`. -/
def passes (found : S → List α) : ℕ → S → Option (Except E S)
  | 0, _ => none
  | fuel + 1, s =>
    match pass known attempt (found s) s with
    | .error e => some (.error e)
    | .ok (n, s) => if n = 0 then some (.ok s) else passes found fuel s

end Pass

variable {known : S → α → Bool} {attempt : α → S → Except E (Bool × S)}

/-- The induction over a pass: an item is known, or it is tried. -/
theorem pass_rule {R : List α → ℕ → S → S → Prop} (nil : ∀ s, R [] 0 s s)
    (skip : ∀ {a as n s s'}, known s a = true → R as n s s' → R (a :: as) n s s')
    (cons : ∀ {a as taken n s s₁ s'}, known s a = false → attempt a s = .ok (taken, s₁) →
      R as n s₁ s' → R (a :: as) (n + taken.toNat) s s')
    {as : List α} {n : ℕ} {s s' : S} (h : pass known attempt as s = .ok (n, s')) :
    R as n s s' := by
  -- the state changes with each item that is tried, and what an error leaves is not asked for
  induction as generalizing s n with
  | nil =>
    rw [pass] at h
    cases h
    exact nil _
  | cons a as ih =>
    rw [pass] at h
    cases hknown : known s a with
    | true =>
      rw [if_pos hknown] at h
      exact skip hknown (ih h)
    | false =>
      rw [if_neg (Bool.eq_false_iff.mp hknown)] at h
      split at h
      · cases h
      · rename_i taken s₁ hattempt
        split at h
        · cases h
        · rename_i n' s₂ hrest
          cases h
          exact cons hknown hattempt (ih hrest)

/-- Passes that take something, one after the other. -/
def Productive (known : S → α → Bool) (attempt : α → S → Except E (Bool × S))
    (found : S → List α) : S → S → Prop :=
  Relation.ReflTransGen fun s s' => ∃ n, pass known attempt (found s) s = .ok (n + 1, s')

/-- **What the loop goes through.** Each pass but the last has taken something, and the last has
not. -/
theorem passes_eq_some {found : S → List α} {fuel : ℕ} {s s' : S}
    (h : passes known attempt found fuel s = some (.ok s')) :
    ∃ s₀, Productive known attempt found s s₀ ∧
      pass known attempt (found s₀) s₀ = .ok (0, s') := by
  induction fuel generalizing s with
  | zero => cases h
  | succ fuel ih =>
    rw [passes] at h
    split at h
    · cases h
    · rename_i n s₁ hpass
      cases n with
      | zero =>
        cases h
        exact ⟨s, .refl, hpass⟩
      | succ n =>
        -- there is another pass
        obtain ⟨s₀, hbefore, hlast⟩ := ih h
        exact ⟨s₀, .head ⟨n, hpass⟩ hbefore, hlast⟩

section Keeps

variable {P : S → Prop} (hstep : ∀ {a taken s s'}, P s → known s a = false →
  attempt a s = .ok (taken, s') → P s')

include hstep

/-- What trying an item keeps, a pass keeps. -/
theorem pass_keeps {as : List α} {n : ℕ} {s s' : S} (hs : P s)
    (h : pass known attempt as s = .ok (n, s')) : P s' :=
  pass_rule (R := fun _ _ s s' => P s → P s') (fun _ => id) (fun _ hrest => hrest)
    (fun hknown hattempt hrest hs => hrest (hstep hs hknown hattempt)) h hs

/-- And so do passes that take something. -/
theorem productive_keeps {found : S → List α} {s s' : S} (hs : P s)
    (h : Productive known attempt found s s') : P s' := by
  induction h with
  | refl => exact hs
  | tail _ hpass ih =>
    obtain ⟨n, hpass⟩ := hpass
    exact pass_keeps hstep ih hpass

/-- And so does the whole loop, of which the last pass takes nothing. -/
theorem passes_keeps {found : S → List α} {fuel : ℕ} {s s' : S} (hs : P s)
    (h : passes known attempt found fuel s = some (.ok s')) :
    P s' ∧ ∃ s₀, P s₀ ∧ pass known attempt (found s₀) s₀ = .ok (0, s') := by
  obtain ⟨s₀, hbefore, hlast⟩ := passes_eq_some h
  have hs₀ := productive_keeps hstep hs hbefore
  exact ⟨pass_keeps hstep hs₀ hlast, s₀, hs₀, hlast⟩

end Keeps

/-- **The passes come to an end** where what a pass takes adds up, and there is no room for more
than `bound`: each pass but the last takes an item. -/
theorem passes_isSome {found : S → List α} {P : S → Prop} {size : S → ℕ} {bound : ℕ}
    (hpass : ∀ {n s s'}, P s → pass known attempt (found s) s = .ok (n, s') →
      P s' ∧ size s' = size s + n)
    (hbound : ∀ {s}, P s → size s ≤ bound) {fuel : ℕ} {s : S} (hs : P s)
    (hfuel : bound < size s + fuel) : (passes known attempt found fuel s).isSome = true := by
  -- what has been taken and what fuel is left add up to more than there is room for
  induction fuel generalizing s with
  | zero => exact absurd (hbound hs) (Nat.not_le_of_lt hfuel)
  | succ fuel ih =>
    rw [passes]
    split
    · rfl
    · rename_i n s₁ h
      obtain ⟨hs₁, hadded⟩ := hpass hs h
      split
      · rfl
      · exact ih hs₁ (by omega)

end Passes

end RuntimeScriptProfiler
