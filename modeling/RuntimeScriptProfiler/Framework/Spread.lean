import Mathlib.Data.List.Basic
import Mathlib.Data.Nat.Find
import Mathlib.Order.Basic

/-!
# Copying a value over a range

`spread f l P` copies what `P` has at `f` to every place up to `l`. It changes nothing if
`P` is level on the range, and otherwise it loses a value: a value is only ever copied to
the right, so the leftmost place that has been overwritten can be given no other value
than that of its left neighbour (`Lost`). No later copying makes up for it, whatever its
ranges, so a row of copyings leaves everything as it was if and only if none of its
ranges had anything to copy (`foldl_spread_eq_self_iff`).
-/

namespace Spread

variable {α : Type*}

/-- The value at `f`, copied to all places up to `l`. -/
def spread (f l : ℕ) (P : ℕ → α) (p : ℕ) : α := if f ≤ p ∧ p ≤ l then P f else P p

/-- One value on a range. -/
def Level (P : ℕ → α) (f l : ℕ) : Prop := ∀ p, f ≤ p → p ≤ l → P p = P f

/-- The place after `q` has had its value replaced by the one before it, and nothing up to
`q` has changed. -/
def Lost (P Q : ℕ → α) : Prop :=
  ∃ q, (∀ p ≤ q, Q p = P p) ∧ Q (q + 1) = P q ∧ P (q + 1) ≠ P q

variable {P Q : ℕ → α} {f l : ℕ}

theorem spread_of_mem {p : ℕ} (hf : f ≤ p) (hl : p ≤ l) : spread f l P p = P f :=
  if_pos ⟨hf, hl⟩

theorem spread_of_not_mem {p : ℕ} (h : ¬ (f ≤ p ∧ p ≤ l)) : spread f l P p = P p := if_neg h

theorem spread_self (f l : ℕ) (P : ℕ → α) : spread f l P f = P f := by
  unfold spread
  split <;> rfl

theorem Level.spread_eq (h : Level P f l) : spread f l P = P := by
  funext p
  by_cases hp : f ≤ p ∧ p ≤ l
  · rw [spread_of_mem hp.1 hp.2, h p hp.1 hp.2]
  · exact spread_of_not_mem hp

/-- A copying that changes a place before which all is as in `P` loses a value. -/
theorem lost_spread_of_ne {n : ℕ} (hsame : ∀ p ≤ n, Q p = P p)
    (hne : ∃ p ≤ n, spread f l Q p ≠ P p) : Lost P (spread f l Q) := by
  classical
  -- the leftmost such place
  obtain ⟨hle, hchanged⟩ := Nat.find_spec hne
  have hleast : ∀ p < Nat.find hne, spread f l Q p = P p := by
    intro p hp
    by_contra hne'
    exact Nat.find_min hne hp ⟨hp.le.trans hle, hne'⟩
  generalize Nat.find hne = p at *
  have hmem : f ≤ p ∧ p ≤ l := by
    by_contra hmem
    exact hchanged ((spread_of_not_mem hmem).trans (hsame p hle))
  have hpos : f < p := by
    refine lt_of_le_of_ne hmem.1 fun hfp => hchanged ?_
    rw [← hfp, spread_self]
    exact hsame f (hfp.trans_le hle)
  obtain ⟨q, rfl⟩ : ∃ q, p = q + 1 := ⟨p - 1, by omega⟩
  have hnext : spread f l Q (q + 1) = P q := by
    rw [spread_of_mem hmem.1 hmem.2, ← hleast q q.lt_succ_self,
      spread_of_mem (by omega) (by omega)]
  refine ⟨q, fun p hp => hleast p (Nat.lt_succ_of_le hp), hnext, ?_⟩
  exact fun hq => hchanged (hnext.trans hq.symm)

/-- A copying over a range that is not level loses a value. -/
theorem lost_of_not_level (h : ¬ Level P f l) : Lost P (spread f l P) := by
  obtain ⟨p, hp⟩ := not_forall.mp h
  obtain ⟨hf, hp⟩ := Classical.not_imp.mp hp
  obtain ⟨hl, hne⟩ := Classical.not_imp.mp hp
  refine lost_spread_of_ne (fun _ _ => rfl) ⟨p, le_rfl, ?_⟩
  rw [spread_of_mem hf hl]
  exact Ne.symm hne

/-- What is lost stays lost. -/
theorem Lost.spread (h : Lost P Q) (f l : ℕ) : Lost P (spread f l Q) := by
  obtain ⟨q, hsame, hnext, hne⟩ := h
  by_cases hchanged : ∃ p ≤ q, Spread.spread f l Q p ≠ P p
  · exact lost_spread_of_ne hsame hchanged
  · have hsame' : ∀ p ≤ q, Spread.spread f l Q p = P p := by
      intro p hp
      by_contra hp'
      exact hchanged ⟨p, hp, hp'⟩
    refine ⟨q, hsame', ?_, hne⟩
    by_cases hmem : f ≤ q + 1 ∧ q + 1 ≤ l
    · rcases Nat.eq_or_lt_of_le hmem.1 with rfl | hlt
      · rw [spread_self, hnext]
      · rw [spread_of_mem hmem.1 hmem.2, ← hsame' q le_rfl, spread_of_mem (by omega) (by omega)]
    · exact (spread_of_not_mem hmem).trans hnext

theorem Lost.ne (h : Lost P Q) : Q ≠ P := by
  rintro rfl
  obtain ⟨q, -, hnext, hne⟩ := h
  exact hne hnext

theorem Lost.foldl (h : Lost P Q) (ranges : List (ℕ × ℕ)) :
    Lost P (ranges.foldl (fun Q r => Spread.spread r.1 r.2 Q) Q) := by
  induction ranges generalizing Q with
  | nil => exact h
  | cons r ranges ih => exact ih (h.spread r.1 r.2)

/-- **A row of copyings leaves everything as it was** if and only if none of its ranges had
anything to copy. -/
theorem foldl_spread_eq_self_iff (ranges : List (ℕ × ℕ)) :
    ranges.foldl (fun Q r => spread r.1 r.2 Q) P = P ↔ ∀ r ∈ ranges, Level P r.1 r.2 := by
  induction ranges with
  | nil => exact iff_of_true rfl fun r hr => absurd hr List.not_mem_nil
  | cons r ranges ih =>
    rw [List.foldl_cons, List.forall_mem_cons]
    by_cases hlevel : Level P r.1 r.2
    · rw [hlevel.spread_eq, ih]
      exact (and_iff_right hlevel).symm
    · exact iff_of_false ((lost_of_not_level hlevel).foldl ranges).ne fun h => hlevel h.1

end Spread
