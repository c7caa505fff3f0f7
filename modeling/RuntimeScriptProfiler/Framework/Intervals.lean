import Mathlib.Algebra.BigOperators.Group.List.Basic
import Mathlib.Algebra.Order.BigOperators.Group.List
import Mathlib.Algebra.Order.Group.Defs
import Mathlib.Tactic.Abel

/-!
# Nested and disjoint intervals

Intervals of an ordered group (`Span`), one *enclosing* another or two lying *apart*,
where touching endpoints count as apart. Two results bound what a family of intervals
can cover:

* the lengths of pairwise apart intervals inside an interval add up to at most its
  length (`sum_length_le`);
* the outermost members of a family that is pairwise nested or apart are pairwise
  apart (`pairwise_outermost`).

`outermost` works on a list of anything, with a relation for "encloses". Two members
that enclose each other are told apart by their position: the later one counts as the
outer one, as in a list that is written when its members end.
-/

namespace Intervals

variable {G : Type*}

/-- An interval, its endpoints in order. -/
structure Span (G : Type*) [LE G] where
  lo : G
  hi : G
  ordered : lo ≤ hi
  deriving DecidableEq

namespace Span

section Order

variable [LE G]

/-- `I` encloses `J`. -/
def Encloses (I J : Span G) : Prop := I.lo ≤ J.lo ∧ J.hi ≤ I.hi

/-- `I` and `J` have no inner point in common. -/
def Apart (I J : Span G) : Prop := I.hi ≤ J.lo ∨ J.hi ≤ I.lo

instance [DecidableLE G] (I J : Span G) : Decidable (I.Encloses J) :=
  inferInstanceAs (Decidable (_ ∧ _))

instance [DecidableLE G] (I J : Span G) : Decidable (I.Apart J) :=
  inferInstanceAs (Decidable (_ ∨ _))

/-- One of the two encloses the other, or they lie apart. -/
def NestedOrApart (I J : Span G) : Prop := I.Encloses J ∨ J.Encloses I ∨ I.Apart J

instance [DecidableLE G] (I J : Span G) : Decidable (I.NestedOrApart J) :=
  inferInstanceAs (Decidable (_ ∨ _))

end Order

variable [AddCommGroup G] [LinearOrder G] [IsOrderedAddMonoid G]

/-- The length of an interval. -/
def length (I : Span G) : G := I.hi - I.lo

/-- **Packing.** Intervals that lie pairwise apart inside `[a, b]` cover at most its
length. The first interval cuts `[a, b]` in two, and each of the others lies on one
side of it. -/
theorem sum_length_le {a b : G} (hab : a ≤ b) {l : List (Span G)}
    (hapart : l.Pairwise Apart) (hin : ∀ I ∈ l, a ≤ I.lo ∧ I.hi ≤ b) :
    (l.map length).sum ≤ b - a := by
  -- the two sides are shorter lists, but not tails
  induction hn : l.length using Nat.strong_induction_on generalizing a b l with
  | _ n ih =>
    cases l with
    | nil => simpa using hab
    | cons I l =>
      subst hn
      obtain ⟨hI, hl⟩ := List.pairwise_cons.mp hapart
      obtain ⟨haI, hIb⟩ := hin I List.mem_cons_self
      -- what ends before `I` begins lies in `[a, I.lo]`
      have hleft : ((l.filter fun J => J.hi ≤ I.lo).map length).sum ≤ I.lo - a := by
        refine ih _ ?_ haI (hl.filter _) ?_ rfl
        · exact Nat.lt_succ_of_le (List.length_filter_le _ _)
        · intro J hJ
          obtain ⟨hJ, hside⟩ := List.mem_filter.mp hJ
          exact ⟨(hin J (List.mem_cons_of_mem _ hJ)).1, of_decide_eq_true hside⟩
      -- what does not is apart from `I`, so it lies in `[I.hi, b]`
      have hright : ((l.filter fun J => ¬ J.hi ≤ I.lo).map length).sum ≤ b - I.hi := by
        refine ih _ ?_ hIb (hl.filter _) ?_ rfl
        · exact Nat.lt_succ_of_le (List.length_filter_le _ _)
        · intro J hJ
          obtain ⟨hJ, hside⟩ := List.mem_filter.mp hJ
          have hIJ : I.hi ≤ J.lo := (hI J hJ).resolve_right (of_decide_eq_true hside)
          exact ⟨hIJ, (hin J (List.mem_cons_of_mem _ hJ)).2⟩
      calc ((I :: l).map length).sum
          = I.length + (l.map length).sum := by rw [List.map_cons, List.sum_cons]
        _ = I.length + (((l.filter fun J => J.hi ≤ I.lo).map length).sum
              + ((l.filter fun J => ¬ J.hi ≤ I.lo).map length).sum) := by
            rw [List.sum_map_filter_add_sum_map_filter_not]
        _ ≤ I.length + ((I.lo - a) + (b - I.hi)) := by gcongr
        _ = b - a := by unfold length; abel

end Span

/-! ### Outermost members -/

section Outermost

variable {α : Type*} (encl : α → α → Prop) [DecidableRel encl]

/-- The members of a list that none of its others encloses, `before` being the members
already passed. Of two that enclose each other the later one stays. -/
def outermostFrom (before : List α) : List α → List α
  | [] => []
  | x :: after =>
    if (∃ y ∈ after, encl y x) ∨ ∃ y ∈ before, encl y x ∧ ¬ encl x y then
      outermostFrom (x :: before) after
    else
      x :: outermostFrom (x :: before) after

/-- The members of a list that none of its others encloses. -/
def outermost (l : List α) : List α := outermostFrom encl [] l

variable {encl}

theorem outermostFrom_sublist (before l : List α) :
    (outermostFrom encl before l).Sublist l := by
  induction l generalizing before with
  | nil => exact List.Sublist.refl _
  | cons x l ih =>
    unfold outermostFrom
    split
    · exact (ih _).cons x
    · exact (ih _).cons_cons x

/-- An outermost member is strictly enclosed by none that was passed before it. -/
theorem not_enclosed_of_mem_outermostFrom {before l : List α} {x y : α}
    (hx : x ∈ outermostFrom encl before l) (hy : y ∈ before) (h : encl y x) : encl x y := by
  induction l generalizing before with
  | nil => exact absurd hx List.not_mem_nil
  | cons z l ih =>
    unfold outermostFrom at hx
    split at hx
    · exact ih hx (List.mem_cons_of_mem _ hy)
    · rename_i hz
      rcases List.mem_cons.mp hx with rfl | hx
      · -- `y` would have kept `x` out
        by_contra hxy
        exact hz (Or.inr ⟨y, hy, h, hxy⟩)
      · exact ih hx (List.mem_cons_of_mem _ hy)

/-- **Outermost members lie apart**, in a list whose members are pairwise nested or
apart. -/
theorem pairwise_outermost {apart : α → α → Prop} {l : List α}
    (h : l.Pairwise fun x y => encl x y ∨ encl y x ∨ apart x y) :
    (outermost encl l).Pairwise apart := by
  unfold outermost
  generalize ([] : List α) = before
  induction l generalizing before with
  | nil => exact List.Pairwise.nil
  | cons x l ih =>
    obtain ⟨hx, hl⟩ := List.pairwise_cons.mp h
    unfold outermostFrom
    split
    · exact ih hl _
    · rename_i hkept
      refine List.pairwise_cons.mpr ⟨?_, ih hl _⟩
      intro y hy
      -- neither of the two can enclose the other, as both have been kept
      have hyl : y ∈ l := (outermostFrom_sublist _ _).mem hy
      have hyx : ¬ encl y x := fun hyx => hkept (Or.inl ⟨y, hyl, hyx⟩)
      have hxy : ¬ encl x y := fun hxy =>
        hyx (not_enclosed_of_mem_outermostFrom hy List.mem_cons_self hxy)
      exact ((hx y hyl).resolve_left hxy).resolve_left hyx

end Outermost

end Intervals
