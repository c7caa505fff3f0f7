import Mathlib.Data.List.Basic
import Mathlib.Tactic.Ring

/-!
# Columns of text with tab stops

The column a reader sees after a text, with a tab stop every `w` columns: a tab moves to
the next stop, a line break to column 0, and any other character one column on. A column
is at a stop if `w` divides it. From a stop, tabs move by whole stops
(`after_replicate_tab`), and a text without line breaks is as wide as at the start of a
line (`after_mul_add`).
-/

namespace Columns

variable {w : ℕ}

/-- The column after a character. -/
def step (w c : ℕ) (x : Char) : ℕ :=
  if x = '\t' then (c / w + 1) * w else if x = '\n' then 0 else c + 1

/-- The column after a text that starts at column `c`. -/
def after (w c : ℕ) (text : List Char) : ℕ := text.foldl (step w) c

@[simp] theorem after_nil (c : ℕ) : after w c [] = c := rfl

@[simp] theorem after_cons (c : ℕ) (x : Char) (text : List Char) :
    after w c (x :: text) = after w (step w c x) text := rfl

theorem after_append (c : ℕ) (xs ys : List Char) :
    after w c (xs ++ ys) = after w (after w c xs) ys :=
  List.foldl_append

/-- A line break ends the line. -/
theorem after_concat_newline (c : ℕ) (text : List Char) : after w c (text ++ ['\n']) = 0 := by
  rw [after_append]
  rfl

/-- A tab ends at a stop. -/
theorem dvd_after_concat_tab (c : ℕ) (text : List Char) : w ∣ after w c (text ++ ['\t']) := by
  rw [after_append]
  exact Nat.dvd_mul_left w _

/-- From a stop, each tab is one stop. -/
theorem after_replicate_tab (hw : 0 < w) (k n : ℕ) :
    after w (w * k) (List.replicate n '\t') = w * (k + n) := by
  induction n generalizing k with
  | zero => rfl
  | succ n ih =>
    have hstep : step w (w * k) '\t' = w * (k + 1) := by
      rw [step, if_pos rfl, Nat.mul_div_cancel_left k hw, mul_comm]
    rw [List.replicate_succ, after_cons, hstep, ih, add_assoc, add_comm 1 n]

/-- From a stop, a text is as wide as at the start of a line. -/
theorem after_mul_add (hw : 0 < w) (k c : ℕ) {text : List Char} (htext : '\n' ∉ text) :
    after w (w * k + c) text = w * k + after w c text := by
  induction text generalizing c with
  | nil => rfl
  | cons x text ih =>
    rw [List.mem_cons, not_or] at htext
    -- a tab reaches the next stop, and the stops are `w` apart everywhere
    have hstep : step w (w * k + c) x = w * k + step w c x := by
      by_cases hx : x = '\t'
      · rw [step, step, if_pos hx, if_pos hx, Nat.mul_add_div hw]
        ring
      · rw [step, step, if_neg hx, if_neg hx, if_neg (Ne.symm htext.1), if_neg (Ne.symm htext.1),
          add_assoc]
    rw [after_cons, after_cons, hstep, ih _ htext.2]

/-- A text without tabs and line breaks is one column a character. -/
theorem after_of_plain (c : ℕ) {text : List Char} (htab : '\t' ∉ text) (hline : '\n' ∉ text) :
    after w c text = c + text.length := by
  induction text generalizing c with
  | nil => rfl
  | cons x text ih =>
    rw [List.mem_cons, not_or] at htab hline
    have hstep : step w c x = c + 1 := by
      rw [step, if_neg (Ne.symm htab.1), if_neg (Ne.symm hline.1)]
    rw [after_cons, hstep, ih _ htab.2 hline.2, List.length_cons, add_assoc, add_comm 1]

/-- No character is wider than a tab. -/
theorem after_le (hw : 0 < w) (c : ℕ) (text : List Char) :
    after w c text ≤ c + w * text.length := by
  induction text generalizing c with
  | nil => simp
  | cons x text ih =>
    have hstep : step w c x ≤ c + w := by
      unfold step
      split_ifs
      · rw [Nat.add_mul, one_mul]
        exact Nat.add_le_add_right (Nat.div_mul_le_self c w) w
      · exact Nat.zero_le _
      · exact Nat.add_le_add_left hw c
    calc after w c (x :: text) ≤ step w c x + w * text.length := ih _
      _ ≤ c + w + w * text.length := Nat.add_le_add_right hstep _
      _ = c + w * (x :: text).length := by
          rw [List.length_cons]
          ring

end Columns
