import Mathlib.Data.List.DropRight
import Mathlib.Data.List.Basic

/-!
# Streams cut into blocks by marks

A stream of *items* and *marks*, told apart by a Boolean predicate `mark`. The
items between two consecutive marks form a *block*, closed by the second of the
two. `compact` removes every mark whose block is empty and nothing else. It is
computed by a one-bit latch, which an item sets and a mark clears, and which is
read when a mark arrives (`compactFrom`).

The law the file is built for is `compact_filter_compact`: once a stream has been
compacted, dropping items from it and compacting again gives what dropping them
from the original stream would have given. It holds because a mark that
`compact` removed had an empty block, and dropping items cannot fill one.

`lastBlock_flatMap` reads a stream that is written out piece by piece, each mark
ending in a piece that a Boolean `stop` recognises and no item containing one:
what has been written since the last such piece is what the items since the last
mark were written as.
-/

namespace Blocks

variable {α β : Type*}

/-! ### The latch -/

/-- The stream without the marks of its empty blocks, the first block being
taken as nonempty from the start when `opened` is set. -/
def compactFrom (mark : α → Bool) : Bool → List α → List α
  | _, [] => []
  | opened, a :: l =>
    if mark a then
      if opened then a :: compactFrom mark false l else compactFrom mark false l
    else
      a :: compactFrom mark true l

/-- The stream without the marks of its empty blocks. -/
def compact (mark : α → Bool) (l : List α) : List α := compactFrom mark false l

/-- The latch after a stream: whether an item has come since the last mark. -/
def latch (mark : α → Bool) (opened : Bool) (l : List α) : Bool :=
  l.foldl (fun _ a => !mark a) opened

section Latch

variable {mark : α → Bool}

@[simp] theorem compactFrom_nil (b : Bool) : compactFrom mark b [] = [] := rfl

@[simp] theorem latch_nil (b : Bool) : latch mark b [] = b := rfl

@[simp] theorem latch_cons (b : Bool) (a : α) (l : List α) :
    latch mark b (a :: l) = latch mark (!mark a) l := rfl

theorem latch_append (b : Bool) (l m : List α) :
    latch mark b (l ++ m) = latch mark (latch mark b l) m := by
  -- the latch is a fold
  unfold latch
  rw [List.foldl_append]

theorem compactFrom_cons_item {b : Bool} {a : α} (h : mark a = false) (l : List α) :
    compactFrom mark b (a :: l) = a :: compactFrom mark true l := by
  simp [compactFrom, h]

theorem compactFrom_cons_mark {b : Bool} {a : α} (h : mark a = true) (l : List α) :
    compactFrom mark b (a :: l)
      = (if b then [a] else []) ++ compactFrom mark false l := by
  cases b <;> simp [compactFrom, h]

/-- Compaction runs through a concatenation, the latch carried across. -/
theorem compactFrom_append (b : Bool) (l m : List α) :
    compactFrom mark b (l ++ m)
      = compactFrom mark b l ++ compactFrom mark (latch mark b l) m := by
  -- the latch changes along `l`, so the statement is about every latch
  induction l generalizing b with
  | nil => rfl
  | cons a l ih =>
    cases h : mark a with
    | false =>
      rw [List.cons_append, compactFrom_cons_item h, compactFrom_cons_item h, ih,
        latch_cons, h]
      rfl
    | true =>
      rw [List.cons_append, compactFrom_cons_mark h, compactFrom_cons_mark h, ih,
        latch_cons, h, List.append_assoc]
      rfl

/-- A stream of items only is left as it is. -/
theorem compactFrom_items {l : List α} (h : ∀ a ∈ l, mark a = false) (b : Bool) :
    compactFrom mark b l = l := by
  induction l generalizing b with
  | nil => rfl
  | cons a l ih =>
    rw [compactFrom_cons_item (h a List.mem_cons_self),
      ih (fun a' ha' => h a' (List.mem_cons_of_mem _ ha'))]

/-- After a stream of items only, the latch is set as soon as there was one. -/
theorem latch_items {l : List α} (h : ∀ a ∈ l, mark a = false) (b : Bool) :
    latch mark b l = (b || !l.isEmpty) := by
  induction l generalizing b with
  | nil => simp
  | cons a l ih =>
    rw [latch_cons, ih (fun a' ha' => h a' (List.mem_cons_of_mem _ ha')),
      h a List.mem_cons_self]
    simp

end Latch

/-! ### Items, marks and maps -/

section Content

variable {mark : α → Bool}

theorem compactFrom_sublist (b : Bool) (l : List α) : (compactFrom mark b l).Sublist l := by
  induction l generalizing b with
  | nil => exact List.Sublist.refl _
  | cons a l ih =>
    cases h : mark a with
    | false =>
      rw [compactFrom_cons_item h]
      exact (ih true).cons_cons a
    | true =>
      -- a mark goes if the latch is clear and stays if it is set
      rw [compactFrom_cons_mark h]
      cases b with
      | false => exact (ih false).cons a
      | true => exact (ih false).cons_cons a

/-- What comes before an element of a compacted stream is the compaction of what came
before it in the stream itself. -/
theorem exists_of_compactFrom_eq_append {b : Bool} {l pre post : List α} {a : α}
    (h : compactFrom mark b l = pre ++ a :: post) :
    ∃ pre' post', l = pre' ++ a :: post' ∧ compactFrom mark b pre' = pre := by
  induction l generalizing b pre with
  | nil => simp at h
  | cons x l ih =>
    -- whether `x` is still there decides whether `a` can be `x`
    have hkept : ∀ b', compactFrom mark b (x :: l) = x :: compactFrom mark b' l →
        (∀ m, compactFrom mark b (x :: m) = x :: compactFrom mark b' m) →
        ∃ pre' post', x :: l = pre' ++ a :: post' ∧ compactFrom mark b pre' = pre := by
      intro b' hx hm
      rw [hx] at h
      cases pre with
      | nil =>
        obtain ⟨rfl, -⟩ := List.cons.inj h
        exact ⟨[], l, rfl, rfl⟩
      | cons y pre =>
        obtain ⟨rfl, htail⟩ := List.cons.inj h
        obtain ⟨pre', post', rfl, rfl⟩ := ih htail
        exact ⟨x :: pre', post', rfl, hm pre'⟩
    cases hx : mark x with
    | false => exact hkept true (compactFrom_cons_item hx l) (compactFrom_cons_item hx)
    | true =>
      cases b with
      | true => exact hkept false (compactFrom_cons_mark hx l) (compactFrom_cons_mark hx)
      | false =>
        -- `x` is gone, so `a` is further on, and `x` is gone from what comes before it
        rw [compactFrom_cons_mark hx] at h
        obtain ⟨pre', post', rfl, rfl⟩ := ih h
        exact ⟨x :: pre', post', rfl, compactFrom_cons_mark hx pre'⟩

/-- A mark behind the first mark of a stream is that mark or comes after it. -/
theorem append_mark_eq_append_mark {l rest pre post : List α} {a b : α}
    (hl : ∀ x ∈ l, mark x = false) (hb : mark b = true)
    (h : l ++ a :: rest = pre ++ b :: post) :
    (l = pre ∧ a = b ∧ rest = post) ∨
      ∃ pre', pre = l ++ a :: pre' ∧ rest = pre' ++ b :: post := by
  induction l generalizing pre with
  | nil =>
    cases pre with
    | nil =>
      obtain ⟨rfl, rfl⟩ := List.cons.inj h
      exact Or.inl ⟨rfl, rfl, rfl⟩
    | cons y pre =>
      obtain ⟨rfl, rfl⟩ := List.cons.inj h
      exact Or.inr ⟨pre, rfl, rfl⟩
  | cons x l ih =>
    cases pre with
    | nil =>
      -- the mark `b` cannot be an item of `l`
      obtain ⟨rfl, -⟩ := List.cons.inj h
      rw [hl x List.mem_cons_self] at hb
      exact absurd hb Bool.false_ne_true
    | cons y pre =>
      obtain ⟨rfl, htail⟩ := List.cons.inj h
      rcases ih (fun z hz => hl z (List.mem_cons_of_mem _ hz)) htail with
        ⟨rfl, rfl, rfl⟩ | ⟨pre', rfl, rfl⟩
      · exact Or.inl ⟨rfl, rfl, rfl⟩
      · exact Or.inr ⟨pre', rfl, rfl⟩

/-- Compaction neither drops, repeats nor reorders items. -/
theorem filter_item_compactFrom {p : α → Bool} (hp : ∀ a, mark a = true → p a = false)
    (b : Bool) (l : List α) : (compactFrom mark b l).filter p = l.filter p := by
  induction l generalizing b with
  | nil => rfl
  | cons a l ih =>
    cases h : mark a with
    | false =>
      rw [compactFrom_cons_item h, List.filter_cons, List.filter_cons, ih]
    | true =>
      -- whether the mark was kept or not, `p` drops it
      rw [compactFrom_cons_mark h, List.filter_append, ih]
      cases b <;> simp [hp a h]

/-- Compaction commutes with a map that respects the marks. -/
theorem map_compactFrom {mark' : β → Bool} {f : α → β} (hf : ∀ a, mark' (f a) = mark a)
    (b : Bool) (l : List α) :
    (compactFrom mark b l).map f = compactFrom mark' b (l.map f) := by
  induction l generalizing b with
  | nil => rfl
  | cons a l ih =>
    cases h : mark a with
    | false =>
      rw [compactFrom_cons_item h, List.map_cons, List.map_cons,
        compactFrom_cons_item ((hf a).trans h), ih]
    | true =>
      rw [compactFrom_cons_mark h, List.map_append, List.map_cons,
        compactFrom_cons_mark ((hf a).trans h), ih]
      cases b <;> rfl

/-- The latched form of `compact_filter_compact`. The inner latch `b` may be set
where the outer one `b'` is not: the inner stream has items that `p` drops. -/
theorem compactFrom_filter_compactFrom {p : α → Bool} (hp : ∀ a, mark a = true → p a = true)
    {b b' : Bool} (hb : b' = true → b = true) (l : List α) :
    compactFrom mark b' ((compactFrom mark b l).filter p)
      = compactFrom mark b' (l.filter p) := by
  induction l generalizing b b' with
  | nil => rfl
  | cons a l ih =>
    cases h : mark a with
    | false =>
      rw [compactFrom_cons_item h]
      cases hpa : p a with
      | false =>
        -- an item that `p` drops has set the inner latch only
        rw [List.filter_cons_of_neg (by simp [hpa]), List.filter_cons_of_neg (by simp [hpa])]
        exact ih fun _ => rfl
      | true =>
        rw [List.filter_cons_of_pos hpa, List.filter_cons_of_pos hpa,
          compactFrom_cons_item h, compactFrom_cons_item h, ih fun h => h]
    | true =>
      have hpa := hp a h
      rw [compactFrom_cons_mark h, List.filter_cons_of_pos hpa]
      cases b with
      | true =>
        rw [if_pos rfl, List.singleton_append, List.filter_cons_of_pos hpa,
          compactFrom_cons_mark h, compactFrom_cons_mark h, ih fun h => h]
      | false =>
        -- the mark closed an empty block, so the outer latch is clear as well
        have hb' : b' = false := by
          cases b' with
          | false => rfl
          | true => exact absurd (hb rfl) Bool.false_ne_true
        subst hb'
        rw [if_neg Bool.false_ne_true, List.nil_append, compactFrom_cons_mark h,
          if_neg Bool.false_ne_true, List.nil_append, ih fun h => h]

/-- **Filtering a compacted stream.** Dropping items from a compacted stream and
compacting again is dropping them from the stream itself. -/
theorem compact_filter_compact {p : α → Bool} (hp : ∀ a, mark a = true → p a = true)
    (l : List α) :
    compact mark ((compact mark l).filter p) = compact mark (l.filter p) :=
  compactFrom_filter_compactFrom hp (fun h => h) l

end Content

/-! ### The last block -/

section Tail

variable {mark : α → Bool}

/-- The last block of a stream: the items since its last mark. -/
def lastBlock (mark : α → Bool) (l : List α) : List α := l.rtakeWhile fun a => !mark a

theorem lastBlock_append_item {a : α} (h : mark a = false) (l : List α) :
    lastBlock mark (l ++ [a]) = lastBlock mark l ++ [a] :=
  List.rtakeWhile_concat_pos _ _ _ (by simp [h])

theorem lastBlock_append_mark {a : α} (h : mark a = true) (l : List α) :
    lastBlock mark (l ++ [a]) = [] :=
  List.rtakeWhile_concat_neg _ _ _ (by simp [h])

@[simp] theorem lastBlock_nil : lastBlock mark [] = [] := rfl

/-- Items put behind a stream lengthen its last block. -/
theorem lastBlock_append_items (l : List α) {m : List α} (h : ∀ a ∈ m, mark a = false) :
    lastBlock mark (l ++ m) = lastBlock mark l ++ m := by
  -- the last block is read from the end of the stream
  induction m using List.reverseRecOn with
  | nil => rw [List.append_nil, List.append_nil]
  | append_singleton m a ih =>
    rw [← List.append_assoc, lastBlock_append_item (h a (by simp)),
      ih (fun a' ha' => h a' (by simp [ha'])), List.append_assoc]

/-- The last block has items only. -/
theorem mark_of_mem_lastBlock {l : List α} {a : α} (h : a ∈ lastBlock mark l) :
    mark a = false := by
  simpa using List.mem_rtakeWhile_imp h

/-- The last block of a concatenation begins in the first stream or is that of the
second. -/
theorem mem_lastBlock_append {l m : List α} {a : α} (h : a ∈ lastBlock mark (l ++ m)) :
    a ∈ l ∨ a ∈ lastBlock mark m := by
  induction m using List.reverseRecOn with
  | nil =>
    rw [List.append_nil] at h
    exact Or.inl ((List.rtakeWhile_suffix _ _).mem h)
  | append_singleton m b ih =>
    rw [← List.append_assoc] at h
    cases hb : mark b with
    | true =>
      -- nothing comes after a mark at the end
      rw [lastBlock_append_mark hb] at h
      exact absurd h List.not_mem_nil
    | false =>
      rw [lastBlock_append_item hb] at h ⊢
      rcases List.mem_append.mp h with h | h
      · exact (ih h).imp_right fun h => List.mem_append_left _ h
      · exact Or.inr (List.mem_append_right _ h)

/-- The latch is set exactly when the last block is not empty. -/
theorem latch_eq_lastBlock (l : List α) :
    latch mark false l = !(lastBlock mark l).isEmpty := by
  induction l using List.reverseRecOn with
  | nil => rfl
  | append_singleton l a _ =>
    -- both sides are decided by the last element alone
    rw [latch_append, latch_cons, latch_nil]
    cases h : mark a with
    | true => rw [lastBlock_append_mark h]; rfl
    | false => rw [lastBlock_append_item h]; simp

/-- Compaction leaves the last block as it is: a mark that it removes had no item
since the mark before it. -/
theorem lastBlock_compact (l : List α) : lastBlock mark (compact mark l) = lastBlock mark l := by
  induction l using List.reverseRecOn with
  | nil => rfl
  | append_singleton l a ih =>
    unfold compact at ih ⊢
    rw [compactFrom_append]
    cases h : mark a with
    | false =>
      rw [compactFrom_cons_item h, compactFrom_nil, lastBlock_append_item h,
        lastBlock_append_item h, ih]
    | true =>
      rw [compactFrom_cons_mark h, compactFrom_nil, List.append_nil, lastBlock_append_mark h]
      cases hl : latch mark false l with
      | true => rw [if_pos rfl, lastBlock_append_mark h]
      | false =>
        -- the mark is removed, from behind a block that was empty
        have hempty : lastBlock mark l = [] := by
          rw [latch_eq_lastBlock] at hl
          simpa using hl
        rw [if_neg Bool.false_ne_true, List.append_nil, ih, hempty]

/-- The last block commutes with a map that respects the marks. -/
theorem lastBlock_map {mark' : β → Bool} {f : α → β} (hf : ∀ a, mark' (f a) = mark a)
    (l : List α) : lastBlock mark' (l.map f) = (lastBlock mark l).map f := by
  induction l using List.reverseRecOn with
  | nil => rfl
  | append_singleton l a ih =>
    rw [List.map_append, List.map_singleton]
    cases h : mark a with
    | true =>
      rw [lastBlock_append_mark ((hf a).trans h), lastBlock_append_mark h, List.map_nil]
    | false =>
      rw [lastBlock_append_item ((hf a).trans h), lastBlock_append_item h, ih,
        List.map_append, List.map_singleton]

/-- A mark put behind a stream survives exactly when the last block is not empty. -/
theorem compact_concat_mark (l : List α) {a : α} (ha : mark a = true) :
    compact mark (l ++ [a])
      = compact mark l ++ if (lastBlock mark (compact mark l)).isEmpty then [] else [a] := by
  rw [lastBlock_compact]
  unfold compact
  rw [compactFrom_append, compactFrom_cons_mark ha, compactFrom_nil, List.append_nil,
    latch_eq_lastBlock]
  cases (lastBlock mark l).isEmpty <;> rfl

end Tail

/-! ### Streams written out in pieces -/

/-- Each element of a stream is written, behind a `stop` piece, as a list of pieces.
If an item has no `stop` piece and a mark ends in one, then what has been written
since the last `stop` piece is what the items since the last mark were written as. -/
theorem lastBlock_flatMap {mark : α → Bool} {stop : β → Bool} {w : α → List β}
    (hitem : ∀ a, mark a = false → ∀ p ∈ w a, stop p = false)
    (hmark : ∀ a, mark a = true → ∃ ps p, w a = ps ++ [p] ∧ stop p = true)
    {pre : List β} {p₀ : β} (hp₀ : stop p₀ = true) (l : List α) :
    lastBlock stop (pre ++ p₀ :: l.flatMap w) = (lastBlock mark l).flatMap w := by
  induction l using List.reverseRecOn with
  | nil => exact lastBlock_append_mark hp₀ pre
  | append_singleton l a ih =>
    have hassoc : pre ++ p₀ :: (l ++ [a]).flatMap w = (pre ++ p₀ :: l.flatMap w) ++ w a := by
      simp
    rw [hassoc]
    cases h : mark a with
    | true =>
      -- the mark's last piece empties both blocks
      obtain ⟨ps, p, hw, hp⟩ := hmark a h
      rw [lastBlock_append_mark h, hw, ← List.append_assoc, lastBlock_append_mark hp,
        List.flatMap_nil]
    | false =>
      -- an item's pieces all lengthen the block
      rw [lastBlock_append_item h, List.flatMap_append, List.flatMap_singleton,
        lastBlock_append_items _ (hitem a h), ih]

end Blocks
