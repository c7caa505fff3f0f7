import Mathlib.Data.List.Basic
import Mathlib.Data.Nat.Digits.Defs

/-!
# Texts that can be read back

A `PrefixCode` writes values as words over an alphabet, together with a reader that
finds the value a text starts with. The law of the reader is a field, so a code that is
put together from codes is a code: literals (`lit`), words of a fixed length (`fixed`),
words up to a delimiter (`delimited`), sequences (`seq`), alternatives (`alt`) and
renamings (`congr`).

The law says both that what was written is read, whatever follows it, and that nothing
else is read. A whole text is therefore read by `readAll` if and only if it is written
(`readAll_eq_some_iff`).

The last section is about digits: the number a run of digits stands for, in any base and
with any symbols for them (`valueOf`).
-/

/-- A way to write values of `α` as words over `σ`, with a reader for it. -/
structure PrefixCode (σ α : Type*) where
  /-- The word of a value. -/
  print : α → List σ
  /-- The value that a text starts with, and what follows it. -/
  read : List σ → Option (α × List σ)
  /-- The reader finds what was written, whatever follows, and nothing else. -/
  read_eq_some_iff : ∀ text a rest, read text = some (a, rest) ↔ text = print a ++ rest

namespace PrefixCode

variable {σ α β : Type*}

section Law

variable (c : PrefixCode σ α)

theorem read_print (a : α) (rest : List σ) : c.read (c.print a ++ rest) = some (a, rest) :=
  (c.read_eq_some_iff _ a rest).mpr rfl

end Law

/-! ### Words -/

/-- A fixed word. -/
def lit [DecidableEq σ] (word : List σ) : PrefixCode σ Unit where
  print _ := word
  read text := if word <+: text then some ((), text.drop word.length) else none
  read_eq_some_iff text a rest := by
    constructor
    · intro h
      obtain ⟨hword, hrest⟩ := Option.ite_none_right_eq_some.mp h
      obtain ⟨rest', rfl⟩ := hword
      rw [List.drop_left] at hrest
      rw [(Prod.mk.inj (Option.some.inj hrest)).2]
    · rintro rfl
      rw [if_pos (List.prefix_append word rest), List.drop_left]

/-- Words of one length, read by undoing the writing. -/
def fixed [DecidableEq σ] (n : ℕ) (put : α → List σ) (get : List σ → α)
    (length_put : ∀ a, (put a).length = n) (get_put : ∀ a, get (put a) = a) :
    PrefixCode σ α where
  print := put
  read text :=
    let a := get (text.take n)
    if put a = text.take n then some (a, text.drop n) else none
  read_eq_some_iff text a rest := by
    constructor
    · intro h
      obtain ⟨hput, hrest⟩ := Option.ite_none_right_eq_some.mp h
      obtain ⟨rfl, rfl⟩ := Prod.mk.inj (Option.some.inj hrest)
      rw [hput, List.take_append_drop]
    · rintro rfl
      simp only [List.take_left' (length_put a), List.drop_left' (length_put a), get_put,
        if_true]

/-- Words in which a delimiter does not occur, each followed by the delimiter. -/
def delimited [DecidableEq σ] (stop : σ) (put : α → List σ) (get : List σ → α)
    (stop_notMem : ∀ a, stop ∉ put a) (get_put : ∀ a, get (put a) = a) :
    PrefixCode σ α where
  print a := put a ++ [stop]
  read text :=
    let a := get (text.takeWhile (· != stop))
    match text.dropWhile (· != stop) with
    | [] => none
    | _ :: rest => if put a = text.takeWhile (· != stop) then some (a, rest) else none
  read_eq_some_iff text a rest := by
    constructor
    · intro h
      simp only at h
      split at h
      · exact absurd h (by simp)
      · next x rest' hdrop =>
        obtain ⟨hput, hrest⟩ := Option.ite_none_right_eq_some.mp h
        obtain ⟨rfl, rfl⟩ := Prod.mk.inj (Option.some.inj hrest)
        -- the symbol the word stops at is the delimiter
        have hstop : x = stop := by
          have hhead := List.head_dropWhile_not (· != stop) (by rw [hdrop]; simp)
          simpa [hdrop] using hhead
        calc text = text.takeWhile (· != stop) ++ text.dropWhile (· != stop) :=
              (List.takeWhile_append_dropWhile).symm
          _ = put _ ++ [stop] ++ rest' := by
              rw [hdrop, hput, hstop, List.append_assoc, List.singleton_append]
    · rintro rfl
      -- the word goes up to the delimiter, as there is none in it
      have hput : ∀ x ∈ put a, (x != stop) = true := by
        intro x hx
        exact bne_iff_ne.mpr fun h => stop_notMem a (h ▸ hx)
      have hdrop : (put a ++ [stop] ++ rest).dropWhile (· != stop) = stop :: rest := by
        rw [List.append_assoc, List.dropWhile_append_of_pos hput]
        simp
      have htake : (put a ++ [stop] ++ rest).takeWhile (· != stop) = put a := by
        rw [List.append_assoc, List.takeWhile_append_of_pos hput]
        simp
      simp only [hdrop, htake, get_put, if_true]

/-! ### Putting codes together -/

/-- One value after the other. -/
def seq (c : PrefixCode σ α) (d : PrefixCode σ β) : PrefixCode σ (α × β) where
  print p := c.print p.1 ++ d.print p.2
  read text := (c.read text).bind fun p => (d.read p.2).map fun q => ((p.1, q.1), q.2)
  read_eq_some_iff text p rest := by
    constructor
    · intro h
      obtain ⟨⟨a, text'⟩, ha, h⟩ := Option.bind_eq_some_iff.mp h
      obtain ⟨⟨b, rest'⟩, hb, h⟩ := Option.map_eq_some_iff.mp h
      obtain ⟨rfl, rfl⟩ := Prod.mk.inj h
      have htext' : text' = d.print b ++ rest' := (d.read_eq_some_iff _ _ _).mp hb
      rw [(c.read_eq_some_iff _ _ _).mp ha, htext', List.append_assoc]
    · rintro rfl
      rw [List.append_assoc, c.read_print, Option.bind_some, d.read_print]
      rfl

/-- Values of either code, where no text starts with values of both. -/
def alt (c : PrefixCode σ α) (d : PrefixCode σ β)
    (disjoint : ∀ a b xs ys, c.print a ++ xs ≠ d.print b ++ ys) : PrefixCode σ (α ⊕ β) where
  print
    | .inl a => c.print a
    | .inr b => d.print b
  read text :=
    match c.read text with
    | some (a, rest) => some (.inl a, rest)
    | none => (d.read text).map fun p => (.inr p.1, p.2)
  read_eq_some_iff text v rest := by
    -- the first code is tried first, and a text that it reads is none of the second's
    cases hc : c.read text with
    | some p =>
      obtain ⟨a, rest'⟩ := p
      have htext := (c.read_eq_some_iff _ _ _).mp hc
      simp only [Option.some.injEq, Prod.mk.injEq]
      cases v with
      | inl a' =>
        rw [← c.read_eq_some_iff, hc]
        simp
      | inr b => exact iff_of_false (by simp) (htext ▸ disjoint a b rest' rest)
    | none =>
      simp only [Option.map_eq_some_iff]
      cases v with
      | inl a =>
        refine iff_of_false (by simp) fun htext => ?_
        rw [htext, c.read_print] at hc
        exact Option.some_ne_none _ hc
      | inr b => simp [← d.read_eq_some_iff]

/-- The same words for other values. -/
def congr (c : PrefixCode σ α) (e : α ≃ β) : PrefixCode σ β where
  print b := c.print (e.symm b)
  read text := (c.read text).map fun p => (e p.1, p.2)
  read_eq_some_iff text b rest := by
    rw [← c.read_eq_some_iff, Option.map_eq_some_iff]
    constructor
    · rintro ⟨⟨a, rest'⟩, ha, h⟩
      obtain ⟨rfl, rfl⟩ := Prod.mk.inj h
      rw [ha, e.symm_apply_apply]
    · intro h
      exact ⟨_, h, by rw [e.apply_symm_apply]⟩

/-! ### Telling codes apart -/

/-- Every word of the code starts with a symbol of a kind. -/
def StartsIn (c : PrefixCode σ α) (p : σ → Prop) : Prop :=
  ∀ a, ∃ x word, c.print a = x :: word ∧ p x

namespace StartsIn

variable {c : PrefixCode σ α} {d : PrefixCode σ β} {p q : σ → Prop}

theorem ne_nil (hc : c.StartsIn p) (a : α) : c.print a ≠ [] := by
  obtain ⟨x, word, hword, -⟩ := hc a
  rw [hword]
  exact List.cons_ne_nil x word

theorem mono (hc : c.StartsIn p) (hpq : ∀ x, p x → q x) : c.StartsIn q := by
  intro a
  obtain ⟨x, word, hword, hx⟩ := hc a
  exact ⟨x, word, hword, hpq x hx⟩

/-- No text starts with words of codes whose first symbols differ. -/
theorem disjoint (hc : c.StartsIn p) (hd : d.StartsIn q) (hpq : ∀ x, p x → ¬ q x) (a : α)
    (b : β) (xs ys : List σ) : c.print a ++ xs ≠ d.print b ++ ys := by
  -- the two texts differ in their first symbol
  obtain ⟨x, word, hword, hx⟩ := hc a
  obtain ⟨y, word', hword', hy⟩ := hd b
  intro h
  rw [hword, hword', List.cons_append, List.cons_append] at h
  exact hpq x hx ((List.cons.inj h).1 ▸ hy)

theorem lit [DecidableEq σ] (p : σ → Prop) {x : σ} (word : List σ) (hx : p x) :
    (PrefixCode.lit (x :: word)).StartsIn p := fun _ => ⟨x, word, rfl, hx⟩

theorem seq (hc : c.StartsIn p) (d : PrefixCode σ β) : (c.seq d).StartsIn p := by
  intro v
  obtain ⟨x, word, hword, hx⟩ := hc v.1
  exact ⟨x, word ++ d.print v.2, by rw [PrefixCode.seq]; simp only [hword, List.cons_append], hx⟩

theorem alt (hc : c.StartsIn p) (hd : d.StartsIn p)
    (hne : ∀ a b xs ys, c.print a ++ xs ≠ d.print b ++ ys) : (c.alt d hne).StartsIn p
  | .inl a => hc a
  | .inr b => hd b

theorem congr (hc : c.StartsIn p) (e : α ≃ β) : (c.congr e).StartsIn p :=
  fun b => hc (e.symm b)

end StartsIn

/-! ### A whole text -/

/-- Up to `n` values, one after the other, to the end of the text. -/
def readUpTo (c : PrefixCode σ α) : ℕ → List σ → Option (List α)
  | _, [] => some []
  | 0, _ :: _ => none
  | n + 1, x :: text => (c.read (x :: text)).bind fun p => (c.readUpTo n p.2).map (p.1 :: ·)

/-- The values of a text. No more of them than symbols are looked for. -/
def readAll (c : PrefixCode σ α) (text : List σ) : Option (List α) :=
  c.readUpTo text.length text

/-- What is read was written. -/
theorem eq_flatMap_of_readUpTo (c : PrefixCode σ α) {n : ℕ} {text : List σ} {as : List α}
    (h : c.readUpTo n text = some as) : text = as.flatMap c.print := by
  induction n generalizing text as with
  | zero =>
    cases text with
    | nil => rw [← Option.some.inj h, List.flatMap_nil]
    | cons x text => exact absurd h (by simp [readUpTo])
  | succ n ih =>
    cases text with
    | nil => rw [← Option.some.inj h, List.flatMap_nil]
    | cons x text =>
      obtain ⟨⟨a, rest⟩, ha, h⟩ := Option.bind_eq_some_iff.mp h
      obtain ⟨as', has, rfl⟩ := Option.map_eq_some_iff.mp h
      have hrest : rest = as'.flatMap c.print := ih has
      rw [(c.read_eq_some_iff _ _ _).mp ha, hrest, List.flatMap_cons]

/-- What was written is read, if no value is written as the empty word. -/
theorem readUpTo_flatMap (c : PrefixCode σ α) (hne : ∀ a, c.print a ≠ []) {n : ℕ}
    {as : List α} (hn : (as.flatMap c.print).length ≤ n) :
    c.readUpTo n (as.flatMap c.print) = some as := by
  induction as generalizing n with
  | nil => cases n <;> rfl
  | cons a as ih =>
    obtain ⟨x, word, hword⟩ := List.exists_cons_of_ne_nil (hne a)
    have hread := c.read_print a (as.flatMap c.print)
    rw [List.flatMap_cons] at hn ⊢
    rw [hword, List.cons_append] at hread hn ⊢
    -- the word of `a` uses up at least one symbol
    rw [List.length_cons, List.length_append] at hn
    obtain ⟨n, rfl⟩ : ∃ m, n = m + 1 := ⟨n - 1, by omega⟩
    rw [readUpTo, hread, Option.bind_some, ih (by omega)]
    rfl

/-- **A text is read exactly if it was written**, and then as what was written. -/
theorem readAll_eq_some_iff (c : PrefixCode σ α) (hne : ∀ a, c.print a ≠ []) (text : List σ)
    (as : List α) : c.readAll text = some as ↔ text = as.flatMap c.print := by
  constructor
  · exact c.eq_flatMap_of_readUpTo
  · rintro rfl
    exact c.readUpTo_flatMap hne le_rfl

end PrefixCode

/-! ### Digits -/

section Digits

variable {σ : Type*} (digit : σ → ℕ) (b : ℕ)

/-- The number a run of digits stands for. -/
def valueOf (ds : List σ) : ℕ := ds.foldl (fun n d => b * n + digit d) 0

theorem valueOf_concat (ds : List σ) (d : σ) :
    valueOf digit b (ds ++ [d]) = b * valueOf digit b ds + digit d := by
  simp [valueOf]

/-- Leading zeros do not count. -/
theorem valueOf_leftpad {zero : σ} (hzero : digit zero = 0) (n : ℕ) (ds : List σ) :
    valueOf digit b (List.leftpad n zero ds) = valueOf digit b ds := by
  -- the fold is still at zero when the padding ends
  have hreplicate : ∀ k, (List.replicate k zero).foldl (fun n d => b * n + digit d) 0 = 0 := by
    intro k
    induction k with
    | zero => rfl
    | succ k ih =>
      rw [List.replicate_succ', List.foldl_append, ih]
      simp [hzero]
  rw [valueOf, List.leftpad, List.foldl_append, hreplicate]
  rfl

/-- The symbols of a number stand for it, if each of them stands for its digit. -/
theorem valueOf_map_toDigits {put : Char → σ} (hb : 1 < b)
    (hput : ∀ d < b, digit (put (Nat.digitChar d)) = d) (n : ℕ) :
    valueOf digit b ((Nat.toDigits b n).map put) = n := by
  induction n using Nat.strong_induction_on with
  | _ n ih =>
    -- the last digit and the rest, by the division that the digits are made with
    by_cases hn : n < b
    · rw [Nat.toDigits_of_lt_base hn]
      simp [valueOf, hput n hn]
    · have hmod : n % b < b := Nat.mod_lt _ (by omega)
      have hdiv : n / b < n := Nat.div_lt_self (by omega) hb
      rw [Nat.toDigits_of_base_le hb (by omega), List.map_append, List.map_singleton,
        valueOf_concat, ih _ hdiv, hput _ hmod, Nat.div_add_mod]

/-- The digits of a number are digits of its base. -/
theorem exists_digitChar_of_mem_toDigits {b : ℕ} (hb : 1 < b) {n : ℕ} {c : Char}
    (h : c ∈ Nat.toDigits b n) : ∃ d < b, c = Nat.digitChar d := by
  induction n using Nat.strong_induction_on with
  | _ n ih =>
    by_cases hn : n < b
    · rw [Nat.toDigits_of_lt_base hn] at h
      exact ⟨n, hn, List.mem_singleton.mp h⟩
    · rw [Nat.toDigits_of_base_le hb (by omega), List.mem_append] at h
      rcases h with h | h
      · exact ih _ (Nat.div_lt_self (by omega) hb) h
      · exact ⟨n % b, Nat.mod_lt _ (by omega), List.mem_singleton.mp h⟩

/-- A number below `b ^ k` has at most `k` digits, so padding makes it `k`. -/
theorem length_leftpad_toDigits {put : Char → σ} (zero : σ) (hb : 1 < b) {k : ℕ} (hk : 0 < k)
    {n : ℕ} (hn : n < b ^ k) :
    (List.leftpad k zero ((Nat.toDigits b n).map put)).length = k := by
  rw [List.length_leftpad, List.length_map]
  exact max_eq_left ((Nat.length_toDigits_le_iff hb hk).mpr hn)

end Digits
