import RuntimeScriptProfiler.Profiler.Refinement

/-!
# The hooks as a transition system

The plugin seen one hook call at a time. Between two calls the game is inside its main loop
or outside it, and this decides which of the hooks it can call next: a frame starts outside
the main loop and stops inside it, and a script execution is reported anywhere
(`Reachable`). `reachable_iff` says that the states so reached are those after the runs that
make the same calls in the same order (`Run.calls`), so that what is shown of every run
holds in every reachable state (`Reachable.invariant`).
-/

namespace RuntimeScriptProfiler

open Blocks

/-! ### Calls -/

/-- A call of one of the hooks: the script hook, or a half of the main-loop hook. -/
inductive HookCall (X : Type) where
  | start (f : FrameStart)
  | script (x : X)
  | stop (t : LargeInteger)

section RunCalls

variable {X : Type}

/-- The calls of an item. -/
def Item.calls : Item X → List (HookCall X)
  | script x => [.script x]
  | frame f => .start f.start :: (f.scripts.map .script ++ [.stop f.stop])

/-- The calls of a run, in order. -/
def Run.calls (r : Run X) : List (HookCall X) :=
  r.items.flatMap Item.calls ++
    match r.current with
    | none => []
    | some (f, xs) => .start f :: xs.map .script

theorem calls_concat (is : List (Item X)) (i : Item X) (current : Option (FrameStart × List X)) :
    (⟨is ++ [i], current⟩ : Run X).calls
      = (⟨is, none⟩ : Run X).calls ++ (⟨[i], current⟩ : Run X).calls := by
  simp [Run.calls]

end RunCalls

section Calls

variable {F D : Type} [HookArith F D]

/-- The states of the globals that hook calls lead to from `s₀`, the game being inside its
main loop or not. -/
inductive Reachable (game : Game) (s₀ : Profiler D) :
    List (HookCall (Execution F)) → Bool → Profiler D → Prop
  | init : Reachable game s₀ [] false s₀
  | start (f : FrameStart) {cs : List (HookCall (Execution F))} {s : Profiler D} :
      Reachable game s₀ cs false s →
        Reachable game s₀ (cs ++ [.start f]) true (startFrameExecutionTimer game f s)
  | script (x : Execution F) {cs : List (HookCall (Execution F))} {inside : Bool}
      {s : Profiler D} :
      Reachable game s₀ cs inside s →
        Reachable game s₀ (cs ++ [.script x]) inside (doScriptRunnerExecuteTimeElapsed game x s)
  | stop (t : LargeInteger) {cs : List (HookCall (Execution F))} {s : Profiler D} :
      Reachable game s₀ cs true s →
        Reachable game s₀ (cs ++ [.stop t]) false (endFrameExecutionTimerAndLog F t s)

variable {game : Game} {s₀ s : Profiler D} {cs : List (HookCall (Execution F))} {inside : Bool}

theorem Reachable.scripts (xs : List (Execution F)) (h : Reachable game s₀ cs inside s) :
    Reachable game s₀ (cs ++ xs.map .script) inside (runScripts game xs s) := by
  induction xs generalizing s cs with
  | nil => rwa [List.map_nil, List.append_nil]
  | cons x xs ih =>
    have h := ih (h.script x)
    rwa [List.append_assoc, List.singleton_append] at h

theorem Reachable.items (is : List (Item (Execution F))) (h : Reachable game s₀ cs false s) :
    Reachable game s₀ (cs ++ is.flatMap Item.calls) false (execItems game is s) := by
  induction is generalizing s cs with
  | nil => rwa [List.flatMap_nil, List.append_nil]
  | cons i is ih =>
    rw [List.flatMap_cons, ← List.append_assoc]
    cases i with
    | script x => exact ih (h.script x)
    | frame f =>
      have hcalls : cs ++ (Item.frame f).calls
          = cs ++ [.start f.start] ++ f.scripts.map .script ++ [.stop f.stop] := by
        simp [Item.calls]
      rw [hcalls]
      exact ih (((h.start f.start).scripts f.scripts).stop f.stop)

/-- **The reachable states are those after the runs** with the same calls, the game being inside
its main loop if the run leaves a frame open. -/
theorem reachable_iff :
    Reachable game s₀ cs inside s
      ↔ ∃ r : Run (Execution F), r.calls = cs ∧ r.current.isSome = inside ∧
        r.exec game s₀ = s := by
  constructor
  · intro h
    induction h with
    | init => exact ⟨⟨[], none⟩, rfl, rfl, rfl⟩
    | start f _ ih =>
      obtain ⟨⟨is, current⟩, rfl, hcurrent, rfl⟩ := ih
      cases current with
      | none => exact ⟨⟨is, some (f, [])⟩, by simp [Run.calls], rfl, rfl⟩
      | some open? => exact absurd hcurrent.symm Bool.false_ne_true
    | script x _ ih =>
      obtain ⟨⟨is, current⟩, rfl, rfl, rfl⟩ := ih
      cases current with
      | none =>
        refine ⟨⟨is ++ [.script x], none⟩, calls_concat is _ none, rfl, ?_⟩
        exact execItems_append game is [.script x] s₀
      | some open? =>
        obtain ⟨f, xs⟩ := open?
        refine ⟨⟨is, some (f, xs ++ [x])⟩, by simp [Run.calls], rfl, ?_⟩
        exact runScripts_append game xs [x] _
    | stop t _ ih =>
      obtain ⟨⟨is, current⟩, rfl, hcurrent, rfl⟩ := ih
      cases current with
      | none => exact absurd hcurrent Bool.false_ne_true
      | some open? =>
        -- the open frame is complete now
        obtain ⟨f, xs⟩ := open?
        refine ⟨⟨is ++ [.frame ⟨f, xs, t⟩], none⟩, ?_, rfl, ?_⟩
        · rw [calls_concat]
          simp [Run.calls, Item.calls]
        · exact execItems_append game is [.frame ⟨f, xs, t⟩] s₀
  · rintro ⟨⟨is, current⟩, rfl, rfl, rfl⟩
    have hitems : Reachable game s₀ (is.flatMap Item.calls) false (execItems game is s₀) :=
      Reachable.init.items is
    cases current with
    | none =>
      rw [Run.calls, List.append_nil]
      exact hitems
    | some open? =>
      have hopen := (hitems.start open?.1).scripts open?.2
      rw [List.append_assoc] at hopen
      exact hopen

/-- **What holds in every reachable state** of the loaded plugin: `autoFlush` is off, and
`scriptWasExecutedThisFrame` says whether the log has an entry behind its last separator. -/
theorem Reachable.invariant {logName : String} {o : Options}
    (h : Reachable game (loaded logName o) cs inside s) :
    s.gLog.autoFlush = false ∧
      ∃ ls : List (Message D), s.lines = preamble D ++ ls ∧
        s.scriptWasExecutedThisFrame = !(lastBlock Message.isSeparator ls).isEmpty := by
  obtain ⟨r, -, -, rfl⟩ := reachable_iff.mp h
  have hrun := loaded_run game logName o r
  refine ⟨hrun.autoFlush, (r.log game o).map (Event.message game), ?_, ?_⟩
  · rw [lines_run, lines_loaded]
  · -- the flag is the latch of the chronicle, and compaction keeps the last block
    refine hrun.opened.trans ?_
    rw [latch_eq_lastBlock, ← lastBlock_compact, lastBlock_map (Event.isSeparator_message game),
      List.isEmpty_map]
    rfl

end Calls

end RuntimeScriptProfiler
