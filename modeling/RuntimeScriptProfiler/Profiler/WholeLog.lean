import RuntimeScriptProfiler.Profiler.Refinement

/-!
# The whole log

What a run appends to the log, said line by line. Every line is an entry or a
separator. The entries are the executions that the configuration lets through, each
once and in order (`entries_profile`). A separator is the last thing a call of the
main-loop hook appends, and it appends one exactly when the log has an entry behind
its last separator (`profile_frame`). `whole_log` puts the three together for the
arithmetic of the compiled plugin.
-/

namespace RuntimeScriptProfiler

open Blocks

/-! ### The executions of a run -/

section Executions

variable {X : Type}

/-- The execution of an event, with the frame starts before it. -/
def Event.stamped? (starts : List FrameStart) : Event X → Option (List FrameStart × X)
  | script k x => some (starts.take k, x)
  | frameEnd _ _ => none

/-- The executions of a run in order, each with the frame starts before it. -/
def Run.executions (r : Run X) : List (List FrameStart × X) :=
  r.chronicle.filterMap (Event.stamped? r.starts)

end Executions

section Lines

variable {F D : Type} [HookArith F D]

/-- Every line of the log is an entry or a separator. -/
@[simp] theorem Event.isEntry_message (game : Game) (e : Event (Execution F)) :
    (e.message game).isEntry = !e.isFrameEnd := by
  cases e <;> rfl

/-- The entries among the lines of a stream of events. -/
theorem entries_events (game : Game) (o : Options) (starts : List FrameStart)
    (es : List (Event (Execution F))) :
    ((es.filter (o.writes game starts)).filter fun e => !e.isFrameEnd).map
        (Event.message game)
      = ((es.filterMap (Event.stamped? starts)).filter fun p =>
          o.enabledAfter p.1 && p.2.loggable game && o.passes p.2.script.refID).map
        fun p => p.2.message := by
  induction es with
  | nil => rfl
  | cons e es ih =>
    cases e with
    | frameEnd start stop =>
      -- a frame end is written but is no entry
      rw [List.filter_cons_of_pos rfl, List.filter_cons_of_neg (by simp), ih]
      rfl
    | script k x =>
      -- an execution is an entry if it is written
      have hstamped : (Event.script k x :: es).filterMap (Event.stamped? starts)
          = (starts.take k, x) :: es.filterMap (Event.stamped? starts) := rfl
      rw [hstamped]
      cases hw : o.writes game starts (.script k x) with
      | true =>
        rw [List.filter_cons_of_pos hw, List.filter_cons_of_pos rfl, List.map_cons, ih,
          List.filter_cons_of_pos (by exact hw), List.map_cons]
        rfl
      | false =>
        rw [List.filter_cons_of_neg (by rw [hw]; exact Bool.false_ne_true), ih,
          List.filter_cons_of_neg (by
            rw [writes_script] at hw
            rw [hw]
            exact Bool.false_ne_true)]

/-- **The entries of the log** are the executions that are written. -/
theorem entries_profile (game : Game) (logName : String) (o : Options)
    (r : Run (Execution F)) :
    (r.profile game logName o).filter Message.isEntry
      = (r.executions.filter fun p =>
          o.enabledAfter p.1 && p.2.loggable game && o.passes p.2.script.refID).map
        fun p => p.2.message := by
  -- compaction removes separators only
  have hitem : (Message.isEntry ∘ Event.message game : Event (Execution F) → Bool)
      = fun e => !e.isFrameEnd := funext fun e => Event.isEntry_message game e
  rw [profile_run, List.filter_map, hitem, Run.log, compact,
    filter_item_compactFrom (fun e he => by simp [he])]
  exact entries_events game o r.starts r.chronicle

theorem isEntry_or_isSeparator_of_mem_profile {game : Game} {logName : String} {o : Options}
    {r : Run (Execution F)} {m : Message D} (h : m ∈ r.profile game logName o) :
    m.isEntry = true ∨ m.isSeparator = true := by
  rw [profile_run] at h
  obtain ⟨e, -, rfl⟩ := List.mem_map.mp h
  rw [Event.isEntry_message, Event.isSeparator_message]
  cases e.isFrameEnd <;> simp

/-! ### The end of a frame -/

omit [HookArith F D] in
theorem chronicleFrom_append {X : Type} (k : ℕ) (is js : List (Item X)) :
    chronicleFrom k (is ++ js)
      = chronicleFrom k is ++ chronicleFrom (k + (itemStarts is).length) js := by
  induction is generalizing k with
  | nil => rfl
  | cons i is ih =>
    cases i with
    | script x =>
      rw [List.cons_append, chronicleFrom, chronicleFrom, ih]
      rfl
    | frame f =>
      -- one more frame has started before everything that follows
      have hlen : (itemStarts (.frame f :: is)).length = 1 + (itemStarts is).length := by
        simp [itemStarts, Item.frame?, Nat.add_comm]
      rw [List.cons_append, chronicleFrom, chronicleFrom, ih, List.append_assoc, hlen,
        Nat.add_assoc]

omit [HookArith F D] in
/-- A frame's end adds one event to what the run showed just before it. -/
theorem chronicle_frame {X : Type} (is : List (Item X)) (f : Frame X) :
    (⟨is ++ [.frame f], none⟩ : Run X).chronicle
      = (⟨is, some (f.start, f.scripts)⟩ : Run X).chronicle
        ++ [.frameEnd f.start.counter f.stop] := by
  have hlen : (itemStarts is).length = (is.filterMap Item.frame?).length := by
    simp [itemStarts]
  simp only [Run.chronicle, chronicleFrom_append, chronicleFrom, Frame.events, Run.frames,
    hlen, Nat.zero_add, List.append_nil, List.append_assoc]

omit [HookArith F D] in
theorem starts_frame {X : Type} (is : List (Item X)) (f : Frame X) :
    (⟨is ++ [.frame f], none⟩ : Run X).starts
      = (⟨is, some (f.start, f.scripts)⟩ : Run X).starts := by
  simp [Run.starts, itemStarts, Item.frame?]

/-- **What the end of a frame appends**: a separator with the frame's own time if the
log has an entry behind its last separator, and nothing otherwise. -/
theorem profile_frame (game : Game) (logName : String) (o : Options)
    (is : List (Item (Execution F))) (f : Frame (Execution F)) :
    (⟨is ++ [.frame f], none⟩ : Run (Execution F)).profile game logName o
      = (⟨is, some (f.start, f.scripts)⟩ : Run (Execution F)).profile game logName o
        ++ if (lastBlock Message.isSeparator
            ((⟨is, some (f.start, f.scripts)⟩ : Run (Execution F)).profile
              game logName o)).isEmpty then []
          else [.separator
            (HookArith.frameMs F (f.stop - f.start.counter) game.frequency)] := by
  -- the two runs have the same frame starts, and one of them the frame's end as well
  simp only [profile_run, Run.log, starts_frame, chronicle_frame, List.filter_append]
  generalize (⟨is, some (f.start, f.scripts)⟩ : Run (Execution F)).chronicle.filter _ = es
  have hend : [(Event.frameEnd f.start.counter f.stop : Event (Execution F))].filter
      (o.writes game (⟨is, some (f.start, f.scripts)⟩ : Run (Execution F)).starts)
      = [.frameEnd f.start.counter f.stop] := rfl
  rw [hend, compact_concat_mark _ (Event.isFrameEnd_frameEnd _ _), List.map_append,
    lastBlock_map (Event.isSeparator_message game), List.isEmpty_map]
  cases (lastBlock Event.isFrameEnd (compact Event.isFrameEnd es)).isEmpty <;> rfl

end Lines

/-! ### The log of the compiled plugin -/

/-- **The whole log.** After loading, a run leaves the lines of its profile behind the
loader's.
* All of them are entries and separators. The entries are, in order, the executions
  reported when the initial setting, switched over at every hotkey tap so far, was on,
  whose elapsed time is not below `0.0000000000001`, on the main thread, and let
  through by the three filters.
* The end of every frame appends its separator exactly when the block behind the
  previous separator has an entry, and nothing else otherwise. -/
theorem whole_log (game : Game) (logName : String) (o : Options)
    (r : Run (Execution Float32)) :
    (r.exec game (loaded logName o)).lines
        = (loaded logName o : Profiler Float).lines ++ r.profile game logName o ∧
      r.profile game logName o = (r.log game o).map (Event.message game) ∧
      (∀ m ∈ r.profile game logName o, m.isEntry = true ∨ m.isSeparator = true) ∧
      (r.profile game logName o).filter Message.isEntry
        = (r.executions.filter fun (starts, x) =>
            (o.isModEnabled ^^ (starts.countP fun f =>
              getIsKeyTapped f o.toggleExecutionHotkey) % 2 = 1) ∧
            ¬ Float32.promote x.elapsed < 0.0000000000001 ∧
            x.threadID = game.mainThreadID ∧
            ¬ (o.skipVanillaScripts ≠ 0 ∧ x.script.refID.toNat / 2 ^ 24 = 0) ∧
            (o.filterModID = 0 ∨ o.filterModID.toInt = (x.script.refID.toNat / 2 ^ 24 : ℕ)) ∧
            (o.filterFormID = 0 ∨ o.filterFormID.toUInt32 = x.script.refID)).map
          (fun (_, x) => .entry x.script.refID (Float32.promote (x.elapsed * 1000))) ∧
      ∀ (is : List (Item (Execution Float32))) (f : Frame (Execution Float32)),
        (⟨is ++ [.frame f], none⟩ : Run (Execution Float32)).profile game logName o
          = (⟨is, some (f.start, f.scripts)⟩ : Run (Execution Float32)).profile game logName o
            ++ if (lastBlock Message.isSeparator
                ((⟨is, some (f.start, f.scripts)⟩ : Run (Execution Float32)).profile
                  game logName o)).isEmpty then []
              else [.separator (Float.ofInt (f.stop - f.start.counter) * 1000.0
                / Float.ofInt game.frequency)] := by
  refine ⟨?_, profile_run game logName o r, ?_, ?_, ?_⟩
  · rw [lines_run, profile_run]
  · intro m hm
    exact isEntry_or_isSeparator_of_mem_profile hm
  · -- the test of the configuration, condition by condition
    rw [entries_profile]
    refine congrArg (List.map _) (List.filter_congr ?_)
    intro p _
    have hxor : ∀ a b : Bool, (!decide (a = b)) = (a ^^ b) := by decide
    simp [hxor, Options.enabledAfter, Execution.loggable, Options.passes, Filter.keeps,
      HookArith.belowResolution, Bool.and_assoc]
  · intro is f
    exact profile_frame game logName o is f

end RuntimeScriptProfiler
