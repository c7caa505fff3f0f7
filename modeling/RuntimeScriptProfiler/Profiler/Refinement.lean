import RuntimeScriptProfiler.Profiler.Run

/-!
# The hooks keep the log of the run

The connection between the plugin's flags and the log a run should leave. `Tracks`
says that the globals of the plugin stand for a profiling state, an open block and a
file: `isModEnabled` is whether profiling is on, `scriptWasExecutedThisFrame` is
whether the current block has an item, and the log stands at the start of a line of
the file with `autoFlush` off.

One lemma for each hook says how it moves that state (`Tracks.script`,
`Tracks.start`, `Tracks.stop`). By induction over the items of a run,
`scriptWasExecutedThisFrame` is the latch of `Blocks.compactFrom`, and the calls on
the file are those that write the compacted chronicle line by line: an entry without
a flush, a separator with one after each of its pieces (`run_tracks`).
-/

namespace RuntimeScriptProfiler

open Blocks

/-! ### The filters -/

/-- The overlaid byte is the top byte of the form ID. -/
theorem toNat_modIndex (s : Script) : s.modIndex.toNat = s.refID.toNat / 2 ^ 24 := by
  have h := s.refID.toNat_lt
  simp only [Script.modIndex, UInt32.toNat_toUInt8, UInt32.toNat_shiftRight]
  rw [show (24 : UInt32).toNat % 32 = 24 from rfl, Nat.shiftRight_eq_div_pow]
  omega

/-- Promoting a byte to `int` keeps its value. -/
theorem toInt_toInt32_toUInt32 (b : UInt8) : b.toUInt32.toInt32.toInt = b.toNat := by
  have h := b.toNat_lt
  rw [← Int32.toInt_toBitVec, UInt32.toBitVec_toInt32, BitVec.toInt_eq_toNat_of_lt]
  · simp
  · simp; omega

/-- The test of the vanilla filter. -/
theorem modIndex_eq_zero_iff (s : Script) : s.modIndex = 0 ↔ s.refID.toNat / 2 ^ 24 = 0 := by
  rw [← toNat_modIndex, ← UInt8.toNat_inj]
  rfl

/-- The test of the mod filter. -/
theorem modIndex_eq_iff (s : Script) (modID : Int32) :
    s.modIndex.toUInt32.toInt32 = modID ↔ modID.toInt = (s.refID.toNat / 2 ^ 24 : ℕ) := by
  rw [← Int32.toInt_inj, toInt_toInt32_toUInt32, toNat_modIndex]
  exact eq_comm

section Hooks

variable {F D : Type} [HookArith F D] {game : Game} {o : Options}

/-- The chain of early returns of the script hook is one test. -/
theorem doScriptRunnerExecuteTimeElapsed_eq (x : Execution F) (s : Profiler D) :
    doScriptRunnerExecuteTimeElapsed game x s
      = if s.options.isModEnabled && x.loggable game && s.options.passes x.script.refID then
          { s with
            gLog := s.gLog.msg (.entry x.script.refID (HookArith.scriptMs x.elapsed))
            scriptWasExecutedThisFrame := true }
        else s := by
  -- each early return is the failure of one filter
  have hskip : (s.options.skipVanillaScripts ≠ 0 ∧ x.script.modIndex = 0)
      ↔ Filter.skipVanilla.keeps s.options x.script.refID = false := by
    simp only [Filter.keeps, modIndex_eq_zero_iff, decide_eq_false_iff_not, not_not]
  have hmod : (s.options.filterModID ≠ 0 ∧
        x.script.modIndex.toUInt32.toInt32 ≠ s.options.filterModID)
      ↔ Filter.modID.keeps s.options x.script.refID = false := by
    simp only [Filter.keeps, ne_eq, modIndex_eq_iff, decide_eq_false_iff_not, not_or]
  have hform : (s.options.filterFormID ≠ 0 ∧
        x.script.refID ≠ s.options.filterFormID.toUInt32)
      ↔ Filter.formID.keeps s.options x.script.refID = false := by
    simp only [Filter.keeps, ne_eq, decide_eq_false_iff_not, not_or,
      @eq_comm _ x.script.refID]
  simp only [doScriptRunnerExecuteTimeElapsed, hskip, hmod, hform, Execution.loggable,
    Options.passes]
  -- the tests in the order in which the hook makes them
  by_cases hon : s.options.isModEnabled = true
  · by_cases hbelow : HookArith.belowResolution x.elapsed = true
    · simp [hon, hbelow]
    · by_cases hthread : x.threadID = game.mainThreadID
      · by_cases h₁ : Filter.skipVanilla.keeps s.options x.script.refID = true <;>
          by_cases h₂ : Filter.modID.keeps s.options x.script.refID = true <;>
          by_cases h₃ : Filter.formID.keeps s.options x.script.refID = true <;>
          simp [hon, hbelow, hthread, h₁, h₂, h₃]
      · simp [hon, hbelow, hthread]
  · simp [hon]

/-! ### What the globals stand for -/

/-- The globals `s` of a plugin configured with `o` stand for profiling being `on` or
off, for a block that is `opened` or empty, and for the log's file `f`. -/
structure Tracks (game : Game) (o : Options) (on opened : Bool) (f : FILE D)
    (s : Profiler D) : Prop where
  options : s.options = { o with isModEnabled := on }
  opened : s.scriptWasExecutedThisFrame = opened
  log : s.gLog.AtLineStart f
  autoFlush : s.gLog.autoFlush = false
  freq : s.freqBuffer = 0 ∨ s.freqBuffer = game.frequency

/-- What the start of a frame leaves for its end: the counter reading and the
frequency. -/
structure Timing (game : Game) (start : LargeInteger) (s : Profiler D) : Prop where
  bufferA : s.bufferA = start
  freqBuffer : s.freqBuffer = game.frequency

/-- The line of an execution. -/
def Execution.message (x : Execution F) : Message D :=
  .entry x.script.refID (HookArith.scriptMs x.elapsed)

/-- The calls on the file that log an event. -/
def Event.writes (game : Game) (e : Event (Execution F)) : List (FileOp D) :=
  lineWrites e.isFrameEnd (e.message game)

/-- Events are written line by line, those that are separators flushed. -/
theorem flatMap_writes (es : List (Event (Execution F))) :
    es.flatMap (Event.writes game)
      = (es.map (Event.message game)).flatMap fun m => lineWrites m.isSeparator m := by
  rw [List.flatMap_map]
  refine congrArg (fun g => es.flatMap g) (funext fun e => ?_)
  rw [Event.writes, Event.isSeparator_message]

/-- The script hook adds a line exactly when profiling is on and the execution can be
logged and passes the filters. -/
theorem Tracks.script {on opened : Bool} {f : FILE D} {s : Profiler D}
    (h : Tracks game o on opened f s) (k : ℕ) (x : Execution F) :
    Tracks game o on (opened || (on && x.loggable game && o.passes x.script.refID))
      (f.does (if on && x.loggable game && o.passes x.script.refID then
        (Event.script k x).writes game else []))
      (doScriptRunnerExecuteTimeElapsed game x s) := by
  have htest : (s.options.isModEnabled && x.loggable game &&
      s.options.passes x.script.refID)
      = (on && x.loggable game && o.passes x.script.refID) := by
    rw [h.options]
    rfl
  rw [doScriptRunnerExecuteTimeElapsed_eq, htest]
  -- either nothing happens, or one line is written and the block is open
  cases hw : on && x.loggable game && o.passes x.script.refID with
  | false =>
    rw [if_neg Bool.false_ne_true, if_neg Bool.false_ne_true, Bool.or_false, FILE.does_nil]
    exact h
  | true =>
    rw [if_pos rfl, if_pos rfl, Bool.or_true]
    refine ⟨h.options, rfl, ?_, ?_, h.freq⟩
    · have hmsg := IDebugLog.msg_spec h.log
        (.entry x.script.refID (HookArith.scriptMs x.elapsed))
      rw [h.autoFlush] at hmsg
      exact hmsg
    · exact (IDebugLog.autoFlush_msg _ _).trans h.autoFlush

/-- The script hook leaves the frame's timing alone. -/
theorem Timing.script {start : LargeInteger} {s : Profiler D} (h : Timing game start s)
    (x : Execution F) : Timing game start (doScriptRunnerExecuteTimeElapsed game x s) := by
  rw [doScriptRunnerExecuteTimeElapsed_eq]
  split
  · exact ⟨h.bufferA, h.freqBuffer⟩
  · exact h

omit [HookArith F D] in
/-- The hotkey switches profiling over and touches nothing of the log. -/
theorem Tracks.toggle {on opened : Bool} {f : FILE D} {s : Profiler D}
    (h : Tracks game o on opened f s) (st : FrameStart) :
    Tracks game o (on ^^ getIsKeyTapped st o.toggleExecutionHotkey) opened f
      (toggleExecution st s) := by
  have hkey : s.options.toggleExecutionHotkey = o.toggleExecutionHotkey := by rw [h.options]
  have hon : s.options.isModEnabled = on := by rw [h.options]
  unfold toggleExecution
  rw [hkey]
  cases getIsKeyTapped st o.toggleExecutionHotkey with
  | false =>
    rw [if_neg Bool.false_ne_true, Bool.xor_false]
    exact h
  | true =>
    -- the messages go to the console and the screen, not to the log
    rw [if_pos rfl, Bool.xor_true, hon]
    refine ⟨?_, h.opened, h.log, h.autoFlush, h.freq⟩
    change ({ s.options with isModEnabled := !on } : Options) = _
    rw [h.options]

omit [HookArith F D] in
/-- The frequency is the game's after a frame's start, whether it was read then or
before: it is read as long as its high part is zero, and it is never zero. -/
theorem startFrame_spec {on opened : Bool} {f : FILE D} {s : Profiler D}
    (h : Tracks game o on opened f s) (st : FrameStart) :
    Tracks game o (on ^^ getIsKeyTapped st o.toggleExecutionHotkey) opened f
        (startFrameExecutionTimer game st s) ∧
      Timing game st.counter (startFrameExecutionTimer game st s) := by
  have ht := h.toggle st
  unfold startFrameExecutionTimer
  by_cases hq : (toggleExecution st s).freqBuffer.highPart = 0
  · -- read at this frame
    simp only [if_pos hq]
    exact ⟨⟨ht.options, ht.opened, ht.log, ht.autoFlush, Or.inr rfl⟩, rfl, rfl⟩
  · simp only [if_neg hq]
    refine ⟨⟨ht.options, ht.opened, ht.log, ht.autoFlush, ht.freq⟩, rfl, ?_⟩
    rcases ht.freq with h0 | hfreq
    · -- a buffer not read yet has high part zero
      exact absurd (by rw [h0]; rfl) hq
    · exact hfreq

/-- The end of a frame writes a separator exactly when the block is open, each of its
pieces flushed, and closes the block. -/
theorem Tracks.stop {on opened : Bool} {f : FILE D} {s : Profiler D} {start : LargeInteger}
    (h : Tracks game o on opened f s) (ht : Timing game start s) (stop : LargeInteger) :
    Tracks game o on false
      (f.does (if opened then
        (Event.frameEnd start stop : Event (Execution F)).writes game else []))
      (endFrameExecutionTimerAndLog F stop s) := by
  unfold endFrameExecutionTimerAndLog
  simp only [h.opened]
  cases opened with
  | false =>
    rw [if_neg Bool.false_ne_true, if_neg Bool.false_ne_true, FILE.does_nil]
    exact ⟨h.options, rfl, h.log, h.autoFlush, h.freq⟩
  | true =>
    -- the separator is written with `autoFlush` on, which is off again behind it
    rw [if_pos rfl, if_pos rfl]
    refine ⟨h.options, rfl, ?_, rfl, h.freq⟩
    have hmsg := IDebugLog.msg_spec (h.log.setAutoFlush true)
      (.separator (HookArith.frameMs F (stop - s.bufferA) s.freqBuffer))
    rw [ht.bufferA, ht.freqBuffer] at hmsg ⊢
    exact hmsg.setAutoFlush false

/-! ### Whole runs -/

/-- The globals `s` stand for what an `opened` block and the file `file` become when
the events `es` are logged. -/
def Logs (game : Game) (o : Options) (on opened : Bool) (file : FILE D)
    (es : List (Event (Execution F))) (s : Profiler D) : Prop :=
  Tracks game o on (latch Event.isFrameEnd opened es)
    (file.does ((compactFrom Event.isFrameEnd opened es).flatMap (Event.writes game))) s

/-- Events logged after others. -/
theorem Logs.append {on opened : Bool} {file : FILE D} {es es' : List (Event (Execution F))}
    {s : Profiler D}
    (h : Logs game o on (latch Event.isFrameEnd opened es)
      (file.does ((compactFrom Event.isFrameEnd opened es).flatMap (Event.writes game)))
      es' s) :
    Logs game o on opened file (es ++ es') s := by
  unfold Logs at h ⊢
  rwa [FILE.does_does, ← List.flatMap_append, ← compactFrom_append, ← latch_append] at h

/-- Nothing logged. -/
theorem logs_nil {on opened : Bool} {file : FILE D} {s : Profiler D} :
    Logs game o on opened file ([] : List (Event (Execution F))) s
      ↔ Tracks game o on opened file s := by
  unfold Logs
  rw [latch_nil, compactFrom_nil, List.flatMap_nil, FILE.does_nil]

/-- The lines of the file when events have been logged. -/
theorem Logs.lines {on opened : Bool} {file : FILE D} {es : List (Event (Execution F))}
    {s : Profiler D} (h : Logs game o on opened file es s) :
    s.lines
      = file.lines ++ (compactFrom Event.isFrameEnd opened es).map (Event.message game) := by
  rw [Profiler.lines, h.log.lines, FILE.lines_does, flatMap_writes, filterMap_line?_flatMap]

/-- The reports of a list of executions, `w` being a test of events that agrees with
the hook on executions stamped `k`. -/
theorem Tracks.scripts {w : Event (Execution F) → Bool} {on : Bool} {k : ℕ}
    (hw : ∀ x, w (.script k x) = (on && x.loggable game && o.passes x.script.refID))
    (xs : List (Execution F)) {opened : Bool} {file : FILE D} {s : Profiler D}
    (h : Tracks game o on opened file s) :
    Logs game o on opened file ((xs.map (Event.script k)).filter w)
      (runScripts game xs s) := by
  -- each report may open the block, so the latch and the file vary
  induction xs generalizing opened file s with
  | nil => exact logs_nil.mpr h
  | cons x xs ih =>
    have hx := h.script k x
    rw [runScripts_cons, List.map_cons]
    cases hwx : on && x.loggable game && o.passes x.script.refID with
    | false =>
      rw [hwx, if_neg Bool.false_ne_true, Bool.or_false, FILE.does_nil] at hx
      rw [List.filter_cons_of_neg (by rw [hw, hwx]; exact Bool.false_ne_true)]
      exact ih hx
    | true =>
      rw [hwx, if_pos rfl, Bool.or_true] at hx
      rw [List.filter_cons_of_pos (by rw [hw, hwx]), ← List.singleton_append]
      refine Logs.append (ih ?_)
      rw [compactFrom_cons_item (Event.isFrameEnd_script k x), compactFrom_nil,
        List.flatMap_singleton]
      exact hx

/-- The lines a list of reports adds are the entries of those that are written, and
the block is open afterwards if it was or if there is one. -/
theorem Tracks.scripts_lines {on opened : Bool} {file : FILE D} {s : Profiler D}
    (h : Tracks game o on opened file s) (xs : List (Execution F)) :
    let written := xs.filter fun x => on && x.loggable game && o.passes x.script.refID
    (runScripts game xs s).lines = s.lines ++ written.map Execution.message ∧
      ∃ file', Tracks game o on (opened || !written.isEmpty) file' (runScripts game xs s) := by
  intro written
  -- the stamp does not matter here, so any will do
  have hall := h.scripts (w := fun e => (e.execution?.any fun x =>
    on && x.loggable game && o.passes x.script.refID)) (k := 0) (fun x => rfl) xs
  have hes : (xs.map (Event.script 0)).filter (fun e => (e.execution?.any fun x =>
      on && x.loggable game && o.passes x.script.refID)) = written.map (Event.script 0) := by
    rw [List.filter_map]
    rfl
  rw [hes] at hall
  have hitems : ∀ e ∈ written.map (Event.script 0), Event.isFrameEnd e = false := by
    intro e he
    obtain ⟨x, -, rfl⟩ := List.mem_map.mp he
    rfl
  constructor
  · rw [hall.lines, compactFrom_items hitems, List.map_map, Profiler.lines, h.log.lines]
    rfl
  · unfold Logs at hall
    rw [latch_items hitems, List.isEmpty_map] at hall
    exact ⟨_, hall⟩

/-- A list of reports leaves the frame's timing alone. -/
theorem Timing.scripts {start : LargeInteger} (xs : List (Execution F)) {s : Profiler D}
    (h : Timing game start s) : Timing game start (runScripts game xs s) := by
  induction xs generalizing s with
  | nil => exact h
  | cons x xs ih => exact ih (h.script x)

omit [HookArith F D] in
/-- One more frame start switches profiling over if its hotkey answer is a tap. -/
theorem enabledAfter_append_singleton (o : Options) (starts : List FrameStart)
    (st : FrameStart) :
    o.enabledAfter (starts ++ [st])
      = (o.enabledAfter starts ^^ getIsKeyTapped st o.toggleExecutionHotkey) := by
  unfold Options.enabledAfter
  rw [List.countP_append, List.countP_singleton]
  -- one more tap changes the parity, any other start leaves it
  generalize List.countP _ starts = n
  have hparity : decide ((n + 1) % 2 = 1) = !decide (n % 2 = 1) := by
    rcases Nat.mod_two_eq_zero_or_one n with h | h <;> simp [Nat.add_mod, h]
  cases getIsKeyTapped st o.toggleExecutionHotkey with
  | false => simp
  | true => simp [hparity]

/-- The test of an execution, read with the profiling state of its stamp. -/
theorem writes_script (starts : List FrameStart) (k : ℕ) (x : Execution F) :
    o.writes game starts (.script k x)
      = (o.enabledAfter (starts.take k) && x.loggable game && o.passes x.script.refID) := rfl

/-- A complete call of the main-loop hook, made after the frame starts `pre`. -/
theorem Tracks.frame {starts pre post : List FrameStart} (f : Frame (Execution F))
    (hstarts : starts = pre ++ f.start :: post) {opened : Bool} {file : FILE D}
    {s : Profiler D} (h : Tracks game o (o.enabledAfter pre) opened file s) :
    Logs game o (o.enabledAfter (pre ++ [f.start])) opened file
      ((f.events pre.length).filter (o.writes game starts))
      (mainLoopExecuteScriptsHook game f s) := by
  -- the start of the frame decides for all that is reported during it
  obtain ⟨hstart, htiming⟩ := startFrame_spec h f.start
  rw [← enabledAfter_append_singleton] at hstart
  have htake : starts.take (pre.length + 1) = pre ++ [f.start] := by
    rw [hstarts, List.take_append, List.take_of_length_le (by omega)]
    simp
  have hscripts := hstart.scripts (w := o.writes game starts) (k := pre.length + 1)
    (fun x => by rw [writes_script, htake]) f.scripts
  have hstop := Tracks.stop (F := F) hscripts (htiming.scripts f.scripts) f.stop
  have hevents : (f.events pre.length).filter (o.writes game starts)
      = (f.scripts.map (Event.script (pre.length + 1))).filter (o.writes game starts)
        ++ [.frameEnd f.start.counter f.stop] := by
    rw [Frame.events, List.filter_append]
    rfl
  rw [hevents]
  -- the frame's end comes behind its executions and is kept if the latch is set
  apply Logs.append
  unfold Logs
  have hmark : ∀ b : Bool,
      (if b then [(Event.frameEnd f.start.counter f.stop : Event (Execution F))]
          else []).flatMap (Event.writes game)
        = if b then (Event.frameEnd f.start.counter f.stop : Event (Execution F)).writes game
          else [] := by
    intro b
    cases b <;> simp
  rw [compactFrom_cons_mark (Event.isFrameEnd_frameEnd _ _), compactFrom_nil, List.append_nil,
    hmark]
  exact hstop

/-- The items of a run, begun after the frame starts `pre`. -/
theorem Tracks.items {starts : List FrameStart} (is : List (Item (Execution F)))
    {pre post : List FrameStart} (hstarts : starts = pre ++ itemStarts is ++ post)
    {opened : Bool} {file : FILE D} {s : Profiler D}
    (h : Tracks game o (o.enabledAfter pre) opened file s) :
    Logs game o (o.enabledAfter (pre ++ itemStarts is)) opened file
      ((chronicleFrom pre.length is).filter (o.writes game starts))
      (execItems game is s) := by
  -- `pre` grows with every frame, and with it the profiling state
  induction is generalizing pre opened file s with
  | nil =>
    apply logs_nil.mpr
    rwa [show itemStarts ([] : List (Item (Execution F))) = [] from rfl, List.append_nil]
  | cons i is ih =>
    cases i with
    | script x =>
      have htake : starts.take pre.length = pre := by
        rw [hstarts, List.append_assoc, List.take_left']
        rfl
      have hx := h.scripts (w := o.writes game starts) (k := pre.length)
        (fun x => by rw [writes_script, htake]) [x]
      change Logs game o _ opened file
        (([Event.script pre.length x] ++ chronicleFrom pre.length is).filter _) _
      rw [List.filter_append]
      exact Logs.append (ih hstarts hx)
    | frame f =>
      have hpre : pre ++ itemStarts (.frame f :: is) = pre ++ [f.start] ++ itemStarts is := by
        simp [itemStarts, Item.frame?]
      rw [hpre] at hstarts ⊢
      have hsplit : starts = pre ++ f.start :: (itemStarts is ++ post) := by
        rw [hstarts]
        simp
      have hf := h.frame f hsplit
      rw [chronicleFrom, List.filter_append]
      have hrest := ih hstarts hf
      rw [List.length_append, List.length_singleton] at hrest
      exact Logs.append hrest

/-- **The hooks keep the log of the run.** After a run from globals that stand for a
freshly loaded plugin with an empty block, the globals stand for the profiling state
after its frame starts, the latch of its chronicle is `scriptWasExecutedThisFrame`,
and the calls on the file are those that log `Run.log`, event by event. -/
theorem run_tracks {file : FILE D} {s : Profiler D}
    (h : Tracks game o o.isModEnabled false file s) (r : Run (Execution F)) :
    Tracks game o (o.enabledAfter r.starts)
      (latch Event.isFrameEnd false (r.chronicle.filter (o.writes game r.starts)))
      (file.does ((r.log game o).flatMap (Event.writes game))) (r.exec game s) := by
  have h0 : Tracks game o (o.enabledAfter []) false file s := by
    simpa [Options.enabledAfter] using h
  change Logs game o (o.enabledAfter r.starts) false file
    (r.chronicle.filter (o.writes game r.starts)) (r.exec game s)
  obtain ⟨is, current⟩ := r
  cases current with
  | none =>
    -- no frame is open: the items are all there is
    have hstarts : (⟨is, none⟩ : Run (Execution F)).starts = [] ++ itemStarts is ++ [] := by
      simp [Run.starts, itemStarts]
    have hitems := h0.items is hstarts
    rw [hstarts, List.append_nil, Run.chronicle, List.append_nil]
    rw [hstarts, List.append_nil] at hitems
    exact hitems
  | some open? =>
    -- a frame has started behind the items, and `xs` have been reported in it
    obtain ⟨st, xs⟩ := open?
    have hstarts : (⟨is, some (st, xs)⟩ : Run (Execution F)).starts
        = [] ++ itemStarts is ++ [st] := rfl
    have hlen : (⟨is, some (st, xs)⟩ : Run (Execution F)).frames.length
        = (itemStarts is).length := by
      simp [Run.frames, itemStarts]
    have hitems := h0.items is hstarts
    obtain ⟨hstart, -⟩ := startFrame_spec hitems st
    rw [← enabledAfter_append_singleton] at hstart
    have hscripts := hstart.scripts (w := o.writes game (itemStarts is ++ [st]))
      (k := (itemStarts is).length + 1)
      (fun x => by rw [writes_script, List.take_of_length_le (by simp)]; rfl) xs
    rw [Run.chronicle, List.filter_append, hlen]
    exact Logs.append hscripts

end Hooks

/-! ### From the loaded plugin -/

section Loaded

variable {F D : Type} [HookArith F D]

/-- The lines the loader writes before and after it switches `autoFlush` off. -/
def preamble (D : Type) : List (Message D) :=
  [.text "RuntimeScriptProfiler Initializing...",
    .text "RuntimeScriptProfiler Initialized!\n\n",
    .text "Script\t\t\t\t\t\t\t\t\t\tElapsed Time\n"]

/-- The calls that write the loader's lines: the first is flushed, the others are
not. -/
def preambleWrites (D : Type) : List (FileOp D) :=
  lineWrites true (.text "RuntimeScriptProfiler Initializing...") ++
    (lineWrites false (.text "RuntimeScriptProfiler Initialized!\n\n") ++
      lineWrites false (.text "Script\t\t\t\t\t\t\t\t\t\tElapsed Time\n"))

/-- The file after `NVSEPlugin_Load`. -/
def loadedFile (D : Type) (logName : String) : FILE D :=
  (FILE.fresh logName).does (preambleWrites D)

/-- Loading leaves profiling as configured, an empty block, and `autoFlush` off. -/
theorem loaded_tracks (game : Game) (logName : String) (o : Options) :
    Tracks game o o.isModEnabled false (loadedFile D logName) (loaded logName o) := by
  have hboot : (booted logName : Profiler D).gLog.AtLineStart (FILE.fresh logName) :=
    IDebugLog.atLineStart_statics _
  -- the first line is written with `autoFlush` still on
  have h₁ := IDebugLog.msg_spec hboot (.text "RuntimeScriptProfiler Initializing...")
  -- the others behind the switch
  have h₂ := IDebugLog.msg_spec (h₁.indent_outdent false)
    (.text "RuntimeScriptProfiler Initialized!\n\n")
  have h₃ := IDebugLog.msg_spec h₂ (.text "Script\t\t\t\t\t\t\t\t\t\tElapsed Time\n")
  have hflush : (booted logName : Profiler D).gLog.autoFlush = true := rfl
  simp only [IDebugLog.autoFlush_msg, IDebugLog.autoFlush_outdent, FILE.does_does, hflush,
    List.append_assoc] at h₃
  have hlog : (loaded logName o : Profiler D).gLog
      = ((((booted logName).gLog.msg (.text "RuntimeScriptProfiler Initializing...")).indent
          |>.setAutoFlush false).outdent
          |>.msg (.text "RuntimeScriptProfiler Initialized!\n\n")
          |>.msg (.text "Script\t\t\t\t\t\t\t\t\t\tElapsed Time\n")) := by
    simp only [loaded, nvsePluginLoad]
  refine ⟨?_, rfl, ?_, ?_, Or.inl rfl⟩
  · exact handleIniOptions_ofOptions o
  · rw [hlog]
    exact h₃
  · rw [hlog]
    simp only [IDebugLog.autoFlush_msg, IDebugLog.autoFlush_outdent]

/-- The items of a run, from the loaded plugin. -/
theorem loaded_items (game : Game) (logName : String) (o : Options)
    (is : List (Item (Execution F))) :
    Logs game o (o.enabledAfter (itemStarts is)) false (loadedFile D logName)
      ((chronicleFrom 0 is).filter (o.writes game (itemStarts is)))
      (execItems game is (loaded logName o)) := by
  have h0 : Tracks game o (o.enabledAfter []) false (loadedFile D logName)
      (loaded logName o) := by
    simpa [Options.enabledAfter] using loaded_tracks game logName o
  have hsplit : itemStarts is = [] ++ itemStarts is ++ [] := by simp
  exact h0.items is hsplit

/-- A run, from the loaded plugin. -/
theorem loaded_run (game : Game) (logName : String) (o : Options) (r : Run (Execution F)) :
    Logs game o (o.enabledAfter r.starts) false (loadedFile D logName)
      (r.chronicle.filter (o.writes game r.starts)) (r.exec game (loaded logName o)) :=
  run_tracks (loaded_tracks game logName o) r

omit [HookArith F D] in
@[simp] theorem lines_loadedFile (logName : String) :
    (loadedFile D logName).lines = preamble D := rfl

theorem lines_loaded (logName : String) (o : Options) :
    (loaded logName o : Profiler D).lines = preamble D :=
  (loaded_tracks ⟨0, 1, by decide⟩ logName o).log.lines

/-- The lines a run appends to the log after the plugin has been loaded. -/
def Run.profile (game : Game) (logName : String) (o : Options) (r : Run (Execution F)) :
    List (Message D) :=
  (r.exec game (loaded logName o)).lines.drop (loaded logName o : Profiler D).lines.length

/-- **The log is that of the run.** -/
theorem lines_run (game : Game) (logName : String) (o : Options) (r : Run (Execution F)) :
    (r.exec game (loaded logName o)).lines
      = (loaded logName o : Profiler D).lines ++ (r.log game o).map (Event.message game) := by
  rw [(loaded_run game logName o r).lines, lines_loadedFile, lines_loaded]
  rfl

theorem profile_run (game : Game) (logName : String) (o : Options)
    (r : Run (Execution F)) :
    r.profile game logName o = (r.log game o).map (Event.message game) := by
  rw [Run.profile, lines_run, List.drop_left]

end Loaded

end RuntimeScriptProfiler
