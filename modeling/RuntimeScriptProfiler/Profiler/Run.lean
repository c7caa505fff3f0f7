import RuntimeScriptProfiler.Framework.Blocks
import RuntimeScriptProfiler.Profiler.Hooks

/-!
# Runs and the log they should leave

A *run* (`Run`) is what the game does to the loaded plugin: complete calls of the
main-loop hook, script executions reported during them and between them, and
possibly one last call that has not returned yet. Every point between two hook
calls is the end of such a run, so what holds after every run holds at every point.
`Run.exec` carries a run out on the plugin's globals.

The second half of the file says what the log is for, without the plugin's flags.
The *chronicle* of a run lists its script executions, each stamped with the number
of frame starts before it, and its frame ends. The configuration decides which
executions are written (`Options.writes`): whether profiling was on is read off the
parity of the hotkey taps, and the three filters are read off the form ID. The log
is then the chronicle with the other executions dropped and the frame ends of empty
blocks removed (`Run.log`).
-/

namespace RuntimeScriptProfiler

/-! ### Runs -/

/-- A complete call of the main-loop hook: what its start reads, the executions
reported while the game runs its scripts, and the counter at its end. -/
structure Frame (X : Type) where
  start : FrameStart
  scripts : List X
  stop : LargeInteger

/-- A frame whose start finds the hotkey tapped and in which no script runs. -/
def tappedFrame : Frame (Execution Float32) := ⟨⟨fun _ _ => 1, 0⟩, [], 16⟩

/-- What happens between two points where no frame is open. -/
inductive Item (X : Type) where
  | script (x : X)
  | frame (f : Frame X)

/-- A finite run. A frame that is still open at its end has a start and the
executions reported so far. -/
structure Run (X : Type) where
  items : List (Item X)
  current : Option (FrameStart × List X)

/-- The frame of an item. -/
def Item.frame? {X : Type} : Item X → Option (Frame X)
  | script _ => none
  | frame f => some f

/-- The frame starts of a list of items. -/
def itemStarts {X : Type} (is : List (Item X)) : List FrameStart :=
  (is.filterMap Item.frame?).map Frame.start

namespace Run

variable {X Y : Type}

/-- The complete frames, in order. -/
def frames (r : Run X) : List (Frame X) := r.items.filterMap Item.frame?

/-- The frame starts, that of a frame still open included. -/
def starts (r : Run X) : List FrameStart :=
  itemStarts r.items ++ (r.current.map Prod.fst).toList

end Run

/-! ### Carrying a run out -/

section Exec

variable {F D : Type} [HookArith F D]

/-- The executions of a list, reported one after the other. -/
def runScripts (game : Game) (xs : List (Execution F)) (s : Profiler D) : Profiler D :=
  xs.foldl (fun s x => doScriptRunnerExecuteTimeElapsed game x s) s

/-- `MainLoopExecuteScriptsHook`: the game's own main loop runs the scripts. -/
def mainLoopExecuteScriptsHook (game : Game) (f : Frame (Execution F)) (s : Profiler D) :
    Profiler D :=
  let s := startFrameExecutionTimer game f.start s
  let s := runScripts game f.scripts s
  endFrameExecutionTimerAndLog F f.stop s

/-- One item. -/
def Item.exec (game : Game) : Item (Execution F) → Profiler D → Profiler D
  | script x, s => doScriptRunnerExecuteTimeElapsed game x s
  | frame f, s => mainLoopExecuteScriptsHook game f s

/-- The items of a list, one after the other. -/
def execItems (game : Game) (is : List (Item (Execution F))) (s : Profiler D) : Profiler D :=
  is.foldl (fun s i => i.exec game s) s

/-- A run, from its items to the frame it leaves open. -/
def Run.exec (game : Game) (r : Run (Execution F)) (s : Profiler D) : Profiler D :=
  let s := execItems game r.items s
  match r.current with
  | none => s
  | some (start, xs) => runScripts game xs (startFrameExecutionTimer game start s)

@[simp] theorem runScripts_nil (game : Game) (s : Profiler D) :
    runScripts game ([] : List (Execution F)) s = s := rfl

@[simp] theorem runScripts_cons (game : Game) (x : Execution F) (xs : List (Execution F))
    (s : Profiler D) :
    runScripts game (x :: xs) s
      = runScripts game xs (doScriptRunnerExecuteTimeElapsed game x s) := rfl

@[simp] theorem execItems_nil (game : Game) (s : Profiler D) :
    execItems game ([] : List (Item (Execution F))) s = s := rfl

@[simp] theorem execItems_cons (game : Game) (i : Item (Execution F))
    (is : List (Item (Execution F))) (s : Profiler D) :
    execItems game (i :: is) s = execItems game is (i.exec game s) := rfl

theorem runScripts_append (game : Game) (xs ys : List (Execution F)) (s : Profiler D) :
    runScripts game (xs ++ ys) s = runScripts game ys (runScripts game xs s) :=
  List.foldl_append

theorem execItems_append (game : Game) (is js : List (Item (Execution F)))
    (s : Profiler D) :
    execItems game (is ++ js) s = execItems game js (execItems game is s) :=
  List.foldl_append

end Exec

/-! ### Loading a configuration -/

section Loaded

variable {D : Type} [PrintfDouble D]

/-- A settings file with given settings in it. -/
def PrivateProfile.ofOptions (o : Options) : PrivateProfile := fun _ key dflt =>
  if key = "iFilterFormID" then o.filterFormID.toUInt32
  else if key = "iFilterModID " then o.filterModID.toUInt32
  else if key = "bSkipVanillaScripts" then o.skipVanillaScripts.toUInt32
  else if key = "iToggleExecutionHotkey" then o.toggleExecutionHotkey.toUInt32
  else if key = "bStartGameEnabled" then (if o.isModEnabled then 1 else 0)
  else if key = "bShowToggleMessage" then (if o.showToggleMessage then 1 else 0)
  else dflt.toUInt32

/-- Every configuration is one a settings file can ask for. -/
@[simp] theorem handleIniOptions_ofOptions (o : Options) :
    handleIniOptions (PrivateProfile.ofOptions o) = o := by
  obtain ⟨formID, modID, skip, hotkey, enabled, shown⟩ := o
  cases enabled <;> cases shown <;>
    simp [handleIniOptions, PrivateProfile.ofOptions]

/-- The globals of the process with the log's file open. -/
def booted (logName : String) : Profiler D :=
  Profiler.statics { IDebugLog.statics D with logFile := some (FILE.fresh logName) }

/-- The globals after `NVSEPlugin_Load` with a given configuration. -/
def loaded (logName : String) (o : Options) : Profiler D :=
  nvsePluginLoad (PrivateProfile.ofOptions o) (booted logName)

/-- Loading from any settings file gives the globals of its configuration. -/
theorem nvsePluginLoad_booted (ini : PrivateProfile) (logName : String) :
    nvsePluginLoad ini (booted logName : Profiler D)
      = loaded logName (handleIniOptions ini) := by
  simp [loaded, nvsePluginLoad]

end Loaded

/-! ### The chronicle of a run -/

/-- What a run has to show: a script execution, stamped with the number of frame
starts before it, or the end of a frame, with its two counter readings. -/
inductive Event (X : Type) where
  | script (frames : ℕ) (x : X)
  | frameEnd (start stop : LargeInteger)
  deriving DecidableEq

namespace Event

variable {X Y : Type}

/-- Frame ends are the marks of the log. -/
def isFrameEnd : Event X → Bool
  | script _ _ => false
  | frameEnd _ _ => true

/-- The execution of an event. -/
def execution? : Event X → Option X
  | script _ x => some x
  | frameEnd _ _ => none

@[simp] theorem isFrameEnd_script (k : ℕ) (x : X) : (script k x).isFrameEnd = false := rfl
@[simp] theorem isFrameEnd_frameEnd (a b : LargeInteger) :
    (frameEnd a b : Event X).isFrameEnd = true := rfl
@[simp] theorem execution?_script (k : ℕ) (x : X) : (script k x).execution? = some x := rfl
@[simp] theorem execution?_frameEnd (a b : LargeInteger) :
    (frameEnd a b : Event X).execution? = none := rfl

/-- The line an event is logged as. -/
def message {F D : Type} [HookArith F D] (game : Game) : Event (Execution F) → Message D
  | script _ x => .entry x.script.refID (HookArith.scriptMs x.elapsed)
  | frameEnd start stop => .separator (HookArith.frameMs F (stop - start) game.frequency)

@[simp] theorem isSeparator_message {F D : Type} [HookArith F D] (game : Game)
    (e : Event (Execution F)) : (e.message game).isSeparator = e.isFrameEnd := by
  cases e <;> rfl

end Event

/-- The events of a frame, `k` frames having started before it. -/
def Frame.events {X : Type} (k : ℕ) (f : Frame X) : List (Event X) :=
  f.scripts.map (.script (k + 1)) ++ [.frameEnd f.start.counter f.stop]

/-- The events of a list of items, `k` frames having started before it. -/
def chronicleFrom {X : Type} (k : ℕ) : List (Item X) → List (Event X)
  | [] => []
  | .script x :: is => .script k x :: chronicleFrom k is
  | .frame f :: is => f.events k ++ chronicleFrom (k + 1) is

/-- The events of a run. -/
def Run.chronicle {X : Type} (r : Run X) : List (Event X) :=
  chronicleFrom 0 r.items ++
    match r.current with
    | none => []
    | some (_, xs) => xs.map (.script (r.frames.length + 1))

/-! ### Runs whose executions are renamed -/

section Map

variable {X Y : Type} (f : X → Y)

/-- The same event with another execution. -/
def Event.map : Event X → Event Y
  | script k x => .script k (f x)
  | frameEnd start stop => .frameEnd start stop

/-- The same frame with other executions. -/
def Frame.map (g : Frame X) : Frame Y := ⟨g.start, g.scripts.map f, g.stop⟩

/-- The same item with another execution. -/
def Item.map : Item X → Item Y
  | script x => .script (f x)
  | frame g => .frame (g.map f)

/-- The same run with other executions. -/
def Run.map (r : Run X) : Run Y where
  items := r.items.map (Item.map f)
  current := r.current.map fun (start, xs) => (start, xs.map f)

@[simp] theorem isFrameEnd_map (e : Event X) : (e.map f).isFrameEnd = e.isFrameEnd := by
  cases e <;> rfl

theorem itemStarts_map (is : List (Item X)) :
    itemStarts (is.map (Item.map f)) = itemStarts is := by
  induction is with
  | nil => rfl
  | cons i is ih =>
    cases i with
    | script x => exact ih
    | frame g => exact congrArg (g.start :: ·) ih

theorem starts_map (r : Run X) : (r.map f).starts = r.starts := by
  obtain ⟨is, current⟩ := r
  have hcurrent : ((current.map fun (p : FrameStart × List X) => (p.1, p.2.map f)).map
      Prod.fst).toList = (current.map Prod.fst).toList := by
    cases current <;> rfl
  exact congrArg₂ (· ++ ·) (itemStarts_map f is) hcurrent

theorem chronicleFrom_map (k : ℕ) (is : List (Item X)) :
    chronicleFrom k (is.map (Item.map f)) = (chronicleFrom k is).map (Event.map f) := by
  induction is generalizing k with
  | nil => rfl
  | cons i is ih =>
    cases i with
    | script x => exact congrArg (Event.script k (f x) :: ·) (ih k)
    | frame g =>
      -- the stamps count frame starts, which a new name for the executions leaves alone
      have hevents : (g.map f).events k = (g.events k).map (Event.map f) := by
        simp [Frame.events, Frame.map, Event.map, Function.comp_def]
      rw [List.map_cons, Item.map, chronicleFrom, chronicleFrom, List.map_append, ih, hevents]

theorem chronicle_map (r : Run X) : (r.map f).chronicle = r.chronicle.map (Event.map f) := by
  obtain ⟨is, current⟩ := r
  have hlen : ∀ r : Run X, r.frames.length = (itemStarts r.items).length := by
    intro r
    simp [Run.frames, itemStarts]
  have hlen' : ((⟨is, current⟩ : Run X).map f).frames.length
      = (⟨is, current⟩ : Run X).frames.length := by
    rw [hlen, ← itemStarts_map f is]
    simp [Run.frames, itemStarts, Run.map]
  unfold Run.chronicle
  rw [List.map_append, hlen']
  refine congrArg₂ (· ++ ·) (chronicleFrom_map f 0 is) ?_
  -- the frame that is still open
  cases current with
  | none => rfl
  | some open? => simp [Run.map, Event.map, Function.comp_def]

end Map

/-! ### Which executions are written -/

/-- The three filters of the configuration. -/
inductive Filter where
  | skipVanilla | modID | formID
  deriving DecidableEq

/-- Whether a filter lets a form ID through. The mod of a form is the top byte of
its ID. -/
def Filter.keeps (o : Options) (refID : UInt32) : Filter → Bool
  | skipVanilla => ¬ (o.skipVanillaScripts ≠ 0 ∧ refID.toNat / 2 ^ 24 = 0)
  | modID => o.filterModID = 0 ∨ o.filterModID.toInt = (refID.toNat / 2 ^ 24 : ℕ)
  | formID => o.filterFormID = 0 ∨ o.filterFormID.toUInt32 = refID

/-- Whether an execution can be logged under some configuration: it is long enough
and runs on the main thread. -/
def Execution.loggable {F D : Type} [HookArith F D] (game : Game) (x : Execution F) : Bool :=
  ¬ HookArith.belowResolution x.elapsed ∧ x.threadID = game.mainThreadID

namespace Options

/-- Whether all three filters let a form ID through. -/
def passes (o : Options) (refID : UInt32) : Bool :=
  Filter.skipVanilla.keeps o refID && Filter.modID.keeps o refID &&
    Filter.formID.keeps o refID

/-- Whether profiling is on after the given frame starts: the initial setting, or its
negation when the number of hotkey taps is odd. -/
def enabledAfter (o : Options) (starts : List FrameStart) : Bool :=
  o.isModEnabled ^^
    decide (starts.countP (fun f => getIsKeyTapped f o.toggleExecutionHotkey) % 2 = 1)

/-- Whether an event goes to the log, `starts` being the frame starts of the run.
Frame ends do, `compact` then removing those of empty blocks. -/
def writes {F D : Type} [HookArith F D] (o : Options) (game : Game)
    (starts : List FrameStart) : Event (Execution F) → Bool
  | .script k x =>
    o.enabledAfter (starts.take k) && x.loggable game && o.passes x.script.refID
  | .frameEnd _ _ => true

end Options

/-- **The log of a run**, as events: the executions that are written, and the frame
ends whose block is not empty. -/
def Run.log {F D : Type} [HookArith F D] (game : Game) (o : Options)
    (r : Run (Execution F)) : List (Event (Execution F)) :=
  Blocks.compact Event.isFrameEnd (r.chronicle.filter (o.writes game r.starts))

/-- The log of a run with renamed executions. -/
theorem log_map {X F D : Type} [HookArith F D] (f : X → Execution F) (game : Game)
    (o : Options) (r : Run X) :
    (r.map f).log game o
      = (Blocks.compact Event.isFrameEnd
          (r.chronicle.filter fun e => o.writes game r.starts (e.map f))).map (Event.map f) := by
  unfold Run.log Blocks.compact
  rw [chronicle_map, starts_map, List.filter_map, Blocks.map_compactFrom (isFrameEnd_map f)]
  rfl

end RuntimeScriptProfiler
