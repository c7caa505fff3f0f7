import RuntimeScriptProfiler.Log.IDebugLog
import RuntimeScriptProfiler.Profiler.Arith

/-!
# The plugin's state and hooks

The globals of the plugin (`Profiler`) and the functions that act on them: the
loader `nvsePluginLoad` with `handleIniOptions`, the script hook
`doScriptRunnerExecuteTimeElapsed`, and the two halves of the main-loop hook,
`startFrameExecutionTimer` and `endFrameExecutionTimerAndLog`.

What the hooks ask of the game and of Windows comes in as data: the main thread
and the counter frequency are fixed over a run (`Game`), the keyboard and the
counter are read at a frame's start (`FrameStart`), the thread, the script and the
elapsed time are those of a reported execution (`Execution`), and the settings file
is the function that `GetPrivateProfileIntA` reads (`PrivateProfile`).
-/

namespace RuntimeScriptProfiler

/-! ### What the hooks are given -/

/-- The `QuadPart` of a `LARGE_INTEGER`. Differences of readings are exact: an
overflowing one has no meaning in the source. -/
abbrev LargeInteger := ℤ

/-- The `HighPart` of a `LARGE_INTEGER`. -/
def LargeInteger.highPart (q : LargeInteger) : ℤ := q / 2 ^ 32

/-- What stays the same over a run: the main thread, and the frequency of the
performance counter, fixed at boot and never zero. -/
structure Game where
  mainThreadID : UInt32
  frequency : LargeInteger
  frequency_pos : 0 < frequency

/-- A game whose main thread is `1`, with a counter of 1000 ticks a second. -/
def sampleGame : Game := ⟨1, 1000, by decide⟩

/-- A script form, of which the hook reads the form ID. -/
structure Script where
  refID : UInt32
  deriving DecidableEq

/-- The top byte of the form ID, which the source overlays on it as the fourth of
its bytes. -/
def Script.modIndex (s : Script) : UInt8 := (s.refID >>> 24).toUInt8

/-- One report of the script runner: the calling thread, the script and the elapsed
time. -/
structure Execution (F : Type) where
  threadID : UInt32
  script : Script
  elapsed : F
  deriving DecidableEq

/-- A script of the second plugin in the load order, run for half a second. -/
def sampleExecution : Execution Float32 := ⟨1, ⟨0x01000800⟩, 0.5⟩

/-- The key states the game can be asked for. -/
inductive KeyState where
  | isHeld | isPressed | isDepressed | isChanged
  deriving DecidableEq

/-- What the start of a frame reads: the game's answers about the keyboard, and the
counter. -/
structure FrameStart where
  input : Int32 → KeyState → UInt32
  counter : LargeInteger

/-- The settings file, as `GetPrivateProfileIntA` reads it: section, key and default
to value. -/
abbrev PrivateProfile := String → String → Int32 → UInt32

/-! ### The globals -/

/-- The settings, with `isModEnabled`, which the hotkey changes later. -/
structure Options where
  filterFormID : Int32
  filterModID : Int32
  skipVanillaScripts : Int32
  toggleExecutionHotkey : Int32
  isModEnabled : Bool
  showToggleMessage : Bool
  deriving DecidableEq

/-- Profiling on from the start, nothing filtered. -/
def sampleOptions : Options := ⟨0, 0, 0, 0, true, false⟩

/-- A message queued for the screen. -/
structure UIMessage where
  msg : String
  emotion : UInt32
  ddsPath : Option String
  soundName : Option String
  msgTime : ℕ
  maybeNextToDisplay : Bool
  deriving DecidableEq

/-- The globals of the plugin, with what it has printed to the game's console and
queued for its screen. -/
structure Profiler (D : Type) where
  options : Options
  mainLoopExecuting : Bool
  scriptWasExecutedThisFrame : Bool
  bufferA : LargeInteger
  bufferB : LargeInteger
  freqBuffer : LargeInteger
  gLog : IDebugLog D
  console : List String
  queued : List UIMessage

namespace Profiler

/-- The messages on the log's file. -/
def lines {D : Type} (s : Profiler D) : List (Message D) := s.gLog.lines

end Profiler

/-! ### Loading -/

/-- `HandleIniOptions`. The key of the mod filter has a trailing space in the
source. -/
def handleIniOptions (ini : PrivateProfile) : Options where
  filterFormID := (ini "Main" "iFilterFormID" 0).toInt32
  filterModID := (ini "Main" "iFilterModID " 0).toInt32
  skipVanillaScripts := (ini "Main" "bSkipVanillaScripts" 0).toInt32
  toggleExecutionHotkey := (ini "Main" "iToggleExecutionHotkey" 0).toInt32
  isModEnabled := ini "Main" "bStartGameEnabled" 1 != 0
  showToggleMessage := ini "Main" "bShowToggleMessage" 0 != 0

section Load

variable {D : Type} [PrintfDouble D]

/-- The globals before the plugin is loaded, its log constructed. -/
def Profiler.statics (gLog : IDebugLog D) : Profiler D where
  options := ⟨0, 0, 0, 0, false, false⟩
  mainLoopExecuting := false
  scriptWasExecutedThisFrame := false
  bufferA := 0
  bufferB := 0
  freqBuffer := 0
  gLog := gLog
  console := []
  queued := []

/-- `NVSEPlugin_Load`, without the patches it makes to the game's code. -/
def nvsePluginLoad (ini : PrivateProfile) (s : Profiler D) : Profiler D :=
  let gLog := s.gLog.msg (.text "RuntimeScriptProfiler Initializing...")
  let gLog := gLog.indent
  let gLog := gLog.setAutoFlush false
  let gLog := gLog.outdent
  let gLog := gLog.msg (.text "RuntimeScriptProfiler Initialized!\n\n")
  let gLog := gLog.msg (.text "Script\t\t\t\t\t\t\t\t\t\tElapsed Time\n")
  { s with gLog := gLog, options := handleIniOptions ini }

end Load

/-! ### The hooks -/

section Hooks

variable {F D : Type} [HookArith F D]

/-- `DoScriptRunnerExecuteTimeElapsed`. -/
def doScriptRunnerExecuteTimeElapsed (game : Game) (x : Execution F) (s : Profiler D) :
    Profiler D :=
  let o := s.options
  if ¬ o.isModEnabled then s
  else if HookArith.belowResolution x.elapsed then s
  else if x.threadID ≠ game.mainThreadID then s
  else if o.skipVanillaScripts ≠ 0 ∧ x.script.modIndex = 0 then s
  -- `modIndex` is promoted to `int`, `g_FilterFormID` converted to `UInt32`
  else if o.filterModID ≠ 0 ∧ x.script.modIndex.toUInt32.toInt32 ≠ o.filterModID then s
  else if o.filterFormID ≠ 0 ∧ x.script.refID ≠ o.filterFormID.toUInt32 then s
  else
    -- set whether or not the main loop is executing: its test is commented out
    { s with
      gLog := s.gLog.msg (.entry x.script.refID (HookArith.scriptMs x.elapsed))
      scriptWasExecutedThisFrame := true }

/-- `GetDXKeyState`. -/
def getDXKeyState (f : FrameStart) (key : Int32) (state : KeyState) : Bool :=
  f.input key state != 0

/-- `GetIsKeyTapped`. -/
def getIsKeyTapped (f : FrameStart) (key : Int32) : Bool := getDXKeyState f key .isPressed

/-- The first half of `StartFrameExecutionTimer`: the hotkey. -/
def toggleExecution (f : FrameStart) (s : Profiler D) : Profiler D :=
  if getIsKeyTapped f s.options.toggleExecutionHotkey then
    let enabled := !s.options.isModEnabled
    let message := if enabled then "Profiling Enabled" else "Profiling Disabled"
    { s with
      options := { s.options with isModEnabled := enabled }
      console := s.console ++ [message]
      queued :=
        if s.options.showToggleMessage then s.queued ++ [⟨message, 0, none, none, 1, false⟩]
        else s.queued }
  else s

/-- `StartFrameExecutionTimer`. -/
def startFrameExecutionTimer (game : Game) (f : FrameStart) (s : Profiler D) : Profiler D :=
  let s := toggleExecution f s
  -- read again at every frame for as long as its high part is zero
  let s := if s.freqBuffer.highPart = 0 then { s with freqBuffer := game.frequency } else s
  { s with bufferA := f.counter, mainLoopExecuting := true }

/-- `EndFrameExecutionTimerAndLog`, the counter read as `stop`. The elapsed times it
logs are those of the arithmetic of `F`. -/
def endFrameExecutionTimerAndLog (F : Type) {D : Type} [HookArith F D]
    (stop : LargeInteger) (s : Profiler D) : Profiler D :=
  let s := { s with bufferB := stop }
  let elapsedTime := HookArith.frameMs F (s.bufferB - s.bufferA) s.freqBuffer
  let s :=
    -- not whether profiling is on: a block that is open is closed either way
    if s.scriptWasExecutedThisFrame then
      { s with
        gLog := ((s.gLog.setAutoFlush true).msg (.separator elapsedTime)).setAutoFlush false }
    else s
  { s with mainLoopExecuting := false, scriptWasExecutedThisFrame := false }

end Hooks

end RuntimeScriptProfiler
