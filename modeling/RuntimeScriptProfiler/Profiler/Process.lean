import RuntimeScriptProfiler.Profiler.Durability

/-!
# The file a process leaves

The log is opened when the plugin's library is loaded, under the first of six names that
the file system accepts, and the plugin is configured by the settings file that its loader
finds. `text_process` follows a process from there through any run: the text of the file is
the loader's three lines and the lines of the run's log, and if no name is accepted nothing
is written at all.

The second half needs no invariant of the plugin's flags. The plugin acts on the log through
four operations only, so what these keep, the loader and every run keep
(`LogInvariant.load`, `LogInvariant.run`).
-/

namespace RuntimeScriptProfiler

/-! ### What the hooks do to the log -/

/-- The start of a frame leaves the log alone, whether or not it finds the hotkey tapped. -/
theorem gLog_start {D : Type} (game : Game) (f : FrameStart) (s : Profiler D) :
    (startFrameExecutionTimer game f s).gLog = s.gLog := by
  have htoggle : (toggleExecution f s).gLog = s.gLog := by
    unfold toggleExecution
    split <;> rfl
  unfold startFrameExecutionTimer
  by_cases hq : (toggleExecution f s).freqBuffer.highPart = 0
  · simp only [if_pos hq, htoggle]
  · simp only [if_neg hq, htoggle]

/-- A property of the log that the operations of the plugin keep. -/
structure LogInvariant {D : Type} [PrintfDouble D] (P : IDebugLog D → Prop) : Prop where
  msg : ∀ m g, P g → P (g.msg m)
  setAutoFlush : ∀ b g, P g → P (g.setAutoFlush b)
  indent : ∀ g, P g → P g.indent
  outdent : ∀ g, P g → P g.outdent

namespace LogInvariant

variable {F D : Type} [HookArith F D] {P : IDebugLog D → Prop} {game : Game}
  {s : Profiler D}

theorem script (hP : LogInvariant P) (x : Execution F) (h : P s.gLog) :
    P (doScriptRunnerExecuteTimeElapsed game x s).gLog := by
  rw [doScriptRunnerExecuteTimeElapsed_eq]
  split
  · exact hP.msg _ _ h
  · exact h

theorem stop (hP : LogInvariant P) (t : LargeInteger) (h : P s.gLog) :
    P (endFrameExecutionTimerAndLog F t s).gLog := by
  unfold endFrameExecutionTimerAndLog
  simp only
  split
  · exact hP.setAutoFlush _ _ (hP.msg _ _ (hP.setAutoFlush _ _ h))
  · exact h

theorem scripts (hP : LogInvariant P) (xs : List (Execution F)) (h : P s.gLog) :
    P (runScripts game xs s).gLog := by
  induction xs generalizing s with
  | nil => exact h
  | cons x xs ih => exact ih (hP.script x h)

omit [HookArith F D] in
theorem load [PrintfDouble D] (hP : LogInvariant P) (ini : PrivateProfile) (h : P s.gLog) :
    P (nvsePluginLoad ini s).gLog := by
  unfold nvsePluginLoad
  simp only
  have hindent : P ((s.gLog.msg (.text "RuntimeScriptProfiler Initializing...")).indent) :=
    hP.indent _ (hP.msg _ _ h)
  exact hP.msg _ _ (hP.msg _ _ (hP.outdent _ (hP.setAutoFlush _ _ hindent)))

/-- **What the log's operations keep, every run keeps.** -/
theorem run (hP : LogInvariant P) (r : Run (Execution F)) (h : P s.gLog) :
    P (r.exec game s).gLog := by
  obtain ⟨is, current⟩ := r
  have hitems : P (execItems game is s).gLog := by
    induction is generalizing s with
    | nil => exact h
    | cons i is ih =>
      apply ih
      cases i with
      | script x => exact hP.script x h
      | frame f => exact hP.stop f.stop (hP.scripts f.scripts (by rwa [gLog_start]))
  -- the start of a frame does not touch the log
  cases current with
  | none => exact hitems
  | some open? => exact hP.scripts open?.2 (by rwa [gLog_start])

end LogInvariant

/-! ### The process -/

section Process

variable {F D : Type} [HookArith F D]

/-- The path the log is opened with. -/
def logPath : String := "RuntimeScriptProfiler.log"

/-- The globals when the plugin's library has been loaded, `fsopen` being the file
system's answer for each name. -/
def attached (fsopen : String → Bool) : Profiler D :=
  Profiler.statics ((IDebugLog.statics D).openLog fsopen logPath)

/-- The globals after `NVSEPlugin_Load` and a run. -/
def process (fsopen : String → Bool) (ini : PrivateProfile) (game : Game)
    (r : Run (Execution F)) : Profiler D :=
  r.exec game (nvsePluginLoad ini (attached fsopen))

theorem chars_runFile (game : Game) (logName : String) (o : Options)
    (r : Run (Execution F)) :
    (runFile game logName o r : FILE D).chars
      = text (preamble D ++ (r.log game o).map (Event.message game)) := by
  rw [FILE.chars, ops_run, List.flatMap_append, flatMap_chars_lineWrites,
    flatMap_chars_flatMap]
  rfl

/-- Under the first name that is accepted the process writes what the loaded plugin does. -/
theorem logFile_process {fsopen : String → Bool} (ini : PrivateProfile) (game : Game)
    (r : Run (Execution F)) {name : String}
    (hname : (IDebugLog.names logPath).find? fsopen = some name) :
    (process fsopen ini game r : Profiler D).gLog.logFile
      = some (runFile game name (handleIniOptions ini) r) := by
  -- with the file open, the globals are those that runs have been followed from
  have hattached : (attached fsopen : Profiler D) = booted name := by
    simp only [attached, IDebugLog.openLog, hname, Option.map_some, booted]
  have h := loaded_run game name (handleIniOptions ini) r
  rw [← nvsePluginLoad_booted, ← hattached] at h
  exact h.log.logFile

theorem logFile_unopened : LogInvariant fun g : IDebugLog D => g.logFile = none where
  msg m _ h := IDebugLog.logFile_log_of_none h .message m
  setAutoFlush _ _ h := h
  indent _ h := h
  outdent g h := g.logFile_outdent.trans h

/-- **The file a process leaves.** If one of the names of the log is accepted, the file
has the first such name, and its text is that of the loader's lines and the lines of the
run's log under the settings of the file. If none is, no file is written. -/
theorem text_process (fsopen : String → Bool) (ini : PrivateProfile) (game : Game)
    (r : Run (Execution F)) :
    let s := process fsopen ini game r
    (∀ name, (IDebugLog.names logPath).find? fsopen = some name →
      ∃ file : FILE D, s.gLog.logFile = some file ∧ file.name = name ∧
        file.chars = text (preamble D ++ (r.log game (handleIniOptions ini)).map
          (Event.message game))) ∧
      ((IDebugLog.names logPath).find? fsopen = none → s.gLog.logFile = none) := by
  intro s
  constructor
  · intro name hname
    exact ⟨_, logFile_process ini game r hname, rfl,
      chars_runFile game name (handleIniOptions ini) r⟩
  · intro hnone
    -- without a file no operation of the log opens one
    have hattached : (attached fsopen : Profiler D).gLog.logFile = none := by
      simp only [attached, Profiler.statics, IDebugLog.openLog, hnone, Option.map_none]
    exact logFile_unopened.run r (logFile_unopened.load ini hattached)

end Process

end RuntimeScriptProfiler
