import RuntimeScriptProfiler.Profiler.Calls
import RuntimeScriptProfiler.Profiler.Report

/-!
# The plugin inside the game's machine

Between two entries of a hook the game does what it likes with its registers, its x87 stack
and its memory, but does not touch the plugin's globals. A script execution is reported by
running the trampoline on the machine state in which the script runner enters it, on any
thread and with any x87 value on top of the stack; the halves of the main-loop hook are
compiled functions of the plugin that act on its globals (`GameStep`). A step of the machine
is labelled by what an observer of the game would have it report: the thread, the script and
the elapsed time are read off the state in which the trampoline is entered (`reported`).

Every step of the machine makes the calls of its label (`GameStep.simulates`), so whatever
the machine does, its globals are those that these calls lead to (`reachable_of_machine`),
and the log is that of the run that consists of them (`lines_of_machine`).
-/

namespace RuntimeScriptProfiler

open X86

section Machine

variable {T : Type*}

/-- A step of the machine and what is to be reported of it, the game being inside its main loop
or not before and after it. -/
inductive GameStep (fpu : X87 T) (game : Game) (target ret : Word) :
    Bool × State T (Profiler Float) → List (HookCall (Execution Float32)) →
      Bool × State T (Profiler Float) → Prop
  | other (inside : Bool) {s s' : State T (Profiler Float)} (hown : s'.own = s.own) :
      GameStep fpu game target ret (inside, s) [] (inside, s')
  | start (f : FrameStart) {s s' : State T (Profiler Float)}
      (hown : s'.own = startFrameExecutionTimer game f s.own) :
      GameStep fpu game target ret (false, s) [.start f] (true, s')
  | script (inside : Bool) {threadID : UInt32}
      {callee : State T (Profiler Float) → State T (Profiler Float)}
      {t : T} {st : List T} {s s' : State T (Profiler Float)}
      (hcallee : IsScriptHook game threadID callee) (hs : HookEntry s) (hst : s.st = t :: st)
      (hform : Untouched s (read32 s.mem (s.addr scriptArg) + refIDOffset))
      (hrun : run fpu callee (scriptRunnerExecuteTimeElapsedHook target ret) s = some s') :
      GameStep fpu game target ret (inside, s) [.script (reported fpu threadID t s)] (inside, s')
  | stop (counter : LargeInteger) {s s' : State T (Profiler Float)}
      (hown : s'.own = endFrameExecutionTimerAndLog Float32 counter s.own) :
      GameStep fpu game target ret (true, s) [.stop counter] (false, s')

/-- Steps of the machine, one after the other, and what is to be reported of them. -/
inductive GameRun (fpu : X87 T) (game : Game) (target ret : Word)
    (p : Bool × State T (Profiler Float)) :
    List (HookCall (Execution Float32)) → Bool × State T (Profiler Float) → Prop
  | refl : GameRun fpu game target ret p [] p
  | tail {cs cs' : List (HookCall (Execution Float32))}
      {p' p'' : Bool × State T (Profiler Float)} (hrun : GameRun fpu game target ret p cs p')
      (hstep : GameStep fpu game target ret p' cs' p'') :
      GameRun fpu game target ret p (cs ++ cs') p''

variable {fpu : X87 T} {game : Game} {target ret : Word}

/-- **A step of the machine makes the calls of its label.** -/
theorem GameStep.simulates {s₀ : Profiler Float} {cs cs' : List (HookCall (Execution Float32))}
    {p p' : Bool × State T (Profiler Float)} (hstep : GameStep fpu game target ret p cs' p')
    (h : Reachable game s₀ cs p.1 p.2.own) : Reachable game s₀ (cs ++ cs') p'.1 p'.2.own := by
  cases hstep with
  | other inside hown =>
    change Reachable game s₀ _ inside _
    rw [hown, List.append_nil]
    exact h
  | start f hown =>
    change Reachable game s₀ _ true _
    rw [hown]
    exact h.start f
  | script inside hcallee hs hst hform hrun =>
    -- the trampoline runs to one end, at which it has reported this execution
    obtain ⟨s', hrun', hown⟩ := hook_reports fpu target ret hs hst hcallee hform
    obtain rfl := Option.some.inj (hrun'.symm.trans hrun)
    change Reachable game s₀ _ inside _
    rw [hown]
    exact h.script _
  | stop counter hown =>
    change Reachable game s₀ _ false _
    rw [hown]
    exact h.stop counter

/-- **The globals of the machine.** Whatever the machine does after a state outside the main
loop, its globals are those that the calls of its steps lead to. -/
theorem reachable_of_machine {s : State T (Profiler Float)}
    {cs : List (HookCall (Execution Float32))} {p : Bool × State T (Profiler Float)}
    (hrun : GameRun fpu game target ret (false, s) cs p) :
    Reachable game s.own cs p.1 p.2.own := by
  induction hrun with
  | refl => exact Reachable.init
  | tail _ hstep ih => exact hstep.simulates ih

/-- **The log of a machine** that has loaded the plugin is that of a run: of the run with the
frames that the machine goes through and the executions that enter its trampoline, in the
order of its steps, each with its thread, its script and its elapsed time. -/
theorem lines_of_machine {logName : String} {o : Options} {s : State T (Profiler Float)}
    {cs : List (HookCall (Execution Float32))} {p : Bool × State T (Profiler Float)}
    (hs : s.own = loaded logName o) (hrun : GameRun fpu game target ret (false, s) cs p) :
    ∃ r : Run (Execution Float32), r.calls = cs ∧ r.current.isSome = p.1 ∧
      p.2.own.lines = preamble Float ++ (r.log game o).map (Event.message game) := by
  obtain ⟨r, hcalls, hcurrent, hexec⟩ := reachable_iff.mp (reachable_of_machine hrun)
  refine ⟨r, hcalls, hcurrent, ?_⟩
  rw [← hexec, hs, lines_run, lines_loaded]

end Machine

/-- The hook entered in a game that has loaded the plugin. -/
def sampleMachine : State Float32 (Profiler Float) where
  regs := sampleEntry.regs
  st := sampleEntry.st
  mem := sampleEntry.mem
  eip := 0
  own := loaded "log" sampleOptions

/-- A frame starts, a script is reported in it, and the frame stops. -/
theorem lines_of_machine_sampleMachine :
    let calls : List (HookCall (Execution Float32)) :=
      [.start ⟨fun _ _ => 0, 0⟩, .script (reported sampleX87 1 1 sampleMachine), .stop 16]
    ∃ s', GameRun sampleX87 sampleGame 0x10001000 0x10001050 (false, sampleMachine) calls
        (false, s') ∧
      ∃ r : Run (Execution Float32), r.calls = calls ∧ r.current.isSome = false ∧
        s'.own.lines
          = preamble Float ++ (r.log sampleGame sampleOptions).map (Event.message sampleGame) := by
  intro calls
  let s₁ : State Float32 (Profiler Float) := { sampleMachine with
    own := startFrameExecutionTimer sampleGame ⟨fun _ _ => 0, 0⟩ sampleMachine.own }
  have hentry : HookEntry s₁ := ⟨by decide, by decide, by decide⟩
  have hcallee := isScriptHook_scriptHookCallee (T := Float32) sampleGame 1
  have hform : Untouched s₁ (read32 s₁.mem (s₁.addr scriptArg) + refIDOffset) :=
    ⟨by decide, by decide, by decide, by decide⟩
  obtain ⟨s₂, hhook, -⟩ := hook_reports sampleX87 0x10001000 0x10001050 hentry rfl hcallee hform
  let s₃ : State Float32 (Profiler Float) := { s₂ with
    own := endFrameExecutionTimerAndLog Float32 16 s₂.own }
  have hrun : GameRun sampleX87 sampleGame 0x10001000 0x10001050 (false, sampleMachine) calls
      (false, s₃) := by
    have hstart : GameStep sampleX87 sampleGame 0x10001000 0x10001050 (false, sampleMachine)
        [.start ⟨fun _ _ => 0, 0⟩] (true, s₁) := .start _ rfl
    have hscript : GameStep sampleX87 sampleGame 0x10001000 0x10001050 (true, s₁)
        [.script (reported sampleX87 1 1 s₁)] (true, s₂) :=
      .script true hcallee hentry rfl hform hhook
    have hstop : GameStep sampleX87 sampleGame 0x10001000 0x10001050 (true, s₂) [.stop 16]
        (false, s₃) := .stop 16 rfl
    exact ((GameRun.refl.tail hstart).tail hscript).tail hstop
  exact ⟨s₃, hrun, lines_of_machine rfl hrun⟩

end RuntimeScriptProfiler
