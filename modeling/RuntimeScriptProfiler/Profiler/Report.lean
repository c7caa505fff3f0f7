import RuntimeScriptProfiler.Profiler.Hooks
import RuntimeScriptProfiler.Profiler.Trampoline

/-!
# What the trampoline reports

The trampoline and the script hook put together. The callee of the trampoline is
`doScriptRunnerExecuteTimeElapsed` acting on the plugin's globals, which are the
callee's own part of the machine's state; it finds its arguments on the stack and the
form ID in the script form. Whatever the game's registers and memory, running the
trampoline reports one execution: the script of `[ebp+8]`, and the elapsed time that
was on top of the x87 stack (`hook_reports`).
-/

namespace RuntimeScriptProfiler

open X86

section Report

variable {T : Type*}

/-- Where a form keeps its ID. -/
def refIDOffset : Word := 0xC

/-- The execution that the script hook is called with on a thread, its return address
on top of the stack and its arguments behind it. -/
def calledWith {σ : Type*} (threadID : UInt32) (s : State T σ) : Execution Float32 :=
  let script := read32 s.mem (s.regs .esp + 4)
  { threadID := threadID
    script := ⟨⟨read32 s.mem (script + refIDOffset)⟩⟩
    elapsed := .ofBits ⟨read32 s.mem (s.regs .esp + 8)⟩ }

/-- The execution to be reported when a thread enters the trampoline with `t` on top of the x87
stack: that of the script at `[ebp+8]`, with the elapsed time as `fstp` stores it. -/
def reported {σ : Type*} (fpu : X87 T) (threadID : UInt32) (t : T) (s : State T σ) :
    Execution Float32 where
  threadID := threadID
  script := ⟨⟨read32 s.mem (read32 s.mem (s.addr scriptArg) + refIDOffset)⟩⟩
  elapsed := Float32.ofBits ⟨fpu.store t⟩

/-- A callee that keeps to `stdcall` and is the script hook on the plugin's globals. -/
structure IsScriptHook (game : Game) (threadID : UInt32)
    (callee : State T (Profiler Float) → State T (Profiler Float)) : Prop where
  returns : ∀ s, StdcallReturn 8 s (callee s)
  own : ∀ s, (callee s).own
    = doScriptRunnerExecuteTimeElapsed game (calledWith threadID s) s.own

/-- Such a callee: it changes no register but the stack pointer, and none of the game's
memory. -/
def scriptHookCallee (game : Game) (threadID : UInt32) (s : State T (Profiler Float)) :
    State T (Profiler Float) :=
  { s with
    regs := Function.update s.regs .esp (s.regs .esp + 4 + 8)
    own := doScriptRunnerExecuteTimeElapsed game (calledWith threadID s) s.own }

theorem isScriptHook_scriptHookCallee (game : Game) (threadID : UInt32) :
    IsScriptHook game threadID (scriptHookCallee (T := T) game threadID) where
  returns s := by
    refine ⟨rfl, ?_, rfl, fun _ _ => rfl⟩
    intro r hr
    have hesp : r ≠ .esp := by rintro rfl; exact absurd hr (by decide)
    exact Function.update_of_ne hesp _ _
  own _ := rfl

/-- A word of memory that the trampoline does not write: it overlaps neither the local
with the elapsed time nor the eleven words below the stack pointer. -/
structure Untouched {σ : Type*} (s : State T σ) (a : Word) : Prop where
  above : 4 ≤ (a - s.addr elapsedTime).toNat
  below : 4 ≤ (s.addr elapsedTime - a).toNat
  stack : a.toNat + 4 + 44 ≤ (s.regs .esp).toNat ∨ s.regs .esp ≤ a
  top : a.toNat + 4 ≤ 2 ^ 32

variable (fpu : X87 T) (t : T) (st : List T)

/-- The callee's view of a word that the trampoline does not write. -/
theorem read32_at_call {σ : Type*} {s : State T σ} (hs : HookEntry s) {a : Word}
    (ha : Untouched s a) (ret : Word) :
    read32 (((atPushad fpu t st s).pushad.pushes (callWords fpu t s)).push ret).mem a
      = read32 s.mem a := by
  have hroom := hs.room
  have htop := ha.top
  have hstored : read32 (atPushad fpu t st s).mem a = read32 s.mem a :=
    read32_write32_of_disjoint ha.above ha.below
  have hesp : (atPushad fpu t st s).regs .esp = s.regs .esp := rfl
  -- all eleven pushes at once
  have hpushes : ((atPushad fpu t st s).pushad.pushes (callWords fpu t s)).push ret
      = (atPushad fpu t st s).pushes (State.savedRegs.map (atPushad fpu t st s).regs
          ++ (callWords fpu t s ++ [ret])) := by
    rw [State.pushes_append, State.pushes_append]
    rfl
  have hlen : 4 * (State.savedRegs.map (atPushad fpu t st s).regs
      ++ (callWords fpu t s ++ [ret])).length = 44 := rfl
  rw [hpushes, ← hstored]
  apply read32_congr
  intro i hi
  -- the word lies below all that is pushed, or above it
  rcases ha.stack with hbelow | habove
  · apply State.pushes_mem_below
    rw [hlen, hesp]
    bv_omega
  · apply State.pushes_mem
    · rw [hlen, hesp]
      exact hroom
    · rw [hesp]
      bv_omega

variable {t st}

/-- **What the trampoline reports.** Entered with `t` on top of the x87 stack, it runs
to its end, and the plugin's globals are then what the script hook makes of them when
the script at `[ebp+8]` is reported with the stored elapsed time. -/
theorem hook_reports {game : Game} {threadID : UInt32}
    {callee : State T (Profiler Float) → State T (Profiler Float)}
    {s : State T (Profiler Float)} (target ret : Word) (hs : HookEntry s)
    (hst : s.st = t :: st) (hcallee : IsScriptHook game threadID callee)
    (hform : Untouched s (read32 s.mem (s.addr scriptArg) + refIDOffset)) :
    ∃ s', run fpu callee (scriptRunnerExecuteTimeElapsedHook target ret) s = some s' ∧
      s'.own = doScriptRunnerExecuteTimeElapsed game (reported fpu threadID t s) s.own := by
  obtain ⟨atCall, s', -, hbefore, hrun, -, hscript, htime, -, -, -, -, -, hown⟩ :=
    hook_run fpu target ret hs hst hcallee.returns
  have hatCall := Option.some.inj
    (hbefore.symm.trans (run_hookBeforeCall fpu t st callee target ret hs hst))
  have hroom := hs.room
  have hesp : atCall.regs .esp = s.regs .esp - 40 := by
    rw [hatCall, State.pushes_esp, pushad_esp]
    change s.regs .esp - 32 - 8 = _
    bv_omega
  -- the arguments, seen from behind the return address
  have hargs : ∀ x, atCall.regs .esp ≤ x → x.toNat + 4 ≤ 2 ^ 32 →
      read32 (atCall.push ret).mem x = read32 atCall.mem x := by
    intro x hx htop
    refine read32_congr_above (fun y hy => State.push_mem ret ?_ hy) hx htop
    rw [hesp]
    bv_omega
  have hfirst : read32 (atCall.push ret).mem ((atCall.push ret).regs .esp + 4)
      = read32 s.mem (s.addr scriptArg) := by
    rw [State.push_esp, BitVec.sub_add_cancel, hargs _ (BitVec.le_refl _), hscript]
    rw [hesp]
    bv_omega
  have hsecond : read32 (atCall.push ret).mem ((atCall.push ret).regs .esp + 8)
      = fpu.store t := by
    have haddr : (atCall.push ret).regs .esp + 8 = atCall.regs .esp + 4 := by
      rw [State.push_esp]
      bv_omega
    rw [haddr, hargs, htime]
    · rw [hesp]
      bv_omega
    · rw [hesp]
      bv_omega
  -- the form ID, which the script hook reads through its first argument
  have hrefID := read32_at_call fpu t st hs hform ret
  rw [← hatCall] at hrefID
  have hcalled : calledWith threadID (atCall.push ret) = reported fpu threadID t s := by
    simp only [calledWith, reported, hfirst, hsecond, hrefID]
  refine ⟨s', hrun, ?_⟩
  rw [hown, hcallee.own, hcalled, hatCall]
  rfl

end Report

end RuntimeScriptProfiler
