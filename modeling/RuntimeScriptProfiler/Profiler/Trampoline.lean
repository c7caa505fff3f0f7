import RuntimeScriptProfiler.Framework.X86

/-!
# The trampoline in the script runner

`ScriptRunnerExecuteTimeElapsedHook` is entered by a jump that overwrites three
instructions of the script runner. It stores the elapsed time, calls
`DoScriptRunnerExecuteTimeElapsed` between a `pushad` and a `popad`, runs what is left
of the overwritten instructions and jumps back.

Compared with the overwritten instructions alone (`overwritten`), it gives back every
register but one, the x87 stack, and the memory at and above the stack pointer
(`hook_run`). The one is `eax`: the hook loads the elapsed time into it before `pushad`
saves it, so that `popad` restores the elapsed time. The trampoline is transparent
exactly when `eax` held that value already (`hook_transparent_iff`).
-/

namespace RuntimeScriptProfiler

open X86

/-! ### The code -/

/-- The script runner's local that holds the elapsed time. -/
def elapsedTime : Address := ⟨.ebp, -0x760⟩

/-- The argument `script`, the third of the hook's and the first on the stack. -/
def scriptArg : Address := ⟨.ebp, 8⟩

/-- Where the hook returns to. -/
def retnAddr : Word := 0x5E10ED

/-- `ScriptRunnerExecuteTimeElapsedHook`, `target` being the address of
`DoScriptRunnerExecuteTimeElapsed` and `ret` that of the instruction after the call. -/
def scriptRunnerExecuteTimeElapsedHook (target ret : Word) : List Instr :=
  [.fstp elapsedTime,
    -- before `pushad`, so that `popad` does not give `eax` back
    .mov .eax elapsedTime,
    .pushad,
    .pushReg .eax,
    .pushMem scriptArg,
    .call target ret,
    -- what is left of the overwritten instructions follows
    .popad,
    .pushReg .ecx,
    .fld elapsedTime,
    .jmp retnAddr]

/-- The hook up to its call. -/
def hookBeforeCall (target ret : Word) : List Instr :=
  (scriptRunnerExecuteTimeElapsedHook target ret).take 5

/-- The instructions that the jump to the hook overwrites. -/
def overwritten : List Instr := [.fstp elapsedTime, .pushReg .ecx, .fld elapsedTime]

section Trampoline

variable {T σ : Type*}

/-- The script runner's frame when it enters the hook: its local at `[ebp-0x760]` lies
at or above the stack pointer, its argument at `[ebp+8]` inside the address space, and
below the stack pointer there is room for the eleven words of the hook. -/
structure HookEntry (s : State T σ) : Prop where
  room : 44 ≤ (s.regs .esp).toNat
  frame : (s.regs .esp).toNat + 0x760 ≤ (s.regs .ebp).toNat
  args : (s.regs .ebp).toNat + 12 ≤ 2 ^ 32

/-- The hook, entered in state `s` with `t` on top of the x87 stack, does what the
overwritten instructions do: it reaches their end with the same registers, x87 stack
and memory at and above the stack pointer. The callee is given the script and the
stored elapsed time. -/
def Transparent (fpu : X87 T) (callee : State T σ → State T σ) (target ret : Word)
    (t : T) (s : State T σ) : Prop :=
  ∃ atCall s' s'',
    run fpu callee (hookBeforeCall target ret) s = some atCall ∧
    run fpu callee (scriptRunnerExecuteTimeElapsedHook target ret) s = some s' ∧
    run fpu callee overwritten s = some s'' ∧
    read32 atCall.mem (atCall.regs .esp) = read32 s.mem (s.addr scriptArg) ∧
    read32 atCall.mem (atCall.regs .esp + 4) = fpu.store t ∧
    s'.eip = retnAddr ∧ s'.regs = s''.regs ∧ s'.st = s''.st ∧
    ∀ a, s'.regs .esp ≤ a → s'.mem a = s''.mem a

/-! ### Running the hook -/

variable (fpu : X87 T) (t : T) (st : List T)

/-- The state after `fstp`. -/
def stored (s : State T σ) : State T σ :=
  { s with st := st, mem := write32 s.mem (s.addr elapsedTime) (fpu.store t) }

/-- The state at the hook's `pushad`. -/
def atPushad (s : State T σ) : State T σ := (stored fpu t st s).setReg .eax (fpu.store t)

/-- The words the hook pushes for its call: the stored elapsed time and the script. -/
def callWords (s : State T σ) : List Word :=
  [fpu.store t, read32 s.mem (s.addr scriptArg)]

variable {s : State T σ}

@[simp] theorem stored_regs : (stored fpu t st s).regs = s.regs := rfl

theorem HookEntry.stored (hs : HookEntry s) : HookEntry (stored fpu t st s) :=
  ⟨hs.room, hs.frame, hs.args⟩

omit t st in
theorem addr_elapsedTime (s : State T σ) : s.addr elapsedTime = s.regs .ebp - 0x760 :=
  (BitVec.sub_eq_add_neg _ _).symm

/-- The stored elapsed time, read back. -/
theorem read32_stored : read32 (stored fpu t st s).mem (s.addr elapsedTime) = fpu.store t :=
  read32_write32

/-- Storing the elapsed time leaves the argument alone. -/
theorem read32_stored_scriptArg (hs : HookEntry s) :
    read32 (stored fpu t st s).mem (s.addr scriptArg) = read32 s.mem (s.addr scriptArg) := by
  have hframe := hs.frame
  have hargs := hs.args
  have hscript : s.addr scriptArg = s.regs .ebp + 8 := rfl
  apply read32_write32_of_disjoint
  · rw [addr_elapsedTime, hscript]
    bv_omega
  · rw [addr_elapsedTime, hscript]
    bv_omega

/-- Where the stack pointer is after `pushad`. -/
theorem pushad_esp : ((atPushad fpu t st s).pushad).regs .esp = s.regs .esp - 32 :=
  State.pushes_esp _ _

/-- `pushad` touches no memory at or above the stack pointer. -/
theorem mem_pushad (hs : HookEntry s) {a : Word} (ha : s.regs .esp ≤ a) :
    ((atPushad fpu t st s).pushad).mem a = (stored fpu t st s).mem a := by
  have hroom := hs.room
  refine State.pushes_mem ?_ ha
  change 32 ≤ (s.regs .esp).toNat
  omega

/-- The hook up to its call. -/
theorem run_hookBeforeCall (callee : State T σ → State T σ) (target ret : Word)
    (hs : HookEntry s) (hst : s.st = t :: st) :
    run fpu callee (hookBeforeCall target ret) s
      = some ((atPushad fpu t st s).pushad.pushes (callWords fpu t s)) := by
  -- one fact for each instruction
  have hfstp : exec fpu callee (.fstp elapsedTime) s = some (stored fpu t st s) := by
    simp only [exec, hst]
    rfl
  have hmov : exec fpu callee (.mov .eax elapsedTime) (stored fpu t st s)
      = some (atPushad fpu t st s) :=
    congrArg (fun w => some ((stored fpu t st s).setReg .eax w)) (read32_stored fpu t st)
  have heax : ((atPushad fpu t st s).pushad).regs .eax = fpu.store t :=
    State.pushes_regs (by decide) _ _
  have hpush : exec fpu callee (.pushReg .eax) (atPushad fpu t st s).pushad
      = some ((atPushad fpu t st s).pushad.push (fpu.store t)) :=
    congrArg (fun w => some ((atPushad fpu t st s).pushad.push w)) heax
  -- the argument lies above everything pushed so far
  have harg : read32 ((atPushad fpu t st s).pushad.push (fpu.store t)).mem
      (((atPushad fpu t st s).pushad.push (fpu.store t)).addr scriptArg)
      = read32 s.mem (s.addr scriptArg) := by
    have haddr : ((atPushad fpu t st s).pushad.push (fpu.store t)).addr scriptArg
        = s.regs .ebp + 8 := by
      change ((atPushad fpu t st s).pushad.pushes [fpu.store t]).addr scriptArg = _
      rw [State.addr_pushes (by decide), State.pushad, State.addr_pushes (by decide)]
      rfl
    have hroom := hs.room
    have hframe := hs.frame
    have hargs := hs.args
    rw [haddr, ← read32_stored_scriptArg fpu t st hs]
    refine read32_congr_above (fun x hx => ?_) (BitVec.le_refl _) ?_
    · refine (State.push_mem _ ?_ ?_).trans (mem_pushad fpu t st hs ?_)
      · rw [pushad_esp]
        bv_omega
      · rw [pushad_esp]
        bv_omega
      · bv_omega
    · bv_omega
  have hpushMem : exec fpu callee (.pushMem scriptArg)
      ((atPushad fpu t st s).pushad.push (fpu.store t))
      = some ((atPushad fpu t st s).pushad.pushes (callWords fpu t s)) :=
    congrArg (fun w => some (((atPushad fpu t st s).pushad.push (fpu.store t)).push w)) harg
  calc run fpu callee (hookBeforeCall target ret) s
      = run fpu callee [.mov .eax elapsedTime, .pushad, .pushReg .eax, .pushMem scriptArg]
          (stored fpu t st s) := run_cons hfstp _
    _ = run fpu callee [.pushad, .pushReg .eax, .pushMem scriptArg] (atPushad fpu t st s) :=
        run_cons hmov _
    _ = run fpu callee [.pushReg .eax, .pushMem scriptArg] (atPushad fpu t st s).pushad :=
        run_cons rfl _
    _ = run fpu callee [.pushMem scriptArg]
          ((atPushad fpu t st s).pushad.push (fpu.store t)) := run_cons hpush _
    _ = some ((atPushad fpu t st s).pushad.pushes (callWords fpu t s)) := run_cons hpushMem _

/-- The call. The callee returns to the stack pointer and the memory that `pushad`
left. -/
theorem call_spec {callee : State T σ → State T σ} (ret : Word)
    (hs : HookEntry s) (hcallee : ∀ s₁, StdcallReturn 8 s₁ (callee s₁)) :
    let s₇ := callee (((atPushad fpu t st s).pushad.pushes (callWords fpu t s)).push ret)
    s₇.regs .esp = ((atPushad fpu t st s).pushad).regs .esp ∧ s₇.st = st ∧
      ∀ a, ((atPushad fpu t st s).pushad).regs .esp ≤ a →
        s₇.mem a = ((atPushad fpu t st s).pushad).mem a := by
  have hroom := hs.room
  -- the return address is one more word on the stack, and the callee pops all three
  have hpushes : ((atPushad fpu t st s).pushad.pushes (callWords fpu t s)).push ret
      = (atPushad fpu t st s).pushad.pushes (callWords fpu t s ++ [ret]) :=
    (State.pushes_append _ [ret] _).symm
  rw [hpushes]
  intro s₇
  have hret := hcallee ((atPushad fpu t st s).pushad.pushes (callWords fpu t s ++ [ret]))
  have hesp : ((atPushad fpu t st s).pushad.pushes (callWords fpu t s ++ [ret])).regs .esp
      = ((atPushad fpu t st s).pushad).regs .esp - 12 := State.pushes_esp _ _
  have hback : ((atPushad fpu t st s).pushad.pushes (callWords fpu t s ++ [ret])).regs .esp
      + 4 + 8 = ((atPushad fpu t st s).pushad).regs .esp := by
    rw [hesp]
    bv_omega
  refine ⟨?_, ?_, ?_⟩
  · rw [← hback]
    exact hret.esp
  · refine hret.st.trans ?_
    rw [State.pushes_st, State.pushad, State.pushes_st]
    rfl
  · intro a ha
    refine (hret.mem a ?_).trans (State.pushes_mem ?_ ha)
    · rw [hback]
      exact ha
    · rw [pushad_esp]
      change 12 ≤ _
      bv_omega

/-- The last two of the overwritten instructions. -/
def resumed (fpu : X87 T) (s : State T σ) : State T σ :=
  let s := s.push (s.regs .ecx)
  { s with st := fpu.load (read32 s.mem (s.addr elapsedTime)) :: s.st }

/-- From two states that agree on the stack pointer, `ebp`, `ecx`, the x87 stack and the
memory at and above the stack pointer, they lead to states that agree on the x87 stack
and the memory at and above the stack pointer. -/
theorem resumed_agree {r r' : State T σ} (hr : HookEntry r)
    (hregs : ∀ q ∈ [Reg.esp, .ebp, .ecx], r'.regs q = r.regs q) (hst : r'.st = r.st)
    (hmem : ∀ a, r.regs .esp ≤ a → r'.mem a = r.mem a) :
    (resumed fpu r').st = (resumed fpu r).st ∧
      ∀ a, (resumed fpu r).regs .esp ≤ a → (resumed fpu r').mem a = (resumed fpu r).mem a := by
  have hroom := hr.room
  have hframe := hr.frame
  have hesp := hregs .esp (by decide)
  have hebp := hregs .ebp (by decide)
  have hecx := hregs .ecx (by decide)
  have hpushed : ∀ a, r.regs .esp - 4 ≤ a →
      (r'.push (r'.regs .ecx)).mem a = (r.push (r.regs .ecx)).mem a := by
    intro a ha
    change write32 r'.mem (r'.regs .esp - 4) (r'.regs .ecx) a
      = write32 r.mem (r.regs .esp - 4) (r.regs .ecx) a
    rw [hesp, hecx]
    by_cases hin : (a - (r.regs .esp - 4)).toNat < 4
    · -- a byte of the pushed `ecx`
      rw [write32, write32, if_pos hin, if_pos hin]
    · rw [write32, write32, if_neg hin, if_neg hin]
      apply hmem
      bv_omega
  have haddr : (r'.push (r'.regs .ecx)).addr elapsedTime
      = (r.push (r.regs .ecx)).addr elapsedTime := by
    change r'.regs .ebp + _ = r.regs .ebp + _
    rw [hebp]
  refine ⟨?_, hpushed⟩
  -- both load the same word, which lies above the stack pointer
  change fpu.load (read32 (r'.push (r'.regs .ecx)).mem _) :: r'.st
    = fpu.load (read32 (r.push (r.regs .ecx)).mem _) :: r.st
  rw [haddr, hst]
  refine congrArg (fun w => fpu.load w :: r.st) (read32_congr_above hpushed ?_ ?_)
  · rw [addr_elapsedTime]
    change _ ≤ r.regs .ebp - 0x760
    bv_omega
  · rw [addr_elapsedTime]
    change (r.regs .ebp - 0x760).toNat + 4 ≤ 2 ^ 32
    bv_omega

/-- The overwritten instructions. -/
theorem run_overwritten (callee : State T σ → State T σ) (hst : s.st = t :: st) :
    run fpu callee overwritten s = some (resumed fpu (stored fpu t st s)) := by
  have hfstp : exec fpu callee (.fstp elapsedTime) s = some (stored fpu t st s) := by
    simp only [exec, hst]
    rfl
  exact run_cons hfstp _

/-- The callee's arguments are the two words on top of the stack. -/
theorem callWords_spec (hs : HookEntry s) :
    let atCall := (atPushad fpu t st s).pushad.pushes (callWords fpu t s)
    read32 atCall.mem (atCall.regs .esp) = read32 s.mem (s.addr scriptArg) ∧
      read32 atCall.mem (atCall.regs .esp + 4) = fpu.store t := by
  intro atCall
  have hroom := hs.room
  have hesp : atCall.regs .esp = ((atPushad fpu t st s).pushad).regs .esp - 8 :=
    State.pushes_esp _ _
  have hwords : ∀ i w, (callWords fpu t s)[i]? = some w →
      read32 atCall.mem
        (((atPushad fpu t st s).pushad).regs .esp - BitVec.ofNat 32 (4 * (i + 1))) = w := by
    intro i w hw
    refine State.read32_pushes ?_ hw
    rw [pushad_esp]
    change 8 ≤ _
    bv_omega
  constructor
  · rw [hesp]
    exact hwords 1 _ rfl
  · rw [hesp, show ((atPushad fpu t st s).pushad).regs .esp - 8 + 4
      = ((atPushad fpu t st s).pushad).regs .esp - 4 by bv_omega]
    exact hwords 0 _ rfl

/-- The hook, to its end. After `popad` it is where the overwritten `fstp` would be, but
for `eax` and what the callee has done. -/
theorem run_hook {callee : State T σ → State T σ} (target ret : Word)
    (hs : HookEntry s) (hst : s.st = t :: st)
    (hcallee : ∀ s₁, StdcallReturn 8 s₁ (callee s₁)) :
    let s₇ := callee (((atPushad fpu t st s).pushad.pushes (callWords fpu t s)).push ret)
    run fpu callee (scriptRunnerExecuteTimeElapsedHook target ret) s
      = some { resumed fpu { s₇ with regs := (atPushad fpu t st s).regs } with
          eip := retnAddr } := by
  intro s₇
  have hroom := hs.room
  obtain ⟨hesp₇, -, hmem₇⟩ := call_spec fpu t st ret hs hcallee
  have hpopad : s₇.popad = { s₇ with regs := (atPushad fpu t st s).regs } :=
    State.popad_pushad (show 32 ≤ (s.regs .esp).toNat by omega) hesp₇ hmem₇
  have hcall : exec fpu callee (.call target ret)
      ((atPushad fpu t st s).pushad.pushes (callWords fpu t s)) = some s₇ := rfl
  have hpop : exec fpu callee .popad s₇
      = some { s₇ with regs := (atPushad fpu t st s).regs } := congrArg some hpopad
  change run fpu callee (hookBeforeCall target ret
    ++ [.call target ret, .popad, .pushReg .ecx, .fld elapsedTime, .jmp retnAddr]) s = _
  rw [run_append, run_hookBeforeCall fpu t st callee target ret hs hst, Option.bind_some,
    run_cons hcall, run_cons hpop]
  rfl

variable {t st}

/-- **The hook and the overwritten instructions.** Both run to their end. They leave
the same x87 stack, the same memory at and above the stack pointer, and the same
registers except `eax`, in which the hook leaves the stored elapsed time. What the
callee keeps for itself is what the call made of it. -/
theorem hook_run {callee : State T σ → State T σ} (target ret : Word)
    (hs : HookEntry s) (hst : s.st = t :: st)
    (hcallee : ∀ s₁, StdcallReturn 8 s₁ (callee s₁)) :
    ∃ atCall s' s'',
      run fpu callee (hookBeforeCall target ret) s = some atCall ∧
      run fpu callee (scriptRunnerExecuteTimeElapsedHook target ret) s = some s' ∧
      run fpu callee overwritten s = some s'' ∧
      read32 atCall.mem (atCall.regs .esp) = read32 s.mem (s.addr scriptArg) ∧
      read32 atCall.mem (atCall.regs .esp + 4) = fpu.store t ∧
      s'.eip = retnAddr ∧ s'.regs = Function.update s''.regs .eax (fpu.store t) ∧
      s''.regs .eax = s.regs .eax ∧ s'.st = s''.st ∧
      (∀ a, s'.regs .esp ≤ a → s'.mem a = s''.mem a) ∧
      s'.own = (callee (atCall.push ret)).own := by
  have hroom := hs.room
  have hbefore := run_hookBeforeCall fpu t st callee target ret hs hst
  have hrun := run_hook fpu t st target ret hs hst hcallee
  obtain ⟨hscript, htime⟩ := callWords_spec fpu t st hs
  obtain ⟨-, hst₇, hmem₇⟩ := call_spec fpu t st ret hs hcallee
  generalize hs₇ : callee (((atPushad fpu t st s).pushad.pushes (callWords fpu t s)).push ret)
    = s₇ at hrun hst₇ hmem₇
  -- the two resume from states that agree on what is left to do
  have hkept : ∀ q ∈ [Reg.esp, .ebp, .ecx],
      ({ s₇ with regs := (atPushad fpu t st s).regs } : State T σ).regs q
        = (stored fpu t st s).regs q := by
    intro q hq
    refine Function.update_of_ne ?_ _ _
    rintro rfl
    exact absurd hq (by decide)
  have hmemory : ∀ a, (stored fpu t st s).regs .esp ≤ a →
      ({ s₇ with regs := (atPushad fpu t st s).regs } : State T σ).mem a
        = (stored fpu t st s).mem a := by
    intro a ha
    rw [stored_regs] at ha
    refine (hmem₇ a ?_).trans (mem_pushad fpu t st hs ha)
    rw [pushad_esp]
    bv_omega
  obtain ⟨hst', hmem'⟩ := resumed_agree fpu (hs.stored fpu t st) hkept hst₇ hmemory
  refine ⟨_, _, _, hbefore, hrun, run_overwritten fpu t st callee hst, hscript, htime, rfl,
    ?_, rfl, hst', hmem', ?_⟩
  · exact Function.update_comm (by decide) _ _ _
  · rw [hs₇]
    rfl

/-- A trampoline that is transparent gives back the value that `eax` had, and it leaves
the elapsed time there. -/
theorem eax_of_transparent {callee : State T σ → State T σ} {target ret : Word}
    (hs : HookEntry s) (hst : s.st = t :: st)
    (hcallee : ∀ s₁, StdcallReturn 8 s₁ (callee s₁))
    (h : Transparent fpu callee target ret t s) : s.regs .eax = fpu.store t := by
  obtain ⟨_, s', s'', -, hrun, hover, -, -, -, hregs, heax, -⟩ :=
    hook_run fpu target ret hs hst hcallee
  obtain ⟨_, r', r'', -, hrun', hover', -, -, -, hregs', -⟩ := h
  -- both runs end in one state only
  obtain rfl : s' = r' := Option.some.inj (hrun.symm.trans hrun')
  obtain rfl : s'' = r'' := Option.some.inj (hover.symm.trans hover')
  rw [← heax, ← hregs', hregs, Function.update_self]

/-- **When the trampoline is transparent.** It is exactly when `eax` holds the elapsed
time already: the hook loads it there before it saves the registers. -/
theorem hook_transparent_iff {callee : State T σ → State T σ} (target ret : Word)
    (hs : HookEntry s) (hst : s.st = t :: st)
    (hcallee : ∀ s₁, StdcallReturn 8 s₁ (callee s₁)) :
    Transparent fpu callee target ret t s ↔ s.regs .eax = fpu.store t := by
  constructor
  · exact eax_of_transparent fpu hs hst hcallee
  · intro h
    obtain ⟨atCall, s', s'', hbefore, hrun, hover, hscript, htime, heip, hregs, heax, hst',
      hmem, -⟩ := hook_run fpu target ret hs hst hcallee
    refine ⟨atCall, s', s'', hbefore, hrun, hover, hscript, htime, heip, ?_, hst', hmem⟩
    rw [hregs, ← h, ← heax, Function.update_eq_self]

end Trampoline

/-! ### A call that changes `eax` -/

/-- An x87 unit whose values are 32-bit floats. -/
def sampleX87 : X87 Float32 where
  store t := t.toBits.toBitVec
  load w := Float32.ofBits ⟨w⟩

/-- A callee that keeps the arguments it was called with and returns in `eax`. -/
def sampleCallee (s : State Float32 (List (Word × Word))) :
    State Float32 (List (Word × Word)) :=
  let esp := s.regs .esp
  { s with
    regs := Function.update (Function.update s.regs .eax 1) .esp (esp + 4 + 8)
    own := s.own ++ [(read32 s.mem (esp + 4), read32 s.mem (esp + 8))] }

theorem sampleCallee_return (s : State Float32 (List (Word × Word))) :
    StdcallReturn 8 s (sampleCallee s) where
  esp := rfl
  kept r hr := by
    have hesp : r ≠ .esp := by rintro rfl; exact absurd hr (by decide)
    have heax : r ≠ .eax := by rintro rfl; exact absurd hr (by decide)
    exact (Function.update_of_ne hesp _ _).trans (Function.update_of_ne heax _ _)
  st := rfl
  mem _ _ := rfl

/-- The hook entered with a script that took one second, and `eax` zero. -/
def sampleEntry : State Float32 (List (Word × Word)) where
  regs
    | .esp => 0x0012F000
    | .ebp => 0x0012F760
    | _ => 0
  st := [1]
  mem _ := 0
  eip := 0
  own := []

theorem hookEntry_sampleEntry : HookEntry sampleEntry :=
  ⟨by decide, by decide, by decide⟩

/-- **The trampoline changes `eax`**, from zero to the elapsed time. -/
theorem not_transparent_sampleEntry :
    HookEntry sampleEntry ∧ (∀ s, StdcallReturn 8 s (sampleCallee s)) ∧
      ¬ Transparent sampleX87 sampleCallee 0x10001000 0x10001050 1 sampleEntry := by
  refine ⟨hookEntry_sampleEntry, sampleCallee_return, ?_⟩
  intro h
  have heax := eax_of_transparent sampleX87 hookEntry_sampleEntry rfl sampleCallee_return h
  exact absurd heax (by decide)

/-- The hook entered with the same script, when `eax` happens to hold one second as a `float`. -/
def secondEntry : State Float32 (List (Word × Word)) := sampleEntry.setReg .eax 0x3F800000

/-- Then the trampoline is transparent, and with `eax` zero it is not. -/
theorem hook_transparent_iff_secondEntry :
    Transparent sampleX87 sampleCallee 0x10001000 0x10001050 1 secondEntry ∧
      ¬ Transparent sampleX87 sampleCallee 0x10001000 0x10001050 1 sampleEntry := by
  have hentry : HookEntry secondEntry := ⟨by decide, by decide, by decide⟩
  constructor
  · exact (hook_transparent_iff sampleX87 0x10001000 0x10001050 hentry rfl
      sampleCallee_return).mpr (by decide)
  · intro h
    have heax := (hook_transparent_iff sampleX87 0x10001000 0x10001050 hookEntry_sampleEntry rfl
      sampleCallee_return).mp h
    exact absurd heax (by decide)

end RuntimeScriptProfiler
