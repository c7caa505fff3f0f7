import RuntimeScriptProfiler.Framework.X86

/-!
# The patches of the loader

`NVSEPlugin_Load` writes four patches into the game's code: two `nop`s at each of two
queries of the performance counter, a jump to the script hook, and a call of the main-loop
hook.
`writeRelJump` and `writeRelCall` place an instruction that reaches its target
(`decode_writeRelJump`, `decode_writeRelCall`) and touch no byte but its five
(`writeRel_of_outside`). `decode_patchCode` puts the four together: each is still there
when all are written, and all other memory is as it was.
-/

namespace RuntimeScriptProfiler

open X86

/-! ### Writing to code -/

/-- `SafeWrite8`. -/
def safeWrite8 (addr data : Word) (m : Memory) : Memory :=
  Function.update m addr (data.setWidth 8)

/-- `SafeWrite16`. -/
def safeWrite16 (addr data : Word) (m : Memory) : Memory :=
  Function.update (Function.update m addr (data.setWidth 8)) (addr + 1)
    (data.extractLsb' 8 8)

/-- `SafeWrite32`. -/
def safeWrite32 (addr data : Word) (m : Memory) : Memory := write32 m addr data

/-- An opcode of one byte, followed by the displacement to a target. -/
def writeRel (opcode jumpSrc jumpTgt : Word) (m : Memory) : Memory :=
  safeWrite32 (jumpSrc + 1) (jumpTgt - jumpSrc - 1 - 4) (safeWrite8 jumpSrc opcode m)

/-- `WriteRelJump`. -/
def writeRelJump : Word → Word → Memory → Memory := writeRel 0xE9

/-- `WriteRelCall`. -/
def writeRelCall : Word → Word → Memory → Memory := writeRel 0xE8

section Write

variable {m : Memory} {a opcode src tgt : Word}

theorem safeWrite16_of_outside {addr data : Word} (h : 2 ≤ (a - addr).toNat) :
    safeWrite16 addr data m a = m a := by
  have hne : a ≠ addr := by rintro rfl; simp at h
  have hne' : a ≠ addr + 1 := by rintro rfl; bv_omega
  exact (Function.update_of_ne hne' _ _).trans (Function.update_of_ne hne _ _)

/-- Only the five bytes of the instruction are written. -/
theorem writeRel_of_outside (h : 5 ≤ (a - src).toNat) : writeRel opcode src tgt m a = m a := by
  have hne : a ≠ src := by rintro rfl; simp at h
  have hdisp : 4 ≤ (a - (src + 1)).toNat := by bv_omega
  exact (write32_of_le hdisp).trans (Function.update_of_ne hne _ _)

theorem writeRel_opcode : writeRel opcode src tgt m src = opcode.setWidth 8 := by
  have hdisp : 4 ≤ (src - (src + 1)).toNat := by bv_omega
  exact (write32_of_le hdisp).trans (Function.update_self _ _ _)

/-- The displacement leads to the target, however far away it is. -/
theorem writeRel_target : src + 5 + read32 (writeRel opcode src tgt m) (src + 1) = tgt := by
  have hdisp : read32 (writeRel opcode src tgt m) (src + 1) = tgt - src - 1 - 4 :=
    read32_write32
  rw [hdisp]
  bv_omega

/-- **A jump is written.** -/
theorem decode_writeRelJump : decode (writeRelJump src tgt m) src = some (.jmp tgt) := by
  have hop : writeRelJump src tgt m src = 0xE9 := writeRel_opcode
  unfold decode
  rw [hop, if_neg (by decide), if_pos rfl]
  exact congrArg (fun t => some (Patch.jmp t)) writeRel_target

/-- **A call is written.** -/
theorem decode_writeRelCall : decode (writeRelCall src tgt m) src = some (.call tgt) := by
  have hop : writeRelCall src tgt m src = 0xE8 := writeRel_opcode
  unfold decode
  rw [hop, if_neg (by decide), if_neg (by decide), if_pos rfl]
  exact congrArg (fun t => some (Patch.call t)) writeRel_target

end Write

/-! ### The patches -/

/-- `PatchScriptRunnerPerformanceCounter`, given the address of the script hook. -/
def patchScriptRunnerPerformanceCounter (hook : Word) (m : Memory) : Memory :=
  -- `ScriptRunnerExecuteProlog QueryPerformanceCounter`
  let m := safeWrite16 0x5E0D6D 0x9090 m
  -- `ScriptRunnerExecuteEpilog QueryPerformanceCounter`
  let m := safeWrite16 0x5E10AE 0x9090 m
  writeRelJump 0x5E10E0 hook m

/-- `PatchExecuteScriptsMainLoop`, given the address of the main-loop hook. -/
def patchExecuteScriptsMainLoop (hook : Word) (m : Memory) : Memory :=
  writeRelCall 0x86E9FA hook m

/-- The patches in the order in which the loader makes them. -/
def patchCode (scriptHook mainLoopHook : Word) (m : Memory) : Memory :=
  patchExecuteScriptsMainLoop mainLoopHook (patchScriptRunnerPerformanceCounter scriptHook m)

/-- Where the patches are, with their sizes. -/
def patchedCode : List (Word × ℕ) :=
  [(0x5E0D6D, 2), (0x5E10AE, 2), (0x5E10E0, 5), (0x86E9FA, 5)]

/-- **The patched code.** There are two `nop`s at each query of the counter, the script
runner jumps to its hook, the main loop calls its own, and no other byte has changed. -/
theorem decode_patchCode (scriptHook mainLoopHook : Word) (m : Memory) :
    let m' := patchCode scriptHook mainLoopHook m
    decode m' 0x5E0D6D = some .nop ∧ decode m' 0x5E0D6E = some .nop ∧
      decode m' 0x5E10AE = some .nop ∧ decode m' 0x5E10AF = some .nop ∧
      decode m' 0x5E10E0 = some (.jmp scriptHook) ∧
      decode m' 0x86E9FA = some (.call mainLoopHook) ∧
      ∀ a, (∀ p ∈ patchedCode, p.2 ≤ (a - p.1).toNat) → m' a = m a := by
  intro m'
  -- what the later patches leave of the earlier ones
  have hcall : ∀ a : Word, 5 ≤ (a - 0x86E9FA).toNat →
      m' a = patchScriptRunnerPerformanceCounter scriptHook m a :=
    fun a ha => writeRel_of_outside ha
  have hjump : ∀ a : Word, 5 ≤ (a - 0x5E10E0).toNat →
      patchScriptRunnerPerformanceCounter scriptHook m a
        = safeWrite16 0x5E10AE 0x9090 (safeWrite16 0x5E0D6D 0x9090 m) a :=
    fun a ha => writeRel_of_outside ha
  have hnop : ∀ a : Word, m' a = 0x90 → decode m' a = some .nop := fun a ha => if_pos ha
  refine ⟨hnop _ ?_, hnop _ ?_, hnop _ ?_, hnop _ ?_, ?_, decode_writeRelCall, ?_⟩
  · rw [hcall _ (by decide), hjump _ (by decide), safeWrite16_of_outside (by decide)]
    rfl
  · rw [hcall _ (by decide), hjump _ (by decide), safeWrite16_of_outside (by decide)]
    rfl
  · rw [hcall _ (by decide), hjump _ (by decide)]
    rfl
  · rw [hcall _ (by decide), hjump _ (by decide)]
    rfl
  · -- the call is written after the jump, and further away than the jump is long
    have hkept : decode m' 0x5E10E0
        = decode (patchScriptRunnerPerformanceCounter scriptHook m) 0x5E10E0 := by
      apply decode_congr
      intro i hi
      apply hcall
      bv_omega
    rw [hkept]
    exact decode_writeRelJump
  · intro a ha
    rw [hcall _ (ha (0x86E9FA, 5) (by decide)), hjump _ (ha (0x5E10E0, 5) (by decide)),
      safeWrite16_of_outside (ha (0x5E10AE, 2) (by decide)),
      safeWrite16_of_outside (ha (0x5E0D6D, 2) (by decide))]

end RuntimeScriptProfiler
