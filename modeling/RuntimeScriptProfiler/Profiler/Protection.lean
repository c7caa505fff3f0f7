import RuntimeScriptProfiler.Framework.Spread
import RuntimeScriptProfiler.Framework.VirtualMemory
import RuntimeScriptProfiler.Profiler.Patches

/-!
# Writing to protected code

The code that the plugin patches lies on pages that may not be written. Each of the
`SafeWrite` functions makes the pages of its range writable, writes, and gives the pages
back a protection, but only one: the one the first of them had. None of them looks at
what `VirtualProtect` answers. The system they run on is open but for what is documented
of it (`VirtualMemory.Documented`).

`exec_calls` says what any row of such calls does on committed pages that may be made
writable. None of them faults, the memory is what the plain writes of `Patches` make of
it, and the pages have the protections they had before if and only if no call met pages of
different protections. What one call loses no later call can restore (`Spread`). No patch
of the plugin crosses a page, so `exec_patches` has no such condition: the patches are made
and the protections kept if the three pages are of this kind, and if one of them is not
committed the process faults.
-/

namespace RuntimeScriptProfiler

open X86 Spread

/-! ### Calls -/

section Calls

variable {σ : Type*} (vm : VirtualMemory σ)

namespace ProtectedCode

/-- A store between two calls of `VirtualProtect`, neither of them checked. -/
def safeWrite (addr : Word) (size : ℕ) (data : List Byte) (s : σ) : Option σ :=
  let uninitialized := vm.uninitialized s
  let (old, s) := vm.virtualProtect addr size Protect.executeReadWrite.code s
  -- a call that fails leaves the variable as it is
  let oldProtect := old.getD uninitialized
  (vm.store addr data s).map fun s => (vm.virtualProtect addr size oldProtect s).2

/-- `SafeWrite8`. -/
def safeWrite8 (addr data : Word) : σ → Option σ := safeWrite vm addr 4 [data.setWidth 8]

/-- `SafeWrite16`. -/
def safeWrite16 (addr data : Word) : σ → Option σ :=
  safeWrite vm addr 4 [data.setWidth 8, data.extractLsb' 8 8]

/-- `SafeWrite32`. -/
def safeWrite32 (addr data : Word) : σ → Option σ :=
  safeWrite vm addr 4 [data.setWidth 8, data.extractLsb' 8 8, data.extractLsb' 16 8,
    data.extractLsb' 24 8]

end ProtectedCode

/-- A call of one of the functions that write to code. -/
inductive CodeWrite where
  | safeWrite8 (addr data : Word)
  | safeWrite16 (addr data : Word)
  | safeWrite32 (addr data : Word)
  | safeWriteBuf (addr : Word) (data : List Byte) (hdata : data ≠ [])
  | writeRelJump (jumpSrc jumpTgt : Word)
  | writeRelCall (jumpSrc jumpTgt : Word)
  | writeRelJnz (jumpSrc jumpTgt : Word)
  | writeRelJle (jumpSrc jumpTgt : Word)

namespace CodeWrite

/-- An opcode of one byte with its displacement, as two writes. -/
def rel (opcode jumpSrc jumpTgt : Word) (s : σ) : Option σ :=
  (ProtectedCode.safeWrite8 vm jumpSrc opcode s).bind
    (ProtectedCode.safeWrite32 vm (jumpSrc + 1) (jumpTgt - jumpSrc - 1 - 4))

/-- An opcode of two bytes with its displacement. -/
def rel16 (opcode jumpSrc jumpTgt : Word) (s : σ) : Option σ :=
  (ProtectedCode.safeWrite16 vm jumpSrc opcode s).bind
    (ProtectedCode.safeWrite32 vm (jumpSrc + 2) (jumpTgt - jumpSrc - 2 - 4))

/-- The call. -/
def exec : CodeWrite → σ → Option σ
  | safeWrite8 addr data => ProtectedCode.safeWrite8 vm addr data
  | safeWrite16 addr data => ProtectedCode.safeWrite16 vm addr data
  | safeWrite32 addr data => ProtectedCode.safeWrite32 vm addr data
  -- `memcpy` as one store
  | safeWriteBuf addr data _ => ProtectedCode.safeWrite vm addr data.length data
  | writeRelJump jumpSrc jumpTgt => rel vm 0xE9 jumpSrc jumpTgt
  | writeRelCall jumpSrc jumpTgt => rel vm 0xE8 jumpSrc jumpTgt
  | writeRelJnz jumpSrc jumpTgt => rel16 vm 0x850F jumpSrc jumpTgt
  | writeRelJle jumpSrc jumpTgt => rel16 vm 0x8E0F jumpSrc jumpTgt

/-- What it means to memory. -/
def onMemory : CodeWrite → Memory → Memory
  | safeWrite8 addr data => RuntimeScriptProfiler.safeWrite8 addr data
  | safeWrite16 addr data => RuntimeScriptProfiler.safeWrite16 addr data
  | safeWrite32 addr data => RuntimeScriptProfiler.safeWrite32 addr data
  | safeWriteBuf addr data _ => writeBytes addr data
  | writeRelJump jumpSrc jumpTgt => RuntimeScriptProfiler.writeRelJump jumpSrc jumpTgt
  | writeRelCall jumpSrc jumpTgt => RuntimeScriptProfiler.writeRelCall jumpSrc jumpTgt
  | writeRelJnz jumpSrc jumpTgt => fun m =>
    RuntimeScriptProfiler.safeWrite32 (jumpSrc + 2) (jumpTgt - jumpSrc - 2 - 4)
      (RuntimeScriptProfiler.safeWrite16 jumpSrc 0x850F m)
  | writeRelJle jumpSrc jumpTgt => fun m =>
    RuntimeScriptProfiler.safeWrite32 (jumpSrc + 2) (jumpTgt - jumpSrc - 2 - 4)
      (RuntimeScriptProfiler.safeWrite16 jumpSrc 0x8E0F m)

/-- A row of calls. -/
def execAll (calls : List CodeWrite) (s : σ) : Option σ := calls.foldlM (fun s c => c.exec vm s) s

end CodeWrite

end Calls

/-- A safe write of at least one byte, inside the range whose protection it sets. -/
structure SafeWrite where
  addr : Word
  size : ℕ
  data : List Byte
  ne_nil : data ≠ []
  le : data.length ≤ size

namespace SafeWrite

/-- The safe write of one byte. -/
def byte (addr data : Word) : SafeWrite :=
  ⟨addr, 4, [data.setWidth 8], List.cons_ne_nil _ _, Nat.le_add_left 1 3⟩

/-- The safe write of two bytes. -/
def half (addr data : Word) : SafeWrite :=
  ⟨addr, 4, [data.setWidth 8, data.extractLsb' 8 8], List.cons_ne_nil _ _, Nat.le_add_left 2 2⟩

/-- The safe write of four bytes. -/
def word (addr data : Word) : SafeWrite :=
  ⟨addr, 4, [data.setWidth 8, data.extractLsb' 8 8, data.extractLsb' 16 8,
    data.extractLsb' 24 8], List.cons_ne_nil _ _, Nat.le_refl 4⟩

/-- What it means to memory. -/
def write (w : SafeWrite) : Memory → Memory := writeBytes w.addr w.data

end SafeWrite

/-- The safe writes of a call, in order. -/
def CodeWrite.parts : CodeWrite → List SafeWrite
  | safeWrite8 addr data => [.byte addr data]
  | safeWrite16 addr data => [.half addr data]
  | safeWrite32 addr data => [.word addr data]
  | safeWriteBuf addr data hdata => [⟨addr, data.length, data, hdata, le_rfl⟩]
  | writeRelJump src tgt => [.byte src 0xE9, .word (src + 1) (tgt - src - 1 - 4)]
  | writeRelCall src tgt => [.byte src 0xE8, .word (src + 1) (tgt - src - 1 - 4)]
  | writeRelJnz src tgt => [.half src 0x850F, .word (src + 2) (tgt - src - 2 - 4)]
  | writeRelJle src tgt => [.half src 0x8E0F, .word (src + 2) (tgt - src - 2 - 4)]

/-! ### What a safe write does -/

section Pages

variable {pages : ℕ → Option Page} {addr : Word} {size : ℕ}

/-- Giving the pages back the protection of the first makes each of them like the first. -/
theorem reprotect_eq_spread (h : Committed pages addr size) {first : Page}
    (hfirst : pages (pageOf addr) = some first) (new : Protect) :
    reprotect addr size first.protect (reprotect addr size new pages)
      = spread (pageOf addr) (lastPage addr size) pages := by
  funext p
  by_cases hmem : pageOf addr ≤ p ∧ p ≤ lastPage addr size
  · have hregion := h.2.2.2 p hmem.2 hmem.1
    rw [hfirst, Option.map_some] at hregion
    obtain ⟨q, hq, hsame⟩ := Option.map_eq_some_iff.mp hregion
    rw [reprotect, if_pos hmem, reprotect, if_pos hmem, hq, spread_of_mem hmem.1 hmem.2, hfirst]
    exact congrArg (fun region => some (Page.mk region first.protect)) hsame
  · rw [reprotect, if_neg hmem, reprotect, if_neg hmem, spread_of_not_mem hmem]

/-- It moves no page to another region. -/
theorem region_spread (h : Committed pages addr size) (p : ℕ) :
    (spread (pageOf addr) (lastPage addr size) pages p).map Page.region
      = (pages p).map Page.region := by
  by_cases hmem : pageOf addr ≤ p ∧ p ≤ lastPage addr size
  · rw [spread_of_mem hmem.1 hmem.2, h.2.2.2 p hmem.2 hmem.1]
  · rw [spread_of_not_mem hmem]

end Pages

namespace SafeWrite

/-- A range inside one page. -/
structure Inside (addr : Word) (size : ℕ) : Prop where
  last : lastPage addr size = pageOf addr
  top : addr.toNat + size ≤ 2 ^ 32

section Exec

variable {σ : Type*} (vm : VirtualMemory σ)

/-- The write. -/
def exec (w : SafeWrite) (s : σ) : Option σ := ProtectedCode.safeWrite vm w.addr w.size w.data s

/-- A row of safe writes. -/
def execAll (ws : List SafeWrite) (s : σ) : Option σ := ws.foldlM (fun s w => w.exec vm s) s

/-- The pages of its range, first and last. -/
def range (w : SafeWrite) : ℕ × ℕ := (pageOf w.addr, lastPage w.addr w.size)

variable {vm} {s : σ} {w : SafeWrite} {ws : List SafeWrite}

/-- A range inside a page is changeable if the page is. -/
theorem Inside.changeable (h : Inside w.addr w.size) {q : Page}
    (hq : vm.pages s (pageOf w.addr) = some q)
    (hcompatible : vm.compatible q.region .executeReadWrite) :
    vm.Changeable s w.addr w.size := by
  have hpos : 0 < w.size := (List.length_pos_iff.mpr w.ne_nil).trans_le w.le
  refine ⟨⟨hpos, h.top, by rw [hq]; rfl, fun p hlast hfirst => ?_⟩, fun q' hq' => ?_⟩
  · rw [le_antisymm (h.last ▸ hlast) hfirst]
  · obtain rfl := Option.some.inj (hq.symm.trans hq')
    exact hcompatible

variable (hvm : vm.Documented)

include hvm

/-- **A safe write to pages that may be made writable** is made, and leaves the pages the
protection that the first of them had. -/
theorem exec_of_changeable (h : vm.Changeable s w.addr w.size) :
    ∃ s', w.exec vm s = some s' ∧ vm.mem s' = w.write (vm.mem s) ∧
      vm.pages s' = spread (pageOf w.addr) (lastPage w.addr w.size) (vm.pages s) := by
  obtain ⟨hrange, hcompatible⟩ := h
  obtain ⟨first, hfirst⟩ := Option.isSome_iff_exists.mp hrange.2.2.1
  obtain ⟨s₁, hunprotect, hmem₁, hpages₁⟩ :=
    hvm.protects hrange hfirst (hcompatible first hfirst)
  -- every page of the range may be written now
  have hwritable : ∀ p ≤ lastPage w.addr w.data.length, pageOf w.addr ≤ p →
      (vm.pages s₁ p).any (fun q => q.protect = .executeReadWrite) = true := by
    intro p hlast hle
    have hmem : pageOf w.addr ≤ p ∧ p ≤ lastPage w.addr w.size :=
      ⟨hle, hlast.trans (lastPage_mono w.le)⟩
    have hregion := hrange.2.2.2 p hmem.2 hmem.1
    rw [hfirst, Option.map_some] at hregion
    obtain ⟨q, hq, -⟩ := Option.map_eq_some_iff.mp hregion
    rw [hpages₁, reprotect, if_pos hmem, hq]
    rfl
  obtain ⟨s₂, hstore, hmem₂, hpages₂⟩ := hvm.stores w.ne_nil hwritable
  -- the second call finds the same regions, and is given the protection of the first page,
  -- which that page has had before
  have hregions : ∀ p, (vm.pages s₂ p).map Page.region = (vm.pages s p).map Page.region := by
    intro p
    rw [hpages₂, hpages₁, region_reprotect]
  obtain ⟨first₂, hfirst₂, hsame⟩ : ∃ first₂, vm.pages s₂ (pageOf w.addr) = some first₂ ∧
      first₂.region = first.region := by
    have hregion := hregions (pageOf w.addr)
    rw [hfirst, Option.map_some] at hregion
    exact Option.map_eq_some_iff.mp hregion
  obtain ⟨s₃, hprotect, hmem₃, hpages₃⟩ :=
    hvm.protects (hrange.congr hregions) hfirst₂ (hsame ▸ hvm.compatible hfirst)
  refine ⟨s₃, ?_, ?_, ?_⟩
  · simp [exec, ProtectedCode.safeWrite, hunprotect, hstore, hprotect]
  · rw [hmem₃, hmem₂, hmem₁]
    rfl
  · rw [hpages₃, hpages₂, hpages₁, reprotect_eq_spread hrange hfirst]

/-- A safe write to a page that is not committed faults. -/
theorem exec_of_none (h : vm.pages s (pageOf w.addr) = none) : w.exec vm s = none := by
  have hnone := hvm.virtualProtect_none w.addr w.size Protect.executeReadWrite.code h
  simp only [exec, ProtectedCode.safeWrite, hvm.faults w.ne_nil hnone, Option.map_none]

/-- A safe write commits no page. -/
theorem pages_of_exec {s' : σ} (h : w.exec vm s = some s') {p : ℕ} (hnone : vm.pages s p = none) :
    vm.pages s' p = none := by
  obtain ⟨s₁, hstore, rfl⟩ := Option.map_eq_some_iff.mp h
  refine hvm.virtualProtect_none _ _ _ (hvm.store_none hstore ?_)
  exact hvm.virtualProtect_none _ _ _ hnone

/-- A row of safe writes to pages that may be made writable. -/
theorem execAll_of_changeable (h : ∀ w ∈ ws, vm.Changeable s w.addr w.size) :
    ∃ s', execAll vm ws s = some s' ∧ vm.mem s' = ws.foldl (fun m w => w.write m) (vm.mem s) ∧
      vm.pages s' = (ws.map range).foldl (fun P r => spread r.1 r.2 P) (vm.pages s) := by
  induction ws generalizing s with
  | nil => exact ⟨s, rfl, rfl, rfl⟩
  | cons w ws ih =>
    have hw := h w List.mem_cons_self
    obtain ⟨s₁, hexec, hmem, hpages⟩ := exec_of_changeable hvm hw
    -- no page is in another region now, so the other ranges are still changeable
    have hrest : ∀ w' ∈ ws, vm.Changeable s₁ w'.addr w'.size := by
      intro w' hw'
      refine (h w' (List.mem_cons_of_mem _ hw')).congr fun p => ?_
      rw [hpages, region_spread hw.1]
    obtain ⟨s', hexec', hmem', hpages'⟩ := ih hrest
    refine ⟨s', ?_, ?_, ?_⟩
    · rw [execAll, List.foldlM_cons, hexec]
      exact hexec'
    · rw [hmem', hmem, List.foldl_cons]
    · rw [hpages', hpages, List.map_cons, List.foldl_cons]
      rfl

/-- A row of safe writes with one to a page that is not committed faults, there or before. -/
theorem execAll_of_none (h : ∃ w ∈ ws, vm.pages s (pageOf w.addr) = none) :
    execAll vm ws s = none := by
  induction ws generalizing s with
  | nil =>
    obtain ⟨w, hw, -⟩ := h
    exact absurd hw List.not_mem_nil
  | cons w ws ih =>
    rw [execAll, List.foldlM_cons]
    cases hexec : w.exec vm s with
    | none => rfl
    | some s₁ =>
      obtain ⟨w', hw', hnone⟩ := h
      rcases List.mem_cons.mp hw' with rfl | hw'
      · exact absurd (hexec.symm.trans (exec_of_none hvm hnone)) (Option.some_ne_none s₁)
      · exact ih ⟨w', hw', pages_of_exec hvm hexec hnone⟩

end Exec

end SafeWrite

/-! ### What a call does -/

/-- The four bytes of a word, one after the other. -/
theorem writeBytes_word (addr data : Word) (m : Memory) :
    writeBytes addr [data.setWidth 8, data.extractLsb' 8 8, data.extractLsb' 16 8,
      data.extractLsb' 24 8] m = write32 m addr data := by
  funext a
  have hupdate : ∀ (b : Byte) (c : Word) (m : Memory), c ≠ a → Function.update m c b a = m a :=
    fun b c m hne => Function.update_of_ne hne.symm b m
  by_cases hin : (a - addr).toNat < 4
  · -- one of its bytes, which the later ones leave alone
    obtain ⟨i, hi, rfl⟩ : ∃ i < 4, a = addr + BitVec.ofNat 32 i :=
      ⟨(a - addr).toNat, hin, by bv_omega⟩
    rw [write32_add i hi]
    simp only [writeBytes]
    obtain rfl | rfl | rfl | rfl : i = 0 ∨ i = 1 ∨ i = 2 ∨ i = 3 := by omega
    · rw [hupdate _ _ _ (by bv_omega), hupdate _ _ _ (by bv_omega), hupdate _ _ _ (by bv_omega),
        BitVec.add_zero, Function.update_self]
      exact BitVec.setWidth_eq_extractLsb' (by decide)
    · rw [hupdate _ _ _ (by bv_omega), hupdate _ _ _ (by bv_omega)]
      exact Function.update_self _ _ _
    · rw [hupdate _ _ _ (by bv_omega), BitVec.add_assoc addr 1 1]
      exact Function.update_self _ _ _
    · rw [BitVec.add_assoc addr 1 1, BitVec.add_assoc addr (1 + 1) 1]
      exact Function.update_self _ _ _
  · rw [write32_of_le (Nat.le_of_not_lt hin)]
    simp only [writeBytes]
    rw [hupdate _ _ _ (by bv_omega), hupdate _ _ _ (by bv_omega), hupdate _ _ _ (by bv_omega),
      hupdate _ _ _ (by bv_omega)]

namespace CodeWrite

section Parts

variable {σ : Type*} (vm : VirtualMemory σ)

/-- A call is its safe writes. -/
theorem exec_eq_parts (c : CodeWrite) (s : σ) :
    c.exec vm s = SafeWrite.execAll vm c.parts s := by
  have hone : ∀ (w : SafeWrite), SafeWrite.execAll vm [w] s = w.exec vm s := by
    intro w
    rw [SafeWrite.execAll, List.foldlM_cons]
    exact bind_pure _
  have htwo : ∀ (w w' : SafeWrite),
      SafeWrite.execAll vm [w, w'] s = (w.exec vm s).bind (w'.exec vm) := by
    intro w w'
    rw [SafeWrite.execAll, List.foldlM_cons]
    refine congrArg _ (funext fun s' => ?_)
    rw [List.foldlM_cons]
    exact bind_pure _
  have hrel : ∀ opcode src tgt, rel vm opcode src tgt s
      = SafeWrite.execAll vm [.byte src opcode, .word (src + 1) (tgt - src - 1 - 4)] s :=
    fun opcode src tgt => (htwo (.byte src opcode) (.word (src + 1) (tgt - src - 1 - 4))).symm
  have hrel16 : ∀ opcode src tgt, rel16 vm opcode src tgt s
      = SafeWrite.execAll vm [.half src opcode, .word (src + 2) (tgt - src - 2 - 4)] s :=
    fun opcode src tgt => (htwo (.half src opcode) (.word (src + 2) (tgt - src - 2 - 4))).symm
  cases c with
  | safeWriteBuf addr data hdata => exact (hone ⟨addr, _, data, hdata, le_rfl⟩).symm
  | safeWrite8 addr data => exact (hone (.byte addr data)).symm
  | safeWrite16 addr data => exact (hone (.half addr data)).symm
  | safeWrite32 addr data => exact (hone (.word addr data)).symm
  | writeRelJump src tgt => exact hrel 0xE9 src tgt
  | writeRelCall src tgt => exact hrel 0xE8 src tgt
  | writeRelJnz src tgt => exact hrel16 0x850F src tgt
  | writeRelJle src tgt => exact hrel16 0x8E0F src tgt

theorem execAll_eq_parts (calls : List CodeWrite) (s : σ) :
    execAll vm calls s = SafeWrite.execAll vm (calls.flatMap parts) s := by
  induction calls generalizing s with
  | nil => rfl
  | cons c calls ih =>
    rw [execAll, List.foldlM_cons, exec_eq_parts, List.flatMap_cons, SafeWrite.execAll,
      SafeWrite.execAll, List.foldlM_append]
    exact congrArg _ (funext ih)

end Parts

/-- What the safe writes of a call mean to memory. -/
theorem foldl_parts (c : CodeWrite) (m : Memory) :
    c.parts.foldl (fun m w => w.write m) m = c.onMemory m := by
  have hbyte : ∀ addr data m, (SafeWrite.byte addr data).write m
      = RuntimeScriptProfiler.safeWrite8 addr data m := fun _ _ _ => rfl
  have hhalf : ∀ addr data m, (SafeWrite.half addr data).write m
      = RuntimeScriptProfiler.safeWrite16 addr data m := fun _ _ _ => rfl
  have hword : ∀ addr data m, (SafeWrite.word addr data).write m
      = RuntimeScriptProfiler.safeWrite32 addr data m := writeBytes_word
  cases c with
  | safeWriteBuf addr data hdata => rfl
  | _ =>
    simp only [parts, List.foldl_cons, List.foldl_nil, hbyte, hhalf, hword]
    rfl

theorem foldl_flatMap_parts (calls : List CodeWrite) (m : Memory) :
    (calls.flatMap parts).foldl (fun m w => w.write m) m
      = calls.foldl (fun m c => c.onMemory m) m := by
  induction calls generalizing m with
  | nil => rfl
  | cons c calls ih => rw [List.flatMap_cons, List.foldl_append, foldl_parts, ih, List.foldl_cons]

end CodeWrite

/-- **What a row of calls does**, on any system that does what is documented. On committed pages
that may be made writable no call faults, the memory is what the plain writes make of it,
and the pages have their protections as before if and only if no safe write met pages of
different protections. -/
theorem exec_calls {σ : Type*} {vm : VirtualMemory σ} (hvm : vm.Documented) {s : σ}
    {calls : List CodeWrite}
    (h : ∀ c ∈ calls, ∀ w ∈ c.parts, vm.Changeable s w.addr w.size) :
    ∃ s', CodeWrite.execAll vm calls s = some s' ∧
      vm.mem s' = calls.foldl (fun m c => c.onMemory m) (vm.mem s) ∧
      (vm.pages s' = vm.pages s ↔ ∀ c ∈ calls, ∀ w ∈ c.parts, ∀ p ≤ lastPage w.addr w.size,
        pageOf w.addr ≤ p → vm.pages s p = vm.pages s (pageOf w.addr)) := by
  have hchangeable : ∀ w ∈ calls.flatMap CodeWrite.parts, vm.Changeable s w.addr w.size := by
    intro w hw
    obtain ⟨c, hc, hw⟩ := List.mem_flatMap.mp hw
    exact h c hc w hw
  obtain ⟨s', hexec, hmem, hpages⟩ := SafeWrite.execAll_of_changeable hvm hchangeable
  refine ⟨s', (CodeWrite.execAll_eq_parts vm calls s).trans hexec,
    hmem.trans (CodeWrite.foldl_flatMap_parts calls _), ?_⟩
  -- what a row of copyings leaves as it was
  rw [hpages, foldl_spread_eq_self_iff, List.forall_mem_map]
  constructor
  · intro hlevel c hc w hw p hlast hfirst
    exact hlevel w (List.mem_flatMap.mpr ⟨c, hc, hw⟩) p hfirst hlast
  · intro hsame w hw p hfirst hlast
    obtain ⟨c, hc, hw⟩ := List.mem_flatMap.mp hw
    exact hsame c hc w hw p hlast hfirst

/-- Three pages of one region, of which the second may not be executed and the third is not
committed. -/
def sampleSpace : X86.AddressSpace where
  mem _ := 0
  pages
    | 0x5E0 => some ⟨0x400, .executeRead⟩
    | 0x5E1 => some ⟨0x400, .readOnly⟩
    | _ => none

/-- A jump is written, and then one byte at the end of the first page, which takes the protection
of that page along to the second. -/
theorem exec_calls_sampleSpace :
    ∃ s', CodeWrite.execAll X86.AddressSpace.virtualMemory
        [.writeRelJump 0x5E0D6D 0x10001000, .safeWrite8 0x5E0FFF 0x90] sampleSpace = some s' ∧
      s'.mem = RuntimeScriptProfiler.safeWrite8 0x5E0FFF 0x90
        (RuntimeScriptProfiler.writeRelJump 0x5E0D6D 0x10001000 sampleSpace.mem) ∧
      s'.pages ≠ sampleSpace.pages := by
  have hchangeable : ∀ c ∈ [CodeWrite.writeRelJump 0x5E0D6D 0x10001000,
      .safeWrite8 0x5E0FFF 0x90], ∀ w ∈ c.parts,
        X86.AddressSpace.virtualMemory.Changeable sampleSpace w.addr w.size := by
    have hnil : ∀ {α : Type} {P : α → Prop}, ∀ x ∈ ([] : List α), P x :=
      fun x hx => absurd hx List.not_mem_nil
    -- the ranges of the jump lie inside the first page
    have hinside : ∀ w : SafeWrite, SafeWrite.Inside w.addr w.size → pageOf w.addr = 0x5E0 →
        X86.AddressSpace.virtualMemory.Changeable sampleSpace w.addr w.size :=
      fun w h hpage => h.changeable (q := ⟨0x400, .executeRead⟩) (by rw [hpage]; rfl) trivial
    refine List.forall_mem_cons.mpr ⟨List.forall_mem_cons.mpr ⟨?_, List.forall_mem_cons.mpr
      ⟨?_, hnil⟩⟩, List.forall_mem_cons.mpr ⟨List.forall_mem_cons.mpr ⟨?_, hnil⟩, hnil⟩⟩
    · exact hinside (.byte 0x5E0D6D 0xE9) ⟨rfl, by decide⟩ rfl
    · exact hinside (.word 0x5E0D6E (0x10001000 - 0x5E0D6D - 1 - 4)) ⟨rfl, by decide⟩ rfl
    · refine ⟨⟨by decide, by decide, rfl, ?_⟩, fun _ _ => trivial⟩
      intro p (hlast : p ≤ 0x5E1) (hfirst : 0x5E0 ≤ p)
      obtain rfl | rfl : p = 0x5E0 ∨ p = 0x5E1 := by omega
      · rfl
      · rfl
  obtain ⟨s', hexec, hmem, hpages⟩ :=
    exec_calls X86.AddressSpace.documented_virtualMemory (s := sampleSpace) hchangeable
  refine ⟨s', hexec, hmem, fun hsame => ?_⟩
  have h := hpages.mp hsame _ (List.mem_cons_of_mem _ List.mem_cons_self) _ List.mem_cons_self
    0x5E1 le_rfl (by decide)
  exact absurd h (by decide)

/-! ### The patches of the plugin -/

/-- The calls of `PatchScriptRunnerPerformanceCounter` and `PatchExecuteScriptsMainLoop`. -/
def patchCalls (scriptHook mainLoopHook : Word) : List CodeWrite :=
  [.safeWrite16 0x5E0D6D 0x9090, .safeWrite16 0x5E10AE 0x9090, .writeRelJump 0x5E10E0 scriptHook,
    .writeRelCall 0x86E9FA mainLoopHook]

/-- The pages that are patched. -/
def patchedPages : List ℕ := [0x5E0, 0x5E1, 0x86E]

/-- **The plugin patches protected code**, on any system that does what is documented. If its
three pages are committed and may be made writable, the patches are made and the
protections kept, whatever they are. If one of them is not committed, the process faults. -/
theorem exec_patches {σ : Type*} {vm : VirtualMemory σ} (hvm : vm.Documented)
    (scriptHook mainLoopHook : Word) (s : σ) :
    ((∀ p ∈ patchedPages, ∃ q, vm.pages s p = some q ∧
          vm.compatible q.region .executeReadWrite) →
        ∃ s', CodeWrite.execAll vm (patchCalls scriptHook mainLoopHook) s = some s' ∧
          vm.mem s' = patchCode scriptHook mainLoopHook (vm.mem s) ∧ vm.pages s' = vm.pages s) ∧
      ((∃ p ∈ patchedPages, vm.pages s p = none) →
        CodeWrite.execAll vm (patchCalls scriptHook mainLoopHook) s = none) := by
  have haddr : ((patchCalls scriptHook mainLoopHook).flatMap CodeWrite.parts).map
      (fun w => (w.addr, w.size)) = [(0x5E0D6D, 4), (0x5E10AE, 4), (0x5E10E0, 4), (0x5E10E1, 4),
        (0x86E9FA, 4), (0x86E9FB, 4)] := rfl
  have hmemory := CodeWrite.foldl_flatMap_parts (patchCalls scriptHook mainLoopHook) (vm.mem s)
  rw [CodeWrite.execAll_eq_parts]
  generalize (patchCalls scriptHook mainLoopHook).flatMap CodeWrite.parts = ws at haddr hmemory ⊢
  -- no range crosses a page
  have hinside : ∀ w ∈ ws, SafeWrite.Inside w.addr w.size := by
    have h : ∀ r ∈ ws.map fun w => (w.addr, w.size), SafeWrite.Inside r.1 r.2 := by
      rw [haddr]
      simp only [List.forall_mem_cons]
      exact ⟨⟨rfl, by decide⟩, ⟨rfl, by decide⟩, ⟨rfl, by decide⟩, ⟨rfl, by decide⟩,
        ⟨rfl, by decide⟩, ⟨rfl, by decide⟩, fun w hw => absurd hw List.not_mem_nil⟩
    exact List.forall_mem_map.mp h
  have hpages : ∀ p, p ∈ ws.map (fun w => pageOf w.addr) ↔ p ∈ patchedPages := by
    have h := congrArg (List.map fun r => pageOf r.1) haddr
    rw [List.map_map] at h
    change ws.map (fun w => pageOf w.addr) = [0x5E0, 0x5E1, 0x5E1, 0x5E1, 0x86E, 0x86E] at h
    intro p
    rw [h]
    simp [patchedPages]
  constructor
  · intro hall
    have hchangeable : ∀ w ∈ ws, vm.Changeable s w.addr w.size := by
      intro w hw
      obtain ⟨q, hq, hcompatible⟩ :=
        hall (pageOf w.addr) ((hpages _).mp (List.mem_map.mpr ⟨w, hw, rfl⟩))
      exact (hinside w hw).changeable hq hcompatible
    obtain ⟨s', hexec, hmem, hsame⟩ := SafeWrite.execAll_of_changeable hvm hchangeable
    refine ⟨s', hexec, hmem.trans hmemory, hsame.trans ?_⟩
    -- a range inside a page has pages of one protection
    rw [foldl_spread_eq_self_iff, List.forall_mem_map]
    intro w hw p hfirst hlast
    exact congrArg (vm.pages s) (le_antisymm (hlast.trans_eq (hinside w hw).last) hfirst)
  · rintro ⟨p, hp, hnone⟩
    obtain ⟨w, hw, rfl⟩ := List.mem_map.mp ((hpages p).mpr hp)
    exact SafeWrite.execAll_of_none hvm ⟨w, hw, hnone⟩

/-- The same region with all its pages committed. -/
def sampleCode : X86.AddressSpace where
  mem _ := 0
  pages _ := some ⟨0x400, .executeRead⟩

theorem exec_patches_sampleCode :
    (∃ s', CodeWrite.execAll X86.AddressSpace.virtualMemory (patchCalls 0x10001000 0x10001100)
        sampleCode = some s' ∧
      s'.mem = patchCode 0x10001000 0x10001100 sampleCode.mem ∧ s'.pages = sampleCode.pages) ∧
    CodeWrite.execAll X86.AddressSpace.virtualMemory (patchCalls 0x10001000 0x10001100)
      sampleSpace = none := by
  constructor
  · exact (exec_patches X86.AddressSpace.documented_virtualMemory _ _ sampleCode).1
      fun _ _ => ⟨_, rfl, trivial⟩
  · exact (exec_patches X86.AddressSpace.documented_virtualMemory _ _ sampleSpace).2
      ⟨0x86E, by decide, rfl⟩

end RuntimeScriptProfiler
