import Mathlib.Data.BitVec
import Mathlib.Logic.Function.Basic

/-!
# A fragment of 32-bit x86

Enough of the machine to run a trampoline: the eight general-purpose registers, a
byte-addressed memory, the x87 stack with the conversions between its values and
32-bit floats left open (`X87`), the instructions that move words between them, and
calls. A callee is a function on machine states, of which `StdcallReturn` says what
the calling convention promises. It acts besides on a state of its own, kept apart
from the game's memory (`State.own`).

What proofs about trampolines need is in three groups of lemmas: words of memory are
read back and do not interfere (`read32_write32`, `read32_write32_of_disjoint`); a
`push` writes below the stack pointer only (`push_mem`); and what `pushad` has saved,
`popad` restores, as long as nothing at or above the stack pointer has changed in
between (`popad_pushad`).
-/

namespace X86

/-! ### Memory -/

abbrev Word := BitVec 32

abbrev Byte := BitVec 8

abbrev Memory := Word → Byte

section Memory

/-- The word at an address, little endian. -/
def read32 (m : Memory) (a : Word) : Word := m (a + 3) ++ m (a + 2) ++ m (a + 1) ++ m a

/-- The memory with a word stored at an address. -/
def write32 (m : Memory) (a w : Word) : Memory := fun b =>
  if (b - a).toNat < 4 then w.extractLsb' (8 * (b - a).toNat) 8 else m b

variable {m m' : Memory} {a b w : Word}

/-- A store leaves the bytes outside the word alone. -/
theorem write32_of_le (h : 4 ≤ (b - a).toNat) : write32 m a w b = m b :=
  if_neg (Nat.not_lt.mpr h)

theorem write32_add (i : ℕ) (hi : i < 4) :
    write32 m a w (a + BitVec.ofNat 32 i) = w.extractLsb' (8 * i) 8 := by
  have hsub : (a + BitVec.ofNat 32 i - a).toNat = i := by bv_omega
  rw [write32, hsub, if_pos hi]

/-- A word is read back from where it was stored. -/
theorem read32_write32 : read32 (write32 m a w) a = w := by
  have h0 := write32_add (m := m) (a := a) (w := w) 0 (by decide)
  have h1 := write32_add (m := m) (a := a) (w := w) 1 (by decide)
  have h2 := write32_add (m := m) (a := a) (w := w) 2 (by decide)
  have h3 := write32_add (m := m) (a := a) (w := w) 3 (by decide)
  rw [BitVec.add_zero] at h0
  unfold read32
  rw [h0, show (1 : Word) = BitVec.ofNat 32 1 from rfl, h1,
    show (2 : Word) = BitVec.ofNat 32 2 from rfl, h2,
    show (3 : Word) = BitVec.ofNat 32 3 from rfl, h3]
  -- the four bytes put together again
  grind

/-- A word depends on its four bytes. -/
theorem read32_congr (h : ∀ i < 4, m (a + BitVec.ofNat 32 i) = m' (a + BitVec.ofNat 32 i)) :
    read32 m a = read32 m' a := by
  have h0 := h 0 (by decide)
  have h1 := h 1 (by decide)
  have h2 := h 2 (by decide)
  have h3 := h 3 (by decide)
  rw [BitVec.add_zero] at h0
  unfold read32
  exact congrArg₂ (· ++ ·) (congrArg₂ (· ++ ·) (congrArg₂ (· ++ ·) h3 h2) h1) h0

/-- A store leaves a word that it does not overlap alone. -/
theorem read32_write32_of_disjoint (hab : 4 ≤ (a - b).toNat) (hba : 4 ≤ (b - a).toNat) :
    read32 (write32 m b w) a = read32 m a := by
  apply read32_congr
  intro i hi
  -- no byte of the one word is a byte of the other
  apply write32_of_le
  bv_omega

/-- A word above a bound depends on the bytes above the bound. -/
theorem read32_congr_above (h : ∀ x, b ≤ x → m x = m' x) (hba : b ≤ a)
    (ha : a.toNat + 4 ≤ 2 ^ 32) : read32 m a = read32 m' a := by
  apply read32_congr
  intro i hi
  apply h
  bv_omega

end Memory

/-! ### Code in memory -/

/-- What a patch puts into code: instructions of one byte, and jumps and calls with a
32-bit displacement. -/
inductive Patch where
  | nop
  | jmp (target : Word)
  | call (target : Word)
  deriving DecidableEq

/-- The instruction at an address, if it is one of these. A displacement counts from
the end of its instruction. -/
def decode (m : Memory) (a : Word) : Option Patch :=
  if m a = 0x90 then some .nop
  else if m a = 0xE9 then some (.jmp (a + 5 + read32 m (a + 1)))
  else if m a = 0xE8 then some (.call (a + 5 + read32 m (a + 1)))
  else none

/-- Decoding looks at five bytes at most. -/
theorem decode_congr {m m' : Memory} {a : Word}
    (h : ∀ i < 5, m (a + BitVec.ofNat 32 i) = m' (a + BitVec.ofNat 32 i)) :
    decode m a = decode m' a := by
  -- the opcode, and behind it the four bytes of the displacement
  have hop : m a = m' a := by
    have h0 := h 0 (by decide)
    rwa [BitVec.add_zero] at h0
  have hdisp : read32 m (a + 1) = read32 m' (a + 1) := by
    apply read32_congr
    intro i hi
    have hi' := h (i + 1) (by omega)
    have haddr : a + 1 + BitVec.ofNat 32 i = a + BitVec.ofNat 32 (i + 1) := by bv_omega
    rwa [haddr]
  unfold decode
  rw [hop, hdisp]

/-! ### Machine states -/

/-- The general-purpose registers. -/
inductive Reg where
  | eax | ecx | edx | ebx | esp | ebp | esi | edi
  deriving DecidableEq

/-- How the x87 unit stores its values of type `T` as 32-bit floats, and loads them. -/
structure X87 (T : Type*) where
  store : T → Word
  load : Word → T

/-- A state of the machine. `st` is the x87 stack, its top first. `own` is what the
callee keeps for itself. Of the instruction pointer only the jumps are followed. -/
structure State (T σ : Type*) where
  regs : Reg → Word
  st : List T
  mem : Memory
  eip : Word
  own : σ

/-- An address, as a register and a displacement. -/
structure Address where
  base : Reg
  disp : Word

namespace State

variable {T σ : Type*}

/-- A register set to a value. -/
def setReg (r : Reg) (w : Word) (s : State T σ) : State T σ :=
  { s with regs := Function.update s.regs r w }

/-- The address an operand stands for. -/
def addr (s : State T σ) (a : Address) : Word := s.regs a.base + a.disp

/-- A word put on the stack. -/
def push (w : Word) (s : State T σ) : State T σ :=
  { s with
    regs := Function.update s.regs .esp (s.regs .esp - 4)
    mem := write32 s.mem (s.regs .esp - 4) w }

/-- Words put on the stack, one after the other. -/
def pushes (ws : List Word) (s : State T σ) : State T σ := ws.foldl (fun s w => s.push w) s

/-- The registers in the order in which `pushad` saves them. -/
def savedRegs : List Reg := [.eax, .ecx, .edx, .ebx, .esp, .ebp, .esi, .edi]

/-- `pushad`, with the stack pointer from before it. -/
def pushad (s : State T σ) : State T σ := s.pushes (savedRegs.map s.regs)

/-- The registers that `popad` reads from the stack. It skips the saved stack pointer. -/
def poppedRegs (m : Memory) (esp : Word) : Reg → Word
  | .edi => read32 m esp
  | .esi => read32 m (esp + 4)
  | .ebp => read32 m (esp + 8)
  | .esp => esp + 32
  | .ebx => read32 m (esp + 16)
  | .edx => read32 m (esp + 20)
  | .ecx => read32 m (esp + 24)
  | .eax => read32 m (esp + 28)

/-- `popad`. -/
def popad (s : State T σ) : State T σ := { s with regs := poppedRegs s.mem (s.regs .esp) }

end State

/-! ### Instructions -/

/-- The instructions. A call knows the address it pushes to return to. -/
inductive Instr where
  | fstp (dst : Address)
  | fld (src : Address)
  | mov (dst : Reg) (src : Address)
  | pushReg (src : Reg)
  | pushMem (src : Address)
  | pushad
  | popad
  | call (target ret : Word)
  | jmp (target : Word)

section Run

variable {T σ : Type*} (fpu : X87 T) (callee : State T σ → State T σ)

/-- One instruction. `fstp` has nothing to store if the x87 stack is empty. -/
def exec : Instr → State T σ → Option (State T σ)
  | .fstp dst, s =>
    match s.st with
    | [] => none
    | t :: st => some { s with st := st, mem := write32 s.mem (s.addr dst) (fpu.store t) }
  | .fld src, s => some { s with st := fpu.load (read32 s.mem (s.addr src)) :: s.st }
  | .mov dst src, s => some (s.setReg dst (read32 s.mem (s.addr src)))
  | .pushReg src, s => some (s.push (s.regs src))
  | .pushMem src, s => some (s.push (read32 s.mem (s.addr src)))
  | .pushad, s => some s.pushad
  | .popad, s => some s.popad
  | .call _ ret, s => some (callee (s.push ret))
  | .jmp target, s => some { s with eip := target }

/-- A list of instructions. -/
def run : List Instr → State T σ → Option (State T σ)
  | [], s => some s
  | i :: is, s => (exec fpu callee i s).bind (run is)

variable {fpu callee}

/-- A list of instructions whose first one is known. -/
theorem run_cons {i : Instr} {s s' : State T σ} (h : exec fpu callee i s = some s')
    (is : List Instr) : run fpu callee (i :: is) s = run fpu callee is s' := by
  rw [run, h, Option.bind_some]

theorem run_append (is js : List Instr) (s : State T σ) :
    run fpu callee (is ++ js) s = (run fpu callee is s).bind (run fpu callee js) := by
  induction is generalizing s with
  | nil => rfl
  | cons i is ih =>
    cases h : exec fpu callee i s with
    | none => simp [run, h]
    | some s' => simp [run, h, ih]

end Run

/-- What the `stdcall` convention promises of a callee entered in state `s`, its return
address and `argBytes` bytes of arguments on the stack, and left in state `s'`: it pops
them, keeps four registers and the x87 stack, and changes no memory above its
arguments. -/
structure StdcallReturn {T σ : Type*} (argBytes : Word) (s s' : State T σ) : Prop where
  esp : s'.regs .esp = s.regs .esp + 4 + argBytes
  kept : ∀ r ∈ [Reg.ebx, .ebp, .esi, .edi], s'.regs r = s.regs r
  st : s'.st = s.st
  mem : ∀ a, s.regs .esp + 4 + argBytes ≤ a → s'.mem a = s.mem a

/-! ### The stack -/

namespace State

variable {T σ : Type*}

@[simp] theorem push_esp (w : Word) (s : State T σ) :
    (s.push w).regs .esp = s.regs .esp - 4 := rfl

@[simp] theorem push_st (w : Word) (s : State T σ) : (s.push w).st = s.st := rfl

theorem push_regs {r : Reg} (hr : r ≠ .esp) (w : Word) (s : State T σ) :
    (s.push w).regs r = s.regs r := Function.update_of_ne hr _ _

/-- A push writes below the stack pointer only. -/
theorem push_mem {s : State T σ} {a : Word} (w : Word) (hroom : 4 ≤ (s.regs .esp).toNat)
    (ha : s.regs .esp ≤ a) : (s.push w).mem a = s.mem a := by
  apply write32_of_le
  bv_omega

@[simp] theorem pushes_nil (s : State T σ) : s.pushes [] = s := rfl

@[simp] theorem pushes_cons (w : Word) (ws : List Word) (s : State T σ) :
    s.pushes (w :: ws) = (s.push w).pushes ws := rfl

theorem pushes_append (ws vs : List Word) (s : State T σ) :
    s.pushes (ws ++ vs) = (s.pushes ws).pushes vs := List.foldl_append

@[simp] theorem pushes_st (ws : List Word) (s : State T σ) : (s.pushes ws).st = s.st := by
  induction ws generalizing s with
  | nil => rfl
  | cons w ws ih => rw [pushes_cons, ih, push_st]

theorem pushes_regs {r : Reg} (hr : r ≠ .esp) (ws : List Word) (s : State T σ) :
    (s.pushes ws).regs r = s.regs r := by
  induction ws generalizing s with
  | nil => rfl
  | cons w ws ih => rw [pushes_cons, ih, push_regs hr]

theorem addr_pushes {a : Address} (ha : a.base ≠ .esp) (ws : List Word) (s : State T σ) :
    (s.pushes ws).addr a = s.addr a :=
  congrArg (· + a.disp) (pushes_regs ha ws s)

theorem pushes_esp (ws : List Word) (s : State T σ) :
    (s.pushes ws).regs .esp = s.regs .esp - BitVec.ofNat 32 (4 * ws.length) := by
  induction ws generalizing s with
  | nil => simp
  | cons w ws ih =>
    rw [pushes_cons, ih, push_esp, List.length_cons]
    bv_omega

/-- Pushes write below the stack pointer only. -/
theorem pushes_mem {ws : List Word} {s : State T σ} {a : Word}
    (hroom : 4 * ws.length ≤ (s.regs .esp).toNat) (ha : s.regs .esp ≤ a) :
    (s.pushes ws).mem a = s.mem a := by
  induction ws generalizing s with
  | nil => rfl
  | cons w ws ih =>
    rw [List.length_cons] at hroom
    -- the later pushes start further down, and still have room
    rw [pushes_cons, ih, push_mem w (by omega) ha]
    · rw [push_esp]
      bv_omega
    · rw [push_esp]
      bv_omega

/-- Pushes write no further down than they move the stack pointer. -/
theorem pushes_mem_below {ws : List Word} {s : State T σ} {a : Word}
    (ha : a.toNat + 4 * ws.length < (s.regs .esp).toNat) :
    (s.pushes ws).mem a = s.mem a := by
  induction ws generalizing s with
  | nil => rfl
  | cons w ws ih =>
    rw [List.length_cons] at ha
    have hpush : (s.push w).mem a = s.mem a := by
      apply write32_of_le
      bv_omega
    rw [pushes_cons, ih, hpush]
    rw [push_esp]
    bv_omega

/-- Every word pushed is on the stack, the last one at its top. -/
theorem read32_pushes {ws : List Word} {s : State T σ} {i : ℕ} {w : Word}
    (hroom : 4 * ws.length ≤ (s.regs .esp).toNat) (hw : ws[i]? = some w) :
    read32 (s.pushes ws).mem (s.regs .esp - BitVec.ofNat 32 (4 * (i + 1))) = w := by
  induction ws generalizing s i with
  | nil => exact absurd hw (by simp)
  | cons v ws ih =>
    rw [List.length_cons] at hroom
    have hroom' : 4 * ws.length ≤ ((s.push v).regs .esp).toNat := by
      rw [push_esp]
      bv_omega
    rw [pushes_cons]
    cases i with
    | zero =>
      obtain rfl : v = w := by simpa using hw
      -- the later pushes are below it
      have hkept : read32 ((s.push v).pushes ws).mem ((s.push v).regs .esp)
          = read32 (s.push v).mem ((s.push v).regs .esp) := by
        refine read32_congr_above (fun x hx => pushes_mem hroom' hx) (BitVec.le_refl _) ?_
        rw [push_esp]
        bv_omega
      exact hkept.trans read32_write32
    | succ i =>
      -- the address, counted from where the first push has left the stack pointer
      have hi := ih hroom' hw
      rw [push_esp] at hi
      rw [← hi]
      congr 1
      bv_omega

/-- **What `pushad` saves, `popad` restores**, from any state with the same stack
pointer and the same memory at and above it. -/
theorem popad_pushad {s s' : State T σ} (hroom : 32 ≤ (s.regs .esp).toNat)
    (hesp : s'.regs .esp = s.pushad.regs .esp)
    (hmem : ∀ a, s.pushad.regs .esp ≤ a → s'.mem a = s.pushad.mem a) :
    s'.popad = { s' with regs := s.regs } := by
  have hbase : s.pushad.regs .esp = s.regs .esp - 32 := pushes_esp _ s
  -- register `i` was pushed first but `i`, so `popad` finds it `7 - i` words up
  have hread : ∀ i r, i < 8 → savedRegs[i]? = some r →
      read32 s'.mem (s'.regs .esp + BitVec.ofNat 32 (28 - 4 * i)) = s.regs r := by
    intro i r hi hr
    have hsaved : read32 (s.pushes (savedRegs.map s.regs)).mem
        (s.regs .esp - BitVec.ofNat 32 (4 * (i + 1))) = s.regs r :=
      read32_pushes hroom (by rw [List.getElem?_map, hr]; rfl)
    have haddr : s'.regs .esp + BitVec.ofNat 32 (28 - 4 * i)
        = s.regs .esp - BitVec.ofNat 32 (4 * (i + 1)) := by
      rw [hesp, hbase]
      bv_omega
    rw [haddr]
    refine (read32_congr_above hmem ?_ ?_).trans hsaved
    · rw [hbase]
      bv_omega
    · bv_omega
  have hregs : poppedRegs s'.mem (s'.regs .esp) = s.regs := by
    funext r
    cases r with
    | eax => exact hread 0 _ (by decide) rfl
    | ecx => exact hread 1 _ (by decide) rfl
    | edx => exact hread 2 _ (by decide) rfl
    | ebx => exact hread 3 _ (by decide) rfl
    | esp =>
      -- not read back, but moved past the eight words
      change s'.regs .esp + 32 = s.regs .esp
      rw [hesp, hbase]
      bv_omega
    | ebp => exact hread 5 _ (by decide) rfl
    | esi => exact hread 6 _ (by decide) rfl
    | edi =>
      have hedi := hread 7 .edi (by decide) rfl
      rw [BitVec.add_zero] at hedi
      exact hedi
  rw [popad, hregs]

end State

end X86
