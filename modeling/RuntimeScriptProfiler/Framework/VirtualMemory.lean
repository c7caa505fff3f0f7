import RuntimeScriptProfiler.Framework.X86

/-!
# Memory whose pages are protected

An address space as a process sees it that changes the protection of its pages: its memory,
and for each page that is committed the region it has been allocated with and its
protection. The system behind it is open (`VirtualMemory`). What is relied on is what the
documentation of `VirtualProtect` and of the protections says (`VirtualMemory.Documented`):
committed pages of one region are given a protection, if the access with which the region
has been mapped is compatible with it, the old one of the first is returned, and a store to
pages that may be written is made.

`AddressSpace.virtualMemory` is a system that does so.
-/

namespace X86

/-! ### Pages -/

/-- The protection of a page, without modifiers. -/
inductive Protect where
  | noAccess | readOnly | readWrite | writeCopy
  | execute | executeRead | executeReadWrite | executeWriteCopy
  deriving DecidableEq

namespace Protect

/-- The constant by which it is passed. -/
def code : Protect → UInt32
  | noAccess => 0x01
  | readOnly => 0x02
  | readWrite => 0x04
  | writeCopy => 0x08
  | execute => 0x10
  | executeRead => 0x20
  | executeReadWrite => 0x40
  | executeWriteCopy => 0x80

/-- The protection of a constant. -/
def ofCode (c : UInt32) : Option Protect :=
  [noAccess, readOnly, readWrite, writeCopy, execute, executeRead, executeReadWrite,
    executeWriteCopy].find? fun p => p.code == c

theorem ofCode_code (p : Protect) : ofCode p.code = some p := by
  cases p <;> rfl

/-- May the page be written? -/
def writable : Protect → Bool
  | readWrite | writeCopy | executeReadWrite | executeWriteCopy => true
  | _ => false

end Protect

/-- A committed page: the region it has been allocated with, and its protection. -/
structure Page where
  region : ℕ
  protect : Protect
  deriving DecidableEq

/-- The page of an address. -/
def pageOf (addr : Word) : ℕ := addr.toNat / 0x1000

/-- The page of the last byte of a range. -/
def lastPage (addr : Word) (size : ℕ) : ℕ := (addr.toNat + size - 1) / 0x1000

section Range

variable {pages pages' : ℕ → Option Page} {addr : Word} {size n : ℕ}

/-- A range that is not empty, of committed pages of one region. -/
def Committed (pages : ℕ → Option Page) (addr : Word) (size : ℕ) : Prop :=
  0 < size ∧ addr.toNat + size ≤ 2 ^ 32 ∧ (pages (pageOf addr)).isSome = true ∧
    ∀ p ≤ lastPage addr size, pageOf addr ≤ p →
      (pages p).map Page.region = (pages (pageOf addr)).map Page.region

instance (pages : ℕ → Option Page) (addr : Word) (size : ℕ) :
    Decidable (Committed pages addr size) :=
  inferInstanceAs (Decidable (_ ∧ _ ∧ _ ∧ _))

/-- The pages of a range, all given one protection. -/
def reprotect (addr : Word) (size : ℕ) (new : Protect) (pages : ℕ → Option Page) (p : ℕ) :
    Option Page :=
  if pageOf addr ≤ p ∧ p ≤ lastPage addr size then (pages p).map fun q => { q with protect := new }
  else pages p

theorem pageOf_le_lastPage (h : 0 < size) : pageOf addr ≤ lastPage addr size :=
  Nat.div_le_div_right (by omega)

theorem lastPage_mono (h : n ≤ size) : lastPage addr n ≤ lastPage addr size :=
  Nat.div_le_div_right (by omega)

/-- The regions decide whether a range is committed. -/
theorem Committed.congr (h : Committed pages addr size)
    (hregion : ∀ p, (pages' p).map Page.region = (pages p).map Page.region) :
    Committed pages' addr size := by
  refine ⟨h.1, h.2.1, ?_, fun p hlast hfirst => ?_⟩
  · rw [← Option.isSome_map (f := Page.region), hregion, Option.isSome_map]
    exact h.2.2.1
  · rw [hregion, hregion]
    exact h.2.2.2 p hlast hfirst

theorem region_reprotect (addr : Word) (size : ℕ) (new : Protect) (pages : ℕ → Option Page)
    (p : ℕ) : (reprotect addr size new pages p).map Page.region = (pages p).map Page.region := by
  unfold reprotect
  split
  · rw [Option.map_map]
    rfl
  · rfl

end Range

/-! ### The system -/

/-- A system with protected pages. `compatible` says of a region which protections its pages may
be given, `virtualProtect` also gives the old protection that it returns, unless it fails,
`store` is `none` where it faults, and `uninitialized` is what a variable holds that has
not been set. -/
structure VirtualMemory (σ : Type*) where
  mem : σ → Memory
  pages : σ → ℕ → Option Page
  compatible : ℕ → Protect → Prop
  virtualProtect : Word → ℕ → UInt32 → σ → Option UInt32 × σ
  store : Word → List Byte → σ → Option σ
  uninitialized : σ → UInt32

/-- Bytes written one after the other. -/
def writeBytes (addr : Word) : List Byte → Memory → Memory
  | [], m => m
  | b :: bs, m => writeBytes (addr + 1) bs (Function.update m addr b)

namespace VirtualMemory

variable {σ : Type*} (vm : VirtualMemory σ)

/-- A committed range of one region, which may be made writable where it is executed. -/
def Changeable (s : σ) (addr : Word) (size : ℕ) : Prop :=
  Committed (vm.pages s) addr size ∧
    ∀ q ∈ vm.pages s (pageOf addr), vm.compatible q.region .executeReadWrite

variable {vm}

/-- The regions decide whether a range is changeable. -/
theorem Changeable.congr {s s' : σ} {addr : Word} {size : ℕ} (h : vm.Changeable s addr size)
    (hregion : ∀ p, (vm.pages s' p).map Page.region = (vm.pages s p).map Page.region) :
    vm.Changeable s' addr size := by
  refine ⟨h.1.congr hregion, fun q hq => ?_⟩
  have hmap := hregion (pageOf addr)
  rw [Option.mem_def.mp hq, Option.map_some] at hmap
  obtain ⟨q', hq', hsame⟩ := Option.map_eq_some_iff.mp hmap.symm
  exact hsame ▸ h.2 q' hq'

variable (vm)

/-- What is documented of the system. -/
structure Documented : Prop where
  /-- A page has a protection that its region is compatible with. -/
  compatible : ∀ {s p q}, vm.pages s p = some q → vm.compatible q.region q.protect
  /-- `VirtualProtect` gives committed pages of one region the new protection, if the region is
  compatible with it, and returns the old one of the first of them. -/
  protects : ∀ {s addr size first new}, Committed (vm.pages s) addr size →
    vm.pages s (pageOf addr) = some first → vm.compatible first.region new →
    ∃ s', vm.virtualProtect addr size new.code s = (some first.protect.code, s') ∧
      vm.mem s' = vm.mem s ∧ vm.pages s' = reprotect addr size new (vm.pages s)
  /-- Pages with `PAGE_EXECUTE_READWRITE` may be written. -/
  stores : ∀ {s addr bs}, bs ≠ [] →
    (∀ p ≤ lastPage addr bs.length, pageOf addr ≤ p →
      (vm.pages s p).any (fun q => q.protect = .executeReadWrite) = true) →
    ∃ s', vm.store addr bs s = some s' ∧ vm.mem s' = writeBytes addr bs (vm.mem s) ∧
      vm.pages s' = vm.pages s
  /-- A store to a page that is not committed faults. -/
  faults : ∀ {s addr bs}, bs ≠ [] → vm.pages s (pageOf addr) = none → vm.store addr bs s = none
  /-- `VirtualProtect` commits no page, whether it fails or not. -/
  virtualProtect_none : ∀ {s p} addr size new, vm.pages s p = none →
    vm.pages (vm.virtualProtect addr size new s).2 p = none
  /-- Nor does a store. -/
  store_none : ∀ {s s' addr bs p}, vm.store addr bs s = some s' → vm.pages s p = none →
    vm.pages s' p = none

end VirtualMemory

/-! ### An address space -/

/-- Memory with its pages. -/
structure AddressSpace where
  mem : Memory
  pages : ℕ → Option Page

namespace AddressSpace

/-- All pages that are written may be. -/
def Writable (s : AddressSpace) (addr : Word) (n : ℕ) : Prop :=
  ∀ p ≤ lastPage addr n, pageOf addr ≤ p → (s.pages p).any (fun q => q.protect.writable) = true

instance (s : AddressSpace) (addr : Word) (n : ℕ) : Decidable (s.Writable addr n) :=
  inferInstanceAs (Decidable (∀ _ ≤ _, _))

/-- A protection is changed where the range is committed, and a store is made where it may be.
All regions are compatible with all protections. -/
def virtualMemory : VirtualMemory AddressSpace where
  mem s := s.mem
  pages s := s.pages
  compatible _ _ := True
  virtualProtect addr size new s :=
    match Protect.ofCode new with
    | none => (none, s)
    | some new =>
      if Committed s.pages addr size then
        ((s.pages (pageOf addr)).map fun q => q.protect.code,
          { s with pages := reprotect addr size new s.pages })
      else (none, s)
  store addr bs s :=
    if s.Writable addr bs.length then some { s with mem := writeBytes addr bs s.mem } else none
  uninitialized _ := 0

theorem documented_virtualMemory : virtualMemory.Documented where
  compatible _ := trivial
  protects {s addr size first new} h hfirst _ := by
    refine ⟨{ s with pages := reprotect addr size new s.pages }, ?_, rfl, rfl⟩
    -- what is returned is read before the change
    have hold : (s.pages (pageOf addr)).map (fun q => q.protect.code)
        = some first.protect.code := by
      rw [show s.pages (pageOf addr) = some first from hfirst]
      rfl
    simp only [virtualMemory, Protect.ofCode_code, ← hold]
    exact if_pos h
  stores {s addr bs} _ h := by
    have hwritable : s.Writable addr bs.length := by
      intro p hlast hfirst
      obtain ⟨q, hq, hprotect⟩ := (Option.any_eq_true _ _).mp (h p hlast hfirst)
      refine (Option.any_eq_true _ _).mpr ⟨q, hq, ?_⟩
      rw [of_decide_eq_true hprotect]
      rfl
    exact ⟨{ s with mem := writeBytes addr bs s.mem }, if_pos hwritable, rfl, rfl⟩
  faults {s addr bs} hbs hnone := by
    have hwritable : ¬ s.Writable addr bs.length := by
      intro h
      have hany := h _ (pageOf_le_lastPage (List.length_pos_iff.mpr hbs)) (Nat.le_refl _)
      rw [show s.pages (pageOf addr) = none from hnone] at hany
      cases hany
    exact if_neg hwritable
  virtualProtect_none {s p} addr size new hnone := by
    simp only [virtualMemory]
    split
    · exact hnone
    · -- a page that is not there is not there with another protection either
      split
      · simp only [reprotect, show s.pages p = none from hnone, Option.map_none, ite_self]
      · exact hnone
  store_none {s s' addr bs p} hstore hnone := by
    obtain ⟨-, hs'⟩ := Option.ite_none_right_eq_some.mp hstore
    obtain rfl := Option.some.inj hs'
    exact hnone

end AddressSpace

end X86
