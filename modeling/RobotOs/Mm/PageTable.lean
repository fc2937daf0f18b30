import RobotOs.Mm.Pmm

/-!
# Page tables

`mmu.rs` of the arch crate and the walks of `vmm.rs`: the three levels of Sv39 with
leaves of 1 GiB, 2 MiB and 4 KiB.

A page table is a tree.  A valid entry that is not a leaf is the table it points to, with
the frame of that table, so that two entries can be compared as pointers.  An entry is 54
bits of page number and ten flags, which is all of its 64 bits.  A large page starts at a multiple
of its size and is not shared by a fork: the tree has no other, so that no address in a page is
above the last one.

`walk` is the entry that the walk of an address ends at, with the size of its page, and
`access` is where an address leads and with which flags.
-/

namespace RobotOs.Mm

def PT_ENTRIES : Nat := 512
def MEGA_SIZE : Nat := 2097152
def GIGA_SIZE : Nat := 1073741824

/-- `PteFlags`. -/
structure PteFlags where
  valid : Bool
  read : Bool
  write : Bool
  exec : Bool
  user : Bool
  global : Bool
  accessed : Bool
  dirty : Bool
  cow : Bool
  demand : Bool
  deriving DecidableEq, Repr

def PteFlags.empty : PteFlags :=
  ⟨false, false, false, false, false, false, false, false, false, false⟩

/-- `Pte`. -/
structure Pte where
  ppn : Nat
  flags : PteFlags
  deriving DecidableEq, Repr

namespace Pte

variable (pte : Pte)

/-- `Pte::new`. -/
def new (physAddr : Nat) (flags : PteFlags) : Pte := ⟨physAddr / PAGE_SIZE, flags⟩

def empty : Pte := ⟨0, .empty⟩

def isValid : Bool := pte.flags.valid

def isLeaf : Bool := pte.flags.read || pte.flags.write || pte.flags.exec

/-- `phys_addr`.  The shift drops what does not fit. -/
def physAddr : Nat := pte.ppn * PAGE_SIZE % 2 ^ 64

/-- What stands above the last level when it is not a pointer: nothing, or a page that is aligned,
which `map_mega` checks, and not marked for a copy, since `fork_cow` marks pages of 4 KiB only. -/
def isLarge (size : Nat) : Bool :=
  !pte.isValid || pte.isLeaf && !pte.flags.cow && decide (size ∣ pte.physAddr)

theorem isLarge_empty (size : Nat) : empty.isLarge size = true := rfl

@[simp] theorem isValid_empty : empty.isValid = false := rfl

@[simp] theorem new_flags (physAddr : Nat) (flags : PteFlags) :
    (new physAddr flags).flags = flags := rfl

/-- The address of a page comes back. -/
theorem physAddr_new {physAddr : Nat} (flags : PteFlags) (haligned : PAGE_SIZE ∣ physAddr)
    (hlt : physAddr < 2 ^ 64) : (new physAddr flags).physAddr = physAddr := by
  rw [Pte.physAddr, new, Nat.div_mul_cancel haligned, Nat.mod_eq_of_lt hlt]

theorem dvd_physAddr : PAGE_SIZE ∣ pte.physAddr := by
  rw [physAddr]
  have h : PAGE_SIZE ∣ 2 ^ 64 := ⟨4503599627370496, by norm_num [PAGE_SIZE]⟩
  exact (Nat.dvd_mod_iff h).mpr (Nat.dvd_mul_left _ _)

/-- An aligned page ends within the 64 bits. -/
theorem physAddr_add_le {size : Nat} (hsize : size ∣ 2 ^ 64) (h : size ∣ pte.physAddr) :
    pte.physAddr + size ≤ 2 ^ 64 := by
  obtain ⟨k, hk⟩ := h
  obtain ⟨n, hn⟩ := hsize
  have hlt : size * k < size * n := by
    rw [← hk, ← hn]
    exact Nat.mod_lt _ (by decide)
  rw [hk, hn, ← Nat.mul_succ]
  exact Nat.mul_le_mul_left size (lt_of_mul_lt_mul_left' hlt)

variable {pte} in
theorem isLarge_iff {size : Nat} (h : pte.isValid = true) :
    pte.isLarge size = true ↔
      pte.isLeaf = true ∧ pte.flags.cow = false ∧ size ∣ pte.physAddr := by
  simp [isLarge, h, and_assoc]

end Pte

/-- An entry of a table above the last level, where a leaf has the size: not a pointer, or the
table it points to. -/
inductive Slot (size : Nat) (α : Type) where
  | entry (pte : Pte) (h : pte.isLarge size = true)
  | table (frame : Nat) (entries : Nat → α)

namespace Slot

variable {size : Nat} {α : Type}

def empty : Slot size α := .entry .empty (Pte.isLarge_empty size)

def isValid : Slot size α → Bool
  | .entry pte _ => pte.isValid
  | .table _ _ => true

@[simp] theorem isValid_entry (pte : Pte) (h : pte.isLarge size = true) :
    (entry pte h : Slot size α).isValid = pte.isValid := rfl

@[simp] theorem isValid_table (frame : Nat) (entries : Nat → α) :
    (table frame entries : Slot size α).isValid = true := rfl

end Slot

/-- An entry of a table of the second level. -/
abbrev L1Slot := Slot MEGA_SIZE Pte

/-- An entry of a root. -/
abbrev L2Slot := Slot GIGA_SIZE L1Slot

def vpn2 (va : Nat) : Nat := va / GIGA_SIZE % PT_ENTRIES
def vpn1 (va : Nat) : Nat := va / MEGA_SIZE % PT_ENTRIES
def vpn0 (va : Nat) : Nat := va / PAGE_SIZE % PT_ENTRIES

theorem vpn2_lt (va : Nat) : vpn2 va < PT_ENTRIES := Nat.mod_lt _ (by decide)
theorem vpn1_lt (va : Nat) : vpn1 va < PT_ENTRIES := Nat.mod_lt _ (by decide)
theorem vpn0_lt (va : Nat) : vpn0 va < PT_ENTRIES := Nat.mod_lt _ (by decide)

/-- The addresses are in one page of 4 KiB.  The walk does not see the bits above 38. -/
def SamePage (va va' : Nat) : Prop := vpn2 va' = vpn2 va ∧ vpn1 va' = vpn1 va ∧ vpn0 va' = vpn0 va

/-- The root table and its frame. -/
structure PageTable where
  frame : Nat
  root : Nat → L2Slot

namespace PageTable

variable (pt : PageTable)

/-- `walk` without allocation: the entry that it ends at, and the size of its page. -/
def walk (va : Nat) : Option (Pte × Nat) :=
  match pt.root (vpn2 va) with
  | .entry pte _ => if pte.isValid then some (pte, GIGA_SIZE) else none
  | .table _ l1 =>
    match l1 (vpn1 va) with
    | .entry pte _ => if pte.isValid then some (pte, MEGA_SIZE) else none
    | .table _ l0 => some (l0 (vpn0 va), PAGE_SIZE)

/-- The valid entry that maps an address, and the size of its page. -/
def leaf (va : Nat) : Option (Pte × Nat) := (pt.walk va).filter fun found => found.1.isValid

/-- Where an address leads, which is `translate`, and with which permissions. -/
def access (va : Nat) : Option (Nat × PteFlags) :=
  (pt.leaf va).map fun found => (found.1.physAddr + va % found.2, found.1.flags)

/-- The write of an entry of the root. -/
def setRoot (v2 : Nat) (slot : L2Slot) : PageTable :=
  { pt with root := Function.update pt.root v2 slot }

/-- The write of an entry of the last level through the pointer of `walk`.  What is written there
is an empty entry or a page that a fault brought, and a fault brings no large page. -/
def setLeaf (va : Nat) (pte : Pte) : PageTable :=
  match pt.root (vpn2 va) with
  | .entry _ _ => pt
  | .table f2 l1 =>
    match l1 (vpn1 va) with
    | .entry _ _ => pt
    | .table f1 l0 =>
      pt.setRoot (vpn2 va) (.table f2 (Function.update l1 (vpn1 va)
        (.table f1 (Function.update l0 (vpn0 va) pte))))

variable {pt} {va va' : Nat}

theorem leaf_eq_some_iff {found : Pte × Nat} :
    pt.leaf va = some found ↔ pt.walk va = some found ∧ found.1.isValid = true := by
  rw [leaf, Option.filter_eq_some_iff]

theorem leaf_congr {pt' : PageTable} (h : pt'.walk va' = pt.walk va) :
    pt'.leaf va' = pt.leaf va := by
  rw [leaf, leaf, h]

theorem walk_eq_of_samePage (pt : PageTable) (h : SamePage va va') : pt.walk va' = pt.walk va := by
  rw [walk, walk, h.1, h.2.1, h.2.2]

/-- The entry that a walk ends at: one of the last level, or a large page. -/
theorem walk_cases {found : Pte × Nat} (h : pt.walk va = some found) :
    found.2 = PAGE_SIZE ∨ (found.2 = GIGA_SIZE ∨ found.2 = MEGA_SIZE) ∧
      found.1.isValid = true ∧ found.1.isLarge found.2 = true := by
  unfold walk at h
  split at h
  · next pte hlarge _ =>
    split at h
    · next hvalid =>
      obtain rfl := Option.some.inj h
      exact .inr ⟨.inl rfl, hvalid, hlarge⟩
    · cases h
  · split at h
    · next pte hlarge _ =>
      split at h
      · next hvalid =>
        obtain rfl := Option.some.inj h
        exact .inr ⟨.inr rfl, hvalid, hlarge⟩
      · cases h
    · obtain rfl := Option.some.inj h
      exact .inl rfl

/-- An entry that is not valid is one of the last level. -/
theorem size_of_not_isValid {found : Pte × Nat} (h : pt.walk va = some found)
    (hv : found.1.isValid = false) : found.2 = PAGE_SIZE := by
  obtain hsize | ⟨-, hvalid, -⟩ := walk_cases h
  · exact hsize
  · rw [hv] at hvalid
    cases hvalid

/-- A page that waits for a copy is one of 4 KiB. -/
theorem size_of_cow {found : Pte × Nat} (h : pt.walk va = some found)
    (hcow : found.1.flags.cow = true) : found.2 = PAGE_SIZE := by
  obtain hsize | ⟨-, hvalid, hlarge⟩ := walk_cases h
  · exact hsize
  · rw [((Pte.isLarge_iff hvalid).mp hlarge).2.1] at hcow
    cases hcow

/-- The size of a page is a multiple of 4 KiB. -/
theorem page_dvd_size {found : Pte × Nat} (h : pt.walk va = some found) :
    PAGE_SIZE ∣ found.2 := by
  obtain hsize | ⟨hsize | hsize, -⟩ := walk_cases h
  · rw [hsize]
  all_goals
    rw [hsize]
    decide

/-- An address in a page is below the last one. -/
theorem physAddr_add_mod_lt {found : Pte × Nat} (h : pt.walk va = some found) (va' : Nat) :
    found.1.physAddr + va' % found.2 < 2 ^ 64 := by
  have hend : 0 < found.2 ∧ found.1.physAddr + found.2 ≤ 2 ^ 64 := by
    obtain hsize | ⟨hsize, hvalid, hlarge⟩ := walk_cases h
    · rw [hsize]
      exact ⟨by decide, found.1.physAddr_add_le (by decide) found.1.dvd_physAddr⟩
    · obtain ⟨-, -, haligned⟩ := (Pte.isLarge_iff hvalid).mp hlarge
      obtain hsize | hsize := hsize
      all_goals
        rw [hsize] at haligned ⊢
        exact ⟨by decide, found.1.physAddr_add_le (by decide) haligned⟩
  have hlt := Nat.mod_lt va' hend.1
  omega

/-- What an entry that is written does to the walks: its page ends at the entry, and the walks of
the others are as before. -/
theorem walk_setLeaf (va' : Nat) (pte : Pte) {old : Pte} (h : pt.walk va = some (old, PAGE_SIZE)) :
    (SamePage va va' → (pt.setLeaf va pte).walk va' = some (pte, PAGE_SIZE)) ∧
      (¬ SamePage va va' → (pt.setLeaf va pte).walk va' = pt.walk va') := by
  unfold walk at h
  split at h
  · -- A page of 1 GiB.
    split at h
    · cases h
    · cases h
  · next f2 l1 hroot =>
    split at h
    · -- A page of 2 MiB.
      split at h
      · cases h
      · cases h
    · next f1 l0 hl1 =>
      simp only [setLeaf, setRoot, walk, hroot, hl1]
      constructor
      · rintro ⟨h2, h1, h0⟩
        simp [h2, h1, h0]
      · intro hne
        by_cases h2 : vpn2 va' = vpn2 va
        · by_cases h1 : vpn1 va' = vpn1 va
          · have h0 : vpn0 va' ≠ vpn0 va := fun h0 => hne ⟨h2, h1, h0⟩
            simp [h2, h1, h0, hroot, hl1]
          · simp [h2, h1, hroot]
        · simp [h2]

/-- The entry that was written is found. -/
theorem walk_setLeaf_self (pte : Pte) {old : Pte} (h : pt.walk va = some (old, PAGE_SIZE)) :
    (pt.setLeaf va pte).walk va = some (pte, PAGE_SIZE) :=
  (walk_setLeaf va pte h).1 ⟨rfl, rfl, rfl⟩

theorem samePage_of_div_eq (h : va' / PAGE_SIZE = va / PAGE_SIZE) : SamePage va va' := by
  simp only [SamePage, vpn2, vpn1, vpn0, PAGE_SIZE, MEGA_SIZE, GIGA_SIZE, PT_ENTRIES] at *
  omega

end PageTable

end RobotOs.Mm
