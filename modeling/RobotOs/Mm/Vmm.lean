import RobotOs.Mm.PageTable

/-!
# Unmapping a page, and the kernel's entries in a user table

`unmap`, `kernel_entry_collision` and `copy_kernel_entries_to_user` of `vmm.rs`.

`unmap` gets the answer of the allocator, for the table that a page of 2 MiB is split into.
The copy of the kernel's entries shares the kernel's tables: an entry that is copied
keeps the frame of its table.
-/

namespace RobotOs.Mm

namespace PageTable

/-! ## Unmapping -/

/-- The table of 4 KiB pages that a page of 2 MiB is split into. -/
def splitMega (pte : Pte) (i : Nat) : Pte := Pte.new (pte.physAddr + i * PAGE_SIZE) pte.flags

/-- `unmap`. -/
def unmap (pt : PageTable) (va : Nat) (allocPage : Option Nat) : PageTable :=
  match pt.root (vpn2 va) with
  | .entry _ _ => pt
  | .table f2 l1 =>
    match l1 (vpn1 va) with
    | .entry pte _ =>
      if !pte.isValid then pt
      else
        match allocPage with
        | none => pt
        | some l0Pt =>
          (pt.setRoot (vpn2 va) (.table f2 (Function.update l1 (vpn1 va)
            (.table l0Pt (splitMega pte))))).setLeaf va .empty
    | .table _ _ => pt.setLeaf va .empty

/-- The page is part of a large one that stays: 1 GiB, or 2 MiB without a table to split it. -/
def Stuck (pt : PageTable) (va : Nat) (allocPage : Option Nat) : Prop :=
  ∃ pte size, pt.leaf va = some (pte, size) ∧
    (size = GIGA_SIZE ∨ size = MEGA_SIZE ∧ allocPage = none)

variable {pt : PageTable} {va : Nat}

/-- The sums of the loop over the split table do not overflow: the large page is aligned. -/
theorem physAddr_splitMega {pte : Pte} (hlarge : pte.isLarge MEGA_SIZE = true)
    (hvalid : pte.isValid = true) {i : Nat} (hi : i < PT_ENTRIES) :
    (splitMega pte i).physAddr = pte.physAddr + i * PAGE_SIZE := by
  obtain ⟨-, -, haligned⟩ := (Pte.isLarge_iff hvalid).mp hlarge
  have hend := pte.physAddr_add_le (by decide) haligned
  apply Pte.physAddr_new
  · exact Dvd.dvd.add pte.dvd_physAddr (Nat.dvd_mul_left _ _)
  · simp only [MEGA_SIZE, PT_ENTRIES, PAGE_SIZE] at hend hi ⊢
    omega

/-- The pages of the split table lead where the large page did. -/
theorem access_split {f2 l0Pt : Nat} {l1 : Nat → L1Slot} {pte : Pte}
    {hlarge : pte.isLarge MEGA_SIZE = true} (hroot : pt.root (vpn2 va) = .table f2 l1)
    (hl1 : l1 (vpn1 va) = .entry pte hlarge) (hvalid : pte.isValid = true) (va' : Nat) :
    (pt.setRoot (vpn2 va) (.table f2 (Function.update l1 (vpn1 va)
      (.table l0Pt (splitMega pte))))).access va' = pt.access va' := by
  simp only [access, leaf, walk, setRoot]
  by_cases h2 : vpn2 va' = vpn2 va
  · by_cases h1 : vpn1 va' = vpn1 va
    · have hnew := physAddr_splitMega hlarge hvalid (vpn0_lt va')
      have hflags : (splitMega pte (vpn0 va')).flags = pte.flags := rfl
      have hv : (splitMega pte (vpn0 va')).isValid = true := hvalid
      have hoffset : vpn0 va' * PAGE_SIZE + va' % PAGE_SIZE = va' % MEGA_SIZE := by
        simp only [vpn0, PAGE_SIZE, MEGA_SIZE, PT_ENTRIES]
        omega
      simp [h2, h1, hroot, hl1, hvalid, hv, hnew, hflags, Nat.add_assoc, hoffset, Option.filter]
    · simp [h2, h1, hroot]
  · simp [h2]

/-- The write of an empty entry of the last level unmaps its page. -/
theorem access_setLeaf_empty (pt : PageTable) {f2 f1 : Nat} {l1 : Nat → L1Slot} {l0 : Nat → Pte}
    (hroot : pt.root (vpn2 va) = .table f2 l1) (hl1 : l1 (vpn1 va) = .table f1 l0) (va' : Nat) :
    (SamePage va va' → (pt.setLeaf va .empty).access va' = none) ∧
      (¬ SamePage va va' → (pt.setLeaf va .empty).access va' = pt.access va') := by
  have hwalk : pt.walk va = some (l0 (vpn0 va), PAGE_SIZE) := by
    simp [walk, hroot, hl1]
  obtain ⟨hself, hsame⟩ := walk_setLeaf va' .empty hwalk
  refine ⟨?_, ?_⟩
  · intro hpage
    rw [access, leaf, hself hpage]
    rfl
  · intro hne
    rw [access, leaf_congr (hsame hne), access]

/-- `unmap` takes away one page and nothing else, or it leaves every translation. -/
theorem unmap_access (pt : PageTable) (va : Nat) (allocPage : Option Nat) :
    (pt.Stuck va allocPage → ∀ va', (pt.unmap va allocPage).access va' = pt.access va') ∧
      (¬ pt.Stuck va allocPage → ∀ va',
        (SamePage va va' → (pt.unmap va allocPage).access va' = none) ∧
          (¬ SamePage va va' → (pt.unmap va allocPage).access va' = pt.access va')) := by
  -- An address without an entry is not mapped already.
  have hnone : pt.walk va = none → ∀ va', (SamePage va va' → pt.access va' = none) := by
    intro hwalk va' hpage
    rw [access, leaf, walk_eq_of_samePage pt hpage, hwalk]
    rfl
  rw [unmap]
  split
  · next pte hp hroot =>
    refine ⟨fun _ _ => rfl, fun hstuck va' => ⟨?_, fun _ => rfl⟩⟩
    apply hnone
    cases hv : pte.isValid with
    | false => simp [walk, hroot, hv]
    | true =>
      exact absurd ⟨pte, GIGA_SIZE, by simp [leaf, walk, hroot, hv], .inl rfl⟩ hstuck
  · next f2 l1 hroot =>
    split
    · next pte hp hl1 =>
      cases hv : pte.isValid with
      | false =>
        refine ⟨fun _ _ => rfl, fun _ va' => ⟨?_, fun _ => rfl⟩⟩
        apply hnone
        simp [walk, hroot, hl1, hv]
      | true =>
        have hleaf : pt.leaf va = some (pte, MEGA_SIZE) := by simp [leaf, walk, hroot, hl1, hv]
        simp only [Bool.not_true, Bool.false_eq_true, if_false]
        cases allocPage with
        | none =>
          exact ⟨fun _ _ => rfl, fun hstuck => absurd ⟨pte, _, hleaf, .inr ⟨rfl, rfl⟩⟩ hstuck⟩
        | some l0Pt =>
          refine ⟨?_, fun _ va' => ?_⟩
          · rintro ⟨pte', size, hleaf', hreason⟩
            rw [hleaf] at hleaf'
            obtain ⟨rfl, rfl⟩ := Prod.mk.inj (Option.some.inj hleaf')
            simp [GIGA_SIZE, MEGA_SIZE] at hreason
          · have hempty := access_setLeaf_empty (pt.setRoot (vpn2 va)
              (.table f2 (Function.update l1 (vpn1 va) (.table l0Pt (splitMega pte)))))
              (Function.update_self ..) (Function.update_self ..) va'
            rw [access_split hroot hl1 hv va'] at hempty
            exact hempty
    · next f1 l0 hl1 =>
      refine ⟨?_, fun _ => access_setLeaf_empty pt hroot hl1⟩
      rintro ⟨pte, size, hleaf, hreason⟩
      obtain ⟨hwalk, -⟩ := leaf_eq_some_iff.mp hleaf
      simp only [walk, hroot, hl1, Option.some.injEq, Prod.mk.injEq] at hwalk
      obtain ⟨-, rfl⟩ := hwalk
      simp [GIGA_SIZE, MEGA_SIZE, PAGE_SIZE] at hreason

/-! ## The kernel's entries -/

/-- The loop over an L1 table of `copy_kernel_entries_to_user`, for one entry. -/
def mergeL1 (kernel user : L1Slot) : L1Slot :=
  if kernel.isValid && !user.isValid then kernel else user

/-- The loop over the root of `copy_kernel_entries_to_user`, for one entry. -/
def mergeL2 (kernel user : L2Slot) : L2Slot :=
  if !kernel.isValid then user
  else if !user.isValid then kernel
  else
    match kernel, user with
    | .table _ kl1, .table frame ul1 =>
      .table frame fun vpn1 => if vpn1 < PT_ENTRIES then mergeL1 (kl1 vpn1) (ul1 vpn1) else ul1 vpn1
    | _, _ => user

/-- `copy_kernel_entries_to_user`. -/
def copyKernelEntriesToUser (kernel user : PageTable) : PageTable :=
  { user with root := fun vpn2 =>
      if vpn2 < PT_ENTRIES then mergeL2 (kernel.root vpn2) (user.root vpn2) else user.root vpn2 }

/-- The check of one entry of the root in `kernel_entry_collision`. -/
def collisionL2 (vpn2 : Nat) (kernel user : L2Slot) : Option (Nat × Nat) :=
  if !kernel.isValid then none
  else if !user.isValid then none
  else
    match kernel, user with
    | .table _ kl1, .table _ ul1 =>
      (List.range PT_ENTRIES).findSome? fun vpn1 =>
        if (kl1 vpn1).isValid && (ul1 vpn1).isValid then some (vpn2, vpn1) else none
    | _, _ => some (vpn2, PT_ENTRIES)

/-- `kernel_entry_collision`: the first entry that both tables have. -/
def kernelEntryCollision (kernel user : PageTable) : Option (Nat × Nat) :=
  (List.range PT_ENTRIES).findSome? fun vpn2 =>
    collisionL2 vpn2 (kernel.root vpn2) (user.root vpn2)

section Graft

variable (kernel user : PageTable) (va : Nat)

/-- The walk of an address in the merged table is the one of the user's table, or the one of the
kernel's table where the user's table has nothing. -/
theorem walk_copyKernelEntriesToUser :
    (copyKernelEntriesToUser kernel user).walk va = user.walk va ∨
      user.walk va = none ∧ (copyKernelEntriesToUser kernel user).walk va = kernel.walk va := by
  simp only [walk, copyKernelEntriesToUser, if_pos (vpn2_lt va)]
  cases hk : kernel.root (vpn2 va) with
  | entry kpte hkp =>
    cases hu : user.root (vpn2 va) with
    | entry upte hup =>
      by_cases hkv : kpte.isValid = true <;> by_cases huv : upte.isValid = true <;>
        simp [mergeL2, hkv, huv]
    | table uf ul1 =>
      by_cases hkv : kpte.isValid = true <;> simp [mergeL2, hkv]
  | table kf kl1 =>
    cases hu : user.root (vpn2 va) with
    | entry upte hup =>
      by_cases huv : upte.isValid = true <;> simp [mergeL2, huv]
    | table uf ul1 =>
      simp only [mergeL2, Slot.isValid_table, Bool.not_true, Bool.false_eq_true, if_false,
        if_pos (vpn1_lt va)]
      cases hul1 : ul1 (vpn1 va) with
      | table f l0 => simp [mergeL1]
      | entry upte hup =>
        by_cases huv : upte.isValid = true
        · simp [mergeL1, huv]
        · by_cases hkv : (kl1 (vpn1 va)).isValid = true
          · right
            simp [mergeL1, huv, hkv]
          · left
            simp [mergeL1, huv, hkv]

variable {kernel user va}

/-- Without a collision the user's table has nothing at an address that the kernel's table maps,
and the kernel's entry is copied. -/
theorem walk_copyKernelEntriesToUser_kernel {found : Pte × Nat}
    (hnone : kernelEntryCollision kernel user = none) (hmapped : kernel.leaf va = some found) :
    (copyKernelEntriesToUser kernel user).walk va = kernel.walk va := by
  have hslot : collisionL2 (vpn2 va) (kernel.root (vpn2 va)) (user.root (vpn2 va)) = none :=
    List.findSome?_eq_none_iff.mp hnone _ (List.mem_range.mpr (vpn2_lt va))
  obtain ⟨hwalk, -⟩ := leaf_eq_some_iff.mp hmapped
  simp only [walk, copyKernelEntriesToUser, if_pos (vpn2_lt va)] at hwalk ⊢
  have hkv : (kernel.root (vpn2 va)).isValid = true := by
    cases hk : kernel.root (vpn2 va) with
    | table f l1 => rfl
    | entry pte hp =>
      rw [hk] at hwalk
      by_contra hv
      rw [Slot.isValid_entry, Bool.not_eq_true] at hv
      simp [hv] at hwalk
  by_cases huv : (user.root (vpn2 va)).isValid = true
  · -- Both tables have a table here, and the user's has no entry where the kernel's has one.
    cases hk : kernel.root (vpn2 va) with
    | entry pte hp =>
      rw [hk] at hslot hkv
      simp [collisionL2, hkv, huv] at hslot
    | table kf kl1 =>
      cases hu : user.root (vpn2 va) with
      | entry pte hp =>
        rw [hk, hu] at hslot
        rw [hu] at huv
        simp [collisionL2, huv] at hslot
      | table uf ul1 =>
        simp only [hk] at hwalk
        simp only [collisionL2, hk, hu, Slot.isValid_table, Bool.not_true, Bool.false_eq_true,
          if_false] at hslot
        have hl1 := List.findSome?_eq_none_iff.mp hslot _ (List.mem_range.mpr (vpn1_lt va))
        have hkl1 : (kl1 (vpn1 va)).isValid = true := by
          cases hkl : kl1 (vpn1 va) with
          | table f l0 => rfl
          | entry pte hp =>
            simp only [hkl] at hwalk
            by_contra hv
            rw [Slot.isValid_entry, Bool.not_eq_true] at hv
            simp [hv] at hwalk
        simp only [hkl1, Bool.true_and, ite_eq_right_iff, reduceCtorEq, imp_false,
          Bool.not_eq_true] at hl1
        simp [mergeL2, if_pos (vpn1_lt va), mergeL1, hkl1, hl1]
  · simp [mergeL2, hkv, huv]

end Graft

/-- The copy of the kernel's entries is sound: when no entry collides, all that the
kernel's table maps is mapped alike, and all that the user's table maps stays. -/
theorem graft_access (kernel user : PageTable) (hnone : kernelEntryCollision kernel user = none)
    (va : Nat) (found : Nat × PteFlags) :
    (kernel.access va = some found →
        (copyKernelEntriesToUser kernel user).access va = some found) ∧
      (user.access va = some found →
        (copyKernelEntriesToUser kernel user).access va = some found) := by
  constructor
  · intro hk
    obtain ⟨entry, hleaf, -⟩ := Option.map_eq_some_iff.mp hk
    rw [← hk, access, access, leaf_congr (walk_copyKernelEntriesToUser_kernel hnone hleaf)]
  · intro hu
    obtain ⟨entry, hleaf, -⟩ := Option.map_eq_some_iff.mp hu
    obtain ⟨hwalk, -⟩ := leaf_eq_some_iff.mp hleaf
    obtain hsame | ⟨hempty, -⟩ := walk_copyKernelEntriesToUser kernel user va
    · rw [← hu, access, access, leaf_congr hsame]
    · rw [hwalk] at hempty
      cases hempty

/-- A kernel with a device in a page of 2 MiB. -/
def deviceKernel : PageTable where
  frame := 1
  root := fun vpn2 => if vpn2 = 0 then .table 2 fun vpn1 =>
      if vpn1 = 128 then
        .entry (Pte.new 268435456 { PteFlags.empty with valid := true, read := true }) (by decide)
      else .empty
    else .empty

/-- A process with one page, in the same entry of the root. -/
def onePage : PageTable where
  frame := 3
  root := fun vpn2 => if vpn2 = 0 then .table 4 fun vpn1 =>
      if vpn1 = 0 then .table 5 fun vpn0 =>
        if vpn0 = 16 then
          Pte.new 8192 { PteFlags.empty with valid := true, read := true, user := true }
        else .empty
      else .empty
    else .empty

theorem graft_access_onePage :
    (copyKernelEntriesToUser deviceKernel onePage).access 65537 =
      some (8193, { PteFlags.empty with valid := true, read := true, user := true }) := by
  apply (graft_access deviceKernel onePage _ 65537 _).2
  · decide +kernel
  · decide +kernel

end PageTable

end RobotOs.Mm
