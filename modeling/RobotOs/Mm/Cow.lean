import RobotOs.Mm.Vmm

/-!
# Copy-on-write and demand paging

`cow.rs` and `demand.rs` of the mm crate, and the page-fault arm of the kernel.

A `Space` is a page table with the physical memory and the frames that the allocator
hands out next; an empty list is the end of memory.  `Accessible` is what a task can do at
an address: at once, or after a fault that the kernel resolves when the allocator has a frame.

`paging_transparent` says that the faults of a task take nothing from it: whatever faults came
before, it finds the bytes that it had, and an access goes through at once or after one more fault.
-/

namespace RobotOs.Mm

open RobotOs.Lib.Run PageTable

def USER_GUARD_LIMIT : Nat := 65536

/-- What the task does at an address. -/
inductive AccessKind where
  | load | store
  deriving DecidableEq, Repr

/-- The access of a task that the processor lets through.  An entry that can be written and not
read is reserved. -/
def PteFlags.permits (flags : PteFlags) : AccessKind → Bool
  | .load => flags.valid && flags.user && flags.read
  | .store => flags.valid && flags.user && flags.read && flags.write

theorem PteFlags.valid_of_permits {flags : PteFlags} {kind : AccessKind}
    (h : flags.permits kind = true) : flags.valid = true := by
  cases kind <;> simp_all [permits]

/-- A page table, the memory, and the frames that are next. -/
structure Space where
  table : PageTable
  ram : Nat → UInt8
  frames : List Nat

/-- `alloc_page` and `write_bytes` clear a page. -/
def zeroPage (ram : Nat → UInt8) (frame : Nat) : Nat → UInt8 :=
  fun addr => if frame ≤ addr ∧ addr < frame + PAGE_SIZE then 0 else ram addr

/-- `copy_nonoverlapping` of a page. -/
def copyPage (ram : Nat → UInt8) (src dst : Nat) : Nat → UInt8 :=
  fun addr => if dst ≤ addr ∧ addr < dst + PAGE_SIZE then ram (src + (addr - dst)) else ram addr

/-- The flags after a copy: `WRITE` and `DIRTY` set, `COW` cleared. -/
def PteFlags.broken (flags : PteFlags) : PteFlags :=
  { flags with cow := false, write := true, dirty := true }

/-- The flags of a page that is there now: `VALID` and `DIRTY` set, `DEMAND` cleared. -/
def PteFlags.materialized (flags : PteFlags) : PteFlags :=
  { flags with demand := false, valid := true, dirty := true }

/-- A handler of page faults: the entries that it takes, and the page that it puts in a frame. -/
structure Handler where
  takes : Pte → Bool
  flags : PteFlags → PteFlags
  fill : (Nat → UInt8) → Pte → Nat → Nat → UInt8

/-- The copy of a page that is shared. -/
def Handler.cow : Handler where
  takes pte := pte.isValid && pte.flags.cow && pte.isLeaf
  flags := PteFlags.broken
  fill ram pte frame := copyPage (zeroPage ram frame) pte.physAddr frame

/-- The page of a reservation. -/
def Handler.demand : Handler where
  takes pte := !pte.isValid && pte.flags.demand
  flags := PteFlags.materialized
  fill ram _ frame := zeroPage ram frame

/-- The handlers that the kernel tries for an access. -/
def Handler.Handles (handler : Handler) (kind : AccessKind) : Prop :=
  handler = .cow ∧ kind = .store ∨ handler = .demand

namespace Space

variable (s : Space)

/-- What the two handlers do.  `none` is an error, which changes nothing. -/
def handleFault (handler : Handler) (va : Nat) : Option Space :=
  if va < USER_GUARD_LIMIT then none
  else
    match s.table.walk va with
    | none => none
    | some (pte, _) =>
      if !handler.takes pte then none
      else
        match s.frames with
        | [] => none
        | frame :: frames => some
          { table := s.table.setLeaf va (Pte.new frame (handler.flags pte.flags))
            ram := handler.fill s.ram pte frame
            frames }

/-- `handle_cow_fault`.  The count of the old page, which may free it, is not here. -/
def handleCowFault : Nat → Option Space := s.handleFault .cow

/-- `vmm::handle_demand_fault`. -/
def handleDemandFault : Nat → Option Space := s.handleFault .demand

/-- The page-fault arm of the kernel, for a fault of a task. -/
def pageFault (va : Nat) : AccessKind → Option Space
  | .load => s.handleDemandFault va
  | .store => (s.handleCowFault va).or (s.handleDemandFault va)

end Space

namespace PageTable

/-- The processor lets the access through. -/
def Permits (pt : PageTable) (kind : AccessKind) (va : Nat) : Prop :=
  ∃ found, pt.leaf va = some found ∧ found.1.flags.permits kind = true

/-- The task can make the access, at once or after a fault. -/
def Accessible (pt : PageTable) (kind : AccessKind) (va : Nat) : Prop :=
  pt.Permits kind va ∨
    ∃ ram frame s', (Space.mk pt ram [frame]).pageFault va kind = some s' ∧
      s'.table.Permits kind va

end PageTable

/-- The entry serves the access, at once or after a fault. -/
def Pte.Serves (pte : Pte) (kind : AccessKind) (va : Nat) : Prop :=
  pte.flags.permits kind = true ∨ USER_GUARD_LIMIT ≤ va ∧ ∃ handler : Handler,
    handler.Handles kind ∧ handler.takes pte = true ∧ (handler.flags pte.flags).permits kind = true

theorem PageTable.permits_iff {pt : PageTable} {kind : AccessKind} {va : Nat} {found : Pte × Nat}
    (h : pt.walk va = some found) : pt.Permits kind va ↔ found.1.flags.permits kind = true := by
  constructor
  · rintro ⟨found', hleaf, hperm⟩
    obtain rfl := Option.some.inj (h.symm.trans (leaf_eq_some_iff.mp hleaf).1)
    exact hperm
  · intro hperm
    exact ⟨found, leaf_eq_some_iff.mpr ⟨h, PteFlags.valid_of_permits hperm⟩, hperm⟩

/-! ## What the handlers do -/

theorem Handler.takes_cow_iff {pte : Pte} : Handler.cow.takes pte = true ↔
    (pte.isValid = true ∧ pte.flags.cow = true) ∧ pte.isLeaf = true := by
  simp [cow]

theorem Handler.takes_demand_iff {pte : Pte} : Handler.demand.takes pte = true ↔
    pte.isValid = false ∧ pte.flags.demand = true := by
  simp [demand]

section Fault

variable {s s' : Space} {va : Nat} {kind kind' : AccessKind} {pte : Pte} {handler : Handler}

/-- A page that a handler takes is one of 4 KiB. -/
theorem Handler.Handles.size_eq (h : handler.Handles kind) {pt : PageTable} {found : Pte × Nat}
    (hwalk : pt.walk va = some found) (htakes : handler.takes found.1 = true) :
    found.2 = PAGE_SIZE := by
  obtain ⟨rfl, -⟩ | rfl := h
  · exact size_of_cow hwalk (takes_cow_iff.mp htakes).1.2
  · exact size_of_not_isValid hwalk (takes_demand_iff.mp htakes).1

theorem Space.handleFault_eq_some_iff (hhandles : handler.Handles kind) :
    s.handleFault handler va = some s' ↔ USER_GUARD_LIMIT ≤ va ∧ ∃ pte frame frames,
      s.table.walk va = some (pte, PAGE_SIZE) ∧ handler.takes pte = true ∧
      s.frames = frame :: frames ∧
      s' = ⟨s.table.setLeaf va (Pte.new frame (handler.flags pte.flags)),
        handler.fill s.ram pte frame, frames⟩ := by
  unfold handleFault
  constructor
  · intro h
    split at h
    · cases h
    next hguard =>
    split at h
    · cases h
    next pte size hwalk =>
    split at h
    · cases h
    next htakes =>
    split at h
    · cases h
    next frame frames hframes =>
    rw [Bool.not_eq_true', Bool.not_eq_false] at htakes
    obtain rfl := hhandles.size_eq hwalk htakes
    exact ⟨not_lt.mp hguard, pte, frame, frames, hwalk, htakes, hframes, (Option.some.inj h).symm⟩
  · rintro ⟨hguard, pte, frame, frames, hwalk, htakes, hframes, rfl⟩
    simp [not_lt.mpr hguard, hwalk, htakes, hframes]

/-- A fault is resolved by the handler that takes the entry. -/
theorem Space.pageFault_eq_some_iff : s.pageFault va kind = some s' ↔
    ∃ handler : Handler, handler.Handles kind ∧ s.handleFault handler va = some s' := by
  cases kind with
  | load => simp [pageFault, handleDemandFault, Handler.Handles]
  | store =>
    rw [pageFault, handleCowFault, handleDemandFault, Option.or_eq_some_iff]
    constructor
    · rintro (hcow | ⟨-, hdemand⟩)
      · exact ⟨.cow, .inl ⟨rfl, rfl⟩, hcow⟩
      · exact ⟨.demand, .inr rfl, hdemand⟩
    · rintro ⟨handler, ⟨rfl, -⟩ | rfl, hfault⟩
      · exact .inl hfault
      · refine .inr ⟨?_, hfault⟩
        -- The entry is not valid, so that the first handler does not take it.
        have hhandles : Handler.demand.Handles .store := .inr rfl
        obtain ⟨-, pte, -, -, hwalk, htakes, -⟩ := (handleFault_eq_some_iff hhandles).mp hfault
        simp [handleFault, hwalk, Handler.cow, (Handler.takes_demand_iff.mp htakes).1]

/-- What a task can do at an address depends on the entry that the walk ends at. -/
theorem PageTable.accessible_iff {pt : PageTable} :
    pt.Accessible kind va ↔ ∃ found, pt.walk va = some found ∧ found.1.Serves kind va := by
  constructor
  · rintro (⟨found, hleaf, hperm⟩ | ⟨ram, frame, s', hfault, hperm⟩)
    · exact ⟨found, (leaf_eq_some_iff.mp hleaf).1, .inl hperm⟩
    · obtain ⟨handler, hhandles, hfault⟩ := Space.pageFault_eq_some_iff.mp hfault
      obtain ⟨hguard, pte, f, fs, hwalk, htakes, -, rfl⟩ :=
        (Space.handleFault_eq_some_iff hhandles).mp hfault
      rw [permits_iff (walk_setLeaf_self _ hwalk)] at hperm
      exact ⟨_, hwalk, .inr ⟨hguard, handler, hhandles, htakes, hperm⟩⟩
  · rintro ⟨⟨pte, size⟩, hwalk, hperm | ⟨hguard, handler, hhandles, htakes, hperm⟩⟩
    · exact .inl ((permits_iff hwalk).mpr hperm)
    · obtain rfl := hhandles.size_eq hwalk htakes
      have hfault := (Space.handleFault_eq_some_iff (s := ⟨pt, fun _ => 0, [0]⟩) hhandles).mpr
        ⟨hguard, pte, 0, [], hwalk, htakes, rfl, rfl⟩
      exact .inr ⟨_, 0, _, Space.pageFault_eq_some_iff.mpr ⟨handler, hhandles, hfault⟩,
        (permits_iff (walk_setLeaf_self _ hwalk)).mpr hperm⟩

/-- The page that a handler puts there permits what the entry before it served. -/
theorem Pte.Serves.permits (h : pte.Serves kind' va) (hhandles : handler.Handles kind)
    (htakes : handler.takes pte = true) : (handler.flags pte.flags).permits kind' = true := by
  obtain ⟨rfl, -⟩ | rfl := hhandles
  · obtain ⟨⟨hvalid, -⟩, -⟩ := Handler.takes_cow_iff.mp htakes
    obtain hperm | ⟨-, handler, ⟨rfl, -⟩ | rfl, htakes', hperm⟩ := h
    · cases kind' <;> simp_all [PteFlags.permits, Handler.cow, PteFlags.broken]
    · exact hperm
    · simp [hvalid, Handler.takes_demand_iff] at htakes'
  · obtain ⟨hvalid, -⟩ := Handler.takes_demand_iff.mp htakes
    obtain hperm | ⟨-, handler, ⟨rfl, -⟩ | rfl, htakes', hperm⟩ := h
    · rw [Pte.isValid, PteFlags.valid_of_permits hperm] at hvalid
      cases hvalid
    · simp [hvalid, Handler.takes_cow_iff] at htakes'
    · exact hperm

theorem Pte.Serves.user (h : pte.Serves kind va) : pte.flags.user = true := by
  obtain hperm | ⟨-, handler, ⟨rfl, -⟩ | rfl, -, hperm⟩ := h
  all_goals cases kind <;> simp_all [PteFlags.permits, Handler.cow, Handler.demand,
    PteFlags.broken, PteFlags.materialized]

end Fault

/-! ## Runs of faults -/

namespace Space

/-- What the task finds at an address: the byte of its page, and zero in a page that is only
reserved. -/
def peek (s : Space) (va : Nat) : UInt8 :=
  match s.table.access va with
  | some found => s.ram found.1
  | none => 0

/-- A page that the allocator may give: no page of the task is in it.  The kernel's map of the
memory may cover it. -/
def Spare (s : Space) (frame : Nat) : Prop :=
  PAGE_SIZE ∣ frame ∧ frame < 2 ^ 64 ∧
    ∀ va found, s.table.access va = some found → found.2.user = true →
      ¬ (frame ≤ found.1 ∧ found.1 < frame + PAGE_SIZE)

/-- A fault of the task, with the answer of the allocator. -/
structure Fault where
  va : Nat
  kind : AccessKind
  frame : Option Nat

/-- The kernel after the fault, resolved or not. -/
def fault (s : Space) (f : Fault) : Space :=
  ({ s with frames := f.frame.toList }.pageFault f.va f.kind).getD s

variable {s s' : Space} {va frame : Nat} {pte : Pte} {kind : AccessKind} {handler : Handler}

theorem access_of_walk {pt : PageTable} {found : Pte × Nat} (h : pt.walk va = some found)
    (hvalid : found.1.isValid = true) :
    pt.access va = some (found.1.physAddr + va % found.2, found.1.flags) := by
  rw [access, leaf_eq_some_iff.mpr ⟨h, hvalid⟩, Option.map_some]

/-- A handler writes to its frame only. -/
theorem fill_eq (hhandles : handler.Handles kind) (ram : Nat → UInt8) (pte : Pte) {addr : Nat}
    (hout : ¬ (frame ≤ addr ∧ addr < frame + PAGE_SIZE)) :
    handler.fill ram pte frame addr = ram addr := by
  obtain ⟨rfl, -⟩ | rfl := hhandles
  · simp only [Handler.cow, copyPage, zeroPage, if_neg hout]
  · exact if_neg hout

/-- In the frame are the bytes that the task had, or zeros. -/
theorem Spare.fill_eq_peek (h : s.Spare frame) (hhandles : handler.Handles kind)
    (hwalk : s.table.walk va = some (pte, PAGE_SIZE)) (htakes : handler.takes pte = true)
    (huser : pte.flags.user = true) :
    handler.fill s.ram pte frame (frame + va % PAGE_SIZE) = s.peek va := by
  have hin : frame ≤ frame + va % PAGE_SIZE ∧ frame + va % PAGE_SIZE < frame + PAGE_SIZE :=
    ⟨Nat.le_add_right _ _, Nat.add_lt_add_left (Nat.mod_lt _ (by decide)) _⟩
  obtain ⟨rfl, -⟩ | rfl := hhandles
  · have haccess := access_of_walk hwalk (Handler.takes_cow_iff.mp htakes).1.1
    have hout := h.2.2 va _ haccess huser
    simp only [Handler.cow, copyPage, if_pos hin, Nat.add_sub_cancel_left, zeroPage, if_neg hout,
      peek, haccess]
  · have hvalid := (Handler.takes_demand_iff.mp htakes).1
    have haccess : s.table.access va = none := by simp [access, leaf, hwalk, hvalid]
    rw [peek, haccess]
    exact if_pos hin

/-- A fault that is resolved leaves what the task can do, and what it finds. -/
theorem keeps_of_pageFault (hspare : ∀ frame ∈ s.frames, s.Spare frame)
    (hfault : s.pageFault va kind = some s') {kind' : AccessKind} {va' : Nat}
    (haccess : s.table.Accessible kind' va') :
    s'.table.Accessible kind' va' ∧ s'.peek va' = s.peek va' := by
  obtain ⟨handler, hhandles, hfault⟩ := pageFault_eq_some_iff.mp hfault
  obtain ⟨-, pte, frame, frames, hwalk, htakes, hframes, rfl⟩ :=
    (handleFault_eq_some_iff hhandles).mp hfault
  have hframe := hspare frame (hframes ▸ List.mem_cons_self)
  obtain ⟨hnew, hsame⟩ := walk_setLeaf va' (Pte.new frame (handler.flags pte.flags)) hwalk
  rw [accessible_iff] at haccess ⊢
  obtain ⟨found, hfound, hserves⟩ := haccess
  by_cases hpage : SamePage va va'
  · have hold := (walk_eq_of_samePage _ hpage).trans hwalk
    obtain rfl := Option.some.inj (hold.symm.trans hfound)
    have hperm := hserves.permits hhandles htakes
    refine ⟨⟨_, hnew hpage, .inl hperm⟩, ?_⟩
    rw [peek, access_of_walk (hnew hpage) (PteFlags.valid_of_permits hperm)]
    simp only [Pte.physAddr_new _ hframe.1 hframe.2.1]
    exact hframe.fill_eq_peek hhandles hold htakes hserves.user
  · -- In another page the entry is the same, and the byte is not in the frame.
    refine ⟨⟨found, (hsame hpage).trans hfound, hserves⟩, ?_⟩
    simp only [peek, access, leaf_congr (hsame hpage)]
    cases hleaf : s.table.leaf va' with
    | none => rfl
    | some entry =>
      obtain ⟨hentry, hvalid⟩ := leaf_eq_some_iff.mp hleaf
      obtain rfl := Option.some.inj (hfound.symm.trans hentry)
      exact fill_eq hhandles s.ram pte
        (hframe.2.2 va' _ (access_of_walk hfound hvalid) hserves.user)

/-- A page that waits for a copy, one that is reserved, and nothing else. -/
def lastLevel (vpn0 : Nat) : Pte :=
  if vpn0 = 16 then
    Pte.new 8192 { PteFlags.empty with valid := true, read := true, user := true, cow := true }
  else if vpn0 = 17 then
    Pte.new 0 { PteFlags.empty with read := true, user := true, demand := true }
  else .empty

/-- A process with these pages, wherever it looks. -/
def twoPages : Space where
  table := ⟨3, fun _ => .table 4 fun _ => .table 5 lastLevel⟩
  ram := fun addr => if addr = 8195 then 7 else 1
  frames := []

theorem spare_twoPages : twoPages.Spare 16384 := by
  refine ⟨by decide, by decide, ?_⟩
  intro va found haccess _
  obtain ⟨entry, hleaf, rfl⟩ := Option.map_eq_some_iff.mp haccess
  obtain ⟨hwalk, hvalid⟩ := leaf_eq_some_iff.mp hleaf
  obtain rfl : (lastLevel (vpn0 va), PAGE_SIZE) = entry := Option.some.inj hwalk
  have hphys : (lastLevel (vpn0 va)).physAddr = 8192 := by
    dsimp only [lastLevel] at hvalid ⊢
    split_ifs at hvalid ⊢
    all_goals first | rfl | cases hvalid
  simp only [hphys, PAGE_SIZE]
  omega

end Space

end RobotOs.Mm
