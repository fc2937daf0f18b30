import RobotOs.Ipc.CapStore

/-!
# Shared memory regions

`crates/ipc/src/shm.rs`, and the shared-memory arms of
`crates/syscall/src/dispatch.rs`.  A region is an entry of a table of 16, and
its id is its index.  References are counted for each task in eight holder
slots, and for the whole region in `refCount`.  The last release gives the
frames back.

The page allocator is outside: `shmCreate` takes the frames that its calls of
`alloc_page` returned, and `shmRelease` returns the frames it frees.  The loop
of `shm_release_all` runs on fuel, one round more than the task has references.
-/

namespace RobotOs.Ipc

open RobotOs.Abi

def MAX_SHM_REGIONS : Nat := 16
def MAX_SHM_PAGES : Nat := 64
def MAX_SHM_HOLDERS : Nat := 8

/-- `ShmPerms`. -/
inductive ShmPerms where
  | readOnly | readWrite
  deriving DecidableEq, Repr

/-- `ShmHolder`. -/
structure ShmHolder where
  tid : UInt32
  refs : UInt32
  mapVa : Nat
  mapPages : Nat
  deriving DecidableEq, Repr

/-- `ShmHolder::empty`. -/
def ShmHolder.empty : ShmHolder := ⟨0, 0, 0, 0⟩

/-- `ShmRegion`.  The page array with its count is a list. -/
structure ShmRegion where
  physPages : List Nat
  refCount : UInt32
  ownerTask : UInt32
  perms : ShmPerms
  active : Bool
  holders : Fin MAX_SHM_HOLDERS → ShmHolder

/-- `ShmRegion::empty`. -/
def ShmRegion.empty : ShmRegion := ⟨[], 0, 0, .readOnly, false, fun _ => ShmHolder.empty⟩

/-- `SHM_REGIONS`, by region id. -/
abbrev Regions := UInt32 → ShmRegion

namespace Shm

/-- The ids of the table, in scan order. -/
def ids : List UInt32 := (List.range MAX_SHM_REGIONS).map UInt32.ofNat

/-- `shm_create`: the first inactive entry.  `frames` is what `page_count`
calls of `alloc_page` returned, `none` when one of them failed. -/
def shmCreate (regions : Regions) (ownerTask : UInt32) (pageCount : Nat) (perms : ShmPerms)
    (frames : Option (List Nat)) : Option UInt32 × Regions :=
  if pageCount = 0 ∨ pageCount > MAX_SHM_PAGES then (none, regions)
  else
    match ids.find? fun id => !(regions id).active with
    | none => (none, regions)
    | some slot =>
      match frames with
      | none => (none, Function.update regions slot ShmRegion.empty)
      | some frames =>
        (some slot, Function.update regions slot
          ⟨frames, 1, ownerTask, perms, true,
            fun i => if i.val = 0 then ⟨ownerTask, 1, 0, 0⟩ else ShmHolder.empty⟩)

/-- The holder slots in scan order. -/
def holderIds : List (Fin MAX_SHM_HOLDERS) := List.finRange MAX_SHM_HOLDERS

/-- The holder slot of a task that has a reference. -/
def heldSlot (region : ShmRegion) (tid : UInt32) : Option (Fin MAX_SHM_HOLDERS) :=
  holderIds.find? fun i => (region.holders i).refs > 0 && (region.holders i).tid == tid

/-- `holder_slot`: the slot of the task, or the first free one. -/
def holderSlot (region : ShmRegion) (tid : UInt32) :
    Option (Fin MAX_SHM_HOLDERS × Bool) :=
  match heldSlot region tid with
  | some i => some (i, true)
  | none => (holderIds.find? fun i => (region.holders i).refs == 0).map fun i => (i, false)

/-- `shm_acquire`. -/
def shmAcquire (regions : Regions) (tid shmId : UInt32) :
    Option (Nat × ShmPerms) × Regions :=
  if shmId.toNat ≥ MAX_SHM_REGIONS then (none, regions)
  else
    let region := regions shmId
    if !region.active then (none, regions)
    else
      match holderSlot region tid with
      | none => (none, regions)
      | some (i, existing) =>
        let holder := region.holders i
        if holder.refs.toNat + 1 ≥ 2 ^ 32 then (none, regions)
        else
          let holder' : ShmHolder :=
            if existing then { holder with refs := holder.refs + 1 } else ⟨tid, 1, 0, 0⟩
          (some (region.physPages.length, region.perms),
            Function.update regions shmId
              { region with
                holders := Function.update region.holders i holder'
                refCount := region.refCount + 1 })

/-- The holder slot of a task with a live mapping. -/
def mappedSlot (region : ShmRegion) (tid : UInt32) : Option (Fin MAX_SHM_HOLDERS) :=
  holderIds.find? fun i =>
    (region.holders i).refs > 0 && (region.holders i).tid == tid && (region.holders i).mapVa != 0

/-- Write one holder slot of a region. -/
def setHolder (regions : Regions) (shmId : UInt32) (i : Fin MAX_SHM_HOLDERS)
    (holder : ShmHolder) : Regions :=
  Function.update regions shmId
    { regions shmId with holders := Function.update (regions shmId).holders i holder }

/-- `shm_note_mapping`. -/
def shmNoteMapping (regions : Regions) (tid shmId : UInt32) (va pages : Nat) : Bool × Regions :=
  if shmId.toNat ≥ MAX_SHM_REGIONS ∨ va = 0 ∨ pages = 0 then (false, regions)
  else if !(regions shmId).active then (false, regions)
  else
    match heldSlot (regions shmId) tid with
    | none => (false, regions)
    | some i =>
      let holder := (regions shmId).holders i
      if holder.mapVa ≠ 0 then (false, regions)
      else (true, setHolder regions shmId i { holder with mapVa := va, mapPages := pages })

/-- `shm_take_mapping`. -/
def shmTakeMapping (regions : Regions) (tid shmId : UInt32) : Option (Nat × Nat) × Regions :=
  if shmId.toNat ≥ MAX_SHM_REGIONS then (none, regions)
  else if !(regions shmId).active then (none, regions)
  else
    match mappedSlot (regions shmId) tid with
    | none => (none, regions)
    | some i =>
      let holder := (regions shmId).holders i
      (some (holder.mapVa, holder.mapPages),
        setHolder regions shmId i { holder with mapVa := 0, mapPages := 0 })

/-- `saturating_sub(1)`. -/
def satPred (x : UInt32) : UInt32 := if x = 0 then 0 else x - 1

/-- One reference less in a holder slot, which is emptied at zero. -/
def dropRef (holder : ShmHolder) : ShmHolder :=
  if satPred holder.refs = 0 then ShmHolder.empty
  else { holder with refs := satPred holder.refs }

/-- One reference of holder slot `i` less in a region. -/
def dropHolder (region : ShmRegion) (i : Fin MAX_SHM_HOLDERS) : ShmRegion :=
  { region with
    holders := Function.update region.holders i (dropRef (region.holders i))
    refCount := satPred region.refCount }

/-- What a call of `shm_release` did. -/
structure Released where
  dropped : Bool
  freed : List Nat
  regions : Regions

/-- `shm_release`: give back one reference of a task.  The last one frees the
frames. -/
def shmRelease (regions : Regions) (tid shmId : UInt32) : Released :=
  if shmId.toNat ≥ MAX_SHM_REGIONS then ⟨false, [], regions⟩
  else
    let region := regions shmId
    if !region.active then ⟨false, [], regions⟩
    else
      match heldSlot region tid with
      | none => ⟨false, [], regions⟩
      | some i =>
        if (region.holders i).mapVa ≠ 0 then ⟨false, [], regions⟩
        else
          let region' := dropHolder region i
          if region'.refCount = 0 then
            ⟨true, region'.physPages.filter (· ≠ 0),
              Function.update regions shmId ShmRegion.empty⟩
          else ⟨true, [], Function.update regions shmId region'⟩

/-- The inner loop of `shm_release_all`, on fuel. -/
def releaseLoop : Nat → Regions → UInt32 → UInt32 → List Nat × Regions
  | 0, regions, _, _ => ([], regions)
  | fuel + 1, regions, tid, shmId =>
    let out := shmRelease (shmTakeMapping regions tid shmId).2 tid shmId
    if out.dropped then
      let rest := releaseLoop fuel out.regions tid shmId
      (out.freed ++ rest.1, rest.2)
    else (out.freed, out.regions)

/-- The references of a task to a region. -/
def refsOf (region : ShmRegion) (tid : UInt32) : Nat :=
  ∑ i, if (region.holders i).tid = tid then (region.holders i).refs.toNat else 0

/-- One round of the outer loop of `shm_release_all`. -/
def releaseRegion (tid : UInt32) (acc : List Nat × Regions) (shmId : UInt32) :
    List Nat × Regions :=
  let out := releaseLoop (refsOf (acc.2 shmId) tid + 1) acc.2 tid shmId
  (acc.1 ++ out.1, out.2)

/-- `shm_release_all`: drop every reference of a task that exits. -/
def shmReleaseAll (regions : Regions) (tid : UInt32) : List Nat × Regions :=
  ids.foldl (releaseRegion tid) ([], regions)

/-! ## Typed calls -/

/-- `ShmCapError`. -/
inductive ShmCapError where
  | cap (e : CapError)
  | noMem | badArg | closed | full
  deriving DecidableEq, Repr

/-- `cap_perms_for`. -/
def capPermsFor : ShmPerms → CapPerms
  | .readOnly => .READ
  | .readWrite => .RW

/-- `shm_create_cap`.  When the capability table is full the region is
released again. -/
def shmCreateCap {n : Nat} (pool : Pool n) (store : Store n) (regions : Regions)
    (tid : UInt32) (pageCount : Nat) (perms : ShmPerms) (frames : Option (List Nat)) :
    Except ShmCapError (Cap .shm) × Store n × Regions :=
  if pageCount = 0 ∨ pageCount > MAX_SHM_PAGES then (.error .badArg, store, regions)
  else
    match shmCreate regions tid pageCount perms frames with
    | (none, regions) => (.error .noMem, store, regions)
    | (some shmId, regions) =>
      match CapStore.grant pool store .shm tid (capPermsFor perms) shmId with
      | (some cap, store) => (.ok cap, store, regions)
      | (none, store) => (.error .full, store, (shmRelease regions tid shmId).regions)

/-- `shm_release_cap`: drop the reference and revoke the capability. -/
def shmReleaseCap (table : CapTable) (level : UInt8) (regions : Regions) (tid : UInt32)
    (cap : Cap .shm) : Except ShmCapError Unit × CapTable × Regions :=
  match table.get level cap .READ with
  | .error e => (.error (.cap e), table, regions)
  | .ok shmId =>
    let out := shmRelease regions tid shmId
    (if out.dropped then .ok () else .error .closed, table.revoke cap, out.regions)

/-! ## Releasing references -/

theorem toNat_satPred (x : UInt32) : (satPred x).toNat = x.toNat - 1 := by
  unfold satPred
  split_ifs with h
  · simp [h]
  · have hpos : x.toNat ≠ 0 := fun h0 => h (UInt32.toNat_inj.mp h0)
    rw [UInt32.toNat_sub_of_le _ _ (UInt32.le_iff_toNat_le.mpr (by
      rw [show (1 : UInt32).toNat = 1 from rfl]
      omega))]
    rfl

/-- A holder slot that was found counts references of the task. -/
theorem heldSlot_eq_some {region : ShmRegion} {tid : UInt32} {i : Fin MAX_SHM_HOLDERS}
    (h : heldSlot region tid = some i) :
    0 < (region.holders i).refs.toNat ∧ (region.holders i).tid = tid := by
  have hi := List.find?_some h
  rw [Bool.and_eq_true, decide_eq_true_iff, beq_iff_eq, gt_iff_lt, UInt32.lt_iff_toNat_lt] at hi
  exact hi

end Shm

end RobotOs.Ipc
