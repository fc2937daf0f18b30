import RobotOs.Ipc.IoRing
import RobotOs.Ipc.Port
import RobotOs.Ipc.Shm

/-!
# Typed calls that fail half way

`port_create_cap`, `shm_create_cap` and `io_ring_create_cap` take an entry of a resource
table and then mint a capability for it.  The mint fails when the table of the caller is
full.  `shm_release_cap` gives a reference back and revokes the capability, and the first of
the two can fail.

`Restored` says that a table has what it had.  The region of a failed `shm_create_cap` is
given back in every state.  The port of a failed `port_create_cap` stays.  The ring of a
failed `io_ring_create_cap` is given back, but an entry that was waiting for the end of a
pass is lost when the ring was put on it.  A failed `shm_release_cap` has revoked the
capability.
-/

namespace RobotOs.Ipc

open RobotOs.Abi CapStore

/-- Every entry is as before, or nothing was allocated in it before and nothing is now. -/
def Restored {I E : Type} (vacant : E → Prop) (table table' : I → E) : Prop :=
  ∀ i, table' i = table i ∨ vacant (table i) ∧ vacant (table' i)

namespace Restored

variable {I E : Type} {vacant : E → Prop} {table : I → E}

theorem refl : Restored vacant table table := fun _ => .inl rfl

/-- An entry without an allocation is emptied. -/
theorem update [DecidableEq I] {i : I} {e : E} (he : vacant e) (hi : vacant (table i)) :
    Restored vacant table (Function.update table i e) := by
  intro j
  by_cases hji : j = i
  · subst hji
    exact .inr ⟨hi, by rwa [Function.update_self]⟩
  · exact .inl (Function.update_of_ne hji _ _)

end Restored

/-! ## The mint -/

/-- The caller has a table, and the table has a free slot. -/
def CanGrant {n : Nat} (pool : Pool n) (store : Store n) (tid : UInt32) : Prop :=
  ∃ i, resolveOnly pool tid = some i ∧ ((store.claimSlot i tid).tables i).allocateSlot ≠ none

theorem grant_isSome_iff {n : Nat} (pool : Pool n) (store : Store n) (T : CapTarget) (tid : UInt32)
    (perms : CapPerms) (resource : UInt32) :
    (CapStore.grant pool store T tid perms resource).1.isSome = true ↔
      CanGrant pool store tid := by
  unfold CapStore.grant slotFor CanGrant
  cases resolveOnly pool tid with
  | none => simp
  | some i =>
    simp only [CapTable.grant, CapTable.grantRaw, CapTarget.KIND_ne_null, if_false]
    cases halloc : ((store.claimSlot i tid).tables i).allocateSlot with
    | none => simp [halloc]
    | some slot => simp [halloc]

theorem grant_eq_none {n : Nat} {pool : Pool n} {store : Store n} {tid : UInt32}
    (h : ¬CanGrant pool store tid) (T : CapTarget) (perms : CapPerms) (resource : UInt32) :
    (CapStore.grant pool store T tid perms resource).1 = none := by
  rw [← Option.not_isSome_iff_eq_none, grant_isSome_iff]
  exact h

/-! ## Ports -/

/-- A failed `port_create_cap` leaves the ports as they were exactly when the capability
could be minted or no port was free. -/
theorem portCreateCap_restored_iff (maxPorts : Nat) {n : Nat} (pool : Pool n) (store : Store n)
    (ports : Ports) (tid : UInt32) :
    ((Port.portCreateCap maxPorts pool store ports tid).1 = none →
        Restored (fun port => port.active = false) ports
          (Port.portCreateCap maxPorts pool store ports tid).2.2) ↔
      CanGrant pool store tid ∨ ∀ id ∈ Port.ids maxPorts, (ports id).active = true := by
  unfold Port.portCreateCap Port.portCreate
  cases hfind : (Port.ids maxPorts).find? fun id => !(ports id).active with
  | none =>
    have hbusy : ∀ id ∈ Port.ids maxPorts, (ports id).active = true := by
      simpa using List.find?_eq_none.mp hfind
    exact iff_of_true (fun _ => .refl) (.inr hbusy)
  | some id =>
    have hfree : (ports id).active = false := by simpa using List.find?_some hfind
    have hmem := List.mem_of_find?_eq_some hfind
    dsimp only
    by_cases hgrant : CanGrant pool store tid
    · refine iff_of_true (fun hnone => ?_) (.inl hgrant)
      have hsome := (grant_isSome_iff pool store .port tid .RW id).mpr hgrant
      rw [hnone] at hsome
      cases hsome
    · refine iff_of_false (fun h => ?_) ?_
      · rcases h (grant_eq_none hgrant _ _ _) id with hsame | ⟨-, hvacant⟩
        · rw [Function.update_self] at hsame
          rw [← hsame] at hfree
          cases hfree
        · rw [Function.update_self] at hvacant
          cases hvacant
      · rintro (hcan | hbusy)
        · exact hgrant hcan
        · rw [hbusy id hmem] at hfree
          cases hfree

/-! ## Shared memory -/

namespace Shm

theorem zero_lt_maxHolders : 0 < MAX_SHM_HOLDERS := by decide

/-- A region that was just made is given back whole by its maker. -/
theorem shmRelease_made {regions : Regions} {slot tid : UInt32} {frames : List Nat}
    {perms : ShmPerms} (hslot : slot ∈ ids) :
    shmRelease (Function.update regions slot
        ⟨frames, 1, tid, perms, true,
          fun i => if i.val = 0 then ⟨tid, 1, 0, 0⟩ else ShmHolder.empty⟩) tid slot =
      ⟨true, frames.filter (· ≠ 0), Function.update regions slot ShmRegion.empty⟩ := by
  have hrange : ¬slot.toNat ≥ MAX_SHM_REGIONS := by
    simp only [ids, List.mem_map, List.mem_range] at hslot
    obtain ⟨k, hk, rfl⟩ := hslot
    have hmax : MAX_SHM_REGIONS = 16 := rfl
    rw [UInt32.toNat_ofNat']
    omega
  have hheld : heldSlot ⟨frames, 1, tid, perms, true,
      fun i => if i.val = 0 then ⟨tid, 1, 0, 0⟩ else ShmHolder.empty⟩ tid =
        some ⟨0, zero_lt_maxHolders⟩ := by
    have hids : holderIds = ⟨0, zero_lt_maxHolders⟩ :: holderIds.tail := rfl
    rw [heldSlot, hids, List.find?_cons_of_pos]
    simp
  unfold shmRelease
  simp only [if_neg hrange, Function.update_self, hheld]
  simp [dropHolder, satPred]

/-- A region that could not be made leaves the table as it was. -/
theorem shmCreate_restored {regions : Regions} {tid : UInt32} {pageCount : Nat} {perms : ShmPerms}
    {frames : Option (List Nat)} (h : (shmCreate regions tid pageCount perms frames).1 = none) :
    Restored (fun region => region.active = false) regions
      (shmCreate regions tid pageCount perms frames).2 := by
  unfold shmCreate at h ⊢
  split_ifs at h ⊢
  · exact .refl
  · cases hfind : ids.find? fun id => !(regions id).active with
    | none => exact .refl
    | some slot =>
      have hfree : (regions slot).active = false := by simpa using List.find?_some hfind
      rw [hfind] at h
      cases frames with
      | none => exact .update rfl hfree
      | some frames => cases h

/-- What `shm_create` makes. -/
theorem shmCreate_some {regions : Regions} {tid slot : UInt32} {pageCount : Nat}
    {perms : ShmPerms} {frames : Option (List Nat)}
    (h : (shmCreate regions tid pageCount perms frames).1 = some slot) :
    ∃ pages, frames = some pages ∧ slot ∈ ids ∧ (regions slot).active = false ∧
      (shmCreate regions tid pageCount perms frames).2 = Function.update regions slot
        ⟨pages, 1, tid, perms, true,
          fun i => if i.val = 0 then ⟨tid, 1, 0, 0⟩ else ShmHolder.empty⟩ := by
  unfold shmCreate at h ⊢
  split_ifs at h ⊢
  cases hfind : ids.find? fun id => !(regions id).active with
  | none =>
    rw [hfind] at h
    cases h
  | some id =>
    rw [hfind] at h
    cases frames with
    | none => cases h
    | some pages =>
      obtain rfl := Option.some.inj h
      exact ⟨pages, rfl, List.mem_of_find?_eq_some hfind, by simpa using List.find?_some hfind, rfl⟩

/-- A failed `shm_create_cap` leaves the regions as they were. -/
theorem shmCreateCap_restored {n : Nat} (pool : Pool n) (store : Store n) (regions : Regions)
    (tid : UInt32) (pageCount : Nat) (perms : ShmPerms) (frames : Option (List Nat))
    (h : (shmCreateCap pool store regions tid pageCount perms frames).1.isOk = false) :
    Restored (fun region => region.active = false) regions
      (shmCreateCap pool store regions tid pageCount perms frames).2.2 := by
  unfold shmCreateCap at h ⊢
  split_ifs at h ⊢
  · exact .refl
  · cases hmade : (shmCreate regions tid pageCount perms frames).1 with
    | none =>
      have hrestored := shmCreate_restored hmade
      generalize shmCreate regions tid pageCount perms frames = out at hmade hrestored
      obtain ⟨made, regions'⟩ := out
      obtain rfl : made = none := hmade
      exact hrestored
    | some slot =>
      obtain ⟨pages, -, hslot, hfree, hregions⟩ := shmCreate_some hmade
      generalize shmCreate regions tid pageCount perms frames = out at h hmade hregions
      obtain ⟨made, regions'⟩ := out
      obtain rfl : made = some slot := hmade
      obtain rfl : regions' = _ := hregions
      dsimp only at h ⊢
      generalize CapStore.grant pool store .shm tid (capPermsFor perms) slot = minted at h
      obtain ⟨cap, store'⟩ := minted
      cases cap with
      | some cap => cases h
      | none =>
        dsimp only
        rw [shmRelease_made hslot]
        exact .update rfl hfree

/-- The task has a reference on the region and no live mapping of it. -/
def CanRelease (regions : Regions) (tid shmId : UInt32) : Prop :=
  shmId.toNat < MAX_SHM_REGIONS ∧ (regions shmId).active = true ∧
    ∃ i, heldSlot (regions shmId) tid = some i ∧ ((regions shmId).holders i).mapVa = 0

/-- A release that is refused changes nothing, and it is refused without the right to it. -/
theorem shmRelease_refused_or (regions : Regions) (tid shmId : UInt32) :
    CanRelease regions tid shmId ∧ (shmRelease regions tid shmId).dropped = true ∨
      ¬CanRelease regions tid shmId ∧ shmRelease regions tid shmId = ⟨false, [], regions⟩ := by
  unfold shmRelease CanRelease
  by_cases hrange : shmId.toNat ≥ MAX_SHM_REGIONS
  · exact .inr ⟨fun h => absurd h.1 (not_lt.mpr hrange), by rw [if_pos hrange]⟩
  · rw [if_neg hrange]
    dsimp only
    cases hactive : (regions shmId).active with
    | false => exact .inr ⟨fun h => Bool.false_ne_true h.2.1, rfl⟩
    | true =>
      rw [if_neg (by simp)]
      cases hheld : heldSlot (regions shmId) tid with
      | none => exact .inr ⟨fun ⟨_, _, i, hi, _⟩ => (Option.some_ne_none i) hi.symm, rfl⟩
      | some i =>
        dsimp only
        by_cases hmap : ((regions shmId).holders i).mapVa = 0
        · refine .inl ⟨⟨not_le.mp hrange, rfl, i, rfl, hmap⟩, ?_⟩
          rw [if_neg (not_not.mpr hmap)]
          split_ifs
          · rfl
          · rfl
        · refine .inr ⟨?_, if_pos hmap⟩
          rintro ⟨-, -, j, hj, hzero⟩
          obtain rfl := Option.some.inj hj
          exact hmap hzero

/-- A failed `shm_release_cap` leaves both tables as they were exactly when the reference
could be given back, if the capability was good. -/
theorem shmReleaseCap_restored_iff (table : CapTable) (level : UInt8) (regions : Regions)
    (tid : UInt32) (cap : Cap .shm) :
    ((shmReleaseCap table level regions tid cap).1.isOk = false →
        (shmReleaseCap table level regions tid cap).2 = (table, regions)) ↔
      ∀ shmId, table.get level cap .READ = .ok shmId → CanRelease regions tid shmId := by
  unfold shmReleaseCap
  cases hget : table.get level cap .READ with
  | error e => exact iff_of_true (fun _ => rfl) fun _ h => by cases h
  | ok shmId =>
    dsimp only
    rcases shmRelease_refused_or regions tid shmId with ⟨hcan, hdropped⟩ | ⟨hcannot, hout⟩
    · refine iff_of_true (fun h => ?_) fun id hid => Except.ok.inj hid ▸ hcan
      rw [hdropped] at h
      cases h
    · refine iff_of_false (fun h => ?_) fun h => hcannot (h shmId rfl)
      rw [hout] at h
      -- The capability was good, so its slot was occupied, and now it is not.
      obtain ⟨i, hhits, -⟩ := CapTable.get_eq_ok_iff.mp hget
      have hsame : table.revoke cap = table := congrArg Prod.fst (h rfl)
      have hcleared := CapTable.slots_revoke_of_hits hhits
      rw [hsame] at hcleared
      have hocc := hhits.occupied
      rw [hcleared] at hocc
      cases hocc

end Shm

/-! ## Rings -/

namespace IoRing

/-- `IoRingCapError`, of the creation. -/
inductive IoRingCapError where
  | noMem
  | full
  deriving DecidableEq, Repr

/-- `io_ring_create_cap`, with the pages that go back. -/
def ioRingCreateCap {n : Nat} (pool : Pool n) (store : Store n) (rings : Rings) (tid : UInt32)
    (privileged : Bool) (page : Option Nat) :
    Except IoRingCapError (Cap .ioRing × Nat) × List Nat × Store n × Rings :=
  match ioRingCreate rings tid.toNat privileged page with
  | (none, freed, rings) => (.error .noMem, freed, store, rings)
  | (some (ringId, phys), freed, rings) =>
    match CapStore.grant pool store .ioRing tid .RW ringId with
    | (some cap, store) => (.ok (cap, phys), freed, store, rings)
    | (none, store) =>
      let (_, freed', rings) := ioRingDestroy rings ringId
      (.error .full, freed ++ freed', store, rings)

/-- The entry pins no page. -/
def Unpinned (ring : IoRingState) : Prop := ring.active = false ∧ ring.orphaned = false

/-- The entry that `io_ring_create` takes does not wait for the end of a pass. -/
def NoOrphan (rings : Rings) : Prop :=
  ∀ i, (rings i).active = false → (∀ j < i, (rings j).active = true) →
    (rings i).orphaned = false

theorem entry_ofNat (i : Fin MAX_IO_RINGS) : entry (UInt32.ofNat i) = some i := by
  have hi : (UInt32.ofNat i).toNat = i := by
    rw [UInt32.toNat_ofNat']
    exact Nat.mod_eq_of_lt (i.isLt.trans (by decide))
  unfold entry
  rw [dif_pos (by rw [hi]; exact i.isLt)]
  exact congrArg some (Fin.ext hi)

/-- The outcomes of the creation: no page, no entry, or an entry of which nothing is left
when the mint fails. -/
theorem ioRingCreateCap_cases {n : Nat} (pool : Pool n) (store : Store n) (rings : Rings)
    (tid : UInt32) (privileged : Bool) (page : Option Nat) :
    (page = none ∨ ∀ i, (rings i).active = true) ∧
        (∃ store', ioRingCreateCap pool store rings tid privileged page =
          (.error .noMem, page.toList, store', rings)) ∨
      ∃ phys i, page = some phys ∧ (rings i).active = false ∧
        (∀ j < i, (rings j).active = true) ∧
        (CanGrant pool store tid ∧
            (ioRingCreateCap pool store rings tid privileged page).1.isOk = true ∨
          ¬CanGrant pool store tid ∧ ∃ store',
            ioRingCreateCap pool store rings tid privileged page =
              (.error .full, [phys], store', Function.update rings i .empty)) := by
  unfold ioRingCreateCap ioRingCreate
  cases page with
  | none => exact .inl ⟨.inl rfl, store, rfl⟩
  | some phys =>
    cases hfind : (List.finRange MAX_IO_RINGS).find? fun i => !(rings i).active with
    | none =>
      have hbusy : ∀ i, (rings i).active = true := by
        intro i
        simpa using List.find?_eq_none.mp hfind i (List.mem_finRange i)
      exact .inl ⟨.inr hbusy, store, rfl⟩
    | some i =>
      have hfirst := hfind
      rw [← Fin.find?_eq_find?_finRange, Fin.find?_eq_some_iff] at hfirst
      refine .inr ⟨phys, i, rfl, by simpa using hfirst.1,
        fun j hj => by simpa using hfirst.2 j hj, ?_⟩
      have hiff := grant_isSome_iff pool store .ioRing tid .RW (UInt32.ofNat i)
      dsimp only
      generalize CapStore.grant pool store .ioRing tid .RW (UInt32.ofNat i) = minted at hiff ⊢
      obtain ⟨cap, store'⟩ := minted
      cases cap with
      | some cap => exact .inl ⟨hiff.mp rfl, rfl⟩
      | none =>
        refine .inr ⟨fun h => Bool.false_ne_true (hiff.mpr h), store', ?_⟩
        simp [ioRingDestroy, entry_ofNat]

/-- A failed `io_ring_create_cap` gives the page back, and leaves the rings as they were
exactly when the capability could be minted, there was no page or no entry, or the entry
did not wait for the end of a pass. -/
theorem ioRingCreateCap_restored_iff {n : Nat} (pool : Pool n) (store : Store n) (rings : Rings)
    (tid : UInt32) (privileged : Bool) (page : Option Nat) :
    ((ioRingCreateCap pool store rings tid privileged page).1.isOk = false →
        (ioRingCreateCap pool store rings tid privileged page).2.1 = page.toList ∧
        Restored Unpinned rings (ioRingCreateCap pool store rings tid privileged page).2.2.2) ↔
      CanGrant pool store tid ∨ page = none ∨ NoOrphan rings := by
  rcases ioRingCreateCap_cases pool store rings tid privileged page with
    ⟨hnothing, store', hout⟩ |
      ⟨phys, i, rfl, hfree, hbefore, ⟨hgrant, hok⟩ | ⟨hgrant, store', hout⟩⟩
  · refine iff_of_true (fun _ => by rw [hout]; exact ⟨rfl, .refl⟩) ?_
    rcases hnothing with hpage | hbusy
    · exact .inr (.inl hpage)
    · refine .inr (.inr fun i hi _ => ?_)
      rw [hbusy i] at hi
      cases hi
  · refine iff_of_true (fun h => ?_) (.inl hgrant)
    rw [hok] at h
    cases h
  · rw [hout]
    constructor
    · intro h
      refine .inr (.inr fun j hj hjbefore => ?_)
      -- The first entry that is not active is the one that was taken.
      have hij : j = i := by
        rcases lt_trichotomy j i with hlt | heq | hgt
        · rw [hbefore j hlt] at hj
          cases hj
        · exact heq
        · rw [hjbefore i hgt] at hfree
          cases hfree
      subst hij
      have hrestored : Restored Unpinned rings (Function.update rings j .empty) := (h rfl).2
      rcases hrestored j with hsame | ⟨hvacant, -⟩
      · rw [Function.update_self] at hsame
        rw [← hsame]
        rfl
      · exact hvacant.2
    · rintro (hcan | hpage | hclean) -
      · exact absurd hcan hgrant
      · cases hpage
      · exact ⟨rfl, .update ⟨rfl, rfl⟩ ⟨hfree, hclean i hfree hbefore⟩⟩

end IoRing

/-! ## All or nothing -/

/-- The typed calls that fail, in every state of the tables and for every caller. -/
theorem typed_calls_all_or_nothing (maxPorts : Nat) {n : Nat} (pool : Pool n) (store : Store n)
    (tid : UInt32) :
    (∀ ports, ((Port.portCreateCap maxPorts pool store ports tid).1 = none →
        Restored (fun port => port.active = false) ports
          (Port.portCreateCap maxPorts pool store ports tid).2.2) ↔
      CanGrant pool store tid ∨ ∀ id ∈ Port.ids maxPorts, (ports id).active = true) ∧
    (∀ regions pageCount perms frames,
      (Shm.shmCreateCap pool store regions tid pageCount perms frames).1.isOk = false →
        Restored (fun region => region.active = false) regions
          (Shm.shmCreateCap pool store regions tid pageCount perms frames).2.2) ∧
    (∀ rings privileged page,
      ((IoRing.ioRingCreateCap pool store rings tid privileged page).1.isOk = false →
        (IoRing.ioRingCreateCap pool store rings tid privileged page).2.1 = page.toList ∧
        Restored IoRing.Unpinned rings
          (IoRing.ioRingCreateCap pool store rings tid privileged page).2.2.2) ↔
      CanGrant pool store tid ∨ page = none ∨ IoRing.NoOrphan rings) ∧
    ∀ (table : CapTable) (level : UInt8) (regions : Regions) (cap : Cap .shm),
      ((Shm.shmReleaseCap table level regions tid cap).1.isOk = false →
        (Shm.shmReleaseCap table level regions tid cap).2 = (table, regions)) ↔
      ∀ shmId, table.get level cap .READ = .ok shmId → Shm.CanRelease regions tid shmId :=
  ⟨fun ports => portCreateCap_restored_iff maxPorts pool store ports tid,
    fun regions pageCount perms frames =>
      Shm.shmCreateCap_restored pool store regions tid pageCount perms frames,
    fun rings privileged page =>
      IoRing.ioRingCreateCap_restored_iff pool store rings tid privileged page,
    fun table level regions cap =>
      Shm.shmReleaseCap_restored_iff table level regions tid cap⟩

/-- One task, with the id 3. -/
def soloPool : Pool 1 := ⟨fun _ => true, fun _ => 3⟩

/-- The task has used up its capability table. -/
def fullStore : Store 1 := ⟨fun _ => ⟨fun _ => ⟨.port, .RW, 1, 0⟩⟩, fun _ => 3, fun _ => 0⟩

/-- The handle of a capability to read region 0. -/
def staleShmCap : Cap .shm := ⟨.pack .shm .READ 1 0⟩

/-- The table with this capability. -/
def staleShmTable : CapTable := ⟨fun _ => ⟨.shm, .READ, 1, 0⟩⟩

/-- A port is taken for a task with a full capability table, the call fails, and the port
stays active.  A release of a region that is gone fails, and the capability is revoked. -/
theorem failed_calls_leave_traces :
    ((Port.portCreateCap 4 soloPool fullStore (fun _ => Port.empty) 3).1 = none ∧
      ((Port.portCreateCap 4 soloPool fullStore (fun _ => Port.empty) 3).2.2 0).active = true) ∧
    (Shm.shmReleaseCap staleShmTable 0 (fun _ => ShmRegion.empty) 3 staleShmCap).1 =
        .error .closed ∧
      (Shm.shmReleaseCap staleShmTable 0 (fun _ => ShmRegion.empty) 3 staleShmCap).2.1.get 0
        staleShmCap .READ = .error .stale := by
  decide +kernel

end RobotOs.Ipc
