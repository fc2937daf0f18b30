import RobotOs.Lib.Run
import RobotOs.Lib.Tally
import RobotOs.Ipc.Shm

/-!
# The books of shared memory

What the reference counts of `shm.rs` and the page allocator say about each other
over whole runs.  The state has the table of regions and two lists: the frames
that the calls of `alloc_page` returned, and those given to `free_page`.

`shm_create` is modelled with its allocation loop here, so that the frames of a
creation that fails halfway are in both lists.

There are three groups.

* One inversion lemma for every call: which region it writes, and how.
* `RegionSound` is the invariant of a region, and `Accounted` that of the books.
  The region counts its references in an `AtomicU32` that wraps, while each holder
  refuses to.  So an acquire keeps the invariant when the count of the region is
  not at its end, which is the condition `NoWrap`.
* `shm_release_all` is a chain of single releases, so that what holds of them holds
  of the exit of a task, which leaves no reference of it.
-/

namespace RobotOs.Ipc.Shm

open RobotOs.Lib.Run RobotOs.Lib.Tally

/-! ## The books -/

/-- The regions, and the frames that were taken and returned. -/
structure Books where
  regions : Regions
  taken : List Nat
  returned : List Nat

/-- The state at boot. -/
def Books.init : Books := ⟨fun _ => .empty, [], []⟩

/-- A call. -/
inductive Act where
  | create (ownerTask : UInt32) (perms : ShmPerms) (answers : List (Option Nat))
  | acquire (tid shmId : UInt32)
  | noteMapping (tid shmId : UInt32) (va pages : Nat)
  | takeMapping (tid shmId : UInt32)
  | release (tid shmId : UInt32)
  | releaseAll (tid : UInt32)
  deriving DecidableEq, Repr

/-- The allocation loop of `shm_create`, on the answers of `alloc_page`: the frames it
got, and whether it got all. -/
def allocLoop : List (Option Nat) → List Nat × Bool
  | [] => ([], true)
  | none :: _ => ([], false)
  | some frame :: rest => (frame :: (allocLoop rest).1, (allocLoop rest).2)

/-- `shm_create` with its calls of the page allocator.  When one of them fails, the
frames so far go back. -/
def Books.create (b : Books) (ownerTask : UInt32) (perms : ShmPerms)
    (answers : List (Option Nat)) : Books :=
  if answers.length = 0 ∨ answers.length > MAX_SHM_PAGES then b
  else if (ids.find? fun id => !(b.regions id).active) = none then b
  else
    let got := allocLoop answers
    let frames := if got.2 then some got.1 else none
    ⟨(shmCreate b.regions ownerTask answers.length perms frames).2, b.taken ++ got.1,
      if got.2 then b.returned else b.returned ++ got.1⟩

def Books.step (b : Books) : Act → Books
  | .create ownerTask perms answers => b.create ownerTask perms answers
  | .acquire tid shmId => { b with regions := (shmAcquire b.regions tid shmId).2 }
  | .noteMapping tid shmId va pages =>
    { b with regions := (shmNoteMapping b.regions tid shmId va pages).2 }
  | .takeMapping tid shmId => { b with regions := (shmTakeMapping b.regions tid shmId).2 }
  | .release tid shmId =>
    let out := shmRelease b.regions tid shmId
    ⟨out.regions, b.taken, b.returned ++ out.freed⟩
  | .releaseAll tid =>
    let out := shmReleaseAll b.regions tid
    ⟨out.2, b.taken, b.returned ++ out.1⟩

/-! ## What the calls write -/

variable {region : ShmRegion} {regions : Regions} {tid shmId : UInt32} {i : Fin MAX_SHM_HOLDERS}
  {holder : ShmHolder} {b : Books}

theorem mem_ids (h : ¬ shmId.toNat ≥ MAX_SHM_REGIONS) : shmId ∈ ids := by
  refine List.mem_map.mpr ⟨shmId.toNat, List.mem_range.mpr (Nat.lt_of_not_le h), ?_⟩
  exact UInt32.ofNat_toNat

theorem lt_of_mem_ids (h : shmId ∈ ids) : shmId.toNat < MAX_SHM_REGIONS := by
  obtain ⟨k, hk, rfl⟩ := List.mem_map.mp h
  have hlt : k < MAX_SHM_REGIONS := List.mem_range.mp hk
  rw [UInt32.toNat_ofNat', Nat.mod_eq_of_lt (hlt.trans (by decide))]
  exact hlt

/-- A region with one holder slot and the count written. -/
def writeHolder (region : ShmRegion) (i : Fin MAX_SHM_HOLDERS) (holder : ShmHolder)
    (count : UInt32) : ShmRegion :=
  { region with holders := Function.update region.holders i holder, refCount := count }

/-- A slot that a task gets. -/
theorem holderSlot_cases {existing : Bool} (h : holderSlot region tid = some (i, existing)) :
    (existing = true ∧ heldSlot region tid = some i) ∨
      (existing = false ∧ heldSlot region tid = none ∧ (region.holders i).refs = 0) := by
  unfold holderSlot at h
  split at h
  next j hheld =>
    obtain ⟨rfl, rfl⟩ := Prod.mk.inj (Option.some.inj h)
    exact .inl ⟨rfl, hheld⟩
  next hheld =>
    obtain ⟨j, hj, hpair⟩ := Option.map_eq_some_iff.mp h
    obtain ⟨rfl, rfl⟩ := Prod.mk.inj hpair
    exact .inr ⟨rfl, hheld, by simpa using List.find?_some hj⟩

/-- An acquire is refused, or counts one reference more in the slot of the task, or
in a free slot. -/
theorem shmAcquire_cases (regions : Regions) (tid shmId : UInt32) :
    (shmAcquire regions tid shmId).2 = regions ∨
      ∃ i holder, shmId ∈ ids ∧ (regions shmId).active = true ∧
        (shmAcquire regions tid shmId).2 = Function.update regions shmId
          (writeHolder (regions shmId) i holder ((regions shmId).refCount + 1)) ∧
        holder.refs.toNat = ((regions shmId).holders i).refs.toNat + 1 ∧
        (heldSlot (regions shmId) tid = some i ∧
            holder.tid = ((regions shmId).holders i).tid ∨
          heldSlot (regions shmId) tid = none ∧ holder.tid = tid) := by
  unfold shmAcquire
  dsimp only
  split_ifs with hrange hactive
  · exact .inl rfl
  · exact .inl rfl
  split
  · exact .inl rfl
  next i existing hslot =>
    split_ifs with hfull hexisting
    · exact .inl rfl
    · have hone : ((regions shmId).holders i).refs.toNat + 1 < 2 ^ 32 := Nat.lt_of_not_le hfull
      refine .inr ⟨i, _, mem_ids hrange, by simpa using hactive, rfl, ?_, ?_⟩
      · exact (UInt32.toNat_add _ 1).trans (Nat.mod_eq_of_lt hone)
      · rcases holderSlot_cases hslot with ⟨-, hheld⟩ | ⟨hnew, -⟩
        · exact .inl ⟨hheld, rfl⟩
        · rw [hexisting] at hnew
          cases hnew
    · refine .inr ⟨i, _, mem_ids hrange, by simpa using hactive, rfl, ?_, ?_⟩
      · rcases holderSlot_cases hslot with ⟨hold, -⟩ | ⟨-, -, hzero⟩
        · exact absurd hold hexisting
        · rw [hzero]
          rfl
      · rcases holderSlot_cases hslot with ⟨hold, -⟩ | ⟨-, hheld, -⟩
        · exact absurd hold hexisting
        · exact .inr ⟨hheld, rfl⟩

/-- The calls on a mapping are refused, or write the mapping of a holder. -/
theorem shmNoteMapping_cases (regions : Regions) (tid shmId : UInt32) (va pages : Nat) :
    (shmNoteMapping regions tid shmId va pages).2 = regions ∨
      ∃ i, shmId ∈ ids ∧ (regions shmId).active = true ∧ ((regions shmId).holders i).refs ≠ 0 ∧
        (shmNoteMapping regions tid shmId va pages).2 = Function.update regions shmId
          (writeHolder (regions shmId) i
            { (regions shmId).holders i with mapVa := va, mapPages := pages }
            (regions shmId).refCount) := by
  unfold shmNoteMapping
  split_ifs with hargs hactive
  · exact .inl rfl
  · exact .inl rfl
  split
  · exact .inl rfl
  next i hheld =>
    dsimp only
    split_ifs
    · exact .inl rfl
    · have hpos := (heldSlot_eq_some hheld).1
      refine .inr ⟨i, mem_ids (by tauto), by simpa using hactive, ?_, rfl⟩
      rintro hzero
      rw [hzero] at hpos
      exact absurd hpos (by decide)

theorem shmTakeMapping_cases (regions : Regions) (tid shmId : UInt32) :
    (shmTakeMapping regions tid shmId).2 = regions ∨
      ∃ i, shmId ∈ ids ∧ (regions shmId).active = true ∧ ((regions shmId).holders i).refs ≠ 0 ∧
        (shmTakeMapping regions tid shmId).2 = Function.update regions shmId
          (writeHolder (regions shmId) i
            { (regions shmId).holders i with mapVa := 0, mapPages := 0 }
            (regions shmId).refCount) := by
  unfold shmTakeMapping
  split_ifs with hrange hactive
  · exact .inl rfl
  · exact .inl rfl
  split
  · exact .inl rfl
  next i hmapped =>
    have hpos : ((regions shmId).holders i).refs > 0 := by
      have hfound := List.find?_some hmapped
      simp only [Bool.and_eq_true, decide_eq_true_eq] at hfound
      exact hfound.1.1
    exact .inr ⟨i, mem_ids hrange, by simpa using hactive, UInt32.pos_iff_ne_zero.mp hpos, rfl⟩

/-- A release is refused, or drops the reference of an unmapped holder.  The region
goes with the last reference. -/
theorem shmRelease_written (regions : Regions) (tid shmId : UInt32) :
    shmRelease regions tid shmId = ⟨false, [], regions⟩ ∨
      ∃ i, shmId ∈ ids ∧ (regions shmId).active = true ∧
        heldSlot (regions shmId) tid = some i ∧ ((regions shmId).holders i).mapVa = 0 ∧
        ((regions shmId).refCount.toNat ≤ 1 ∧
            shmRelease regions tid shmId =
              ⟨true, (regions shmId).physPages.filter (· ≠ 0),
                Function.update regions shmId ShmRegion.empty⟩ ∨
          1 < (regions shmId).refCount.toNat ∧
            shmRelease regions tid shmId =
              ⟨true, [], Function.update regions shmId
                (writeHolder (regions shmId) i (dropRef ((regions shmId).holders i))
                  (satPred (regions shmId).refCount))⟩) := by
  unfold shmRelease
  dsimp only
  split_ifs with hrange hactive
  · exact .inl rfl
  · exact .inl rfl
  split
  · exact .inl rfl
  next i hheld =>
    have hpred := toNat_satPred (regions shmId).refCount
    have hcount : (dropHolder (regions shmId) i).refCount = satPred (regions shmId).refCount := rfl
    split_ifs with hmapped hlast
    · exact .inl rfl
    · refine .inr ⟨i, mem_ids hrange, by simpa using hactive, hheld, by simpa using hmapped,
        .inl ⟨?_, rfl⟩⟩
      rw [← hcount, hlast, UInt32.toNat_zero] at hpred
      omega
    · refine .inr ⟨i, mem_ids hrange, by simpa using hactive, hheld, by simpa using hmapped,
        .inr ⟨?_, rfl⟩⟩
      have hne : (satPred (regions shmId).refCount).toNat ≠ 0 := fun hzero =>
        hlast (hcount.trans (UInt32.toNat_inj.mp hzero))
      omega

/-- A creation writes a free entry, if it gets its frames. -/
theorem create_cases (b : Books) (ownerTask : UInt32) (perms : ShmPerms)
    (answers : List (Option Nat)) :
    b.create ownerTask perms answers = b ∨
      ∃ slot ∈ ids, (b.regions slot).active = false ∧
        ((allocLoop answers).2 = false ∧
            b.create ownerTask perms answers =
              ⟨Function.update b.regions slot ShmRegion.empty, b.taken ++ (allocLoop answers).1,
                b.returned ++ (allocLoop answers).1⟩ ∨
          (allocLoop answers).2 = true ∧
            b.create ownerTask perms answers =
              ⟨Function.update b.regions slot ⟨(allocLoop answers).1, 1, ownerTask, perms, true,
                  fun i => if i.val = 0 then ⟨ownerTask, 1, 0, 0⟩ else ShmHolder.empty⟩,
                b.taken ++ (allocLoop answers).1, b.returned⟩) := by
  unfold Books.create
  dsimp only
  split_ifs with hcount hslot hgot
  · exact .inl rfl
  · exact .inl rfl
  all_goals
    obtain ⟨slot, hfind⟩ := Option.ne_none_iff_exists'.mp hslot
    refine .inr ⟨slot, List.mem_of_find?_eq_some hfind, by simpa using List.find?_some hfind, ?_⟩
    simp only [shmCreate, if_neg hcount, hfind]
    simp [hgot]

/-! ## The invariant -/

/-- The references that the holders of a region have. -/
def refsTotal (region : ShmRegion) : Nat := total (fun h : ShmHolder => h.refs.toNat) region.holders

/-- The count of a live region is the sum over its holders, and it has a reference; a task has one
slot at most, and only a slot in use has a mapping.  An entry that is not live is blank. -/
structure RegionSound (region : ShmRegion) : Prop where
  counted : region.active = true → region.refCount.toNat = refsTotal region
  referenced : region.active = true → 0 < refsTotal region
  single : ∀ i j, (region.holders i).refs ≠ 0 → (region.holders j).refs ≠ 0 →
    (region.holders i).tid = (region.holders j).tid → i = j
  unmapped : ∀ i, (region.holders i).refs = 0 → (region.holders i).mapVa = 0
  blank : region.active = false → region = ShmRegion.empty

theorem regionSound_empty : RegionSound ShmRegion.empty where
  counted h := absurd h (by decide)
  referenced h := absurd h (by decide)
  single i j hi := absurd rfl hi
  unmapped i _ := rfl
  blank _ := rfl

/-- The new region has the one reference of its creator. -/
theorem regionSound_created (frames : List Nat) (ownerTask : UInt32) (perms : ShmPerms) :
    RegionSound ⟨frames, 1, ownerTask, perms, true,
      fun i => if i.val = 0 then ⟨ownerTask, 1, 0, 0⟩ else ShmHolder.empty⟩ where
  counted _ := by
    simp only [refsTotal, total]
    rfl
  referenced _ := by
    simp only [refsTotal, total]
    exact Nat.one_pos
  single i j hi hj _ := by
    have hfirst : ∀ k : Fin MAX_SHM_HOLDERS,
        (if k.val = 0 then (⟨ownerTask, 1, 0, 0⟩ : ShmHolder) else ShmHolder.empty).refs ≠ 0 →
          k.val = 0 := by
      intro k hk
      by_contra hne
      rw [if_neg hne] at hk
      exact hk rfl
    exact Fin.ext ((hfirst i hi).trans (hfirst j hj).symm)
  unmapped i _ := by
    dsimp only
    split_ifs <;> rfl
  blank h := absurd h (by simp)

/-- A slot is written with the count moved alike, for a task that has no other slot. -/
theorem RegionSound.writeHolder (h : RegionSound region) (hactive : region.active = true)
    {count : UInt32} (hpos : 0 < count.toNat)
    (hcount : count.toNat + (region.holders i).refs.toNat =
      region.refCount.toNat + holder.refs.toNat)
    (hother : holder.refs ≠ 0 → ∀ j, j ≠ i → (region.holders j).refs ≠ 0 →
      (region.holders j).tid ≠ holder.tid) (hmap : holder.refs = 0 → holder.mapVa = 0) :
    RegionSound (writeHolder region i holder count) := by
  have hcounted : count.toNat = refsTotal (Shm.writeHolder region i holder count) := by
    have hold := h.counted hactive
    have hsum := total_update (fun h : ShmHolder => h.refs.toNat) region.holders i holder
    simp only [refsTotal, Shm.writeHolder] at hold ⊢
    omega
  refine ⟨fun _ => hcounted, fun _ => hcounted ▸ hpos, ?_, ?_, ?_⟩
  · intro j k hj hk htid
    simp only [Shm.writeHolder, Function.update_apply] at hj hk htid
    split_ifs at hj hk htid with hji hki hki
    · exact hji.trans hki.symm
    · exact absurd htid.symm (hother hj k hki hk)
    · exact absurd htid (hother hk j hji hj)
    · exact h.single j k hj hk htid
  · intro j hj
    simp only [Shm.writeHolder, Function.update_apply] at hj ⊢
    split_ifs at hj ⊢ with hji
    · exact hmap hj
    · exact h.unmapped j hj
  · intro hinactive
    exact absurd (hinactive.symm.trans hactive) (by decide)

/-- A task with a slot has no other. -/
theorem RegionSound.tid_ne_of_ne (h : RegionSound region) {j : Fin MAX_SHM_HOLDERS}
    (hi : (region.holders i).refs ≠ 0) (hj : (region.holders j).refs ≠ 0) (hne : j ≠ i) :
    (region.holders j).tid ≠ (region.holders i).tid :=
  fun htid => hne (h.single j i hj hi htid)

/-- A change of the mapping of a holder. -/
theorem RegionSound.setMapping (h : RegionSound region) (hactive : region.active = true)
    (hi : (region.holders i).refs ≠ 0) (va pages : Nat) :
    RegionSound (Shm.writeHolder region i
      { region.holders i with mapVa := va, mapPages := pages } region.refCount) :=
  h.writeHolder hactive (h.counted hactive ▸ h.referenced hactive) rfl
    (fun _ _ hne hj => h.tid_ne_of_ne hi hj hne) fun hzero => absurd hzero hi

theorem refs_ne_zero_of_heldSlot (h : heldSlot region tid = some i) :
    (region.holders i).refs ≠ 0 := by
  intro hzero
  have hpos := (heldSlot_eq_some h).1
  rw [hzero] at hpos
  exact absurd hpos (by decide)

theorem tid_ne_of_heldSlot_none {j : Fin MAX_SHM_HOLDERS} (h : heldSlot region tid = none)
    (hj : (region.holders j).refs ≠ 0) :
    (region.holders j).tid ≠ tid := by
  intro htid
  have hslot := List.find?_eq_none.mp h j (List.mem_finRange j)
  simp [htid, UInt32.pos_iff_ne_zero.mpr hj] at hslot

/-- One more reference, when the count of the region does not wrap. -/
theorem RegionSound.acquire (h : RegionSound region) (hactive : region.active = true)
    (hwrap : region.refCount.toNat + 1 < 2 ^ 32)
    (hrefs : holder.refs.toNat = (region.holders i).refs.toNat + 1)
    (htid : heldSlot region tid = some i ∧ holder.tid = (region.holders i).tid ∨
      heldSlot region tid = none ∧ holder.tid = tid) :
    RegionSound (Shm.writeHolder region i holder (region.refCount + 1)) := by
  have hcount : (region.refCount + 1).toNat = region.refCount.toNat + 1 :=
    (UInt32.toNat_add _ 1).trans (Nat.mod_eq_of_lt hwrap)
  refine h.writeHolder hactive (by omega) (by omega) (fun _ j hne hj => ?_) fun hzero => ?_
  · rcases htid with ⟨hheld, htid⟩ | ⟨hnone, htid⟩
    · rw [htid]
      exact h.tid_ne_of_ne (refs_ne_zero_of_heldSlot hheld) hj hne
    · rw [htid]
      exact tid_ne_of_heldSlot_none hnone hj
  · rw [hzero, UInt32.toNat_zero] at hrefs
    omega

theorem refs_dropRef (holder : ShmHolder) : (dropRef holder).refs = satPred holder.refs := by
  unfold dropRef
  split_ifs with hzero
  · exact hzero.symm
  · rfl

/-- One reference less, when it is not the last of the region. -/
theorem RegionSound.drop (h : RegionSound region) (hactive : region.active = true)
    (hi : (region.holders i).refs ≠ 0) (hmap : (region.holders i).mapVa = 0)
    (hlast : 1 < region.refCount.toNat) :
    RegionSound (Shm.writeHolder region i (dropRef (region.holders i))
      (satPred region.refCount)) := by
  have hpos : (region.holders i).refs.toNat ≠ 0 := fun hzero => hi (UInt32.toNat_inj.mp hzero)
  have hcount := toNat_satPred region.refCount
  have hrefs := toNat_satPred (region.holders i).refs
  have hdropped := refs_dropRef (region.holders i)
  refine h.writeHolder hactive (by omega) ?_ (fun hne j hji hj => ?_) fun hzero => ?_
  · rw [hdropped]
    omega
  · have htid : (dropRef (region.holders i)).tid = (region.holders i).tid := by
      rw [hdropped] at hne
      rw [dropRef, if_neg hne]
    rw [htid]
    exact h.tid_ne_of_ne hi hj hji
  · unfold dropRef
    split_ifs
    · rfl
    · exact hmap

/-- How often a frame stands in the regions. -/
def liveCount (frame : Nat) (regions : Regions) : Nat :=
  total (fun region : ShmRegion => region.physPages.count frame)
    fun id : {id : UInt32 // id ∈ ids} => regions id

/-- The regions are sound, and every frame that was taken was returned or is in a region.
Address `0` marks an unused place of the page array. -/
structure Accounted (b : Books) : Prop where
  sound : ∀ id, RegionSound (b.regions id)
  balanced : ∀ frame, frame ≠ 0 →
    b.taken.count frame = b.returned.count frame + liveCount frame b.regions

theorem liveCount_update (frame : Nat) (regions : Regions) (h : shmId ∈ ids) (region : ShmRegion) :
    liveCount frame (Function.update regions shmId region) +
        (regions shmId).physPages.count frame =
      liveCount frame regions + region.physPages.count frame := by
  have hsub : (fun id : {id : UInt32 // id ∈ ids} => Function.update regions shmId region id) =
      Function.update (fun id : {id : UInt32 // id ∈ ids} => regions id) ⟨shmId, h⟩ region := by
    funext id
    simp only [Function.update_apply, Subtype.ext_iff]
  rw [liveCount, hsub]
  exact total_update _ _ (⟨shmId, h⟩ : {id : UInt32 // id ∈ ids}) region

theorem sound_update (h : ∀ id, RegionSound (regions id)) (hregion : RegionSound region)
    (id : UInt32) : RegionSound (Function.update regions shmId region id) := by
  rcases eq_or_ne id shmId with rfl | hne
  · rw [Function.update_self]
    exact hregion
  · rw [Function.update_of_ne hne]
    exact h id

/-- A region is written, and keeps its frames. -/
theorem Accounted.write (h : Accounted b) (hid : shmId ∈ ids) (hregion : RegionSound region)
    (hframes : region.physPages = (b.regions shmId).physPages) :
    Accounted { b with regions := Function.update b.regions shmId region } where
  sound := sound_update h.sound hregion
  balanced frame hframe := by
    have hold := h.balanced frame hframe
    have hlive := liveCount_update frame b.regions hid region
    rw [hframes] at hlive
    dsimp only
    omega

/-- The count of a region that is acquired is not at its end. -/
def NoWrap (b : Books) : Act → Prop
  | .acquire _ shmId => (b.regions shmId).refCount.toNat + 1 < 2 ^ 32
  | _ => True

instance (b : Books) : ∀ act, Decidable (NoWrap b act)
  | .acquire _ shmId => inferInstanceAs (Decidable ((b.regions shmId).refCount.toNat + 1 < 2 ^ 32))
  | .create _ _ _ => inferInstanceAs (Decidable True)
  | .noteMapping _ _ _ _ => inferInstanceAs (Decidable True)
  | .takeMapping _ _ => inferInstanceAs (Decidable True)
  | .release _ _ => inferInstanceAs (Decidable True)
  | .releaseAll _ => inferInstanceAs (Decidable True)

theorem Accounted.create (h : Accounted b) (ownerTask : UInt32) (perms : ShmPerms)
    (answers : List (Option Nat)) : Accounted (b.create ownerTask perms answers) := by
  obtain heq | ⟨slot, hid, hfree, ⟨-, heq⟩ | ⟨-, heq⟩⟩ := create_cases b ownerTask perms answers
  · rw [heq]
    exact h
  · rw [heq]
    refine ⟨sound_update h.sound regionSound_empty, fun frame hframe => ?_⟩
    have hold := h.balanced frame hframe
    have hlive := liveCount_update frame b.regions hid ShmRegion.empty
    rw [(h.sound slot).blank hfree] at hlive
    simp only [ShmRegion.empty, List.count_append] at hlive ⊢
    omega
  · rw [heq]
    refine ⟨sound_update h.sound (regionSound_created _ _ _), fun frame hframe => ?_⟩
    have hold := h.balanced frame hframe
    have hlive := liveCount_update frame b.regions hid ⟨(allocLoop answers).1, 1, ownerTask, perms,
      true, fun i => if i.val = 0 then ⟨ownerTask, 1, 0, 0⟩ else ShmHolder.empty⟩
    rw [(h.sound slot).blank hfree] at hlive
    simp only [ShmRegion.empty, List.count_append, List.count_nil] at hlive ⊢
    omega

theorem Accounted.release (h : Accounted b) (tid shmId : UInt32) :
    Accounted (b.step (.release tid shmId)) := by
  simp only [Books.step]
  obtain heq | ⟨i, hid, hactive, hheld, hmap, ⟨-, heq⟩ | ⟨hmore, heq⟩⟩ :=
    shmRelease_written b.regions tid shmId
  · rw [heq, List.append_nil]
    exact h
  · rw [heq]
    refine ⟨sound_update h.sound regionSound_empty, fun frame hframe => ?_⟩
    have hold := h.balanced frame hframe
    have hlive := liveCount_update frame b.regions hid ShmRegion.empty
    have hfreed : ((b.regions shmId).physPages.filter (· ≠ 0)).count frame =
        (b.regions shmId).physPages.count frame := List.count_filter (by simpa using hframe)
    simp only [ShmRegion.empty, List.count_append, List.count_nil] at hlive ⊢
    omega
  · rw [heq, List.append_nil]
    have hrefs := refs_ne_zero_of_heldSlot hheld
    exact h.write hid ((h.sound shmId).drop hactive hrefs hmap hmore) rfl

/-- A single call keeps the books. -/
theorem Accounted.step (h : Accounted b) {act : Act} (hwrap : NoWrap b act)
    (hsingle : ∀ tid, act ≠ .releaseAll tid) : Accounted (b.step act) := by
  cases act with
  | create ownerTask perms answers => exact h.create ownerTask perms answers
  | acquire tid shmId =>
    simp only [Books.step]
    obtain heq | ⟨i, holder, hid, hactive, heq, hrefs, htid⟩ :=
      shmAcquire_cases b.regions tid shmId
    · rw [heq]
      exact h
    · rw [heq]
      exact h.write hid ((h.sound shmId).acquire hactive hwrap hrefs htid) rfl
  | noteMapping tid shmId va pages =>
    simp only [Books.step]
    obtain heq | ⟨i, hid, hactive, hrefs, heq⟩ :=
      shmNoteMapping_cases b.regions tid shmId va pages
    · rw [heq]
      exact h
    · rw [heq]
      exact h.write hid ((h.sound shmId).setMapping hactive hrefs va pages) rfl
  | takeMapping tid shmId =>
    simp only [Books.step]
    obtain heq | ⟨i, hid, hactive, hrefs, heq⟩ := shmTakeMapping_cases b.regions tid shmId
    · rw [heq]
      exact h
    · rw [heq]
      exact h.write hid ((h.sound shmId).setMapping hactive hrefs 0 0) rfl
  | release tid shmId => exact h.release tid shmId
  | releaseAll tid => exact absurd rfl (hsingle tid)

/-! ## When frames go back -/

/-- What a call returns to the page allocator: nothing; or what a creation took that
failed; or the frames of one region, with one reference left, that the call drops, and
no mapping. -/
inductive Settles (b b' : Books) : Prop
  | kept (hreturned : b'.returned = b.returned)
      (hlive : ∀ id, (b.regions id).active = true → (b'.regions id).active = true)
  | undone (got : List Nat) (htaken : b'.taken = b.taken ++ got)
      (hreturned : b'.returned = b.returned ++ got)
      (hlive : ∀ id, (b.regions id).active = true → (b'.regions id).active = true)
  | ended (id : UInt32) (hactive : (b.regions id).active = true)
      (hlast : refsTotal (b.regions id) = 1)
      (hmap : ∀ i, ((b.regions id).holders i).mapVa = 0)
      (hreturned : b'.returned = b.returned ++ (b.regions id).physPages.filter (· ≠ 0))
      (hregions : b'.regions = Function.update b.regions id ShmRegion.empty)

theorem active_update (hregion : (regions shmId).active = true → region.active = true) (id : UInt32)
    (h : (regions id).active = true) : (Function.update regions shmId region id).active = true := by
  rcases eq_or_ne id shmId with rfl | hne
  · rw [Function.update_self]
    exact hregion h
  · rw [Function.update_of_ne hne]
    exact h

/-- The last reference of a region belongs to the one holder that has a slot. -/
theorem RegionSound.last (h : RegionSound region) (hactive : region.active = true)
    (hi : (region.holders i).refs ≠ 0) (hmap : (region.holders i).mapVa = 0)
    (hlast : region.refCount.toNat ≤ 1) :
    refsTotal region = 1 ∧ ∀ j, (region.holders j).mapVa = 0 := by
  have hcount := h.counted hactive
  have hpos : (region.holders i).refs.toNat ≠ 0 := fun hzero => hi (UInt32.toNat_inj.mp hzero)
  have hle : (region.holders i).refs.toNat ≤ refsTotal region :=
    le_total (fun h : ShmHolder => h.refs.toNat) region.holders i
  refine ⟨by omega, fun j => ?_⟩
  rcases eq_or_ne j i with rfl | hne
  · exact hmap
  refine h.unmapped j ?_
  -- Without slot `i` nothing is left of the sum.
  have hrest := total_update (fun h : ShmHolder => h.refs.toNat) region.holders i ShmHolder.empty
  have hj := le_total (fun h : ShmHolder => h.refs.toNat)
    (Function.update region.holders i ShmHolder.empty) j
  have hempty : ShmHolder.empty.refs.toNat = 0 := rfl
  rw [Function.update_of_ne hne] at hj
  refine UInt32.toNat_inj.mp ?_
  simp only [refsTotal] at hcount hle
  rw [UInt32.toNat_zero]
  omega

theorem Accounted.settles (h : Accounted b) {act : Act} (hsingle : ∀ tid, act ≠ .releaseAll tid) :
    Settles b (b.step act) := by
  cases act with
  | create ownerTask perms answers =>
    simp only [Books.step]
    obtain heq | ⟨slot, -, hfree, ⟨-, heq⟩ | ⟨-, heq⟩⟩ := create_cases b ownerTask perms answers
    · rw [heq]
      exact .kept rfl fun _ => id
    · rw [heq]
      exact .undone _ rfl rfl (active_update fun hbusy => absurd hbusy (by simp [hfree]))
    · rw [heq]
      exact .kept rfl (active_update fun _ => rfl)
  | acquire tid shmId =>
    simp only [Books.step]
    obtain heq | ⟨i, holder, -, -, heq, -⟩ := shmAcquire_cases b.regions tid shmId
    · rw [heq]
      exact .kept rfl fun _ => id
    · rw [heq]
      exact .kept rfl (active_update id)
  | noteMapping tid shmId va pages =>
    simp only [Books.step]
    obtain heq | ⟨i, -, -, -, heq⟩ := shmNoteMapping_cases b.regions tid shmId va pages
    · rw [heq]
      exact .kept rfl fun _ => id
    · rw [heq]
      exact .kept rfl (active_update id)
  | takeMapping tid shmId =>
    simp only [Books.step]
    obtain heq | ⟨i, -, -, -, heq⟩ := shmTakeMapping_cases b.regions tid shmId
    · rw [heq]
      exact .kept rfl fun _ => id
    · rw [heq]
      exact .kept rfl (active_update id)
  | release tid shmId =>
    simp only [Books.step]
    obtain heq | ⟨i, -, hactive, hheld, hmap, ⟨hlast, heq⟩ | ⟨-, heq⟩⟩ :=
      shmRelease_written b.regions tid shmId
    · rw [heq]
      exact .kept (List.append_nil _) fun _ => id
    · obtain ⟨hone, hunmapped⟩ :=
        (h.sound shmId).last hactive (refs_ne_zero_of_heldSlot hheld) hmap hlast
      rw [heq]
      exact .ended shmId hactive hone hunmapped rfl rfl
    · rw [heq]
      exact .kept (List.append_nil _) (active_update id)
  | releaseAll tid => exact absurd rfl (hsingle tid)

/-! ## The exit of a task -/

/-- A call that `shm_release_all` makes. -/
def ExitAct (tid : UInt32) (act : Act) : Prop :=
  ∃ shmId, act = .takeMapping tid shmId ∨ act = .release tid shmId

/-- The loop for one region is a chain of single calls. -/
theorem releaseLoop_chain (tid shmId : UInt32) (fuel : Nat) (b : Books) :
    ∃ acts, (∀ act ∈ acts, ExitAct tid act) ∧
      run Books.step b acts =
        ⟨(releaseLoop fuel b.regions tid shmId).2, b.taken,
          b.returned ++ (releaseLoop fuel b.regions tid shmId).1⟩ := by
  induction fuel generalizing b with
  | zero => exact ⟨[], by simp, by simp [releaseLoop]⟩
  | succ fuel ih =>
    have hround : ∀ act ∈ [Act.takeMapping tid shmId, .release tid shmId], ExitAct tid act := by
      intro act hact
      rcases List.mem_pair.mp hact with rfl | rfl
      · exact ⟨shmId, .inl rfl⟩
      · exact ⟨shmId, .inr rfl⟩
    simp only [releaseLoop]
    split_ifs with hdropped
    · obtain ⟨acts, hacts, hrun⟩ := ih ((b.step (.takeMapping tid shmId)).step (.release tid shmId))
      refine ⟨[.takeMapping tid shmId, .release tid shmId] ++ acts, ?_, ?_⟩
      · intro act hact
        rcases List.mem_append.mp hact with hact | hact
        · exact hround act hact
        · exact hacts act hact
      · rw [run_append, run_cons, run_cons, run_nil, hrun]
        simp only [Books.step, List.append_assoc]
    · exact ⟨[.takeMapping tid shmId, .release tid shmId], hround, rfl⟩

theorem ExitAct.single {act : Act} (h : ExitAct tid act) (tid' : UInt32) :
    act ≠ .releaseAll tid' := by
  obtain ⟨shmId, rfl | rfl⟩ := h <;> simp

theorem ExitAct.noWrap {act : Act} (h : ExitAct tid act) (b : Books) :
    NoWrap b act := by
  obtain ⟨shmId, rfl | rfl⟩ := h <;> trivial

/-- A chain of such calls settles step by step. -/
theorem Accounted.run_exit (h : Accounted b) {acts : List Act}
    (hacts : ∀ act ∈ acts, ExitAct tid act) :
    Relation.ReflTransGen Settles b (run Books.step b acts) ∧
      Accounted (run Books.step b acts) := by
  induction acts generalizing b with
  | nil => exact ⟨.refl, h⟩
  | cons act acts ih =>
    have hact := hacts act List.mem_cons_self
    have hsettles := h.settles hact.single
    obtain ⟨hchain, hafter⟩ := ih (h.step (hact.noWrap b) hact.single)
      fun a ha => hacts a (List.mem_cons_of_mem _ ha)
    exact ⟨.head hsettles hchain, hafter⟩

/-- The loop writes its own region only. -/
theorem releaseLoop_of_ne {id : UInt32} (hne : id ≠ shmId) (fuel : Nat) (regions : Regions) :
    (releaseLoop fuel regions tid shmId).2 id = regions id := by
  induction fuel generalizing regions with
  | zero => rfl
  | succ fuel ih =>
    have htake : (shmTakeMapping regions tid shmId).2 id = regions id := by
      obtain heq | ⟨i, -, -, -, heq⟩ := shmTakeMapping_cases regions tid shmId
      · rw [heq]
      · rw [heq, Function.update_of_ne hne]
    have hrelease : ∀ regions, (shmRelease regions tid shmId).regions id = regions id := by
      intro regions
      obtain heq | ⟨i, -, -, -, -, ⟨-, heq⟩ | ⟨-, heq⟩⟩ := shmRelease_written regions tid shmId
      · rw [heq]
      all_goals
        rw [heq]
        exact Function.update_of_ne hne _ _
    simp only [releaseLoop]
    split_ifs
    · rw [ih, hrelease, htake]
    · exact (hrelease _).trans htake

/-- The references of a task after a slot is written. -/
theorem refsOf_writeHolder (region : ShmRegion) (tid : UInt32) (i : Fin MAX_SHM_HOLDERS)
    (holder : ShmHolder) (count : UInt32) :
    refsOf (writeHolder region i holder count) tid +
        (if (region.holders i).tid = tid then (region.holders i).refs.toNat else 0) =
      refsOf region tid + if holder.tid = tid then holder.refs.toNat else 0 :=
  total_update (fun h : ShmHolder => if h.tid = tid then h.refs.toNat else 0) region.holders i
    holder

theorem refsOf_takeMapping (regions : Regions) (tid shmId : UInt32) :
    refsOf ((shmTakeMapping regions tid shmId).2 shmId) tid = refsOf (regions shmId) tid := by
  obtain heq | ⟨i, -, -, -, heq⟩ := shmTakeMapping_cases regions tid shmId
  · rw [heq]
  · rw [heq, Function.update_self]
    exact Nat.add_right_cancel (refsOf_writeHolder _ tid i _ _)

theorem RegionSound.active_of_heldSlot (h : RegionSound region)
    (hi : heldSlot region tid = some i) : region.active = true := by
  by_contra hinactive
  rw [h.blank (by simpa using hinactive)] at hi
  exact absurd rfl (refs_ne_zero_of_heldSlot hi)

/-- After `shm_take_mapping` the slot of the task has no mapping. -/
theorem RegionSound.takeMapping (h : RegionSound (regions shmId)) (hid : shmId ∈ ids)
    (hi : heldSlot ((shmTakeMapping regions tid shmId).2 shmId) tid = some i) :
    (((shmTakeMapping regions tid shmId).2 shmId).holders i).mapVa = 0 := by
  have hne := refs_ne_zero_of_heldSlot hi
  have htid := (heldSlot_eq_some hi).2
  clear hi
  revert hne htid
  unfold shmTakeMapping
  split_ifs with hrange hactive
  · exact absurd (lt_of_mem_ids hid) (Nat.not_lt_of_le hrange)
  · rw [show (none, regions).2 shmId = _ from h.blank (by simpa using hactive)]
    exact fun _ _ => rfl
  split
  next hnone =>
    intro hne htid
    have hslot := List.find?_eq_none.mp hnone i (List.mem_finRange i)
    simpa [show ((regions shmId).holders i).tid = tid from htid,
      show 0 < ((regions shmId).holders i).refs from UInt32.pos_iff_ne_zero.mpr hne] using hslot
  next j hmapped =>
    have hj := List.find?_some hmapped
    simp only [Bool.and_eq_true, decide_eq_true_eq, beq_iff_eq] at hj
    simp only [setHolder, Function.update_self]
    by_cases hij : i = j
    · rw [hij, Function.update_self]
      exact fun _ _ => rfl
    · rw [Function.update_of_ne hij]
      intro hne htid
      -- A task has one slot.
      exact absurd (h.single i j hne (UInt32.pos_iff_ne_zero.mp hj.1.1)
        (htid.trans hj.1.2.symm)) hij

/-- A reference without a mapping is dropped. -/
theorem dropped_shmRelease (hid : shmId ∈ ids) (hactive : (regions shmId).active = true)
    (hi : heldSlot (regions shmId) tid = some i) (hmap : ((regions shmId).holders i).mapVa = 0) :
    (shmRelease regions tid shmId).dropped = true := by
  simp only [shmRelease, if_neg (Nat.not_le_of_lt (lt_of_mem_ids hid)), hactive, hi, hmap]
  split_ifs <;> simp_all

/-- One round more than the task has references, and it has none. -/
theorem releaseLoop_done (h : Accounted b) (hid : shmId ∈ ids) {fuel : Nat}
    (hfuel : refsOf (b.regions shmId) tid < fuel) :
    heldSlot ((releaseLoop fuel b.regions tid shmId).2 shmId) tid = none := by
  induction fuel generalizing b with
  | zero => exact absurd hfuel (Nat.not_lt_zero _)
  | succ fuel ih =>
    have htaken := @Accounted.step b h (.takeMapping tid shmId) trivial (by simp)
    have hnext := ih (b := (b.step (.takeMapping tid shmId)).step (.release tid shmId))
      (htaken.release tid shmId)
    have hsound := htaken.sound shmId
    rw [← refsOf_takeMapping] at hfuel
    have hunmapped : ∀ i,
        heldSlot ((shmTakeMapping b.regions tid shmId).2 shmId) tid = some i → _ :=
      fun i => (h.sound shmId).takeMapping hid
    simp only [releaseLoop, Books.step] at hnext hsound ⊢
    generalize (shmTakeMapping b.regions tid shmId).2 = regions at hfuel hunmapped hsound hnext ⊢
    obtain heq | ⟨i, -, -, hheld, -, hend⟩ := shmRelease_written regions tid shmId
    · rw [heq]
      -- The release is refused, so there is no reference.
      rw [Option.eq_none_iff_forall_ne_some]
      intro i hi
      have hdropped := dropped_shmRelease hid (hsound.active_of_heldSlot hi) hi (hunmapped i hi)
      rw [heq] at hdropped
      nomatch hdropped
    · obtain ⟨hpos, htid⟩ := heldSlot_eq_some hheld
      have hle : ((regions shmId).holders i).refs.toNat ≤ refsOf (regions shmId) tid := by
        have hone := le_total (fun h : ShmHolder => if h.tid = tid then h.refs.toNat else 0)
          (regions shmId).holders i
        rwa [if_pos htid] at hone
      obtain ⟨-, heq⟩ | ⟨-, heq⟩ := hend
      · rw [heq] at hnext ⊢
        apply hnext
        dsimp only
        rw [Function.update_self]
        have hnone : refsOf ShmRegion.empty tid = 0 := by
          simp [refsOf, ShmRegion.empty, ShmHolder.empty]
        omega
      · rw [heq] at hnext ⊢
        apply hnext
        dsimp only
        rw [Function.update_self]
        have hwritten := refsOf_writeHolder (regions shmId) tid i
          (dropRef ((regions shmId).holders i)) (satPred (regions shmId).refCount)
        have hdrop : (if (dropRef ((regions shmId).holders i)).tid = tid then
            (dropRef ((regions shmId).holders i)).refs.toNat else 0) ≤
              ((regions shmId).holders i).refs.toNat - 1 := by
          rw [refs_dropRef, toNat_satPred]
          split_ifs <;> omega
        rw [if_pos htid] at hwritten
        omega

/-- `shm_release_all` is a chain of single calls, and leaves no reference of the task. -/
theorem Accounted.releaseAll (h : Accounted b) (tid : UInt32) :
    Relation.ReflTransGen Settles b (b.step (.releaseAll tid)) ∧
      Accounted (b.step (.releaseAll tid)) ∧
      ∀ id ∈ ids, heldSlot ((b.step (.releaseAll tid)).regions id) tid = none := by
  -- After the rounds for some of the ids, all of them are done with.
  suffices hrounds : ∀ l : List UInt32, (∀ id ∈ l, id ∈ ids) →
      let out := l.foldl (releaseRegion tid) ([], b.regions)
      Relation.ReflTransGen Settles b ⟨out.2, b.taken, b.returned ++ out.1⟩ ∧
        Accounted ⟨out.2, b.taken, b.returned ++ out.1⟩ ∧
        ∀ id ∈ l, heldSlot (out.2 id) tid = none by
    simp only [Books.step, shmReleaseAll]
    exact hrounds ids fun _ hmem => hmem
  intro l hl
  induction l using List.reverseRecOn with
  | nil =>
    dsimp only [List.foldl_nil]
    rw [List.append_nil]
    exact ⟨.refl, h, by simp⟩
  | append_singleton l shmId ih =>
    obtain ⟨hl, hshmId⟩ := List.forall_mem_append.mp hl
    obtain ⟨hchain, hbooks, hdone⟩ := ih hl
    dsimp only at hchain hbooks hdone ⊢
    rw [List.foldl_append, List.foldl_cons, List.foldl_nil]
    generalize l.foldl (releaseRegion tid) ([], b.regions) = out at hchain hbooks hdone ⊢
    obtain ⟨acts, hacts, hrun⟩ := releaseLoop_chain tid shmId (refsOf (out.2 shmId) tid + 1)
      ⟨out.2, b.taken, b.returned ++ out.1⟩
    obtain ⟨hsettles, hafter⟩ := hbooks.run_exit hacts
    rw [hrun, List.append_assoc] at hsettles hafter
    refine ⟨hchain.trans hsettles, hafter, ?_⟩
    intro id hmem
    by_cases hsame : id = shmId
    · rw [hsame]
      exact releaseLoop_done hbooks (hshmId shmId (by simp)) (Nat.lt_succ_self _)
    · have hold := (List.mem_append.mp hmem).resolve_right (by simpa using hsame)
      show heldSlot ((releaseLoop _ out.2 tid shmId).2 id) tid = none
      rw [releaseLoop_of_ne hsame]
      exact hdone id hold

/-- A task that exits has no reference left. -/
def Exited (b : Books) : Act → Prop
  | .releaseAll tid => ∀ id ∈ ids, heldSlot (b.regions id) tid = none
  | _ => True

/-- Every call is a chain of calls that settle, and keeps the books. -/
theorem Accounted.act (h : Accounted b) {act : Act} (hwrap : NoWrap b act) :
    (Relation.ReflTransGen Settles b (b.step act) ∧ Exited (b.step act) act) ∧
      Accounted (b.step act) := by
  by_cases hexit : ∃ tid, act = .releaseAll tid
  · obtain ⟨tid, rfl⟩ := hexit
    obtain ⟨hchain, hafter, hdone⟩ := h.releaseAll tid
    exact ⟨⟨hchain, hdone⟩, hafter⟩
  · have hsingle : ∀ tid, act ≠ .releaseAll tid := fun tid heq => hexit ⟨tid, heq⟩
    refine ⟨⟨.single (h.settles hsingle), ?_⟩, h.step hwrap hsingle⟩
    cases act with
    | releaseAll tid => exact absurd rfl (hsingle tid)
    | _ => trivial

theorem accounted_init : Accounted Books.init where
  sound _ := regionSound_empty
  balanced frame _ := by
    have hnone : liveCount frame Books.init.regions = 0 := by
      rw [liveCount, total_eq_zero_iff]
      exact fun _ => rfl
    rw [hnone]
    rfl

/-- In every run without an acquire at the end of a count, the books are right, frames go back
with the last reference and only then, and a task that exits has no reference left. -/
theorem accounted_run (acts : List Act) (hok : Guarded Books.step NoWrap Books.init acts) :
    Accounted (run Books.step Books.init acts) ∧
      Guarded Books.step
        (fun b act => Relation.ReflTransGen Settles b (b.step act) ∧ Exited (b.step act) act)
        Books.init acts :=
  ⟨run_invariant_of_guarded Accounted (fun _ _ h hwrap => (h.act hwrap).2) accounted_init hok,
    guarded_of_invariant Accounted (fun _ _ h hwrap => h.act hwrap) accounted_init hok⟩

theorem accounted_handover :
    let acts : List Act := [.create 1 .readWrite [some 4096], .acquire 2 0, .release 1 0,
      .noteMapping 2 0 8192 1, .releaseAll 2]
    Guarded Books.step NoWrap Books.init acts ∧ Accounted (run Books.step Books.init acts) :=
  ⟨by decide +kernel, (accounted_run _ (by decide +kernel)).1⟩

/-! ## The count wraps -/

/-- One region, with all its references the creator's. -/
def soloBooks (refs : UInt32) : Books :=
  ⟨Function.update (fun _ => .empty) 0 ⟨[4096], refs, 1, .readWrite, true,
    fun i => if i.val = 0 then ⟨1, refs, 0, 0⟩ else .empty⟩, [4096], []⟩

theorem soloBooks_acquire {n : Nat} (hpos : 0 < n) (hn : n + 1 < 2 ^ 32) :
    (soloBooks (.ofNat n)).step (.acquire 1 0) = soloBooks (.ofNat (n + 1)) := by
  have hrefs : (UInt32.ofNat n).toNat = n := by
    rw [UInt32.toNat_ofNat', Nat.mod_eq_of_lt (by omega)]
  have hheld : heldSlot ((soloBooks (.ofNat n)).regions 0) 1 = some ⟨0, by decide⟩ := by
    have hfound : UInt32.ofNat n > 0 := UInt32.lt_iff_toNat_lt.mpr (by rw [hrefs]; exact hpos)
    simp [heldSlot, holderIds, MAX_SHM_HOLDERS, List.finRange_succ, soloBooks, hfound]
  have hroom : ¬ n + 1 ≥ 2 ^ 32 := by omega
  have hrange : ¬ (0 : UInt32).toNat ≥ MAX_SHM_REGIONS := by decide
  have hnext : UInt32.ofNat n + 1 = .ofNat (n + 1) := (UInt32.ofNat_add n 1).symm
  simp only [Books.step, shmAcquire, holderSlot, hheld, hrange, if_false]
  simp only [soloBooks, Function.update_self, hrefs, hroom, Bool.not_true, Bool.false_eq_true,
    if_false, if_true, hnext, Function.update_idem, Books.mk.injEq, and_true]
  congr 2
  funext i
  rcases eq_or_ne i ⟨0, by decide⟩ with rfl | hne
  · rw [Function.update_self]
    rfl
  · have hval : i.val ≠ 0 := fun hzero => hne (Fin.ext hzero)
    rw [Function.update_of_ne hne, if_neg hval, if_neg hval]

theorem soloBooks_run {k : Nat} (hk : k + 1 < 2 ^ 32) :
    run Books.step (soloBooks 1) (List.replicate k (.acquire 1 0)) =
      soloBooks (.ofNat (k + 1)) := by
  induction k with
  | zero => rfl
  | succ k ih =>
    rw [List.replicate_succ', run_concat, ih (by omega)]
    exact soloBooks_acquire (by omega) hk

/-- The creator acquires until its own count is full.  A second task acquires and maps. -/
def wrapRun : List Act :=
  .create 1 .readWrite [some 4096] :: (List.replicate (2 ^ 32 - 2) (.acquire 1 0) ++
    [.acquire 2 0, .noteMapping 2 0 8192 1])

theorem run_wrapRun :
    run Books.step Books.init wrapRun =
      ((soloBooks 0xffffffff).step (.acquire 2 0)).step (.noteMapping 2 0 8192 1) := by
  have hfirst : Books.init.step (.create 1 .readWrite [some 4096]) = soloBooks 1 := rfl
  rw [wrapRun, run_cons, run_append, hfirst, soloBooks_run (by omega)]
  rfl

/-- The count is zero with all references there.  Then a release that leaves all but one
of them returns the frame under the mapping. -/
theorem count_wraps :
    let b := run Books.step Books.init wrapRun
    (b.regions 0).active = true ∧ (b.regions 0).refCount = 0 ∧ refsTotal (b.regions 0) = 2 ^ 32 ∧
      (b.regions 0).holders ⟨1, by decide⟩ = ⟨2, 1, 8192, 1⟩ ∧
      (b.step (.release 1 0)).returned = [4096] := by
  rw [run_wrapRun]
  decide +kernel

end RobotOs.Ipc.Shm
