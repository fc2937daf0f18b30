import RobotOs.Lib.FreeList

/-!
# Virtqueues

The queue functions of `virtio/mod.rs` of the drivers crate.  A queue has a table of
descriptors, an avail ring that the driver writes and a used ring that the device writes.  The
descriptors that are not in use are linked through their `next` fields.

An address is the name of a buffer, from the type `A` of the buffers of a driver, and `none` is
the address 0.  What the device has written to the used ring is an input of each poll.  Freeing
a descriptor adds to a `u8`; `none` is the overflow that stops the kernel.
-/

namespace RobotOs.Drivers.Virtio

open RobotOs.Lib.FreeList

def VIRTIO_QUEUE_SIZE : Nat := 16
def VIRTQ_DESC_F_NEXT : UInt16 := 1
def VIRTQ_DESC_F_WRITE : UInt16 := 2

/-- The end of the free list. -/
def END : Nat := 0xFFFF

/-- `VirtqDesc`. -/
structure VirtqDesc (A : Type) where
  addr : Option A
  len : Nat
  flags : UInt16
  next : Nat
  deriving DecidableEq, Repr

/-- `VirtqUsedElem`. -/
structure VirtqUsedElem where
  id : UInt32
  len : UInt32
  deriving DecidableEq, Repr

/-- `VirtqUsed`, as the device has written it. -/
structure VirtqUsed where
  idx : UInt16
  ring : Nat → VirtqUsedElem

/-- `Virtq`, with the descriptor table and the avail ring that it points to. -/
structure Virtq (A : Type) where
  desc : Nat → VirtqDesc A
  availIdx : UInt16
  availRing : Nat → Nat
  num : Nat
  freeHead : Nat
  freeCount : Nat
  lastUsedIdx : UInt16
  descUsed : Nat → Bool
  badCompletions : UInt16

variable {A : Type}

namespace Virtq

/-- `virtq_init` with `init_free_list`, on zeroed pages: `maxSize` comes from the device. -/
def virtqInit (maxSize : UInt32) : Option (Virtq A) :=
  if maxSize = 0 then none
  else
    let num := min maxSize.toNat VIRTIO_QUEUE_SIZE
    some
      { desc := fun i => ⟨none, 0, 0, if i + 1 = num then END else if i < num then i + 1 else 0⟩
        availIdx := 0
        availRing := fun _ => 0
        num := num
        freeHead := 0
        freeCount := num
        lastUsedIdx := 0
        descUsed := fun _ => false
        badCompletions := 0 }

/-- `virtq_alloc_desc`. -/
def virtqAllocDesc (vq : Virtq A) : Option Nat × Virtq A :=
  if vq.freeCount = 0 then (none, vq)
  else if vq.freeHead ≥ vq.num then (none, vq)
  else
    (some vq.freeHead,
      { vq with
        freeHead := (vq.desc vq.freeHead).next
        freeCount := vq.freeCount - 1
        descUsed := Function.update vq.descUsed vq.freeHead true })

/-- A free descriptor: scrubbed, and linked to the old head. -/
def freed (vq : Virtq A) (idx : Nat) : Virtq A :=
  { vq with
    desc := Function.update vq.desc idx ⟨none, 0, 0, vq.freeHead⟩
    freeHead := idx
    freeCount := vq.freeCount + 1
    descUsed := Function.update vq.descUsed idx false }

/-- `virtq_free_desc`. -/
def virtqFreeDesc (vq : Virtq A) (idx : Nat) : Option (Virtq A) :=
  if idx ≥ vq.num ∨ vq.descUsed idx = false then some vq
  else if vq.freeCount + 1 < 2 ^ 8 then some (vq.freed idx)
  else none

/-- The driver writes a descriptor. -/
def setDesc (vq : Virtq A) (idx : Nat) (d : VirtqDesc A) : Virtq A :=
  { vq with desc := Function.update vq.desc idx d }

/-- `virtq_submit`. -/
def virtqSubmit (vq : Virtq A) (head : Nat) : Virtq A :=
  if vq.num = 0 then vq
  else
    { vq with
      availRing := Function.update vq.availRing (vq.availIdx.toNat % vq.num) head
      availIdx := vq.availIdx + 1 }

/-- `saturating_add(1)` on a counter. -/
def satSucc (n : UInt16) : UInt16 := if n = 0xFFFF then n else n + 1

/-- `virtq_poll_with_len`, on what the used ring holds. -/
def virtqPollWithLen (vq : Virtq A) (used : VirtqUsed) : Option (Nat × Nat) × Virtq A :=
  if vq.num = 0 then (none, vq)
  else if vq.lastUsedIdx = used.idx then (none, vq)
  else
    let elem := used.ring (vq.lastUsedIdx.toNat % vq.num)
    let vq := { vq with lastUsedIdx := vq.lastUsedIdx + 1 }
    if elem.id.toNat ≥ vq.num then
      (none, { vq with badCompletions := satSucc vq.badCompletions })
    else (some (elem.id.toNat, elem.len.toNat), vq)

/-- `virtq_poll`. -/
def virtqPoll (vq : Virtq A) (used : VirtqUsed) : Option Nat × Virtq A :=
  ((vq.virtqPollWithLen used).1.map Prod.fst, (vq.virtqPollWithLen used).2)

/-- The descriptors that the device finds from `head` on: it follows the links of the
descriptors that are flagged. -/
def chain (vq : Virtq A) : Nat → Nat → List (VirtqDesc A)
  | 0, _ => []
  | fuel + 1, head =>
    let d := vq.desc head
    d :: if d.flags &&& VIRTQ_DESC_F_NEXT ≠ 0 then chain vq fuel d.next else []

/-- The chain that is published with its head. -/
def published (vq : Virtq A) (head : Nat) : List (VirtqDesc A) := vq.chain vq.num head

/-! ## The free list -/

/-- The links, the count and the marks of a queue agree. -/
structure Ok (vq : Virtq A) : Prop where
  pos : 0 < vq.num
  le : vq.num ≤ VIRTIO_QUEUE_SIZE
  free : Tracks (fun i => (vq.desc i).next) END vq.num vq.freeHead vq.freeCount vq.descUsed

theorem ok_virtqInit {maxSize : UInt32} {vq : Virtq A} (h : virtqInit maxSize = some vq) :
    vq.Ok ∧ ∀ i, vq.descUsed i = false := by
  unfold virtqInit at h
  split_ifs at h with hzero
  obtain rfl := Option.some.inj h
  have hpos : 0 < min maxSize.toNat VIRTIO_QUEUE_SIZE := by
    have hne : maxSize.toNat ≠ 0 := fun hz => hzero (UInt32.toNat.inj hz)
    have hsize : VIRTIO_QUEUE_SIZE = 16 := rfl
    omega
  refine ⟨⟨hpos, Nat.min_le_right _ _, .init hpos (fun i hi => ?_) fun _ _ => rfl⟩, fun _ => rfl⟩
  dsimp only
  rw [if_pos hi]

/-- The links after a descriptor was written. -/
theorem next_update (desc : Nat → VirtqDesc A) (i : Nat) (d : VirtqDesc A) :
    (fun j => (Function.update desc i d j).next) =
      Function.update (fun j => (desc j).next) i d.next := by
  funext j
  by_cases hj : j = i
  · subst hj
    rw [Function.update_self, Function.update_self]
  · rw [Function.update_of_ne hj, Function.update_of_ne hj]

/-- What an allocation does: it takes a descriptor that is not in use, or all are. -/
theorem virtqAllocDesc_cases {vq : Virtq A} (h : vq.Ok) :
    vq.virtqAllocDesc = (none, vq) ∧ (∀ i < vq.num, vq.descUsed i = true) ∨
      ∃ vq', vq.virtqAllocDesc = (some vq.freeHead, vq') ∧ vq.freeHead < vq.num ∧
        vq.descUsed vq.freeHead = false ∧ vq'.Ok ∧ vq'.num = vq.num ∧ vq'.desc = vq.desc ∧
        vq'.descUsed = Function.update vq.descUsed vq.freeHead true := by
  unfold virtqAllocDesc
  by_cases hzero : vq.freeCount = 0
  · refine .inl ⟨if_pos hzero, fun i hi => ?_⟩
    have hfree := h.free
    rw [hzero] at hfree
    exact hfree.used_of_count_eq_zero hi
  · obtain ⟨hlt, hunused⟩ := h.free.head_free hzero
    rw [if_neg hzero, if_neg (not_le.mpr hlt)]
    exact .inr ⟨_, rfl, hlt, hunused, ⟨h.pos, h.le, h.free.pop hzero⟩, rfl, rfl, rfl⟩

/-- What a free does: it gives a descriptor in use back, and does nothing otherwise. -/
theorem virtqFreeDesc_cases {vq : Virtq A} (h : vq.Ok) (idx : Nat) :
    (idx < vq.num → vq.descUsed idx = false) ∧ vq.virtqFreeDesc idx = some vq ∨
      idx < vq.num ∧ vq.descUsed idx = true ∧ vq.virtqFreeDesc idx = some (vq.freed idx) ∧
        (vq.freed idx).Ok := by
  unfold virtqFreeDesc
  by_cases hskip : idx ≥ vq.num ∨ vq.descUsed idx = false
  · refine .inl ⟨fun hlt => hskip.resolve_left (not_le.mpr hlt), if_pos hskip⟩
  · have hlt : idx < vq.num := not_le.mp fun hge => hskip (.inl hge)
    have hused : vq.descUsed idx = true := by
      simpa using fun hunused => hskip (.inr hunused)
    -- The descriptor in use is missing from the count, so the sum fits.
    have hcount := h.free.count_lt hlt hused
    have hfits : vq.freeCount + 1 < 2 ^ 8 := by
      have hsize : VIRTIO_QUEUE_SIZE = 16 := rfl
      have hle := h.le
      omega
    refine .inr ⟨hlt, hused, by rw [if_neg hskip, if_pos hfits], h.pos, h.le, ?_⟩
    have hpush := h.free.push hlt hused
    unfold freed
    dsimp only
    rw [next_update]
    exact hpush

/-- A descriptor in use may be written. -/
theorem Ok.setDesc {vq : Virtq A} (h : vq.Ok) {idx : Nat} (hused : vq.descUsed idx = true)
    (d : VirtqDesc A) : (vq.setDesc idx d).Ok := by
  refine ⟨h.pos, h.le, ?_⟩
  unfold Virtq.setDesc
  dsimp only
  rw [next_update]
  exact h.free.write hused d.next

theorem Ok.virtqSubmit {vq : Virtq A} (h : vq.Ok) (head : Nat) : (vq.virtqSubmit head).Ok := by
  unfold Virtq.virtqSubmit
  split_ifs
  · exact h
  · exact ⟨h.pos, h.le, h.free⟩

@[simp] theorem desc_virtqSubmit (vq : Virtq A) (head : Nat) :
    (vq.virtqSubmit head).desc = vq.desc := by
  unfold virtqSubmit
  split_ifs
  · rfl
  · rfl

@[simp] theorem num_virtqSubmit (vq : Virtq A) (head : Nat) :
    (vq.virtqSubmit head).num = vq.num := by
  unfold virtqSubmit
  split_ifs
  · rfl
  · rfl

@[simp] theorem descUsed_virtqSubmit (vq : Virtq A) (head : Nat) :
    (vq.virtqSubmit head).descUsed = vq.descUsed := by
  unfold virtqSubmit
  split_ifs
  · rfl
  · rfl

@[simp] theorem freeHead_virtqSubmit (vq : Virtq A) (head : Nat) :
    (vq.virtqSubmit head).freeHead = vq.freeHead := by
  unfold virtqSubmit
  split_ifs
  · rfl
  · rfl

@[simp] theorem freeCount_virtqSubmit (vq : Virtq A) (head : Nat) :
    (vq.virtqSubmit head).freeCount = vq.freeCount := by
  unfold virtqSubmit
  split_ifs
  · rfl
  · rfl

/-- A poll changes neither the table nor the free list, and an index that it returns is in
range. -/
theorem virtqPollWithLen_spec (vq : Virtq A) (used : VirtqUsed) :
    (vq.virtqPollWithLen used).2.desc = vq.desc ∧ (vq.virtqPollWithLen used).2.num = vq.num ∧
      (vq.virtqPollWithLen used).2.descUsed = vq.descUsed ∧
      (vq.Ok → (vq.virtqPollWithLen used).2.Ok) ∧
      ∀ id len, (vq.virtqPollWithLen used).1 = some (id, len) → id < vq.num := by
  unfold virtqPollWithLen
  split_ifs with hnum hidx
  · exact ⟨rfl, rfl, rfl, id, by rintro _ _ ⟨⟩⟩
  · exact ⟨rfl, rfl, rfl, id, by rintro _ _ ⟨⟩⟩
  · dsimp only
    split_ifs with hid
    · exact ⟨rfl, rfl, rfl, fun h => ⟨h.pos, h.le, h.free⟩, by rintro _ _ ⟨⟩⟩
    · refine ⟨rfl, rfl, rfl, fun h => ⟨h.pos, h.le, h.free⟩, ?_⟩
      rintro _ _ ⟨⟩
      exact not_le.mp hid

theorem virtqPoll_spec (vq : Virtq A) (used : VirtqUsed) :
    (vq.virtqPoll used).2.desc = vq.desc ∧ (vq.virtqPoll used).2.num = vq.num ∧
      (vq.virtqPoll used).2.descUsed = vq.descUsed ∧ (vq.Ok → (vq.virtqPoll used).2.Ok) ∧
      ∀ id, (vq.virtqPoll used).1 = some id → id < vq.num := by
  obtain ⟨hdesc, hnum, hused, hok, hid⟩ := vq.virtqPollWithLen_spec used
  refine ⟨hdesc, hnum, hused, hok, fun id h => ?_⟩
  obtain ⟨⟨id', len⟩, hpoll, rfl⟩ := Option.map_eq_some_iff.mp h
  exact hid id' len hpoll

/-! ## What the descriptors point to -/

/-- The descriptor is scrubbed, or points to a buffer of the driver that holds its length. -/
def Points (size : A → Nat) (d : VirtqDesc A) : Prop :=
  (d.addr = none ∧ d.len = 0) ∨ ∃ a, d.addr = some a ∧ d.len ≤ size a

/-- Every descriptor of the table does. -/
def Owned (size : A → Nat) (vq : Virtq A) : Prop := ∀ i, Points size (vq.desc i)

variable {size : A → Nat}

theorem owned_virtqInit {maxSize : UInt32} {vq : Virtq A} (h : virtqInit maxSize = some vq) :
    vq.Owned size := by
  unfold virtqInit at h
  split_ifs at h
  obtain rfl := Option.some.inj h
  exact fun _ => .inl ⟨rfl, rfl⟩

theorem Owned.setDesc {vq : Virtq A} (h : vq.Owned size) {d : VirtqDesc A} (hd : Points size d)
    (idx : Nat) : (vq.setDesc idx d).Owned size := by
  intro i
  simp only [Virtq.setDesc]
  by_cases hi : i = idx
  · subst hi
    rwa [Function.update_self]
  · rw [Function.update_of_ne hi]
    exact h i

theorem Owned.freed {vq : Virtq A} (h : vq.Owned size) (idx : Nat) :
    (vq.freed idx).Owned size :=
  Owned.setDesc h (.inl ⟨rfl, rfl⟩) idx

theorem Owned.of_desc {vq vq' : Virtq A} (h : vq.Owned size) (hdesc : vq'.desc = vq.desc) :
    vq'.Owned size := by
  intro i
  rw [hdesc]
  exact h i

/-! ## Every use of a queue -/

/-- The queues that the calls of drivers lead to.  Any index may be freed, in use or not, and
submitted; only a write needs a descriptor in use. -/
inductive Reachable : Virtq A → Prop
  | init {m : UInt32} {vq : Virtq A} (h : virtqInit m = some vq) : Reachable vq
  | alloc {vq : Virtq A} (h : Reachable vq) : Reachable vq.virtqAllocDesc.2
  | free {vq vq' : Virtq A} {idx : Nat} (h : Reachable vq)
      (hfree : vq.virtqFreeDesc idx = some vq') : Reachable vq'
  | write {vq : Virtq A} {idx : Nat} (h : Reachable vq) (hused : vq.descUsed idx = true)
      (d : VirtqDesc A) : Reachable (vq.setDesc idx d)
  | submit {vq : Virtq A} (h : Reachable vq) (head : Nat) : Reachable (vq.virtqSubmit head)
  | poll {vq : Virtq A} (h : Reachable vq) (used : VirtqUsed) :
      Reachable (vq.virtqPollWithLen used).2

theorem Reachable.ok {vq : Virtq A} (h : Reachable vq) : vq.Ok := by
  induction h with
  | init h => exact (ok_virtqInit h).1
  | @alloc vq _ ih =>
    obtain ⟨hnone, -⟩ | ⟨vq', hsome, -, -, hok, -⟩ := virtqAllocDesc_cases ih
    · rw [hnone]
      exact ih
    · rw [hsome]
      exact hok
  | @free vq vq' idx _ hfree ih =>
    obtain ⟨-, hskip⟩ | ⟨-, -, hdone, hok⟩ := virtqFreeDesc_cases ih idx
    · rw [hskip, Option.some_inj] at hfree
      exact hfree ▸ ih
    · rw [hdone, Option.some_inj] at hfree
      exact hfree ▸ hok
  | write _ hused d ih => exact ih.setDesc hused d
  | submit _ head ih => exact ih.virtqSubmit head
  | @poll vq _ used ih => exact (vq.virtqPollWithLen_spec used).2.2.2.1 ih

/-- After any calls and for any used ring, no free stops the kernel, a double free does nothing,
and an allocation takes a descriptor that is not in use as long as there is one. -/
theorem reachable_alloc_free {vq : Virtq A} (h : Reachable vq) :
    (∀ idx, ∃ vq', vq.virtqFreeDesc idx = some vq' ∧ vq'.virtqFreeDesc idx = some vq') ∧
      ((∀ i < vq.num, vq.descUsed i = true) ∧ vq.virtqAllocDesc = (none, vq) ∨
        ∃ i < vq.num, vq.descUsed i = false ∧ vq.virtqAllocDesc.1 = some i ∧
          vq.virtqAllocDesc.2.descUsed = Function.update vq.descUsed i true) := by
  refine ⟨fun idx => ?_, ?_⟩
  · obtain ⟨-, hskip⟩ | ⟨-, -, hdone, -⟩ := virtqFreeDesc_cases h.ok idx
    · exact ⟨vq, hskip, hskip⟩
    · refine ⟨_, hdone, if_pos (.inr ?_)⟩
      exact Function.update_self ..
  · obtain ⟨hnone, hall⟩ | ⟨vq', hsome, hlt, hunused, -, -, -, hused⟩ := virtqAllocDesc_cases h.ok
    · exact .inl ⟨hall, hnone⟩
    · exact .inr ⟨_, hlt, hunused, by rw [hsome], by rw [hsome, hused]⟩

/-- A queue of four, after two allocations. -/
def twoInUse : Virtq Unit := ((virtqInit 4).get rfl).virtqAllocDesc.2.virtqAllocDesc.2

/-- The first of them is freed, and freed again. -/
theorem reachable_alloc_free_twoInUse :
    twoInUse.descUsed 0 = true ∧ twoInUse.descUsed 1 = true ∧
      ∃ vq', twoInUse.virtqFreeDesc 0 = some vq' ∧ vq'.descUsed 0 = false ∧
        vq'.virtqFreeDesc 0 = some vq' := by
  have hreach : Reachable twoInUse := .alloc (.alloc (.init (m := 4) (Option.some_get _).symm))
  obtain ⟨vq', hfree, hagain⟩ := (reachable_alloc_free hreach).1 0
  refine ⟨by decide, by decide, vq', hfree, ?_, hagain⟩
  have hfreed : (twoInUse.virtqFreeDesc 0).map (fun vq => vq.descUsed 0) = some false := by decide
  rw [hfree] at hfreed
  exact Option.some.inj hfreed

end Virtq

end RobotOs.Drivers.Virtio
