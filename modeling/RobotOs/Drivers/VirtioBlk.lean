import RobotOs.Drivers.Virtqueue
import RobotOs.Lib.Run

/-!
# The block device

`virtio/blk.rs`: `blk_rw` and the calls `read` and `write` over it.  A request is a chain of
three descriptors, for the header, the staging buffer and the status byte.  A transfer is cut
into requests that fit the staging buffer, one at a time.  When the device does not answer in
time, or answers for a chain that was not submitted, the driver resets it and refuses every
later call; the descriptors of that request are not used again.

The used ring, the status byte and the staging buffer of a read belong to the device while a
request is out.  A request is given what the used ring holds at each poll, and what the device
has left in the two buffers.  `none` is an overflow, which would stop the kernel.
-/

namespace RobotOs.Drivers.VirtioBlk

open RobotOs.Lib.Run
open RobotOs.Drivers.Virtio
open RobotOs.Drivers.Virtio.Virtq

def SECTOR_SIZE : Nat := 512
def BLK_DMA_SECTORS : Nat := 8
def BLK_DMA_BYTES : Nat := BLK_DMA_SECTORS * SECTOR_SIZE
def BLK_T_IN : Nat := 0
def BLK_T_OUT : Nat := 1
def BLK_S_OK : UInt8 := 0

/-- The polls before a request is given up. -/
def TIMEOUT : Nat := 1000000

/-- The buffers of the driver: `BLK_REQ_HDR`, `BLK_DMA_BUF` and `BLK_STATUS`. -/
inductive BlkBuf where
  | hdr
  | staging
  | status
  deriving DecidableEq, Repr

/-- How many bytes a buffer holds. -/
def BlkBuf.size : BlkBuf → Nat
  | .hdr => 16
  | .staging => BLK_DMA_BYTES
  | .status => 1

/-- `BlkDev`, with the static buffers. -/
structure BlkDev where
  vq : Virtq BlkBuf
  capacity : Nat
  readonly : Bool
  ready : Bool
  failed : Bool
  reqType : Nat
  reqSector : Nat
  dmaBuf : Nat → UInt8

/-- `init`, for the queue size and the capacity that the device reports. -/
def init (maxSize : UInt32) (capacity : UInt64) : Option BlkDev :=
  (virtqInit maxSize).map fun vq => ⟨vq, capacity.toNat, false, true, false, 0, 0, fun _ => 0⟩

/-- What a device does during one request: the used ring at each poll, the status byte and
the data at the end. -/
structure Device where
  used : Nat → VirtqUsed
  status : UInt8
  data : Nat → UInt8

/-- How a request or a call ends. -/
inductive Ending where
  | ok
  | refused
  | noDescriptor
  | ioError
  | spurious
  | foreign
  | timeout
  deriving DecidableEq, Repr

/-- The endings that disable the driver. -/
def Ending.latches : Ending → Bool
  | .spurious => true
  | .foreign => true
  | .timeout => true
  | _ => false

/-- What the driver does with the staging buffer and the avail ring. -/
inductive Event where
  /-- Bytes of the caller are copied to the staging buffer. -/
  | stage
  /-- A request is submitted with this chain. -/
  | submit (chain : List (VirtqDesc BlkBuf))
  /-- The staging buffer is copied to the caller. -/
  | collect
  deriving DecidableEq, Repr

/-- The three descriptors of a request; those already taken go back when there are not
enough. -/
def allocChain (vq : Virtq BlkBuf) : Option (Option (Nat × Nat × Nat) × Virtq BlkBuf) :=
  match vq.virtqAllocDesc with
  | (none, vq) => some (none, vq)
  | (some hdr, vq) =>
    match vq.virtqAllocDesc with
    | (none, vq) => (vq.virtqFreeDesc hdr).map (none, ·)
    | (some data, vq) =>
      match vq.virtqAllocDesc with
      | (none, vq) =>
        ((vq.virtqFreeDesc hdr).bind fun vq => vq.virtqFreeDesc data).map (none, ·)
      | (some status, vq) => some (some (hdr, data, status), vq)

/-- The descriptors of a request are written. -/
def chainDescs (vq : Virtq BlkBuf) (hdr data status dataLen : Nat) (write : Bool) : Virtq BlkBuf :=
  ((vq.setDesc hdr ⟨some .hdr, 16, VIRTQ_DESC_F_NEXT, data⟩).setDesc data
      ⟨some .staging, dataLen,
        VIRTQ_DESC_F_NEXT ||| if write then 0 else VIRTQ_DESC_F_WRITE, status⟩).setDesc status
    ⟨some .status, 1, VIRTQ_DESC_F_WRITE, 0⟩

/-- The loop that waits for the completion of the chain `hdr`: how it ends, the polls so far
and the queue. -/
def awaitCompletion (used : Nat → VirtqUsed) (hdr : Nat) :
    Nat → Nat → Virtq BlkBuf → Ending × Nat × Virtq BlkBuf
  | 0, polls, vq => (.timeout, polls, vq)
  | left + 1, polls, vq =>
    match vq.virtqPoll (used polls) with
    | (some id, vq) => if id = hdr then (.ok, polls + 1, vq) else (.foreign, polls + 1, vq)
    | (none, vq) => awaitCompletion used hdr left (polls + 1) vq

/-- The three descriptors go back. -/
def freeChain (vq : Virtq BlkBuf) (hdr data status : Nat) : Option (Virtq BlkBuf) :=
  (vq.virtqFreeDesc hdr).bind fun vq =>
  (vq.virtqFreeDesc data).bind fun vq => vq.virtqFreeDesc status

/-- What a request did. -/
structure Request where
  ending : Ending
  polls : Nat
  events : List Event

/-- The device is reset and the driver disabled. -/
def BlkDev.latch (dev : BlkDev) (vq : Virtq BlkBuf) : BlkDev :=
  { dev with vq := vq, failed := true, ready := false }

/-- The arguments of `blk_rw` are in range. -/
def BlkDev.Accepts (dev : BlkDev) (sector count : Nat) (write : Bool) : Prop :=
  dev.failed = false ∧ dev.ready = true ∧ dev.vq.num ≠ 0 ∧ count ≠ 0 ∧ count ≤ BLK_DMA_SECTORS ∧
    sector + count < 2 ^ 64 ∧ sector + count ≤ dev.capacity ∧ (write && dev.readonly) = false

instance (dev : BlkDev) (sector count : Nat) (write : Bool) :
    Decidable (dev.Accepts sector count write) := inferInstanceAs (Decidable (_ ∧ _))

/-- `blk_rw`, once the chain is submitted. -/
def finish (dev : BlkDev) (device : Device) (write : Bool) (hdr data status : Nat)
    (vq : Virtq BlkBuf) : Option (Request × BlkDev) :=
  let submitted := [Event.submit (vq.published hdr)]
  match awaitCompletion device.used hdr TIMEOUT 1 (vq.virtqSubmit hdr) with
  | (.ok, polls, vq) =>
    (freeChain vq hdr data status).map fun vq =>
      (⟨if device.status = BLK_S_OK then .ok else .ioError, polls, submitted⟩,
        { dev with vq := vq, dmaBuf := if write then dev.dmaBuf else device.data })
  | (ending, polls, vq) => some (⟨ending, polls, submitted⟩, dev.latch vq)

/-- `blk_rw`. -/
def blkRw (dev : BlkDev) (sector count : Nat) (write : Bool) (device : Device) :
    Option (Request × BlkDev) :=
  if ¬dev.Accepts sector count write then some (⟨.refused, 0, []⟩, dev)
  else
    match dev.vq.virtqPoll (device.used 0) with
    | (some _, vq) => some (⟨.spurious, 1, []⟩, dev.latch vq)
    | (none, vq) =>
      let dev := { dev with reqType := if write then BLK_T_OUT else BLK_T_IN, reqSector := sector }
      match allocChain vq with
      | none => none
      | some (none, vq) => some (⟨.noDescriptor, 1, []⟩, { dev with vq := vq })
      | some (some (hdr, data, status), vq) =>
        finish dev device write hdr data status
          (chainDescs vq hdr data status (count * SECTOR_SIZE) write)

/-! ## The calls -/

/-- What a call did: its ending, the polls of each request, and the bytes for the caller. -/
structure Call where
  ending : Ending
  polls : List Nat
  events : List Event
  data : List UInt8

/-- A call that ends before its next request. -/
def Call.done (ending : Ending) : Call := ⟨ending, [], [], []⟩

/-- A request in front of the rest of a call. -/
def Call.after (req : Request) (before after : List Event) (data : List UInt8) (call : Call) :
    Call :=
  { call with
    polls := req.polls :: call.polls
    events := before ++ req.events ++ after ++ call.events
    data := data ++ call.data }

/-- The loops of `read` and `write`, with a bound on the rounds.  `buf` has the bytes of the
caller, and the `k`-th request meets the device `device k`. -/
def transfer (write : Bool) (sector count bufLen : Nat) (buf : Nat → UInt8)
    (device : Nat → Device) : Nat → Nat → BlkDev → Option (Call × BlkDev)
  | 0, _, _ => none
  | rounds + 1, done, dev =>
    if ¬done < count then some (.done .ok, dev)
    else
      let chunk := min (count - done) BLK_DMA_SECTORS
      let bytes := chunk * SECTOR_SIZE
      let off := done * SECTOR_SIZE
      if ¬sector + done < 2 ^ 64 then some (.done .refused, dev)
      else if ¬off + bytes ≤ bufLen then some (.done .refused, dev)
      else
        let staged := if write then
            { dev with dmaBuf := fun k => if k < bytes then buf (off + k) else dev.dmaBuf k }
          else dev
        match blkRw staged (sector + done) chunk write (device done) with
        | none => none
        | some (req, dev) =>
          let before := if write then [Event.stage] else []
          if req.ending ≠ .ok then
            some (.after req before [] [] (.done req.ending), dev)
          -- `done += chunk` on a `u32`.
          else if ¬done + chunk < 2 ^ 32 then none
          else
            (transfer write sector count bufLen buf device rounds (done + chunk) dev).map
              fun out =>
                (out.1.after req before (if write then [] else [.collect])
                  (if write then [] else (List.range bytes).map dev.dmaBuf), out.2)

/-- A call of `read` or `write`, with a buffer of `bufLen` bytes. -/
structure BlkCall where
  write : Bool
  sector : UInt64
  count : UInt32
  bufLen : Nat
  buf : Nat → UInt8
  device : Nat → Device

/-- `read` and `write`: the first lines are the same. -/
def BlkDev.perform (dev : BlkDev) (call : BlkCall) : Option (Call × BlkDev) :=
  if ¬(dev.ready = true ∧ dev.failed = false) then some (.done .refused, dev)
  else
    let total := call.count.toNat * SECTOR_SIZE
    if ¬total < 2 ^ 64 then some (.done .refused, dev)
    else if total = 0 ∨ call.bufLen < total then some (.done .refused, dev)
    else
      transfer call.write call.sector.toNat call.count.toNat call.bufLen call.buf call.device
        (call.count.toNat + 1) 0 dev

/-! ## Descriptors that are held -/

/-- The queue is consistent, and exactly the listed descriptors are in use. -/
structure Held (vq : Virtq BlkBuf) (l : List Nat) : Prop where
  ok : vq.Ok
  nodup : l.Nodup
  lt : ∀ i ∈ l, i < vq.num
  used : ∀ i < vq.num, (vq.descUsed i = true ↔ i ∈ l)

namespace Held

variable {vq vq' : Virtq BlkBuf} {l : List Nat}

theorem of_eq (h : Held vq l) (hok : vq'.Ok) (hnum : vq'.num = vq.num)
    (hused : vq'.descUsed = vq.descUsed) : Held vq' l := by
  refine ⟨hok, h.nodup, ?_, ?_⟩
  · rw [hnum]
    exact h.lt
  · rw [hnum, hused]
    exact h.used

/-- An allocation adds a descriptor to those in use. -/
theorem alloc (h : Held vq l) :
    vq.virtqAllocDesc = (none, vq) ∨
      ∃ i vq', vq.virtqAllocDesc = (some i, vq') ∧ Held vq' (i :: l) := by
  rcases virtqAllocDesc_cases h.ok with ⟨hnone, -⟩ |
    ⟨vq', hsome, hlt, hfree, hok, hnum, -, hused⟩
  · exact .inl hnone
  · have hnot : vq.freeHead ∉ l := fun hmem =>
      Bool.false_ne_true (hfree.symm.trans ((h.used _ hlt).mpr hmem))
    refine .inr ⟨_, vq', hsome, hok, List.nodup_cons.mpr ⟨hnot, h.nodup⟩, ?_, ?_⟩
    · rw [hnum]
      exact List.forall_mem_cons.mpr ⟨hlt, h.lt⟩
    · intro i hi
      rw [hused, List.mem_cons]
      by_cases heq : i = vq.freeHead
      · simp [heq]
      · rw [Function.update_of_ne heq, h.used i (hnum ▸ hi)]
        simp [heq]

/-- A free takes a descriptor from those in use. -/
theorem free (h : Held vq l) {i : Nat} (hi : i ∈ l) :
    ∃ vq', vq.virtqFreeDesc i = some vq' ∧ Held vq' (l.erase i) := by
  have hlt := h.lt i hi
  rcases virtqFreeDesc_cases h.ok i with ⟨hunused, -⟩ | ⟨-, -, hdone, hok⟩
  · exact absurd ((h.used i hlt).mpr hi) (by simp [hunused hlt])
  · refine ⟨_, hdone, hok, h.nodup.erase i, fun j hj => h.lt j (List.mem_of_mem_erase hj), ?_⟩
    intro j hj
    simp only [freed]
    rw [h.nodup.mem_erase_iff]
    by_cases heq : j = i
    · simp [heq]
    · rw [Function.update_of_ne heq, h.used j hj]
      simp [heq]

theorem setDesc (h : Held vq l) {i : Nat} (hi : i ∈ l) (d : VirtqDesc BlkBuf) :
    Held (vq.setDesc i d) l :=
  h.of_eq (h.ok.setDesc ((h.used i (h.lt i hi)).mpr hi) d) rfl rfl

theorem virtqSubmit (h : Held vq l) (head : Nat) : Held (vq.virtqSubmit head) l :=
  h.of_eq (h.ok.virtqSubmit head) (by simp) (by simp)

theorem virtqPoll (h : Held vq l) (used : VirtqUsed) : Held (vq.virtqPoll used).2 l := by
  obtain ⟨-, hnum, hused, hok, -⟩ := vq.virtqPoll_spec used
  exact h.of_eq (hok h.ok) hnum hused

theorem apart {hdr data status : Nat} (h : Held vq [status, data, hdr]) :
    status ≠ data ∧ status ≠ hdr ∧ data ≠ hdr := by
  have hnodup := h.nodup
  simp only [List.nodup_cons, List.mem_cons, List.not_mem_nil, or_false, not_or] at hnodup
  exact ⟨hnodup.1.1, hnodup.1.2, hnodup.2.1⟩

end Held

/-- A request gets three descriptors, or all that it got go back. -/
theorem allocChain_spec {vq : Virtq BlkBuf} (h : Held vq []) :
    ∃ got vq', allocChain vq = some (got, vq') ∧
      match got with
      | none => Held vq' []
      | some (hdr, data, status) => Held vq' [status, data, hdr] := by
  unfold allocChain
  rcases h.alloc with hnone | ⟨hdr, vq₁, hsome, h₁⟩
  · rw [hnone]
    exact ⟨none, vq, rfl, h⟩
  · rw [hsome]
    dsimp only
    rcases h₁.alloc with hnone | ⟨data, vq₂, hsome, h₂⟩
    · rw [hnone]
      obtain ⟨vq', hfree, h'⟩ := h₁.free List.mem_cons_self
      rw [List.erase_cons_head] at h'
      exact ⟨none, vq', by simp [hfree], h'⟩
    · rw [hsome]
      dsimp only
      rcases h₂.alloc with hnone | ⟨status, vq₃, hsome, h₃⟩
      · rw [hnone]
        have hne : data ≠ hdr := by
          rintro rfl
          exact (List.nodup_cons.mp h₂.nodup).1 List.mem_cons_self
        obtain ⟨vq', hfree, h'⟩ := h₂.free (List.mem_cons_of_mem _ List.mem_cons_self)
        rw [List.erase_cons_tail (by simpa using hne), List.erase_cons_head] at h'
        obtain ⟨vq'', hfree', h''⟩ := h'.free List.mem_cons_self
        rw [List.erase_cons_head] at h''
        exact ⟨none, vq'', by simp [hfree, hfree'], h''⟩
      · rw [hsome]
        exact ⟨some (hdr, data, status), vq₃, rfl, h₃⟩

/-- The three descriptors of a request go back. -/
theorem freeChain_spec {vq : Virtq BlkBuf} {hdr data status : Nat}
    (h : Held vq [status, data, hdr]) :
    ∃ vq', freeChain vq hdr data status = some vq' ∧ Held vq' [] := by
  obtain ⟨hsd, hsh, hdh⟩ := h.apart
  obtain ⟨vq₁, hfree₁, h₁⟩ :=
    h.free (List.mem_cons_of_mem _ (List.mem_cons_of_mem _ List.mem_cons_self))
  rw [List.erase_cons_tail (by simpa using hsh), List.erase_cons_tail (by simpa using hdh),
    List.erase_cons_head] at h₁
  obtain ⟨vq₂, hfree₂, h₂⟩ := h₁.free (List.mem_cons_of_mem _ List.mem_cons_self)
  rw [List.erase_cons_tail (by simpa using hsd), List.erase_cons_head] at h₂
  obtain ⟨vq₃, hfree₃, h₃⟩ := h₂.free List.mem_cons_self
  rw [List.erase_cons_head] at h₃
  exact ⟨vq₃, by simp [freeChain, hfree₁, hfree₂, hfree₃], h₃⟩

/-! ## One request -/

/-- Every descriptor of a chain points to a buffer of the driver that holds its length. -/
def Contained (chain : List (VirtqDesc BlkBuf)) : Prop :=
  ∀ d ∈ chain, ∃ a : BlkBuf, d.addr = some a ∧ d.len ≤ a.size

/-- The chains that are submitted do. -/
def EventsOk (events : List Event) : Prop := ∀ chain, .submit chain ∈ events → Contained chain

theorem contained_chainDescs {vq : Virtq BlkBuf} {hdr data status dataLen : Nat} (write : Bool)
    (h : Held vq [status, data, hdr]) (hlen : dataLen ≤ BLK_DMA_BYTES) :
    Contained ((chainDescs vq hdr data status dataLen write).published hdr) := by
  obtain ⟨hsd, hsh, hdh⟩ := h.apart
  -- Three descriptors in use need three in the table, so the walk reaches the last one.
  have hnum : 3 ≤ vq.num := by
    have hsub : [status, data, hdr] ⊆ List.range vq.num := fun i hi =>
      List.mem_range.mpr (h.lt i hi)
    simpa using (List.subperm_of_subset h.nodup hsub).length_le
  obtain ⟨n, hn⟩ := Nat.exists_eq_add_of_le' hnum
  have hnum' : (chainDescs vq hdr data status dataLen write).num = n + 3 := hn
  have hchain : (chainDescs vq hdr data status dataLen write).published hdr =
      [⟨some .hdr, 16, VIRTQ_DESC_F_NEXT, data⟩,
        ⟨some .staging, dataLen, VIRTQ_DESC_F_NEXT ||| if write then 0 else VIRTQ_DESC_F_WRITE,
          status⟩,
        ⟨some .status, 1, VIRTQ_DESC_F_WRITE, 0⟩] := by
    have hnext : (VIRTQ_DESC_F_NEXT &&& VIRTQ_DESC_F_NEXT) ≠ 0 := by decide
    have hdata : ((VIRTQ_DESC_F_NEXT ||| if write then 0 else VIRTQ_DESC_F_WRITE) &&&
        VIRTQ_DESC_F_NEXT) ≠ 0 := by
      cases write
      · decide
      · decide
    have hlast : ¬(VIRTQ_DESC_F_WRITE &&& VIRTQ_DESC_F_NEXT) ≠ 0 := by decide
    rw [published, hnum']
    simp only [chain, chainDescs, setDesc, Function.update_self,
      Function.update_of_ne (Ne.symm hsh), Function.update_of_ne (Ne.symm hdh),
      Function.update_of_ne (Ne.symm hsd), if_pos hnext, if_pos hdata, if_neg hlast]
  rw [hchain]
  intro d hd
  simp only [List.mem_cons, List.not_mem_nil, or_false] at hd
  rcases hd with rfl | rfl | rfl
  · exact ⟨.hdr, rfl, le_refl _⟩
  · exact ⟨.staging, rfl, hlen⟩
  · exact ⟨.status, rfl, le_refl _⟩

/-- The loop keeps the queue, ends in a known way and polls no more often than it may. -/
theorem awaitCompletion_spec (used : Nat → VirtqUsed) (hdr : Nat) {vq : Virtq BlkBuf} {l : List Nat}
    (h : Held vq l) (left polls : Nat) :
    ∃ ending n vq', awaitCompletion used hdr left polls vq = (ending, n, vq') ∧ Held vq' l ∧
      n ≤ polls + left ∧ (ending = .ok ∨ ending.latches = true) := by
  induction left generalizing polls vq with
  | zero => exact ⟨.timeout, polls, vq, rfl, h, le_refl _, .inr rfl⟩
  | succ left ih =>
    unfold awaitCompletion
    have hpoll := h.virtqPoll (used polls)
    generalize vq.virtqPoll (used polls) = polled at hpoll
    obtain ⟨done, vq'⟩ := polled
    cases done with
    | some id =>
      dsimp only
      split_ifs
      · exact ⟨_, _, _, rfl, hpoll, by omega, .inl rfl⟩
      · exact ⟨_, _, _, rfl, hpoll, by omega, .inr rfl⟩
    | none =>
      obtain ⟨ending, n, vq'', hout, hheld, hle, hending⟩ := ih hpoll (polls + 1)
      exact ⟨ending, n, vq'', hout, hheld, by omega, hending⟩

/-- What a request or a call leaves behind: all descriptors are free, or the driver is
disabled. -/
structure Leaves (ending : Ending) (events : List Event) (polls : List Nat) (dev : BlkDev) :
    Prop where
  events : EventsOk events
  polls : ∀ n ∈ polls, n ≤ TIMEOUT + 1
  free : ending.latches = false → Held dev.vq [] ∧ dev.failed = false
  latched : ending.latches = true → dev.failed = true

namespace Leaves

variable {ending : Ending} {events : List Event} {polls : List Nat} {dev : BlkDev}

theorem of_free (hevents : EventsOk events) (hpolls : ∀ n ∈ polls, n ≤ TIMEOUT + 1)
    (hending : ending.latches = false) (hheld : Held dev.vq []) (henabled : dev.failed = false) :
    Leaves ending events polls dev :=
  ⟨hevents, hpolls, fun _ => ⟨hheld, henabled⟩,
    fun hlatch => absurd (hending.symm.trans hlatch) Bool.false_ne_true⟩

theorem of_latched (hevents : EventsOk events) (hpolls : ∀ n ∈ polls, n ≤ TIMEOUT + 1)
    (hending : ending.latches = true) (hfailed : dev.failed = true) :
    Leaves ending events polls dev :=
  ⟨hevents, hpolls, fun hfree => absurd (hfree.symm.trans hending) Bool.false_ne_true,
    fun _ => hfailed⟩

end Leaves

theorem eventsOk_nil : EventsOk [] := fun _ hmem => absurd hmem List.not_mem_nil

theorem finish_latched (dev : BlkDev) (device : Device) (write : Bool) {hdr data status : Nat}
    {vq vq' : Virtq BlkBuf} {ending : Ending} {n : Nat}
    (hawait : awaitCompletion device.used hdr TIMEOUT 1 (vq.virtqSubmit hdr) = (ending, n, vq'))
    (hending : ending.latches = true) :
    finish dev device write hdr data status vq =
      some (⟨ending, n, [.submit (vq.published hdr)]⟩, dev.latch vq') := by
  unfold finish
  rw [hawait]
  cases ending with
  | spurious => rfl
  | foreign => rfl
  | timeout => rfl
  | ok => cases hending
  | refused => cases hending
  | noDescriptor => cases hending
  | ioError => cases hending

theorem finish_spec (dev : BlkDev) (device : Device) (write : Bool) {hdr data status : Nat}
    {vq : Virtq BlkBuf} (henabled : dev.failed = false) (h : Held vq [status, data, hdr])
    (hchain : Contained (vq.published hdr)) :
    ∃ req dev', finish dev device write hdr data status vq = some (req, dev') ∧
      Leaves req.ending req.events [req.polls] dev' := by
  have hevents : EventsOk [Event.submit (vq.published hdr)] := by
    intro chain hmem
    obtain rfl := Event.submit.inj (List.mem_singleton.mp hmem)
    exact hchain
  obtain ⟨ending, n, vq', hawait, hheld, hle, hending⟩ :=
    awaitCompletion_spec device.used hdr (h.virtqSubmit hdr) TIMEOUT 1
  have hpolls : ∀ m ∈ [n], m ≤ TIMEOUT + 1 := by
    rintro m hm
    obtain rfl := List.mem_singleton.mp hm
    omega
  rcases hending with rfl | hlatch
  · obtain ⟨vq'', hfree, hheld'⟩ := freeChain_spec hheld
    unfold finish
    rw [hawait]
    dsimp only
    rw [hfree]
    refine ⟨_, _, rfl, .of_free hevents hpolls ?_ hheld' henabled⟩
    dsimp only
    split_ifs
    · rfl
    · rfl
  · exact ⟨_, _, finish_latched dev device write hawait hlatch,
      .of_latched hevents hpolls hlatch rfl⟩

/-- A request of an enabled driver. -/
theorem blkRw_spec {dev : BlkDev} (h : Held dev.vq []) (henabled : dev.failed = false)
    (sector count : Nat) (write : Bool) (device : Device) :
    ∃ req dev', blkRw dev sector count write device = some (req, dev') ∧
      Leaves req.ending req.events [req.polls] dev' := by
  have hone : ∀ n ∈ [1], n ≤ TIMEOUT + 1 := by simp
  unfold blkRw
  by_cases haccepts : dev.Accepts sector count write
  swap
  · rw [if_pos haccepts]
    exact ⟨_, _, rfl, .of_free eventsOk_nil (by simp) rfl h henabled⟩
  · rw [if_neg (not_not.mpr haccepts)]
    have hpoll := h.virtqPoll (device.used 0)
    generalize dev.vq.virtqPoll (device.used 0) = polled at hpoll
    obtain ⟨done, vq⟩ := polled
    cases done with
    | some id => exact ⟨_, _, rfl, .of_latched eventsOk_nil hone rfl rfl⟩
    | none =>
      obtain ⟨got, vq', halloc, hgot⟩ := allocChain_spec hpoll
      dsimp only
      rw [halloc]
      cases got with
      | none => exact ⟨_, _, rfl, .of_free eventsOk_nil hone rfl hgot henabled⟩
      | some three =>
        obtain ⟨hdr, data, status⟩ := three
        have hlen : count * SECTOR_SIZE ≤ BLK_DMA_BYTES :=
          Nat.mul_le_mul_right _ haccepts.2.2.2.2.1
        have hheld : Held vq' [status, data, hdr] := hgot
        have hdescs : Held (chainDescs vq' hdr data status (count * SECTOR_SIZE) write)
            [status, data, hdr] :=
          ((hheld.setDesc (by simp) _).setDesc (by simp) _).setDesc (by simp) _
        exact finish_spec _ device write henabled hdescs (contained_chainDescs write hheld hlen)

/-! ## One call -/

/-- What a call leaves behind. -/
def CallOk (call : Call) (dev : BlkDev) : Prop := Leaves call.ending call.events call.polls dev

theorem CallOk.done {dev : BlkDev} {ending : Ending} (h : Held dev.vq [])
    (henabled : dev.failed = false) (hending : ending.latches = false) :
    CallOk (.done ending) dev :=
  .of_free eventsOk_nil (by simp [Call.done]) hending h henabled

/-- A call is what its first request and the rest of it are. -/
theorem CallOk.after {req : Request} {call : Call} {dev dev' : BlkDev} {before after : List Event}
    {data : List UInt8} (hreq : Leaves req.ending req.events [req.polls] dev')
    (hcall : CallOk call dev) (hbefore : ∀ chain, Event.submit chain ∉ before)
    (hafter : ∀ chain, Event.submit chain ∉ after) :
    CallOk (call.after req before after data) dev := by
  refine ⟨fun chain hmem => ?_, fun n hn => ?_, hcall.free, hcall.latched⟩
  · simp only [Call.after, List.mem_append] at hmem
    rcases hmem with ((hmem | hmem) | hmem) | hmem
    · exact absurd hmem (hbefore chain)
    · exact hreq.events chain hmem
    · exact absurd hmem (hafter chain)
    · exact hcall.events chain hmem
  · rcases List.mem_cons.mp hn with rfl | hn
    · exact hreq.polls _ List.mem_cons_self
    · exact hcall.polls n hn

/-- A call whose request fails ends as the request does. -/
theorem CallOk.failed {req : Request} {dev : BlkDev} {before : List Event}
    (hreq : Leaves req.ending req.events [req.polls] dev)
    (hbefore : ∀ chain, Event.submit chain ∉ before) :
    CallOk (.after req before [] [] (.done req.ending)) dev := by
  refine ⟨fun chain hmem => ?_, hreq.polls, hreq.free, hreq.latched⟩
  simp only [Call.after, Call.done, List.append_nil, List.mem_append] at hmem
  exact hreq.events chain (hmem.resolve_left (hbefore chain))

/-- The rounds of a call on an enabled driver: they end, and nothing overflows. -/
theorem transfer_spec (write : Bool) (sector bufLen : Nat) {count : Nat} (hcount : count < 2 ^ 32)
    (buf : Nat → UInt8) (device : Nat → Device) (rounds : Nat) {done : Nat} {dev : BlkDev}
    (hrounds : count < done + rounds) (hdone : done ≤ count) (h : Held dev.vq [])
    (henabled : dev.failed = false) :
    ∃ call dev', transfer write sector count bufLen buf device rounds done dev =
      some (call, dev') ∧ CallOk call dev' := by
  induction rounds generalizing done dev with
  | zero => exact absurd hrounds (by omega)
  | succ rounds ih =>
    unfold transfer
    by_cases hmore : done < count
    swap
    · rw [if_pos hmore]
      exact ⟨_, _, rfl, .done h henabled rfl⟩
    rw [if_neg (not_not.mpr hmore)]
    dsimp only
    by_cases hsector : sector + done < 2 ^ 64
    swap
    · rw [if_pos hsector]
      exact ⟨_, _, rfl, .done h henabled rfl⟩
    rw [if_neg (not_not.mpr hsector)]
    generalize hchunk : min (count - done) BLK_DMA_SECTORS = chunk
    by_cases hbuf : done * SECTOR_SIZE + chunk * SECTOR_SIZE ≤ bufLen
    swap
    · rw [if_pos hbuf]
      exact ⟨_, _, rfl, .done h henabled rfl⟩
    rw [if_neg (not_not.mpr hbuf)]
    -- Staging changes neither the queue nor the flags.
    generalize hstaged : (if write = true then { dev with
      dmaBuf := fun k => if k < chunk * SECTOR_SIZE then buf (done * SECTOR_SIZE + k)
        else dev.dmaBuf k } else dev) = staged
    have hvq : staged.vq = dev.vq ∧ staged.failed = dev.failed := by
      rw [← hstaged]
      split_ifs
      · exact ⟨rfl, rfl⟩
      · exact ⟨rfl, rfl⟩
    obtain ⟨req, dev', hrw, hreq⟩ := blkRw_spec (hvq.1 ▸ h) (hvq.2.trans henabled) (sector + done)
      chunk write (device done)
    rw [hrw]
    dsimp only
    have hbefore : ∀ chain, Event.submit chain ∉ if write then [Event.stage] else [] := by
      intro chain
      cases write
      · exact List.not_mem_nil
      · simp
    have hafter : ∀ chain, Event.submit chain ∉ if write then [] else [Event.collect] := by
      intro chain
      cases write
      · simp
      · exact List.not_mem_nil
    by_cases hok : req.ending = .ok
    swap
    · rw [if_pos hok]
      exact ⟨_, _, rfl, .failed hreq hbefore⟩
    rw [if_neg (not_not.mpr hok)]
    have hsize : BLK_DMA_SECTORS = 8 := rfl
    have hstep : 0 < chunk ∧ done + chunk ≤ count := by omega
    rw [if_neg (not_not.mpr (by omega))]
    obtain ⟨hheld, henabled'⟩ := hreq.free (by rw [hok]; rfl)
    obtain ⟨call, dev'', hrest, hcall⟩ := ih (by omega) hstep.2 hheld henabled'
    rw [hrest]
    exact ⟨_, _, rfl, hcall.after hreq hbefore hafter⟩

/-- A call on an enabled driver. -/
theorem perform_spec {dev : BlkDev} (h : Held dev.vq []) (henabled : dev.failed = false)
    (call : BlkCall) :
    ∃ out dev', dev.perform call = some (out, dev') ∧ CallOk out dev' := by
  unfold BlkDev.perform
  by_cases husable : dev.ready = true ∧ dev.failed = false
  swap
  · rw [if_pos husable]
    exact ⟨_, _, rfl, .done h henabled rfl⟩
  rw [if_neg (not_not.mpr husable)]
  dsimp only
  by_cases htotal : call.count.toNat * SECTOR_SIZE < 2 ^ 64
  swap
  · rw [if_pos htotal]
    exact ⟨_, _, rfl, .done h henabled rfl⟩
  rw [if_neg (not_not.mpr htotal)]
  by_cases hbuf : call.count.toNat * SECTOR_SIZE = 0 ∨ call.bufLen < call.count.toNat * SECTOR_SIZE
  · rw [if_pos hbuf]
    exact ⟨_, _, rfl, .done h henabled rfl⟩
  rw [if_neg hbuf]
  exact transfer_spec call.write call.sector.toNat call.bufLen call.count.toNat_lt call.buf
    call.device _ (by omega) (Nat.zero_le _) h henabled

/-- A call on a disabled driver returns at once and changes nothing. -/
theorem perform_disabled {dev : BlkDev} (hfailed : dev.failed = true) (call : BlkCall) :
    dev.perform call = some (.done .refused, dev) := by
  unfold BlkDev.perform
  rw [if_pos fun husable => Bool.false_ne_true (husable.2.symm.trans hfailed)]

/-! ## Runs -/

/-- The state after a call. -/
def BlkDev.step (dev : BlkDev) (call : BlkCall) : BlkDev :=
  ((dev.perform call).map Prod.snd).getD dev

/-- The driver is enabled and no descriptor is in use, or it is disabled. -/
def Sound (dev : BlkDev) : Prop := dev.failed = true ∨ Held dev.vq [] ∧ dev.failed = false

/-- The device is contained in this call: nothing overflows, the chains point to buffers of
the driver, every request polls a bounded number of times, and a call on an enabled driver
leaves all descriptors free or disables the driver. -/
def Safe (dev : BlkDev) (call : BlkCall) : Prop :=
  ∃ out dev', dev.perform call = some (out, dev') ∧ EventsOk out.events ∧
    (∀ n ∈ out.polls, n ≤ TIMEOUT + 1) ∧
    (out.ending.latches = true → dev'.failed = true) ∧
    (out.ending.latches = false → dev.failed = false →
      dev'.vq.freeCount = dev'.vq.num ∧ ∀ i < dev'.vq.num, dev'.vq.descUsed i = false)

/-- The call ends in a timeout or in a foreign or spurious completion. -/
def Latches (dev : BlkDev) (call : BlkCall) : Prop :=
  ∃ out dev', dev.perform call = some (out, dev') ∧ out.ending.latches = true

/-- The call submits nothing, does not touch the staging buffer and changes nothing. -/
def Quiet (dev : BlkDev) (call : BlkCall) : Prop :=
  ∃ out, dev.perform call = some (out, dev) ∧ out.events = []

theorem Held.all_free {vq : Virtq BlkBuf} (h : Held vq []) :
    vq.freeCount = vq.num ∧ ∀ i < vq.num, vq.descUsed i = false := by
  have hfree : ∀ i < vq.num, vq.descUsed i = false := fun i hi => by
    have hnot := (h.used i hi).not.mpr List.not_mem_nil
    simpa using hnot
  exact ⟨h.ok.free.count_eq_iff.mpr hfree, hfree⟩

theorem sound_step {dev : BlkDev} (h : Sound dev) (call : BlkCall) :
    Safe dev call ∧ Sound (dev.step call) := by
  rcases h with hfailed | ⟨hheld, henabled⟩
  · have hout := perform_disabled hfailed call
    have hending : (Call.done .refused).ending.latches = false := rfl
    refine ⟨⟨_, _, hout, eventsOk_nil, by simp [Call.done],
      fun hlatch => absurd (hending.symm.trans hlatch) Bool.false_ne_true,
      fun _ hno => absurd (hno.symm.trans hfailed) Bool.false_ne_true⟩, .inl ?_⟩
    simpa [BlkDev.step, hout] using hfailed
  · obtain ⟨out, dev', hout, hcall⟩ := perform_spec hheld henabled call
    refine ⟨⟨out, dev', hout, hcall.events, hcall.polls, hcall.latched,
      fun hending _ => (hcall.free hending).1.all_free⟩, ?_⟩
    have hstep : dev.step call = dev' := by simp [BlkDev.step, hout]
    rw [hstep]
    cases hlatches : out.ending.latches with
    | true => exact .inl (hcall.latched hlatches)
    | false => exact .inr (hcall.free hlatches)

theorem sound_init {maxSize : UInt32} {capacity : UInt64} {dev : BlkDev}
    (h : init maxSize capacity = some dev) : Sound dev := by
  obtain ⟨vq, hvq, rfl⟩ := Option.map_eq_some_iff.mp h
  obtain ⟨hok, hfree⟩ := ok_virtqInit hvq
  exact .inr ⟨⟨hok, List.nodup_nil, by simp, fun i _ => by simp [hfree i]⟩, rfl⟩

/-- A disabled driver stays so, and every call is quiet. -/
theorem quiet_of_failed {dev : BlkDev} (h : dev.failed = true) (calls : List BlkCall) :
    Guarded BlkDev.step Quiet dev calls := by
  induction calls with
  | nil => trivial
  | cons call calls ih =>
    have hout := perform_disabled h call
    have hstep : dev.step call = dev := by simp [BlkDev.step, hout]
    exact ⟨⟨_, hout, rfl⟩, by rw [hstep]; exact ih⟩

/-- Whatever the device reports and does, every call of every run is safe, and after a call
that disables the driver every call is quiet. -/
theorem block_device_contained (maxSize : UInt32) (capacity : UInt64) (dev : BlkDev)
    (h : init maxSize capacity = some dev) (calls : List BlkCall) :
    Guarded BlkDev.step Safe dev calls ∧
      ∀ before call after, calls = before ++ call :: after →
        Latches (run BlkDev.step dev before) call →
          Guarded BlkDev.step Quiet (run BlkDev.step dev (before ++ [call])) after := by
  constructor
  · exact guarded_of_steps Sound (fun s op hs => sound_step hs op) (sound_init h) calls
  · rintro before call after - ⟨out, dev', hout, hlatch⟩
    have hsound := run_invariant Sound (fun s op hs => (sound_step hs op).2) (sound_init h) before
    obtain ⟨out', dev'', hout', -, -, hfailed, -⟩ := (sound_step hsound call).1
    obtain ⟨rfl, rfl⟩ := Prod.mk.inj (Option.some.inj (hout.symm.trans hout'))
    rw [run_concat]
    have hstep : (run BlkDev.step dev before).step call = dev' := by simp [BlkDev.step, hout]
    rw [hstep]
    exact quiet_of_failed (hfailed hlatch) after

/-! ## A foreign completion -/

/-- A device that completes the chain 5 as soon as a request is submitted. -/
def foreignDevice : Device :=
  ⟨fun polls => ⟨if polls = 0 then 0 else 1, fun _ => ⟨5, 0⟩⟩, 0, fun _ => 0⟩

/-- A read of one sector from this device. -/
def foreignRead : BlkCall := ⟨false, 0, 1, 512, fun _ => 0, fun _ => foreignDevice⟩

/-- The first read ends in a foreign completion.  The second one is refused, and returns with
the descriptors of the first still in use. -/
theorem refused_read_finds_descriptors_used :
    ((init 16 100).bind fun dev =>
      (dev.perform foreignRead).bind fun first =>
      (first.2.perform foreignRead).map fun second =>
        (first.1.ending, second.1.ending, second.2.vq.descUsed 0, second.2.vq.freeCount)) =
      some (.foreign, .refused, true, 13) := by
  decide +kernel

/-- The foreign completion is contained. -/
theorem block_device_contained_foreign :
    ∃ dev, init 16 100 = some dev ∧ Guarded BlkDev.step Safe dev [foreignRead, foreignRead] ∧
      ∀ before call after, [foreignRead, foreignRead] = before ++ call :: after →
        Latches (run BlkDev.step dev before) call →
          Guarded BlkDev.step Quiet (run BlkDev.step dev (before ++ [call])) after :=
  ⟨_, rfl, block_device_contained 16 100 _ rfl [foreignRead, foreignRead]⟩

end RobotOs.Drivers.VirtioBlk
