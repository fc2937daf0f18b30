import RobotOs.Drivers.Virtqueue
import RobotOs.Lib.Run

/-!
# The network device

`virtio/net.rs`: `init`, `send` and `poll_recv` with `tx_reclaim_chain`.  A frame takes two
descriptors of the transmit queue, one for the header that all frames share and one for the
buffer of the frame, and they come back when a later `send` finds them in the used ring.  The
receive queue has one descriptor for each receive buffer, which is published again as soon as
its frame was copied.

The used rings and the receive buffers belong to the device.  Each poll is given what the used
ring holds at that time, any values at all, and the device writes the receive buffers between
two calls.  The loop of `send` runs for as long as the device posts completions, so it is
given a list of polls, and the states inside the loop are those after a shorter list.
-/

namespace RobotOs.Drivers.VirtioNet

open RobotOs.Lib.FreeList RobotOs.Lib.Run
open RobotOs.Drivers.Virtio
open RobotOs.Drivers.Virtio.Virtq

def NET_HDR_SIZE : Nat := 10
def RX_BUF_SIZE : Nat := 1526
def NUM_RX_BUFS : Nat := VIRTIO_QUEUE_SIZE / 2
def TX_BUF_SIZE : Nat := 1514

/-- The buffers of the driver: `TX_HDR`, `tx_bufs` and `rx_bufs`. -/
inductive NetBuf where
  | txHdr
  | tx (i : Nat)
  | rx (slot : Nat)
  deriving DecidableEq, Repr

/-- How many bytes a buffer holds. -/
def NetBuf.size : NetBuf → Nat
  | .txHdr => NET_HDR_SIZE
  | .tx _ => TX_BUF_SIZE
  | .rx _ => RX_BUF_SIZE

/-- The buffer exists. -/
def NetBuf.Exists : NetBuf → Prop
  | .txHdr => True
  | .tx i => i < VIRTIO_QUEUE_SIZE
  | .rx slot => slot < NUM_RX_BUFS

/-- `NetState`. -/
structure NetState where
  rxq : Virtq NetBuf
  txq : Virtq NetBuf
  ready : Bool
  rxBufs : Nat → Nat → UInt8
  txBufs : Nat → List UInt8
  txDropped : Nat

/-- The descriptor of a receive buffer. -/
def rxDesc (slot : Nat) : VirtqDesc NetBuf := ⟨some (.rx slot), RX_BUF_SIZE, VIRTQ_DESC_F_WRITE, 0⟩

/-- `init` gives a receive buffer to the device, if there is a descriptor for it. -/
def giveRx (rxq : Virtq NetBuf) (slot : Nat) : Virtq NetBuf :=
  match rxq.virtqAllocDesc with
  | (none, rxq) => rxq
  | (some i, rxq) => (rxq.setDesc i (rxDesc slot)).virtqSubmit i

/-- `init`, for queues of the sizes that the device reports. -/
def init (maxRx maxTx : UInt32) : Option NetState :=
  match virtqInit maxRx, virtqInit maxTx with
  | some rxq, some txq =>
    some ⟨(List.range NUM_RX_BUFS).foldl giveRx rxq, txq, true, fun _ _ => 0, fun _ => [], 0⟩
  | _, _ => none

/-- `tx_reclaim_chain`, with the number of rounds that are left. -/
def txReclaimChain : Nat → Virtq NetBuf → Nat → Option (Virtq NetBuf)
  | 0, txq, _ => some txq
  | rounds + 1, txq, idx =>
    if idx ≥ txq.num then some txq
    else
      let d := txq.desc idx
      match txq.virtqFreeDesc idx with
      | none => none
      | some txq =>
        if d.flags &&& VIRTQ_DESC_F_NEXT = 0 then some txq else txReclaimChain rounds txq d.next

/-- The loop of `send` over the used ring, and whether it has ended. -/
def drain : List VirtqUsed → Virtq NetBuf → Option (Bool × Virtq NetBuf)
  | [], txq => some (false, txq)
  | used :: polls, txq =>
    match txq.virtqPoll used with
    | (none, txq) => some (true, txq)
    | (some done, txq) =>
      match txReclaimChain txq.num txq done with
      | none => none
      | some txq => drain polls txq

/-- The result of `send`. -/
inductive SendOut where
  /-- The frame is too long, or there is no device. -/
  | refused
  /-- The loop over the used ring still runs. -/
  | waiting
  /-- There are no descriptors. -/
  | dropped
  /-- The frame was queued with these descriptors, and this chain was published. -/
  | queued (hdr dat : Nat) (chain : List (VirtqDesc NetBuf))

/-- The two descriptors of a frame. -/
def frameDescs (txq : Virtq NetBuf) (hdr dat len : Nat) : Virtq NetBuf :=
  (txq.setDesc hdr ⟨some .txHdr, NET_HDR_SIZE, VIRTQ_DESC_F_NEXT, dat⟩).setDesc dat
    ⟨some (.tx dat), len, 0, 0⟩

/-- `saturating_add(1)` on the counter of dropped frames. -/
def drop1 (net : NetState) (txq : Virtq NetBuf) : NetState :=
  { net with txq := txq, txDropped := min (net.txDropped + 1) (2 ^ 32 - 1) }

/-- `send`, once the used ring is empty. -/
def enqueue (net : NetState) (data : List UInt8) (txq : Virtq NetBuf) :
    Option (SendOut × NetState) :=
  match txq.virtqAllocDesc with
  | (none, txq) => some (.dropped, drop1 net txq)
  | (some hdr, txq) =>
    match txq.virtqAllocDesc with
    | (none, txq) =>
      match txq.virtqFreeDesc hdr with
      | none => none
      | some txq => some (.dropped, drop1 net txq)
    | (some dat, txq) =>
      let txq := frameDescs txq hdr dat data.length
      some (.queued hdr dat (txq.published hdr),
        { net with
          txq := txq.virtqSubmit hdr
          txBufs := Function.update net.txBufs dat data })

/-- `send`. -/
def send (net : NetState) (data : List UInt8) (polls : List VirtqUsed) :
    Option (SendOut × NetState) :=
  if data = [] ∨ data.length > TX_BUF_SIZE then some (.refused, net)
  else if !net.ready then some (.refused, net)
  else
    match drain polls net.txq with
    | none => none
    | some (false, txq) => some (.waiting, { net with txq := txq })
    | some (true, txq) => enqueue net data txq

/-- The result of `poll_recv`. -/
inductive RecvOut where
  | nothing
  /-- The bytes that were copied, and the chain that was published again. -/
  | frame (bytes : List UInt8) (chain : List (VirtqDesc NetBuf))
  /-- A descriptor that points to no receive buffer was published again. -/
  | restored (chain : List (VirtqDesc NetBuf))
  /-- A descriptor was freed. -/
  | discarded

/-- `poll_recv` into a buffer of `bufLen` bytes. -/
def pollRecv (net : NetState) (bufLen : Nat) (used : VirtqUsed) : Option (RecvOut × NetState) :=
  if !net.ready then some (.nothing, net)
  else
    match net.rxq.virtqPollWithLen used with
    | (none, rxq) => some (.nothing, { net with rxq := rxq })
    | (some (idx, devLen), rxq) =>
      match (List.range NUM_RX_BUFS).find? fun slot => (rxq.desc idx).addr = some (.rx slot) with
      | some slot =>
        let frameLen := min (devLen - NET_HDR_SIZE) (RX_BUF_SIZE - NET_HDR_SIZE)
        let n := min frameLen bufLen
        let rxq := rxq.setDesc idx (rxDesc slot)
        some (.frame ((List.range n).map fun k => net.rxBufs slot (NET_HDR_SIZE + k))
            (rxq.published idx),
          { net with rxq := rxq.virtqSubmit idx })
      | none =>
        if idx < NUM_RX_BUFS then
          let rxq := rxq.setDesc idx (rxDesc idx)
          some (.restored (rxq.published idx), { net with rxq := rxq.virtqSubmit idx })
        else
          match rxq.virtqFreeDesc idx with
          | none => none
          | some rxq => some (.discarded, { net with rxq := rxq })

/-! ## The transmit queue -/

/-- The published chain has only descriptors of buffers that exist and hold their length. -/
def Contained (chain : List (VirtqDesc NetBuf)) : Prop :=
  ∀ d ∈ chain, ∃ a : NetBuf, d.addr = some a ∧ a.Exists ∧ d.len ≤ a.size

/-- A transmit queue between two calls. -/
structure TxOk (txq : Virtq NetBuf) : Prop where
  ok : txq.Ok
  owned : txq.Owned NetBuf.size

/-- The chain walk of a completion keeps the queue, whatever the completion. -/
theorem TxOk.txReclaimChain {txq : Virtq NetBuf} (h : TxOk txq) (rounds idx : Nat) :
    ∃ txq', VirtioNet.txReclaimChain rounds txq idx = some txq' ∧ TxOk txq' := by
  induction rounds generalizing txq idx with
  | zero => exact ⟨txq, rfl, h⟩
  | succ rounds ih =>
    unfold VirtioNet.txReclaimChain
    by_cases hrange : idx ≥ txq.num
    · exact ⟨txq, if_pos hrange, h⟩
    · rw [if_neg hrange]
      -- The walk goes on from the old link, on a queue where the descriptor is free or was.
      obtain ⟨txq', hfree, h'⟩ : ∃ txq', txq.virtqFreeDesc idx = some txq' ∧ TxOk txq' := by
        rcases virtqFreeDesc_cases h.ok idx with ⟨-, hskip⟩ | ⟨-, -, hdone, hok⟩
        · exact ⟨txq, hskip, h⟩
        · exact ⟨_, hdone, hok, h.owned.freed idx⟩
      simp only [hfree]
      split_ifs
      · exact ⟨txq', rfl, h'⟩
      · exact ih h' _

/-- The loop over the used ring keeps the queue. -/
theorem TxOk.drain {txq : Virtq NetBuf} (h : TxOk txq) (polls : List VirtqUsed) :
    ∃ ended txq', VirtioNet.drain polls txq = some (ended, txq') ∧ TxOk txq' := by
  induction polls generalizing txq with
  | nil => exact ⟨false, txq, rfl, h⟩
  | cons used polls ih =>
    unfold VirtioNet.drain
    obtain ⟨hdesc, -, -, hok, -⟩ := txq.virtqPoll_spec used
    generalize txq.virtqPoll used = polled at hdesc hok
    obtain ⟨done, txq'⟩ := polled
    have h' : TxOk txq' := ⟨hok h.ok, h.owned.of_desc hdesc⟩
    cases done with
    | none => exact ⟨true, txq', rfl, h'⟩
    | some done =>
      obtain ⟨txq'', hreclaim, h''⟩ := h'.txReclaimChain txq'.num done
      simp only [hreclaim]
      exact ih h''

/-- Two descriptors that are handed out are different and were not in use. -/
structure Handed (txq : Virtq NetBuf) (hdr dat : Nat) : Prop where
  hdr_lt : hdr < txq.num
  dat_lt : dat < txq.num
  ne : hdr ≠ dat
  hdr_free : txq.descUsed hdr = false
  dat_free : txq.descUsed dat = false

/-- The chain of a frame is its header and its buffer. -/
theorem published_frameDescs (txq : Virtq NetBuf) {hdr dat : Nat} (len : Nat) (hne : hdr ≠ dat)
    (hnum : 2 ≤ txq.num) :
    (frameDescs txq hdr dat len).published hdr =
      [⟨some .txHdr, NET_HDR_SIZE, VIRTQ_DESC_F_NEXT, dat⟩, ⟨some (.tx dat), len, 0, 0⟩] := by
  obtain ⟨n, hn⟩ := Nat.exists_eq_add_of_le' hnum
  have hflag : VIRTQ_DESC_F_NEXT ≠ 0 := by decide
  have hnum' : (frameDescs txq hdr dat len).num = n + 2 := hn
  rw [published, hnum']
  simp [chain, frameDescs, setDesc, Function.update_of_ne hne, hflag]

/-- The end of `send` keeps the queue, hands out descriptors that are not in use and
publishes buffers of the driver. -/
theorem enqueue_spec (net : NetState) {data : List UInt8} {txq : Virtq NetBuf} (h : TxOk txq)
    (hlen : data.length ≤ TX_BUF_SIZE) :
    ∃ out net', enqueue net data txq = some (out, net') ∧ TxOk net'.txq ∧ net'.rxq = net.rxq ∧
      ∀ hdr dat chain, out = .queued hdr dat chain → Handed txq hdr dat ∧ Contained chain := by
  unfold enqueue
  rcases virtqAllocDesc_cases h.ok with ⟨hnone, -⟩ |
    ⟨txq₁, hsome, hlt, hfree, hok₁, hnum₁, hdesc₁, hused₁⟩
  · rw [hnone]
    exact ⟨_, _, rfl, h, rfl, by rintro _ _ _ ⟨⟩⟩
  · rw [hsome]
    dsimp only
    have hused : txq₁.descUsed txq.freeHead = true := by rw [hused₁, Function.update_self]
    rcases virtqAllocDesc_cases hok₁ with ⟨hnone, -⟩ |
      ⟨txq₂, hsome, hlt', hfree', hok₂, hnum₂, hdesc₂, hused₂⟩
    · rw [hnone]
      rcases virtqFreeDesc_cases hok₁ txq.freeHead with ⟨hunused, -⟩ | ⟨-, -, hdone, hok⟩
      · have hcontra := hunused (hnum₁ ▸ hlt)
        rw [hused] at hcontra
        cases hcontra
      · simp only [hdone]
        have howned : txq₁.Owned NetBuf.size := h.owned.of_desc hdesc₁
        exact ⟨_, _, rfl, ⟨hok, howned.freed _⟩, rfl, by rintro _ _ _ ⟨⟩⟩
    · rw [hsome]
      dsimp only
      have hne : txq.freeHead ≠ txq₁.freeHead := by
        intro heq
        rw [← heq, hused] at hfree'
        cases hfree'
      have hhdr : txq₂.descUsed txq.freeHead = true := by
        rw [hused₂, Function.update_of_ne hne, hused]
      have hdat : txq₂.descUsed txq₁.freeHead = true := by rw [hused₂, Function.update_self]
      have hframe : TxOk (frameDescs txq₂ txq.freeHead txq₁.freeHead data.length) := by
        have howned : txq₂.Owned NetBuf.size := h.owned.of_desc (hdesc₂.trans hdesc₁)
        refine ⟨(hok₂.setDesc hhdr _).setDesc hdat _, (howned.setDesc ?_ _).setDesc ?_ _⟩
        · exact .inr ⟨.txHdr, rfl, le_refl _⟩
        · exact .inr ⟨.tx _, rfl, hlen⟩
      refine ⟨_, _, rfl, ⟨hframe.ok.virtqSubmit _, hframe.owned.of_desc (by simp)⟩, rfl, ?_⟩
      rintro _ _ _ ⟨⟩
      have hlt'' : txq₁.freeHead < txq.num := hnum₁ ▸ hlt'
      constructor
      · refine ⟨hlt, hlt'', hne, hfree, ?_⟩
        rwa [hused₁, Function.update_of_ne hne.symm] at hfree'
      · have hnum : 2 ≤ txq₂.num := by
          rw [hnum₂, hnum₁]
          omega
        rw [published_frameDescs txq₂ data.length hne hnum]
        intro d hd
        have hsize : txq₁.freeHead < VIRTIO_QUEUE_SIZE := hlt''.trans_le h.ok.le
        simp only [List.mem_cons, List.not_mem_nil, or_false] at hd
        rcases hd with rfl | rfl
        · exact ⟨.txHdr, rfl, trivial, le_refl _⟩
        · exact ⟨.tx _, rfl, hsize, hlen⟩

/-! ## The receive queue -/

/-- Each receive buffer has the descriptor with its number, as far as there are
descriptors, and the others were never used. -/
structure RxOk (rxq : Virtq NetBuf) : Prop where
  pos : 0 < rxq.num
  paired : ∀ i < rxq.num, i < NUM_RX_BUFS → rxq.desc i = rxDesc i
  unused : ∀ i < rxq.num, NUM_RX_BUFS ≤ i →
    rxq.descUsed i = false ∧ (rxq.desc i).addr = none ∧ (rxq.desc i).len = 0

/-- The receive queue after `k` buffers were given to the device. -/
structure Given (k : Nat) (rxq : Virtq NetBuf) : Prop where
  pos : 0 < rxq.num
  count : rxq.freeCount = rxq.num - k
  head : k < rxq.num → rxq.freeHead = k
  given : ∀ i < rxq.num, i < k → rxq.desc i = rxDesc i
  fresh : ∀ i < rxq.num, k ≤ i →
    (rxq.descUsed i = false ∧ (rxq.desc i).addr = none ∧ (rxq.desc i).len = 0) ∧
      (i + 1 < rxq.num → (rxq.desc i).next = i + 1)

theorem given_virtqInit {maxRx : UInt32} {rxq : Virtq NetBuf} (h : virtqInit maxRx = some rxq) :
    Given 0 rxq := by
  have hpos := (ok_virtqInit h).1.pos
  unfold virtqInit at h
  split_ifs at h
  obtain rfl := Option.some.inj h
  refine ⟨hpos, rfl, fun _ => rfl, fun _ _ hi => absurd hi (Nat.not_lt_zero _), ?_⟩
  intro i hi _
  refine ⟨⟨rfl, rfl, rfl⟩, fun hlast => ?_⟩
  dsimp only at hi hlast ⊢
  rw [if_neg (Nat.ne_of_lt hlast), if_pos hi]

theorem Given.giveRx {k : Nat} {rxq : Virtq NetBuf} (h : Given k rxq) :
    Given (k + 1) (VirtioNet.giveRx rxq k) := by
  unfold VirtioNet.giveRx virtqAllocDesc
  by_cases hfull : k < rxq.num
  · have hcount : rxq.freeCount ≠ 0 := by
      rw [h.count]
      omega
    rw [if_neg hcount, if_neg (not_le.mpr (h.head hfull ▸ hfull)), h.head hfull]
    dsimp only
    refine ⟨by simpa [setDesc] using h.pos, ?_, ?_, ?_, ?_⟩
    · simp only [freeCount_virtqSubmit, num_virtqSubmit, setDesc, h.count]
      omega
    · intro hlast
      simp only [num_virtqSubmit, setDesc] at hlast
      simp only [freeHead_virtqSubmit, setDesc]
      exact (h.fresh k hfull (le_refl k)).2 hlast
    · intro i hi hik
      simp only [num_virtqSubmit, setDesc, desc_virtqSubmit] at hi ⊢
      by_cases heq : i = k
      · rw [heq, Function.update_self]
      · rw [Function.update_of_ne heq]
        exact h.given i hi (by omega)
    · intro i hi hik
      simp only [num_virtqSubmit, setDesc, desc_virtqSubmit, descUsed_virtqSubmit] at hi ⊢
      have hne : i ≠ k := by omega
      rw [Function.update_of_ne hne, Function.update_of_ne hne]
      exact h.fresh i hi (by omega)
  · have hcount : rxq.freeCount = 0 := by
      rw [h.count]
      omega
    rw [if_pos hcount]
    dsimp only
    refine ⟨h.pos, by omega, fun hk => absurd hk (by omega), fun i hi _ => h.given i hi (by omega),
      fun i hi _ => h.fresh i hi (by omega)⟩

theorem Given.foldl {maxRx : UInt32} {rxq : Virtq NetBuf} (h : virtqInit maxRx = some rxq)
    (k : Nat) : Given k ((List.range k).foldl VirtioNet.giveRx rxq) := by
  induction k with
  | zero => exact given_virtqInit h
  | succ k ih =>
    rw [List.range_succ, List.foldl_append]
    exact ih.giveRx

theorem rxOk_init {maxRx : UInt32} {rxq : Virtq NetBuf} (h : virtqInit maxRx = some rxq) :
    RxOk ((List.range NUM_RX_BUFS).foldl giveRx rxq) := by
  have hgiven := Given.foldl h NUM_RX_BUFS
  exact ⟨hgiven.pos, hgiven.given, fun i hi hle => (hgiven.fresh i hi hle).1⟩

theorem RxOk.points {rxq : Virtq NetBuf} (h : RxOk rxq) {i : Nat} (hi : i < rxq.num) :
    Points NetBuf.size (rxq.desc i) := by
  by_cases hlt : i < NUM_RX_BUFS
  · rw [h.paired i hi hlt]
    exact .inr ⟨.rx i, rfl, le_refl _⟩
  · exact .inl (h.unused i hi (not_lt.mp hlt)).2

/-- The bytes come from one receive buffer, behind its header. -/
def FromBuffer (net : NetState) (bytes : List UInt8) : Prop :=
  ∃ slot < NUM_RX_BUFS, NET_HDR_SIZE + bytes.length ≤ RX_BUF_SIZE ∧
    bytes = (List.range bytes.length).map fun k => net.rxBufs slot (NET_HDR_SIZE + k)

/-- What `poll_recv` delivers and publishes. -/
def Delivered (net : NetState) (bufLen : Nat) : RecvOut → Prop
  | .nothing => True
  | .frame bytes chain => bytes.length ≤ bufLen ∧ FromBuffer net bytes ∧ Contained chain
  | .restored chain => Contained chain
  | .discarded => True

/-- The chain of a receive descriptor is its buffer. -/
theorem contained_rxDesc {rxq : Virtq NetBuf} {idx slot : Nat} (hpos : 0 < rxq.num)
    (hslot : slot < NUM_RX_BUFS) : Contained ((rxq.setDesc idx (rxDesc slot)).published idx) := by
  obtain ⟨n, hn⟩ := Nat.exists_eq_succ_of_ne_zero (Nat.ne_of_gt hpos)
  have hnum : (rxq.setDesc idx (rxDesc slot)).num = n + 1 := hn
  have hstop : VIRTQ_DESC_F_WRITE &&& VIRTQ_DESC_F_NEXT = 0 := by decide
  have hchain : (rxq.setDesc idx (rxDesc slot)).published idx = [rxDesc slot] := by
    rw [published, hnum]
    simp [chain, setDesc, rxDesc, hstop]
  rw [hchain]
  intro d hd
  obtain rfl := List.mem_singleton.mp hd
  exact ⟨.rx slot, rfl, hslot, le_refl _⟩

/-- A descriptor is written again with what it had. -/
theorem RxOk.republish {rxq : Virtq NetBuf} (h : RxOk rxq) {idx : Nat} (hidx : idx < NUM_RX_BUFS) :
    RxOk ((rxq.setDesc idx (rxDesc idx)).virtqSubmit idx) := by
  refine ⟨by simpa [setDesc] using h.pos, fun i hi hlt => ?_, fun i hi hge => ?_⟩
  · simp only [num_virtqSubmit, setDesc, desc_virtqSubmit] at hi ⊢
    by_cases heq : i = idx
    · rw [heq, Function.update_self]
    · rw [Function.update_of_ne heq]
      exact h.paired i hi hlt
  · simp only [num_virtqSubmit, setDesc, desc_virtqSubmit, descUsed_virtqSubmit] at hi ⊢
    rw [Function.update_of_ne (by omega)]
    exact h.unused i hi hge

/-- `poll_recv` keeps the queues, delivers bytes of one receive buffer and publishes receive
buffers. -/
theorem pollRecv_spec {net : NetState} (h : RxOk net.rxq) (bufLen : Nat) (used : VirtqUsed) :
    ∃ out net', pollRecv net bufLen used = some (out, net') ∧ RxOk net'.rxq ∧
      net'.txq = net.txq ∧ Delivered net bufLen out := by
  unfold pollRecv
  split_ifs with hready
  · exact ⟨_, _, rfl, h, rfl, trivial⟩
  · obtain ⟨hdesc, hnum, hused, -, hrange⟩ := net.rxq.virtqPollWithLen_spec used
    generalize net.rxq.virtqPollWithLen used = polled at hdesc hnum hused hrange
    obtain ⟨done, rxq⟩ := polled
    have h' : RxOk rxq := by
      refine ⟨hnum ▸ h.pos, ?_, ?_⟩
      · dsimp only at hdesc hnum
        rw [hdesc, hnum]
        exact h.paired
      · dsimp only at hdesc hnum hused
        rw [hdesc, hnum, hused]
        exact h.unused
    cases done with
    | none => exact ⟨_, _, rfl, h', rfl, trivial⟩
    | some pair =>
      obtain ⟨idx, devLen⟩ := pair
      have hidx : idx < rxq.num := hnum ▸ hrange idx devLen rfl
      dsimp only
      cases hfind : (List.range NUM_RX_BUFS).find?
          fun slot => (rxq.desc idx).addr = some (.rx slot) with
      | some slot =>
        have haddr : (rxq.desc idx).addr = some (.rx slot) := by simpa using List.find?_some hfind
        have hslot : slot < NUM_RX_BUFS := List.mem_range.mp (List.mem_of_find?_eq_some hfind)
        -- The buffer is the one with the number of the descriptor.
        have heq : slot = idx := by
          by_cases hlt : idx < NUM_RX_BUFS
          · rw [h'.paired idx hidx hlt] at haddr
            simpa [rxDesc] using haddr.symm
          · rw [(h'.unused idx hidx (not_lt.mp hlt)).2.1] at haddr
            cases haddr
        subst heq
        refine ⟨_, _, rfl, h'.republish hslot, rfl, ?_, ?_, contained_rxDesc h'.pos hslot⟩
        · simp
        · refine ⟨slot, hslot, ?_, by simp⟩
          have hhdr : NET_HDR_SIZE = 10 := rfl
          have hbuf : RX_BUF_SIZE = 1526 := rfl
          simp only [List.length_map, List.length_range]
          omega
      | none =>
        dsimp only
        split_ifs with hlt
        · exact ⟨_, _, rfl, h'.republish hlt, rfl, contained_rxDesc h'.pos hlt⟩
        · have hunused := (h'.unused idx hidx (not_lt.mp hlt)).1
          have hskip : rxq.virtqFreeDesc idx = some rxq := by
            unfold virtqFreeDesc
            rw [if_pos (.inr hunused)]
          rw [hskip]
          exact ⟨_, _, rfl, h', rfl, trivial⟩

/-! ## Runs -/

/-- A call, or a write of the device to the receive buffers. -/
inductive NetOp where
  | send (data : List UInt8) (polls : List VirtqUsed)
  | pollRecv (bufLen : Nat) (used : VirtqUsed)
  | receive (rxBufs : Nat → Nat → UInt8)

/-- The state after an operation. -/
def NetState.step (net : NetState) : NetOp → NetState
  | .send data polls => ((VirtioNet.send net data polls).map Prod.snd).getD net
  | .pollRecv bufLen used => ((VirtioNet.pollRecv net bufLen used).map Prod.snd).getD net
  | .receive rxBufs => { net with rxBufs := rxBufs }

/-- The links of the transmit queue visit exactly the descriptors that are not marked as used,
each once, and the count is their number. -/
def TxListed (net : NetState) : Prop :=
  Tracks (fun i => (net.txq.desc i).next) END net.txq.num net.txq.freeHead net.txq.freeCount
    net.txq.descUsed

/-- Every descriptor of both tables is scrubbed or points to a buffer of the driver that holds
its length. -/
def TablesOwned (net : NetState) : Prop :=
  (∀ i < net.txq.num, Points NetBuf.size (net.txq.desc i)) ∧
    ∀ i < net.rxq.num, Points NetBuf.size (net.rxq.desc i)

/-- Nothing that the device says gets out of hand in this step: the call does not overflow,
hands out descriptors that are not marked as used, publishes buffers of the driver, and
delivers bytes of one receive buffer. -/
def Safe (net : NetState) : NetOp → Prop
  | .send data polls => TxListed net ∧ ∃ out net',
      VirtioNet.send net data polls = some (out, net') ∧
      ∀ hdr dat chain, out = .queued hdr dat chain → Contained chain ∧
        ∃ txq, drain polls net.txq = some (true, txq) ∧ Handed txq hdr dat
  | .pollRecv bufLen used => TxListed net ∧ ∃ out net',
      VirtioNet.pollRecv net bufLen used = some (out, net') ∧ Delivered net bufLen out
  | .receive _ => TxListed net

/-- Both queues between two operations. -/
structure Inv (net : NetState) : Prop where
  tx : TxOk net.txq
  rx : RxOk net.rxq

theorem inv_init {maxRx maxTx : UInt32} {net : NetState} (h : init maxRx maxTx = some net) :
    Inv net := by
  unfold init at h
  cases hrx : (virtqInit maxRx : Option (Virtq NetBuf)) with
  | none =>
    rw [hrx] at h
    cases h
  | some rxq =>
    cases htx : (virtqInit maxTx : Option (Virtq NetBuf)) with
    | none =>
      rw [hrx, htx] at h
      cases h
    | some txq =>
      rw [hrx, htx] at h
      dsimp only at h
      have hfilled := rxOk_init hrx
      generalize (List.range NUM_RX_BUFS).foldl giveRx rxq = filled at h hfilled
      obtain rfl := Option.some.inj h
      exact ⟨⟨(ok_virtqInit htx).1, owned_virtqInit htx⟩, hfilled⟩

/-- `send` keeps the queues and is safe. -/
theorem send_spec {net : NetState} (h : Inv net) (data : List UInt8) (polls : List VirtqUsed) :
    ∃ out net', send net data polls = some (out, net') ∧ Inv net' ∧
      ∀ hdr dat chain, out = .queued hdr dat chain → Contained chain ∧
        ∃ txq, drain polls net.txq = some (true, txq) ∧ Handed txq hdr dat := by
  unfold send
  split_ifs with hlen hready
  · exact ⟨_, _, rfl, h, by rintro _ _ _ ⟨⟩⟩
  · exact ⟨_, _, rfl, h, by rintro _ _ _ ⟨⟩⟩
  · obtain ⟨ended, txq, hdrain, htxq⟩ := h.tx.drain polls
    cases ended with
    | false =>
      rw [hdrain]
      exact ⟨_, _, rfl, ⟨htxq, h.rx⟩, by rintro _ _ _ ⟨⟩⟩
    | true =>
      have hfits : data.length ≤ TX_BUF_SIZE := not_lt.mp fun hlt => hlen (.inr hlt)
      obtain ⟨out, net', henq, htx, hrx, hout⟩ := enqueue_spec net htxq hfits
      rw [hdrain]
      refine ⟨out, net', henq, ⟨htx, hrx ▸ h.rx⟩, fun hdr dat chain heq => ?_⟩
      obtain ⟨hhanded, hchain⟩ := hout hdr dat chain heq
      exact ⟨hchain, txq, rfl, hhanded⟩

/-- Every operation is safe and keeps the queues. -/
theorem safe_step {net : NetState} (h : Inv net) (op : NetOp) :
    Safe net op ∧ Inv (net.step op) := by
  cases op with
  | send data polls =>
    obtain ⟨out, net', hsend, hinv, hout⟩ := send_spec h data polls
    refine ⟨⟨h.tx.ok.free, out, net', hsend, hout⟩, ?_⟩
    simpa [NetState.step, hsend] using hinv
  | pollRecv bufLen used =>
    obtain ⟨out, net', hrecv, hrx, htx, hout⟩ := pollRecv_spec h.rx bufLen used
    refine ⟨⟨h.tx.ok.free, out, net', hrecv, hout⟩, ?_⟩
    simpa [NetState.step, hrecv] using (⟨htx ▸ h.tx, hrx⟩ : Inv net')
  | receive rxBufs => exact ⟨h.tx.ok.free, h.tx, h.rx⟩

/-- Whatever the device reports as its sizes and writes to the used rings and the receive
buffers, every step of every run is safe, and at the end the transmit free list is exact and
the tables point to buffers of the driver. -/
theorem device_contained (maxRx maxTx : UInt32) (net : NetState) (h : init maxRx maxTx = some net)
    (ops : List NetOp) :
    Guarded NetState.step Safe net ops ∧ TxListed (run NetState.step net ops) ∧
      TablesOwned (run NetState.step net ops) := by
  refine ⟨guarded_of_steps Inv (fun s op hs => safe_step hs op) (inv_init h) ops, ?_⟩
  have hinv := run_invariant Inv (fun s op hs => (safe_step hs op).2) (inv_init h) ops
  exact ⟨hinv.tx.ok.free, fun i _ => hinv.tx.owned i, fun i hi => hinv.rx.points hi⟩

/-- The used ring of a device that has posted `idx` entries, all with this id. -/
def posted (idx : UInt16) (id : UInt32) : VirtqUsed := ⟨idx, fun _ => ⟨id, 1526⟩⟩

/-- The device completes the second descriptor of a frame, then the first one twice. -/
def forgedRun : List NetOp :=
  [.send [1, 2, 3] [posted 0 0], .send [4] [posted 2 1, posted 2 1, posted 2 1],
    .send [5] [posted 4 0, posted 4 0, posted 4 0], .pollRecv 100 (posted 1 3)]

/-- The forged completions are contained. -/
theorem device_contained_forgedRun :
    ∃ net, init 8 4 = some net ∧ Guarded NetState.step Safe net forgedRun ∧
      TxListed (run NetState.step net forgedRun) ∧ TablesOwned (run NetState.step net forgedRun) :=
  ⟨_, rfl, device_contained 8 4 _ rfl forgedRun⟩

end RobotOs.Drivers.VirtioNet
