import RobotOs.Lib.Framing
import RobotOs.Lib.Run

/-!
# The TFTP client

`robot_os_tftp`, the read-only client of RFC 1350, and the loop of `tftp_client.rs` that
drives it at boot.  A file is sent in blocks of 512 bytes, and a short block ends it.  The
number of a block has 16 bits, so it wraps for files of 32 MiB and more.

The client keeps the number of the next block, not its index.  `Follows` relates the two: the
blocks that are consumed are the first ones of the file, and the number is the image of
their count.  A packet with the expected number is the expected packet when its index is
less than 65536 away from the expected one.  On the side of the old packets this follows
from the age of the packet.  On the side of the new ones it is the server that must wait.

The receive ring of `udp.rs` keeps 512 bytes of a datagram, and a full block has 516.  So the loop
takes every block for the last one, and a fetch returns at most 508 bytes of a file.
-/

namespace RobotOs.Net.Tftp

open RobotOs.Lib.Framing (Bytes)
open RobotOs.Lib.Run

def TFTP_PORT : UInt16 := 69
def TFTP_BLOCK_SIZE : Nat := 512
def TFTP_MAX_FILENAME_BYTES : Nat := 128
def TFTP_DATA_HEADER_BYTES : Nat := 4
def TFTP_ERROR_MIN_BYTES : Nat := 5
def RRQ_FIXED_OVERHEAD_BYTES : Nat := 9
def RRQ_MODE_BYTES : Bytes := [0x6F, 0x63, 0x74, 0x65, 0x74]
def OP_RRQ : UInt16 := 1
def OP_DATA : UInt16 := 3
def OP_ACK : UInt16 := 4
def OP_ERROR : UInt16 := 5

/-! ## Packets -/

/-- `u16::from_be_bytes`. -/
def ofBe (hi lo : UInt8) : UInt16 := UInt16.ofNat (256 * hi.toNat + lo.toNat)

/-- `u16::to_be_bytes`. -/
def toBe (n : UInt16) : Bytes := [UInt8.ofNat (n.toNat / 256), UInt8.ofNat n.toNat]

inductive TftpEncodeError where
  | emptyFilename
  | filenameTooLong
  | filenameHasNul
  | bufferTooSmall
  deriving DecidableEq, Repr

/-- `build_rrq` into a buffer of `outLen` bytes. -/
def buildRrq (filename : Bytes) (outLen : Nat) : Except TftpEncodeError Bytes :=
  if filename = [] then .error .emptyFilename
  else if filename.length > TFTP_MAX_FILENAME_BYTES then .error .filenameTooLong
  else if 0 ∈ filename then .error .filenameHasNul
  else if outLen < filename.length + RRQ_FIXED_OVERHEAD_BYTES then .error .bufferTooSmall
  else .ok (toBe OP_RRQ ++ filename ++ 0 :: RRQ_MODE_BYTES ++ [0])

/-- `build_ack`. -/
def buildAck (block : UInt16) : Bytes := toBe OP_ACK ++ toBe block

/-- `RxOutcome`. -/
inductive RxOutcome where
  | data (block : UInt16) (payload : Bytes) (isLast : Bool)
  | error (code : UInt16)
  | malformed
  deriving DecidableEq, Repr

def parseData : Bytes → RxOutcome
  | _ :: _ :: hi :: lo :: payload =>
    if payload.length > TFTP_BLOCK_SIZE then .malformed
    else .data (ofBe hi lo) payload (payload.length < TFTP_BLOCK_SIZE)
  | _ => .malformed

def parseError : Bytes → RxOutcome
  | _ :: _ :: hi :: lo :: _ :: _ => .error (ofBe hi lo)
  | _ => .malformed

/-- `parse_packet`. -/
def parsePacket (pkt : Bytes) : RxOutcome :=
  match pkt with
  | hi :: lo :: _ =>
    if ofBe hi lo = OP_DATA then parseData pkt
    else if ofBe hi lo = OP_ERROR then parseError pkt
    else .malformed
  | _ => .malformed

/-! ## The state machine -/

/-- `ClientAction`. -/
inductive ClientAction where
  | ackAndConsume
  | ackIgnore
  | complete
  | outOfOrder (expected received : UInt16)
  deriving DecidableEq, Repr

/-- `TftpClient`. -/
structure TftpClient where
  expectedBlock : UInt16
  complete : Bool
  deriving DecidableEq, Repr

def TftpClient.new : TftpClient := ⟨1, false⟩

/-- `on_data`. -/
def TftpClient.onData (c : TftpClient) (block : UInt16) (isLast : Bool) :
    ClientAction × TftpClient :=
  if c.complete then (.ackIgnore, c)
  else if block = c.expectedBlock then
    if isLast then (.complete, ⟨c.expectedBlock + 1, true⟩)
    else (.ackAndConsume, { c with expectedBlock := c.expectedBlock + 1 })
  else if block = c.expectedBlock - 1 then (.ackIgnore, c)
  else (.outOfOrder c.expectedBlock block, c)

/-- A client with the payloads that its caller has consumed. -/
structure Transfer where
  client : TftpClient
  consumed : List Bytes
  deriving DecidableEq, Repr

def Transfer.start : Transfer := ⟨.new, []⟩

/-- The caller consumes the payload when the action says so. -/
def Transfer.onData (s : Transfer) (block : UInt16) (payload : Bytes) (isLast : Bool) :
    ClientAction × Transfer :=
  match s.client.onData block isLast with
  | (.ackAndConsume, c) => (.ackAndConsume, ⟨c, s.consumed ++ [payload]⟩)
  | (.complete, c) => (.complete, ⟨c, s.consumed ++ [payload]⟩)
  | (action, c) => (action, ⟨c, s.consumed⟩)

/-- A datagram that arrives.  Packets that are not DATA leave the transfer as it is. -/
def Transfer.onPacket (s : Transfer) (pkt : Bytes) : Transfer :=
  match parsePacket pkt with
  | .data block payload isLast => (s.onData block payload isLast).2
  | _ => s

/-- A DATA packet changes nothing, or it has the expected number and its payload is
consumed. -/
theorem Transfer.onData_cases (s : Transfer) (block : UInt16) (payload : Bytes) (isLast : Bool) :
    (s.onData block payload isLast).2 = s ∨
      (s.client.complete = false ∧ block = s.client.expectedBlock ∧
        (s.onData block payload isLast).2 =
          ⟨⟨s.client.expectedBlock + 1, isLast⟩, s.consumed ++ [payload]⟩) := by
  unfold Transfer.onData TftpClient.onData
  by_cases hdone : s.client.complete = true
  · rw [if_pos hdone]
    exact .inl rfl
  · rw [if_neg hdone]
    rw [Bool.not_eq_true] at hdone
    by_cases hblock : block = s.client.expectedBlock
    · rw [if_pos hblock]
      refine .inr ⟨hdone, hblock, ?_⟩
      cases isLast with
      | true => rfl
      | false => rw [hdone]; rfl
    · rw [if_neg hblock]
      left
      split_ifs
      · rfl
      · rfl

/-! ## The loop of the kernel -/

/-- `TftpFetchError`, for the part of the fetch after its first send. -/
inductive TftpFetchError where
  | bufferOverflow
  | noReply
  | outOfOrderBlock (expected received : UInt16)
  | serverError (code : UInt16)
  | pollBudgetExhausted
  deriving DecidableEq, Repr

/-- A datagram that a poll finds in the receive ring, as it was sent.  `acked` says that the
acknowledgement could be sent. -/
structure Datagram where
  fromIp : Bytes
  fromPort : UInt16
  bytes : Bytes
  acked : Bool

def UDP_RX_PKT_MAX : Nat := 512

/-- What `UdpRxBuf::push` keeps of the bytes. -/
def Datagram.kept (g : Datagram) : Bytes := g.bytes.take UDP_RX_PKT_MAX

/-- The variables of the loop. -/
structure Fetch where
  transfer : Transfer
  serverTid : UInt16
  locked : Bool

/-- The variables before the first poll. -/
def Fetch.start : Fetch := ⟨.start, TFTP_PORT, false⟩

/-- The first DATA packet fixes the port of the server. -/
def Fetch.lock (s : Fetch) (fromPort : UInt16) : Fetch :=
  if s.locked then s else { s with serverTid := fromPort, locked := true }

/-- The loop of `fetch_inner`, over the answers of its polls, into a buffer of `dstLen`
bytes. -/
def fetchLoop (serverIp : Bytes) (dstLen : Nat) :
    List (Option Datagram) → Fetch → Except TftpFetchError Bytes
  | [], s => .error (if s.locked then .pollBudgetExhausted else .noReply)
  | none :: polls, s => fetchLoop serverIp dstLen polls s
  | some g :: polls, s =>
    if g.fromIp ≠ serverIp then fetchLoop serverIp dstLen polls s
    else if s.locked && g.fromPort ≠ s.serverTid then fetchLoop serverIp dstLen polls s
    else
      match parsePacket g.kept with
      | .error code => .error (.serverError code)
      | .malformed => fetchLoop serverIp dstLen polls s
      | .data block payload isLast =>
        let s := s.lock g.fromPort
        match s.transfer.onData block payload isLast with
        | (.ackAndConsume, t) =>
          if t.consumed.flatten.length > dstLen then .error .bufferOverflow
          else if !g.acked then .error .noReply
          else fetchLoop serverIp dstLen polls { s with transfer := t }
        | (.ackIgnore, t) =>
          if !g.acked then .error .noReply
          else fetchLoop serverIp dstLen polls { s with transfer := t }
        | (.complete, t) =>
          if t.consumed.flatten.length > dstLen then .error .bufferOverflow
          else if !g.acked then .error .noReply
          else .ok t.consumed.flatten
        | (.outOfOrder expected received, _) => .error (.outOfOrderBlock expected received)

/-! ## The blocks of a file -/

/-- The blocks of a file.  The last one is short, and may be empty. -/
def blocks (file : Bytes) : List Bytes :=
  (List.range (file.length / TFTP_BLOCK_SIZE + 1)).map fun k =>
    (file.drop (TFTP_BLOCK_SIZE * k)).take TFTP_BLOCK_SIZE

@[simp] theorem length_blocks (file : Bytes) :
    (blocks file).length = file.length / TFTP_BLOCK_SIZE + 1 := by
  simp [blocks]

@[simp] theorem getElem_blocks (file : Bytes) {k : Nat} (h : k < (blocks file).length) :
    (blocks file)[k] = (file.drop (TFTP_BLOCK_SIZE * k)).take TFTP_BLOCK_SIZE := by
  simp [blocks]

/-- The first blocks make up the first bytes. -/
theorem flatten_take_blocks (file : Bytes) (n : Nat) :
    ((List.range n).map fun k =>
      (file.drop (TFTP_BLOCK_SIZE * k)).take TFTP_BLOCK_SIZE).flatten =
        file.take (TFTP_BLOCK_SIZE * n) := by
  induction n with
  | zero => simp
  | succ n ih =>
    rw [List.range_succ, List.map_append, List.flatten_append, ih, Nat.mul_succ, List.take_add]
    simp

theorem flatten_blocks (file : Bytes) : (blocks file).flatten = file := by
  rw [blocks, flatten_take_blocks, List.take_of_length_le]
  have hmod := Nat.mod_lt file.length (y := TFTP_BLOCK_SIZE) (by decide)
  have hdiv := Nat.div_add_mod file.length TFTP_BLOCK_SIZE
  rw [Nat.mul_succ]
  omega

/-- A block is short exactly when it is the last one. -/
theorem length_block_lt_iff (file : Bytes) {k : Nat} (h : k < (blocks file).length) :
    (blocks file)[k].length < TFTP_BLOCK_SIZE ↔ k + 1 = (blocks file).length := by
  have hmod := Nat.mod_lt file.length (y := TFTP_BLOCK_SIZE) (by decide)
  have hdiv := Nat.div_add_mod file.length TFTP_BLOCK_SIZE
  rw [length_blocks] at h ⊢
  rw [getElem_blocks, List.length_take, List.length_drop]
  simp only [TFTP_BLOCK_SIZE] at *
  omega

theorem length_block_le (file : Bytes) {k : Nat} (h : k < (blocks file).length) :
    (blocks file)[k].length ≤ TFTP_BLOCK_SIZE := by
  rw [getElem_blocks, List.length_take]
  exact Nat.min_le_left _ _

/-! ## Deliveries -/

/-- A DATA packet. -/
def dataPacket (block : UInt16) (payload : Bytes) : Bytes := toBe OP_DATA ++ toBe block ++ payload

theorem ofBe_toBe (n : UInt16) : ofBe (UInt8.ofNat (n.toNat / 256)) (UInt8.ofNat n.toNat) = n := by
  apply UInt16.toNat_inj.mp
  have hn : n.toNat < 65536 := n.toNat_lt
  simp only [ofBe, UInt16.toNat_ofNat', UInt8.toNat_ofNat']
  omega

theorem parsePacket_dataPacket (block : UInt16) {payload : Bytes}
    (h : payload.length ≤ TFTP_BLOCK_SIZE) :
    parsePacket (dataPacket block payload) =
      .data block payload (payload.length < TFTP_BLOCK_SIZE) := by
  have hop : ofBe (UInt8.ofNat (OP_DATA.toNat / 256)) (UInt8.ofNat OP_DATA.toNat) = OP_DATA :=
    ofBe_toBe OP_DATA
  simp only [dataPacket, toBe, List.cons_append, List.nil_append, parsePacket, parseData,
    hop, if_true, ofBe_toBe, if_neg (Nat.not_lt.mpr h)]

/-- The packet of the block with index `k`.  The numbers start at 1. -/
def packet (file : Bytes) (k : Fin (blocks file).length) : Bytes :=
  dataPacket (UInt16.ofNat (k + 1)) ((blocks file).get k)

/-- A transfer with the number of the newest block that has arrived. -/
structure Delivery where
  transfer : Transfer
  newest : Nat

namespace Delivery

def start : Delivery := ⟨.start, 0⟩

/-- The packet of a block arrives. -/
def deliver (file : Bytes) (s : Delivery) (k : Fin (blocks file).length) : Delivery :=
  ⟨s.transfer.onPacket (packet file k), max s.newest (k + 1)⟩

/-- The packet is at most 65534 blocks older than the newest one. -/
def Recent (file : Bytes) (s : Delivery) (k : Fin (blocks file).length) : Prop :=
  s.newest ≤ k + 1 + 65534

/-- The packet is at most 65535 blocks ahead of the next block of the client. -/
def Awaited (file : Bytes) (s : Delivery) (k : Fin (blocks file).length) : Prop :=
  k ≤ s.transfer.consumed.length + 65535

end Delivery

/-- The transfer has consumed the first blocks of the file. -/
structure Follows (file : Bytes) (s : Delivery) : Prop where
  blocks : s.transfer.consumed = (blocks file).take s.transfer.consumed.length
  expected : s.transfer.client.expectedBlock = UInt16.ofNat (s.transfer.consumed.length + 1)
  newest : s.transfer.consumed.length ≤ s.newest
  complete : s.transfer.client.complete = true ↔
    s.transfer.consumed.length = (Tftp.blocks file).length

theorem follows_start (file : Bytes) : Follows file .start where
  blocks := rfl
  expected := rfl
  newest := le_rfl
  complete := by simp [Delivery.start, Transfer.start, TftpClient.new]

/-- A number names one index among 65536 neighbours. -/
theorem index_eq_of_number {k n : Nat} (h : UInt16.ofNat (k + 1) = UInt16.ofNat (n + 1))
    (hold : n ≤ k + 65535) (hnew : k ≤ n + 65535) : k = n := by
  have hmod := congrArg UInt16.toNat h
  simp only [UInt16.toNat_ofNat'] at hmod
  omega

theorem onPacket_packet (s : Transfer) (file : Bytes) (k : Fin (blocks file).length) :
    s.onPacket (packet file k) = (s.onData (UInt16.ofNat (k + 1)) ((blocks file).get k)
      (((blocks file).get k).length < TFTP_BLOCK_SIZE)).2 := by
  have hlength : ((blocks file).get k).length ≤ TFTP_BLOCK_SIZE := length_block_le file k.isLt
  rw [Transfer.onPacket, packet, parsePacket_dataPacket _ hlength]

theorem Follows.deliver {file : Bytes} {s : Delivery} {k : Fin (Tftp.blocks file).length}
    (h : Follows file s) (hrecent : s.Recent file k) (hawaited : s.Awaited file k) :
    Follows file (s.deliver file k) := by
  unfold Delivery.deliver
  rw [onPacket_packet]
  obtain hsame | ⟨hopen, hnumber, hnext⟩ := s.transfer.onData_cases (UInt16.ofNat (k + 1))
    ((Tftp.blocks file).get k) (((Tftp.blocks file).get k).length < TFTP_BLOCK_SIZE)
  · rw [hsame]
    exact ⟨h.blocks, h.expected, h.newest.trans (Nat.le_max_left _ _), h.complete⟩
  · -- the packet has the expected number, so it is the expected packet
    have hindex : (k : Nat) = s.transfer.consumed.length := by
      refine index_eq_of_number (hnumber.trans h.expected) ?_ hawaited
      have hnewest := h.newest
      unfold Delivery.Recent at hrecent
      omega
    rw [hnext]
    have hlt : s.transfer.consumed.length < (Tftp.blocks file).length := hindex ▸ k.isLt
    refine ⟨?_, ?_, ?_, ?_⟩
    · rw [List.length_append, List.length_singleton, List.take_succ_eq_append_getElem hlt,
        ← h.blocks, List.get_eq_getElem]
      simp only [hindex]
    · rw [List.length_append, List.length_singleton, UInt16.ofNat_add, ← h.expected]
      rfl
    · rw [List.length_append, List.length_singleton, ← hindex]
      exact Nat.le_max_right _ _
    · rw [List.length_append, List.length_singleton, ← hindex, decide_eq_true_iff,
        List.get_eq_getElem]
      exact length_block_lt_iff file k.isLt

/-- In every delivery sequence whose packets are recent and awaited, the payloads that are
consumed are the first blocks of the file, and all of them at completion. -/
theorem consumed_prefix (file : Bytes) {deliveries : List (Fin (blocks file).length)}
    (h : Guarded (Delivery.deliver file) (fun s k => s.Recent file k ∧ s.Awaited file k)
      .start deliveries) :
    let t := (run (Delivery.deliver file) .start deliveries).transfer
    t.consumed = (blocks file).take t.consumed.length ∧ t.consumed.flatten <+: file ∧
      (t.client.complete = true → t.consumed.flatten = file) := by
  intro t
  have hfollows : Follows file (run (Delivery.deliver file) .start deliveries) :=
    run_invariant_of_guarded (Follows file) (fun s k hs hk => hs.deliver hk.1 hk.2)
      (follows_start file) h
  refine ⟨hfollows.blocks, ?_, fun hdone => ?_⟩
  · have hprefix : t.consumed <+: blocks file := by
      rw [hfollows.blocks]
      exact List.take_prefix _ _
    have hflat : t.consumed.flatten <+: (blocks file).flatten := by
      obtain ⟨rest, hrest⟩ := hprefix
      exact ⟨rest.flatten, by rw [← hrest, List.flatten_append]⟩
    rwa [flatten_blocks] at hflat
  · have hall : t.consumed = blocks file := by
      rw [hfollows.blocks, hfollows.complete.mp hdone, List.take_length]
    rw [hall, flatten_blocks]

/-- A file of at most 65535 blocks needs no condition. -/
theorem guarded_of_length_le (file : Bytes) (hfile : (blocks file).length ≤ 65535)
    (deliveries : List (Fin (blocks file).length)) :
    Guarded (Delivery.deliver file) (fun s k => s.Recent file k ∧ s.Awaited file k)
      .start deliveries := by
  suffices h : ∀ s : Delivery, s.newest ≤ (blocks file).length →
      Guarded (Delivery.deliver file) (fun s k => s.Recent file k ∧ s.Awaited file k)
        s deliveries from h .start (Nat.zero_le _)
  induction deliveries with
  | nil => exact fun _ _ => trivial
  | cons k deliveries ih =>
    intro s hs
    have hk := k.isLt
    refine ⟨⟨?_, ?_⟩, ih _ (max_le hs k.isLt)⟩
    · unfold Delivery.Recent
      omega
    · unfold Delivery.Awaited
      omega

/-- Three blocks. -/
def sampleFile : Bytes := List.replicate 1030 7

theorem length_blocks_sampleFile : (blocks sampleFile).length = 3 := by
  rw [length_blocks, sampleFile, List.length_replicate]
  rfl

/-- The blocks arrive in the wrong order, and then once more. -/
@[irreducible]
def sampleDeliveries : List (Fin (blocks sampleFile).length) :=
  (List.finRange _).reverse ++ List.finRange _

theorem consumed_prefix_sampleFile :
    let t := (run (Delivery.deliver sampleFile) .start sampleDeliveries).transfer
    t.client.complete = true ∧ t.consumed.flatten = sampleFile := by
  have hdone : (run (Delivery.deliver sampleFile) .start
    sampleDeliveries).transfer.client.complete = true := by decide +kernel
  have hsmall : (blocks sampleFile).length ≤ 65535 := by
    rw [length_blocks_sampleFile]
    omega
  have hguard := guarded_of_length_le sampleFile hsmall sampleDeliveries
  obtain ⟨-, -, hwhole⟩ := consumed_prefix sampleFile hguard
  exact ⟨hdone, hwhole hdone⟩

/-! ## What the kernel returns -/

@[simp] theorem Fetch.transfer_lock (s : Fetch) (fromPort : UInt16) :
    (s.lock fromPort).transfer = s.transfer := by
  unfold Fetch.lock
  split_ifs
  · rfl
  · rfl

/-- A block that is cut counts as the last one. -/
theorem isLast_of_kept {g : Datagram} {block : UInt16} {payload : Bytes} {isLast : Bool}
    (h : parsePacket g.kept = .data block payload isLast) : isLast = true := by
  have hlen : g.kept.length ≤ UDP_RX_PKT_MAX := List.length_take_le _ _
  unfold parsePacket parseData parseError at h
  split at h
  · next hi lo rest heq =>
    rw [heq] at hlen h
    split_ifs at h
    · split at h
      · next heq' =>
        split_ifs at h
        injection h with _ hpayload hlast
        rw [← hlast, hpayload, decide_eq_true_eq]
        rw [heq'] at hlen
        simp only [List.length_cons, hpayload, UDP_RX_PKT_MAX, TFTP_BLOCK_SIZE] at hlen ⊢
        omega
      · cases h
    · split at h <;> cases h
  · cases h

/-- A new client takes block 1, and has seen block 0. -/
theorem Transfer.onData_start (block : UInt16) (payload : Bytes) :
    Transfer.start.onData block payload true =
      if block = 1 then (.complete, ⟨⟨2, true⟩, [payload]⟩)
      else if block = 0 then (.ackIgnore, .start)
      else (.outOfOrder 1 block, .start) := by
  by_cases hone : block = 1
  · subst hone
    rfl
  by_cases hzero : block = 0
  · subst hzero
    rfl
  simp [Transfer.onData, TftpClient.onData, Transfer.start, TftpClient.new, hone, hzero]

/-- A fetch that succeeds has taken one packet, the one with the number 1. -/
theorem fetchLoop_ok {serverIp : Bytes} {dstLen : Nat} {polls : List (Option Datagram)}
    {s : Fetch} {bytes : Bytes} (hs : s.transfer = .start)
    (h : fetchLoop serverIp dstLen polls s = .ok bytes) :
    ∃ g, some g ∈ polls ∧ g.fromIp = serverIp ∧ parsePacket g.kept = .data 1 bytes true := by
  induction polls generalizing s with
  | nil => cases h
  | cons poll polls ih =>
    have hlater : ∀ s' : Fetch, s'.transfer = .start →
        fetchLoop serverIp dstLen polls s' = .ok bytes →
        ∃ g, some g ∈ poll :: polls ∧ g.fromIp = serverIp ∧
          parsePacket g.kept = .data 1 bytes true := by
      intro s' hs' h'
      obtain ⟨g, hmem, hg⟩ := ih hs' h'
      exact ⟨g, List.mem_cons_of_mem _ hmem, hg⟩
    cases poll with
    | none => exact hlater s hs h
    | some g =>
      unfold fetchLoop at h
      by_cases hip : g.fromIp ≠ serverIp
      · rw [if_pos hip] at h
        exact hlater s hs h
      rw [if_neg hip] at h
      by_cases hport : (s.locked && decide (g.fromPort ≠ s.serverTid)) = true
      · rw [if_pos hport] at h
        exact hlater s hs h
      rw [if_neg hport] at h
      cases hparse : parsePacket g.kept with
      | error code =>
        rw [hparse] at h
        cases h
      | malformed =>
        rw [hparse] at h
        exact hlater s hs h
      | data block payload isLast =>
        obtain rfl := isLast_of_kept hparse
        rw [hparse] at h
        dsimp only at h
        rw [Fetch.transfer_lock, hs, Transfer.onData_start] at h
        by_cases hone : block = 1
        · rw [if_pos hone] at h
          dsimp only at h
          split_ifs at h
          refine ⟨g, List.mem_cons_self, not_not.mp hip, ?_⟩
          rw [hparse, hone, ← Except.ok.inj h]
          simp
        rw [if_neg hone] at h
        by_cases hzero : block = 0
        · rw [if_pos hzero] at h
          dsimp only at h
          split_ifs at h
          exact hlater { s.lock g.fromPort with transfer := .start } rfl h
        · rw [if_neg hzero] at h
          cases h

/-- A packet of the file, or nothing that arrives as a DATA packet. -/
def ServedFrom (file : Bytes) (g : Datagram) : Prop :=
  (∃ k, g.bytes = packet file k) ∨
    ∀ block payload isLast, parsePacket g.kept ≠ .data block payload isLast

/-- When the server sends packets of a file of at most 65536 blocks, the bytes of a successful
fetch are the first 508 of the file, however the packets are lost, repeated and reordered, and
whatever other hosts send. -/
theorem fetchLoop_returns_front {file serverIp : Bytes} {dstLen : Nat}
    {polls : List (Option Datagram)} {bytes : Bytes} (hfile : (blocks file).length ≤ 65536)
    (hserver : ∀ g, some g ∈ polls → g.fromIp = serverIp → ServedFrom file g)
    (h : fetchLoop serverIp dstLen polls .start = .ok bytes) :
    bytes = file.take (UDP_RX_PKT_MAX - TFTP_DATA_HEADER_BYTES) := by
  obtain ⟨g, hmem, hip, hparse⟩ := fetchLoop_ok rfl h
  obtain ⟨k, hk⟩ | hother := hserver g hmem hip
  · have hkept : g.kept = dataPacket (UInt16.ofNat (k + 1)) (((blocks file).get k).take 508) := by
      rw [Datagram.kept, hk]
      rfl
    rw [hkept, parsePacket_dataPacket _ ((List.length_take_le _ _).trans (by decide))] at hparse
    injection hparse with hnumber hbytes
    have hzero : (k : Nat) = 0 := index_eq_of_number hnumber (by omega) (by omega)
    rw [← hbytes, List.get_eq_getElem, getElem_blocks, hzero, Nat.mul_zero, List.drop_zero,
      List.take_take]
    rfl
  · exact absurd hparse (hother 1 bytes true)

/-- Every block comes twice. -/
def samplePolls : List (Option Datagram) :=
  (List.finRange _).flatMap fun k =>
    List.replicate 2 (some ⟨[10, 0, 0, 1], 3000, packet sampleFile k, true⟩)

/-- Less than half of the file is fetched. -/
theorem fetchLoop_returns_front_sampleFile :
    ∃ bytes, fetchLoop [10, 0, 0, 1] 2048 samplePolls .start = .ok bytes ∧
      bytes = sampleFile.take 508 := by
  have h : fetchLoop [10, 0, 0, 1] 2048 samplePolls .start = .ok (sampleFile.take 508) := by
    decide +kernel
  refine ⟨_, h, fetchLoop_returns_front ?_ (fun g hg _ => ?_) h⟩
  · rw [length_blocks_sampleFile]
    omega
  · obtain ⟨k, -, hk⟩ := List.mem_flatMap.mp hg
    cases List.eq_of_mem_replicate hk
    exact .inl ⟨k, rfl⟩

/-! ## A server that does not wait -/

/-- A file of `n` full blocks and a short one. -/
def longFile (n : Nat) : Bytes := List.replicate (TFTP_BLOCK_SIZE * n) 0 ++ [1]

theorem length_longFile (n : Nat) : (longFile n).length = TFTP_BLOCK_SIZE * n + 1 := by
  simp [longFile]

theorem length_blocks_longFile (n : Nat) : (blocks (longFile n)).length = n + 1 := by
  rw [length_blocks, length_longFile]
  simp only [TFTP_BLOCK_SIZE]
  omega

/-- The index of a block of a long file. -/
def longIndex {n : Nat} (k : Fin (n + 1)) : Fin (blocks (longFile n)).length :=
  Fin.cast (length_blocks_longFile n).symm k

/-- The first block arrives, and then the last one. -/
def skipped (n : Nat) : List (Fin (blocks (longFile n)).length) :=
  [longIndex 0, longIndex (Fin.last n)]

theorem skipped_recent (n : Nat) :
    Guarded (Delivery.deliver (longFile n)) (fun s k => s.Recent (longFile n) k) .start
      (skipped n) := by
  refine ⟨?_, ?_, trivial⟩
  · exact Nat.zero_le _
  · change max 0 (0 + 1) ≤ n + 1 + 65534
    omega

/-- The block that a long index names is short only at the end. -/
theorem length_longBlock_lt_iff {n : Nat} (k : Fin (n + 1)) :
    ((blocks (longFile n)).get (longIndex k)).length < TFTP_BLOCK_SIZE ↔ (k : Nat) = n := by
  have hshort := length_block_lt_iff (longFile n) (longIndex k).isLt
  have hlength := length_blocks_longFile n
  have hindex : (longIndex k : Nat) = k := rfl
  rw [List.get_eq_getElem, hshort]
  omega

/-- The second of the two packets is consumed when it has the number 2. -/
theorem skipped_transfer {n : Nat} (hpos : 0 < n) (hn : UInt16.ofNat (n + 1) = 2) :
    (run (Delivery.deliver (longFile n)) .start (skipped n)).transfer =
      ⟨⟨3, true⟩, [(blocks (longFile n)).get (longIndex 0),
        (blocks (longFile n)).get (longIndex (Fin.last n))]⟩ := by
  have hfull : ¬ ((blocks (longFile n)).get (longIndex 0)).length < TFTP_BLOCK_SIZE :=
    fun hlt => hpos.ne ((length_longBlock_lt_iff 0).mp hlt)
  have hshort :
      ((blocks (longFile n)).get (longIndex (Fin.last n))).length < TFTP_BLOCK_SIZE :=
    (length_longBlock_lt_iff (Fin.last n)).mpr rfl
  have hfirst : Transfer.start.onPacket (packet (longFile n) (longIndex 0)) =
      ⟨⟨2, false⟩, [(blocks (longFile n)).get (longIndex 0)]⟩ := by
    rw [onPacket_packet, decide_eq_false hfull]
    rfl
  have hsecond : (⟨⟨2, false⟩, [(blocks (longFile n)).get (longIndex 0)]⟩ : Transfer).onPacket
      (packet (longFile n) (longIndex (Fin.last n))) =
        ⟨⟨3, true⟩, [(blocks (longFile n)).get (longIndex 0),
          (blocks (longFile n)).get (longIndex (Fin.last n))]⟩ := by
    have hnumber : UInt16.ofNat ((longIndex (Fin.last n) : Nat) + 1) = 2 := hn
    rw [onPacket_packet, decide_eq_true hshort, hnumber]
    rfl
  rw [← hsecond, ← hfirst]
  rfl

/-- The client takes the file for complete and has two blocks of it. -/
theorem skipped_incomplete {n : Nat} (hlong : 1 < n) (hn : UInt16.ofNat (n + 1) = 2) :
    let t := (run (Delivery.deliver (longFile n)) .start (skipped n)).transfer
    t.client.complete = true ∧ t.consumed.flatten ≠ longFile n := by
  intro t
  have ht : t = _ := skipped_transfer (Nat.zero_lt_of_lt hlong) hn
  refine ⟨by rw [ht], fun hall => ?_⟩
  have hfirst := length_block_le (longFile n) (longIndex (0 : Fin (n + 1))).isLt
  have hsecond := length_block_le (longFile n) (longIndex (Fin.last n)).isLt
  have hlength := congrArg List.length hall
  rw [length_longFile, ht, List.length_flatten] at hlength
  simp only [List.map_cons, List.map_nil, List.sum_cons, List.sum_nil, List.get_eq_getElem,
    TFTP_BLOCK_SIZE] at hlength hfirst hsecond
  omega

/-- The second of 65538 blocks is lost, and the last one has its number. -/
theorem skipped_blocks_lost :
    let t := (run (Delivery.deliver (longFile 65537)) .start (skipped 65537)).transfer
    Guarded (Delivery.deliver (longFile 65537)) (fun s k => s.Recent (longFile 65537) k) .start
        (skipped 65537) ∧
      t.client.complete = true ∧ t.consumed.flatten ≠ longFile 65537 :=
  ⟨skipped_recent 65537, skipped_incomplete (by omega) (by decide)⟩

end RobotOs.Net.Tftp
