import RobotOs.Ipc.Handle
import RobotOs.Ipc.IoRing
import RobotOs.Lib.Run

/-!
# Dispatch of ring entries

The page that a ring shares with its owner, `dispatch_sqe` and the passes over the submission
queue, of `io_ring.rs`.  The owner writes every word of an entry and the tail of the queue.
`dispatch_sqe` answers an entry itself or calls a device operation of the dispatch table; the
call is the result here.  What the operation does to the data buffer is left out.

`io_ring_submit` and `io_ring_process_ring` have the same loop.
-/

namespace RobotOs.Ipc.IoRing

open RobotOs.Ipc.Handle

def RING_SQ_SIZE : Nat := 32
def RING_CQ_SIZE : Nat := 32
def RING_DATA_BUF_SIZE : Nat := 2048

def IO_OK : Int32 := 0
def IO_ERR_INVALID_OP : Int32 := -1
def IO_ERR_INVALID_PARAM : Int32 := -2
def IO_ERR_NO_OPS : Int32 := -3
def IO_ERR_PERM : Int32 := -4

/-- `SqEntry`. -/
structure SqEntry where
  opcode : UInt16
  flags : UInt16
  param0 : UInt32
  param1 : UInt32
  param2 : UInt32
  addr : UInt16
  reg : UInt16
  userData : UInt64
  deriving DecidableEq, Repr

/-- `CqEntry`. -/
structure CqEntry where
  userData : UInt64
  result : Int32
  flags : UInt32
  deriving DecidableEq, Repr

/-- `IoRing`, without the contents of the data buffer. -/
structure Page where
  sqHead : UInt32
  sqTail : UInt32
  sqEntries : Fin RING_SQ_SIZE → SqEntry
  cqHead : UInt32
  cqTail : UInt32
  cqEntries : Fin RING_CQ_SIZE → CqEntry

/-- The opcodes that `dispatch_sqe` knows. -/
inductive Opcode where
  | nop
  | readSensor
  | writeGpio
  | readGpio
  | i2cRead
  | i2cWrite
  | pwmSet
  | motorSpeed
  | netSend
  | netRecv
  | cameraCapture
  | irqWait
  deriving DecidableEq, Repr

/-- The numbers `OP_NOP` to `OP_IRQ_WAIT`. -/
def Opcode.ofWord (word : UInt16) : Option Opcode :=
  [.nop, .readSensor, .writeGpio, .readGpio, .i2cRead, .i2cWrite, .pwmSet, .motorSpeed, .netSend,
    .netRecv, .cameraCapture, .irqWait][word.toNat]?

/-- A stretch of the data buffer. -/
structure Window where
  offset : Nat
  len : Nat
  deriving DecidableEq, Repr

/-- A call of `IoRingOps`, with the arguments that it gets. -/
inductive DeviceCall where
  | readSensor (sensorType : UInt32) (buf : Window)
  | writeGpio (pin value : UInt32)
  | readGpio (pin : UInt32)
  | i2cRead (bus addr reg : UInt32) (buf : Window)
  | i2cWrite (bus addr : UInt32) (data : Window)
  | pwmSet (channel duty : UInt32)
  | motorSpeed (left right : Int32)
  | netSend (fd : UInt32) (data : Window)
  | netRecv (fd : UInt32) (buf : Window)
  deriving DecidableEq, Repr

/-- What becomes of an entry: a status at once, or a call whose result is the status. -/
inductive Dispatched where
  | status (result : Int32)
  | device (call : DeviceCall)
  deriving DecidableEq, Repr

/-- What `dispatch_sqe` looks up: the handles, the owners of the sockets, the owner of the
ring. -/
structure Authority where
  handles : Handles
  netOwner : UInt32 → Option UInt32
  ownerTid : UInt32
  ownerPriv : Bool

/-- `ring_cap_ok`. -/
def ringCapOk (auth : Authority) (kind : HandleKind) (needWrite : Bool) : Bool :=
  auth.ownerPriv || handleOwnedBy auth.handles auth.ownerTid kind needWrite

/-- `need_cap!`, in front of the rest of an arm. -/
def needCap (auth : Authority) (kind : HandleKind) (write : Bool) (next : Dispatched) :
    Dispatched :=
  if ringCapOk auth kind write then next else .status IO_ERR_PERM

/-- `narrow_u8!`, in front of the rest of an arm. -/
def narrowU8 (v : UInt32) (next : UInt8 → Dispatched) : Dispatched :=
  if v > 255 then .status IO_ERR_INVALID_PARAM else next v.toUInt8

/-- The check of the owner of a socket, in front of the rest of an arm. -/
def needSocket (auth : Authority) (fd : UInt32) (next : Dispatched) : Dispatched :=
  if !auth.ownerPriv && auth.netOwner fd != some auth.ownerTid then .status IO_ERR_PERM else next

/-- `window_ok` on an offset and a length of 32 bits, in front of the call. -/
def inWindow (offset len : UInt32) (call : Window → DeviceCall) : Dispatched :=
  if offset.toNat + len.toNat ≤ RING_DATA_BUF_SIZE then .device (call ⟨offset.toNat, len.toNat⟩)
  else .status IO_ERR_INVALID_PARAM

/-- `dispatch_sqe`. -/
def dispatchSqe (auth : Authority) (sqe : SqEntry) : Dispatched :=
  let p0 := sqe.param0
  let p1 := sqe.param1
  let p2 := sqe.param2
  match Opcode.ofWord sqe.opcode with
  | some .nop => .status IO_OK
  | some .readSensor =>
    narrowU8 p0 fun ty =>
    needCap auth (.Sensor ty) false <|
    inWindow p1 p2 (.readSensor p0)
  | some .writeGpio => needCap auth (.Gpio p0) true (.device (.writeGpio p0 p1))
  | some .readGpio => needCap auth (.Gpio p0) false (.device (.readGpio p0))
  | some .i2cRead =>
    narrowU8 p0 fun bus =>
    narrowU8 sqe.addr.toUInt32 fun addr =>
    narrowU8 sqe.reg.toUInt32 fun reg =>
    needCap auth (.I2c bus addr) false <|
    inWindow p1 p2 (.i2cRead bus.toUInt32 addr.toUInt32 reg.toUInt32)
  | some .i2cWrite =>
    narrowU8 p0 fun bus =>
    narrowU8 sqe.addr.toUInt32 fun addr =>
    needCap auth (.I2c bus addr) true <|
    inWindow p1 p2 (.i2cWrite bus.toUInt32 addr.toUInt32)
  | some .pwmSet =>
    narrowU8 p0 fun channel =>
    needCap auth (.Pwm channel) true (.device (.pwmSet p0 p1))
  | some .motorSpeed =>
    needCap auth (.Motor 0) true <|
    needCap auth (.Motor 1) true (.device (.motorSpeed p0.toInt32 p1.toInt32))
  | some .netSend => needSocket auth p0 (inWindow p1 p2 (.netSend p0))
  | some .netRecv => needSocket auth p0 (inWindow p1 p2 (.netRecv p0))
  | some .cameraCapture => .status IO_OK
  | some .irqWait => .status IO_OK
  | none => .status IO_ERR_INVALID_OP

/-! ## The passes -/

/-- The dispatch table: a call has a result. -/
abbrev IoRingOps := DeviceCall → Int32

/-- `dispatch_sqe` with its call. -/
def complete (ops : IoRingOps) (auth : Authority) (sqe : SqEntry) : Int32 :=
  match dispatchSqe auth sqe with
  | .status result => result
  | .device call => ops call

/-- The entry at a free-running index of the submission queue. -/
def sqSlot (i : UInt32) : Fin RING_SQ_SIZE := ⟨i.toNat % RING_SQ_SIZE, Nat.mod_lt _ (by decide)⟩

/-- The entry at a free-running index of the completion queue. -/
def cqSlot (i : UInt32) : Fin RING_CQ_SIZE := ⟨i.toNat % RING_CQ_SIZE, Nat.mod_lt _ (by decide)⟩

/-- One turn of the loop: the entry at `head` is handled and its completion written. -/
def turn (ops : IoRingOps) (auth : Authority) (head : UInt32) (page : Page) : Page :=
  let sqe := page.sqEntries (sqSlot head)
  { page with
    cqEntries := Function.update page.cqEntries (cqSlot page.cqTail)
      ⟨sqe.userData, complete ops auth sqe, 0⟩
    cqTail := page.cqTail + 1 }

/-- The turns of a pass. -/
def turns (ops : IoRingOps) (auth : Authority) : Nat → UInt32 → Page → UInt32 × Page
  | 0, head, page => (head, page)
  | n + 1, head, page => turns ops auth n (head + 1) (turn ops auth head page)

/-- The number of entries that a pass handles. -/
def pending (page : Page) : Nat := min (page.sqTail - page.sqHead).toNat RING_SQ_SIZE

/-- `io_ring_process_ring`: the number of completions, and the page. -/
def processRing (ops : IoRingOps) (auth : Authority) (page : Page) : Nat × Page :=
  let out := turns ops auth (pending page) page.sqHead page
  (pending page, { out.2 with sqHead := out.1 })

/-- The pages by their physical addresses. -/
abbrev RingMemory := Nat → Page

/-- The lookups of a claimed ring. -/
def authority (handles : Handles) (netOwner : UInt32 → Option UInt32) (ownerTid : UInt32)
    (ownerPriv : Bool) : Authority := ⟨handles, netOwner, ownerTid, ownerPriv⟩

/-- `io_ring_submit`: the number of completions or an error, the pages that go back, the
table and the pages. -/
def ioRingSubmit (ops : Option IoRingOps) (handles : Handles)
    (netOwner : UInt32 → Option UInt32) (rings : Rings) (pages : RingMemory) (ringId : UInt32) :
    Except Int32 Nat × List Nat × Rings × RingMemory :=
  if ringId.toNat ≥ MAX_IO_RINGS then (.error IO_ERR_INVALID_PARAM, [], rings, pages)
  else
    match ops with
    | none => (.error IO_ERR_NO_OPS, [], rings, pages)
    | some ops =>
      match claimRing rings ringId with
      | (none, rings) => (.error IO_ERR_INVALID_PARAM, [], rings, pages)
      | (some (phys, tid, priv), rings) =>
        let out := processRing ops (authority handles netOwner tid priv) (pages phys)
        let (freed, rings) := releaseRing rings ringId
        (.ok out.1, freed, rings, Function.update pages phys out.2)

/-- One round of `io_ring_worker_poll`: what one ring contributes. -/
def workerRound (ops : IoRingOps) (handles : Handles) (netOwner : UInt32 → Option UInt32)
    (rings : Rings) (pages : RingMemory) (ringId : UInt32) : Nat × List Nat × Rings × RingMemory :=
  match claimRing rings ringId with
  | (none, rings) => (0, [], rings, pages)
  | (some (phys, tid, priv), rings) =>
    if (pages phys).sqHead = (pages phys).sqTail then
      let (freed, rings) := releaseRing rings ringId
      (0, freed, rings, pages)
    else
      let out := processRing ops (authority handles netOwner tid priv) (pages phys)
      let (freed, rings) := releaseRing rings ringId
      (out.1, freed, rings, Function.update pages phys out.2)

/-- The rounds of `io_ring_worker_poll`, with the count of each ring. -/
def workerRounds (ops : IoRingOps) (handles : Handles) (netOwner : UInt32 → Option UInt32) :
    List UInt32 → Rings → RingMemory → List Nat × List Nat × Rings × RingMemory
  | [], rings, pages => ([], [], rings, pages)
  | id :: ids, rings, pages =>
    let (count, freed, rings, pages) := workerRound ops handles netOwner rings pages id
    let (counts, freed', rings, pages) := workerRounds ops handles netOwner ids rings pages
    (count :: counts, freed ++ freed', rings, pages)

/-- `io_ring_worker_poll`: the counts of the rings, whose sum it returns. -/
def ioRingWorkerPoll (ops : Option IoRingOps) (handles : Handles)
    (netOwner : UInt32 → Option UInt32) (rings : Rings) (pages : RingMemory) :
    List Nat × List Nat × Rings × RingMemory :=
  match ops with
  | none => ([], [], rings, pages)
  | some ops =>
    workerRounds ops handles netOwner ((List.range MAX_IO_RINGS).map UInt32.ofNat) rings pages

/-! ## What a call needs -/

/-- The task has a valid handle of exactly this kind and resource, with the right to write
where that is needed. -/
def Holds (handles : Handles) (tid : UInt32) (kind : HandleKind) (write : Bool) : Prop :=
  ∃ i, (handles i).valid = true ∧ (handles i).ownerTask = tid ∧ (handles i).kind = kind ∧
    (write = true → (handles i).perms.write = true)

/-- The owner has the handles whose resource is the argument of the call, in its full width;
for a socket the owner has made it. -/
def Authorised (auth : Authority) : DeviceCall → Prop
  | .readSensor ty _ => ∃ id : UInt8, id.toUInt32 = ty ∧
      Holds auth.handles auth.ownerTid (.Sensor id) false
  | .writeGpio pin _ => Holds auth.handles auth.ownerTid (.Gpio pin) true
  | .readGpio pin => Holds auth.handles auth.ownerTid (.Gpio pin) false
  | .i2cRead bus addr _ _ => ∃ b a : UInt8, b.toUInt32 = bus ∧ a.toUInt32 = addr ∧
      Holds auth.handles auth.ownerTid (.I2c b a) false
  | .i2cWrite bus addr _ => ∃ b a : UInt8, b.toUInt32 = bus ∧ a.toUInt32 = addr ∧
      Holds auth.handles auth.ownerTid (.I2c b a) true
  | .pwmSet channel _ => ∃ id : UInt8, id.toUInt32 = channel ∧
      Holds auth.handles auth.ownerTid (.Pwm id) true
  | .motorSpeed _ _ => Holds auth.handles auth.ownerTid (.Motor 0) true ∧
      Holds auth.handles auth.ownerTid (.Motor 1) true
  | .netSend fd _ => auth.netOwner fd = some auth.ownerTid
  | .netRecv fd _ => auth.netOwner fd = some auth.ownerTid

/-- The stretch of the data buffer that a call uses. -/
def DeviceCall.window? : DeviceCall → Option Window
  | .readSensor _ buf => some buf
  | .i2cRead _ _ _ buf => some buf
  | .i2cWrite _ _ data => some data
  | .netSend _ data => some data
  | .netRecv _ buf => some buf
  | .writeGpio _ _ => none
  | .readGpio _ => none
  | .pwmSet _ _ => none
  | .motorSpeed _ _ => none

/-- The stretch lies in the data buffer. -/
def Inside (call : DeviceCall) : Prop :=
  ∀ w ∈ call.window?, w.offset + w.len ≤ RING_DATA_BUF_SIZE

section Dispatch

variable {auth : Authority} {call : DeviceCall} {next : Dispatched}

theorem holds_of_ringCapOk {kind : HandleKind} {write : Bool} (hpriv : auth.ownerPriv = false)
    (h : ringCapOk auth kind write = true) : Holds auth.handles auth.ownerTid kind write := by
  simp only [ringCapOk, hpriv, Bool.false_or, handleOwnedBy, List.any_eq_true] at h
  obtain ⟨i, -, hi⟩ := h
  simp only [Bool.and_eq_true, beq_iff_eq] at hi
  obtain ⟨⟨⟨hvalid, howner⟩, hwrite⟩, hkind⟩ := hi
  refine ⟨i, hvalid, howner, hkind, fun hw => ?_⟩
  simpa [hw] using hwrite

theorem needCap_eq_device {kind : HandleKind} {write : Bool} :
    needCap auth kind write next = .device call ↔
      ringCapOk auth kind write = true ∧ next = .device call := by
  unfold needCap
  split_ifs with h
  · simp [h]
  · simp [h]

theorem narrowU8_eq_device {v : UInt32} {next : UInt8 → Dispatched} :
    narrowU8 v next = .device call ↔ ∃ b : UInt8, b.toUInt32 = v ∧ next b = .device call := by
  unfold narrowU8
  split_ifs with h
  · refine iff_of_false (by simp) ?_
    rintro ⟨b, rfl, -⟩
    exact absurd (UInt32.lt_iff_toNat_lt.mp h) (by simpa using Nat.lt_succ_iff.mp b.toNat_lt)
  · have hv : v.toUInt8.toUInt32 = v := by
      have hle : v.toNat ≤ 255 := by simpa [UInt32.lt_iff_toNat_lt] using h
      apply UInt32.toNat.inj
      simp
      omega
    constructor
    · exact fun hn => ⟨_, hv, hn⟩
    · rintro ⟨b, rfl, hb⟩
      simpa using hb

theorem needSocket_eq_device {fd : UInt32} :
    needSocket auth fd next = .device call ↔
      (auth.ownerPriv = false → auth.netOwner fd = some auth.ownerTid) ∧ next = .device call := by
  unfold needSocket
  cases hpriv : auth.ownerPriv with
  | true => simp
  | false =>
    by_cases howner : auth.netOwner fd = some auth.ownerTid
    · simp [howner]
    · simp [howner]

theorem inWindow_eq_device {offset len : UInt32} {make : Window → DeviceCall} :
    inWindow offset len make = .device call ↔ offset.toNat + len.toNat ≤ RING_DATA_BUF_SIZE ∧
      make ⟨offset.toNat, len.toNat⟩ = call := by
  unfold inWindow
  split_ifs with h
  · simp [h]
  · simp [h]

/-- A call of an entry is authorised, unless the owner is a kernel task, and stays inside the
data buffer. -/
theorem dispatchSqe_device {sqe : SqEntry} (h : dispatchSqe auth sqe = .device call) :
    (auth.ownerPriv = false → Authorised auth call) ∧ Inside call := by
  unfold dispatchSqe at h
  cases hop : Opcode.ofWord sqe.opcode with
  | none =>
    rw [hop] at h
    cases h
  | some op =>
    rw [hop] at h
    cases op with
    | nop => cases h
    | cameraCapture => cases h
    | irqWait => cases h
    | readSensor =>
      obtain ⟨ty, hty, h⟩ := narrowU8_eq_device.mp h
      obtain ⟨hcap, h⟩ := needCap_eq_device.mp h
      obtain ⟨hwin, rfl⟩ := inWindow_eq_device.mp h
      exact ⟨fun hpriv => ⟨ty, hty, holds_of_ringCapOk hpriv hcap⟩, by rintro _ ⟨⟩; exact hwin⟩
    | writeGpio =>
      obtain ⟨hcap, h⟩ := needCap_eq_device.mp h
      cases h
      exact ⟨fun hpriv => holds_of_ringCapOk hpriv hcap, by rintro _ ⟨⟩⟩
    | readGpio =>
      obtain ⟨hcap, h⟩ := needCap_eq_device.mp h
      cases h
      exact ⟨fun hpriv => holds_of_ringCapOk hpriv hcap, by rintro _ ⟨⟩⟩
    | i2cRead =>
      obtain ⟨bus, -, h⟩ := narrowU8_eq_device.mp h
      obtain ⟨addr, -, h⟩ := narrowU8_eq_device.mp h
      obtain ⟨reg, -, h⟩ := narrowU8_eq_device.mp h
      obtain ⟨hcap, h⟩ := needCap_eq_device.mp h
      obtain ⟨hwin, rfl⟩ := inWindow_eq_device.mp h
      exact ⟨fun hpriv => ⟨bus, addr, rfl, rfl, holds_of_ringCapOk hpriv hcap⟩,
        by rintro _ ⟨⟩; exact hwin⟩
    | i2cWrite =>
      obtain ⟨bus, -, h⟩ := narrowU8_eq_device.mp h
      obtain ⟨addr, -, h⟩ := narrowU8_eq_device.mp h
      obtain ⟨hcap, h⟩ := needCap_eq_device.mp h
      obtain ⟨hwin, rfl⟩ := inWindow_eq_device.mp h
      exact ⟨fun hpriv => ⟨bus, addr, rfl, rfl, holds_of_ringCapOk hpriv hcap⟩,
        by rintro _ ⟨⟩; exact hwin⟩
    | pwmSet =>
      obtain ⟨channel, hchannel, h⟩ := narrowU8_eq_device.mp h
      obtain ⟨hcap, h⟩ := needCap_eq_device.mp h
      cases h
      exact ⟨fun hpriv => ⟨channel, hchannel, holds_of_ringCapOk hpriv hcap⟩, by rintro _ ⟨⟩⟩
    | motorSpeed =>
      obtain ⟨hleft, h⟩ := needCap_eq_device.mp h
      obtain ⟨hright, h⟩ := needCap_eq_device.mp h
      cases h
      exact ⟨fun hpriv => ⟨holds_of_ringCapOk hpriv hleft, holds_of_ringCapOk hpriv hright⟩,
        by rintro _ ⟨⟩⟩
    | netSend =>
      obtain ⟨hsocket, h⟩ := needSocket_eq_device.mp h
      obtain ⟨hwin, rfl⟩ := inWindow_eq_device.mp h
      exact ⟨hsocket, by rintro _ ⟨⟩; exact hwin⟩
    | netRecv =>
      obtain ⟨hsocket, h⟩ := needSocket_eq_device.mp h
      obtain ⟨hwin, rfl⟩ := inWindow_eq_device.mp h
      exact ⟨hsocket, by rintro _ ⟨⟩; exact hwin⟩

end Dispatch

/-! ## A pass under way -/

/-- The pass of the claim: where it reads, how many turns it has left, how many it had. -/
structure Pass where
  head : UInt32
  left : Nat
  handled : Nat
  deriving DecidableEq, Repr

/-- A page, and the pass over it that is under way.  The claim allows one. -/
structure Shared where
  page : Page
  pass : Option Pass

/-- What the owner does to the page, and the moves of a pass.  The tables may change between
two turns. -/
inductive RingOp where
  /-- The owner writes an entry and moves the tail. -/
  | submit (sqe : SqEntry)
  /-- The owner writes the tail. -/
  | setTail (tail : UInt32)
  /-- The owner writes the head of the completion queue. -/
  | consume (head : UInt32)
  /-- A pass claims the ring and reads the indices. -/
  | start
  /-- A turn of the loop. -/
  | turn (ops : IoRingOps) (auth : Authority)
  /-- The pass writes the head of the submission queue and releases the ring. -/
  | finish

def Shared.step (s : Shared) : RingOp → Shared
  | .submit sqe =>
    { s with page := { s.page with
        sqEntries := Function.update s.page.sqEntries (sqSlot s.page.sqTail) sqe
        sqTail := s.page.sqTail + 1 } }
  | .setTail tail => { s with page := { s.page with sqTail := tail } }
  | .consume head => { s with page := { s.page with cqHead := head } }
  | .start =>
    match s.pass with
    | some _ => s
    | none => { s with pass := some ⟨s.page.sqHead, pending s.page, 0⟩ }
  | .turn ops auth =>
    match s.pass with
    | some ⟨head, left + 1, handled⟩ =>
      ⟨IoRing.turn ops auth head s.page, some ⟨head + 1, left, handled + 1⟩⟩
    | _ => s
  | .finish =>
    match s.pass with
    | some ⟨head, 0, _⟩ => ⟨{ s.page with sqHead := head }, none⟩
    | _ => s

/-- The pass has had, and has left, no more turns than the queue has entries. -/
def Shared.Bounded (s : Shared) : Prop :=
  ∀ p ∈ s.pass, p.handled + p.left ≤ RING_SQ_SIZE

theorem Shared.Bounded.step {s : Shared} (h : s.Bounded) (op : RingOp) : (s.step op).Bounded := by
  cases op with
  | submit sqe => exact h
  | setTail tail => exact h
  | consume head => exact h
  | start =>
    unfold Shared.step
    cases hp : s.pass with
    | some p => exact h
    | none =>
      rintro p ⟨⟩
      exact (Nat.zero_add _).trans_le (Nat.min_le_right _ _)
  | turn ops auth =>
    simp only [Shared.step]
    split
    · next head left handled hp =>
      rintro p ⟨⟩
      have hle : handled + (left + 1) ≤ RING_SQ_SIZE := h _ hp
      exact (Nat.add_right_comm handled 1 left).trans_le hle
    · exact h
  | finish =>
    simp only [Shared.step]
    split
    · rintro p ⟨⟩
    · exact h

/-- The turns of a pass that the owner does not disturb are the turns of the loop. -/
theorem run_turns (ops : IoRingOps) (auth : Authority) (n : Nat) (head : UInt32) (page : Page)
    (handled : Nat) :
    Lib.Run.run Shared.step ⟨page, some ⟨head, n, handled⟩⟩ (List.replicate n (.turn ops auth)) =
      ⟨(turns ops auth n head page).2,
        some ⟨(turns ops auth n head page).1, 0, handled + n⟩⟩ := by
  induction n generalizing head page handled with
  | zero => rfl
  | succ n ih =>
    rw [List.replicate_succ, Lib.Run.run_cons]
    refine (ih _ _ _).trans ?_
    rw [Nat.add_assoc, Nat.add_comm 1 n]
    rfl

/-- `io_ring_process_ring` is a pass that the owner does not disturb. -/
theorem run_processRing (ops : IoRingOps) (auth : Authority) (page : Page) :
    Lib.Run.run Shared.step ⟨page, none⟩
        (.start :: (List.replicate (pending page) (.turn ops auth) ++ [.finish])) =
      ⟨(processRing ops auth page).2, none⟩ := by
  rw [Lib.Run.run_cons, Lib.Run.run_append]
  have hstart : Shared.step ⟨page, none⟩ .start =
      ⟨page, some ⟨page.sqHead, pending page, 0⟩⟩ := rfl
  rw [hstart, run_turns]
  rfl

/-! ## Every pass -/

theorem pending_le (page : Page) : pending page ≤ RING_SQ_SIZE := Nat.min_le_right _ _

theorem ioRingSubmit_le {ops : Option IoRingOps} {handles : Handles}
    {netOwner : UInt32 → Option UInt32} {rings : Rings} {pages : RingMemory} {ringId : UInt32}
    {count : Nat} (h : (ioRingSubmit ops handles netOwner rings pages ringId).1 = .ok count) :
    count ≤ RING_SQ_SIZE := by
  unfold ioRingSubmit at h
  split_ifs at h
  split at h
  · cases h
  · split at h
    · cases h
    · cases h
      exact pending_le _

theorem workerRound_le (ops : IoRingOps) (handles : Handles) (netOwner : UInt32 → Option UInt32)
    (rings : Rings) (pages : RingMemory) (ringId : UInt32) :
    (workerRound ops handles netOwner rings pages ringId).1 ≤ RING_SQ_SIZE := by
  unfold workerRound
  split
  · exact Nat.zero_le _
  · split_ifs
    · exact Nat.zero_le _
    · exact pending_le _

theorem workerRounds_le (ops : IoRingOps) (handles : Handles)
    (netOwner : UInt32 → Option UInt32) (ids : List UInt32) (rings : Rings) (pages : RingMemory) :
    ∀ count ∈ (workerRounds ops handles netOwner ids rings pages).1, count ≤ RING_SQ_SIZE := by
  induction ids generalizing rings pages with
  | nil => exact fun _ h => absurd h List.not_mem_nil
  | cons id ids ih =>
    intro count hcount
    rcases List.mem_cons.mp hcount with rfl | hrest
    · exact workerRound_le ops handles netOwner rings pages id
    · exact ih _ _ count hrest

theorem ioRingWorkerPoll_le (ops : Option IoRingOps) (handles : Handles)
    (netOwner : UInt32 → Option UInt32) (rings : Rings) (pages : RingMemory) :
    ∀ count ∈ (ioRingWorkerPoll ops handles netOwner rings pages).1, count ≤ RING_SQ_SIZE := by
  unfold ioRingWorkerPoll
  cases ops with
  | none => exact fun _ h => absurd h List.not_mem_nil
  | some ops => exact workerRounds_le ops handles netOwner _ rings pages

/-- Every call that an entry makes is authorised and inside the data buffer, whatever the
words of the entry.  No pass handles more than 32 entries, whatever the owner writes to the
page before and during it. -/
theorem dispatch_sound :
    (∀ auth sqe call, dispatchSqe auth sqe = .device call →
      (auth.ownerPriv = false → Authorised auth call) ∧ Inside call) ∧
    (∀ page ops, ∀ p ∈ (Lib.Run.run Shared.step ⟨page, none⟩ ops).pass,
      p.handled + p.left ≤ 32) ∧
    (∀ ops handles netOwner rings pages ringId count,
      (ioRingSubmit ops handles netOwner rings pages ringId).1 = .ok count → count ≤ 32) ∧
    ∀ ops handles netOwner rings pages,
      ∀ count ∈ (ioRingWorkerPoll ops handles netOwner rings pages).1, count ≤ 32 := by
  refine ⟨fun _ _ _ h => dispatchSqe_device h, fun page ops => ?_,
    fun _ _ _ _ _ _ _ h => ioRingSubmit_le h, ioRingWorkerPoll_le⟩
  have hinit : Shared.Bounded ⟨page, none⟩ := by rintro p ⟨⟩
  exact Lib.Run.run_invariant Shared.Bounded (fun s op h => h.step op) hinit ops

/-- Task 3 has no handle and one socket. -/
def socketOnly : Authority := ⟨fun _ => .empty, fun fd => if fd = 5 then some 3 else none, 3, false⟩

/-- A task without any handle sends on its socket. -/
theorem send_without_handle :
    dispatchSqe socketOnly ⟨8, 0, 5, 0, 16, 0, 0, 1⟩ = .device (.netSend 5 ⟨0, 16⟩) ∧
      ∀ i, (socketOnly.handles i).valid = false := by
  exact ⟨by decide +kernel, fun _ => rfl⟩

end RobotOs.Ipc.IoRing
