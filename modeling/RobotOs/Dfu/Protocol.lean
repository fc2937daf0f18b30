import RobotOs.Lib.Framing

/-!
# The DFU crate

`robot_os_dfu`: the requests on the control pipe, the state machine of DFU 1.1, and the
accumulator that puts the chunks of a download into a staging buffer.  The machine counts
the bytes that the host announces, and the accumulator the bytes that arrive.
-/

namespace RobotOs.Dfu

open RobotOs.Lib.Framing (Bytes)

/-! ## Requests -/

def REQ_TYPE_CLASS_INTERFACE_OUT : UInt8 := 0x21
def REQ_TYPE_CLASS_INTERFACE_IN : UInt8 := 0xA1

/-- `SetupPacket`. -/
structure SetupPacket where
  bmRequestType : UInt8
  bRequest : UInt8
  wValue : Nat
  wIndex : Nat
  wLength : Nat
  deriving DecidableEq, Repr

/-- `u16::from_le_bytes`. -/
def ofLe (lo hi : UInt8) : Nat := lo.toNat + 256 * hi.toNat

/-- `SetupPacket::from_bytes`. -/
def SetupPacket.fromBytes : Bytes → Option SetupPacket
  | b0 :: b1 :: b2 :: b3 :: b4 :: b5 :: b6 :: b7 :: _ =>
    some ⟨b0, b1, ofLe b2 b3, ofLe b4 b5, ofLe b6 b7⟩
  | _ => none

/-- `DfuRequestType`. -/
inductive DfuRequestType where
  | out
  | in
  deriving DecidableEq, Repr

/-- `DfuRequest`. -/
inductive DfuRequest where
  | detach (detachTimeoutMs : Nat)
  | dnload (blockNum len : Nat)
  | upload (blockNum len : Nat)
  | getStatus
  | clrStatus
  | getState
  | abort
  deriving DecidableEq, Repr

/-- The request of a code. -/
def DfuRequest.ofCode (pkt : SetupPacket) : Option DfuRequest :=
  match pkt.bRequest with
  | 0 => some (.detach pkt.wValue)
  | 1 => some (.dnload pkt.wValue pkt.wLength)
  | 2 => some (.upload pkt.wValue pkt.wLength)
  | 3 => some .getStatus
  | 4 => some .clrStatus
  | 5 => some .getState
  | 6 => some .abort
  | _ => none

/-- `parse_setup_packet`. -/
def parseSetupPacket (pkt : SetupPacket) : Option (DfuRequestType × DfuRequest) :=
  if pkt.bmRequestType = REQ_TYPE_CLASS_INTERFACE_OUT then
    (DfuRequest.ofCode pkt).map fun r => (.out, r)
  else if pkt.bmRequestType = REQ_TYPE_CLASS_INTERFACE_IN then
    (DfuRequest.ofCode pkt).map fun r => (.in, r)
  else none

/-! ## The state machine -/

/-- `DfuState`. -/
inductive DfuState where
  | appIdle
  | appDetach
  | dfuIdle
  | dnloadSync
  | dnloadBusy
  | dnloadIdle
  | manifestSync
  | manifest
  | manifestWaitReset
  | uploadIdle
  | error
  deriving DecidableEq, Repr

namespace DfuState

def asU8 : DfuState → UInt8
  | appIdle => 0
  | appDetach => 1
  | dfuIdle => 2
  | dnloadSync => 3
  | dnloadBusy => 4
  | dnloadIdle => 5
  | manifestSync => 6
  | manifest => 7
  | manifestWaitReset => 8
  | uploadIdle => 9
  | error => 10

def acceptsDnload : DfuState → Bool
  | dfuIdle | dnloadIdle => true
  | _ => false

def pollTimeoutMs : DfuState → Nat
  | dnloadBusy => 5
  | manifest => 25
  | _ => 0

end DfuState

def STATUS_OK : UInt8 := 0x00
def STATUS_ERR_WRITE : UInt8 := 0x03
def STATUS_ERR_ADDRESS : UInt8 := 0x08
def STATUS_ERR_NOTDONE : UInt8 := 0x09
def STATUS_ERR_STALLEDPKT : UInt8 := 0x0F

def USIZE_MAX : Nat := 18446744073709551615

/-- `DfuStateMachine`. -/
structure DfuStateMachine where
  state : DfuState
  lastStatus : UInt8
  bytesWritten : Nat
  maxImageSize : Nat
  transferSize : Nat
  deriving DecidableEq, Repr

namespace DfuStateMachine

/-- `new_dfu_mode`. -/
def newDfuMode (maxImageSize transferSize : Nat) : DfuStateMachine :=
  ⟨.dfuIdle, STATUS_OK, 0, maxImageSize, transferSize⟩

variable (m : DfuStateMachine)

/-- `into_error`: the error and the machine after it. -/
def intoError (code : UInt8) : Except UInt8 Unit × DfuStateMachine :=
  (.error code, { m with state := .error, lastStatus := code })

/-- `fail`. -/
def fail (code : UInt8) : DfuStateMachine := (m.intoError code).2

/-- The six bytes of `status().encode()`. -/
def status : Bytes :=
  [m.lastStatus, UInt8.ofNat m.state.pollTimeoutMs, UInt8.ofNat (m.state.pollTimeoutMs / 256),
    UInt8.ofNat (m.state.pollTimeoutMs / 65536), m.state.asU8, 0]

def detach : Except UInt8 Unit × DfuStateMachine :=
  if m.state ≠ .appIdle then m.intoError STATUS_ERR_STALLEDPKT
  else (.ok (), { m with state := .appDetach })

def dnload (chunkLen : Nat) : Except UInt8 Unit × DfuStateMachine :=
  if !m.state.acceptsDnload then m.intoError STATUS_ERR_STALLEDPKT
  else if chunkLen = 0 then (.ok (), { m with state := .manifestSync })
  else if chunkLen > m.transferSize then m.intoError STATUS_ERR_STALLEDPKT
  else
    let newTotal := min (m.bytesWritten + chunkLen) USIZE_MAX
    if newTotal > m.maxImageSize then m.intoError STATUS_ERR_ADDRESS
    else (.ok (), { m with bytesWritten := newTotal, state := .dnloadSync })

def finishSync : Except UInt8 Unit × DfuStateMachine :=
  match m.state with
  | .dnloadSync => (.ok (), { m with state := .dnloadIdle })
  | .manifestSync => (.ok (), { m with state := .manifest })
  | _ => m.intoError STATUS_ERR_STALLEDPKT

def finishManifest : Except UInt8 Unit × DfuStateMachine :=
  if m.state ≠ .manifest then m.intoError STATUS_ERR_STALLEDPKT
  else (.ok (), { m with state := .manifestWaitReset })

def abort : Except UInt8 Unit × DfuStateMachine :=
  match m.state with
  | .dfuIdle | .dnloadSync | .dnloadIdle | .manifestSync | .uploadIdle =>
    (.ok (), { m with state := .dfuIdle, bytesWritten := 0, lastStatus := STATUS_OK })
  | _ => m.intoError STATUS_ERR_STALLEDPKT

def clrStatus : Except UInt8 Unit × DfuStateMachine :=
  if m.state ≠ .error then m.intoError STATUS_ERR_STALLEDPKT
  else (.ok (), { m with state := .dfuIdle, lastStatus := STATUS_OK, bytesWritten := 0 })

/-! The transitions change the state and the last status.  Only three of them change the
count. -/

/-- The machine has the same count and the same limits. -/
def SameCount (m m' : DfuStateMachine) : Prop :=
  m'.bytesWritten = m.bytesWritten ∧ m'.maxImageSize = m.maxImageSize ∧
    m'.transferSize = m.transferSize

theorem SameCount.trans {m m' m'' : DfuStateMachine} (h : SameCount m m')
    (h' : SameCount m' m'') : SameCount m m'' :=
  ⟨h'.1.trans h.1, h'.2.1.trans h.2.1, h'.2.2.trans h.2.2⟩

theorem sameCount_intoError (code : UInt8) : SameCount m (m.intoError code).2 := ⟨rfl, rfl, rfl⟩

theorem sameCount_detach : SameCount m m.detach.2 := by
  unfold detach
  split_ifs
  · exact m.sameCount_intoError _
  · exact ⟨rfl, rfl, rfl⟩

theorem sameCount_finishSync : SameCount m m.finishSync.2 := by
  unfold finishSync
  split
  · exact ⟨rfl, rfl, rfl⟩
  · exact ⟨rfl, rfl, rfl⟩
  · exact m.sameCount_intoError _

theorem sameCount_finishManifest : SameCount m m.finishManifest.2 := by
  unfold finishManifest
  split_ifs
  · exact m.sameCount_intoError _
  · exact ⟨rfl, rfl, rfl⟩

/-- The machine starts to count again. -/
def Cleared (r : Except UInt8 Unit × DfuStateMachine) : Prop :=
  r.1 = .ok () ∧ r.2.bytesWritten = 0 ∧ r.2.maxImageSize = m.maxImageSize ∧
    r.2.transferSize = m.transferSize

/-- The machine refuses and goes into its error state. -/
def Refused (r : Except UInt8 Unit × DfuStateMachine) : Prop :=
  ∃ code, r = m.intoError code

theorem abort_cases : m.Cleared m.abort ∨ m.Refused m.abort := by
  unfold abort
  split
  · exact .inl ⟨rfl, rfl, rfl, rfl⟩
  · exact .inl ⟨rfl, rfl, rfl, rfl⟩
  · exact .inl ⟨rfl, rfl, rfl, rfl⟩
  · exact .inl ⟨rfl, rfl, rfl, rfl⟩
  · exact .inl ⟨rfl, rfl, rfl, rfl⟩
  · exact .inr ⟨_, rfl⟩

theorem clrStatus_cases : m.Cleared m.clrStatus ∨ m.Refused m.clrStatus := by
  unfold clrStatus
  split_ifs
  · exact .inr ⟨_, rfl⟩
  · exact .inl ⟨rfl, rfl, rfl, rfl⟩

/-- A DNLOAD is refused, or it ends the download, or it announces a chunk that fits. -/
theorem dnload_cases (chunkLen : Nat) (hmax : m.maxImageSize < USIZE_MAX) :
    m.Refused (m.dnload chunkLen) ∨
      (chunkLen = 0 ∧ m.dnload chunkLen = (.ok (), { m with state := .manifestSync })) ∨
      (0 < chunkLen ∧ chunkLen ≤ m.transferSize ∧ m.bytesWritten + chunkLen ≤ m.maxImageSize ∧
        m.dnload chunkLen = (.ok (),
          { m with bytesWritten := m.bytesWritten + chunkLen, state := .dnloadSync })) := by
  unfold dnload
  dsimp only
  split_ifs with haccepts hzero hlong htotal
  · exact .inl ⟨_, rfl⟩
  · exact .inr (.inl ⟨hzero, rfl⟩)
  · exact .inl ⟨_, rfl⟩
  · exact .inl ⟨_, rfl⟩
  · have hsum : min (m.bytesWritten + chunkLen) USIZE_MAX = m.bytesWritten + chunkLen := by
      omega
    rw [hsum] at htotal ⊢
    exact .inr (.inr ⟨by omega, by omega, by omega, rfl⟩)

end DfuStateMachine

/-! ## The accumulator -/

inductive AccumulatorError where
  | chunkTooLarge
  | overflow
  deriving DecidableEq, Repr

/-- `ChunkAccumulator`. -/
structure ChunkAccumulator where
  bytesWritten : Nat
  transferSize : Nat
  deriving DecidableEq, Repr

namespace ChunkAccumulator

def new (transferSize : Nat) : ChunkAccumulator := ⟨0, transferSize⟩

def reset (a : ChunkAccumulator) : ChunkAccumulator := { a with bytesWritten := 0 }

/-- The staging buffer after the copy of a chunk. -/
def copyFromSlice (a : ChunkAccumulator) (chunk : Bytes) (staging : Nat → UInt8) : Nat → UInt8 :=
  fun i => if a.bytesWritten ≤ i ∧ i < a.bytesWritten + chunk.length
    then chunk.getD (i - a.bytesWritten) 0 else staging i

/-- `push` into a staging buffer of `size` bytes.  The result is the accumulator and the
buffer after the chunk. -/
def push (a : ChunkAccumulator) (chunk : Bytes) (size : Nat) (staging : Nat → UInt8) :
    Except AccumulatorError (ChunkAccumulator × (Nat → UInt8)) :=
  if chunk.length > a.transferSize then .error .chunkTooLarge
  else if a.bytesWritten + chunk.length > USIZE_MAX then .error .overflow
  else if a.bytesWritten + chunk.length > size then .error .overflow
  else .ok ({ a with bytesWritten := a.bytesWritten + chunk.length },
    a.copyFromSlice chunk staging)

theorem push_of_fits {a : ChunkAccumulator} {chunk : Bytes} {size : Nat}
    (staging : Nat → UInt8) (hchunk : chunk.length ≤ a.transferSize)
    (hsize : a.bytesWritten + chunk.length ≤ size) (hmax : size < USIZE_MAX) :
    a.push chunk size staging =
      .ok ({ a with bytesWritten := a.bytesWritten + chunk.length },
        a.copyFromSlice chunk staging) := by
  rw [push, if_neg (by omega), if_neg (by omega), if_neg (by omega)]

/-- The chunk follows the bytes that are there. -/
theorem map_copyFromSlice (a : ChunkAccumulator) (chunk : Bytes) (staging : Nat → UInt8) :
    (List.range (a.bytesWritten + chunk.length)).map (a.copyFromSlice chunk staging) =
      (List.range a.bytesWritten).map staging ++ chunk := by
  rw [List.range_add, List.map_append]
  congr 1
  · refine List.map_congr_left fun i hi => ?_
    rw [List.mem_range] at hi
    exact if_neg (by omega)
  · refine List.ext_getElem (by simp) fun i hi hi' => ?_
    simp [copyFromSlice, hi']

end ChunkAccumulator

end RobotOs.Dfu
