import RobotOs.Lib.Framing

/-!
# Mass storage commands

The `msc` crate: `bbb.rs`, `scsi.rs` and `dispatch.rs`.  The host sends a command wrapper of
31 bytes with a tag, the length and direction of the data it expects, and a SCSI command.
`dispatch_cbw` predicts what the command transfers, compares that with what the host
announced, executes the command and answers with an action and a status wrapper.

A transfer that is ordered lies on the device, in the direction and within the length that
the host announced, and the residue in the status wrapper is what is left of that length.  A
command for no blocks moves nothing, and its direction is not compared.
-/

namespace RobotOs.Msc

open RobotOs.Lib.Framing

/-! ## Wrappers -/

def CBW_SIGNATURE : Nat := 0x43425355
def CSW_SIGNATURE : Nat := 0x53425355

def CSW_STATUS_OK : UInt8 := 0
def CSW_STATUS_FAIL : UInt8 := 1

def CBW_CDB_MAX_LEN : Nat := 16
def CBW_TOTAL_LEN : Nat := 31

/-- The byte at an index that is in range. -/
def byte (bs : Bytes) (i : Nat) : UInt8 := bs.getD i 0

/-- `u32::from_le_bytes` of four bytes. -/
def u32le (bs : Bytes) (off : Nat) : UInt32 := UInt32.ofNat (ofLE (slice bs off 4))

/-- `Cbw`. -/
structure Cbw where
  tag : UInt32
  dataTransferLen : UInt32
  flags : UInt8
  lun : UInt8
  cdbLen : UInt8
  cdb : Bytes
  deriving DecidableEq, Repr

/-- `Cbw::parse`. -/
def Cbw.parse (buf : Bytes) : Option Cbw :=
  if buf.length < CBW_TOTAL_LEN then none
  else if ofLE (slice buf 0 4) ≠ CBW_SIGNATURE then none
  else if byte buf 14 = 0 ∨ (byte buf 14).toNat > CBW_CDB_MAX_LEN then none
  else some
    { tag := u32le buf 4
      dataTransferLen := u32le buf 8
      flags := byte buf 12
      lun := byte buf 13 &&& 0x0f
      cdbLen := byte buf 14
      cdb := slice buf 15 CBW_CDB_MAX_LEN }

/-- `direction_is_in`. -/
def Cbw.directionIsIn (cbw : Cbw) : Bool := cbw.flags &&& 0x80 != 0

/-- `Csw`. -/
structure Csw where
  tag : UInt32
  dataResidue : UInt32
  status : UInt8
  deriving DecidableEq, Repr

/-- `Csw::encode`. -/
def Csw.encode (csw : Csw) : Bytes :=
  leBytes 4 CSW_SIGNATURE ++ leBytes 4 csw.tag.toNat ++ leBytes 4 csw.dataResidue.toNat ++
    [csw.status]

/-- What the host reads from a status wrapper. -/
def Csw.decode (bs : Bytes) : Option Csw :=
  if bs.length = 13 ∧ ofLE (slice bs 0 4) = CSW_SIGNATURE then
    some ⟨u32le bs 4, u32le bs 8, byte bs 12⟩
  else none

/-- The host reads what was encoded. -/
theorem Csw.decode_encode (csw : Csw) : Csw.decode csw.encode = some csw := by
  obtain ⟨tag, residue, status⟩ := csw
  have hsig : ofLE (leBytes 4 CSW_SIGNATURE) = CSW_SIGNATURE := by decide
  have htag : ofLE (leBytes 4 tag.toNat) = tag.toNat := ofLE_leBytes _ _ tag.toNat_lt
  have hres : ofLE (leBytes 4 residue.toNat) = residue.toNat := ofLE_leBytes _ _ residue.toNat_lt
  have hslices : slice (Csw.encode ⟨tag, residue, status⟩) 0 4 = leBytes 4 CSW_SIGNATURE ∧
      slice (Csw.encode ⟨tag, residue, status⟩) 4 4 = leBytes 4 tag.toNat ∧
      slice (Csw.encode ⟨tag, residue, status⟩) 8 4 = leBytes 4 residue.toNat ∧
      byte (Csw.encode ⟨tag, residue, status⟩) 12 = status := ⟨rfl, rfl, rfl, rfl⟩
  obtain ⟨h0, h4, h8, h12⟩ := hslices
  rw [Csw.decode, if_pos ⟨rfl, by rw [h0, hsig]⟩, u32le, u32le, h4, h8, h12, htag, hres,
    UInt32.ofNat_toNat, UInt32.ofNat_toNat]

/-! ## Commands -/

def BLOCK_SIZE : Nat := 512

/-- The strings of the inquiry. -/
def INQUIRY_VENDOR_ID : Bytes := "PHANES  ".toUTF8.toList
def INQUIRY_PRODUCT_ID : Bytes := "Robot OS Recover".toUTF8.toList
def INQUIRY_REVISION : Bytes := "0001".toUTF8.toList

/-- `ScsiCommand`. -/
inductive ScsiCommand where
  | testUnitReady
  | requestSense (allocationLength : UInt8)
  | inquiry (allocationLength : UInt8)
  | modeSense6 (allocationLength : UInt8)
  | readCapacity10
  | read10 (lba : UInt32) (blocks : UInt16)
  | write10 (lba : UInt32) (blocks : UInt16)
  deriving DecidableEq, Repr

/-- The address and the count of a 10-byte command, most significant byte first. -/
def lbaOf (cdb : Bytes) : UInt32 := UInt32.ofNat (ofBE (slice cdb 2 4))
def blocksOf (cdb : Bytes) : UInt16 := UInt16.ofNat (ofBE (slice cdb 7 2))

/-- `parse_scsi_command`. -/
def parseScsiCommand (cdb : Bytes) : Option ScsiCommand :=
  match cdb.head? with
  | none => none
  | some op =>
    if op = 0x00 then some .testUnitReady
    else if op = 0x03 ∧ 6 ≤ cdb.length then some (.requestSense (byte cdb 4))
    else if op = 0x12 ∧ 6 ≤ cdb.length then some (.inquiry (byte cdb 4))
    else if op = 0x1a ∧ 6 ≤ cdb.length then some (.modeSense6 (byte cdb 4))
    else if op = 0x25 ∧ 10 ≤ cdb.length then some .readCapacity10
    else if op = 0x28 ∧ 10 ≤ cdb.length then some (.read10 (lbaOf cdb) (blocksOf cdb))
    else if op = 0x2a ∧ 10 ≤ cdb.length then some (.write10 (lbaOf cdb) (blocksOf cdb))
    else none

/-- `ScsiResponse`. -/
inductive ScsiResponse where
  | done (dataInLen : Nat)
  | writeData (expectedDataOut : Nat)
  | readData (expectedDataIn : Nat)
  | failed
  deriving DecidableEq, Repr

/-- `copy_from_slice` into `buf[off..]`. -/
def splice (buf : Bytes) (off : Nat) (bs : Bytes) : Bytes :=
  buf.take off ++ bs ++ buf.drop (off + bs.length)

/-- A store that is made only when the reply is long enough. -/
def storeIf (c : Prop) [Decidable c] (buf : Bytes) (off : Nat) (bs : Bytes) : Bytes :=
  if c then splice buf off bs else buf

/-- The reply to REQUEST SENSE. -/
def senseReply (need : Nat) (buf : Bytes) : Bytes :=
  let buf := splice buf 0 (List.replicate need 0)
  let buf := storeIf (need ≥ 1) buf 0 [0x70]
  let buf := storeIf (need ≥ 3) buf 2 [0x00]
  storeIf (need ≥ 8) buf 7 [UInt8.ofNat (need - 8)]

/-- The reply to INQUIRY. -/
def inquiryReply (need : Nat) (buf : Bytes) : Bytes :=
  let buf := splice buf 0 (List.replicate need 0)
  let buf := storeIf (need ≥ 1) buf 0 [0x00]
  let buf := storeIf (need ≥ 2) buf 1 [0x80]
  let buf := storeIf (need ≥ 3) buf 2 [0x06]
  let buf := storeIf (need ≥ 4) buf 3 [0x02]
  let buf := storeIf (need ≥ 5) buf 4 [0x1f]
  let buf := storeIf (need ≥ 16) buf 8 (INQUIRY_VENDOR_ID.take (min (need - 8) 8))
  let buf := storeIf (need ≥ 32) buf 16 (INQUIRY_PRODUCT_ID.take (min (need - 16) 16))
  storeIf (need ≥ 36) buf 32 INQUIRY_REVISION

/-- The reply to MODE SENSE. -/
def modeReply (need : Nat) (buf : Bytes) : Bytes :=
  storeIf (need ≥ 1) (splice buf 0 (List.replicate need 0)) 0 [3]

/-- The reply to READ CAPACITY: the last block and the size of a block. -/
def capacityReply (blockCount : UInt32) (buf : Bytes) : Bytes :=
  splice (splice buf 0 (beBytes 4 (blockCount.toNat - 1))) 4 (beBytes 4 BLOCK_SIZE)

/-- `execute_scsi`, on a device with so many blocks: the response and the scratch buffer. -/
def executeScsi (cmd : ScsiCommand) (blockCount : UInt32) (buf : Bytes) : ScsiResponse × Bytes :=
  match cmd with
  | .testUnitReady => (.done 0, buf)
  | .requestSense len =>
    let need := min len.toNat 18
    if buf.length < need then (.failed, buf) else (.done need, senseReply need buf)
  | .inquiry len =>
    let need := min len.toNat 36
    if buf.length < need then (.failed, buf) else (.done need, inquiryReply need buf)
  | .modeSense6 len =>
    let need := min len.toNat 4
    if buf.length < need then (.failed, buf) else (.done need, modeReply need buf)
  | .readCapacity10 =>
    if buf.length < 8 then (.failed, buf) else (.done 8, capacityReply blockCount buf)
  | .read10 _ blocks => (.readData (blocks.toNat * BLOCK_SIZE), buf)
  | .write10 _ blocks => (.writeData (blocks.toNat * BLOCK_SIZE), buf)

/-! ## Dispatch -/

def DISPATCH_IN_BUF_LEN : Nat := 64
def MSC_MAX_LUN : UInt8 := 0

/-- `DeviceIntent`. -/
inductive DeviceIntent where
  | none
  | in_ (len : Nat)
  | out (len : Nat)
  deriving DecidableEq, Repr

/-- The length that a command transfers, in `device_intent`. -/
def ScsiCommand.transferLen : ScsiCommand → Nat
  | .testUnitReady => 0
  | .requestSense len => min len.toNat 18
  | .inquiry len => min len.toNat 36
  | .modeSense6 len => min len.toNat 4
  | .readCapacity10 => 8
  | .read10 _ blocks => blocks.toNat * BLOCK_SIZE
  | .write10 _ blocks => blocks.toNat * BLOCK_SIZE

/-- `device_intent`. -/
def deviceIntent (cmd : ScsiCommand) : DeviceIntent :=
  if cmd.transferLen = 0 then .none
  else
    match cmd with
    | .write10 _ _ => .out cmd.transferLen
    | _ => .in_ cmd.transferLen

/-- `bbb_transfer_compatible`. -/
def bbbTransferCompatible (cbw : Cbw) : DeviceIntent → Bool
  | .none => true
  | .in_ want => cbw.dataTransferLen != 0 && cbw.directionIsIn && want ≤ cbw.dataTransferLen.toNat
  | .out want => cbw.dataTransferLen != 0 && !cbw.directionIsIn && want ≤ cbw.dataTransferLen.toNat

/-- `Action`. -/
inductive Action where
  | inlineDone (inLen : Nat) (csw : Bytes)
  | readBlocks (startLba : UInt32) (blocks : UInt16) (csw : Bytes)
  | writeBlocks (startLba : UInt32) (blocks : UInt16) (csw : Bytes)
  | phaseError
  deriving DecidableEq, Repr

/-- `lba_range_in_bounds`. -/
def lbaRangeInBounds (blockCount : UInt32) (lba : UInt32) (blocks : UInt16) : Bool :=
  lba.toNat + blocks.toNat ≤ blockCount.toNat

/-- The residue after so many bytes: `saturating_sub`. -/
def Cbw.residue (cbw : Cbw) (moved : Nat) : UInt32 :=
  UInt32.ofNat (cbw.dataTransferLen.toNat - moved)

/-- The answer to a command that fails. -/
def Cbw.fail (cbw : Cbw) : Action :=
  .inlineDone 0 (Csw.encode ⟨cbw.tag, cbw.dataTransferLen, CSW_STATUS_FAIL⟩)

/-- The answer of `dispatch_cbw` to an executed command. -/
def answer (cbw : Cbw) (blockCount : UInt32) : ScsiCommand → ScsiResponse → Action
  | _, .done dataInLen =>
    .inlineDone dataInLen (Csw.encode ⟨cbw.tag, cbw.residue dataInLen, CSW_STATUS_OK⟩)
  | .read10 lba blocks, .readData expected =>
    if !lbaRangeInBounds blockCount lba blocks then cbw.fail
    else .readBlocks lba blocks (Csw.encode ⟨cbw.tag, cbw.residue expected, CSW_STATUS_OK⟩)
  | .write10 lba blocks, .writeData expected =>
    if !lbaRangeInBounds blockCount lba blocks then cbw.fail
    else .writeBlocks lba blocks (Csw.encode ⟨cbw.tag, cbw.residue expected, CSW_STATUS_OK⟩)
  | _, _ => cbw.fail

/-- `dispatch_cbw`: the action and the scratch buffer. -/
def dispatchCbw (cbwBytes : Bytes) (blockCount : UInt32) (inBuf : Bytes) : Action × Bytes :=
  if cbwBytes.length < CBW_TOTAL_LEN ∨ inBuf.length < DISPATCH_IN_BUF_LEN then (.phaseError, inBuf)
  else
    match Cbw.parse cbwBytes with
    | none => (.phaseError, inBuf)
    | some cbw =>
      if cbw.lun > MSC_MAX_LUN then (.phaseError, inBuf)
      else
        match parseScsiCommand (cbw.cdb.take cbw.cdbLen.toNat) with
        | none => (cbw.fail, inBuf)
        | some cmd =>
          if !bbbTransferCompatible cbw (deviceIntent cmd) then (.phaseError, inBuf)
          else
            let resp := executeScsi cmd blockCount inBuf
            (answer cbw blockCount cmd resp.1, resp.2)

/-! ## Replies stay in their part of the buffer -/

/-- Only the first `need` bytes differ. -/
def Within (need : Nat) (buf buf' : Bytes) : Prop :=
  buf'.length = buf.length ∧ buf'.drop need = buf.drop need

namespace Within

variable {need : Nat} {buf buf' : Bytes}

theorem refl : Within need buf buf := ⟨rfl, rfl⟩

theorem splice (h : Within need buf buf') {off : Nat} {bs : Bytes} (hoff : off + bs.length ≤ need)
    (hneed : need ≤ buf.length) : Within need buf (Msc.splice buf' off bs) := by
  have htake : (buf'.take off).length = off := by
    rw [List.length_take, h.1]
    omega
  constructor
  · simp only [Msc.splice, List.length_append, List.length_drop, htake, h.1]
    omega
  · obtain ⟨k, rfl⟩ := Nat.exists_eq_add_of_le hoff
    have hlen : (buf'.take off ++ bs).length = off + bs.length := by
      rw [List.length_append, htake]
    have hrest : (Msc.splice buf' off bs).drop (off + bs.length) = buf'.drop (off + bs.length) :=
      List.drop_left' hlen
    have htail := congrArg (List.drop k) hrest
    rw [List.drop_drop, List.drop_drop] at htail
    exact htail.trans h.2

theorem storeIf (h : Within need buf buf') {off : Nat} {bs : Bytes} {c : Prop} [Decidable c]
    (hoff : c → off + bs.length ≤ need) (hneed : need ≤ buf.length) :
    Within need buf (Msc.storeIf c buf' off bs) := by
  unfold Msc.storeIf
  split_ifs with hc
  · exact h.splice (hoff hc) hneed
  · exact h

end Within

theorem within_cleared {need : Nat} {buf : Bytes} (h : need ≤ buf.length) :
    Within need buf (splice buf 0 (List.replicate need 0)) :=
  Within.refl.splice (by simp) h

theorem within_senseReply {need : Nat} {buf : Bytes} (h : need ≤ buf.length) :
    Within need buf (senseReply need buf) := by
  refine (((within_cleared h).storeIf ?_ h).storeIf ?_ h).storeIf ?_ h
  all_goals exact fun hc => hc

theorem within_modeReply {need : Nat} {buf : Bytes} (h : need ≤ buf.length) :
    Within need buf (modeReply need buf) :=
  (within_cleared h).storeIf (fun hc => hc) h

theorem within_inquiryReply {need : Nat} {buf : Bytes} (h : need ≤ buf.length) :
    Within need buf (inquiryReply need buf) := by
  refine ((((((((within_cleared h).storeIf ?_ h).storeIf ?_ h).storeIf ?_ h).storeIf ?_ h).storeIf
    ?_ h).storeIf (fun hc => ?_) h).storeIf (fun hc => ?_) h).storeIf (fun hc => ?_) h
  case refine_6 =>
    have hlen := List.length_take_le (min (need - 8) 8) INQUIRY_VENDOR_ID
    omega
  case refine_7 =>
    have hlen := List.length_take_le (min (need - 16) 16) INQUIRY_PRODUCT_ID
    omega
  case refine_8 =>
    have hlen : INQUIRY_REVISION.length = 4 := by decide +kernel
    omega
  all_goals exact fun hc => hc

theorem within_capacityReply (blockCount : UInt32) {buf : Bytes} (h : 8 ≤ buf.length) :
    Within 8 buf (capacityReply blockCount buf) :=
  (Within.refl.splice (by simp) h).splice (by simp) h

/-! ## Prediction and execution -/

/-- The transfer of a response, in the words of the prediction. -/
def ScsiResponse.intent? : ScsiResponse → Option DeviceIntent
  | .done len => some (if len = 0 then .none else .in_ len)
  | .readData len => some (if len = 0 then .none else .in_ len)
  | .writeData len => some (if len = 0 then .none else .out len)
  | .failed => none

/-- With the scratch buffer of `dispatch_cbw` a command does what was predicted, and an
immediate reply is written to the first bytes of the buffer. -/
theorem executeScsi_spec (cmd : ScsiCommand) (blockCount : UInt32) {buf : Bytes}
    (h : DISPATCH_IN_BUF_LEN ≤ buf.length) :
    (executeScsi cmd blockCount buf).1.intent? = some (deviceIntent cmd) ∧
      Within cmd.transferLen buf (executeScsi cmd blockCount buf).2 ∧
      ∀ n, (executeScsi cmd blockCount buf).1 = .done n →
        n = cmd.transferLen ∧ n ≤ DISPATCH_IN_BUF_LEN := by
  have hbuf : DISPATCH_IN_BUF_LEN = 64 := rfl
  cases cmd with
  | testUnitReady =>
    refine ⟨rfl, .refl, ?_⟩
    rintro n ⟨⟩
    exact ⟨rfl, Nat.zero_le _⟩
  | requestSense len =>
    have hneed : min len.toNat 18 ≤ buf.length := by omega
    simp only [executeScsi, if_neg (not_lt.mpr hneed)]
    refine ⟨rfl, within_senseReply hneed, ?_⟩
    rintro n ⟨⟩
    exact ⟨rfl, by omega⟩
  | inquiry len =>
    have hneed : min len.toNat 36 ≤ buf.length := by omega
    simp only [executeScsi, if_neg (not_lt.mpr hneed)]
    refine ⟨rfl, within_inquiryReply hneed, ?_⟩
    rintro n ⟨⟩
    exact ⟨rfl, by omega⟩
  | modeSense6 len =>
    have hneed : min len.toNat 4 ≤ buf.length := by omega
    simp only [executeScsi, if_neg (not_lt.mpr hneed)]
    refine ⟨rfl, within_modeReply hneed, ?_⟩
    rintro n ⟨⟩
    exact ⟨rfl, by omega⟩
  | readCapacity10 =>
    have hneed : 8 ≤ buf.length := by omega
    simp only [executeScsi, if_neg (not_lt.mpr hneed)]
    refine ⟨rfl, within_capacityReply blockCount hneed, ?_⟩
    rintro n ⟨⟩
    exact ⟨rfl, by omega⟩
  | read10 lba blocks => exact ⟨rfl, .refl, by rintro n ⟨⟩⟩
  | write10 lba blocks => exact ⟨rfl, .refl, by rintro n ⟨⟩⟩

/-! ## Sound actions -/

/-- The host announced at least so many bytes. -/
def Cbw.Announced (cbw : Cbw) (moved : Nat) : Prop := moved ≤ cbw.dataTransferLen.toNat

/-- The status wrapper has the tag of the command, and the residue is the announced length
without the bytes that move. -/
def Cbw.Echoed (cbw : Cbw) (moved : Nat) (csw : Bytes) : Prop :=
  ∃ status residue, Csw.decode csw = some ⟨cbw.tag, residue, status⟩ ∧
    residue.toNat = cbw.dataTransferLen.toNat - moved

/-- The action keeps to the device, to the announced length and direction, and to the scratch
buffer. -/
def Sound (cbw : Cbw) (blockCount : UInt32) : Action → Prop
  | .inlineDone inLen csw =>
    inLen ≤ DISPATCH_IN_BUF_LEN ∧ cbw.Announced inLen ∧ cbw.Echoed inLen csw
  | .readBlocks lba blocks csw =>
    lba.toNat + blocks.toNat ≤ blockCount.toNat ∧ (blocks ≠ 0 → cbw.directionIsIn = true) ∧
      cbw.Announced (blocks.toNat * BLOCK_SIZE) ∧ cbw.Echoed (blocks.toNat * BLOCK_SIZE) csw
  | .writeBlocks lba blocks csw =>
    lba.toNat + blocks.toNat ≤ blockCount.toNat ∧ (blocks ≠ 0 → cbw.directionIsIn = false) ∧
      cbw.Announced (blocks.toNat * BLOCK_SIZE) ∧ cbw.Echoed (blocks.toNat * BLOCK_SIZE) csw
  | .phaseError => True

theorem echoed_encode (cbw : Cbw) (moved : Nat) (status : UInt8) :
    cbw.Echoed moved (Csw.encode ⟨cbw.tag, cbw.residue moved, status⟩) := by
  refine ⟨status, _, Csw.decode_encode _, ?_⟩
  have hlt := cbw.dataTransferLen.toNat_lt
  rw [Cbw.residue, UInt32.toNat_ofNat']
  omega

theorem sound_fail (cbw : Cbw) (blockCount : UInt32) : Sound cbw blockCount cbw.fail :=
  ⟨Nat.zero_le _, Nat.zero_le _, CSW_STATUS_FAIL, _, Csw.decode_encode _, rfl⟩

/-- A command that passes the comparison moves no more than was announced, in the direction
that was announced if it moves anything. -/
theorem announced_of_compatible {cbw : Cbw} {cmd : ScsiCommand}
    (h : bbbTransferCompatible cbw (deviceIntent cmd) = true) :
    cbw.Announced cmd.transferLen ∧ (cmd.transferLen ≠ 0 →
      cbw.directionIsIn = match cmd with
        | .write10 _ _ => false
        | _ => true) := by
  by_cases hzero : cmd.transferLen = 0
  · exact ⟨hzero ▸ Nat.zero_le _, fun hne => absurd hzero hne⟩
  · unfold deviceIntent at h
    rw [if_neg hzero] at h
    cases cmd with
    | write10 lba blocks =>
      simp only [bbbTransferCompatible, Bool.and_eq_true, decide_eq_true_eq] at h
      exact ⟨h.2, fun _ => by simpa using h.1.2⟩
    | _ =>
      simp only [bbbTransferCompatible, Bool.and_eq_true, decide_eq_true_eq] at h
      exact ⟨h.2, fun _ => h.1.2⟩

theorem transferLen_ne_zero {blocks : UInt16} (h : blocks ≠ 0) : blocks.toNat * BLOCK_SIZE ≠ 0 := by
  have hblocks : blocks.toNat ≠ 0 := fun hz => h (UInt16.toNat.inj hz)
  exact Nat.mul_ne_zero hblocks (by decide)

/-- The answer to a command that passed the comparison is sound. -/
theorem sound_answer {cbw : Cbw} {cmd : ScsiCommand} (blockCount : UInt32) {buf : Bytes}
    (hbuf : DISPATCH_IN_BUF_LEN ≤ buf.length)
    (h : bbbTransferCompatible cbw (deviceIntent cmd) = true) :
    Sound cbw blockCount (answer cbw blockCount cmd (executeScsi cmd blockCount buf).1) := by
  obtain ⟨hlen, hdir⟩ := announced_of_compatible h
  obtain ⟨hintent, -, hdone⟩ := executeScsi_spec cmd blockCount hbuf
  cases hresp : (executeScsi cmd blockCount buf).1 with
  | done n =>
    obtain ⟨rfl, hfits⟩ := hdone n hresp
    exact ⟨hfits, hlen, echoed_encode _ _ _⟩
  | failed =>
    rw [hresp] at hintent
    cases hintent
  | readData n =>
    cases cmd with
    | read10 lba blocks =>
      obtain rfl : blocks.toNat * BLOCK_SIZE = n := ScsiResponse.readData.inj hresp
      simp only [answer]
      split_ifs with hrange
      · exact sound_fail cbw blockCount
      · exact ⟨by simpa [lbaRangeInBounds] using hrange,
          fun hne => hdir (transferLen_ne_zero hne), hlen, echoed_encode _ _ _⟩
    | _ => exact sound_fail cbw blockCount
  | writeData n =>
    cases cmd with
    | write10 lba blocks =>
      obtain rfl : blocks.toNat * BLOCK_SIZE = n := ScsiResponse.writeData.inj hresp
      simp only [answer]
      split_ifs with hrange
      · exact sound_fail cbw blockCount
      · exact ⟨by simpa [lbaRangeInBounds] using hrange,
          fun hne => hdir (transferLen_ne_zero hne), hlen, echoed_encode _ _ _⟩
    | _ => exact sound_fail cbw blockCount

/-- For every byte string and every size of the device the action is sound for the command
that the bytes hold, and bytes that hold none give no transfer and no status.  Every command
does what was predicted of it, and an immediate reply stays in the bytes that are sent. -/
theorem dispatchCbw_sound (cbwBytes : Bytes) (blockCount : UInt32) (inBuf : Bytes) :
    (match Cbw.parse cbwBytes with
      | none => (dispatchCbw cbwBytes blockCount inBuf).1 = .phaseError
      | some cbw => Sound cbw blockCount (dispatchCbw cbwBytes blockCount inBuf).1) ∧
    (DISPATCH_IN_BUF_LEN ≤ inBuf.length → ∀ cmd,
      (executeScsi cmd blockCount inBuf).1.intent? = some (deviceIntent cmd) ∧
        Within cmd.transferLen inBuf (executeScsi cmd blockCount inBuf).2) := by
  constructor
  · unfold dispatchCbw
    by_cases hlen : cbwBytes.length < CBW_TOTAL_LEN ∨ inBuf.length < DISPATCH_IN_BUF_LEN
    · simp only [if_pos hlen]
      cases Cbw.parse cbwBytes with
      | none => trivial
      | some cbw => trivial
    · simp only [if_neg hlen]
      have hbuf : DISPATCH_IN_BUF_LEN ≤ inBuf.length := not_lt.mp fun hlt => hlen (.inr hlt)
      cases Cbw.parse cbwBytes with
      | none => rfl
      | some cbw =>
        dsimp only
        split_ifs with hlun
        · trivial
        · cases hcmd : parseScsiCommand (cbw.cdb.take cbw.cdbLen.toNat) with
          | none => exact sound_fail cbw blockCount
          | some cmd =>
            dsimp only
            split_ifs with hcompat
            · trivial
            · exact sound_answer blockCount hbuf (by simpa using hcompat)
  · intro hbuf cmd
    obtain ⟨hintent, hwithin, -⟩ := executeScsi_spec cmd blockCount hbuf
    exact ⟨hintent, hwithin⟩

/-- READ(10) for no blocks, announced as 512 bytes to the device. -/
def emptyRead : Bytes :=
  [0x55, 0x53, 0x42, 0x43, 1, 0, 0, 0, 0, 2, 0, 0, 0x00, 0, 10,
    0x28, 0, 0, 0, 0, 0, 0, 0, 0, 0, 0, 0, 0, 0, 0, 0]

/-- The device is told to read, although the host announced a transfer to the device. -/
theorem emptyRead_ordered :
    (Cbw.parse emptyRead).map Cbw.directionIsIn = some false ∧
      (dispatchCbw emptyRead 8 (List.replicate 64 0)).1 =
        .readBlocks 0 0 (Csw.encode ⟨1, 512, CSW_STATUS_OK⟩) := by
  decide +kernel

end RobotOs.Msc
