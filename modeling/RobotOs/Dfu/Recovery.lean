import RobotOs.Dfu.Protocol
import RobotOs.Lib.Run

/-!
# DFU recovery

`dfu_recovery.rs`: the kernel feeds the setup packets and the payloads of the host to the
DFU crate, and writes the staging buffer over the inactive kernel slot when a download ends.

The state machine counts a chunk when it is announced, and the accumulator counts it when it
arrives.  A `Session` keeps the length that is announced and has not arrived, and the
payloads since the last reset.  `Session.Agrees` is the invariant: the two counts differ by
the announced length, and the first bytes of the staging buffer are the payloads.
-/

namespace RobotOs.Dfu

open RobotOs.Lib.Framing (Bytes)
open RobotOs.Lib.Run

def DFU_TRANSFER_SIZE : Nat := 1024
def DFU_MIN_IMAGE_SIZE : Nat := 64 * 1024

/-- The build option `OTA_MAX_IMAGE_SIZE_MB` with its range. -/
structure OtaLimits where
  maxImageSizeMb : Nat
  pos : 1 ≤ maxImageSizeMb
  le : maxImageSizeMb ≤ 64

/-- `DFU_STAGING_SIZE`. -/
def OtaLimits.stagingSize (lim : OtaLimits) : Nat := lim.maxImageSizeMb * 1048576

theorem OtaLimits.stagingSize_lt (lim : OtaLimits) : lim.stagingSize < USIZE_MAX := by
  have h := lim.le
  unfold stagingSize USIZE_MAX
  omega

/-- `DfuFeedOutcome`. -/
inductive DfuFeedOutcome where
  | ack
  | reply (len : Nat)
  | manifestDone
  | stall
  deriving DecidableEq, Repr

/-- `DfuRecoveryState` with the staging buffer.  `slotWrites` are the images that
`write_slot_file` was called with. -/
structure DfuRecoveryState where
  fsm : DfuStateMachine
  accumulator : ChunkAccumulator
  reply : Bytes
  staging : Nat → UInt8
  slotWrites : List Bytes

namespace DfuRecoveryState

variable (lim : OtaLimits) (s : DfuRecoveryState)

/-- The state after boot. -/
def new : DfuRecoveryState :=
  ⟨.newDfuMode lim.stagingSize DFU_TRANSFER_SIZE, .new DFU_TRANSFER_SIZE, [], fun _ => 0, []⟩

/-- `dfu_recovery_init`. -/
def init : DfuRecoveryState :=
  { s with
    fsm := .newDfuMode lim.stagingSize DFU_TRANSFER_SIZE
    accumulator := .new DFU_TRANSFER_SIZE
    reply := [] }

/-- The bytes of the staging buffer up to the count of the accumulator. -/
def staged : Bytes := (List.range s.accumulator.bytesWritten).map s.staging

/-- `finalize_manifest`.  `writeOk` is the result of `write_slot_file`. -/
def finalizeManifest (writeOk : Bool) : DfuFeedOutcome × DfuRecoveryState :=
  if s.accumulator.bytesWritten < DFU_MIN_IMAGE_SIZE then
    (.stall, { s with fsm := s.fsm.fail STATUS_ERR_NOTDONE })
  else
    let s := { s with slotWrites := s.slotWrites ++ [s.staged] }
    if !writeOk then (.stall, { s with fsm := s.fsm.fail STATUS_ERR_WRITE })
    else (.manifestDone, { s with fsm := s.fsm.finishSync.2.finishManifest.2 })

/-- A transition of the machine, as the answer to the host. -/
def answer (r : Except UInt8 Unit × DfuStateMachine) (onOk : DfuRecoveryState → DfuRecoveryState) :
    DfuFeedOutcome × DfuRecoveryState :=
  match r.1 with
  | .ok () => (.ack, onOk { s with fsm := r.2 })
  | .error _ => (.stall, { s with fsm := r.2 })

/-- The accumulator starts again. -/
def resetAccumulator : DfuRecoveryState := { s with accumulator := s.accumulator.reset }

/-- The machine as `DFU_GETSTATUS` leaves it. -/
def polled : DfuStateMachine :=
  if s.fsm.state = .dnloadSync ∨ s.fsm.state = .manifestSync then s.fsm.finishSync.2 else s.fsm

/-- `handle_request`. -/
def handleRequest (dir : DfuRequestType) (req : DfuRequest) (writeOk : Bool) :
    DfuFeedOutcome × DfuRecoveryState :=
  match req with
  | .detach _ => if dir ≠ .out then (.stall, s) else s.answer s.fsm.detach id
  | .dnload _ len =>
    if dir ≠ .out then (.stall, s)
    else
      match s.fsm.dnload len with
      | (.ok (), m) =>
        if len = 0 then finalizeManifest { s with fsm := m } writeOk
        else (.ack, { s with fsm := m })
      | (.error _, m) => (.stall, { s with fsm := m })
  | .upload _ _ => (.stall, s)
  | .getStatus =>
    if dir ≠ .in then (.stall, s)
    else (.reply 6, { s with fsm := s.polled, reply := s.polled.status })
  | .clrStatus => if dir ≠ .out then (.stall, s) else s.answer s.fsm.clrStatus resetAccumulator
  | .getState =>
    if dir ≠ .in then (.stall, s) else (.reply 1, { s with reply := [s.fsm.state.asU8] })
  | .abort => if dir ≠ .out then (.stall, s) else s.answer s.fsm.abort resetAccumulator

/-- The request in a raw setup packet. -/
def request (raw : Bytes) : Option (DfuRequestType × DfuRequest) :=
  (SetupPacket.fromBytes raw).bind parseSetupPacket

/-- `feed_setup_packet`. -/
def feedSetupPacket (raw : Bytes) (writeOk : Bool) : DfuFeedOutcome × DfuRecoveryState :=
  match request raw with
  | none => (.stall, s)
  | some (dir, req) => s.handleRequest dir req writeOk

/-- `feed_dnload_payload`. -/
def feedDnloadPayload (payload : Bytes) : DfuFeedOutcome × DfuRecoveryState :=
  match s.accumulator.push payload lim.stagingSize s.staging with
  | .ok (a, staging) => (.ack, { s with accumulator := a, staging := staging })
  | .error _ => (.stall, s)

/-- `take_reply`, which the host reads `n` bytes of. -/
def takeReply (n : Nat) : Bytes × DfuRecoveryState := (s.reply.take n, { s with reply := [] })

end DfuRecoveryState

/-! ## Sessions -/

/-- What happens at the device. -/
inductive Event where
  | start
  | setup (raw : Bytes) (writeOk : Bool)
  | payload (bytes : Bytes)
  | takeReply (n : Nat)

/-- The device with what is announced and has not arrived, and the payloads since the last
start, abort or clear-status. -/
structure Session where
  device : DfuRecoveryState
  announced : Option Nat
  since : Bytes

namespace Session

variable (lim : OtaLimits)

def new : Session := ⟨.new lim, none, []⟩

/-- The length that an acknowledged request announces. -/
def announcedBy (outcome : DfuFeedOutcome) (req : Option (DfuRequestType × DfuRequest)) :
    Option Nat :=
  match outcome, req with
  | .ack, some (_, .dnload _ len) => some len
  | _, _ => none

/-- The payloads that still count after a request. -/
def sinceAfter (outcome : DfuFeedOutcome) (req : Option (DfuRequestType × DfuRequest))
    (since : Bytes) : Bytes :=
  match outcome, req with
  | .ack, some (_, .abort) => []
  | .ack, some (_, .clrStatus) => []
  | _, _ => since

def step (s : Session) : Event → Session
  | .start => ⟨s.device.init lim, none, []⟩
  | .setup raw writeOk =>
    let out := s.device.feedSetupPacket raw writeOk
    ⟨out.2, announcedBy out.1 (DfuRecoveryState.request raw),
      sinceAfter out.1 (DfuRecoveryState.request raw) s.since⟩
  | .payload bytes => ⟨(s.device.feedDnloadPayload lim bytes).2, none, s.since ++ bytes⟩
  | .takeReply n => { s with device := (s.device.takeReply n).2 }

/-- Each announced payload comes next and has its length, and no other payload comes. -/
def Disciplined (s : Session) : Event → Prop
  | .start => True
  | .setup _ _ => s.announced = none
  | .payload bytes => s.announced = some bytes.length
  | .takeReply _ => True

/-- The slot is left alone, or it gets exactly the payloads since the last reset, in a size
that is allowed. -/
def SlotOk (s : Session) (d : DfuRecoveryState) : Prop :=
  d.slotWrites = s.device.slotWrites ∨
    d.slotWrites = s.device.slotWrites ++ [s.since] ∧
      DFU_MIN_IMAGE_SIZE ≤ s.since.length ∧ s.since.length ≤ lim.stagingSize

/-- The event touches the slot with a commit of the download only. -/
def CommitsDownload (s : Session) (e : Event) : Prop := SlotOk lim s (s.step lim e).device

/-- The counts agree up to what is announced, and the staging buffer holds the payloads. -/
structure Agrees (s : Session) : Prop where
  maxImageSize : s.device.fsm.maxImageSize = lim.stagingSize
  transferSize : s.device.fsm.transferSize = DFU_TRANSFER_SIZE
  chunkSize : s.device.accumulator.transferSize = DFU_TRANSFER_SIZE
  counts : s.device.fsm.bytesWritten =
    s.device.accumulator.bytesWritten + s.announced.getD 0
  fits : s.device.fsm.bytesWritten ≤ lim.stagingSize
  announced_le : s.announced.getD 0 ≤ DFU_TRANSFER_SIZE
  staged : s.device.staged = s.since

variable {lim}

theorem agrees_new : Agrees lim (new lim) where
  maxImageSize := rfl
  transferSize := rfl
  chunkSize := rfl
  counts := rfl
  fits := Nat.zero_le _
  announced_le := Nat.zero_le _
  staged := rfl

theorem Agrees.start {s : Session} : Agrees lim (s.step lim .start) where
  maxImageSize := rfl
  transferSize := rfl
  chunkSize := rfl
  counts := rfl
  fits := Nat.zero_le _
  announced_le := Nat.zero_le _
  staged := rfl

theorem Agrees.length_since {s : Session} (h : Agrees lim s) :
    s.since.length = s.device.accumulator.bytesWritten := by
  rw [← h.staged, DfuRecoveryState.staged, List.length_map, List.length_range]

/-- A payload that was announced is accepted. -/
theorem Agrees.payload {s : Session} (h : Agrees lim s) {bytes : Bytes}
    (hannounced : s.announced = some bytes.length) :
    Agrees lim (s.step lim (.payload bytes)) ∧
      (s.step lim (.payload bytes)).device.slotWrites = s.device.slotWrites := by
  have hcounts := h.counts
  have hchunk := h.announced_le
  rw [hannounced, Option.getD_some] at hcounts hchunk
  have hpush := ChunkAccumulator.push_of_fits s.device.staging
    (hchunk.trans h.chunkSize.ge) (hcounts.ge.trans h.fits) lim.stagingSize_lt
  have hfeed : (s.device.feedDnloadPayload lim bytes).2 =
      { s.device with
        accumulator := { s.device.accumulator with
          bytesWritten := s.device.accumulator.bytesWritten + bytes.length }
        staging := s.device.accumulator.copyFromSlice bytes s.device.staging } := by
    rw [DfuRecoveryState.feedDnloadPayload, hpush]
  change Agrees lim ⟨(s.device.feedDnloadPayload lim bytes).2, none, s.since ++ bytes⟩ ∧
    (s.device.feedDnloadPayload lim bytes).2.slotWrites = _
  rw [hfeed]
  refine ⟨⟨h.maxImageSize, h.transferSize, h.chunkSize, hcounts, h.fits, Nat.zero_le _, ?_⟩, rfl⟩
  rw [← h.staged]
  exact ChunkAccumulator.map_copyFromSlice _ _ _

/-- A device with the same count, the same chunks and the same announced length. -/
theorem Agrees.of_sameCount {s : Session} (h : Agrees lim s) {d : DfuRecoveryState}
    (hfsm : s.device.fsm.SameCount d.fsm) (hacc : d.accumulator = s.device.accumulator)
    (hstaging : d.staging = s.device.staging) (hannounced : s.announced = none) :
    Agrees lim ⟨d, none, s.since⟩ where
  maxImageSize := hfsm.2.1.trans h.maxImageSize
  transferSize := hfsm.2.2.trans h.transferSize
  chunkSize := hacc ▸ h.chunkSize
  counts := by
    have hcounts := h.counts
    rw [hannounced] at hcounts
    rw [hacc, hfsm.1, hcounts]
  fits := hfsm.1.le.trans h.fits
  announced_le := Nat.zero_le _
  staged := by
    rw [← h.staged, DfuRecoveryState.staged, DfuRecoveryState.staged, hacc, hstaging]

/-- A device that starts to count again. -/
theorem Agrees.of_cleared {s : Session} (h : Agrees lim s)
    {r : Except UInt8 Unit × DfuStateMachine} (hr : s.device.fsm.Cleared r) :
    Agrees lim ⟨DfuRecoveryState.resetAccumulator { s.device with fsm := r.2 }, none, []⟩ where
  maxImageSize := hr.2.2.1.trans h.maxImageSize
  transferSize := hr.2.2.2.trans h.transferSize
  chunkSize := h.chunkSize
  counts := hr.2.1
  fits := hr.2.1.le.trans (Nat.zero_le _)
  announced_le := Nat.zero_le _
  staged := rfl

/-- The end of a download writes the payloads, when there are enough of them. -/
theorem Agrees.finalize {s : Session} (h : Agrees lim s) (hannounced : s.announced = none)
    {d : DfuRecoveryState} (hfsm : s.device.fsm.SameCount d.fsm)
    (hacc : d.accumulator = s.device.accumulator) (hstaging : d.staging = s.device.staging)
    (hslot : d.slotWrites = s.device.slotWrites) (writeOk : Bool) :
    Agrees lim ⟨(d.finalizeManifest writeOk).2, none, s.since⟩ ∧
      SlotOk lim s (d.finalizeManifest writeOk).2 ∧ (d.finalizeManifest writeOk).1 ≠ .ack := by
  have hfits : s.since.length ≤ lim.stagingSize := by
    have hcounts := h.counts
    rw [hannounced, Option.getD_none, Nat.add_zero] at hcounts
    rw [h.length_since, ← hcounts]
    exact h.fits
  have hstaged : d.staged = s.since := by
    rw [← h.staged, DfuRecoveryState.staged, DfuRecoveryState.staged, hacc, hstaging]
  unfold DfuRecoveryState.finalizeManifest
  by_cases hsmall : d.accumulator.bytesWritten < DFU_MIN_IMAGE_SIZE
  · rw [if_pos hsmall]
    refine ⟨h.of_sameCount ?_ hacc hstaging hannounced, .inl hslot, by simp⟩
    exact hfsm.trans (d.fsm.sameCount_intoError _)
  · rw [if_neg hsmall]
    have hmin : DFU_MIN_IMAGE_SIZE ≤ s.since.length := by
      rw [h.length_since, ← hacc]
      exact Nat.le_of_not_lt hsmall
    have hwritten : d.slotWrites ++ [d.staged] = s.device.slotWrites ++ [s.since] := by
      rw [hslot, hstaged]
    cases writeOk with
    | false =>
      refine ⟨h.of_sameCount ?_ hacc hstaging hannounced, .inr ⟨hwritten, hmin, hfits⟩, by simp⟩
      exact hfsm.trans (d.fsm.sameCount_intoError _)
    | true =>
      refine ⟨h.of_sameCount ?_ hacc hstaging hannounced, .inr ⟨hwritten, hmin, hfits⟩, by simp⟩
      exact hfsm.trans ((d.fsm.sameCount_finishSync).trans
        d.fsm.finishSync.2.sameCount_finishManifest)

/-- An answer that resets the accumulator when it is not a refusal. -/
theorem Agrees.answer_reset {s : Session} (h : Agrees lim s) (hannounced : s.announced = none)
    {r : Except UInt8 Unit × DfuStateMachine}
    (hr : s.device.fsm.Cleared r ∨ s.device.fsm.Refused r) :
    (∃ d, s.device.answer r DfuRecoveryState.resetAccumulator = (.ack, d) ∧
        Agrees lim ⟨d, none, []⟩ ∧ d.slotWrites = s.device.slotWrites) ∨
      ∃ d, s.device.answer r DfuRecoveryState.resetAccumulator = (.stall, d) ∧
        Agrees lim ⟨d, none, s.since⟩ ∧ d.slotWrites = s.device.slotWrites := by
  obtain hcleared | ⟨code, rfl⟩ := hr
  · refine .inl ⟨_, ?_, h.of_cleared hcleared, rfl⟩
    rw [DfuRecoveryState.answer, hcleared.1]
  · refine .inr ⟨_, rfl, ?_, rfl⟩
    exact h.of_sameCount (s.device.fsm.sameCount_intoError code) rfl rfl hannounced

/-- The setup of a download keeps the agreement: it announces a payload, or it ends the
download. -/
theorem Agrees.dnload {s : Session} (h : Agrees lim s) (hannounced : s.announced = none)
    (dir : DfuRequestType) (blockNum len : Nat) (writeOk : Bool) :
    let req : DfuRequest := .dnload blockNum len
    let out := s.device.handleRequest dir req writeOk
    Agrees lim ⟨out.2, announcedBy out.1 (some (dir, req)),
        sinceAfter out.1 (some (dir, req)) s.since⟩ ∧ SlotOk lim s out.2 := by
  unfold DfuRecoveryState.handleRequest
  dsimp only
  by_cases hdir : dir ≠ .out
  · rw [if_pos hdir]
    exact ⟨h.of_sameCount ⟨rfl, rfl, rfl⟩ rfl rfl hannounced, .inl rfl⟩
  · rw [if_neg hdir]
    have hmax : s.device.fsm.maxImageSize < USIZE_MAX := h.maxImageSize ▸ lim.stagingSize_lt
    obtain ⟨code, hrefused⟩ | ⟨hzero, hend⟩ | ⟨hpos, hlen, hfits, hchunk⟩ :=
      s.device.fsm.dnload_cases len hmax
    · rw [hrefused]
      exact ⟨h.of_sameCount (s.device.fsm.sameCount_intoError code) rfl rfl hannounced, .inl rfl⟩
    · rw [hend]
      dsimp only
      rw [if_pos hzero]
      obtain ⟨hagrees, hslot, hack⟩ := h.finalize hannounced
        (d := { s.device with fsm := { s.device.fsm with state := .manifestSync } })
        ⟨rfl, rfl, rfl⟩ rfl rfl rfl writeOk
      refine ⟨?_, hslot⟩
      generalize DfuRecoveryState.finalizeManifest _ writeOk = out at hagrees hack ⊢
      obtain ⟨o, d⟩ := out
      cases o with
      | ack => exact absurd rfl hack
      | reply len => exact hagrees
      | manifestDone => exact hagrees
      | stall => exact hagrees
    · rw [hchunk]
      dsimp only
      rw [if_neg hpos.ne']
      have hcounts := h.counts
      rw [hannounced, Option.getD_none, Nat.add_zero] at hcounts
      refine ⟨⟨h.maxImageSize, h.transferSize, h.chunkSize, ?_, ?_, ?_, h.staged⟩, .inl rfl⟩
      · exact congrArg (· + len) hcounts
      · exact h.maxImageSize ▸ hfits
      · exact h.transferSize ▸ hlen

/-- A request keeps the agreement. -/
theorem Agrees.request {s : Session} (h : Agrees lim s) (hannounced : s.announced = none)
    (dir : DfuRequestType) (req : DfuRequest) (writeOk : Bool) :
    Agrees lim ⟨(s.device.handleRequest dir req writeOk).2,
        announcedBy (s.device.handleRequest dir req writeOk).1 (some (dir, req)),
        sinceAfter (s.device.handleRequest dir req writeOk).1 (some (dir, req)) s.since⟩ ∧
      SlotOk lim s (s.device.handleRequest dir req writeOk).2 := by
  have hsame : Agrees lim ⟨s.device, none, s.since⟩ :=
    h.of_sameCount ⟨rfl, rfl, rfl⟩ rfl rfl hannounced
  cases req with
  | detach timeout =>
    dsimp only [DfuRecoveryState.handleRequest]
    split_ifs
    · exact ⟨hsame, .inl rfl⟩
    · have hcount := s.device.fsm.sameCount_detach
      unfold DfuRecoveryState.answer
      cases s.device.fsm.detach.1 with
      | ok u => exact ⟨h.of_sameCount hcount rfl rfl hannounced, .inl rfl⟩
      | error code => exact ⟨h.of_sameCount hcount rfl rfl hannounced, .inl rfl⟩
  | dnload blockNum len => exact h.dnload hannounced dir blockNum len writeOk
  | upload blockNum len => exact ⟨hsame, .inl rfl⟩
  | getStatus =>
    dsimp only [DfuRecoveryState.handleRequest]
    split_ifs
    · exact ⟨hsame, .inl rfl⟩
    · refine ⟨h.of_sameCount ?_ rfl rfl hannounced, .inl rfl⟩
      unfold DfuRecoveryState.polled
      split_ifs
      · exact s.device.fsm.sameCount_finishSync
      · exact ⟨rfl, rfl, rfl⟩
  | clrStatus =>
    dsimp only [DfuRecoveryState.handleRequest]
    split_ifs
    · exact ⟨hsame, .inl rfl⟩
    · obtain ⟨d, hanswer, hagrees, hslot⟩ | ⟨d, hanswer, hagrees, hslot⟩ :=
        h.answer_reset hannounced s.device.fsm.clrStatus_cases
      · rw [hanswer]
        exact ⟨hagrees, .inl hslot⟩
      · rw [hanswer]
        exact ⟨hagrees, .inl hslot⟩
  | getState =>
    dsimp only [DfuRecoveryState.handleRequest]
    split_ifs
    · exact ⟨hsame, .inl rfl⟩
    · exact ⟨h.of_sameCount ⟨rfl, rfl, rfl⟩ rfl rfl hannounced, .inl rfl⟩
  | abort =>
    dsimp only [DfuRecoveryState.handleRequest]
    split_ifs
    · exact ⟨hsame, .inl rfl⟩
    · obtain ⟨d, hanswer, hagrees, hslot⟩ | ⟨d, hanswer, hagrees, hslot⟩ :=
        h.answer_reset hannounced s.device.fsm.abort_cases
      · rw [hanswer]
        exact ⟨hagrees, .inl hslot⟩
      · rw [hanswer]
        exact ⟨hagrees, .inl hslot⟩

/-- Every event of a disciplined host keeps the agreement and commits the download. -/
theorem Agrees.step {s : Session} (h : Agrees lim s) {e : Event} (he : s.Disciplined e) :
    s.CommitsDownload lim e ∧ Agrees lim (s.step lim e) := by
  cases e with
  | start => exact ⟨.inl rfl, Agrees.start⟩
  | setup raw writeOk =>
    unfold CommitsDownload
    cases hreq : DfuRecoveryState.request raw with
    | none =>
      have hstep : s.step lim (.setup raw writeOk) = ⟨s.device, none, s.since⟩ := by
        simp only [Session.step, DfuRecoveryState.feedSetupPacket, hreq]
        rfl
      rw [hstep]
      exact ⟨.inl rfl, h.of_sameCount ⟨rfl, rfl, rfl⟩ rfl rfl he⟩
    | some r =>
      have hrequest := h.request he r.1 r.2 writeOk
      simp only [Session.step, DfuRecoveryState.feedSetupPacket, hreq]
      exact hrequest.symm
  | payload bytes => exact ⟨.inl (h.payload he).2, (h.payload he).1⟩
  | takeReply n =>
    exact ⟨.inl rfl, h.maxImageSize, h.transferSize, h.chunkSize, h.counts, h.fits,
      h.announced_le, h.staged⟩

/-- In every disciplined run the counts agree whenever no payload is awaited, and the slot is
written only with the payloads since the last reset. -/
theorem commits_download (lim : OtaLimits) {events : List Event}
    (h : Guarded (step lim) Disciplined (new lim) events) :
    (let s := run (step lim) (new lim) events
     s.announced = none → s.device.fsm.bytesWritten = s.device.accumulator.bytesWritten) ∧
      Guarded (step lim) (CommitsDownload lim) (new lim) events := by
  constructor
  · intro s hannounced
    have hagrees : Agrees lim s :=
      run_invariant_of_guarded (Agrees lim) (fun s e hs he => (hs.step he).2) agrees_new h
    rw [hagrees.counts, hannounced]
    rfl
  · exact guarded_of_invariant (Agrees lim) (fun s e hs he => hs.step he) agrees_new h

/-- The host announces a chunk of 1024 bytes, sends it, and polls. -/
def sampleChunk : List Event :=
  [.setup [0x21, 1, 0, 0, 0, 0, 0, 4] true, .payload (List.replicate 1024 0x5A),
    .setup [0xA1, 3, 0, 0, 0, 0, 6, 0] true]

/-- A download of 64 chunks, with the empty request that ends it. -/
def sampleDownload : List Event :=
  (List.replicate 64 sampleChunk).flatten ++ [.setup [0x21, 1, 0, 0, 0, 0, 0, 0] true]

theorem sampleLimits_pos : 1 ≤ 8 := by decide

theorem sampleLimits_le : 8 ≤ 64 := by decide

def sampleLimits : OtaLimits := ⟨8, sampleLimits_pos, sampleLimits_le⟩

instance (s : Session) (e : Event) : Decidable (s.Disciplined e) :=
  match e with
  | .start => .isTrue trivial
  | .setup _ _ => inferInstanceAs (Decidable (s.announced = none))
  | .payload bytes => inferInstanceAs (Decidable (s.announced = some bytes.length))
  | .takeReply _ => .isTrue trivial

theorem commits_download_sample :
    (run (step sampleLimits) (new sampleLimits) sampleDownload).device.slotWrites.length = 1 ∧
      Guarded (step sampleLimits) (CommitsDownload sampleLimits) (new sampleLimits)
        sampleDownload :=
  ⟨by decide +kernel, (commits_download sampleLimits (by decide +kernel)).2⟩

end Session

end RobotOs.Dfu
