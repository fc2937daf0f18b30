import RobotOs.Lib.Framing

/-!
# Stream multiplexing

The multi-stream crate: a frame is `stream id ‖ length ‖ payload`.  `unwrap`
looks at one frame and does not say where the next one starts.
-/

namespace RobotOs.Brain.MultiStream

open Lib.Framing

def HEADER_LEN : Nat := 3
def MAX_PAYLOAD_LEN : Nat := 65535
def STREAM_CONTROL : UInt8 := 0x00

inductive WrapError where
  | PayloadTooLarge
  | OutputTooSmall
  deriving DecidableEq, Repr

/-- A whole frame. -/
def streamFrame (streamId : UInt8) (payload : Bytes) : Bytes :=
  [streamId] ++ (leBytes 2 payload.length ++ payload)

/-- `wrap`. -/
def wrap (streamId : UInt8) (innerBytes : Bytes) (outLen : Nat) : Except WrapError Bytes :=
  if MAX_PAYLOAD_LEN < innerBytes.length then .error .PayloadTooLarge
  else if outLen < HEADER_LEN + innerBytes.length then .error .OutputTooSmall
  else .ok (streamFrame streamId innerBytes)

/-- `unwrap`: the stream id, the payload length and the payload. -/
def unwrap (frame : Bytes) : Option (UInt8 × Nat × Bytes) :=
  if frame.length < HEADER_LEN then none
  else
    let streamId := frame.getD 0 0
    let payloadLen := ofLE (slice frame 1 2)
    let available := frame.length - HEADER_LEN
    if available < payloadLen then none
    else some (streamId, payloadLen, slice frame HEADER_LEN payloadLen)

@[simp] theorem length_streamFrame (streamId : UInt8) (payload : Bytes) :
    (streamFrame streamId payload).length = HEADER_LEN + payload.length := by
  simp [streamFrame, HEADER_LEN]
  omega

/-- `unwrap` reads back the first frame, whatever follows it. -/
theorem unwrap_streamFrame (streamId : UInt8) (payload tail : Bytes)
    (h : payload.length ≤ MAX_PAYLOAD_LEN) :
    unwrap (streamFrame streamId payload ++ tail) = some (streamId, payload.length, payload) := by
  have hid : (streamFrame streamId payload ++ tail).getD 0 0 = streamId := by
    simp [streamFrame]
  have hlen : ofLE (slice (streamFrame streamId payload ++ tail) 1 2) = payload.length := by
    simp only [streamFrame, List.append_assoc]
    rw [slice_append_right _ _ _ _ (by simp)]
    have hfield := slice_zero_append (leBytes 2 payload.length) (payload ++ tail) 2 (by simp)
    simp only [List.length_singleton, Nat.sub_self, hfield]
    exact ofLE_leBytes _ _ (by simp only [MAX_PAYLOAD_LEN] at h; omega)
  have hpayload : slice (streamFrame streamId payload ++ tail) HEADER_LEN payload.length =
      payload := by
    simp only [streamFrame, List.append_assoc]
    rw [slice_append_right _ _ _ _ (by simp [HEADER_LEN]),
      slice_append_right _ _ _ _ (by simp [HEADER_LEN])]
    simpa [HEADER_LEN] using slice_zero_append payload tail _ rfl
  simp only [unwrap, hid, hlen, hpayload, List.length_append, length_streamFrame]
  rw [if_neg (by omega), if_neg (by omega)]

end RobotOs.Brain.MultiStream
