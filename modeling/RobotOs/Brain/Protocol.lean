import RobotOs.Lib.Framing

/-!
# Brain protocol packets

`brain_protocol.rs` of the behavior crate: the CRC, the frame builder and the
frame parser.  `framePackets` is the loop of `behavior_task` that walks the
decoded receive buffer: it takes every complete packet in turn and looks for the
next magic pair when one does not parse.

The main results are `parsePacket_buildPacket`, the round trip of one packet
under any bytes that follow it, and `framePackets_flatten`, the same for a
buffer that holds several packets.
-/

namespace RobotOs.Brain

open Lib.Framing

/-- The two bytes `b"BR"` that open a packet. -/
def MAGIC : Bytes := [0x42, 0x52]

/-! ## Packet types that the kernel dispatches on -/

def PKT_ACTUATOR : UInt8 := 0x80
def PKT_MODE : UInt8 := 0x81
def PKT_CONFIG : UInt8 := 0x83
def PKT_PAYLOAD : UInt8 := 0x87
def PKT_ESTOP : UInt8 := 0x88
def PKT_PREDICT : UInt8 := 0x89
def PKT_DEGRADE : UInt8 := 0x8A
def PKT_SEMANTIC_LEVEL : UInt8 := 0x8B

/-- A packet as the dispatcher sees it. -/
structure Packet where
  pktType : UInt8
  payload : Bytes
  deriving DecidableEq, Repr

/-! ## CRC-8/MAXIM -/

/-- One bit of the CRC, polynomial `0x31`. -/
def crc8Bit (crc : UInt8) : UInt8 :=
  if crc &&& 0x80 ≠ 0 then (crc <<< 1) ^^^ 0x31 else crc <<< 1

/-- `crc8`. -/
def crc8 (data : Bytes) : UInt8 :=
  data.foldl (fun crc b => crc8Bit^[8] (crc ^^^ b)) 0

/-! ## Frame builder and parser -/

/-- The five header bytes and the payload, over which the CRC runs. -/
def packetBody (p : Packet) : Bytes :=
  MAGIC ++ ([p.pktType] ++ (leBytes 2 p.payload.length ++ p.payload))

/-- `build_packet`. -/
def buildPacket (p : Packet) : Bytes := packetBody p ++ [crc8 (packetBody p)]

/-- `parse_packet`: the type, where the payload starts, its length, and the
number of bytes consumed. -/
def parsePacket (buf : Bytes) : Option (UInt8 × Nat × Nat × Nat) :=
  if buf.length < 6 then none
  else if slice buf 0 2 ≠ MAGIC then none
  else
    let pktType := buf.getD 2 0
    let length := ofLE (slice buf 3 2)
    let total := 5 + length + 1
    if buf.length < total then none
    else
      let expected := crc8 (slice buf 0 (5 + length))
      if buf.getD (5 + length) 0 ≠ expected then none
      else some (pktType, 5, length, total)

@[simp] theorem length_packetBody (p : Packet) :
    (packetBody p).length = 5 + p.payload.length := by
  simp [packetBody, MAGIC]
  omega

@[simp] theorem length_buildPacket (p : Packet) :
    (buildPacket p).length = 6 + p.payload.length := by
  simp [buildPacket]
  omega

theorem buildPacket_ne_nil (p : Packet) : buildPacket p ≠ [] := by
  simp [buildPacket]

/-- The payload of a packet stands at offset 5. -/
theorem slice_buildPacket_payload (p : Packet) (tail : Bytes) :
    slice (buildPacket p ++ tail) 5 p.payload.length = p.payload := by
  simp only [buildPacket, packetBody, List.append_assoc]
  rw [slice_append_right _ _ _ _ (by decide), slice_append_right _ _ _ _ (by simp [MAGIC]),
    slice_append_right _ _ _ _ (by simp [MAGIC])]
  simpa [MAGIC] using slice_zero_append p.payload _ _ rfl

/-- The length field of a packet stands at offset 3. -/
theorem slice_buildPacket_length (p : Packet) (tail : Bytes) :
    slice (buildPacket p ++ tail) 3 2 = leBytes 2 p.payload.length := by
  simp only [buildPacket, packetBody, List.append_assoc]
  rw [slice_append_right _ _ _ _ (by decide), slice_append_right _ _ _ _ (by simp [MAGIC])]
  simpa [MAGIC] using slice_zero_append (leBytes 2 p.payload.length) _ _ (length_leBytes _ _)

/-- `parse_packet` reads back what `build_packet` wrote, whatever follows. -/
theorem parsePacket_buildPacket (p : Packet) (h : p.payload.length < 65536) (tail : Bytes) :
    parsePacket (buildPacket p ++ tail) =
      some (p.pktType, 5, p.payload.length, 6 + p.payload.length) := by
  have hmagic : slice (buildPacket p ++ tail) 0 2 = MAGIC := by
    simp only [buildPacket, packetBody, List.append_assoc]
    exact slice_zero_append _ _ _ rfl
  have hlen : ofLE (slice (buildPacket p ++ tail) 3 2) = p.payload.length := by
    rw [slice_buildPacket_length, ofLE_leBytes _ _ h]
  have htype : (buildPacket p ++ tail).getD 2 0 = p.pktType := by
    simp [buildPacket, packetBody, MAGIC]
  have hbody : slice (buildPacket p ++ tail) 0 (5 + p.payload.length) = packetBody p := by
    rw [buildPacket, List.append_assoc]
    exact slice_zero_append _ _ _ (length_packetBody p)
  have hcrc : (buildPacket p ++ tail).getD (5 + p.payload.length) 0 = crc8 (packetBody p) := by
    rw [← length_packetBody, buildPacket, List.append_assoc]
    simp [List.getD_eq_getElem?_getD]
  have htotal : 5 + p.payload.length + 1 = 6 + p.payload.length := by omega
  simp only [parsePacket, hmagic, hlen, htype, hbody, hcrc, htotal]
  rw [if_neg (by simp; omega), if_neg (by simp), if_neg (by simp), if_neg (by simp)]

/-! ## The loop over a decoded buffer -/

/-- Where the next magic pair stands, as `windows(2).position` finds it. -/
def positionMagic : Bytes → Option Nat
  | a :: b :: rest =>
    if [a, b] = MAGIC then some 0 else (positionMagic (b :: rest)).map (· + 1)
  | _ => none

/-- One round of the loop: take a packet, or resynchronise, or stop. -/
def frameStep (_ : Unit) (rest : Bytes) : Step Unit Packet :=
  match parsePacket rest with
  | some (pktType, payStart, payLen, total) =>
    .emit ⟨pktType, slice rest payStart payLen⟩ total ()
  | none =>
    match positionMagic (rest.drop 1) with
    | some off => .skip (1 + off) ()
    | none => .stop ()

/-- The packets that the loop of `behavior_task` hands to the dispatcher, in
order.  A buffer of fewer than six bytes is not looked at. -/
def framePackets (recvBuf : Bytes) : List Packet :=
  if 6 ≤ recvBuf.length then (drainAll frameStep () recvBuf).1 else []

theorem frameStep_buildPacket (p : Packet) (h : p.payload.length < 65536) (tail : Bytes) :
    frameStep () (buildPacket p ++ tail) = .emit p (buildPacket p).length () := by
  simp only [frameStep, parsePacket_buildPacket p h, slice_buildPacket_payload,
    length_buildPacket]

/-- The loop reads a list of packets frame by frame. -/
theorem reads_buildPacket (packets : List Packet)
    (h : ∀ p ∈ packets, p.payload.length < 65536) :
    Reads frameStep () (packets.map buildPacket) packets () := by
  induction packets with
  | nil => exact .nil ()
  | cons p packets ih =>
    apply Reads.cons (buildPacket_ne_nil p)
    · exact frameStep_buildPacket p (h p (by simp))
    · exact ih fun q hq => h q (by simp [hq])

/-- A buffer of packets is dispatched as those packets, each once and in order. -/
theorem framePackets_flatten (packets : List Packet)
    (h : ∀ p ∈ packets, p.payload.length < 65536) :
    framePackets (packets.map buildPacket).flatten = packets := by
  cases packets with
  | nil => rfl
  | cons p packets =>
    have hlen : 6 ≤ ((p :: packets).map buildPacket).flatten.length := by
      simp only [List.map_cons, List.flatten_cons, List.length_append, length_buildPacket]
      omega
    rw [framePackets, if_pos hlen, drainAll_reads frameStep (reads_buildPacket _ h)]

end RobotOs.Brain
