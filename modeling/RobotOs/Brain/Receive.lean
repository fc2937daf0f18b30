import RobotOs.Brain.AuthEnvelope
import RobotOs.Brain.MultiStream
import RobotOs.Brain.Protocol
import RobotOs.Crypto.SecureChannel

/-!
# The brain receive loop

What `behavior_task` does with the bytes of one `recv` on the brain link.  Up to
four length-delimited layers are taken off: the stream multiplexer, the AEAD
frame, the authenticated envelope and the brain packet.  The middle two are
drained in a loop over the whole buffer, and the packets of the decoded bytes in
a second one.  The multiplexer is opened once, outside both.

`received_eq_iff` says when a list of commands that the peer sealed one by one
and that arrived together is dispatched as it was sent.  Without the multiplexer
it always is, down to the size that the receive path is made for.  Under the
multiplexer everything behind the first command is lost.
-/

namespace RobotOs.Brain

open Lib.Framing Crypto

def RECV_INNER_MAX : Nat := 64
def RECV_ENV_MAX : Nat := RECV_INNER_MAX + ENVELOPE_OVERHEAD
/-- The size of the raw receive buffer. -/
def RECV_RAW_MAX : Nat := RECV_ENV_MAX + PACKET_OVERHEAD + MultiStream.HEADER_LEN + 16
/-- The size of the buffer that the drain loop fills. -/
def RECV_BUF_LEN : Nat := RECV_INNER_MAX * 4

/-- The receive side of the link: the multiplexer flag `CFG_MULTI_STREAM`, the
encrypted link when one is up, and the state of the envelope layer. -/
structure Receiver where
  multiStream : Bool
  link : Option EncryptLink
  envelope : Envelope

/-! ## The loop of the code -/

/-- What the drain loop carries: the bytes written to the receive buffer so far
and the envelope state. -/
structure Drained where
  filled : Nat
  envelope : Envelope

/-- One round of the drain loop over the control bytes. -/
def envelopeStep (P : Primitives) (link : Option EncryptLink) (s : Drained) (rest : Bytes) :
    Step Drained Bytes :=
  if RECV_BUF_LEN ≤ s.filled then .stop s
  else
    match link with
    | some l =>
      let (env, aeadEaten) := l.decryptConsuming P rest RECV_ENV_MAX
      if env.length = 0 then .stop s
      else
        match unwrapConsuming P s.envelope env (RECV_BUF_LEN - s.filled) with
        | (some (inner, _), e) => .emit inner aeadEaten ⟨s.filled + inner.length, e⟩
        | (none, e) => .stop { s with envelope := e }
    | none =>
      match unwrapConsuming P s.envelope rest (RECV_BUF_LEN - s.filled) with
      | (some (inner, eaten), e) => .emit inner eaten ⟨s.filled + inner.length, e⟩
      | (none, e) => .stop { s with envelope := e }

/-- The control bytes of one `recv`: the payload of a multiplexed control frame,
or all of them. -/
def controlBytes (rx : Receiver) (raw : Bytes) : Bytes :=
  if rx.multiStream then
    match MultiStream.unwrap raw with
    | some (sid, _, payload) => if sid = MultiStream.STREAM_CONTROL then payload else []
    | none => []
  else raw

/-- The receive buffer after the drain loop, and the envelope state. -/
def drainEnvelopes (P : Primitives) (rx : Receiver) (raw : Bytes) : Bytes × Envelope :=
  let out := drainAll (envelopeStep P rx.link) ⟨0, rx.envelope⟩ (controlBytes rx raw)
  (out.1.flatten, out.2.envelope)

/-- The packets that one `recv` of `raw` dispatches, in order. -/
def received (P : Primitives) (rx : Receiver) (raw : Bytes) : List Packet :=
  framePackets (drainEnvelopes P rx raw).1

/-! ## The peer -/

/-- A command as the peer sends it: the packet, the envelope nonce and the AEAD
nonce it is sealed under. -/
structure Command where
  packet : Packet
  nonce : UInt64
  aeadNonce : Bytes
  aeadNonce_length : aeadNonce.length = NONCE_SIZE

/-- The envelope of a command. -/
def Command.envelope (P : Primitives) (key : Bytes) (c : Command) : Bytes :=
  envelopeFrame P key DIR_RX c.nonce (buildPacket c.packet)

/-- The envelope, inside an AEAD frame when the link has one.  The peer's send
keys are our receive keys. -/
def Command.secured (P : Primitives) (key : Bytes) (link : Option EncryptLink) (c : Command) :
    Bytes :=
  match link with
  | some l => aeadFrame P l.inner.rxEncKey l.inner.rxMacKey c.aeadNonce (c.envelope P key)
  | none => c.envelope P key

/-- The bytes of one command on the wire, as the link is configured. -/
def Command.wire (P : Primitives) (key : Bytes) (rx : Receiver) (c : Command) : Bytes :=
  if rx.multiStream then
    MultiStream.streamFrame MultiStream.STREAM_CONTROL (c.secured P key rx.link)
  else c.secured P key rx.link

/-- The bytes of a list of commands, one behind the other. -/
def wire (P : Primitives) (key : Bytes) (rx : Receiver) (cmds : List Command) : Bytes :=
  (cmds.map (Command.wire P key rx)).flatten

/-- The link is up: the kernel holds the key, policy permits envelope frames,
and an encrypted link has finished its handshake. -/
structure Ready (rx : Receiver) (key : Bytes) : Prop where
  keyed : rx.envelope.key = some key
  permitted : linkPolicyDenial rx.envelope = none
  established : ∀ l ∈ rx.link, l.state = .Established ∧ l.inner.state = .Established

/-- The peer's nonces grow, from above the highest one accepted so far. -/
def FreshNonces (mark : UInt64) (cmds : List Command) : Prop :=
  (mark :: cmds.map Command.nonce).Pairwise (· < ·)

/-! ## Sizes -/

section Sizes

variable (P : Primitives) (key : Bytes) (rx : Receiver) (c : Command)

theorem length_envelope :
    (c.envelope P key).length = ENVELOPE_OVERHEAD + (6 + c.packet.payload.length) := by
  simp [Command.envelope]

theorem length_secured (link : Option EncryptLink) :
    (c.secured P key link).length =
      (if link.isSome then PACKET_OVERHEAD else 0) + (c.envelope P key).length := by
  cases link with
  | none => simp [Command.secured]
  | some l => simp [Command.secured, length_aeadFrame P _ _ _ _ c.aeadNonce_length]

theorem length_secured_le_wire :
    (c.secured P key rx.link).length ≤ (c.wire P key rx).length := by
  unfold Command.wire
  split
  · simp
  · rfl

theorem secured_ne_nil (link : Option EncryptLink) : c.secured P key link ≠ [] := by
  apply List.ne_nil_of_length_pos
  rw [length_secured, length_envelope]
  omega

theorem length_wire_cons (cmds : List Command) :
    (wire P key rx (c :: cmds)).length =
      (c.wire P key rx).length + (wire P key rx cmds).length := by
  simp [wire]

/-- The packets alone are no longer than the wire bytes. -/
theorem length_packets_le_wire (cmds : List Command) :
    (cmds.map fun c => buildPacket c.packet).flatten.length ≤ (wire P key rx cmds).length := by
  induction cmds with
  | nil => simp
  | cons c cmds ih =>
    have hc := length_secured_le_wire P key rx c
    rw [length_secured, length_envelope] at hc
    rw [length_wire_cons, List.map_cons, List.flatten_cons, List.length_append,
      length_buildPacket]
    omega

end Sizes

/-! ## The drain loop reads what the peer sealed -/

section Drain

variable (P : Primitives) {key : Bytes} {link : Option EncryptLink} {s : Drained}

/-- The packet is one that the receive path is sized for. -/
def Fits (link : Option EncryptLink) (c : Command) : Prop :=
  link.isSome → 6 + c.packet.payload.length ≤ RECV_INNER_MAX

/-- One round of the drain loop takes one command. -/
theorem envelopeStep_secured (hkey : s.envelope.key = some key)
    (hpolicy : linkPolicyDenial s.envelope = none)
    (hlink : ∀ l ∈ link, l.state = .Established ∧ l.inner.state = .Established) (c : Command)
    (hnonce : s.envelope.highestRxNonce < c.nonce) (hfits : Fits link c)
    (hroom : s.filled + (buildPacket c.packet).length ≤ RECV_BUF_LEN) (tail : Bytes) :
    envelopeStep P link s (c.secured P key link ++ tail) =
      .emit (buildPacket c.packet) (c.secured P key link).length
        ⟨s.filled + (buildPacket c.packet).length,
          { s.envelope with highestRxNonce := c.nonce }⟩ := by
  have hlen := length_buildPacket c.packet
  have hopen := fun more => unwrapConsuming_envelopeFrame P hkey hpolicy c.nonce hnonce
    (buildPacket c.packet) more
    (by simp only [RECV_BUF_LEN, RECV_INNER_MAX, MAX_INNER_BYTES] at *; omega)
    (RECV_BUF_LEN - s.filled) (by omega)
  have hfull : ¬ RECV_BUF_LEN ≤ s.filled := by omega
  cases link with
  | none =>
    simp only [envelopeStep, hfull, if_false, Command.secured, Command.envelope, hopen tail,
      length_envelopeFrame]
  | some l =>
    obtain ⟨hstate, hinner⟩ := hlink l rfl
    have henv : (c.envelope P key).length ≤ RECV_ENV_MAX := by
      have hsmall := hfits rfl
      rw [length_envelope]
      simp only [RECV_ENV_MAX]
      omega
    have hdec := SecureChannel.decryptConsuming_aeadFrame P hinner c.aeadNonce (c.envelope P key)
      tail c.aeadNonce_length (le_trans henv (by decide)) RECV_ENV_MAX henv
    have hne : (c.envelope P key).length ≠ 0 := by
      rw [length_envelope]
      omega
    have hopen' := hopen []
    rw [List.append_nil] at hopen'
    simp only [envelopeStep, hfull, Command.secured, EncryptLink.decryptConsuming, hstate, ne_eq,
      not_true_eq_false, if_false, hdec, hne, length_aeadFrame P _ _ _ _ c.aeadNonce_length]
    simp only [Command.envelope, hopen']

/-- An AEAD frame with a packet beyond that size ends the loop. -/
theorem envelopeStep_oversize (c : Command) (hfits : ¬ Fits link c)
    (hsize : (c.envelope P key).length < 65536) (tail : Bytes) :
    envelopeStep P link s (c.secured P key link ++ tail) = .stop s := by
  cases link with
  | none => exact absurd (fun h => by simp at h) hfits
  | some l =>
    have hbig : RECV_ENV_MAX < (c.envelope P key).length := by
      simp only [Fits, Option.isSome_some, true_implies] at hfits
      rw [length_envelope]
      simp only [RECV_ENV_MAX]
      omega
    have hdec := SecureChannel.decryptConsuming_eq_zero_of_lt P l.inner c.aeadNonce
      (c.envelope P key) tail c.aeadNonce_length hsize RECV_ENV_MAX hbig
    have hlink : l.decryptConsuming P (aeadFrame P l.inner.rxEncKey l.inner.rxMacKey c.aeadNonce
        (c.envelope P key) ++ tail) RECV_ENV_MAX = ([], 0) := by
      unfold EncryptLink.decryptConsuming
      split
      · rfl
      · exact hdec
    simp [envelopeStep, Command.secured, hlink]

/-- The drain loop reads the commands one after the other. -/
theorem reads_secured (hlink : ∀ l ∈ link, l.state = .Established ∧ l.inner.state = .Established)
    (cmds : List Command) (hkey : s.envelope.key = some key)
    (hpolicy : linkPolicyDenial s.envelope = none)
    (hfresh : FreshNonces s.envelope.highestRxNonce cmds) (hfits : ∀ c ∈ cmds, Fits link c)
    (hroom : s.filled + (cmds.map fun c => buildPacket c.packet).flatten.length ≤ RECV_BUF_LEN) :
    ∃ s', Reads (envelopeStep P link) s (cmds.map (Command.secured P key link))
      (cmds.map fun c => buildPacket c.packet) s' := by
  induction cmds generalizing s with
  | nil => exact ⟨s, .nil s⟩
  | cons c cmds ih =>
    simp only [List.map_cons, List.flatten_cons, List.length_append] at hroom
    simp only [FreshNonces, List.map_cons, List.pairwise_cons] at hfresh
    obtain ⟨hmark, hrest⟩ := hfresh
    have hstep := envelopeStep_secured P hkey hpolicy hlink c (hmark _ (by simp))
      (hfits c (by simp)) (by omega)
    -- the next round starts from the state this one leaves
    have hnext := ih
      (s := ⟨s.filled + (buildPacket c.packet).length,
        { s.envelope with highestRxNonce := c.nonce }⟩)
      hkey hpolicy (List.pairwise_cons.mpr hrest) (fun d hd => hfits d (by simp [hd]))
      (by simp only; omega)
    obtain ⟨s', hreads⟩ := hnext
    exact ⟨s', .cons (secured_ne_nil P key c link) hstep hreads⟩

end Drain

/-! ## What one `recv` dispatches -/

section Received

variable (P : Primitives) {key : Bytes} {rx : Receiver}

theorem wire_eq_secured (hms : rx.multiStream = false) :
    Command.wire P key rx = Command.secured P key rx.link := by
  funext c
  simp [Command.wire, hms]

/-- The multiplexer hands over the first command of several, and a plain link
all of them. -/
theorem controlBytes_wire_cons (c : Command) (cmds : List Command)
    (hsize : (c.secured P key rx.link).length ≤ MultiStream.MAX_PAYLOAD_LEN) :
    controlBytes rx (wire P key rx (c :: cmds)) = c.secured P key rx.link ++
      if rx.multiStream then [] else (cmds.map (Command.secured P key rx.link)).flatten := by
  cases hms : rx.multiStream with
  | true =>
    simp only [controlBytes, wire, hms, if_true, List.map_cons, List.flatten_cons, Command.wire,
      MultiStream.unwrap_streamFrame _ _ _ hsize, List.append_nil]
  | false =>
    simp [controlBytes, wire, hms, wire_eq_secured P hms]

/-- Commands that reach the drain loop are dispatched, each once and in order. -/
theorem received_of_controlBytes (hready : Ready rx key) (cmds : List Command) (raw : Bytes)
    (hctrl : controlBytes rx raw = (cmds.map (Command.secured P key rx.link)).flatten)
    (hfresh : FreshNonces rx.envelope.highestRxNonce cmds)
    (hfits : ∀ c ∈ cmds, Fits rx.link c)
    (hroom : (cmds.map fun c => buildPacket c.packet).flatten.length ≤ RECV_BUF_LEN) :
    received P rx raw = cmds.map Command.packet := by
  obtain ⟨s', hreads⟩ := reads_secured P (s := ⟨0, rx.envelope⟩) hready.established cmds
    hready.keyed hready.permitted hfresh hfits (by simpa using hroom)
  have hpayload : ∀ p ∈ cmds.map Command.packet, p.payload.length < 65536 := by
    intro p hp
    obtain ⟨c, hc, rfl⟩ := List.mem_map.mp hp
    have hle : (buildPacket c.packet).length ≤
        (cmds.map fun c => buildPacket c.packet).flatten.length :=
      (List.sublist_flatten_of_mem
        (List.mem_map_of_mem (f := fun c => buildPacket c.packet) hc)).length_le
    rw [length_buildPacket] at hle
    simp only [RECV_BUF_LEN, RECV_INNER_MAX] at hroom
    omega
  have hframes := framePackets_flatten (cmds.map Command.packet) hpayload
  rw [List.map_map] at hframes
  rw [received, drainEnvelopes, hctrl, drainAll_reads _ hreads]
  exact hframes

/-- A first command that is too large for an encrypted link ends the round with
nothing dispatched. -/
theorem received_eq_nil_of_oversize (c : Command) (raw tail : Bytes)
    (hctrl : controlBytes rx raw = c.secured P key rx.link ++ tail) (hfits : ¬ Fits rx.link c)
    (hsize : (c.envelope P key).length < 65536) : received P rx raw = [] := by
  have hne : c.secured P key rx.link ++ tail ≠ [] := by
    simp [secured_ne_nil P key c rx.link]
  rw [received, drainEnvelopes, hctrl,
    drainAll_stop _ hne (envelopeStep_oversize P c hfits hsize tail)]
  rfl

/-- On an encrypted link one `recv` has room for one command. -/
theorem length_le_one_of_link (cmds : List Command) (hlink : rx.link.isSome)
    (hwire : (wire P key rx cmds).length ≤ RECV_RAW_MAX) : cmds.length ≤ 1 := by
  have hcmd : ∀ c : Command, PACKET_OVERHEAD + ENVELOPE_OVERHEAD + 6 ≤
      (c.wire P key rx).length := by
    intro c
    have hle := length_secured_le_wire P key rx c
    rw [length_secured, if_pos hlink, length_envelope] at hle
    omega
  match cmds with
  | [] => simp
  | [_] => simp
  | c :: d :: cmds =>
    have hc := hcmd c
    have hd := hcmd d
    rw [length_wire_cons, length_wire_cons] at hwire
    simp only [RECV_RAW_MAX, RECV_ENV_MAX, RECV_INNER_MAX, ENVELOPE_OVERHEAD, PACKET_OVERHEAD,
      NONCE_SIZE, HMAC_SIZE, NONCE_BYTES, HMAC_BYTES, LEN_BYTES, MultiStream.HEADER_LEN] at *
    omega

/-- Commands that the peer seals one by one and that arrive in one `recv` are
dispatched exactly as sent if and only if a multiplexed link carries at most one
of them and an encrypted link only packets of the size it has room for. -/
theorem received_eq_iff (hready : Ready rx key) (cmds : List Command)
    (hfresh : FreshNonces rx.envelope.highestRxNonce cmds)
    (hwire : (wire P key rx cmds).length ≤ RECV_RAW_MAX) :
    received P rx (wire P key rx cmds) = cmds.map Command.packet ↔
      (rx.multiStream = true → cmds.length ≤ 1) ∧
      (rx.link.isSome = true → ∀ c ∈ cmds, 6 + c.packet.payload.length ≤ RECV_INNER_MAX) := by
  cases cmds with
  | nil =>
    have hctrl : controlBytes rx [] = [] := by
      cases hms : rx.multiStream <;>
        simp [controlBytes, hms, MultiStream.unwrap, MultiStream.HEADER_LEN]
    have hnone := received_of_controlBytes P hready [] [] hctrl hfresh (by simp) (by simp)
    simpa [wire] using hnone
  | cons c cmds =>
    have hsecured : (c.secured P key rx.link).length ≤ RECV_RAW_MAX := by
      have hle := length_secured_le_wire P key rx c
      rw [length_wire_cons] at hwire
      omega
    have henvelope : (c.envelope P key).length ≤ RECV_RAW_MAX := by
      rw [length_secured] at hsecured
      omega
    have hctrl := controlBytes_wire_cons P c cmds (le_trans hsecured (by decide))
    have hroom := le_trans (length_packets_le_wire P key rx (c :: cmds))
      (le_trans hwire (show RECV_RAW_MAX ≤ RECV_BUF_LEN by decide))
    constructor
    · intro h
      have hfits : Fits rx.link c := by
        by_contra hbig
        rw [received_eq_nil_of_oversize P c _ _ hctrl hbig
          (lt_of_le_of_lt henvelope (by decide))] at h
        simp at h
      constructor
      · intro hms
        -- the multiplexer leaves only the first command, so there is no other
        rw [hms] at hctrl
        have hone := received_of_controlBytes P hready [c] _ (by simpa using hctrl)
          (hfresh.sublist (by simp)) (by simpa using hfits) (by simp at hroom ⊢; omega)
        rw [h] at hone
        simpa using congrArg List.length hone
      · intro hlink d hd
        have hlen := length_le_one_of_link P (c :: cmds) hlink hwire
        have hnil : cmds = [] := by simpa using hlen
        have hdc : d = c := by simpa [hnil] using hd
        rw [hdc]
        exact hfits hlink
    · intro h
      apply received_of_controlBytes P hready (c :: cmds) _ _ hfresh
        (fun d hd hlink => h.2 hlink d hd) hroom
      rw [hctrl]
      cases hms : rx.multiStream with
      | true =>
        have hnil : cmds = [] := by simpa using h.1 hms
        simp [hnil]
      | false => simp

end Received

/-! ## An actuator command with an ESTOP behind it -/

/-- A link key. -/
def sampleKey : Bytes := List.replicate 32 0x5A

/-- A keyed receiver without an encrypted link. -/
def sampleReceiver (multiStream : Bool) : Receiver where
  multiStream := multiStream
  link := none
  envelope :=
    { key := some sampleKey, highestRxNonce := 0, sendNonce := 0, linkEncryptEnforced := false,
      aeadSessions := 0 }

/-- Half speed on both wheels. -/
def sampleActuator : Command where
  packet := ⟨PKT_ACTUATOR, [0, 2, 0, 50, 0, 50, 0]⟩
  nonce := 1
  aeadNonce := List.replicate NONCE_SIZE 0
  aeadNonce_length := by simp

/-- An ESTOP of the operator. -/
def sampleEstop : Command where
  packet := ⟨PKT_ESTOP, [0]⟩
  nonce := 2
  aeadNonce := List.replicate NONCE_SIZE 0
  aeadNonce_length := by simp

theorem ready_sampleReceiver (multiStream : Bool) :
    Ready (sampleReceiver multiStream) sampleKey where
  keyed := rfl
  permitted := rfl
  established := by simp [sampleReceiver]

theorem freshNonces_sample : FreshNonces 0 [sampleActuator, sampleEstop] := by
  unfold FreshNonces
  decide

theorem length_wire_sample (P : Primitives) (multiStream : Bool) :
    (wire P sampleKey (sampleReceiver multiStream) [sampleActuator, sampleEstop]).length ≤
      RECV_RAW_MAX := by
  cases multiStream <;>
    simp [wire, Command.wire, sampleReceiver, Command.secured, Command.envelope, sampleActuator,
      sampleEstop] <;> decide

/-- On a multiplexed link the ESTOP is lost, whatever the hash and the cipher. -/
theorem received_sample_multiStream (P : Primitives) :
    received P (sampleReceiver true)
      (wire P sampleKey (sampleReceiver true) [sampleActuator, sampleEstop]) =
        [sampleActuator.packet] := by
  have hctrl : controlBytes (sampleReceiver true)
      (wire P sampleKey (sampleReceiver true) [sampleActuator, sampleEstop]) =
        sampleActuator.secured P sampleKey none ++ [] :=
    controlBytes_wire_cons P sampleActuator [sampleEstop] (by
      rw [length_secured, length_envelope]
      decide)
  apply received_of_controlBytes P (ready_sampleReceiver true) [sampleActuator] _ hctrl
  · unfold FreshNonces
    decide
  · simp [Fits, sampleReceiver]
  · simp only [List.map_cons, List.map_nil, List.flatten_cons, List.flatten_nil, List.append_nil,
      length_buildPacket]
    decide

/-- A digest that depends on every byte, and a cipher that adds the key. -/
def samplePrimitives : Primitives where
  sha256 := fun data =>
    (List.range 32).map fun i => data.foldl (fun h b => h * 31 + b) (UInt8.ofNat i)
  encryptBlock := List.zipWith (· ^^^ ·)
  length_sha256 := by simp

/-- The link is up, the nonces are new and the bytes fit one `recv`, and the
ESTOP is not dispatched. -/
theorem estop_lost_behind_actuator :
    Ready (sampleReceiver true) sampleKey ∧
    FreshNonces (sampleReceiver true).envelope.highestRxNonce [sampleActuator, sampleEstop] ∧
    (wire samplePrimitives sampleKey (sampleReceiver true)
      [sampleActuator, sampleEstop]).length ≤ RECV_RAW_MAX ∧
    received samplePrimitives (sampleReceiver true)
      (wire samplePrimitives sampleKey (sampleReceiver true) [sampleActuator, sampleEstop]) ≠
        [sampleActuator.packet, sampleEstop.packet] := by
  refine ⟨ready_sampleReceiver true, freshNonces_sample, length_wire_sample _ true, ?_⟩
  rw [received_sample_multiStream]
  simp

/-- On a plain link the same two commands are both dispatched. -/
theorem received_eq_iff_plain_estop :
    received samplePrimitives (sampleReceiver false)
      (wire samplePrimitives sampleKey (sampleReceiver false) [sampleActuator, sampleEstop]) =
        [sampleActuator.packet, sampleEstop.packet] :=
  (received_eq_iff samplePrimitives (ready_sampleReceiver false) [sampleActuator, sampleEstop]
    freshNonces_sample (length_wire_sample samplePrimitives false)).mpr
      ⟨by simp [sampleReceiver], by simp [sampleReceiver]⟩

end RobotOs.Brain
