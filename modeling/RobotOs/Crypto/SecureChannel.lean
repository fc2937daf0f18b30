import RobotOs.Crypto.Primitives

/-!
# The encrypted channel

`secure_channel.rs` of the crypto crate: one frame is
`nonce ‖ length ‖ ciphertext ‖ tag`, sealed with the sender's keys and opened
with the receiver's.  `EncryptLink` of the encrypt-link crate stands in front of
it and refuses everything until its handshake is done.

`decryptConsuming_aeadFrame` is the round trip of one frame under any bytes that
follow it, and `decryptConsuming_eq_zero_of_lt` the refusal of a plaintext that
does not fit the caller's buffer.
-/

namespace RobotOs.Crypto

open Lib.Framing

def NONCE_SIZE : Nat := 12
def HMAC_SIZE : Nat := 32
def PACKET_OVERHEAD : Nat := NONCE_SIZE + 2 + HMAC_SIZE
def MAX_PAYLOAD_SIZE : Nat := 2048

inductive ChannelState where
  | Init
  | Established
  deriving DecidableEq, Repr

/-- The keys and the counter of `SecureChannel`. -/
structure SecureChannel where
  state : ChannelState
  txEncKey : Bytes
  txMacKey : Bytes
  rxEncKey : Bytes
  rxMacKey : Bytes
  txCounter : UInt32

/-- The part of a frame that the tag covers. -/
def aeadBody (P : Primitives) (encKey nonce plaintext : Bytes) : Bytes :=
  nonce ++ (leBytes 2 plaintext.length ++ ctrEncrypt P encKey nonce plaintext)

/-- A whole frame. -/
def aeadFrame (P : Primitives) (encKey macKey nonce plaintext : Bytes) : Bytes :=
  aeadBody P encKey nonce plaintext ++ hmacSha256 P macKey (aeadBody P encKey nonce plaintext)

namespace SecureChannel

/-- `encrypt`: the frame, or nothing, and the channel with its counter moved. -/
def encrypt (P : Primitives) (ch : SecureChannel) (plaintext nonceRand : Bytes) (outLen : Nat) :
    Option Bytes × SecureChannel :=
  if ch.state ≠ .Established then (none, ch)
  else if MAX_PAYLOAD_SIZE < plaintext.length then (none, ch)
  else if outLen < NONCE_SIZE + 2 + plaintext.length + HMAC_SIZE then (none, ch)
  else if ch.txCounter = 0xFFFFFFFF then (none, ch)
  else
    let nonce := nonceRand ++ leBytes 4 ch.txCounter.toNat
    (some (aeadFrame P ch.txEncKey ch.txMacKey nonce plaintext),
      { ch with txCounter := ch.txCounter + 1 })

/-- `decrypt_consuming`: the plaintext of the first frame in `packet` and the
number of bytes that frame took; nothing and 0 on every failure. -/
def decryptConsuming (P : Primitives) (ch : SecureChannel) (packet : Bytes) (outLen : Nat) :
    Bytes × Nat :=
  if ch.state ≠ .Established then ([], 0)
  else if packet.length < PACKET_OVERHEAD then ([], 0)
  else
    let nonce := slice packet 0 NONCE_SIZE
    let payloadLen := ofLE (slice packet NONCE_SIZE 2)
    if MAX_PAYLOAD_SIZE < payloadLen then ([], 0)
    else
      let ctStart := NONCE_SIZE + 2
      let ctEnd := ctStart + payloadLen
      let expectedTotal := ctEnd + HMAC_SIZE
      if packet.length < expectedTotal then ([], 0)
      else if outLen < payloadLen then ([], 0)
      else if !ctEq (hmacSha256 P ch.rxMacKey (slice packet 0 ctEnd)) (slice packet ctEnd HMAC_SIZE)
      then ([], 0)
      else (ctrEncrypt P ch.rxEncKey nonce (slice packet ctStart payloadLen), expectedTotal)

end SecureChannel

/-! ## One frame, sealed and opened -/

section Frame

variable (P : Primitives) (encKey macKey nonce plaintext tail : Bytes)

theorem length_aeadBody (hnonce : nonce.length = NONCE_SIZE) :
    (aeadBody P encKey nonce plaintext).length = NONCE_SIZE + 2 + plaintext.length := by
  simp [aeadBody, hnonce]
  omega

theorem length_aeadFrame (hnonce : nonce.length = NONCE_SIZE) :
    (aeadFrame P encKey macKey nonce plaintext).length = PACKET_OVERHEAD + plaintext.length := by
  simp [aeadFrame, length_aeadBody P encKey nonce plaintext hnonce, PACKET_OVERHEAD, HMAC_SIZE]
  omega

/-- The length field of a frame. -/
theorem slice_aeadFrame_length (hnonce : nonce.length = NONCE_SIZE)
    (h : plaintext.length < 65536) :
    ofLE (slice (aeadFrame P encKey macKey nonce plaintext ++ tail) NONCE_SIZE 2) =
      plaintext.length := by
  simp only [aeadFrame, aeadBody, List.append_assoc]
  rw [slice_append_right _ _ _ _ (by omega), hnonce, Nat.sub_self,
    slice_zero_append _ _ _ (length_leBytes _ _), ofLE_leBytes _ _ h]

/-- The nonce of a frame. -/
theorem slice_aeadFrame_nonce (hnonce : nonce.length = NONCE_SIZE) :
    slice (aeadFrame P encKey macKey nonce plaintext ++ tail) 0 NONCE_SIZE = nonce := by
  simp only [aeadFrame, aeadBody, List.append_assoc]
  exact slice_zero_append _ _ _ hnonce

/-- The ciphertext of a frame. -/
theorem slice_aeadFrame_ciphertext (hnonce : nonce.length = NONCE_SIZE) :
    slice (aeadFrame P encKey macKey nonce plaintext ++ tail) (NONCE_SIZE + 2) plaintext.length =
      ctrEncrypt P encKey nonce plaintext := by
  simp only [aeadFrame, aeadBody, List.append_assoc]
  rw [slice_append_right _ _ _ _ (by omega), slice_append_right _ _ _ _ (by simp [hnonce])]
  simp only [hnonce, length_leBytes, Nat.add_sub_cancel_left, Nat.sub_self]
  exact slice_zero_append _ _ _ (length_ctrEncrypt P encKey nonce plaintext)

/-- What the tag covers, and the tag. -/
theorem slice_aeadFrame_body (hnonce : nonce.length = NONCE_SIZE) :
    slice (aeadFrame P encKey macKey nonce plaintext ++ tail) 0
        (NONCE_SIZE + 2 + plaintext.length) = aeadBody P encKey nonce plaintext := by
  simp only [aeadFrame, List.append_assoc]
  exact slice_zero_append _ _ _ (length_aeadBody P encKey nonce plaintext hnonce)

theorem slice_aeadFrame_tag (hnonce : nonce.length = NONCE_SIZE) :
    slice (aeadFrame P encKey macKey nonce plaintext ++ tail)
        (NONCE_SIZE + 2 + plaintext.length) HMAC_SIZE =
      hmacSha256 P macKey (aeadBody P encKey nonce plaintext) := by
  have hbody := length_aeadBody P encKey nonce plaintext hnonce
  simp only [aeadFrame, List.append_assoc]
  rw [slice_append_right _ _ _ _ (le_of_eq hbody), hbody, Nat.sub_self]
  exact slice_zero_append _ _ _ (length_hmacSha256 P _ _)

end Frame

namespace SecureChannel

variable (P : Primitives)

/-- A frame that the peer sealed with our receive keys opens, whatever follows
it, when the plaintext fits. -/
theorem decryptConsuming_aeadFrame {ch : SecureChannel} (hstate : ch.state = .Established)
    (nonce plaintext tail : Bytes) (hnonce : nonce.length = NONCE_SIZE)
    (hmax : plaintext.length ≤ MAX_PAYLOAD_SIZE) (outLen : Nat) (hout : plaintext.length ≤ outLen) :
    decryptConsuming P ch (aeadFrame P ch.rxEncKey ch.rxMacKey nonce plaintext ++ tail) outLen =
      (plaintext, PACKET_OVERHEAD + plaintext.length) := by
  have hlen := length_aeadFrame P ch.rxEncKey ch.rxMacKey nonce plaintext hnonce
  have h16 : plaintext.length < 65536 := by
    simp only [MAX_PAYLOAD_SIZE] at hmax
    omega
  have htotal : NONCE_SIZE + 2 + plaintext.length + HMAC_SIZE =
      PACKET_OVERHEAD + plaintext.length := by
    simp only [PACKET_OVERHEAD]
    omega
  simp only [decryptConsuming, slice_aeadFrame_length P _ _ nonce plaintext tail hnonce h16,
    slice_aeadFrame_nonce P _ _ nonce plaintext tail hnonce,
    slice_aeadFrame_ciphertext P _ _ nonce plaintext tail hnonce,
    slice_aeadFrame_body P _ _ nonce plaintext tail hnonce,
    slice_aeadFrame_tag P _ _ nonce plaintext tail hnonce,
    List.length_append, hlen, htotal, ctEq_self, ctrEncrypt_ctrEncrypt]
  rw [if_neg (by simp [hstate]), if_neg (by omega), if_neg (by omega), if_neg (by omega),
    if_neg (by omega), if_neg (by simp)]

/-- A frame whose plaintext does not fit the buffer is refused. -/
theorem decryptConsuming_eq_zero_of_lt (ch : SecureChannel) (nonce plaintext tail : Bytes)
    (hnonce : nonce.length = NONCE_SIZE) (h16 : plaintext.length < 65536)
    (outLen : Nat) (hout : outLen < plaintext.length) :
    decryptConsuming P ch (aeadFrame P ch.rxEncKey ch.rxMacKey nonce plaintext ++ tail) outLen =
      ([], 0) := by
  simp only [decryptConsuming, slice_aeadFrame_length P _ _ nonce plaintext tail hnonce h16]
  split_ifs <;> rfl

end SecureChannel

/-! ## The link in front of the channel -/

inductive HandshakeState where
  | Init
  | AwaitPeerHello
  | AwaitConfirm
  | Established
  | Rejected
  deriving DecidableEq, Repr

/-- The handshake state of `EncryptLink` and its channel. -/
structure EncryptLink where
  state : HandshakeState
  inner : SecureChannel

/-- `EncryptLink::decrypt_consuming`. -/
def EncryptLink.decryptConsuming (P : Primitives) (l : EncryptLink) (buf : Bytes) (outLen : Nat) :
    Bytes × Nat :=
  if l.state ≠ .Established then ([], 0) else l.inner.decryptConsuming P buf outLen

end RobotOs.Crypto
