import RobotOs.Crypto.SecureChannel

/-!
# The handshake of the encrypted link

The handshake half of the encrypt-link crate, and the key schedule of
`secure_channel.rs`.  The initiator sends its ephemeral key, the responder
answers with its own and a proof, and the initiator sends a proof back.  A proof
is an HMAC under the pre-shared key over a label and both ephemeral keys.

X25519 is a parameter with the two laws that the handshake stands on: the two
sides of an exchange compute the same secret, and it is not zero.  An array of
32 bytes is a byte string with its length.  The counter of live sessions is in
`SessionGate`, and the wiping of keys is left out.
-/

namespace RobotOs.Crypto

open Lib.Framing

/-- `[u8; 32]`. -/
abbrev Key32 := {b : Bytes // b.length = 32}

/-- `[0u8; 32]`. -/
def Key32.zero : Key32 := ⟨List.replicate 32 0, by simp⟩

/-- `x25519` and its base point. -/
structure X25519 where
  mul : Key32 → Key32 → Key32
  base : Key32
  mul_comm : ∀ a b, mul a (mul b base) = mul b (mul a base)
  mul_ne_zero : ∀ a b, mul a (mul b base) ≠ Key32.zero

/-- `x25519_pubkey`. -/
def X25519.pubkey (X : X25519) (priv : Key32) : Key32 := X.mul priv X.base

/-- `x25519_checked`: no secret for a point of small order. -/
def X25519.checked (X : X25519) (scalar point : Key32) : Option Key32 :=
  if X.mul scalar point = Key32.zero then none else some (X.mul scalar point)

/-! ## The key schedule -/

def AES_KEY_SIZE : Nat := 16

/-- `b"ENC"`. -/
def KDF_LABEL_ENC : Bytes := [0x45, 0x4E, 0x43]
/-- `b"MAC"`. -/
def KDF_LABEL_MAC : Bytes := [0x4D, 0x41, 0x43]
/-- `b"C2S"`, from the initiator to the responder. -/
def KDF_DIR_C2S : Bytes := [0x43, 0x32, 0x53]
/-- `b"S2C"`, from the responder to the initiator. -/
def KDF_DIR_S2C : Bytes := [0x53, 0x32, 0x43]

inductive Role where
  | Initiator
  | Responder
  deriving DecidableEq, Repr

/-- `kdf`. -/
def kdf (P : Primitives) (secret : Key32) (label direction : Bytes) : Bytes :=
  (P.sha256 (secret.val ++ (label ++ direction))).take AES_KEY_SIZE

/-- The channel of one side once the secret is known. -/
def sessionChannel (P : Primitives) (secret : Key32) (role : Role) : SecureChannel :=
  let encC2s := kdf P secret KDF_LABEL_ENC KDF_DIR_C2S
  let macC2s := kdf P secret KDF_LABEL_MAC KDF_DIR_C2S
  let encS2c := kdf P secret KDF_LABEL_ENC KDF_DIR_S2C
  let macS2c := kdf P secret KDF_LABEL_MAC KDF_DIR_S2C
  match role with
  | .Initiator => ⟨.Established, encC2s, macC2s, encS2c, macS2c, 0⟩
  | .Responder => ⟨.Established, encS2c, macS2c, encC2s, macC2s, 0⟩

/-- `handshake_directional`: the channel, or nothing for a degenerate secret. -/
def handshakeDirectional (P : Primitives) (X : X25519) (priv peer : Key32) (role : Role) :
    Option SecureChannel :=
  (X.checked priv peer).map fun secret => sessionChannel P secret role

/-! ## Messages -/

def MODE_ENCRYPTED : UInt8 := 0x02
def LABEL_HELLO : UInt8 := 0x48
def LABEL_CONFIRM : UInt8 := 0x43
def EPH_PUB_BYTES : Nat := 32
def PROOF_BYTES : Nat := 32
def HELLO_REPLY_BYTES : Nat := 2 + EPH_PUB_BYTES + PROOF_BYTES
def HELLO_INIT_BYTES : Nat := 2 + EPH_PUB_BYTES
def CONFIRM_BYTES : Nat := 2 + PROOF_BYTES

/-- `b"RESP"`. -/
def KDF_LABEL_RESP : Bytes := [0x52, 0x45, 0x53, 0x50]
/-- `b"INIT"`. -/
def KDF_LABEL_INIT : Bytes := [0x49, 0x4E, 0x49, 0x54]

/-- `proof_responder`. -/
def proofResponder (P : Primitives) (psk initiatorPub responderPub : Key32) : Bytes :=
  hmacSha256 P psk.val (KDF_LABEL_RESP ++ (initiatorPub.val ++ responderPub.val))

/-- `proof_initiator`. -/
def proofInitiator (P : Primitives) (psk responderPub initiatorPub : Key32) : Bytes :=
  hmacSha256 P psk.val (KDF_LABEL_INIT ++ (responderPub.val ++ initiatorPub.val))

/-- The first two bytes of a message. -/
def header (label : UInt8) : Bytes := MODE_ENCRYPTED :: label :: []

/-- The first message of the initiator. -/
def helloInit (pub : Key32) : Bytes := header LABEL_HELLO ++ pub.val

/-- The answer of the responder. -/
def helloReply (pub : Key32) (proof : Bytes) : Bytes :=
  header LABEL_HELLO ++ (pub.val ++ proof)

/-- The second message of the initiator. -/
def confirmMessage (proof : Bytes) : Bytes := header LABEL_CONFIRM ++ proof

/-- The key field of a message. -/
def keyField (frame : Bytes) (h : 2 + EPH_PUB_BYTES ≤ frame.length) : Key32 :=
  ⟨slice frame 2 EPH_PUB_BYTES, by
    simp only [slice, List.length_take, List.length_drop, EPH_PUB_BYTES] at h ⊢
    omega⟩

/-! ## The link -/

/-- `EncryptLink` with the fields of the handshake. -/
structure Link where
  link : EncryptLink
  psk : Key32
  ephPriv : Key32
  ephPub : Key32
  peerPub : Key32

inductive HandshakeError where
  | BadState
  | BadFrameLength
  | BadHeader
  | ProofMismatch
  | BadPeerKey
  deriving DecidableEq, Repr

namespace Link

/-- `EncryptLink::new`. -/
def new (X : X25519) (psk ephPriv : Key32) : Link :=
  let zeros := List.replicate AES_KEY_SIZE 0
  ⟨⟨.Init, ⟨.Init, zeros, zeros, zeros, zeros, 0⟩⟩, psk, ephPriv, X.pubkey ephPriv, Key32.zero⟩

def setState (l : Link) (state : HandshakeState) : Link :=
  { l with link := { l.link with state := state } }

/-- The link with the peer's key. -/
def setPeer (l : Link) (peer : Key32) : Link := { l with peerPub := peer }

def setInner (l : Link) (inner : SecureChannel) : Link :=
  { l with link := { l.link with inner := inner } }

/-- `mark_established`, without the counter of sessions. -/
def markEstablished (l : Link) : Link :=
  if l.link.state = .Established then l else l.setState .Established

/-- `start_initiator`. -/
def startInitiator (l : Link) : Except HandshakeError Bytes × Link :=
  if l.link.state ≠ .Init then (.error .BadState, l)
  else (.ok (helloInit l.ephPub), l.setState .AwaitPeerHello)

/-- `handle_peer_hello`. -/
def handlePeerHello (P : Primitives) (X : X25519) (l : Link) (frame : Bytes) :
    Except HandshakeError Bytes × Link :=
  if l.link.state ≠ .AwaitPeerHello then (.error .BadState, l)
  else if h : frame.length = HELLO_REPLY_BYTES then
    if slice frame 0 2 ≠ header LABEL_HELLO then (.error .BadHeader, l)
    else
      let peer := keyField frame (by rw [h]; decide)
      let proofR := slice frame (2 + EPH_PUB_BYTES) PROOF_BYTES
      if !ctEq (proofResponder P l.psk l.ephPub peer) proofR then
        (.error .ProofMismatch, l.setState .Rejected)
      else
        match handshakeDirectional P X l.ephPriv peer .Initiator with
        | none => (.error .BadPeerKey, (l.setPeer peer).setState .Rejected)
        | some inner =>
          (.ok (confirmMessage (proofInitiator P l.psk peer l.ephPub)),
            ((l.setPeer peer).setInner inner).markEstablished)
  else (.error .BadFrameLength, l)

/-- `handle_initiator_hello`.  The key of the peer is not authenticated yet. -/
def handleInitiatorHello (P : Primitives) (X : X25519) (l : Link) (frame : Bytes) :
    Except HandshakeError Bytes × Link :=
  if l.link.state ≠ .Init then (.error .BadState, l)
  else if h : frame.length = HELLO_INIT_BYTES then
    if slice frame 0 2 ≠ header LABEL_HELLO then (.error .BadHeader, l)
    else
      let peer := keyField frame (by rw [h]; decide)
      match handshakeDirectional P X l.ephPriv peer .Responder with
      | none => (.error .BadPeerKey, (l.setPeer peer).setState .Rejected)
      | some inner =>
        (.ok (helloReply l.ephPub (proofResponder P l.psk peer l.ephPub)),
          ((l.setPeer peer).setInner inner).setState .AwaitConfirm)
  else (.error .BadFrameLength, l)

/-- `handle_initiator_confirm`. -/
def handleInitiatorConfirm (P : Primitives) (l : Link) (frame : Bytes) :
    Except HandshakeError Unit × Link :=
  if l.link.state ≠ .AwaitConfirm then (.error .BadState, l)
  else if frame.length ≠ CONFIRM_BYTES then (.error .BadFrameLength, l)
  else if slice frame 0 2 ≠ header LABEL_CONFIRM then (.error .BadHeader, l)
  else
    let proofI := slice frame 2 PROOF_BYTES
    if !ctEq (proofInitiator P l.psk l.ephPub l.peerPub) proofI then
      (.error .ProofMismatch, l.setState .Rejected)
    else (.ok (), l.markEstablished)

/-- `EncryptLink::encrypt`. -/
def encrypt (P : Primitives) (l : Link) (plaintext nonceRand : Bytes) (outLen : Nat) :
    Option Bytes × Link :=
  if l.link.state ≠ .Established then (none, l)
  else if MAX_PAYLOAD_SIZE < plaintext.length then (none, l)
  else
    let (frame, inner) := l.link.inner.encrypt P plaintext nonceRand outLen
    (frame, l.setInner inner)

end Link

/-! ## Reading and writing messages -/

/-- A frame is its header and what follows. -/
theorem eq_slice_append (frame : Bytes) {a b : Nat} (h : frame.length = a + b) :
    frame = slice frame 0 a ++ slice frame a b := by
  have hrest : (frame.drop a).take b = frame.drop a :=
    List.take_of_length_le (by rw [List.length_drop]; omega)
  rw [slice, slice, List.drop_zero, hrest, List.take_append_drop]

theorem slice_slice (frame : Bytes) (a b c : Nat) :
    slice frame a (b + c) = slice frame a b ++ slice frame (a + b) c := by
  simp only [slice, List.take_add, List.drop_drop]

@[simp] theorem length_proofResponder (P : Primitives) (psk i r : Key32) :
    (proofResponder P psk i r).length = PROOF_BYTES := by
  simp [proofResponder, PROOF_BYTES]

@[simp] theorem length_proofInitiator (P : Primitives) (psk r i : Key32) :
    (proofInitiator P psk r i).length = PROOF_BYTES := by
  simp [proofInitiator, PROOF_BYTES]

@[simp] theorem length_helloInit (pub : Key32) : (helloInit pub).length = HELLO_INIT_BYTES := by
  simp [helloInit, header, pub.2, HELLO_INIT_BYTES, EPH_PUB_BYTES]

theorem length_helloReply (pub : Key32) {proof : Bytes} (h : proof.length = PROOF_BYTES) :
    (helloReply pub proof).length = HELLO_REPLY_BYTES := by
  simp [helloReply, header, pub.2, h, HELLO_REPLY_BYTES, EPH_PUB_BYTES]
  omega

theorem length_confirmMessage {proof : Bytes} (h : proof.length = PROOF_BYTES) :
    (confirmMessage proof).length = CONFIRM_BYTES := by
  simp [confirmMessage, header, h, CONFIRM_BYTES]
  omega

theorem slice_header (label : UInt8) (rest : Bytes) :
    slice (header label ++ rest) 0 2 = header label :=
  slice_zero_append _ _ _ rfl

theorem slice_rest (label : UInt8) (rest : Bytes) (off len : Nat) :
    slice (header label ++ rest) (2 + off) len = slice rest off len := by
  rw [slice_append_right _ _ _ _ (by simp [header])]
  simp [header]

/-- The key field of a message that carries one. -/
theorem keyField_eq (label : UInt8) (pub : Key32) (rest : Bytes)
    (h : 2 + EPH_PUB_BYTES ≤ (header label ++ (pub.val ++ rest)).length) :
    keyField (header label ++ (pub.val ++ rest)) h = pub := by
  apply Subtype.ext
  show slice (header label ++ (pub.val ++ rest)) (2 + 0) EPH_PUB_BYTES = pub.val
  rw [slice_rest]
  exact slice_zero_append _ _ _ pub.2

/-! ## What a message can do -/

namespace Link

variable (P : Primitives) (X : X25519) (l : Link) (frame : Bytes)

/-- The handshake is over. -/
def reject (l : Link) (peer : Key32) : Link := (l.setPeer peer).setState .Rejected

/-- The handshake was going on, and the link gives it up. -/
def Refuses (l l' : Link) : Prop := l.link.state ≠ .Established ∧ ∃ peer, l' = l.reject peer

theorem startInitiator_cases :
    startInitiator l = (.error .BadState, l) ∨
      l.link.state = .Init ∧
        startInitiator l = (.ok (helloInit l.ephPub), l.setState .AwaitPeerHello) := by
  unfold startInitiator
  split_ifs with h
  · exact .inl rfl
  · exact .inr ⟨not_not.mp h, rfl⟩

/-- The answer of the responder is refused, or it carries the proof over the two
keys. -/
theorem handlePeerHello_cases :
    (∃ e l', handlePeerHello P X l frame = (.error e, l') ∧
        (l' = l ∨ l.Refuses l')) ∨
      ∃ peer inner, l.link.state = .AwaitPeerHello ∧
        frame = helloReply peer (proofResponder P l.psk l.ephPub peer) ∧
        handshakeDirectional P X l.ephPriv peer .Initiator = some inner ∧
        handlePeerHello P X l frame =
          (.ok (confirmMessage (proofInitiator P l.psk peer l.ephPub)),
            ((l.setPeer peer).setInner inner).setState .Established) := by
  unfold handlePeerHello
  split_ifs with hstate hlen hhead
  · exact .inl ⟨_, l, rfl, .inl rfl⟩
  · exact .inl ⟨_, l, rfl, .inl rfl⟩
  · dsimp only
    split_ifs with hproof
    · exact .inl ⟨_, _, rfl, .inr ⟨by simp [not_not.mp hstate], l.peerPub, rfl⟩⟩
    · generalize hpeer : keyField frame _ = peer at hproof ⊢
      cases hkeys : handshakeDirectional P X l.ephPriv peer .Initiator with
      | none => exact .inl ⟨_, _, rfl, .inr ⟨by simp [not_not.mp hstate], peer, rfl⟩⟩
      | some inner =>
        have hbytes : peer.val = slice frame 2 EPH_PUB_BYTES := by rw [← hpeer]; rfl
        have htag : proofResponder P l.psk l.ephPub peer =
            slice frame (2 + EPH_PUB_BYTES) PROOF_BYTES :=
          ctEq_iff.mp (by simpa using hproof)
        have hframe : frame = helloReply peer (proofResponder P l.psk l.ephPub peer) := by
          rw [helloReply, htag, hbytes, ← slice_slice, ← not_not.mp hhead]
          exact eq_slice_append frame hlen
        refine .inr ⟨peer, inner, not_not.mp hstate, hframe, hkeys, Prod.ext rfl ?_⟩
        simp [markEstablished, setInner, setPeer, not_not.mp hstate]
  · exact .inl ⟨_, l, rfl, .inl rfl⟩

/-- The first message of the initiator is refused, or it carries a key. -/
theorem handleInitiatorHello_cases :
    (∃ e l', handleInitiatorHello P X l frame = (.error e, l') ∧
        (l' = l ∨ l.Refuses l')) ∨
      ∃ peer inner, l.link.state = .Init ∧ frame = helloInit peer ∧
        handshakeDirectional P X l.ephPriv peer .Responder = some inner ∧
        handleInitiatorHello P X l frame =
          (.ok (helloReply l.ephPub (proofResponder P l.psk peer l.ephPub)),
            ((l.setPeer peer).setInner inner).setState .AwaitConfirm) := by
  unfold handleInitiatorHello
  split_ifs with hstate hlen hhead
  · exact .inl ⟨_, l, rfl, .inl rfl⟩
  · exact .inl ⟨_, l, rfl, .inl rfl⟩
  · dsimp only
    generalize hpeer : keyField frame _ = peer
    cases hkeys : handshakeDirectional P X l.ephPriv peer .Responder with
    | none => exact .inl ⟨_, _, rfl, .inr ⟨by simp [not_not.mp hstate], peer, rfl⟩⟩
    | some inner =>
      have hbytes : peer.val = slice frame 2 EPH_PUB_BYTES := by rw [← hpeer]; rfl
      have hframe : frame = helloInit peer := by
        rw [helloInit, hbytes, ← not_not.mp hhead]
        exact eq_slice_append frame hlen
      exact .inr ⟨peer, inner, not_not.mp hstate, hframe, hkeys, rfl⟩
  · exact .inl ⟨_, l, rfl, .inl rfl⟩

/-- The second message of the initiator is refused, or it is the proof over the
two keys. -/
theorem handleInitiatorConfirm_cases :
    (∃ e l', handleInitiatorConfirm P l frame = (.error e, l') ∧
        (l' = l ∨ l.Refuses l')) ∨
      l.link.state = .AwaitConfirm ∧
        frame = confirmMessage (proofInitiator P l.psk l.ephPub l.peerPub) ∧
        handleInitiatorConfirm P l frame = (.ok (), l.setState .Established) := by
  unfold handleInitiatorConfirm
  split_ifs with hstate hlen hhead
  · exact .inl ⟨_, l, rfl, .inl rfl⟩
  · exact .inl ⟨_, l, rfl, .inl rfl⟩
  · exact .inl ⟨_, l, rfl, .inl rfl⟩
  · dsimp only
    split_ifs with hproof
    · exact .inl ⟨_, _, rfl, .inr ⟨by simp [not_not.mp hstate], l.peerPub, rfl⟩⟩
    · have htag : proofInitiator P l.psk l.ephPub l.peerPub = slice frame 2 PROOF_BYTES :=
        ctEq_iff.mp (by simpa using hproof)
      have hframe : frame = confirmMessage (proofInitiator P l.psk l.ephPub l.peerPub) := by
        rw [confirmMessage, htag, ← not_not.mp hhead]
        exact eq_slice_append frame (not_not.mp hlen)
      refine .inr ⟨not_not.mp hstate, hframe, Prod.ext rfl ?_⟩
      simp [markEstablished, not_not.mp hstate]

/-- The messages of a peer with the same key are taken. -/
theorem handleInitiatorHello_helloInit {peer : Key32} {inner : SecureChannel}
    (hstate : l.link.state = .Init)
    (hkeys : handshakeDirectional P X l.ephPriv peer .Responder = some inner) :
    handleInitiatorHello P X l (helloInit peer) =
      (.ok (helloReply l.ephPub (proofResponder P l.psk peer l.ephPub)),
        ((l.setPeer peer).setInner inner).setState .AwaitConfirm) := by
  have hkey : ∀ h, keyField (helloInit peer) h = peer := by
    intro h
    have happ : helloInit peer = header LABEL_HELLO ++ (peer.val ++ []) := by simp [helloInit]
    simp only [happ] at h ⊢
    exact keyField_eq LABEL_HELLO peer [] h
  have hhead : slice (helloInit peer) 0 2 = header LABEL_HELLO := slice_header _ _
  simp only [handleInitiatorHello, hstate, length_helloInit, hhead, hkey, hkeys]
  simp

theorem handlePeerHello_helloReply {peer : Key32} {inner : SecureChannel}
    (hstate : l.link.state = .AwaitPeerHello)
    (hkeys : handshakeDirectional P X l.ephPriv peer .Initiator = some inner) :
    handlePeerHello P X l (helloReply peer (proofResponder P l.psk l.ephPub peer)) =
      (.ok (confirmMessage (proofInitiator P l.psk peer l.ephPub)),
        ((l.setPeer peer).setInner inner).setState .Established) := by
  have hkey : ∀ h, keyField (helloReply peer (proofResponder P l.psk l.ephPub peer)) h = peer :=
    keyField_eq LABEL_HELLO peer _
  have hhead : slice (helloReply peer (proofResponder P l.psk l.ephPub peer)) 0 2 =
      header LABEL_HELLO := slice_header _ _
  have hproof : slice (helloReply peer (proofResponder P l.psk l.ephPub peer))
      (2 + EPH_PUB_BYTES) PROOF_BYTES = proofResponder P l.psk l.ephPub peer := by
    rw [helloReply, slice_rest, slice_append_right _ _ _ _ (by rw [peer.2]; decide), peer.2]
    exact (List.take_of_length_le (by simp)).trans rfl
  simp only [handlePeerHello, hstate, length_helloReply peer (length_proofResponder P _ _ _), hhead,
    hkey, hproof, hkeys, ctEq_self]
  simp [markEstablished, setInner, setPeer, hstate]

theorem handleInitiatorConfirm_confirmMessage (hstate : l.link.state = .AwaitConfirm) :
    handleInitiatorConfirm P l (confirmMessage (proofInitiator P l.psk l.ephPub l.peerPub)) =
      (.ok (), l.setState .Established) := by
  have hhead : slice (confirmMessage (proofInitiator P l.psk l.ephPub l.peerPub)) 0 2 =
      header LABEL_CONFIRM := slice_header _ _
  have hproof : slice (confirmMessage (proofInitiator P l.psk l.ephPub l.peerPub)) 2 PROOF_BYTES =
      proofInitiator P l.psk l.ephPub l.peerPub := by
    show slice _ (2 + 0) PROOF_BYTES = _
    rw [confirmMessage, slice_rest]
    exact List.take_of_length_le (by simp)
  simp only [handleInitiatorConfirm, hstate,
    length_confirmMessage (length_proofInitiator P l.psk l.ephPub l.peerPub), hhead, hproof,
    ctEq_self]
  simp [markEstablished, hstate]

/-- A payload is not sent, or it is sealed with the keys of this direction. -/
theorem encrypt_cases (plaintext : Bytes) {nonceRand : Bytes} (hrand : nonceRand.length = 8)
    (outLen : Nat) :
    encrypt P l plaintext nonceRand outLen = (none, l) ∨
      ∃ nonce, nonce.length = NONCE_SIZE ∧ plaintext.length ≤ MAX_PAYLOAD_SIZE ∧
        l.link.state = .Established ∧
        encrypt P l plaintext nonceRand outLen =
          (some (aeadFrame P l.link.inner.txEncKey l.link.inner.txMacKey nonce plaintext),
            l.setInner { l.link.inner with txCounter := l.link.inner.txCounter + 1 }) := by
  simp only [encrypt, SecureChannel.encrypt]
  split_ifs with hstate hlong hinner hroom hcounter
  · exact .inl rfl
  · exact .inl rfl
  · exact .inl rfl
  · exact .inl rfl
  · exact .inl rfl
  · refine .inr ⟨nonceRand ++ leBytes 4 l.link.inner.txCounter.toNat, ?_, by omega,
      not_not.mp hstate, rfl⟩
    rw [List.length_append, hrand, length_leBytes]
    decide

end Link

end RobotOs.Crypto
