import RobotOs.Crypto.Handshake
import RobotOs.Lib.Run

/-!
# Agreement on the encrypted link

Two links with one pre-shared key that see each other's messages reach a session
with the same keys, and then read each other's frames.  A single link that is
fed any bytes reaches a session only after a proof over its own key and the key
that its session uses, and it takes no frame back that it has sent.

`CollisionFree` is what the last part needs of the hash: different labels give
different keys, and different keys give different tags.  It says nothing about
two messages under one key, which no hash of fixed length could promise.
-/

namespace RobotOs.Crypto

open Lib.Framing Lib.Run

/-- `[u8; 8]`. -/
abbrev Nonce8 := {b : Bytes // b.length = 8}

/-! ## Two links -/

section Agreement

variable (P : Primitives) (X : X25519)

/-- Two channels that are up, with the keys of one direction on both sides. -/
structure Mirrored (a b : SecureChannel) : Prop where
  left : a.state = .Established
  right : b.state = .Established
  txEnc : a.txEncKey = b.rxEncKey
  txMac : a.txMacKey = b.rxMacKey
  rxEnc : a.rxEncKey = b.txEncKey
  rxMac : a.rxMacKey = b.txMacKey

theorem Mirrored.symm {a b : SecureChannel} (h : Mirrored a b) : Mirrored b a :=
  ⟨h.right, h.left, h.rxEnc.symm, h.rxMac.symm, h.txEnc.symm, h.txMac.symm⟩

theorem mirrored_sessionChannel (secret : Key32) :
    Mirrored (sessionChannel P secret .Initiator) (sessionChannel P secret .Responder) :=
  ⟨rfl, rfl, rfl, rfl, rfl, rfl⟩

/-- The secret of two ephemeral keys. -/
theorem checked_pubkey (a b : Key32) :
    X.checked a (X.pubkey b) = some (X.mul a (X.pubkey b)) := by
  rw [X25519.checked, if_neg]
  exact X.mul_ne_zero a b

/-- The bytes of a message that was produced. -/
def message (out : Except HandshakeError Bytes) : Bytes :=
  match out with
  | .ok bytes => bytes
  | .error _ => []

/-- The two links after they have seen each other's messages: the initiator's
first. -/
def exchange (psk privI privR : Key32) : Link × Link :=
  let (hello, initiator) := (Link.new X psk privI).startInitiator
  let (reply, responder) := (Link.new X psk privR).handleInitiatorHello P X (message hello)
  let (confirm, initiator) := initiator.handlePeerHello P X (message reply)
  let (_, responder) := responder.handleInitiatorConfirm P (message confirm)
  (initiator, responder)

/-- Both links are up, and read what the other one writes. -/
structure Paired (a b : Link) : Prop where
  left : a.link.state = .Established
  right : b.link.state = .Established
  inner : Mirrored a.link.inner b.link.inner

theorem paired_exchange (psk privI privR : Key32) :
    Paired (exchange P X psk privI privR).1 (exchange P X psk privI privR).2 := by
  have hsecret : X.mul privI (X.pubkey privR) = X.mul privR (X.pubkey privI) :=
    X.mul_comm privI privR
  have hkeysR : handshakeDirectional P X privR (X.pubkey privI) .Responder =
      some (sessionChannel P (X.mul privR (X.pubkey privI)) .Responder) := by
    simp only [handshakeDirectional, checked_pubkey, Option.map_some]
  have hkeysI : handshakeDirectional P X privI (X.pubkey privR) .Initiator =
      some (sessionChannel P (X.mul privR (X.pubkey privI)) .Initiator) := by
    simp only [handshakeDirectional, checked_pubkey, Option.map_some, hsecret]
  generalize X.mul privR (X.pubkey privI) = secret at hkeysR hkeysI
  -- The messages, one after the other, and the links that they leave.
  let waiting := (Link.new X psk privI).setState .AwaitPeerHello
  let answered := (((Link.new X psk privR).setPeer (X.pubkey privI)).setInner
    (sessionChannel P secret .Responder)).setState .AwaitConfirm
  let initiator := ((waiting.setPeer (X.pubkey privR)).setInner
    (sessionChannel P secret .Initiator)).setState .Established
  let proofR := proofResponder P psk (X.pubkey privI) (X.pubkey privR)
  let proofI := proofInitiator P psk (X.pubkey privR) (X.pubkey privI)
  have hhello : (Link.new X psk privI).startInitiator =
      (.ok (helloInit (X.pubkey privI)), waiting) := rfl
  have hreply : (Link.new X psk privR).handleInitiatorHello P X (helloInit (X.pubkey privI)) =
      (.ok (helloReply (X.pubkey privR) proofR), answered) :=
    Link.handleInitiatorHello_helloInit P X _ rfl hkeysR
  have hconfirm : waiting.handlePeerHello P X (helloReply (X.pubkey privR) proofR) =
      (.ok (confirmMessage proofI), initiator) :=
    Link.handlePeerHello_helloReply P X waiting rfl hkeysI
  have hdone : answered.handleInitiatorConfirm P (confirmMessage proofI) =
      (.ok (), answered.setState .Established) :=
    Link.handleInitiatorConfirm_confirmMessage P answered rfl
  have hend : exchange P X psk privI privR = (initiator, answered.setState .Established) := by
    simp only [exchange, hhello, message, hreply, hconfirm, hdone]
  rw [hend]
  exact ⟨rfl, rfl, mirrored_sessionChannel P secret⟩

end Agreement

/-! ## Traffic between two links -/

section Traffic

variable (P : Primitives)

/-- Two links, and the payloads that each has sent, with their frames. -/
structure Traffic where
  initiator : Link
  responder : Link
  fromInitiator : List (Bytes × Bytes)
  fromResponder : List (Bytes × Bytes)

/-- One side sends a payload. -/
structure Send where
  role : Role
  plaintext : Bytes
  nonceRand : Nonce8
  outLen : Nat

/-- The payload with its frame, when there is one. -/
def Send.entry (m : Send) (frame : Option Bytes) : List (Bytes × Bytes) :=
  frame.toList.map fun frame => (m.plaintext, frame)

def Traffic.step (t : Traffic) (m : Send) : Traffic :=
  match m.role with
  | .Initiator =>
    let (frame, l) := t.initiator.encrypt P m.plaintext m.nonceRand.val m.outLen
    { t with initiator := l, fromInitiator := t.fromInitiator ++ m.entry frame }
  | .Responder =>
    let (frame, l) := t.responder.encrypt P m.plaintext m.nonceRand.val m.outLen
    { t with responder := l, fromResponder := t.fromResponder ++ m.entry frame }

/-- The two links after the handshake. -/
def Traffic.start (X : X25519) (psk privI privR : Key32) : Traffic :=
  ⟨(exchange P X psk privI privR).1, (exchange P X psk privI privR).2, [], []⟩

/-- A payload and its frame under the receive keys of a channel. -/
def SealedFor (ch : SecureChannel) (p : Bytes × Bytes) : Prop :=
  ∃ nonce, nonce.length = NONCE_SIZE ∧ p.1.length ≤ MAX_PAYLOAD_SIZE ∧
    p.2 = aeadFrame P ch.rxEncKey ch.rxMacKey nonce p.1

/-- The links are paired, and what each has sent is sealed for the other one. -/
structure Traffic.Sound (t : Traffic) : Prop where
  paired : Paired t.initiator t.responder
  fromInitiator : ∀ p ∈ t.fromInitiator, SealedFor P t.responder.link.inner p
  fromResponder : ∀ p ∈ t.fromResponder, SealedFor P t.initiator.link.inner p

/-- What a payload does to the sender: the counter moves, and the frame is sealed
for the peer. -/
theorem paired_encrypt {a b : Link} (h : Paired a b) (m : Send) :
    Paired (a.encrypt P m.plaintext m.nonceRand.val m.outLen).2 b ∧
      (∀ p, SealedFor P a.link.inner p →
        SealedFor P (a.encrypt P m.plaintext m.nonceRand.val m.outLen).2.link.inner p) ∧
      ∀ p ∈ m.entry (a.encrypt P m.plaintext m.nonceRand.val m.outLen).1,
        SealedFor P b.link.inner p := by
  rcases a.encrypt_cases P m.plaintext m.nonceRand.2 m.outLen with
    hnone | ⟨nonce, hnonce, hlen, -, hsome⟩
  · rw [hnone]
    exact ⟨h, fun _ hp => hp, by simp [Send.entry]⟩
  · rw [hsome]
    refine ⟨⟨h.left, h.right, ⟨h.inner.left, h.inner.right, h.inner.txEnc, h.inner.txMac,
      h.inner.rxEnc, h.inner.rxMac⟩⟩, fun _ hp => hp, ?_⟩
    intro p hp
    obtain rfl : p = (m.plaintext, _) := by simpa [Send.entry] using hp
    exact ⟨nonce, hnonce, hlen, by rw [h.inner.txEnc, h.inner.txMac]⟩

theorem Paired.symm {a b : Link} (h : Paired a b) : Paired b a := ⟨h.right, h.left, h.inner.symm⟩

theorem sound_step (t : Traffic) (m : Send) (h : t.Sound P) : (t.step P m).Sound P := by
  unfold Traffic.step
  cases m.role with
  | Initiator =>
    obtain ⟨hpaired, hkept, hnew⟩ := paired_encrypt P h.paired m
    refine ⟨hpaired, fun p hp => ?_, fun p hp => hkept p (h.fromResponder p hp)⟩
    rcases List.mem_append.mp hp with hold | hlast
    · exact h.fromInitiator p hold
    · exact hnew p hlast
  | Responder =>
    obtain ⟨hpaired, hkept, hnew⟩ := paired_encrypt P h.paired.symm m
    refine ⟨hpaired.symm, fun p hp => hkept p (h.fromInitiator p hp), fun p hp => ?_⟩
    rcases List.mem_append.mp hp with hold | hlast
    · exact h.fromResponder p hold
    · exact hnew p hlast

theorem sound_run (X : X25519) (psk privI privR : Key32) (sends : List Send) :
    (run (Traffic.step P) (Traffic.start P X psk privI privR) sends).Sound P :=
  run_invariant (Traffic.Sound P) (sound_step P)
    ⟨paired_exchange P X psk privI privR, by simp [Traffic.start], by simp [Traffic.start]⟩ sends

/-- One round of the loop that drains a buffer of frames. -/
def decryptStep (l : EncryptLink) (outLen : Nat) (_ : Unit) (rest : Bytes) : Step Unit Bytes :=
  let (plaintext, used) := l.decryptConsuming P rest outLen
  if used = 0 then .stop () else .emit plaintext used ()

/-- What a link reads from a buffer. -/
def drainFrames (l : EncryptLink) (outLen : Nat) (buf : Bytes) : List Bytes :=
  (drainAll (decryptStep P l outLen) () buf).1

/-- Frames that are sealed for a link are read, each once and in order. -/
theorem drainFrames_sealed {l : EncryptLink} (hstate : l.state = .Established)
    (hinner : l.inner.state = .Established) {outLen : Nat} (hout : MAX_PAYLOAD_SIZE ≤ outLen)
    (picks : List (Bytes × Bytes)) (hsealed : ∀ p ∈ picks, SealedFor P l.inner p) :
    drainFrames P l outLen (picks.map Prod.snd).flatten = picks.map Prod.fst := by
  have hreads : Reads (decryptStep P l outLen) () (picks.map Prod.snd) (picks.map Prod.fst) () := by
    induction picks with
    | nil => exact .nil ()
    | cons p picks ih =>
      obtain ⟨nonce, hnonce, hlen, hframe⟩ := hsealed p (by simp)
      have hsize : p.2.length = PACKET_OVERHEAD + p.1.length := by
        rw [hframe]
        exact length_aeadFrame P _ _ nonce p.1 hnonce
      have hpos : PACKET_OVERHEAD + p.1.length ≠ 0 := by
        simp only [PACKET_OVERHEAD, NONCE_SIZE]
        omega
      refine .cons (List.ne_nil_of_length_pos (by omega)) (fun tail => ?_)
        (ih fun q hq => hsealed q (by simp [hq]))
      have hopen := SecureChannel.decryptConsuming_aeadFrame P hinner nonce p.1 tail hnonce hlen
        outLen (hlen.trans hout)
      simp only [decryptStep, EncryptLink.decryptConsuming, hstate, ne_eq, not_true_eq_false,
        if_false, hframe, hopen, hpos]
      rw [← hframe, hsize]
  rw [drainFrames, drainAll_reads _ hreads]

/-- A payload of at most 2048 bytes is sent, until the counter is used up. -/
theorem isSome_encrypt {a b : Link} (h : Paired a b) {plaintext : Bytes}
    (hlen : plaintext.length ≤ MAX_PAYLOAD_SIZE) (nonceRand : Nonce8) {outLen : Nat}
    (hroom : PACKET_OVERHEAD + plaintext.length ≤ outLen)
    (hcounter : a.link.inner.txCounter ≠ 0xFFFFFFFF) :
    (a.encrypt P plaintext nonceRand.val outLen).1.isSome = true := by
  have hfits : ¬outLen < NONCE_SIZE + 2 + plaintext.length + HMAC_SIZE := by
    simp only [PACKET_OVERHEAD] at hroom
    omega
  simp only [Link.encrypt, SecureChannel.encrypt, h.left, h.inner.left, ne_eq, not_true_eq_false,
    if_false, Nat.not_lt.mpr hlen, hfits, hcounter, Option.isSome_some]

end Traffic

/-! ## One link and any bytes -/

section Injected

variable {ops : List LinkOp} {s : Session} {l : Link}

/-- What is done with a link.  The bytes of the frames are anyone's. -/
inductive LinkOp where
  | startInitiator
  | peerHello (frame : Bytes)
  | initiatorHello (frame : Bytes)
  | initiatorConfirm (frame : Bytes)
  | encrypt (plaintext : Bytes) (nonceRand : Nonce8) (outLen : Nat)

/-- A link with the handshake messages and the frames that it has produced. -/
structure Session where
  link : Link
  said : List Bytes
  sent : List Bytes

variable (P : Primitives) (X : X25519)

def Session.start (psk ephPriv : Key32) : Session := ⟨Link.new X psk ephPriv, [], []⟩

/-- The session after a step of the handshake. -/
def Session.say (s : Session) (out : Except HandshakeError Bytes × Link) : Session :=
  match out with
  | (.ok bytes, l) => { s with link := l, said := s.said ++ [bytes] }
  | (.error _, l) => { s with link := l }

def Session.step (s : Session) : LinkOp → Session
  | .startInitiator => s.say s.link.startInitiator
  | .peerHello frame => s.say (s.link.handlePeerHello P X frame)
  | .initiatorHello frame => s.say (s.link.handleInitiatorHello P X frame)
  | .initiatorConfirm frame => { s with link := (s.link.handleInitiatorConfirm P frame).2 }
  | .encrypt plaintext nonceRand outLen =>
    let (frame, l) := s.link.encrypt P plaintext nonceRand.val outLen
    { s with link := l, sent := s.sent ++ frame.toList }

/-- The channel has the keys of the exchange between the two ephemeral keys. -/
def Keyed (l : Link) (role : Role) : Prop :=
  ∃ secret, X.checked l.ephPriv l.peerPub = some secret ∧
    { l.link.inner with txCounter := 0 } = sessionChannel P secret role

/-- Among the operations is the message that proves the knowledge of the key,
over the ephemeral keys of the link and of its peer. -/
def Proved (ops : List LinkOp) (l : Link) : Role → Prop
  | .Initiator =>
    .peerHello (helloReply l.peerPub (proofResponder P l.psk l.ephPub l.peerPub)) ∈ ops
  | .Responder =>
    .initiatorHello (helloInit l.peerPub) ∈ ops ∧
      .initiatorConfirm (confirmMessage (proofInitiator P l.psk l.ephPub l.peerPub)) ∈ ops

/-- What holds of a link after the operations. -/
structure Tracked (ops : List LinkOp) (s : Session) : Prop where
  fresh : s.link.link.state = .Init → s.said = []
  waiting : s.link.link.state = .AwaitPeerHello → ∀ m ∈ s.said, m.length = HELLO_INIT_BYTES
  answered : s.link.link.state = .AwaitConfirm →
    Keyed P X s.link .Responder ∧ .initiatorHello (helloInit s.link.peerPub) ∈ ops ∧
      ∀ m ∈ s.said, m.length = HELLO_REPLY_BYTES
  established : s.link.link.state = .Established →
    ∃ role, Keyed P X s.link role ∧ Proved P ops s.link role
  sent : ∀ frame ∈ s.sent, s.link.link.state = .Established ∧ ∃ nonce plaintext,
    nonce.length = NONCE_SIZE ∧ plaintext.length ≤ MAX_PAYLOAD_SIZE ∧
      frame = aeadFrame P s.link.link.inner.txEncKey s.link.link.inner.txMacKey nonce plaintext

variable {P X}

theorem Proved.mono {role : Role} (h : Proved P ops l role) (op : LinkOp) :
    Proved P (ops ++ [op]) l role := by
  cases role with
  | Initiator => exact List.mem_append_left _ h
  | Responder => exact ⟨List.mem_append_left _ h.1, List.mem_append_left _ h.2⟩

theorem Tracked.mono (h : Tracked P X ops s) (op : LinkOp) :
    Tracked P X (ops ++ [op]) s where
  fresh := h.fresh
  waiting := h.waiting
  answered := fun hstate =>
    let ⟨hkeyed, hhello, hsaid⟩ := h.answered hstate
    ⟨hkeyed, List.mem_append_left _ hhello, hsaid⟩
  established := fun hstate =>
    let ⟨role, hkeyed, hproved⟩ := h.established hstate
    ⟨role, hkeyed, hproved.mono op⟩
  sent := h.sent

/-- Before the session is up nothing has been sent. -/
theorem Tracked.sent_eq_nil (h : Tracked P X ops s) (hstate : s.link.link.state ≠ .Established) :
    s.sent = [] := by
  rw [List.eq_nil_iff_forall_not_mem]
  exact fun frame hframe => hstate (h.sent frame hframe).1

theorem keyed_of_handshakeDirectional {peer : Key32} {role : Role} {inner : SecureChannel}
    (h : handshakeDirectional P X l.ephPriv peer role = some inner) (state : HandshakeState) :
    Keyed P X (((l.setPeer peer).setInner inner).setState state) role := by
  obtain ⟨secret, hsecret, rfl⟩ := Option.map_eq_some_iff.mp h
  exact ⟨secret, hsecret, by cases role <;> rfl⟩

/-- A refused message leaves the link, or ends the handshake. -/
theorem tracked_refused (h : Tracked P X ops s) (hl : l = s.link ∨ s.link.Refuses l) :
    Tracked P X ops { s with link := l } := by
  rcases hl with rfl | ⟨hstate, peer, rfl⟩
  · exact h
  · have hnil := h.sent_eq_nil hstate
    exact ⟨nofun, nofun, nofun, nofun, by simp [hnil]⟩

theorem tracked_startInitiator (h : Tracked P X ops s) :
    Tracked P X ops (s.step P X .startInitiator) := by
  rcases s.link.startInitiator_cases with hout | ⟨hstate, hout⟩
  · simp only [Session.step, hout, Session.say]
    exact h
  · have hnil := h.sent_eq_nil (by simp [hstate])
    have hsaid := h.fresh hstate
    simp only [Session.step, hout, Session.say]
    exact ⟨nofun, fun _ => by simp [hsaid], nofun, nofun, by simp [hnil]⟩

theorem tracked_peerHello (h : Tracked P X ops s) (frame : Bytes) :
    Tracked P X (ops ++ [.peerHello frame]) (s.step P X (.peerHello frame)) := by
  rcases s.link.handlePeerHello_cases P X frame with
    ⟨e, l', hout, hl⟩ | ⟨peer, inner, hstate, hframe, hkeys, hout⟩
  · simp only [Session.step, hout, Session.say]
    exact tracked_refused (h.mono _) hl
  · have hnil := h.sent_eq_nil (by simp [hstate])
    simp only [Session.step, hout, Session.say]
    refine ⟨nofun, nofun, nofun, fun _ => ⟨.Initiator, ?_, ?_⟩, by simp [hnil]⟩
    · exact keyed_of_handshakeDirectional hkeys .Established
    · exact List.mem_append_right _ (List.mem_singleton.mpr (congrArg LinkOp.peerHello hframe.symm))

theorem tracked_initiatorHello (h : Tracked P X ops s) (frame : Bytes) :
    Tracked P X (ops ++ [.initiatorHello frame]) (s.step P X (.initiatorHello frame)) := by
  rcases s.link.handleInitiatorHello_cases P X frame with
    ⟨e, l', hout, hl⟩ | ⟨peer, inner, hstate, hframe, hkeys, hout⟩
  · simp only [Session.step, hout, Session.say]
    exact tracked_refused (h.mono _) hl
  · have hnil := h.sent_eq_nil (by simp [hstate])
    have hsaid := h.fresh hstate
    simp only [Session.step, hout, Session.say]
    refine ⟨nofun, nofun, fun _ => ⟨?_, ?_, ?_⟩, nofun, by simp [hnil]⟩
    · exact keyed_of_handshakeDirectional hkeys .AwaitConfirm
    · exact List.mem_append_right _
        (List.mem_singleton.mpr (congrArg LinkOp.initiatorHello hframe.symm))
    · simp [hsaid, length_helloReply]

theorem tracked_initiatorConfirm (h : Tracked P X ops s) (frame : Bytes) :
    Tracked P X (ops ++ [.initiatorConfirm frame]) (s.step P X (.initiatorConfirm frame)) := by
  rcases s.link.handleInitiatorConfirm_cases P frame with
    ⟨e, l', hout, hl⟩ | ⟨hstate, hframe, hout⟩
  · simp only [Session.step, hout]
    exact tracked_refused (h.mono _) hl
  · have hnil := h.sent_eq_nil (by simp [hstate])
    obtain ⟨hkeyed, hhello, -⟩ := h.answered hstate
    simp only [Session.step, hout]
    refine ⟨nofun, nofun, nofun, fun _ => ⟨.Responder, hkeyed, ?_, ?_⟩, by simp [hnil]⟩
    · exact List.mem_append_left _ hhello
    · exact List.mem_append_right _
        (List.mem_singleton.mpr (congrArg LinkOp.initiatorConfirm hframe.symm))

theorem tracked_encrypt (h : Tracked P X ops s) (plaintext : Bytes) (nonceRand : Nonce8)
    (outLen : Nat) : Tracked P X ops (s.step P X (.encrypt plaintext nonceRand outLen)) := by
  rcases s.link.encrypt_cases P plaintext nonceRand.2 outLen with
    hout | ⟨nonce, hnonce, hlen, hstate, hout⟩
  · simp only [Session.step, hout, Option.toList_none, List.append_nil]
    exact h
  · simp only [Session.step, hout, Option.toList_some]
    -- Only the counter of the channel has moved.
    refine ⟨h.fresh, h.waiting, h.answered, h.established, fun frame hframe => ?_⟩
    rcases List.mem_append.mp hframe with hold | hnew
    · exact h.sent frame hold
    · exact ⟨hstate, nonce, plaintext, hnonce, hlen, List.mem_singleton.mp hnew⟩

theorem tracked_run (psk ephPriv : Key32) (ops : List LinkOp) :
    Tracked P X ops (run (Session.step P X) (Session.start X psk ephPriv) ops) := by
  induction ops using List.reverseRecOn with
  | nil => exact ⟨fun _ => rfl, nofun, nofun, nofun, nofun⟩
  | append_singleton ops op ih =>
    rw [run_concat]
    cases op with
    | startInitiator => exact (tracked_startInitiator ih).mono _
    | peerHello frame => exact tracked_peerHello ih frame
    | initiatorHello frame => exact tracked_initiatorHello ih frame
    | initiatorConfirm frame => exact tracked_initiatorConfirm ih frame
    | encrypt plaintext nonceRand outLen =>
      exact (tracked_encrypt ih plaintext nonceRand outLen).mono _

/-- The keys that a link was made with. -/
def Own (X : X25519) (psk ephPriv : Key32) (l : Link) : Prop :=
  l.psk = psk ∧ l.ephPriv = ephPriv ∧ l.ephPub = X.pubkey ephPriv

theorem own_refused {psk ephPriv : Key32} {l' : Link} (h : Own X psk ephPriv l)
    (hl : l' = l ∨ l.Refuses l') : Own X psk ephPriv l' := by
  rcases hl with rfl | ⟨-, peer, rfl⟩
  · exact h
  · exact h

/-- The keys that a link was made with stay. -/
theorem own_step {psk ephPriv : Key32} (s : Session) (op : LinkOp) (h : Own X psk ephPriv s.link) :
    Own X psk ephPriv (s.step P X op).link := by
  cases op with
  | startInitiator =>
    rcases s.link.startInitiator_cases with hout | ⟨-, hout⟩
    all_goals
      simp only [Session.step, hout, Session.say]
      exact h
  | peerHello frame =>
    rcases s.link.handlePeerHello_cases P X frame with ⟨e, l', hout, hl⟩ | ⟨_, _, -, -, -, hout⟩
    · simp only [Session.step, hout, Session.say]
      exact own_refused h hl
    · simp only [Session.step, hout, Session.say]
      exact h
  | initiatorHello frame =>
    rcases s.link.handleInitiatorHello_cases P X frame with
      ⟨e, l', hout, hl⟩ | ⟨_, _, -, -, -, hout⟩
    · simp only [Session.step, hout, Session.say]
      exact own_refused h hl
    · simp only [Session.step, hout, Session.say]
      exact h
  | initiatorConfirm frame =>
    rcases s.link.handleInitiatorConfirm_cases P frame with ⟨e, l', hout, hl⟩ | ⟨-, -, hout⟩
    · simp only [Session.step, hout]
      exact own_refused h hl
    · simp only [Session.step, hout]
      exact h
  | encrypt plaintext nonceRand outLen =>
    rcases s.link.encrypt_cases P plaintext nonceRand.2 outLen with hout | ⟨_, -, -, -, hout⟩
    all_goals
      simp only [Session.step, hout]
      exact h

/-! ## Reflection -/

/-- Different labels give different keys, and different keys give different tags. -/
structure CollisionFree (P : Primitives) : Prop where
  kdf : ∀ (secret : Key32) (label label' direction direction' : Bytes),
    label.length = 3 → label'.length = 3 → direction.length = 3 → direction'.length = 3 →
      kdf P secret label direction = kdf P secret label' direction' →
        label = label' ∧ direction = direction'
  hmac : ∀ (key key' data : Bytes), key.length = AES_KEY_SIZE → key'.length = AES_KEY_SIZE →
    hmacSha256 P key data = hmacSha256 P key' data → key = key'

theorem length_kdf (secret : Key32) (label direction : Bytes) :
    (kdf P secret label direction).length = AES_KEY_SIZE := by
  simp [kdf, P.length_sha256, AES_KEY_SIZE]

/-- The tags of the two directions differ. -/
theorem hmac_ne_of_keyed (hfree : CollisionFree P) {role : Role} (h : Keyed P X l role)
    (data : Bytes) :
    hmacSha256 P l.link.inner.rxMacKey data ≠ hmacSha256 P l.link.inner.txMacKey data := by
  obtain ⟨secret, -, hkeys⟩ := h
  have htx : l.link.inner.txMacKey = (sessionChannel P secret role).txMacKey :=
    (congrArg SecureChannel.txMacKey hkeys :)
  have hrx : l.link.inner.rxMacKey = (sessionChannel P secret role).rxMacKey :=
    (congrArg SecureChannel.rxMacKey hkeys :)
  have hdir : kdf P secret KDF_LABEL_MAC KDF_DIR_C2S ≠ kdf P secret KDF_LABEL_MAC KDF_DIR_S2C :=
    fun heq => absurd (hfree.kdf secret _ _ _ _ rfl rfl rfl rfl heq).2 (by decide)
  intro heq
  rw [htx, hrx] at heq
  cases role with
  | Initiator =>
    exact hdir (hfree.hmac _ _ data (length_kdf _ _ _) (length_kdf _ _ _) heq).symm
  | Responder =>
    exact hdir (hfree.hmac _ _ data (length_kdf _ _ _) (length_kdf _ _ _) heq)

/-- A frame whose tag is not that of the receive key is refused. -/
theorem decryptConsuming_reflected {ch : SecureChannel} {encKey macKey nonce plaintext : Bytes}
    (hnonce : nonce.length = NONCE_SIZE) (hlen : plaintext.length ≤ MAX_PAYLOAD_SIZE)
    (htag : ∀ data, hmacSha256 P ch.rxMacKey data ≠ hmacSha256 P macKey data) (tail : Bytes)
    (outLen : Nat) :
    ch.decryptConsuming P (aeadFrame P encKey macKey nonce plaintext ++ tail) outLen = ([], 0) := by
  have h16 : plaintext.length < 65536 := by
    simp only [MAX_PAYLOAD_SIZE] at hlen
    omega
  have hct : ctEq (hmacSha256 P ch.rxMacKey (aeadBody P encKey nonce plaintext))
      (hmacSha256 P macKey (aeadBody P encKey nonce plaintext)) = false := by
    rw [Bool.eq_false_iff, ne_eq, ctEq_iff]
    exact htag _
  simp only [SecureChannel.decryptConsuming,
    slice_aeadFrame_length P _ _ nonce plaintext tail hnonce h16,
    slice_aeadFrame_body P _ _ nonce plaintext tail hnonce,
    slice_aeadFrame_tag P _ _ nonce plaintext tail hnonce, hct]
  split_ifs <;> first | rfl | simp_all

/-- No step of the handshake takes the message. -/
def Turned (P : Primitives) (X : X25519) (l : Link) (m : Bytes) : Prop :=
  (∃ e, (l.handlePeerHello P X m).1 = .error e) ∧
    (∃ e, (l.handleInitiatorHello P X m).1 = .error e) ∧
    ∃ e, (l.handleInitiatorConfirm P m).1 = .error e

/-- A link turns its own messages down. -/
theorem turned_said (h : Tracked P X ops s) {m : Bytes} (hm : m ∈ s.said) :
    Turned P X s.link m := by
  refine ⟨?_, ?_, ?_⟩
  · rcases s.link.handlePeerHello_cases P X m with
      ⟨e, l', hout, -⟩ | ⟨peer, inner, hstate, hframe, -, -⟩
    · exact ⟨e, by rw [hout]⟩
    · have hlen := h.waiting hstate m hm
      rw [hframe, length_helloReply _ (length_proofResponder P _ _ _)] at hlen
      exact absurd hlen (by decide)
  · rcases s.link.handleInitiatorHello_cases P X m with
      ⟨e, l', hout, -⟩ | ⟨peer, inner, hstate, -⟩
    · exact ⟨e, by rw [hout]⟩
    · exact absurd hm (by simp [h.fresh hstate])
  · rcases s.link.handleInitiatorConfirm_cases P m with ⟨e, l', hout, -⟩ | ⟨hstate, hframe, -⟩
    · exact ⟨e, by rw [hout]⟩
    · have hlen := (h.answered hstate).2.2 m hm
      rw [hframe, length_confirmMessage (length_proofInitiator P _ _ _)] at hlen
      exact absurd hlen (by decide)

/-- A link reads none of its own frames. -/
theorem decryptConsuming_sent (hfree : CollisionFree P) (h : Tracked P X ops s) {frame : Bytes}
    (hframe : frame ∈ s.sent) (tail : Bytes) (outLen : Nat) :
    s.link.link.decryptConsuming P (frame ++ tail) outLen = ([], 0) := by
  obtain ⟨hstate, nonce, plaintext, hnonce, hlen, rfl⟩ := h.sent frame hframe
  obtain ⟨role, hkeyed, -⟩ := h.established hstate
  simp only [EncryptLink.decryptConsuming, hstate, ne_eq, not_true_eq_false, if_false]
  exact decryptConsuming_reflected hnonce hlen (hmac_ne_of_keyed hfree hkeyed) tail outLen

end Injected

/-! ## The agreement -/

/-- Each side reads what the other one has sent, in whatever way the frames are
put together, and a payload is sent as long as there are nonces for it. -/
structure Delivers (P : Primitives) (t : Traffic) : Prop where
  toResponder : ∀ (outLen : Nat) (picks : List (Bytes × Bytes)), MAX_PAYLOAD_SIZE ≤ outLen →
    (∀ p ∈ picks, p ∈ t.fromInitiator) →
      drainFrames P t.responder.link outLen (picks.map Prod.snd).flatten = picks.map Prod.fst
  toInitiator : ∀ (outLen : Nat) (picks : List (Bytes × Bytes)), MAX_PAYLOAD_SIZE ≤ outLen →
    (∀ p ∈ picks, p ∈ t.fromResponder) →
      drainFrames P t.initiator.link outLen (picks.map Prod.snd).flatten = picks.map Prod.fst
  sends : ∀ l, l = t.initiator ∨ l = t.responder → l.link.inner.txCounter ≠ 0xFFFFFFFF →
    ∀ (plaintext : Bytes) (nonceRand : Nonce8) (outLen : Nat),
      plaintext.length ≤ MAX_PAYLOAD_SIZE → PACKET_OVERHEAD + plaintext.length ≤ outLen →
        (l.encrypt P plaintext nonceRand.val outLen).1.isSome = true

/-- A link has the keys that it was made with.  It is up only after a proof over
its own key and its peer's, which are the keys of its session, and it takes back
nothing that it has produced. -/
structure Guards (P : Primitives) (X : X25519) (psk ephPriv : Key32) (ops : List LinkOp)
    (s : Session) : Prop where
  own : Own X psk ephPriv s.link
  proved : s.link.link.state = .Established →
    ∃ role, Keyed P X s.link role ∧ Proved P ops s.link role
  said : ∀ m ∈ s.said, Turned P X s.link m
  sent : ∀ frame ∈ s.sent, ∀ tail outLen,
    s.link.link.decryptConsuming P (frame ++ tail) outLen = ([], 0)

theorem delivers_of_sound {P : Primitives} {t : Traffic} (h : t.Sound P) : Delivers P t where
  toResponder := fun _ picks hout hpicks =>
    drainFrames_sealed P h.paired.right h.paired.inner.right hout picks
      fun p hp => h.fromInitiator p (hpicks p hp)
  toInitiator := fun _ picks hout hpicks =>
    drainFrames_sealed P h.paired.left h.paired.inner.left hout picks
      fun p hp => h.fromResponder p (hpicks p hp)
  sends := by
    rintro l (rfl | rfl) hcounter plaintext nonceRand outLen hlen hroom
    · exact isSome_encrypt P h.paired hlen nonceRand hroom hcounter
    · exact isSome_encrypt P h.paired.symm hlen nonceRand hroom hcounter

theorem guards_run {P : Primitives} (hfree : CollisionFree P) (X : X25519) (psk ephPriv : Key32)
    (ops : List LinkOp) :
    Guards P X psk ephPriv ops (run (Session.step P X) (Session.start X psk ephPriv) ops) := by
  have htracked := @tracked_run P X psk ephPriv ops
  have hown : Own X psk ephPriv (run (Session.step P X) (Session.start X psk ephPriv) ops).link :=
    run_invariant (fun s : Session => Own X psk ephPriv s.link) own_step ⟨rfl, rfl, rfl⟩ ops
  exact ⟨hown, htracked.established, fun m hm => turned_said htracked hm,
    fun frame hframe tail outLen => decryptConsuming_sent hfree htracked hframe tail outLen⟩

/-- Two links with one pre-shared key that see each other's messages are up with
mirrored keys, and deliver.  A link that is fed any bytes guards itself. -/
theorem link_agreement (P : Primitives) (X : X25519) (hfree : CollisionFree P) (psk : Key32) :
    (∀ privI privR,
      Paired (exchange P X psk privI privR).1 (exchange P X psk privI privR).2 ∧
        ∀ sends, Delivers P (run (Traffic.step P) (Traffic.start P X psk privI privR) sends)) ∧
      ∀ ephPriv ops,
        Guards P X psk ephPriv ops (run (Session.step P X) (Session.start X psk ephPriv) ops) := by
  refine ⟨fun privI privR => ⟨paired_exchange P X psk privI privR, fun sends => ?_⟩, ?_⟩
  · exact delivers_of_sound (sound_run P X psk privI privR sends)
  · exact guards_run hfree X psk

/-- A digest that copies: of the input of the key schedule it keeps the labels,
and of everything else the front. -/
def copyHash (data : Bytes) : Bytes :=
  ((if data.length = 38 then data.drop 32 else data) ++ List.replicate 32 0).take 32

def copyPrimitives : Primitives where
  sha256 := copyHash
  encryptBlock := fun _ block => block
  length_sha256 := by simp [copyHash]

/-- An exchange that always has the same secret. -/
def constantCurve : X25519 where
  mul := fun _ _ => ⟨List.replicate 32 1, by simp⟩
  base := Key32.zero
  mul_comm := fun _ _ => rfl
  mul_ne_zero := fun _ _ => by decide

theorem kdf_copyPrimitives (secret : Key32) {label direction : Bytes} (hlabel : label.length = 3)
    (hdir : direction.length = 3) :
    kdf copyPrimitives secret label direction = (label ++ direction) ++ List.replicate 10 0 := by
  have hlen : (secret.val ++ (label ++ direction)).length = 38 := by
    simp [secret.2, hlabel, hdir]
  have hdrop : (secret.val ++ (label ++ direction)).drop 32 = label ++ direction := by
    exact List.drop_left' secret.2
  have hsix : (label ++ direction).length = 6 := by simp [hlabel, hdir]
  simp only [kdf, copyPrimitives, copyHash, hlen, if_true, hdrop, List.take_take, AES_KEY_SIZE]
  rw [List.take_append, hsix, List.take_of_length_le (by omega), List.take_replicate]
  rfl

theorem hmac_copyPrimitives (key data : Bytes) (h : key.length = AES_KEY_SIZE) :
    (hmacSha256 copyPrimitives key data).take AES_KEY_SIZE = key.map (· ^^^ HMAC_OPAD) := by
  have hblock : (keyBlock key HMAC_OPAD).length = 64 := by
    simp [keyBlock, h, SHA256_BLOCK_SIZE, AES_KEY_SIZE]
  have hne : ¬(keyBlock key HMAC_OPAD ++ copyPrimitives.sha256
      (keyBlock key HMAC_IPAD ++ data)).length = 38 := by
    simp only [List.length_append, hblock]
    omega
  simp only [hmacSha256]
  show (copyHash _).take AES_KEY_SIZE = _
  simp only [copyHash, if_neg hne, List.take_take]
  rw [List.append_assoc, List.take_append_of_le_length (by rw [hblock]; decide), keyBlock,
    List.map_append, List.take_append_of_le_length (by rw [List.length_map, h]; decide)]
  exact List.take_of_length_le (by rw [List.length_map, h]; decide)

theorem collisionFree_copyPrimitives : CollisionFree copyPrimitives where
  kdf := by
    intro secret label label' direction direction' hlabel hlabel' hdir hdir' heq
    rw [kdf_copyPrimitives secret hlabel hdir, kdf_copyPrimitives secret hlabel' hdir'] at heq
    exact List.append_inj (List.append_cancel_right heq) (hlabel.trans hlabel'.symm)
  hmac := by
    intro key key' data hkey hkey' heq
    have htake := congrArg (List.take AES_KEY_SIZE) heq
    rw [hmac_copyPrimitives key data hkey, hmac_copyPrimitives key' data hkey'] at htake
    refine List.map_injective_iff.mpr (fun x y hxy => ?_) htake
    exact UInt8.xor_left_inj HMAC_OPAD |>.mp hxy

/-- A key of one byte. -/
def Key32.fill (byte : UInt8) : Key32 := ⟨List.replicate 32 byte, by simp⟩

/-- An exchange whose secret has the bits of both keys. -/
def orCurve : X25519 where
  mul := fun a b => ⟨List.zipWith (· ||| ·) a.val b.val, by simp [a.2, b.2]⟩
  base := .fill 1
  mul_comm := by
    intro a b
    refine Subtype.ext (List.ext_getElem (by simp [a.2, b.2]) fun i _ _ => ?_)
    simp only [List.getElem_zipWith]
    ac_rfl
  mul_ne_zero := by
    rintro ⟨_ | ⟨a, as⟩, ha⟩ ⟨_ | ⟨b, bs⟩, hb⟩ hzero
    · cases ha
    · cases ha
    · cases hb
    · have hhead : a ||| (b ||| 1) = 0 := (List.cons.inj (congrArg Subtype.val hzero)).1
      have hone := (UInt8.or_eq_zero_iff.mp (UInt8.or_eq_zero_iff.mp hhead).2).2
      exact absurd hone (by decide)

/-- The eight bytes of a random source that is stuck at zero. -/
def stuckRand : Nonce8 := ⟨List.replicate 8 0, rfl⟩

/-- What the responder answers to the initiator. -/
def sampleReply : Bytes :=
  message ((Link.new orCurve (.fill 9) (.fill 4)).handleInitiatorHello copyPrimitives orCurve
    (message (Link.new orCurve (.fill 9) (.fill 2)).startInitiator.1)).1

/-- An initiator gets noise and then the reply, and sends a frame. -/
def sampleOps : List LinkOp :=
  [.startInitiator, .peerHello [7], .peerHello sampleReply, .encrypt [1, 2] stuckRand 64]

/-- Two links come up, and an initiator that is up guards itself. -/
theorem link_agreement_copyPrimitives :
    Paired (exchange copyPrimitives orCurve (.fill 9) (.fill 2) (.fill 4)).1
        (exchange copyPrimitives orCurve (.fill 9) (.fill 2) (.fill 4)).2 ∧
      let s := run (Session.step copyPrimitives orCurve)
        (Session.start orCurve (.fill 9) (.fill 2)) sampleOps
      s.link.link.state = .Established ∧
        Guards copyPrimitives orCurve (.fill 9) (.fill 2) sampleOps s :=
  have hall := link_agreement copyPrimitives orCurve collisionFree_copyPrimitives (.fill 9)
  ⟨(hall.1 (.fill 2) (.fill 4)).1, by decide +kernel, hall.2 (.fill 2) sampleOps⟩

end RobotOs.Crypto
