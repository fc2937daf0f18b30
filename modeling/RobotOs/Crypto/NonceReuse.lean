import RobotOs.Crypto.LinkAgreement

/-!
# Nonces across handshakes

One channel may run the handshake many times.  The nonce of a frame is eight random bytes and the
send counter, and a handshake sets the counter back.  Its keys come from the two key pairs and the
role only, so that a handshake with the same peer brings the same key back with the counter at 0.

The random bytes are an input of each encryption and may be constant.  `nodup_of_fresh` says that
no key and nonce are used twice as long as no handshake brings back a transmit key that has
sealed a frame.
-/

namespace RobotOs.Crypto

open Lib.Framing Lib.Run

/-- The channel, and the key and the nonce of every frame that it has sealed. -/
structure SealLog where
  channel : SecureChannel
  used : List (Bytes × Bytes)

/-- A call on the channel. -/
inductive SealOp where
  | handshake (peer : Key32) (role : Role)
  | encrypt (plaintext : Bytes) (nonceRand : Nonce8) (outLen : Nat)

/-- The transmit key that the key schedule has for a secret and a role. -/
def txKey (P : Primitives) (secret : Key32) : Role → Bytes
  | .Initiator => kdf P secret KDF_LABEL_ENC KDF_DIR_C2S
  | .Responder => kdf P secret KDF_LABEL_ENC KDF_DIR_S2C

namespace SealLog

variable (P : Primitives) (X : X25519) (priv : Key32)

/-- `SecureChannel::new`. -/
def start : SealLog :=
  let zeros := List.replicate AES_KEY_SIZE 0
  ⟨⟨.Init, zeros, zeros, zeros, zeros, 0⟩, []⟩

/-- One call.  The nonce is read from the frame. -/
def step (s : SealLog) : SealOp → SealLog
  | .handshake peer role =>
    match handshakeDirectional P X priv peer role with
    | none => s
    | some channel => { s with channel := channel }
  | .encrypt plaintext nonceRand outLen =>
    let out := s.channel.encrypt P plaintext nonceRand.val outLen
    match out.1 with
    | none => { s with channel := out.2 }
    | some frame => ⟨out.2, s.used ++ [(s.channel.txEncKey, slice frame 0 NONCE_SIZE)]⟩

/-- A handshake is fresh when no frame was sealed with the transmit key of its secret and role. -/
def Fresh (s : SealLog) : SealOp → Prop
  | .handshake peer role => ∀ nonce, (txKey P (X.mul priv peer) role, nonce) ∉ s.used
  | .encrypt _ _ _ => True

/-- No key and nonce repeat, and the counter is past every frame of the current key. -/
structure Below (s : SealLog) : Prop where
  nodup : s.used.Nodup
  counted : ∀ nonce, (s.channel.txEncKey, nonce) ∈ s.used →
    ∃ rand : Bytes, ∃ n < s.channel.txCounter.toNat, nonce = rand ++ leBytes 4 n

variable {P X priv}

theorem txEncKey_of_handshake {peer : Key32} {role : Role} {channel : SecureChannel}
    (h : handshakeDirectional P X priv peer role = some channel) :
    channel.txEncKey = txKey P (X.mul priv peer) role := by
  obtain ⟨secret, hsecret, rfl⟩ := Option.map_eq_some_iff.mp h
  unfold X25519.checked at hsecret
  split_ifs at hsecret with hzero
  cases hsecret
  cases role
  · rfl
  · rfl

/-- Two nonces with different counters differ. -/
theorem counter_of_nonce {rand rand' : Bytes} {n n' : Nat} (hn : n < 256 ^ 4) (hn' : n' < 256 ^ 4)
    (h : rand ++ leBytes 4 n = rand' ++ leBytes 4 n') : n = n' := by
  have hlen : (leBytes 4 n).length = (leBytes 4 n').length := by simp
  have hbytes := List.append_inj_right' h hlen
  rw [← ofLE_leBytes 4 n hn, hbytes, ofLE_leBytes 4 n' hn']

theorem encrypt_cases (P : Primitives) (ch : SecureChannel) (plaintext nonceRand : Bytes)
    (outLen : Nat) :
    ch.encrypt P plaintext nonceRand outLen = (none, ch) ∨
      ch.txCounter ≠ 0xFFFFFFFF ∧
      ch.encrypt P plaintext nonceRand outLen =
        (some (aeadFrame P ch.txEncKey ch.txMacKey
          (nonceRand ++ leBytes 4 ch.txCounter.toNat) plaintext),
          { ch with txCounter := ch.txCounter + 1 }) := by
  unfold SecureChannel.encrypt
  split_ifs with hstate hmax hroom hcounter
  · exact .inl rfl
  · exact .inl rfl
  · exact .inl rfl
  · exact .inl rfl
  · exact .inr ⟨hcounter, rfl⟩

/-- An encryption is refused and changes nothing, or it seals one frame with the counter of the
channel and moves the counter on. -/
theorem step_encrypt (s : SealLog) (plaintext : Bytes) (nonceRand : Nonce8) (outLen : Nat) :
    s.step P X priv (.encrypt plaintext nonceRand outLen) = s ∨
      s.channel.txCounter ≠ 0xFFFFFFFF ∧
      s.step P X priv (.encrypt plaintext nonceRand outLen) =
        ⟨{ s.channel with txCounter := s.channel.txCounter + 1 }, s.used ++
          [(s.channel.txEncKey, nonceRand.val ++ leBytes 4 s.channel.txCounter.toNat)]⟩ := by
  obtain hrefused | ⟨hcounter, hsealed⟩ :=
    encrypt_cases P s.channel plaintext nonceRand.val outLen
  · left
    simp only [step, hrefused]
  · have hnonce : (nonceRand.val ++ leBytes 4 s.channel.txCounter.toNat).length = NONCE_SIZE := by
      simp [nonceRand.2, NONCE_SIZE]
    have hslice := slice_aeadFrame_nonce P s.channel.txEncKey s.channel.txMacKey
      (nonceRand.val ++ leBytes 4 s.channel.txCounter.toNat) plaintext [] hnonce
    rw [List.append_nil] at hslice
    refine .inr ⟨hcounter, ?_⟩
    simp only [step, hsealed, hslice]

theorem Below.seal {s : SealLog} (h : Below s) (hcounter : s.channel.txCounter ≠ 0xFFFFFFFF)
    (rand : Bytes) :
    Below ⟨{ s.channel with txCounter := s.channel.txCounter + 1 }, s.used ++
      [(s.channel.txEncKey, rand ++ leBytes 4 s.channel.txCounter.toNat)]⟩ := by
  have hlt : s.channel.txCounter.toNat < 256 ^ 4 := s.channel.txCounter.toNat_lt
  have hmax : s.channel.txCounter.toNat ≠ 4294967295 :=
    fun heq => hcounter (UInt32.toNat_inj.mp heq)
  have hnext : (s.channel.txCounter + 1).toNat = s.channel.txCounter.toNat + 1 := by
    rw [UInt32.toNat_add, UInt32.toNat_one]
    omega
  refine ⟨?_, ?_⟩
  · have hnew : (s.channel.txEncKey, rand ++ leBytes 4 s.channel.txCounter.toNat) ∉ s.used := by
      intro hmem
      obtain ⟨rand', n, hn, heq⟩ := h.counted _ hmem
      have := counter_of_nonce hlt (hn.trans hlt) heq
      omega
    apply h.nodup.append (List.nodup_singleton _)
    rwa [List.disjoint_singleton]
  · intro nonce hmem
    rw [hnext]
    obtain hold | hnew := List.mem_append.mp hmem
    · obtain ⟨rand', n, hn, heq⟩ := h.counted nonce hold
      exact ⟨rand', n, by omega, heq⟩
    · have heq := (Prod.ext_iff.mp (List.mem_singleton.mp hnew)).2
      exact ⟨rand, _, Nat.lt_succ_self _, heq⟩

theorem Below.step (s : SealLog) (op : SealOp) (h : Below s) (hfresh : Fresh P X priv s op) :
    Below (s.step P X priv op) := by
  cases op with
  | handshake peer role =>
    cases hdone : handshakeDirectional P X priv peer role with
    | none => simpa only [SealLog.step, hdone] using h
    | some channel =>
      simp only [SealLog.step, hdone]
      refine ⟨h.nodup, fun nonce hmem => ?_⟩
      dsimp only at hmem
      rw [txEncKey_of_handshake hdone] at hmem
      exact absurd hmem (hfresh nonce)
  | encrypt plaintext nonceRand outLen =>
    obtain heq | ⟨hcounter, heq⟩ := step_encrypt s plaintext nonceRand outLen
    · rw [heq]
      exact h
    · rw [heq]
      exact h.seal hcounter nonceRand.val

/-- In a run whose handshakes are all fresh no two frames have the same key and nonce, whatever
the random bytes are. -/
theorem nodup_of_fresh (P : Primitives) (X : X25519) (priv : Key32) (ops : List SealOp)
    (hfresh : Guarded (step P X priv) (Fresh P X priv) start ops) :
    (run (step P X priv) start ops).used.Nodup := by
  have hstart : Below start := ⟨List.nodup_nil, fun _ hmem => absurd hmem List.not_mem_nil⟩
  exact (run_invariant_of_guarded Below Below.step hstart hfresh).nodup

/-- Two frames after a handshake, and a third with the first nonce after a handshake in the
other role, which has another key. -/
def twoHandshakes : List SealOp :=
  [.handshake Key32.zero .Initiator, .encrypt [7] stuckRand 64, .encrypt [8] stuckRand 64,
    .handshake Key32.zero .Responder, .encrypt [9] stuckRand 64]

theorem nodup_two_handshakes :
    let s := run (step copyPrimitives constantCurve Key32.zero) start twoHandshakes
    s.used.length = 3 ∧ s.used.Nodup := by
  have hkey : txKey copyPrimitives (constantCurve.mul Key32.zero Key32.zero) .Responder ∉
      (run (step copyPrimitives constantCurve Key32.zero) start
        (twoHandshakes.take 3)).used.map Prod.fst := by
    decide +kernel
  exact ⟨by decide +kernel, nodup_of_fresh _ _ _ _ ⟨fun _ => List.not_mem_nil, trivial, trivial,
    fun _ hmem => hkey (List.mem_map_of_mem hmem), trivial, trivial⟩⟩

/-- A second handshake with the same peer between the two frames brings the key and the nonce
back. -/
theorem second_handshake_reuses :
    ∃ pair, (run (step copyPrimitives constantCurve Key32.zero) start
      [.handshake Key32.zero .Initiator, .encrypt [7] stuckRand 64,
        .handshake Key32.zero .Initiator, .encrypt [8] stuckRand 64]).used = [pair, pair] :=
  ⟨_, by rfl⟩

end SealLog

end RobotOs.Crypto
