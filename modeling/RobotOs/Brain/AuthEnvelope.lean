import RobotOs.Crypto.Primitives

/-!
# The authenticated envelope

`auth_envelope.rs` of the behavior crate.  An envelope is
`nonce ‖ tag ‖ length ‖ inner`; the tag also covers a direction label that is
not sent.  The receiver keeps the highest nonce it has accepted and takes only
larger ones.  An unkeyed kernel passes bytes through unchanged, unless the build
enforces encryption.

`unwrapConsuming_envelopeFrame` is the round trip of one envelope under any
bytes that follow it.
-/

namespace RobotOs.Brain

open Lib.Framing Crypto

def NONCE_BYTES : Nat := 8
def HMAC_BYTES : Nat := 16
def LEN_BYTES : Nat := 2
def ENVELOPE_OVERHEAD : Nat := NONCE_BYTES + HMAC_BYTES + LEN_BYTES
def MAX_INNER_BYTES : Nat := 8 * 1024

/-- `b"C2S"`, the direction from the brain to the kernel. -/
def DIR_RX : Bytes := [0x43, 0x32, 0x53]
/-- `b"S2C"`, the direction from the kernel to the brain. -/
def DIR_TX : Bytes := [0x53, 0x32, 0x43]

inductive LinkDenial where
  | NoKey
  | NoAeadSession
  deriving DecidableEq, Repr

/-- The statics of the module: the key once `init` has loaded one, the two
counters, the build's policy, and the number of live AEAD sessions. -/
structure Envelope where
  key : Option Bytes
  highestRxNonce : UInt64
  sendNonce : UInt64
  linkEncryptEnforced : Bool
  aeadSessions : Nat

/-- `link_policy_denial`. -/
def linkPolicyDenial (e : Envelope) : Option LinkDenial :=
  if !e.linkEncryptEnforced then none
  else if e.key.isNone then some .NoKey
  else if e.aeadSessions = 0 then some .NoAeadSession
  else none

/-- The tag of an envelope: the first half of the HMAC. -/
def envelopeTag (P : Primitives) (key dir nonceB lenB inner : Bytes) : Bytes :=
  (hmacSha256 P key (dir ++ (nonceB ++ (lenB ++ inner)))).take HMAC_BYTES

/-- A whole envelope. -/
def envelopeFrame (P : Primitives) (key dir : Bytes) (nonce : UInt64) (inner : Bytes) : Bytes :=
  let nonceB := beBytes NONCE_BYTES nonce.toNat
  let lenB := leBytes LEN_BYTES inner.length
  nonceB ++ (envelopeTag P key dir nonceB lenB inner ++ (lenB ++ inner))

/-- `wrap`: the bytes written, none when nothing is, and the state after. -/
def wrap (P : Primitives) (e : Envelope) (inner : Bytes) (outLen : Nat) :
    Option Bytes × Envelope :=
  if (linkPolicyDenial e).isSome then (none, e)
  else
    match e.key with
    | none => if outLen < inner.length then (none, e) else (some inner, e)
    | some key =>
      if MAX_INNER_BYTES < inner.length then (none, e)
      else if outLen < ENVELOPE_OVERHEAD + inner.length then (none, e)
      else
        let nonce := e.sendNonce + 1
        (some (envelopeFrame P key DIR_TX nonce inner), { e with sendNonce := nonce })

/-- `unwrap_consuming`: the inner packet of the first envelope in `frame` with
the number of bytes that envelope took, and the state after. -/
def unwrapConsuming (P : Primitives) (e : Envelope) (frame : Bytes) (outLen : Nat) :
    Option (Bytes × Nat) × Envelope :=
  if (linkPolicyDenial e).isSome then (none, e)
  else
    match e.key with
    | none => if outLen < frame.length then (none, e) else (some (frame, frame.length), e)
    | some key =>
      if frame.length < ENVELOPE_OVERHEAD then (none, e)
      else
        let nonceB := slice frame 0 NONCE_BYTES
        let macB := slice frame NONCE_BYTES HMAC_BYTES
        let lenB := slice frame (NONCE_BYTES + HMAC_BYTES) LEN_BYTES
        let n := ofLE lenB
        if MAX_INNER_BYTES < n then (none, e)
        else if frame.length < ENVELOPE_OVERHEAD + n then (none, e)
        else if outLen < n then (none, e)
        else
          let inner := slice frame ENVELOPE_OVERHEAD n
          if !ctEq (envelopeTag P key DIR_RX nonceB lenB inner) macB then (none, e)
          else
            let nonce := UInt64.ofNat (ofBE nonceB)
            let prev := e.highestRxNonce
            let e' := { e with highestRxNonce := max prev nonce }
            if nonce ≤ prev then (none, e') else (some (inner, ENVELOPE_OVERHEAD + n), e')

/-! ## One envelope, sealed and opened -/

section Frame

variable (P : Primitives) (key dir nonceB lenB inner : Bytes) (nonce : UInt64) (tail : Bytes)

@[simp] theorem length_envelopeTag :
    (envelopeTag P key dir nonceB lenB inner).length = HMAC_BYTES := by
  simp [envelopeTag, HMAC_BYTES]

@[simp] theorem length_envelopeFrame :
    (envelopeFrame P key dir nonce inner).length = ENVELOPE_OVERHEAD + inner.length := by
  simp [envelopeFrame, ENVELOPE_OVERHEAD]
  omega

/-- The four fields of an envelope. -/
theorem slice_envelopeFrame_nonce :
    slice (envelopeFrame P key dir nonce inner ++ tail) 0 NONCE_BYTES =
      beBytes NONCE_BYTES nonce.toNat := by
  simp only [envelopeFrame, List.append_assoc]
  exact slice_zero_append _ _ _ (length_beBytes _ _)

theorem slice_envelopeFrame_tag :
    slice (envelopeFrame P key dir nonce inner ++ tail) NONCE_BYTES HMAC_BYTES =
      envelopeTag P key dir (beBytes NONCE_BYTES nonce.toNat)
        (leBytes LEN_BYTES inner.length) inner := by
  simp only [envelopeFrame, List.append_assoc]
  rw [slice_append_right _ _ _ _ (by simp), length_beBytes, Nat.sub_self]
  exact slice_zero_append _ _ _ (length_envelopeTag _ _ _ _ _ _)

theorem slice_envelopeFrame_length :
    slice (envelopeFrame P key dir nonce inner ++ tail) (NONCE_BYTES + HMAC_BYTES) LEN_BYTES =
      leBytes LEN_BYTES inner.length := by
  simp only [envelopeFrame, List.append_assoc]
  rw [slice_append_right _ _ _ _ (by simp), slice_append_right _ _ _ _ (by simp)]
  simp only [length_beBytes, length_envelopeTag, Nat.add_sub_cancel_left, Nat.sub_self]
  exact slice_zero_append _ _ _ (length_leBytes _ _)

theorem slice_envelopeFrame_inner :
    slice (envelopeFrame P key dir nonce inner ++ tail) ENVELOPE_OVERHEAD inner.length = inner := by
  simp only [envelopeFrame, List.append_assoc]
  rw [slice_append_right _ _ _ _ (by simp [ENVELOPE_OVERHEAD]; omega),
    slice_append_right _ _ _ _ (by simp [ENVELOPE_OVERHEAD]; omega),
    slice_append_right _ _ _ _ (by simp [ENVELOPE_OVERHEAD]; omega)]
  simp only [length_beBytes, length_envelopeTag, length_leBytes]
  exact slice_zero_append _ _ _ rfl

end Frame

/-- `fetch_max` with a larger value moves the mark. -/
theorem fetchMax_of_lt {mark nonce : UInt64} (h : mark < nonce) : max mark nonce = nonce := by
  show (if mark ≤ nonce then nonce else mark) = nonce
  exact if_pos (UInt64.le_of_lt h)

/-- `fetch_max` with another value leaves it. -/
theorem fetchMax_of_le {mark nonce : UInt64} (h : nonce ≤ mark) : max mark nonce = mark := by
  show (if mark ≤ nonce then nonce else mark) = mark
  split_ifs with hle
  · exact UInt64.le_antisymm h hle
  · rfl

/-- An envelope that the peer sealed for this direction opens, whatever follows
it, when its nonce is new and the inner packet fits. -/
theorem unwrapConsuming_envelopeFrame (P : Primitives) {e : Envelope} {key : Bytes}
    (hkey : e.key = some key) (hpolicy : linkPolicyDenial e = none) (nonce : UInt64)
    (hnonce : e.highestRxNonce < nonce) (inner tail : Bytes)
    (hmax : inner.length ≤ MAX_INNER_BYTES) (outLen : Nat) (hout : inner.length ≤ outLen) :
    unwrapConsuming P e (envelopeFrame P key DIR_RX nonce inner ++ tail) outLen =
      (some (inner, ENVELOPE_OVERHEAD + inner.length), { e with highestRxNonce := nonce }) := by
  have h16 : inner.length < 256 ^ LEN_BYTES := by
    simp only [MAX_INNER_BYTES] at hmax
    simp only [LEN_BYTES]
    omega
  have h64 : ofBE (beBytes NONCE_BYTES nonce.toNat) = nonce.toNat :=
    ofBE_beBytes _ _ nonce.toNat_lt
  have hmark := fetchMax_of_lt hnonce
  simp only [unwrapConsuming, hkey, hpolicy, slice_envelopeFrame_nonce, slice_envelopeFrame_tag,
    slice_envelopeFrame_length, ofLE_leBytes _ _ h16, slice_envelopeFrame_inner, h64,
    UInt64.ofNat_toNat, hmark, List.length_append, length_envelopeFrame, ctEq_self]
  rw [if_neg (by simp), if_neg (by omega), if_neg (by omega), if_neg (by omega),
    if_neg (by omega), if_neg (by simp), if_neg (UInt64.not_le.mpr hnonce)]

end RobotOs.Brain
