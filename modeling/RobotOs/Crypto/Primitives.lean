import RobotOs.Lib.Framing

/-!
# Hash and cipher primitives

The parts of the crypto crate that the link layers stand on.  SHA-256 and the
AES-128 block function are parameters (`Primitives`); what the code builds over
them is spelled out: HMAC with its padded keys, counter mode, and the
comparison of two tags.
-/

namespace RobotOs.Crypto

open Lib.Framing

/-- The digest and the block cipher. -/
structure Primitives where
  /-- SHA-256 of a whole message. -/
  sha256 : Bytes → Bytes
  /-- `Aes128::encrypt_block` under a key. -/
  encryptBlock : Bytes → Bytes → Bytes
  length_sha256 : ∀ data, (sha256 data).length = 32

def SHA256_BLOCK_SIZE : Nat := 64
def HMAC_IPAD : UInt8 := 0x36
def HMAC_OPAD : UInt8 := 0x5C
def AES_BLOCK_SIZE : Nat := 16

/-- The key padded with zeros to a block, each byte XORed with `pad`. -/
def keyBlock (key : Bytes) (pad : UInt8) : Bytes :=
  (key ++ List.replicate (SHA256_BLOCK_SIZE - key.length) 0).map (· ^^^ pad)

/-- `hmac_sha256`. -/
def hmacSha256 (P : Primitives) (key data : Bytes) : Bytes :=
  P.sha256 (keyBlock key HMAC_OPAD ++ P.sha256 (keyBlock key HMAC_IPAD ++ data))

@[simp] theorem length_hmacSha256 (P : Primitives) (key data : Bytes) :
    (hmacSha256 P key data).length = 32 :=
  P.length_sha256 _

/-- Byte `i` of the key stream: the counter block `nonce ‖ counter` starts at
counter 1 and serves sixteen bytes. -/
def ctrByte (P : Primitives) (key nonce : Bytes) (i : Nat) : UInt8 :=
  (P.encryptBlock key (nonce ++ beBytes 4 (1 + i / AES_BLOCK_SIZE))).getD (i % AES_BLOCK_SIZE) 0

/-- `ctr_encrypt`; `ctr_decrypt` is the same function. -/
def ctrEncrypt (P : Primitives) (key nonce data : Bytes) : Bytes :=
  data.mapIdx fun i b => b ^^^ ctrByte P key nonce i

@[simp] theorem length_ctrEncrypt (P : Primitives) (key nonce data : Bytes) :
    (ctrEncrypt P key nonce data).length = data.length := by
  simp [ctrEncrypt]

/-- Counter mode is its own inverse. -/
theorem ctrEncrypt_ctrEncrypt (P : Primitives) (key nonce data : Bytes) :
    ctrEncrypt P key nonce (ctrEncrypt P key nonce data) = data := by
  apply List.ext_getElem
  · simp
  · intro i hi hi'
    simp only [ctrEncrypt, List.getElem_mapIdx]
    rw [UInt8.xor_assoc, UInt8.xor_self, UInt8.xor_zero]

/-- `ct_eq`: the lengths agree and no byte differs. -/
def ctEq (a b : Bytes) : Bool :=
  a.length == b.length && (a.zip b).foldl (fun diff (x, y) => diff ||| (x ^^^ y)) 0 == 0

@[simp] theorem ctEq_self (a : Bytes) : ctEq a a = true := by
  have hfold : (a.zip a).foldl (fun diff (x, y) => diff ||| (x ^^^ y)) (0 : UInt8) = 0 := by
    induction a with
    | nil => rfl
    | cons x a ih => simpa using ih
  simp [ctEq, hfold]

/-- The accumulator of `ct_eq` is zero only when no byte differs. -/
theorem eq_of_foldl_xor {a b : Bytes} (hlen : a.length = b.length) {acc : UInt8}
    (h : (a.zip b).foldl (fun diff (x, y) => diff ||| (x ^^^ y)) acc = 0) : acc = 0 ∧ a = b := by
  induction a generalizing b acc with
  | nil =>
    obtain rfl : b = [] := List.eq_nil_of_length_eq_zero hlen.symm
    exact ⟨h, rfl⟩
  | cons x a ih =>
    cases b with
    | nil => simp at hlen
    | cons y b =>
      obtain ⟨hacc, rfl⟩ := ih (by simpa using hlen) h
      obtain ⟨rfl, hxor⟩ := UInt8.or_eq_zero_iff.mp hacc
      exact ⟨rfl, by rw [UInt8.xor_eq_zero_iff.mp hxor]⟩

theorem ctEq_iff {a b : Bytes} : ctEq a b = true ↔ a = b := by
  constructor
  · intro h
    simp only [ctEq, Bool.and_eq_true, beq_iff_eq] at h
    exact (eq_of_foldl_xor h.1 h.2).2
  · rintro rfl
    exact ctEq_self a

end RobotOs.Crypto
