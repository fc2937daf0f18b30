import RobotOs.Crypto.Primitives

/-!
# What a boot signature covers

`secure_boot_verify_image_detailed` of `secure_boot.rs`, with `sig_parse_header` and
`sig_verify` of the crypto crate.

The image is read in chunks into a buffer of two megabytes.  A file that is longer fills the
buffer, and the signature is then checked over the part that fits; the size in the metadata is
compared with the buffer, and nothing compares it with the file.  The signature scheme is a
parameter: any function of the key, the signature and the bytes.
-/

namespace RobotOs.Ota.SecureBoot

open Crypto Lib.Framing

def SECURE_BOOT_MAX_IMAGE_SIZE : Nat := 2 * 1024 * 1024
def MAX_VERIFY_SIZE : Nat := 2 * 1024 * 1024
def SIG_HEADER_SIZE : Nat := 4 + 1 + 32 + 64 + 4
def SECURE_BOOT_SIG_FILE_MAX : Nat := SIG_HEADER_SIZE + 16
def SECURE_BOOT_READ_CHUNK_SIZE : Nat := 4096

/-- `SIG_MAGIC`: "RSIG". -/
def SIG_MAGIC : Bytes := [0x52, 0x53, 0x49, 0x47]

/-- `BootTrust`. -/
inductive BootTrust where
  | Verified
  | Unverified
  | Failed
  deriving DecidableEq, Repr

/-- `BootTrustReason`. -/
inductive BootTrustReason where
  | Verified
  | NoTrustedKey
  | SignatureAbsent
  | SignatureMalformed
  | PubkeyMismatch
  | ImageUnreadable
  | SignatureInvalid
  | ImageTooLargeToVerify
  deriving DecidableEq, Repr

/-- `FirmwareSignature`. -/
structure FirmwareSignature where
  magic : Bytes
  algorithm : UInt8
  publicKey : Bytes
  signature : Bytes
  payloadSize : Nat
  deriving DecidableEq, Repr

/-- `sig_parse_header`. -/
def sigParseHeader (data : Bytes) : Option FirmwareSignature :=
  if data.length < SIG_HEADER_SIZE then none
  else if data.take 4 ≠ SIG_MAGIC then none
  else some
    { magic := SIG_MAGIC
      algorithm := data.getD 4 0
      publicKey := slice data 5 32
      signature := slice data 37 64
      payloadSize := ofLE (slice data 101 4) }

/-! ## Files -/

/-- A file on the volume.  A read at an offset gives some of the bytes that follow, at least one
while there are any. -/
structure ImageFile where
  bytes : Bytes
  count : Nat → Nat → Nat
  count_le : ∀ off room, count off room ≤ min room (bytes.length - off)
  count_pos : ∀ off room, 0 < room → off < bytes.length → 0 < count off room

/-- `fat32_read`. -/
def ImageFile.read (f : ImageFile) (off room : Nat) : Bytes :=
  (f.bytes.drop off).take (f.count off room)

/-- The loop of `read_image_file`, with the bytes that are in the buffer so far. -/
def readLoop (f : ImageFile) (outLen : Nat) : Nat → Bytes → Bytes
  | 0, got => got
  | fuel + 1, got =>
    if got.length < outLen then
      let stop := min (got.length + SECURE_BOOT_READ_CHUNK_SIZE) outLen
      let chunk := f.read got.length (stop - got.length)
      if chunk.length = 0 then got else readLoop f outLen fuel (got ++ chunk)
    else got

/-- `read_image_file`; nothing is read from a file that cannot be opened. -/
def readImageFile (image : Option ImageFile) (outLen : Nat) : Bytes :=
  match image with
  | none => []
  | some f => readLoop f outLen outLen []

/-- `read_sig_file`. -/
def readSigFile (sigFile : Option Bytes) : Bytes :=
  (sigFile.getD []).take SECURE_BOOT_SIG_FILE_MAX

/-! ## Verification -/

/-- `verify_strict` of a key, a signature and a message. -/
abbrev Oracle := Bytes → Bytes → Bytes → Bool

/-- `sig_verify`. -/
def sigVerify (oracle : Oracle) (trustedKey signature firmware : Bytes) : Bool :=
  if firmware.length > MAX_VERIFY_SIZE then false else oracle trustedKey signature firmware

/-- `secure_boot_verify_image_detailed`. -/
def verifyImageDetailed (oracle : Oracle) (key : Bytes) (image : Option ImageFile)
    (sigFile : Option Bytes) (imageSize : Nat) : BootTrust × BootTrustReason :=
  if key.all (· == 0) then (.Unverified, .NoTrustedKey)
  else if (readSigFile sigFile).length = 0 then (.Unverified, .SignatureAbsent)
  else
    match sigParseHeader (readSigFile sigFile) with
    | none => (.Failed, .SignatureMalformed)
    | some sig =>
      if !ctEq sig.publicKey key then (.Failed, .PubkeyMismatch)
      else if imageSize > SECURE_BOOT_MAX_IMAGE_SIZE then (.Failed, .ImageTooLargeToVerify)
      else
        let img := readImageFile image SECURE_BOOT_MAX_IMAGE_SIZE
        if img.length = 0 then (.Failed, .ImageUnreadable)
        else if sigVerify oracle key sig.signature img then (.Verified, .Verified)
        else (.Failed, .SignatureInvalid)

/-! ## What is read -/

theorem ImageFile.length_read (f : ImageFile) (off room : Nat) :
    (f.read off room).length = f.count off room := by
  have hle := f.count_le off room
  rw [ImageFile.read, List.length_take, List.length_drop]
  omega

/-- A read continues a beginning of the file. -/
theorem ImageFile.append_read (f : ImageFile) (off room : Nat) :
    f.bytes.take off ++ f.read off room = f.bytes.take (off + f.count off room) := by
  rw [ImageFile.read, List.take_add]

/-- The buffer has a beginning of the file in it, and the loop makes it as long as it can be. -/
theorem readLoop_eq (f : ImageFile) {outLen fuel n : Nat} (hn : n ≤ f.bytes.length)
    (hcap : n ≤ outLen) (hfuel : outLen ≤ n + fuel) :
    readLoop f outLen fuel (f.bytes.take n) = f.bytes.take outLen := by
  induction fuel generalizing n with
  | zero =>
    obtain rfl : n = outLen := by omega
    rfl
  | succ fuel ih =>
    have hlen : (f.bytes.take n).length = n := by
      rw [List.length_take]
      omega
    unfold readLoop
    rw [hlen]
    by_cases hfull : n < outLen
    · rw [if_pos hfull]
      dsimp only
      generalize hroom : min (n + SECURE_BOOT_READ_CHUNK_SIZE) outLen - n = room
      have hpos : 0 < room := by
        unfold SECURE_BOOT_READ_CHUNK_SIZE at hroom
        omega
      have hle := f.count_le n room
      rw [f.length_read, f.append_read]
      by_cases hend : f.count n room = 0
      · -- Nothing was read, so the file ends here.
        have hlast : ¬n < f.bytes.length := fun hmore =>
          (f.count_pos n room hpos hmore).ne' hend
        rw [if_pos hend, List.take_of_length_le (by omega), List.take_of_length_le (by omega)]
      · rw [if_neg hend]
        exact ih (by omega) (by omega) (by omega)
    · rw [if_neg hfull]
      obtain rfl : n = outLen := by omega
      rfl

theorem readImageFile_eq (f : ImageFile) (outLen : Nat) :
    readImageFile (some f) outLen = f.bytes.take outLen :=
  readLoop_eq f (Nat.zero_le _) (Nat.zero_le _) (Nat.le_add_left _ _)

/-- An image is verified when the signature in the file is one of the bytes that were read. -/
theorem verified_iff (oracle : Oracle) (key : Bytes) (f : ImageFile) (sigFile : Option Bytes)
    (imageSize : Nat) :
    (verifyImageDetailed oracle key (some f) sigFile imageSize).1 = .Verified ↔
      key.all (· == 0) = false ∧ imageSize ≤ SECURE_BOOT_MAX_IMAGE_SIZE ∧ f.bytes ≠ [] ∧
      ∃ sig, sigParseHeader (readSigFile sigFile) = some sig ∧ ctEq sig.publicKey key = true ∧
        oracle key sig.signature (f.bytes.take SECURE_BOOT_MAX_IMAGE_SIZE) = true := by
  have hempty : (f.bytes.take SECURE_BOOT_MAX_IMAGE_SIZE).length = 0 ↔ f.bytes = [] := by
    rw [List.length_eq_zero_iff, List.take_eq_nil_iff]
    exact or_iff_right (by decide)
  have hshort : ¬(f.bytes.take SECURE_BOOT_MAX_IMAGE_SIZE).length > MAX_VERIFY_SIZE := by
    have hle := List.length_take_le SECURE_BOOT_MAX_IMAGE_SIZE f.bytes
    unfold MAX_VERIFY_SIZE
    unfold SECURE_BOOT_MAX_IMAGE_SIZE at hle ⊢
    omega
  unfold verifyImageDetailed sigVerify
  dsimp only
  rw [readImageFile_eq]
  simp only [if_neg hshort]
  cases hkey : key.all (· == 0) with
  | true => simp
  | false =>
    cases hparse : sigParseHeader (readSigFile sigFile) with
    | none => by_cases hnone : (readSigFile sigFile).length = 0 <;> simp [hnone]
    | some sig =>
      have hpresent : (readSigFile sigFile).length ≠ 0 := by
        intro hzero
        rw [List.length_eq_zero_iff.mp hzero] at hparse
        nomatch hparse
      simp only [hpresent, hempty, Bool.false_eq_true, if_false]
      cases hmatch : ctEq sig.publicKey key with
      | false => simp [hmatch]
      | true =>
        by_cases hsize : imageSize > SECURE_BOOT_MAX_IMAGE_SIZE
        · simp [hsize]
        · by_cases hnil : f.bytes = []
          · simp [hnil, hsize]
          · cases hsigned : oracle key sig.signature
                (f.bytes.take SECURE_BOOT_MAX_IMAGE_SIZE) <;>
              simp [hsize, hnil, hmatch, hsigned, Nat.le_of_not_lt hsize]

/-- A key, and a file with a signature under it. -/
def testKey : Bytes := List.replicate 32 1

def testSigFile : Bytes :=
  SIG_MAGIC ++ [0] ++ testKey ++ List.replicate 64 2 ++ List.replicate 4 0

theorem sigParse_testSigFile :
    ∃ sig, sigParseHeader (readSigFile (some testSigFile)) = some sig ∧
      sig.publicKey = testKey := by
  refine ⟨_, rfl, ?_⟩
  decide

/-- The signature of the part that fits is accepted for the whole of a longer file. -/
theorem accepts_beginning {image : ImageFile} {imageSize : Nat}
    (hsize : imageSize ≤ SECURE_BOOT_MAX_IMAGE_SIZE)
    (hlong : SECURE_BOOT_MAX_IMAGE_SIZE < image.bytes.length) :
    ∃ oracle key sigFile sig,
      (verifyImageDetailed oracle key (some image) sigFile imageSize).1 = .Verified ∧
      sigParseHeader (readSigFile sigFile) = some sig ∧
      oracle key sig.signature image.bytes = false := by
  obtain ⟨sig, hsig, hkey⟩ := sigParse_testSigFile
  have hcut : image.bytes ≠ image.bytes.take SECURE_BOOT_MAX_IMAGE_SIZE := by
    intro heq
    have hlen := congrArg List.length heq
    rw [List.length_take] at hlen
    omega
  refine ⟨fun _ _ m => m = image.bytes.take SECURE_BOOT_MAX_IMAGE_SIZE, testKey,
    some testSigFile, sig, ?_, hsig, by simpa using hcut⟩
  refine (verified_iff _ _ _ _ _).mpr ⟨by decide, hsize, ?_, sig, hsig, ?_, by simp⟩
  · intro hnil
    rw [hnil] at hlong
    exact absurd hlong (Nat.not_lt_zero _)
  · rw [hkey, ctEq_self]

/-- A signature that is accepted is one of the whole image, for any signature scheme, exactly
when the metadata says that the image is too large or the file fits in the buffer. -/
theorem signature_covers_image_iff (image : ImageFile) (imageSize : Nat) :
    (∀ oracle key sigFile,
      (verifyImageDetailed oracle key (some image) sigFile imageSize).1 = .Verified →
      ∃ sig, sigParseHeader (readSigFile sigFile) = some sig ∧
        oracle key sig.signature image.bytes = true) ↔
    SECURE_BOOT_MAX_IMAGE_SIZE < imageSize ∨
      image.bytes.length ≤ SECURE_BOOT_MAX_IMAGE_SIZE := by
  constructor
  · intro hcovers
    by_contra hlong
    rw [not_or, not_lt, not_le] at hlong
    obtain ⟨oracle, key, sigFile, sig, hverified, hsig, hrefused⟩ :=
      accepts_beginning hlong.1 hlong.2
    obtain ⟨sig', hsig', haccepted⟩ := hcovers oracle key sigFile hverified
    obtain rfl := Option.some.inj (hsig.symm.trans hsig')
    exact absurd haccepted (by rw [hrefused]; decide)
  · intro hfits oracle key sigFile hverified
    obtain ⟨-, hsize, -, sig, hsig, -, haccepted⟩ := (verified_iff _ _ _ _ _).mp hverified
    have hwhole := hfits.resolve_left (Nat.not_lt_of_le hsize)
    rw [List.take_of_length_le hwhole] at haccepted
    exact ⟨sig, hsig, haccepted⟩

theorem min_sub_pos (size off room : Nat) (hroom : 0 < room) (hoff : off < size) :
    0 < min room (size - off) := by
  omega

/-- A file that always gives as much as there is room for. -/
def ImageFile.ofBytes (bytes : Bytes) : ImageFile :=
  ⟨bytes, fun off room => min room (bytes.length - off), fun _ _ => Nat.le_refl _,
    min_sub_pos bytes.length⟩

/-- A file of zeros, one byte longer than the buffer. -/
def longImage : ImageFile := .ofBytes (List.replicate (SECURE_BOOT_MAX_IMAGE_SIZE + 1) 0)

/-- It is verified with metadata of no size and a signature that is not one of its bytes. -/
theorem longImage_verified :
    ∃ oracle key sigFile sig,
      (verifyImageDetailed oracle key (some longImage) sigFile 0).1 = .Verified ∧
      sigParseHeader (readSigFile sigFile) = some sig ∧
      oracle key sig.signature longImage.bytes = false :=
  accepts_beginning (Nat.zero_le _)
    (by rw [longImage, ImageFile.ofBytes, List.length_replicate]; exact Nat.lt_succ_self _)

end RobotOs.Ota.SecureBoot
