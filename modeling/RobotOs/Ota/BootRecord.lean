import RobotOs.Ota.BootMeta
import RobotOs.Lib.Lines
import RobotOs.Lib.Radix
import RobotOs.Lib.Text

/-!
# The text of a boot record

The on-disk form of the boot metadata in `crates/ota/src/pure.rs`: one
`key=value` line for each field, a `seq=` line before them and a `crc=` line
after them.  The checksum covers every byte above the `crc=` line.

The serializer writes into a buffer and leaves a line out that does not fit.
`serializeBootMetaRecord_eq` says that the 512 bytes of the caller are enough
for every record.

There are three groups of lemmas.

* Numbers and slot letters read back as they were written.
* The parser reads well-formed lines one after the other (`parseLines_lines`),
  so it finds every field of a serialized record (`parseBootMeta_recordBody`).
* The `crc=` line is found at the end of the body and nowhere else, in the
  record and in every beginning of it, because the search for a line is stable
  under extension.
-/

namespace RobotOs.Ota

open Lib.Framing Lib.Lines Lib.Radix Lib.Text

variable {record : BootMetaRecord} {field : Bytes × Bytes}

/-- `OTA_META_RECORD_MAX_BYTES`. -/
def OTA_META_RECORD_MAX_BYTES : Nat := 512

/-! ## Numbers and slots -/

def isAsciiDigit (b : UInt8) : Bool := 0x30 ≤ b && b ≤ 0x39

/-- `b'0' + digit`. -/
def digitChar (digit : Nat) : UInt8 := UInt8.ofNat (0x30 + digit)

/-- `fmt_u32_to_buf`. -/
def fmtU32 (val : UInt32) : Bytes :=
  if val = 0 then [0x30] else (shortDigits 10 10 val.toNat).map digitChar

/-- `parse_u32_simple`: the digits up to the first other byte, saturating. -/
def parseU32Simple (s : Bytes) : UInt32 :=
  UInt32.ofNat (((s.takeWhile isAsciiDigit).map fun b => b.toNat - 0x30).foldl
    (clampDigit 10 U32_MAX) 0)

/-- A nibble as it is written. -/
def hexChar (nibble : Nat) : UInt8 :=
  UInt8.ofNat (if nibble < 10 then 0x30 + nibble else 0x61 + nibble - 10)

/-- A hexadecimal digit as it is read. -/
def hexVal (b : UInt8) : Option Nat :=
  if 0x30 ≤ b ∧ b ≤ 0x39 then some (b.toNat - 0x30)
  else if 0x61 ≤ b ∧ b ≤ 0x66 then some (b.toNat - 0x61 + 10)
  else if 0x41 ≤ b ∧ b ≤ 0x46 then some (b.toNat - 0x41 + 10)
  else none

/-- The loop over hexadecimal digits, with wrapping arithmetic. -/
def parseHex (v : UInt32) : Bytes → UInt32
  | [] => v
  | b :: bs =>
    match hexVal b with
    | some d => parseHex (v * 16 + UInt32.ofNat d) bs
    | none => v

/-- `parse_u32_hex_or_dec`. -/
def parseU32HexOrDec (s : Bytes) : UInt32 :=
  match s.dropWhile isBlank with
  | 0x30 :: x :: hex =>
    if x = 0x78 ∨ x = 0x58 then parseHex 0 hex else parseU32Simple (0x30 :: x :: hex)
  | s => parseU32Simple s

/-- The value that `write_kv_u32_hex` writes. -/
def fmtU32Hex (val : UInt32) : Bytes :=
  0x30 :: 0x78 :: (fixedDigits 16 8 val.toNat).map hexChar

/-- `slot_char`. -/
def slotChar (slot : UInt8) : Bytes :=
  if slot = SLOT_A then ascii "a" else if slot = SLOT_R then ascii "r" else ascii "b"

/-- `parse_slot_char`. -/
def parseSlotChar (val : Bytes) : UInt8 :=
  if val = ascii "b" ∨ val = ascii "B" then SLOT_B
  else if val = ascii "r" ∨ val = ascii "R" then SLOT_R
  else SLOT_A

/-- One bit of `crc32`. -/
def crcShift (crc : UInt32) : UInt32 :=
  if crc &&& 1 ≠ 0 then (crc >>> 1) ^^^ 0xEDB88320 else crc >>> 1

/-- `crc32`. -/
def crc32 (data : Bytes) : UInt32 :=
  ~~~ data.foldl (fun crc byte => crcShift^[8] (crc ^^^ byte.toUInt32)) 0xFFFFFFFF

/-! ## The streaming checksum -/

structure Crc32State where
  crc : UInt32

namespace Crc32State

def new : Crc32State := ⟨0xFFFFFFFF⟩

/-- The body of the loop of `update`. -/
def updateByte (state : Crc32State) (byte : UInt8) : Crc32State :=
  ⟨crcShift^[8] (state.crc ^^^ byte.toUInt32)⟩

def update (state : Crc32State) (data : Bytes) : Crc32State := data.foldl updateByte state

def finalize (state : Crc32State) : UInt32 := ~~~ state.crc

/-- `crc32` is one update between the two inversions. -/
theorem finalize_update_new (data : Bytes) : (new.update data).finalize = crc32 data := by
  have hcrc : ∀ state : Crc32State, (state.update data).crc =
      data.foldl (fun crc byte => crcShift^[8] (crc ^^^ byte.toUInt32)) state.crc := by
    induction data with
    | nil => exact fun _ => rfl
    | cons byte data ih => exact fun state => ih (state.updateByte byte)
  exact congrArg (~~~ ·) (hcrc new)

/-- The updates with the chunks one after the other are the update with all of them. -/
theorem foldl_update (chunks : List Bytes) (state : Crc32State) :
    chunks.foldl update state = state.update chunks.flatten := by
  induction chunks generalizing state with
  | nil => rfl
  | cons chunk chunks ih =>
    rw [List.foldl_cons, ih, List.flatten_cons, update, update, update, List.foldl_append]

/-- The state does not see where the data was cut. -/
theorem finalize_chunks (chunks : List Bytes) :
    (chunks.foldl update new).finalize = crc32 chunks.flatten := by
  rw [foldl_update, finalize_update_new]

end Crc32State

/-! ## Writing -/

/-- `write_kv`: nothing is written when the line does not fit. -/
def writeKv (cap : Nat) (out key val : Bytes) : Bytes :=
  if out.length + (key.length + 1 + val.length + 1) > cap then out
  else out ++ (key ++ EQUALS :: val ++ [NEWLINE])

/-- The fields in the order of `serialize_boot_meta`. -/
def bootFields (boot : BootMeta) : List (Bytes × Bytes) :=
  [(ascii "active_slot", slotChar boot.activeSlot),
    (ascii "boot_count", fmtU32 boot.bootCount),
    (ascii "last_good", slotChar boot.lastGood),
    (ascii "fw_version_a", fmtU32 boot.fwVersionA),
    (ascii "fw_version_b", fmtU32 boot.fwVersionB),
    (ascii "fw_version_r", fmtU32 boot.fwVersionR),
    (ascii "image_size_a", fmtU32 boot.imageSizeA),
    (ascii "image_size_b", fmtU32 boot.imageSizeB),
    (ascii "image_size_r", fmtU32 boot.imageSizeR),
    (ascii "image_crc_a", fmtU32 boot.imageCrcA),
    (ascii "image_crc_b", fmtU32 boot.imageCrcB),
    (ascii "image_crc_r", fmtU32 boot.imageCrcR),
    (ascii "min_fw_version", fmtU32 boot.minFwVersion)]

/-- `serialize_boot_meta`, into a buffer of `cap` bytes. -/
def serializeBootMeta (cap : Nat) (boot : BootMeta) : Bytes :=
  (bootFields boot).foldl (fun out field => writeKv cap out field.1 field.2) []

/-- `serialize_boot_meta_record`, into a buffer of `cap` bytes. -/
def serializeBootMetaRecord (cap : Nat) (record : BootMetaRecord) : Bytes :=
  let head := writeKv cap [] (ascii "seq") (fmtU32 record.seq)
  let body := head ++ serializeBootMeta (cap - head.length) record.boot
  writeKv cap body (ascii "crc") (fmtU32Hex (crc32 body))

/-! ## Reading -/

/-- The assignments of `parse_boot_meta`. -/
def setField (boot : BootMeta) (key val : Bytes) : BootMeta :=
  if key = ascii "active_slot" then { boot with activeSlot := parseSlotChar val }
  else if key = ascii "boot_count" then { boot with bootCount := parseU32Simple val }
  else if key = ascii "last_good" then { boot with lastGood := parseSlotChar val }
  else if key = ascii "fw_version_a" then { boot with fwVersionA := parseU32Simple val }
  else if key = ascii "fw_version_b" then { boot with fwVersionB := parseU32Simple val }
  else if key = ascii "fw_version_r" then { boot with fwVersionR := parseU32Simple val }
  else if key = ascii "image_size_a" then { boot with imageSizeA := parseU32Simple val }
  else if key = ascii "image_size_b" then { boot with imageSizeB := parseU32Simple val }
  else if key = ascii "image_size_r" then { boot with imageSizeR := parseU32Simple val }
  else if key = ascii "image_crc_a" then { boot with imageCrcA := parseU32Simple val }
  else if key = ascii "image_crc_b" then { boot with imageCrcB := parseU32Simple val }
  else if key = ascii "image_crc_r" then { boot with imageCrcR := parseU32Simple val }
  else if key = ascii "min_fw_version" then { boot with minFwVersion := parseU32Simple val }
  else boot

/-- The loop of `parse_boot_meta` over the bytes that are left. -/
def parseLines (boot : BootMeta) (data : Bytes) : BootMeta :=
  match _ : data.dropWhile isSpace with
  | [] => boot
  | b :: rest =>
    if b = HASH then parseLines boot (rest.dropWhile (· != NEWLINE))
    else
      match _ : (b :: rest).dropWhile isKeyByte with
      | [] => boot
      | c :: after =>
        if c = EQUALS then
          parseLines (setField boot ((b :: rest).takeWhile isKeyByte) (after.takeWhile isValByte))
            (after.dropWhile isValByte)
        else
          -- A line without `=`: its line end is a space of the next round.
          parseLines boot after
termination_by data.length
decreasing_by
  all_goals
    have h₁ := congrArg List.length ‹data.dropWhile isSpace = _›
    have h₂ := (List.dropWhile_sublist isSpace (l := data)).length_le
    simp only [List.length_cons] at h₁
  · have h₃ := (List.dropWhile_sublist (· != NEWLINE) (l := rest)).length_le
    omega
  · have h₃ := congrArg List.length ‹(b :: rest).dropWhile isKeyByte = _›
    have h₄ := (List.dropWhile_sublist isKeyByte (l := (b :: rest))).length_le
    have h₅ := (List.dropWhile_sublist isValByte (l := after)).length_le
    simp only [List.length_cons] at h₃ h₄
    omega
  · have h₃ := congrArg List.length ‹(b :: rest).dropWhile isKeyByte = _›
    have h₄ := (List.dropWhile_sublist isKeyByte (l := (b :: rest))).length_le
    simp only [List.length_cons] at h₃ h₄
    omega

/-- `parse_boot_meta`. -/
def parseBootMeta (data : Bytes) : BootMeta := parseLines .default data

/-- `parse_seq_line`. -/
def parseSeqLine (data : Bytes) : UInt32 :=
  match findLine NEWLINE (ascii "seq=") true data with
  | none => 0
  | some i => parseU32Simple ((data.drop (i + 4)).takeWhile isValByte)

/-- `parse_boot_meta_record`. -/
def parseBootMetaRecord (data : Bytes) : Option BootMetaRecord :=
  match findLine NEWLINE (ascii "crc=") true data with
  | none => none
  | some crcStart =>
    let body := data.take crcStart
    let crcField := (data.drop (crcStart + 4)).takeWhile isValByte
    if crc32 body ≠ parseU32HexOrDec crcField then none
    else some ⟨parseBootMeta body, parseSeqLine body⟩

/-! ## Numbers and slots read back -/

theorem toNat_digitChar {digit : Nat} (h : digit < 10) :
    (digitChar digit).toNat = 0x30 + digit := by
  simp only [digitChar, UInt8.toNat_ofNat']
  omega

theorem isAsciiDigit_digitChar {digit : Nat} (h : digit < 10) :
    isAsciiDigit (digitChar digit) = true := by
  simp only [isAsciiDigit, Bool.and_eq_true, decide_eq_true_eq, UInt8.le_iff_toNat_le,
    toNat_digitChar h, UInt8.reduceToNat]
  omega

/-- The digits that `fmtU32` writes. -/
theorem fmtU32_eq (val : UInt32) : ∃ digits, fmtU32 val = digits.map digitChar ∧
    (∀ d ∈ digits, d < 10) ∧ digits.length ≤ 10 ∧ ofDigits 10 digits = val.toNat := by
  unfold fmtU32
  split_ifs with h
  · exact ⟨[0], rfl, by simp, by simp, by simp [h, ofDigits]⟩
  · have hlt : val.toNat < 10 ^ 10 := lt_trans val.toNat_lt (by norm_num)
    exact ⟨_, rfl, fun d => lt_of_mem_shortDigits (by norm_num), length_shortDigits_le _ _ _,
      ofDigits_shortDigits hlt⟩

theorem length_fmtU32_le (val : UInt32) : (fmtU32 val).length ≤ 10 := by
  obtain ⟨digits, he, -, hlen, -⟩ := fmtU32_eq val
  rw [he, List.length_map]
  exact hlen

theorem isAsciiDigit_of_mem_fmtU32 {val : UInt32} {b : UInt8} (h : b ∈ fmtU32 val) :
    isAsciiDigit b = true := by
  obtain ⟨digits, he, hdigits, -, -⟩ := fmtU32_eq val
  rw [he] at h
  obtain ⟨d, hd, rfl⟩ := List.mem_map.mp h
  exact isAsciiDigit_digitChar (hdigits d hd)

theorem parseU32Simple_fmtU32 (val : UInt32) : parseU32Simple (fmtU32 val) = val := by
  have hall : (fmtU32 val).takeWhile isAsciiDigit = fmtU32 val :=
    List.takeWhile_eq_self_iff.mpr fun b hb => isAsciiDigit_of_mem_fmtU32 hb
  obtain ⟨digits, he, hdigits, -, hval⟩ := fmtU32_eq val
  have hback : (digits.map digitChar).map (fun b => b.toNat - 0x30) = digits := by
    rw [List.map_map]
    refine (List.map_congr_left fun d hd => ?_).trans (List.map_id digits)
    rw [Function.comp_apply, toNat_digitChar (hdigits d hd), Nat.add_sub_cancel_left]
    rfl
  unfold parseU32Simple
  rw [hall, he, hback, foldl_clampDigit (by norm_num), hval]
  have hlt := val.toNat_lt
  rw [Nat.min_eq_left (by unfold U32_MAX; omega), UInt32.ofNat_toNat]

theorem hexVal_hexChar {nibble : Nat} (h : nibble < 16) :
    hexVal (hexChar nibble) = some nibble := by
  interval_cases nibble <;> rfl

/-- The loop reads the digits that were written. -/
theorem parseHex_map_hexChar {digits : List Nat} (h : ∀ d ∈ digits, d < 16) (v : UInt32) :
    parseHex v (digits.map hexChar) =
      digits.foldl (fun v d => v * 16 + UInt32.ofNat d) v := by
  induction digits generalizing v with
  | nil => rfl
  | cons d ds ih =>
    rw [List.map_cons, parseHex, hexVal_hexChar (h d List.mem_cons_self)]
    exact ih (fun x hx => h x (List.mem_cons_of_mem _ hx)) _

theorem foldl_hexDigits (digits : List Nat) :
    digits.foldl (fun v d => v * 16 + UInt32.ofNat d) 0 = UInt32.ofNat (ofDigits 16 digits) := by
  induction digits using List.reverseRecOn with
  | nil => rfl
  | append_singleton digits d ih =>
    rw [List.foldl_append, ih, ofDigits_append_singleton, UInt32.ofNat_add, UInt32.ofNat_mul]
    rfl

theorem parseU32HexOrDec_fmtU32Hex (val : UInt32) : parseU32HexOrDec (fmtU32Hex val) = val := by
  have hblank : (fmtU32Hex val).dropWhile isBlank = fmtU32Hex val := by
    simp [fmtU32Hex, isBlank]
  have hdigits : ∀ d ∈ fixedDigits 16 8 val.toNat, d < 16 :=
    fun d => lt_of_mem_fixedDigits (by norm_num)
  have hlt : val.toNat < 16 ^ 8 := lt_of_lt_of_eq val.toNat_lt (by norm_num)
  unfold parseU32HexOrDec
  rw [hblank, fmtU32Hex]
  simp only [true_or, if_true]
  rw [parseHex_map_hexChar hdigits, foldl_hexDigits, ofDigits_fixedDigits hlt, UInt32.ofNat_toNat]

/-- A slot that has a letter of its own. -/
def Representable (slot : UInt8) : Prop := slot = SLOT_A ∨ slot = SLOT_B ∨ slot = SLOT_R

theorem parseSlotChar_slotChar {slot : UInt8} (h : Representable slot) :
    parseSlotChar (slotChar slot) = slot := by
  rcases h with rfl | rfl | rfl <;> decide

/-! ## Lines -/

/-- The line of a field, without its line end. -/
def fieldLine (field : Bytes × Bytes) : Bytes := field.1 ++ EQUALS :: field.2

/-- A field that the parser reads as one line. -/
structure FieldOk (field : Bytes × Bytes) : Prop where
  key_starts : ∃ b rest, field.1 = b :: rest ∧ isSpace b = false ∧ b ≠ HASH
  key_bytes : ∀ b ∈ field.1, isKeyByte b = true
  val_bytes : ∀ b ∈ field.2, isValByte b = true

theorem parseLines_nil (boot : BootMeta) : parseLines boot [] = boot := by
  rw [parseLines]
  rfl

/-- A line end before a line changes nothing. -/
theorem parseLines_newline (boot : BootMeta) (rest : Bytes) :
    parseLines boot (NEWLINE :: rest) = parseLines boot rest := by
  have hskip : (NEWLINE :: rest).dropWhile isSpace = rest.dropWhile isSpace :=
    List.dropWhile_cons_of_pos (by decide)
  rw [parseLines, parseLines, hskip]

/-- The parser reads one line. -/
theorem parseLines_field (boot : BootMeta) (h : FieldOk field) (rest : Bytes) :
    parseLines boot (fieldLine field ++ NEWLINE :: rest) =
      parseLines (setField boot field.1 field.2) rest := by
  obtain ⟨b, key, hkey, hspace, hhash⟩ := h.key_starts
  have hstart : (fieldLine field ++ NEWLINE :: rest).dropWhile isSpace =
      b :: (key ++ EQUALS :: (field.2 ++ NEWLINE :: rest)) := by
    simp [fieldLine, hkey, hspace]
  have hline : b :: (key ++ EQUALS :: (field.2 ++ NEWLINE :: rest)) =
      field.1 ++ EQUALS :: (field.2 ++ NEWLINE :: rest) := by
    rw [hkey, List.cons_append]
  obtain ⟨hkeyTake, hkeyDrop⟩ := takeWhile_append_stop h.key_bytes
    (show isKeyByte EQUALS = false by decide) (field.2 ++ NEWLINE :: rest)
  obtain ⟨hvalTake, hvalDrop⟩ := takeWhile_append_stop h.val_bytes
    (show isValByte NEWLINE = false by decide) rest
  rw [parseLines, hstart]
  simp only [hhash, if_false]
  rw [hline, hkeyTake, hkeyDrop]
  simp only [if_true, hvalTake, hvalDrop]
  exact parseLines_newline _ _

/-- The parser reads lines one after the other. -/
theorem parseLines_lines (boot : BootMeta) {fields : List (Bytes × Bytes)}
    (h : ∀ field ∈ fields, FieldOk field) :
    parseLines boot (joinLines NEWLINE (fields.map fieldLine)) =
      fields.foldl (fun boot field => setField boot field.1 field.2) boot := by
  induction fields generalizing boot with
  | nil => exact parseLines_nil boot
  | cons field fields ih =>
    rw [List.map_cons, joinLines_cons, parseLines_field boot (h field List.mem_cons_self)]
    exact ih _ fun f hf => h f (List.mem_cons_of_mem _ hf)

/-! ## The record as lines -/

/-- The fields of a record, the sequence number first. -/
def recordFields (record : BootMetaRecord) : List (Bytes × Bytes) :=
  (ascii "seq", fmtU32 record.seq) :: bootFields record.boot

/-- The part of a record that its checksum covers. -/
def recordBody (record : BootMetaRecord) : Bytes :=
  joinLines NEWLINE ((recordFields record).map fieldLine)

/-- The whole text of a record. -/
def recordText (record : BootMetaRecord) : Bytes :=
  recordBody record ++ (ascii "crc=" ++ (fmtU32Hex (crc32 (recordBody record)) ++ [NEWLINE]))

/-- Lines that fit are written. -/
theorem foldl_writeKv {cap : Nat} {out : Bytes} {fields : List (Bytes × Bytes)}
    (h : out.length + (joinLines NEWLINE (fields.map fieldLine)).length ≤ cap) :
    fields.foldl (fun out field => writeKv cap out field.1 field.2) out =
      out ++ joinLines NEWLINE (fields.map fieldLine) := by
  induction fields generalizing out with
  | nil => simp
  | cons field fields ih =>
    simp only [List.map_cons, joinLines_cons, fieldLine, List.length_append,
      List.length_cons] at h
    have hfit : writeKv cap out field.1 field.2 = out ++ (fieldLine field ++ [NEWLINE]) := by
      rw [writeKv, if_neg (by omega), fieldLine]
    rw [List.foldl_cons, hfit, ih]
    · simp
    · simp only [List.length_append, List.length_cons, List.length_nil, fieldLine]
      omega

/-- The keys of a record. -/
def recordKeys : List Bytes := (recordFields ⟨.default, 0⟩).map Prod.fst

theorem map_fst_recordFields (record : BootMetaRecord) :
    (recordFields record).map Prod.fst = recordKeys := rfl

/-- A key that starts a line and is not a checksum key. -/
def keyOk (key : Bytes) : Bool :=
  match key with
  | [] => false
  | b :: _ => !isSpace b && b != HASH && key.all isKeyByte && key.take 3 != ascii "crc" &&
      decide (3 ≤ key.length)

theorem keyOk_of_mem (h : field ∈ recordFields record) : keyOk field.1 = true := by
  have hall : ∀ key ∈ recordKeys, keyOk key = true := by decide
  exact hall field.1 (map_fst_recordFields record ▸ List.mem_map_of_mem h)

/-- The values of a record are numbers and slot letters. -/
theorem val_of_mem (h : field ∈ recordFields record) :
    (∃ val, field.2 = fmtU32 val) ∨ ∃ slot, field.2 = slotChar slot := by
  simp only [recordFields, bootFields, List.mem_cons, List.not_mem_nil, or_false] at h
  rcases h with rfl | rfl | rfl | rfl | rfl | rfl | rfl | rfl | rfl | rfl | rfl | rfl | rfl | rfl
  all_goals first | exact .inl ⟨_, rfl⟩ | exact .inr ⟨_, rfl⟩

theorem slotChar_cases (slot : UInt8) :
    slotChar slot = ascii "a" ∨ slotChar slot = ascii "r" ∨ slotChar slot = ascii "b" := by
  unfold slotChar
  split_ifs <;> simp

theorem isValByte_of_isAsciiDigit {b : UInt8} (h : isAsciiDigit b = true) :
    isValByte b = true := by
  simp only [isAsciiDigit, Bool.and_eq_true, decide_eq_true_eq] at h
  have hne : ∀ c : UInt8, c < 0x30 → b ≠ c := by
    rintro c hc rfl
    exact absurd h.1 (UInt8.not_le.mpr hc)
  simp [isValByte, hne NEWLINE (by decide), hne CARRIAGE_RETURN (by decide)]

/-- A value of a record is short and stays on its line. -/
theorem val_spec_of_mem (h : field ∈ recordFields record) :
    field.2.length ≤ 10 ∧ ∀ b ∈ field.2, isValByte b = true := by
  rcases val_of_mem h with ⟨val, hv⟩ | ⟨slot, hs⟩
  · rw [hv]
    exact ⟨length_fmtU32_le val, fun b hb =>
      isValByte_of_isAsciiDigit (isAsciiDigit_of_mem_fmtU32 hb)⟩
  · rw [hs]
    have hval : (slotChar slot).length ≤ 10 ∧ (slotChar slot).all isValByte = true := by
      rcases slotChar_cases slot with he | he | he <;> rw [he] <;> decide
    exact ⟨hval.1, List.all_eq_true.mp hval.2⟩

theorem fieldOk_of_mem (h : field ∈ recordFields record) : FieldOk field := by
  have hkey := keyOk_of_mem h
  cases hk : field.1 with
  | nil => simp [hk, keyOk] at hkey
  | cons b rest =>
    simp only [hk, keyOk, Bool.and_eq_true, Bool.not_eq_true', bne_iff_ne, ne_eq,
      List.all_eq_true] at hkey
    refine ⟨⟨b, rest, hk, hkey.1.1.1.1, hkey.1.1.1.2⟩, ?_, (val_spec_of_mem h).2⟩
    rw [hk]
    exact hkey.1.1.2

/-- No line of the body is a `crc=` line. -/
theorem line_spec_of_mem {line : Bytes} (h : line ∈ (recordFields record).map fieldLine) :
    NEWLINE ∉ line ∧ ¬ ascii "crc=" <+: line := by
  obtain ⟨field, hfield, rfl⟩ := List.mem_map.mp h
  have hok := fieldOk_of_mem hfield
  refine ⟨?_, ?_⟩
  · intro hmem
    rcases List.mem_append.mp hmem with hmem | hmem
    · exact absurd (hok.key_bytes _ hmem) (by decide)
    · rcases List.mem_cons.mp hmem with he | hmem
      · exact absurd he (by decide)
      · exact absurd (hok.val_bytes _ hmem) (by decide)
  · intro hpre
    have hkey := keyOk_of_mem hfield
    obtain ⟨b, rest, hk, -, -⟩ := hok.key_starts
    rw [hk] at hkey
    simp only [keyOk, Bool.and_eq_true, bne_iff_ne, ne_eq, decide_eq_true_eq] at hkey
    have htake : (fieldLine field).take 3 = ascii "crc" := by
      obtain ⟨tail, ht⟩ := hpre
      rw [← ht]
      rfl
    rw [fieldLine, List.take_append_of_le_length (by rw [hk]; exact hkey.2), hk] at htake
    exact hkey.1.2 htake

/-- The length of lines with short values. -/
theorem length_joinLines_le {fields : List (Bytes × Bytes)} {k : Nat}
    (h : ∀ field ∈ fields, field.2.length ≤ k) :
    (joinLines NEWLINE (fields.map fieldLine)).length ≤
      ((fields.map Prod.fst).map fun key => key.length + (k + 2)).sum := by
  induction fields with
  | nil => simp
  | cons field fields ih =>
    have hfield := h field List.mem_cons_self
    have hrest := ih fun f hf => h f (List.mem_cons_of_mem _ hf)
    simp only [List.map_cons, joinLines_cons, fieldLine, List.length_append, List.length_cons,
      List.sum_cons]
    omega

theorem length_recordBody_le (record : BootMetaRecord) : (recordBody record).length ≤ 320 := by
  have hlen := length_joinLines_le fun field (h : field ∈ recordFields record) =>
    (val_spec_of_mem h).1
  rw [map_fst_recordFields] at hlen
  exact le_trans hlen (by decide)

theorem length_recordText_le (record : BootMetaRecord) :
    (recordText record).length ≤ OTA_META_RECORD_MAX_BYTES := by
  have hbody := length_recordBody_le record
  have hkey : (ascii "crc=").length = 4 := rfl
  simp only [recordText, fmtU32Hex, List.length_append, List.length_cons, List.length_map,
    length_fixedDigits, List.length_nil, OTA_META_RECORD_MAX_BYTES]
  omega

/-- The buffer of the caller is large enough for every record. -/
theorem serializeBootMetaRecord_eq {cap : Nat} (hcap : OTA_META_RECORD_MAX_BYTES ≤ cap)
    (record : BootMetaRecord) : serializeBootMetaRecord cap record = recordText record := by
  have hbody := length_recordBody_le record
  unfold OTA_META_RECORD_MAX_BYTES at hcap
  have hsplit : recordBody record = fieldLine (ascii "seq", fmtU32 record.seq) ++ [NEWLINE] ++
      joinLines NEWLINE ((bootFields record.boot).map fieldLine) := by
    simp [recordBody, recordFields]
  have hlen := congrArg List.length hsplit
  simp only [List.length_append, List.length_cons, List.length_nil] at hlen
  have hhead : writeKv cap [] (ascii "seq") (fmtU32 record.seq) =
      fieldLine (ascii "seq", fmtU32 record.seq) ++ [NEWLINE] := by
    simp only [fieldLine, List.length_append, List.length_cons] at hlen
    rw [writeKv, if_neg (by simp only [List.length_nil]; omega), List.nil_append, fieldLine]
  have hboot : writeKv cap [] (ascii "seq") (fmtU32 record.seq) ++
      serializeBootMeta (cap - (writeKv cap [] (ascii "seq") (fmtU32 record.seq)).length)
        record.boot = recordBody record := by
    rw [hhead, serializeBootMeta, foldl_writeKv, List.nil_append, hsplit]
    simp only [List.length_append, List.length_cons, List.length_nil]
    omega
  simp only [serializeBootMetaRecord]
  rw [hboot, writeKv, if_neg]
  · simp [recordText, ascii, EQUALS]
  · simp only [fmtU32Hex, List.length_cons, List.length_map, length_fixedDigits, ascii]
    have : "crc".toList.length = 3 := rfl
    omega

/-! ## Reading a record back -/

/-- The assignments of the lines of a record. -/
theorem foldl_setField_recordFields (hactive : Representable record.boot.activeSlot)
    (hgood : Representable record.boot.lastGood) :
    (recordFields record).foldl (fun boot field => setField boot field.1 field.2) .default =
      record.boot := by
  simp +decide only [recordFields, bootFields, List.foldl_cons, List.foldl_nil, setField,
    if_true, if_false, parseU32Simple_fmtU32, parseSlotChar_slotChar hactive,
    parseSlotChar_slotChar hgood]

theorem parseBootMeta_recordBody (hactive : Representable record.boot.activeSlot)
    (hgood : Representable record.boot.lastGood) :
    parseBootMeta (recordBody record) = record.boot := by
  rw [parseBootMeta, recordBody, parseLines_lines _ fun _ h => fieldOk_of_mem h]
  exact foldl_setField_recordFields hactive hgood

theorem parseSeqLine_recordBody (record : BootMetaRecord) :
    parseSeqLine (recordBody record) = record.seq := by
  have htext : recordBody record = ascii "seq=" ++ (fmtU32 record.seq ++ NEWLINE ::
      joinLines NEWLINE ((bootFields record.boot).map fieldLine)) := by
    simp [recordBody, recordFields, fieldLine, ascii, EQUALS]
  have hdigits : ∀ b ∈ fmtU32 record.seq, isValByte b = true := fun b hb =>
    isValByte_of_isAsciiDigit (isAsciiDigit_of_mem_fmtU32 hb)
  have hval := (takeWhile_append_stop hdigits (show isValByte NEWLINE = false by decide)
    (joinLines NEWLINE ((bootFields record.boot).map fieldLine))).1
  rw [parseSeqLine, htext, findLine_here (by decide)]
  simp only [Nat.zero_add]
  rw [List.drop_left' (by decide), hval, parseU32Simple_fmtU32]

/-- The `crc=` line of a record is the one below its body. -/
theorem findLine_recordText (record : BootMetaRecord) :
    findLine NEWLINE (ascii "crc=") true (recordText record) =
      some (recordBody record).length := by
  rw [recordText, recordBody, findLine_lines (by decide) fun _ h => line_spec_of_mem h,
    findLine_here (by decide)]
  simp

/-- What the parser makes of a text that begins as the record does, up to the
`crc=` line at least. -/
theorem parseBootMetaRecord_of_crc {text : Bytes} (hactive : Representable record.boot.activeSlot)
    (hgood : Representable record.boot.lastGood)
    (hfind : findLine NEWLINE (ascii "crc=") true text = some (recordBody record).length)
    (hbody : text.take (recordBody record).length = recordBody record) :
    parseBootMetaRecord text =
      if crc32 (recordBody record) ≠
          parseU32HexOrDec ((text.drop ((recordBody record).length + 4)).takeWhile isValByte)
      then none else some record := by
  simp only [parseBootMetaRecord, hfind, hbody, parseBootMeta_recordBody hactive hgood,
    parseSeqLine_recordBody]

theorem parseBootMetaRecord_recordText (hactive : Representable record.boot.activeSlot)
    (hgood : Representable record.boot.lastGood) :
    parseBootMetaRecord (recordText record) = some record := by
  rw [parseBootMetaRecord_of_crc hactive hgood (findLine_recordText record)
    (by rw [recordText, List.take_left])]
  have hhex : ∀ b ∈ fmtU32Hex (crc32 (recordBody record)), isValByte b = true := by
    intro b hb
    simp only [fmtU32Hex, List.mem_cons, List.mem_map] at hb
    rcases hb with rfl | rfl | ⟨d, hd, rfl⟩
    · decide
    · decide
    · have hlt := lt_of_mem_fixedDigits (by norm_num) hd
      interval_cases d <;> decide
  have hdrop : (recordText record).drop ((recordBody record).length + 4) =
      fmtU32Hex (crc32 (recordBody record)) ++ [NEWLINE] := by
    rw [recordText, ← List.append_assoc]
    exact List.drop_left' (by rw [List.length_append]; rfl)
  rw [hdrop, (takeWhile_append_stop hhex (show isValByte NEWLINE = false by decide) []).1,
    parseU32HexOrDec_fmtU32Hex]
  simp

/-- A beginning of the text reads as no record or as the whole one. -/
theorem parseBootMetaRecord_of_prefix {text : Bytes}
    (hactive : Representable record.boot.activeSlot) (hgood : Representable record.boot.lastGood)
    (h : text <+: recordText record) :
    parseBootMetaRecord text = none ∨ parseBootMetaRecord text = some record := by
  obtain ⟨rest, htext⟩ := h
  cases hfind : findLine NEWLINE (ascii "crc=") true text with
  | none => exact .inl (by simp [parseBootMetaRecord, hfind])
  | some k =>
    -- The line that is found in the cut-off text is the one of the whole text.
    have hwhole := findLine_append NEWLINE (ascii "crc=") hfind rest
    rw [htext, findLine_recordText] at hwhole
    obtain rfl := Option.some.inj hwhole
    have hlen := (prefix_of_findLine NEWLINE (ascii "crc=") hfind).length_le
    have hbody : text.take (recordBody record).length = recordBody record := by
      have htake := congrArg (List.take (recordBody record).length) htext
      rw [recordText, List.take_left, List.take_append_of_le_length] at htake
      · exact htake
      · simp only [List.length_drop] at hlen
        have : (ascii "crc=").length = 4 := rfl
        omega
    rw [parseBootMetaRecord_of_crc hactive hgood hfind hbody]
    split_ifs
    · exact .inl rfl
    · exact .inr rfl

/-- A boot record is written without loss, and cutting it off loses all of it or
nothing: a proper beginning of the text reads as no record or as the same one. -/
theorem bootRecord_lossless {cap : Nat} (hcap : OTA_META_RECORD_MAX_BYTES ≤ cap)
    (record : BootMetaRecord) (hactive : Representable record.boot.activeSlot)
    (hgood : Representable record.boot.lastGood) :
    parseBootMetaRecord (serializeBootMetaRecord cap record) = some record ∧
      ∀ text, text <+: serializeBootMetaRecord cap record →
        text ≠ serializeBootMetaRecord cap record →
        parseBootMetaRecord text = none ∨ parseBootMetaRecord text = some record := by
  rw [serializeBootMetaRecord_eq hcap]
  refine ⟨parseBootMetaRecord_recordText hactive hgood, ?_⟩
  intro text hprefix _
  exact parseBootMetaRecord_of_prefix hactive hgood hprefix

/-- A trial of slot B, with numbers at the ends of their range. -/
def trialRecord : BootMetaRecord :=
  ⟨⟨SLOT_B, 2, SLOT_A, 7, 8, 1, 4096, 0xFFFFFFFF, 512, 0xDEADBEEF, 0xFFFFFFFF, 0, 7⟩, 0xFFFFFFFF⟩

theorem bootRecord_lossless_trialRecord :
    parseBootMetaRecord (serializeBootMetaRecord 512 trialRecord) = some trialRecord ∧
      ∀ text, text <+: serializeBootMetaRecord 512 trialRecord →
        text ≠ serializeBootMetaRecord 512 trialRecord →
        parseBootMetaRecord text = none ∨ parseBootMetaRecord text = some trialRecord :=
  bootRecord_lossless (by decide) trialRecord (.inr (.inl rfl)) (.inl rfl)

end RobotOs.Ota
