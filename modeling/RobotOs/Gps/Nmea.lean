import RobotOs.Lib.Framing
import RobotOs.Lib.Checked
import RobotOs.Lib.Run
import Mathlib.Data.List.DropRight

/-!
# The GPS receiver's sentences

The NMEA parser of the gps crate: `gps_feed_byte` collects a sentence, and at its
end the checksum is verified and the fields of a GGA or RMC sentence are read
into the position.  The buffer with its position is the list of the bytes in it.
An operation that overflows stops the kernel; this is the `none` of the parsers.

The checksum covers the bytes up to the first `*`.  `strip_checksum` cuts at the
last one, so that the fields may reach over what was verified; and the number
parsers multiply digits without a bound.  `Careful` says that a sentence has
neither, and `harmless_of_careful` that it is harmless then.
-/

namespace RobotOs.Gps

open RobotOs.Lib.Framing RobotOs.Lib.Checked RobotOs.Lib.Run

def NMEA_BUF_CAP : Nat := 128
def MAX_FIELDS : Nat := 20

def DOLLAR : UInt8 := 0x24
def STAR : UInt8 := 0x2A
def COMMA : UInt8 := 0x2C
def MINUS : UInt8 := 0x2D
def DOT : UInt8 := 0x2E

structure GpsPosition where
  latDeg7 : Int
  lonDeg7 : Int
  altMm : Int
  hdop : UInt16
  fix : UInt8
  sats : UInt8
  speedCms : UInt16
  courseCdeg : UInt16
  deriving DecidableEq

def GpsPosition.new : GpsPosition := ⟨0, 0, 0, 9999, 0, 0, 0, 0⟩

/-! ## Numbers -/

def isDigit (b : UInt8) : Bool := 0x30 ≤ b && b ≤ 0x39

def digitVal (b : UInt8) : Nat := b.toNat - 0x30

/-- The loop of `parse_u32_slice`. -/
def parseDigits (val : Nat) : Bytes → Option (Option Nat)
  | [] => some (some val)
  | b :: rest =>
    if isDigit b then do
      let tens ← checkedU 32 (val * 10)
      let val ← checkedU 32 (tens + digitVal b)
      parseDigits val rest
    else some none

/-- `parse_u32_slice` and `parse_u32_field`. -/
def parseU32Slice (s : Bytes) : Option (Option Nat) :=
  if s = [] then some none else parseDigits 0 s

/-- The fraction of `parse_decimal_field`, padded with zeros: at most three digits. -/
def fracVal : Nat → Bytes → Nat
  | 0, _ => 0
  | _, [] => 0
  | n + 1, b :: rest => if isDigit b then digitVal b * 10 ^ n + fracVal n rest else 0

/-- The field behind its sign. -/
def unsigned (field : Bytes) : Bytes := if field.head? = some MINUS then field.tail else field

/-- `int as i32 * mult + rest`, with its sign. -/
def scale (int mult : Nat) (rest : Int) (negative : Bool) : Option Int := do
  let product ← checked 32 (truncate 32 int * mult)
  let result ← checked 32 (product + rest)
  if negative then checked 32 (-result) else some result

def parseDecimalField (field : Bytes) (fracDigits : Nat) : Option (Option Int) :=
  if field = [] then some none
  else do
    let int ← parseU32Slice ((unsigned field).takeWhile (· ≠ DOT))
    let result ← scale (int.getD 0) (10 ^ fracDigits)
      (fracVal fracDigits (((unsigned field).dropWhile (· ≠ DOT)).drop 1))
      (field.head? = some MINUS)
    some (some result)

/-- The fraction of the minutes: seven digits count. -/
def minuteFrac : Nat → Bytes → Nat
  | _, [] => 0
  | mul, b :: rest => if isDigit b then digitVal b * mul + minuteFrac (mul / 10) rest else 0

/-- The place of the decimal point, or 0. -/
def dotPos (coord : Bytes) : Nat := if DOT ∈ coord then coord.idxOf DOT else 0

def parseNmeaCoord (coord hemi : Bytes) : Option Int :=
  let dot := dotPos coord
  if coord = [] ∨ dot < 2 then some 0
  else do
    let degrees ← parseU32Slice (coord.take (dot - 2))
    let minInt ← parseU32Slice (slice coord (dot - 2) 2)
    let minTotal := minInt.getD 0 * 10000000 + minuteFrac 1000000 (coord.drop (dot + 1))
    scale (degrees.getD 0) 10000000 (truncate 32 (minTotal / 60 : Nat))
      (hemi.head? = some 0x53 || hemi.head? = some 0x57)

/-! ## Sentences -/

/-- `split_fields`: the fields behind the twentieth are dropped. -/
def splitFields (data : Bytes) : List Bytes := (data.splitOn COMMA).take MAX_FIELDS

/-- A field; those that are missing are empty. -/
def field (data : Bytes) (i : Nat) : Bytes := (splitFields data).getD i []

def parseGga (data : Bytes) (last : GpsPosition) : Option (Bool × GpsPosition) := do
  let fix ← parseU32Slice (field data 6)
  let sats ← parseU32Slice (field data 7)
  let hdop ← parseDecimalField (field data 8) 2
  let alt ← parseDecimalField (field data 9) 3
  let lat ← parseNmeaCoord (field data 2) (field data 3)
  let lon ← parseNmeaCoord (field data 4) (field data 5)
  let fix := UInt8.ofNat (fix.getD 0)
  some (true,
    { last with
      fix := fix, sats := UInt8.ofNat (sats.getD 0), hdop := UInt16.ofInt (hdop.getD 9999)
      altMm := alt.getD 0
      latDeg7 := if fix > 0 then lat else last.latDeg7
      lonDeg7 := if fix > 0 then lon else last.lonDeg7 })

def parseRmc (data : Bytes) (last : GpsPosition) : Option (Bool × GpsPosition) :=
  if (field data 2).head? ≠ some 0x41 then some (false, last)
  else do
    let lat ← parseNmeaCoord (field data 3) (field data 4)
    let lon ← parseNmeaCoord (field data 5) (field data 6)
    let speed ← parseDecimalField (field data 7) 3
    let course ← parseDecimalField (field data 8) 2
    let mknots := (UInt32.ofInt (speed.getD 0)).toNat
    some (true,
      { last with
        latDeg7 := lat, lonDeg7 := lon
        speedCms := UInt16.ofNat (mknots * 51444 / 1000000)
        courseCdeg := UInt16.ofInt (course.getD 0) })

def GGA : Bytes := [0x47, 0x47, 0x41, COMMA]
def RMC : Bytes := [0x52, 0x4D, 0x43, COMMA]

/-- `parse_sentence` behind the checksum. -/
def parseData (data : Bytes) (last : GpsPosition) : Option (Bool × GpsPosition) :=
  if data.length < 7 then some (false, last)
  else if (data.drop 3).take 4 = GGA then parseGga data last
  else if (data.drop 3).take 4 = RMC then parseRmc data last
  else some (false, last)

def hexDigit (c : UInt8) : UInt8 :=
  if 0x30 ≤ c ∧ c ≤ 0x39 then c - 0x30
  else if 0x41 ≤ c ∧ c ≤ 0x46 then c - 0x41 + 10
  else if 0x61 ≤ c ∧ c ≤ 0x66 then c - 0x61 + 10
  else 0

def hexByte (hi lo : UInt8) : UInt8 := (hexDigit hi <<< 4) ||| hexDigit lo

/-- The bytes in front of the first `*`. -/
def covered (sentence : Bytes) : Bytes := sentence.takeWhile (· ≠ STAR)

/-- `validate_checksum`. -/
def validateChecksum (sentence : Bytes) : Bool :=
  let star := (covered sentence).length
  sentence.head? = some DOLLAR && star + 2 < sentence.length &&
    (((covered sentence).drop 1).foldl (· ^^^ ·) 0 ==
      hexByte (sentence.getD (star + 1) 0) (sentence.getD (star + 2) 0))

/-- `strip_checksum`: the bytes in front of the last `*`. -/
def stripChecksum (sentence : Bytes) : Bytes :=
  if STAR ∈ sentence then (sentence.rdropWhile (· ≠ STAR)).dropLast else sentence

def parseSentence (sentence : Bytes) (last : GpsPosition) : Option (Bool × GpsPosition) :=
  if validateChecksum sentence then parseData (stripChecksum sentence) last
  else some (false, last)

/-- The bytes of the sentence so far, and `LAST_POS`. -/
structure State where
  buf : Bytes
  last : GpsPosition
  deriving DecidableEq

def isLineEnd (b : UInt8) : Bool := b == 0x0A || b == 0x0D

/-- `gps_feed_byte`. -/
def gpsFeedByte (s : State) (b : UInt8) : Option (Bool × State) :=
  if b = DOLLAR then some (false, { s with buf := [b] })
  else if isLineEnd b then
    if s.buf.length > 6 then
      (parseSentence s.buf s.last).map fun out => (out.1, ⟨[], out.2⟩)
    else some (false, { s with buf := [] })
  else some (false, { s with buf := if s.buf.length < NMEA_BUF_CAP then s.buf ++ [b] else s.buf })

/-! ## Numbers in range -/

/-- The value of the digits in front, behind those that were read. -/
def numeralFrom (val : Nat) : Bytes → Nat
  | [] => val
  | b :: rest => if isDigit b then numeralFrom (val * 10 + digitVal b) rest else val

def numeral (s : Bytes) : Nat := numeralFrom 0 s

theorem digitVal_le {b : UInt8} (h : isDigit b = true) : digitVal b ≤ 9 := by
  simp only [isDigit, Bool.and_eq_true, decide_eq_true_eq, UInt8.le_iff_toNat_le] at h
  have hle : b.toNat ≤ 57 := h.2
  unfold digitVal
  omega

theorem le_numeralFrom (val : Nat) (s : Bytes) : val ≤ numeralFrom val s := by
  induction s generalizing val with
  | nil => exact Nat.le_refl val
  | cons b rest ih =>
    unfold numeralFrom
    split_ifs
    · have := ih (val * 10 + digitVal b)
      omega
    · exact Nat.le_refl val

theorem numeralFrom_lt (val : Nat) (s : Bytes) : numeralFrom val s < (val + 1) * 10 ^ s.length := by
  induction s generalizing val with
  | nil => simp [numeralFrom]
  | cons b rest ih =>
    have hpos : 0 < 10 ^ rest.length := Nat.pow_pos (by decide)
    unfold numeralFrom
    rw [List.length_cons, Nat.pow_succ]
    split_ifs with hdigit
    · have hle := digitVal_le hdigit
      calc numeralFrom (val * 10 + digitVal b) rest
          < (val * 10 + digitVal b + 1) * 10 ^ rest.length := ih _
        _ ≤ ((val + 1) * 10) * 10 ^ rest.length := Nat.mul_le_mul_right _ (by omega)
        _ = (val + 1) * (10 ^ rest.length * 10) := by ring
    · calc val < (val + 1) * 1 := by omega
        _ ≤ (val + 1) * (10 ^ rest.length * 10) := Nat.mul_le_mul_left _ (by omega)

theorem parseDigits_some {val : Nat} {s : Bytes} (h : numeralFrom val s < 2 ^ 32) :
    ∃ r, parseDigits val s = some r ∧ r.getD 0 ≤ numeralFrom val s := by
  induction s generalizing val with
  | nil => exact ⟨some val, rfl, Nat.le_refl val⟩
  | cons b rest ih =>
    unfold numeralFrom at h ⊢
    unfold parseDigits
    split_ifs at h ⊢
    · have hle := le_numeralFrom (val * 10 + digitVal b) rest
      rw [checkedU, if_pos (by omega), Option.bind_eq_bind, Option.bind_some, checkedU,
        if_pos (by omega), Option.bind_some]
      exact ih h
    · exact ⟨none, rfl, Nat.zero_le _⟩

theorem parseU32Slice_some {s : Bytes} (h : numeral s < 2 ^ 32) :
    ∃ r, parseU32Slice s = some r ∧ r.getD 0 ≤ numeral s := by
  unfold parseU32Slice
  split_ifs
  · exact ⟨none, rfl, Nat.zero_le _⟩
  · exact parseDigits_some h

theorem fracVal_lt (n : Nat) (s : Bytes) : fracVal n s < 10 ^ n := by
  induction n generalizing s with
  | zero => simp [fracVal]
  | succ n ih =>
    have hpos : 0 < 10 ^ n := Nat.pow_pos (by decide)
    cases s with
    | nil => simp [fracVal]
    | cons b rest =>
      unfold fracVal
      rw [Nat.pow_succ]
      split_ifs with hdigit
      · have hle : digitVal b * 10 ^ n ≤ 9 * 10 ^ n := Nat.mul_le_mul_right _ (digitVal_le hdigit)
        have := ih rest
        omega
      · omega

theorem minuteFrac_le (mul : Nat) (s : Bytes) : minuteFrac mul s ≤ 10 * mul := by
  induction s generalizing mul with
  | nil => exact Nat.zero_le _
  | cons b rest ih =>
    unfold minuteFrac
    split_ifs with hdigit
    · have hle : digitVal b * mul ≤ 9 * mul := Nat.mul_le_mul_right _ (digitVal_le hdigit)
      have := ih (mul / 10)
      omega
    · exact Nat.zero_le _

theorem scale_some {int mult rest : Nat} (negative : Bool) (hmult : 0 < mult)
    (h : int * mult + rest < 2 ^ 31) : ∃ r, scale int mult rest negative = some r := by
  have hle : int ≤ int * mult := Nat.le_mul_of_pos_right int hmult
  have hint : truncate 32 int = int := truncate_of_fits (by decide) (by unfold Fits; omega)
  have hfits : ∀ n : Int, n.natAbs < 2 ^ 31 → checked 32 n = some n := fun n hn =>
    if_pos (by unfold Fits; omega)
  have hproduct : (int : Int) * mult = (int * mult : Nat) := (Int.natCast_mul int mult).symm
  unfold scale
  rw [hint, hproduct, hfits _ (by omega), Option.bind_eq_bind, Option.bind_some,
    hfits _ (by omega), Option.bind_some]
  split_ifs
  · exact ⟨_, hfits _ (by omega)⟩
  · exact ⟨_, rfl⟩

/-- The number in front of the point leaves room for `fracDigits` digits. -/
def DecimalInRange (field : Bytes) (fracDigits : Nat) : Prop :=
  (numeral ((unsigned field).takeWhile (· ≠ DOT)) + 1) * 10 ^ fracDigits ≤ 2 ^ 31
  deriving Decidable

/-- The degrees in front of the two digits of the minutes. -/
def CoordInRange (coord : Bytes) : Prop := numeral (coord.take (dotPos coord - 2)) ≤ 213
  deriving Decidable

theorem parseDecimalField_some {field : Bytes} {fracDigits : Nat}
    (h : DecimalInRange field fracDigits) : ∃ r, parseDecimalField field fracDigits = some r := by
  unfold DecimalInRange at h
  unfold parseDecimalField
  split_ifs
  · exact ⟨none, rfl⟩
  · have hpos : 0 < 10 ^ fracDigits := Nat.pow_pos (by decide)
    have hfrac := fracVal_lt fracDigits (((unsigned field).dropWhile (· ≠ DOT)).drop 1)
    generalize (unsigned field).takeWhile (· ≠ DOT) = digits at h
    rw [Nat.add_mul, Nat.one_mul] at h
    have hnumeral : numeral digits ≤ numeral digits * 10 ^ fracDigits :=
      Nat.le_mul_of_pos_right _ hpos
    obtain ⟨int, hint, hle⟩ := parseU32Slice_some (show numeral digits < 2 ^ 32 by omega)
    have hscaled := Nat.mul_le_mul_right (10 ^ fracDigits) hle
    have hsum : int.getD 0 * 10 ^ fracDigits +
        fracVal fracDigits (((unsigned field).dropWhile (· ≠ DOT)).drop 1) < 2 ^ 31 := by omega
    obtain ⟨r, hr⟩ := scale_some (field.head? = some MINUS) hpos hsum
    exact ⟨some r, by rw [hint, Option.bind_eq_bind, Option.bind_some, hr]; rfl⟩

theorem parseNmeaCoord_some {coord : Bytes} (h : CoordInRange coord) (hemi : Bytes) :
    ∃ r, parseNmeaCoord coord hemi = some r := by
  unfold CoordInRange at h
  unfold parseNmeaCoord
  dsimp only
  split_ifs
  · exact ⟨0, rfl⟩
  · have hminutes : numeral (slice coord (dotPos coord - 2) 2) < 100 := by
      have hlt := numeralFrom_lt 0 (slice coord (dotPos coord - 2) 2)
      have hlen : (slice coord (dotPos coord - 2) 2).length ≤ 2 := by simp [slice]
      have hpow := Nat.pow_le_pow_right (show 0 < 10 by decide) hlen
      unfold numeral
      omega
    have hfrac := minuteFrac_le 1000000 (coord.drop (dotPos coord + 1))
    obtain ⟨degrees, hdegrees, hle⟩ := parseU32Slice_some (show _ < 2 ^ 32 from
      Nat.lt_of_le_of_lt h (by decide))
    obtain ⟨minInt, hminInt, hle'⟩ := parseU32Slice_some (show _ < 2 ^ 32 from
      Nat.lt_trans hminutes (by decide))
    rw [hdegrees, Option.bind_eq_bind, Option.bind_some, hminInt, Option.bind_some]
    have hsixty : truncate 32 ((minInt.getD 0 * 10000000 +
        minuteFrac 1000000 (coord.drop (dotPos coord + 1))) / 60 : Nat) =
        ((minInt.getD 0 * 10000000 +
          minuteFrac 1000000 (coord.drop (dotPos coord + 1))) / 60 : Nat) :=
      truncate_of_fits (by decide) (by unfold Fits; omega)
    rw [hsixty]
    exact scale_some _ (by decide) (by omega)

/-! ## Sentences in range -/

/-- The numbers of the fields that a GGA or an active RMC sentence uses. -/
structure InRange (data : Bytes) : Prop where
  gga : (data.drop 3).take 4 = GGA → numeral (field data 6) < 2 ^ 32 ∧
    numeral (field data 7) < 2 ^ 32 ∧ DecimalInRange (field data 8) 2 ∧
    DecimalInRange (field data 9) 3 ∧ CoordInRange (field data 2) ∧ CoordInRange (field data 4)
  rmc : (data.drop 3).take 4 = RMC → (field data 2).head? = some 0x41 →
    CoordInRange (field data 3) ∧ CoordInRange (field data 5) ∧
    DecimalInRange (field data 7) 3 ∧ DecimalInRange (field data 8) 2

theorem parseData_some {data : Bytes} (h : InRange data) (last : GpsPosition) :
    ∃ ok last', parseData data last = some (ok, last') := by
  unfold parseData
  split_ifs with hshort hgga hrmc
  · exact ⟨_, _, rfl⟩
  · obtain ⟨hfix, hsats, hhdop, halt, hlat, hlon⟩ := h.gga hgga
    obtain ⟨fix, hfix, -⟩ := parseU32Slice_some hfix
    obtain ⟨sats, hsats, -⟩ := parseU32Slice_some hsats
    obtain ⟨hdop, hhdop⟩ := parseDecimalField_some hhdop
    obtain ⟨alt, halt⟩ := parseDecimalField_some halt
    obtain ⟨lat, hlat⟩ := parseNmeaCoord_some hlat (field data 3)
    obtain ⟨lon, hlon⟩ := parseNmeaCoord_some hlon (field data 5)
    exact ⟨_, _, by rw [parseGga, hfix, hsats, hhdop, halt, hlat, hlon]; rfl⟩
  · unfold parseRmc
    split_ifs with hvoid
    · exact ⟨_, _, rfl⟩
    · obtain ⟨hlat, hlon, hspeed, hcourse⟩ := h.rmc hrmc (not_not.mp hvoid)
      obtain ⟨lat, hlat⟩ := parseNmeaCoord_some hlat (field data 4)
      obtain ⟨lon, hlon⟩ := parseNmeaCoord_some hlon (field data 6)
      obtain ⟨speed, hspeed⟩ := parseDecimalField_some hspeed
      obtain ⟨course, hcourse⟩ := parseDecimalField_some hcourse
      exact ⟨_, _, by rw [hlat, hlon, hspeed, hcourse]; rfl⟩
  · exact ⟨_, _, rfl⟩

/-! ## The stream -/

/-- The state after a byte. -/
def step (s : State) (b : UInt8) : State := ((gpsFeedByte s b).map Prod.snd).getD s

/-- When the byte ends a sentence with a good checksum, the sentence has no second `*` and
its numbers are in range. -/
def Careful (s : State) (b : UInt8) : Prop :=
  isLineEnd b = true → 6 < s.buf.length → validateChecksum s.buf = true →
    STAR ∉ s.buf.drop ((covered s.buf).length + 1) ∧ InRange (covered s.buf)

/-- The byte is taken without an overflow, and it leaves the position alone or makes it what
the bytes of a verified sentence in front of its first `*` say. -/
def Harmless (s : State) (b : UInt8) : Prop :=
  ∃ ok s', gpsFeedByte s b = some (ok, s') ∧
    (s'.last = s.last ∨
      validateChecksum s.buf = true ∧ parseData (covered s.buf) s.last = some (ok, s'.last))

/-- With one `*`, the data is what the checksum covers. -/
theorem stripChecksum_eq {sentence : Bytes} (hvalid : validateChecksum sentence = true)
    (hone : STAR ∉ sentence.drop ((covered sentence).length + 1)) :
    stripChecksum sentence = covered sentence := by
  have hlt : (covered sentence).length < sentence.length := by
    simp only [validateChecksum, Bool.and_eq_true, decide_eq_true_eq] at hvalid
    omega
  -- What follows the covered bytes starts with the first `*`.
  obtain ⟨tail, hsplit⟩ : ∃ tail, sentence = covered sentence ++ STAR :: tail := by
    have hparts : covered sentence ++ sentence.dropWhile (· ≠ STAR) = sentence :=
      List.takeWhile_append_dropWhile
    have hhead := List.head?_dropWhile_not (· ≠ STAR) sentence
    cases hdrop : sentence.dropWhile (· ≠ STAR) with
    | nil =>
      rw [hdrop, List.append_nil] at hparts
      exact absurd (congrArg List.length hparts) (by omega)
    | cons b tail =>
      rw [hdrop] at hhead
      have hb : b = STAR := by simpa using hhead
      exact ⟨tail, by rw [← hb, ← hdrop, hparts]⟩
  generalize covered sentence = front at hone hsplit ⊢
  have hone : STAR ∉ tail := by
    rw [hsplit, List.drop_append, List.mem_append, not_or] at hone
    simpa using hone.2
  have hmem : STAR ∈ sentence := by rw [hsplit]; simp
  have htail : ∀ b ∈ tail.reverse, (decide (b ≠ STAR)) = true := by
    intro b hb
    have hne : b ≠ STAR := fun heq => hone (heq ▸ List.mem_reverse.mp hb)
    simpa using hne
  rw [stripChecksum, if_pos hmem, hsplit, List.rdropWhile, List.reverse_append,
    List.reverse_cons, List.append_assoc, List.dropWhile_append_of_pos htail]
  simp

theorem harmless_of_careful {s : State} {b : UInt8} (h : Careful s b) : Harmless s b := by
  unfold Harmless gpsFeedByte
  split_ifs with hdollar hend hlong
  · exact ⟨_, _, rfl, .inl rfl⟩
  · unfold parseSentence
    split_ifs with hvalid
    · obtain ⟨hone, hrange⟩ := h hend hlong hvalid
      obtain ⟨ok, last, hout⟩ := parseData_some hrange s.last
      rw [stripChecksum_eq hvalid hone, hout]
      exact ⟨ok, ⟨[], last⟩, rfl, .inr ⟨hvalid, rfl⟩⟩
    · exact ⟨_, _, rfl, .inl rfl⟩
  · exact ⟨_, _, rfl, .inl rfl⟩
  · exact ⟨_, _, rfl, .inl rfl⟩
  · exact ⟨_, _, rfl, .inl rfl⟩

/-- Every byte of a stream of careful sentences is harmless. -/
theorem stream_harmless (last : GpsPosition) (bytes : Bytes)
    (h : Guarded step Careful ⟨[], last⟩ bytes) : Guarded step Harmless ⟨[], last⟩ bytes :=
  guarded_of_invariant (fun _ => True) (fun _ _ _ hb => ⟨harmless_of_careful hb, trivial⟩) trivial h

/-- A GGA sentence with a good checksum and ten digits for the fix quality:
`$GPGGA,,,,,,9999999999,,,*7A`. -/
def longFix : Bytes :=
  [0x24, 0x47, 0x50, 0x47, 0x47, 0x41, 0x2C, 0x2C, 0x2C, 0x2C, 0x2C, 0x2C, 0x39, 0x39, 0x39, 0x39,
    0x39, 0x39, 0x39, 0x39, 0x39, 0x39, 0x2C, 0x2C, 0x2C, 0x2A, 0x37, 0x41]

/-- The end of the line after it overflows. -/
theorem longFix_overflows : ¬ Harmless (run step ⟨[], .new⟩ longFix) 0x0A := by
  intro ⟨ok, s', hfeed, _⟩
  have hnone : gpsFeedByte (run step ⟨[], .new⟩ longFix) 0x0A = none := by decide +kernel
  rw [hnone] at hfeed
  cases hfeed

instance (data : Bytes) : Decidable (InRange data) :=
  have hparts : (_ ∧ _) ↔ InRange data := ⟨fun h => ⟨h.1, h.2⟩, fun h => ⟨h.gga, h.rmc⟩⟩
  decidable_of_iff _ hparts

instance (s : State) (b : UInt8) : Decidable (Careful s b) :=
  inferInstanceAs (Decidable (_ → _ → _ → _))

/-- The line `$GPGGA,123519,4807.038,N,01131.000,E,1,08,0.9,545.4,M*1F`. -/
def ggaLine : Bytes :=
  [0x24, 0x47, 0x50, 0x47, 0x47, 0x41, 0x2C, 0x31, 0x32, 0x33, 0x35, 0x31, 0x39, 0x2C, 0x34, 0x38,
    0x30, 0x37, 0x2E, 0x30, 0x33, 0x38, 0x2C, 0x4E, 0x2C, 0x30, 0x31, 0x31, 0x33, 0x31, 0x2E,
    0x30, 0x30, 0x30, 0x2C, 0x45, 0x2C, 0x31, 0x2C, 0x30, 0x38, 0x2C, 0x30, 0x2E, 0x39, 0x2C,
    0x35, 0x34, 0x35, 0x2E, 0x34, 0x2C, 0x4D, 0x2A, 0x31, 0x46, 0x0A]

/-- The sentence is parsed at the end of its line. -/
theorem stream_harmless_gga : Guarded step Harmless ⟨[], .new⟩ ggaLine ∧
    (run step ⟨[], .new⟩ ggaLine).last.sats = 8 :=
  ⟨stream_harmless .new ggaLine (by decide +kernel), by decide +kernel⟩

end RobotOs.Gps
