import RobotOs.Lib.Block
import RobotOs.Lib.Framing

/-!
# The FAT of a FAT32 volume

`fat32.rs` of the fs crate: the geometry that `mount` reads, the entries of the FAT with their
copies, and the journal that is replayed after a power loss.

Every function is a program on sectors, and the calls run behind the sector cache of eight lines.
A line may be stale, since `sys_disk_write` goes below the cache, and the device may refuse any
sector.  Numbers of the source that are `u32` are natural numbers, and every addition that it
checks is checked.

`fat32_write_fat_entry` reads the sector of the first copy and writes it to all of them, and the
journal is in sector 1 whatever the number of reserved sectors is.  `fat_frame_iff` says when only
the entry that is named changes.
-/

namespace RobotOs.Fs

open RobotOs.Lib.Block
open RobotOs.Lib.Framing (Bytes leBytes ofLE ofLE_leBytes ofLE_lt length_leBytes)

/-- The bytes of a sector.  Only the first 512 count. -/
abbrev Sector := Nat → UInt8

/-- A program on sectors. -/
abbrev Prog := Program Sector

def U32 : Nat := 4294967296

def FAT32_FIRST_DATA_CLUSTER : Nat := 2
def FAT32_ENTRIES_PER_SECTOR : Nat := 128
def SECTOR_CACHE_LINES : Nat := 8

/-! ## Bytes of a sector -/

namespace Sector

variable (b : Sector) (off : Nat)

def zero : Sector := fun _ => 0

/-- `n` bytes from `off` on. -/
def get (n : Nat) : Bytes := (List.range n).map fun k => b (off + k)

/-- The sector with other bytes from `off` on. -/
def put (bytes : Bytes) : Sector := fun i =>
  if off ≤ i ∧ i < off + bytes.length then bytes.getD (i - off) 0 else b i

def le32 : Nat := ofLE (b.get off 4)

@[simp] theorem length_get (n : Nat) : (b.get off n).length = n := by
  simp [get]

theorem get_put (bytes : Bytes) : (b.put off bytes).get off bytes.length = bytes := by
  apply List.ext_getElem
  · simp
  · intro i _ hi
    simp [get, put, hi]

theorem get_put_of_disjoint {off' n : Nat} {bytes : Bytes}
    (h : off' + n ≤ off ∨ off + bytes.length ≤ off') :
    (b.put off bytes).get off' n = b.get off' n := by
  apply List.map_congr_left
  intro k hk
  rw [List.mem_range] at hk
  rw [put, if_neg (by omega)]

theorem le32_lt : b.le32 off < 4294967296 := by
  have h := ofLE_lt (b.get off 4)
  rwa [length_get] at h

end Sector

/-! ## The volume -/

/-- `read_sector`, with the error of the caller. -/
def readSector {ε : Type} (e : ε) (s : Nat) : Prog ε Sector :=
  .read s fun answer => match answer with
    | some b => .ret b
    | none => .fail e

/-- `write_sector`, with the error of the caller. -/
def writeSector {ε : Type} (e : ε) (s : Nat) (b : Sector) : Prog ε Unit :=
  .write s b fun done => if done then .ret () else .fail e

/-- `Fat32Vol` of a mounted volume. -/
structure Volume where
  fatStart : Nat
  dataStart : Nat
  rootCluster : Nat
  secsPerClus : Nat
  fatSz32 : Nat
  numFats : Nat
  fatSz32_pos : 0 < fatSz32
  secsPerClus_pos : 0 < secsPerClus
  dataStart_eq : dataStart = fatStart + numFats * fatSz32
  dataStart_lt : dataStart < U32

/-- The part of `fat32_mount` that reads the geometry from sector 0. -/
def mount (b : Sector) : Option Volume :=
  let spc := (b 13).toNat
  let fatStart := ofLE (b.get 14 2)
  let numFats := (b 16).toNat
  let fatSz32 := b.le32 36
  if ofLE (b.get 11 2) ≠ 512 then none
  else if hsize : fatSz32 = 0 then none
  else if hspc : spc = 0 ∨ 128 < spc ∨ spc &&& (spc - 1) ≠ 0 then none
  else if hdata : fatStart + numFats * fatSz32 < U32 then
    some ⟨fatStart, fatStart + numFats * fatSz32, b.le32 44, spc, fatSz32, numFats,
      Nat.pos_of_ne_zero hsize, Nat.pos_of_ne_zero fun h => hspc (.inl h), rfl, hdata⟩
  else none

namespace Volume

variable (vol : Volume)

/-- `chain_walk_limit`. -/
def limit : Nat := min (vol.fatSz32 * FAT32_ENTRIES_PER_SECTOR) (U32 - 1)

/-- The sector of an entry in a copy of the FAT. -/
def fatSector (copy cluster : Nat) : Nat :=
  copy * vol.fatSz32 + vol.fatStart + cluster / FAT32_ENTRIES_PER_SECTOR

/-- An entry in a copy of the FAT. -/
def entry (d : Disk Sector) (copy cluster : Nat) : Nat :=
  (d.blocks (vol.fatSector copy cluster)).le32 (cluster % FAT32_ENTRIES_PER_SECTOR * 4)

end Volume

/-- The sector of the FAT with a new value of an entry, whose upper four bits stay. -/
def Sector.setEntry (b : Sector) (byteOff value : Nat) : Sector :=
  b.put byteOff (leBytes 4 (b.le32 byteOff / 2 ^ 28 * 2 ^ 28 + value % 2 ^ 28))

/-- The loop of `fat32_write_fat_entry` over the copies of the FAT, from `copy` on. -/
def writeFatCopies {ε : Type} (vol : Volume) (e : ε) (cluster : Nat) (b : Sector) :
    Nat → Nat → Prog ε Unit
  | 0, _ => pure ()
  | n + 1, copy =>
    if vol.fatSector copy cluster ≥ U32 then .fail e
    else do
      writeSector e (vol.fatSector copy cluster) b
      writeFatCopies vol e cluster b n (copy + 1)

/-- `fat32_write_fat_entry`. -/
def writeFatEntry {ε : Type} (vol : Volume) (e : ε) (cluster value : Nat) : Prog ε Unit :=
  if cluster < FAT32_FIRST_DATA_CLUSTER ∨ cluster ≥ vol.limit then .fail e
  else if vol.fatSector 0 cluster ≥ U32 then .fail e
  else do
    let b ← readSector e (vol.fatSector 0 cluster)
    let byteOff := cluster % FAT32_ENTRIES_PER_SECTOR * 4
    writeFatCopies vol e cluster (b.setEntry byteOff value) (max vol.numFats 1) 0

/-! ## The journal -/

def JOURNAL_SECTOR : Nat := 1
def JOURNAL_PENDING : UInt8 := 1
def JOURNAL_COMMITTED : UInt8 := 2
def JOURNAL_OP_ALLOC : UInt8 := 1

/-- `b"JRNL"`. -/
def JOURNAL_MAGIC : Bytes := [0x4A, 0x52, 0x4E, 0x4C]

/-- `JournalEntry`. -/
structure JournalEntry where
  magic : Bytes
  state : UInt8
  opType : UInt8
  cluster : Nat
  fatValue : Nat
  dirSector : Nat
  dirOffset : Nat

/-- `JournalEntry::empty`. -/
def JournalEntry.empty : JournalEntry := ⟨JOURNAL_MAGIC, 0, 0, 0, 0, 0, 0⟩

/-- `JournalEntry::to_sector`. -/
def JournalEntry.toSector (j : JournalEntry) : Sector :=
  Sector.zero.put 0 (j.magic ++ [j.state, j.opType, 0, 0] ++ leBytes 4 j.cluster ++
    leBytes 4 j.fatValue ++ leBytes 4 j.dirSector ++ leBytes 2 j.dirOffset)

/-- `JournalEntry::from_sector`. -/
def JournalEntry.fromSector (b : Sector) : JournalEntry :=
  ⟨b.get 0 4, b 4, b 5, b.le32 8, b.le32 12, b.le32 16, ofLE (b.get 20 2)⟩

/-- `fat32_journal_clear`. -/
def journalClear : Prog Unit Unit := writeSector () JOURNAL_SECTOR JournalEntry.empty.toSector

/-- The entry whose allocation is rolled back. -/
def JournalEntry.RollsBack (vol : Volume) (j : JournalEntry) : Prop :=
  j.state = JOURNAL_PENDING ∧ j.opType = JOURNAL_OP_ALLOC ∧
    FAT32_FIRST_DATA_CLUSTER ≤ j.cluster ∧ j.cluster < vol.limit

instance (vol : Volume) (j : JournalEntry) : Decidable (j.RollsBack vol) :=
  inferInstanceAs (Decidable (_ ∧ _ ∧ _ ∧ _))

/-- `fat32_journal_recover`, for the entry that was read. -/
def recoverEntry (vol : Volume) (j : JournalEntry) : Prog Unit Unit :=
  if j.magic ≠ JOURNAL_MAGIC then pure ()
  else if j.state = JOURNAL_PENDING then do
    if j.RollsBack vol then
      let _ ← (writeFatEntry vol () j.cluster 0).attempt
      journalClear
    else journalClear
  else if j.state = JOURNAL_COMMITTED then journalClear
  else pure ()

/-- `fat32_journal_recover`. -/
def journalRecover (vol : Volume) : Prog Unit Unit := do
  let b ← readSector () JOURNAL_SECTOR
  recoverEntry vol (.fromSector b)

/-! ## The entries after a write -/

/-- A disk behind the sector cache. -/
abbrev Device := Cached Sector SECTOR_CACHE_LINES

theorem run_readSector {ε : Type} (e : ε) {c : Device} {s : Nat} {b : Sector}
    (h : (c.read s).1 = some b) : (readSector e s).run c = (.ok b, (c.read s).2) := by
  simp [readSector, Program.run, h]

theorem run_readSector_error {ε : Type} (e : ε) {c : Device} {s : Nat}
    (h : (c.read s).1 = none) : (readSector e s).run c = (.error e, (c.read s).2) := by
  simp [readSector, Program.run, h]

theorem run_writeSector {ε : Type} (e : ε) {c : Device} {s : Nat} (b : Sector) :
    (writeSector e s b).run c =
      (if c.disk.writable s then .ok () else .error e, (c.write s b).2) := by
  simp only [writeSector, Program.run, Cached.write_fst]
  split_ifs <;> rfl

theorem Sector.le32_setEntry (b : Sector) (k k' value : Nat) :
    (b.setEntry (k * 4) value).le32 (k' * 4) =
      if k' = k then b.le32 (k * 4) / 2 ^ 28 * 2 ^ 28 + value % 2 ^ 28 else b.le32 (k' * 4) := by
  have hlt := b.le32_lt (k * 4)
  unfold setEntry
  generalize hbytes : leBytes 4 (b.le32 (k * 4) / 2 ^ 28 * 2 ^ 28 + value % 2 ^ 28) = bytes
  have hlen : bytes.length = 4 := by rw [← hbytes, length_leBytes]
  split_ifs with h
  · have hget := b.get_put (k * 4) bytes
    rw [hlen] at hget
    rw [h, Sector.le32, hget, ← hbytes, ofLE_leBytes]
    omega
  · rw [Sector.le32, b.get_put_of_disjoint (k * 4) (by omega)]
    rfl

namespace Volume

variable {vol : Volume} {d d' : Disk Sector} {c : Device} {ε : Type} {e : ε}

theorem fatSector_inj {i j c c' : Nat} (hc : c / FAT32_ENTRIES_PER_SECTOR < vol.fatSz32)
    (hc' : c' / FAT32_ENTRIES_PER_SECTOR < vol.fatSz32) :
    vol.fatSector i c = vol.fatSector j c' ↔
      i = j ∧ c / FAT32_ENTRIES_PER_SECTOR = c' / FAT32_ENTRIES_PER_SECTOR := by
  unfold fatSector
  constructor
  · intro h
    have hij : i * vol.fatSz32 + c / FAT32_ENTRIES_PER_SECTOR =
        j * vol.fatSz32 + c' / FAT32_ENTRIES_PER_SECTOR := by omega
    have hquot := congrArg (· / vol.fatSz32) hij
    simp only [Nat.add_comm (_ * _), Nat.add_mul_div_right _ _ vol.fatSz32_pos,
      Nat.div_eq_of_lt hc, Nat.div_eq_of_lt hc'] at hquot
    obtain rfl : i = j := by omega
    exact ⟨rfl, by omega⟩
  · intro h
    rw [h.1, h.2]

/-- A sector of the FAT is in front of the data. -/
theorem fatSector_lt {i c : Nat} (hi : i < vol.numFats)
    (hc : c / FAT32_ENTRIES_PER_SECTOR < vol.fatSz32) : vol.fatSector i c < vol.dataStart := by
  have hmul : (i + 1) * vol.fatSz32 ≤ vol.numFats * vol.fatSz32 := Nat.mul_le_mul_right _ hi
  rw [Nat.add_mul, Nat.one_mul] at hmul
  rw [vol.dataStart_eq, fatSector]
  omega

theorem div_lt_of_lt_limit {c : Nat} (h : c < vol.limit) :
    c / FAT32_ENTRIES_PER_SECTOR < vol.fatSz32 :=
  Nat.div_lt_of_lt_mul (by rw [Nat.mul_comm]; exact h.trans_le (Nat.min_le_left _ _))

/-- The sector of an entry in one of the copies from `i` to `j`, if no write up to it is refused. -/
def Copies (vol : Volume) (d : Disk Sector) (x i j t : Nat) : Prop :=
  ∃ k, i ≤ k ∧ k < j ∧ t = vol.fatSector k x ∧
    ∀ l, i ≤ l → l ≤ k → d.writable (vol.fatSector l x) = true

/-- The loop writes the copies up to the first that the device refuses. -/
theorem run_writeFatCopies {x n i : Nat} {b : Sector}
    (hsmall : ∀ k < i + n, vol.fatSector k x < U32) (t : Nat) :
    (Copies vol c.disk x i (i + n) t → ((writeFatCopies vol e x b n i).run c).2.disk.blocks t = b) ∧
      (¬ Copies vol c.disk x i (i + n) t →
        ((writeFatCopies vol e x b n i).run c).2.disk.blocks t = c.disk.blocks t) := by
  induction n generalizing i c with
  | zero =>
    refine ⟨?_, fun _ => rfl⟩
    rintro ⟨k, hi, hk, -⟩
    omega
  | succ n ih =>
    rw [writeFatCopies, if_neg (not_le.mpr (hsmall i (by omega)))]
    by_cases hroom : c.disk.writable (vol.fatSector i x) = true
    · obtain ⟨hin, hout⟩ := ih (c := (c.write (vol.fatSector i x) b).2) (i := i + 1)
        (fun k hk => hsmall k (by omega))
      rw [Program.run_bind_ok ((run_writeSector e b).trans (by rw [if_pos hroom]))]
      rw [Cached.disk_write] at hin hout
      by_cases hlater : Copies vol (c.disk.write (vol.fatSector i x) b) x (i + 1) (i + 1 + n) t
      · refine ⟨fun _ => hin hlater, fun hnot => absurd ?_ hnot⟩
        obtain ⟨k, hik, hk, ht, hall⟩ := hlater
        refine ⟨k, by omega, by omega, ht, fun l hl hlk => ?_⟩
        obtain rfl | hl := hl.eq_or_lt
        · exact hroom
        · simpa using hall l hl hlk
      · rw [hout hlater, Disk.blocks_write]
        refine ⟨?_, fun hnot => if_neg ?_⟩
        · rintro ⟨k, hik, hk, rfl, hall⟩
          obtain rfl | hik := hik.eq_or_lt
          · rw [if_pos ⟨rfl, hroom⟩]
          · exact absurd ⟨k, hik, by omega, rfl, fun l hl hlk => by
              simpa using hall l (by omega) hlk⟩ hlater
        · rintro ⟨rfl, -⟩
          refine hnot ⟨i, le_rfl, by omega, rfl, fun l hl hli => ?_⟩
          rwa [le_antisymm hli hl]
    · rw [Program.run_bind_error ((run_writeSector e b).trans (by rw [if_neg hroom])),
        Cached.disk_write, Disk.write, if_neg hroom]
      refine ⟨?_, fun _ => rfl⟩
      rintro ⟨k, hik, -, -, hall⟩
      exact absurd (hall i le_rfl hik) hroom

/-- The writes up to a copy are not refused. -/
def Written (vol : Volume) (d : Disk Sector) (x i : Nat) : Prop :=
  ∀ j ≤ i, d.writable (vol.fatSector j x) = true

/-- The entries after `fat32_write_fat_entry`: those in the sectors that are written are the ones
of the sector that was read, and the others are as before. -/
theorem entry_writeFatEntry (hfats : 0 < vol.numFats) {x : Nat} (value : Nat) {b : Sector}
    (hlow : FAT32_FIRST_DATA_CLUSTER ≤ x) (hhigh : x < vol.limit)
    (hread : (c.read (vol.fatSector 0 x)).1 = some b) {i : Nat} (hi : i < vol.numFats) {y : Nat}
    (hy : y / FAT32_ENTRIES_PER_SECTOR < vol.fatSz32) :
    (y / FAT32_ENTRIES_PER_SECTOR = x / FAT32_ENTRIES_PER_SECTOR ∧ Written vol c.disk x i →
      vol.entry ((writeFatEntry vol e x value).run c).2.disk i y =
        if y = x then b.le32 (x % FAT32_ENTRIES_PER_SECTOR * 4) / 2 ^ 28 * 2 ^ 28 + value % 2 ^ 28
        else b.le32 (y % FAT32_ENTRIES_PER_SECTOR * 4)) ∧
      (¬ (y / FAT32_ENTRIES_PER_SECTOR = x / FAT32_ENTRIES_PER_SECTOR ∧ Written vol c.disk x i) →
        vol.entry ((writeFatEntry vol e x value).run c).2.disk i y = vol.entry c.disk i y) := by
  have hdiv := div_lt_of_lt_limit hhigh
  have hsmall : ∀ k < 0 + vol.numFats, vol.fatSector k x < U32 := by
    intro k hk
    exact (fatSector_lt (by omega) hdiv).trans vol.dataStart_lt
  unfold writeFatEntry
  rw [if_neg (by omega), if_neg (not_le.mpr (hsmall 0 (by omega))),
    Program.run_bind_ok (run_readSector e hread), Nat.max_eq_left hfats]
  obtain ⟨hin, hout⟩ := run_writeFatCopies (e := e) (c := (c.read (vol.fatSector 0 x)).2)
    (b := b.setEntry (x % FAT32_ENTRIES_PER_SECTOR * 4) value) hsmall (vol.fatSector i y)
  rw [Cached.disk_read, Nat.zero_add] at hin hout
  refine ⟨?_, ?_⟩
  · rintro ⟨hsec, hwritten⟩
    have hsector : vol.fatSector i y = vol.fatSector i x := by
      rw [fatSector, fatSector, hsec]
    rw [entry, hin ⟨i, Nat.zero_le _, hi, hsector, fun l _ hl => hwritten l hl⟩,
      Sector.le32_setEntry]
    have hmod : y % FAT32_ENTRIES_PER_SECTOR = x % FAT32_ENTRIES_PER_SECTOR ↔ y = x := by
      have hy' := Nat.div_add_mod y FAT32_ENTRIES_PER_SECTOR
      have hx' := Nat.div_add_mod x FAT32_ENTRIES_PER_SECTOR
      rw [hsec] at hy'
      omega
    simp only [hmod]
  · intro hsec
    rw [entry, hout, entry]
    rintro ⟨j, -, -, heq, hall⟩
    obtain ⟨rfl, hsame⟩ := (fatSector_inj hy hdiv).mp heq
    exact hsec ⟨hsame, fun l hl => hall l (Nat.zero_le _) hl⟩

/-! ## What a call changes in the FAT -/

/-- Of the FAT only the low 28 bits of the named entries differ, and those are the same in all
copies. -/
structure Touches (vol : Volume) (d d' : Disk Sector) (named : List Nat) : Prop where
  others : ∀ i < vol.numFats, ∀ x < vol.fatSz32 * FAT32_ENTRIES_PER_SECTOR, x ∉ named →
    vol.entry d' i x = vol.entry d i x
  upper : ∀ i < vol.numFats, ∀ x < vol.fatSz32 * FAT32_ENTRIES_PER_SECTOR,
    vol.entry d' i x / 2 ^ 28 = vol.entry d i x / 2 ^ 28
  alike : ∀ x ∈ named, (∀ i < vol.numFats, vol.entry d' i x = vol.entry d i x) ∨
    ∀ i < vol.numFats, ∀ j < vol.numFats,
      vol.entry d' i x % 2 ^ 28 = vol.entry d' j x % 2 ^ 28

theorem Touches.refl (named : List Nat) : Touches vol d d named :=
  ⟨fun _ _ _ _ _ => rfl, fun _ _ _ _ => rfl, fun _ _ => .inl fun _ _ => rfl⟩

/-- The copies of the FAT are the same. -/
def Identical (vol : Volume) (d : Disk Sector) : Prop :=
  ∀ x < vol.fatSz32 * FAT32_ENTRIES_PER_SECTOR, ∀ i < vol.numFats, ∀ j < vol.numFats,
    vol.entry d i x = vol.entry d j x

theorem Touches.identical {named : List Nat} (h : Touches vol d d' named)
    (hsame : Identical vol d) : Identical vol d' := by
  intro x hx i hi j hj
  have hold := hsame x hx i hi j hj
  by_cases hnamed : x ∈ named
  · obtain hkept | hequal := h.alike x hnamed
    · rw [hkept i hi, hkept j hj, hold]
    · have hlow := hequal i hi j hj
      have hi' := h.upper i hi x hx
      have hj' := h.upper j hj x hx
      omega
  · rw [h.others i hi x hx hnamed, h.others j hj x hx hnamed, hold]

/-- The copies that are written agree with the sector that was read, outside of the low 28 bits of
the entry.  All copies are written, or those that are not have the value, or those that are had
it. -/
structure Agrees (vol : Volume) (d : Disk Sector) (b : Sector) (x value : Nat) : Prop where
  others : ∀ i < vol.numFats, Written vol d x i →
    ∀ y, y / FAT32_ENTRIES_PER_SECTOR = x / FAT32_ENTRIES_PER_SECTOR → y ≠ x →
      vol.entry d i y = b.le32 (y % FAT32_ENTRIES_PER_SECTOR * 4)
  upper : ∀ i < vol.numFats, Written vol d x i →
    vol.entry d i x / 2 ^ 28 = b.le32 (x % FAT32_ENTRIES_PER_SECTOR * 4) / 2 ^ 28
  alike : (∀ i < vol.numFats, ¬ Written vol d x i →
      vol.entry d i x % 2 ^ 28 = value % 2 ^ 28) ∨
    ∀ i < vol.numFats, Written vol d x i → vol.entry d i x % 2 ^ 28 = value % 2 ^ 28

/-- The condition for `fat32_write_fat_entry`: it is refused, or the copies agree with what it
reads. -/
def WriteOk (vol : Volume) (c : Device) (x value : Nat) : Prop :=
  FAT32_FIRST_DATA_CLUSTER ≤ x → x < vol.limit →
    ∀ b, (c.read (vol.fatSector 0 x)).1 = some b → Agrees vol c.disk b x value

theorem writeFatEntry_refused {x value : Nat}
    (h : FAT32_FIRST_DATA_CLUSTER ≤ x → x < vol.limit → (c.read (vol.fatSector 0 x)).1 = none) :
    ((writeFatEntry vol e x value).run c).2.disk = c.disk := by
  unfold writeFatEntry
  split_ifs with hrange hsmall
  · rfl
  · rfl
  · push Not at hrange
    rw [Program.run_bind_error (run_readSector_error e (h hrange.1 hrange.2)), Cached.disk_read]

theorem touches_writeFatEntry_iff (hfats : 0 < vol.numFats) (x value : Nat) :
    Touches vol c.disk ((writeFatEntry vol e x value).run c).2.disk [x] ↔
      WriteOk vol c x value := by
  by_cases hgoes : FAT32_FIRST_DATA_CLUSTER ≤ x ∧ x < vol.limit ∧
      ∃ b, (c.read (vol.fatSector 0 x)).1 = some b
  swap
  · have hnone : ∀ b, FAT32_FIRST_DATA_CLUSTER ≤ x → x < vol.limit →
        (c.read (vol.fatSector 0 x)).1 ≠ some b :=
      fun b hlow hhigh hread => hgoes ⟨hlow, hhigh, b, hread⟩
    rw [writeFatEntry_refused fun hlow hhigh =>
      Option.eq_none_iff_forall_ne_some.mpr fun b => hnone b hlow hhigh]
    exact ⟨fun _ hlow hhigh b hread => absurd hread (hnone b hlow hhigh), fun _ => Touches.refl _⟩
  obtain ⟨hlow, hhigh, b, hread⟩ := hgoes
  have hdiv := div_lt_of_lt_limit hhigh
  have hok : WriteOk vol c x value ↔ Agrees vol c.disk b x value := by
    constructor
    · intro h
      exact h hlow hhigh b hread
    · rintro h - - b' hread'
      rw [hread] at hread'
      obtain rfl := Option.some.inj hread'
      exact h
  have hinside : ∀ y, y < vol.fatSz32 * FAT32_ENTRIES_PER_SECTOR ↔
      y / FAT32_ENTRIES_PER_SECTOR < vol.fatSz32 := by
    intro y
    rw [Nat.div_lt_iff_lt_mul (by decide)]
  have hentry := fun i hi y hy =>
    entry_writeFatEntry (e := e) hfats value hlow hhigh hread (i := i) hi (y := y) hy
  generalize ((writeFatEntry vol e x value).run c).2.disk = d' at hentry
  -- The entry itself, in a copy that is written and in one that is not.
  have hnew : ∀ i < vol.numFats, Written vol c.disk x i → vol.entry d' i x =
      b.le32 (x % FAT32_ENTRIES_PER_SECTOR * 4) / 2 ^ 28 * 2 ^ 28 + value % 2 ^ 28 := by
    intro i hi hwritten
    rw [(hentry i hi x hdiv).1 ⟨rfl, hwritten⟩, if_pos rfl]
  have hkept : ∀ i < vol.numFats, ¬ Written vol c.disk x i →
      vol.entry d' i x = vol.entry c.disk i x :=
    fun i hi hnot => (hentry i hi x hdiv).2 fun hsec => hnot hsec.2
  rw [hok]
  constructor
  · intro h
    have hupper : ∀ i < vol.numFats, Written vol c.disk x i →
        vol.entry c.disk i x / 2 ^ 28 = b.le32 (x % FAT32_ENTRIES_PER_SECTOR * 4) / 2 ^ 28 := by
      intro i hi hwritten
      rw [← h.upper i hi x ((hinside x).mpr hdiv), hnew i hi hwritten]
      omega
    refine ⟨fun i hi hwritten y hy hne => ?_, hupper, ?_⟩
    · have hy' : y / FAT32_ENTRIES_PER_SECTOR < vol.fatSz32 := hy ▸ hdiv
      rw [← h.others i hi y ((hinside y).mpr hy') (by simpa using hne),
        (hentry i hi y hy').1 ⟨hy, hwritten⟩, if_neg hne]
    · obtain hsame | hequal := h.alike x List.mem_cons_self
      · refine .inr fun i hi hwritten => ?_
        rw [← hsame i hi, hnew i hi hwritten]
        omega
      · -- The first copy tells whether anything is written.
        by_cases hfirst : Written vol c.disk x 0
        · refine .inl fun i hi hnot => ?_
          rw [← hkept i hi hnot, hequal i hi 0 hfats, hnew 0 hfats hfirst]
          omega
        · exact .inr fun i hi hwritten =>
            absurd (fun j hj => hwritten j (hj.trans (Nat.zero_le i))) hfirst
  · intro h
    refine ⟨fun i hi y hy hnamed => ?_, fun i hi y hy => ?_, fun y hy => ?_⟩
    · have hne : y ≠ x := by simpa using hnamed
      by_cases hsec : y / FAT32_ENTRIES_PER_SECTOR = x / FAT32_ENTRIES_PER_SECTOR ∧
          Written vol c.disk x i
      · rw [(hentry i hi y ((hinside y).mp hy)).1 hsec, if_neg hne,
          h.others i hi hsec.2 y hsec.1 hne]
      · rw [(hentry i hi y ((hinside y).mp hy)).2 hsec]
    · by_cases hsec : y / FAT32_ENTRIES_PER_SECTOR = x / FAT32_ENTRIES_PER_SECTOR ∧
          Written vol c.disk x i
      · rw [(hentry i hi y ((hinside y).mp hy)).1 hsec]
        split_ifs with hyx
        · rw [hyx, h.upper i hi hsec.2]
          omega
        · rw [h.others i hi hsec.2 y hsec.1 hyx]
      · rw [(hentry i hi y ((hinside y).mp hy)).2 hsec]
    · obtain rfl := List.mem_singleton.mp hy
      refine h.alike.symm.imp (fun hhad i hi => ?_) fun hrest => ?_
      · by_cases hwritten : Written vol c.disk y i
        · have hup := h.upper i hi hwritten
          have hlow := hhad i hi hwritten
          rw [hnew i hi hwritten]
          omega
        · exact hkept i hi hwritten
      · have hvalue : ∀ i < vol.numFats, vol.entry d' i y % 2 ^ 28 = value % 2 ^ 28 := by
          intro i hi
          by_cases hwritten : Written vol c.disk y i
          · rw [hnew i hi hwritten]
            omega
          · rw [hkept i hi hwritten, hrest i hi hwritten]
        intro i hi j hj
        rw [hvalue i hi, hvalue j hj]

/-- Copies that are the same, on a device that does not fail behind a line that is not stale. -/
theorem Identical.writeOk (h : Identical vol c.disk) (x value : Nat)
    (hwritable : ∀ i < vol.numFats, c.disk.writable (vol.fatSector i x) = true)
    (hfresh : ∀ b, (c.read (vol.fatSector 0 x)).1 = some b →
      b = c.disk.blocks (vol.fatSector 0 x)) : WriteOk vol c x value := by
  intro _ hhigh b hread
  have hdiv := div_lt_of_lt_limit hhigh
  have hread : ∀ i < vol.numFats, ∀ y,
      y / FAT32_ENTRIES_PER_SECTOR = x / FAT32_ENTRIES_PER_SECTOR →
      vol.entry c.disk i y = b.le32 (y % FAT32_ENTRIES_PER_SECTOR * 4) := by
    intro i hi y hy
    have hinside : y < vol.fatSz32 * FAT32_ENTRIES_PER_SECTOR := by
      rwa [← Nat.div_lt_iff_lt_mul (by decide), hy]
    rw [h y hinside i hi 0 (by omega), entry, hfresh b hread, fatSector, fatSector, hy]
  refine ⟨fun i hi _ y hy _ => hread i hi y hy, fun i hi _ => by rw [hread i hi x rfl],
    .inl fun i hi hnot => absurd (fun j hj => hwritable j (by omega)) hnot⟩

/-! ## Recovery -/

/-- The journal that the recovery reads, if it is one that it clears. -/
def pending (c : Device) : Option JournalEntry :=
  ((c.read JOURNAL_SECTOR).1.map .fromSector).filter fun j =>
    j.magic = JOURNAL_MAGIC ∧ (j.state = JOURNAL_PENDING ∨ j.state = JOURNAL_COMMITTED)

/-- The entries that the journal names. -/
def named (vol : Volume) (c : Device) : List Nat :=
  match pending c with
  | none => []
  | some j => if j.RollsBack vol then [j.cluster] else []

/-- The disk after the roll-back. -/
def rolledBack (vol : Volume) (c : Device) (j : JournalEntry) : Disk Sector :=
  if j.RollsBack vol then
    ((writeFatEntry vol () j.cluster 0).run (c.read JOURNAL_SECTOR).2).2.disk
  else c.disk

theorem run_journalClear (c : Device) :
    (journalClear.run c).2.disk = c.disk.write JOURNAL_SECTOR JournalEntry.empty.toSector := by
  rw [journalClear, run_writeSector, Cached.disk_write]

theorem run_journalRecover {j : JournalEntry} (h : pending c = some j) :
    ((journalRecover vol).run c).2.disk =
      (rolledBack vol c j).write JOURNAL_SECTOR JournalEntry.empty.toSector := by
  obtain ⟨hj, hactive⟩ := Option.filter_eq_some_iff.mp h
  obtain ⟨b, hread, rfl⟩ := Option.map_eq_some_iff.mp hj
  obtain ⟨hmagic, hstate⟩ := of_decide_eq_true hactive
  rw [journalRecover, Program.run_bind_ok (run_readSector () hread), recoverEntry,
    if_neg (not_not.mpr hmagic), rolledBack]
  by_cases hrolls : (JournalEntry.fromSector b).RollsBack vol
  · rw [if_pos hrolls, if_pos hrolls.1, if_pos hrolls,
      Program.run_bind_ok (Program.run_attempt _ _), run_journalClear]
  · rw [if_neg hrolls, if_neg hrolls, ← Cached.disk_read c JOURNAL_SECTOR, ← run_journalClear]
    split_ifs with hpending hcommitted
    · rfl
    · rfl
    · exact absurd hstate (by simp [hpending, hcommitted])

theorem run_journalRecover_of_none (h : pending c = none) :
    ((journalRecover vol).run c).2.disk = c.disk := by
  unfold journalRecover
  cases hread : (c.read JOURNAL_SECTOR).1 with
  | none => rw [Program.run_bind_error (run_readSector_error () hread), Cached.disk_read]
  | some b =>
    rw [pending, hread, Option.map_some, Option.filter_eq_none_iff] at h
    have hidle := h _ rfl
    simp only [decide_eq_true_eq, not_and, not_or] at hidle
    rw [Program.run_bind_ok (run_readSector () hread), recoverEntry]
    split_ifs with hmagic hpending hrolls hcommitted
    · exact Cached.disk_read _ _
    · exact absurd hpending (hidle (not_not.mp hmagic)).1
    · exact absurd hpending (hidle (not_not.mp hmagic)).1
    · exact absurd hcommitted (hidle (not_not.mp hmagic)).2
    · exact Cached.disk_read _ _

/-- The sector of the journal is not one of the FAT. -/
def JournalOutside (vol : Volume) : Prop :=
  JOURNAL_SECTOR < vol.fatStart ∨ vol.dataStart ≤ JOURNAL_SECTOR

/-- The condition for `fat32_journal_recover`. -/
def RecoverOk (vol : Volume) (c : Device) : Prop :=
  ∀ j, pending c = some j → JournalOutside vol ∧
    (j.RollsBack vol → WriteOk vol (c.read JOURNAL_SECTOR).2 j.cluster 0)

/-- A write to a sector that is not one of the FAT. -/
theorem entry_write (hout : JournalOutside vol) (b : Sector) {i x : Nat} (hi : i < vol.numFats)
    (hx : x < vol.fatSz32 * FAT32_ENTRIES_PER_SECTOR) :
    vol.entry (d.write JOURNAL_SECTOR b) i x = vol.entry d i x := by
  have hlt := fatSector_lt hi (Nat.div_lt_of_lt_mul (by rwa [Nat.mul_comm]))
  have hge : vol.fatStart ≤ vol.fatSector i x :=
    (Nat.le_add_left _ _).trans (Nat.le_add_right _ _)
  rw [entry, Disk.blocks_write_of_ne, entry]
  unfold JournalOutside at hout
  omega

theorem Touches.write {named : List Nat} (h : Touches vol d d' named) (hout : JournalOutside vol)
    (b : Sector) (hnamed : ∀ x ∈ named, x < vol.limit) :
    Touches vol d (d'.write JOURNAL_SECTOR b) named := by
  refine ⟨fun i hi x hx hne => ?_, fun i hi x hx => ?_, fun x hx => ?_⟩
  · rw [entry_write hout b hi hx, h.others i hi x hx hne]
  · rw [entry_write hout b hi hx, h.upper i hi x hx]
  · have hin := (hnamed x hx).trans_le (Nat.min_le_left _ _)
    refine (h.alike x hx).imp (fun hkept i hi => ?_) fun hequal i hi j hj => ?_
    · rw [entry_write hout b hi hin, hkept i hi]
    · rw [entry_write hout b hi hin, entry_write hout b hj hin, hequal i hi j hj]

theorem touches_journalRecover (hfats : 0 < vol.numFats) (h : RecoverOk vol c) :
    Touches vol c.disk ((journalRecover vol).run c).2.disk (named vol c) := by
  unfold named
  cases hj : pending c with
  | none =>
    rw [run_journalRecover_of_none hj]
    exact Touches.refl _
  | some j =>
    obtain ⟨hout, hok⟩ := h j hj
    rw [run_journalRecover hj, rolledBack]
    dsimp only
    split_ifs with hrolls
    · refine Touches.write ?_ hout _ fun x hx => ?_
      · have htouches := (touches_writeFatEntry_iff (e := ()) hfats j.cluster 0).mpr (hok hrolls)
        rwa [Cached.disk_read] at htouches
      · rw [List.mem_singleton.mp hx]
        exact hrolls.2.2.2
    · exact (Touches.refl _).write hout _ (by simp)

/-- An empty cache in front of a disk of eight sectors. -/
def emptyCache (blocks : Nat → Sector) : Device :=
  ⟨⟨blocks, (· < 8), (· < 8)⟩, fun _ => ⟨0, false, .zero, 0⟩, 1⟩

/-- A volume with copies of one sector, after `reserved` sectors. -/
def smallVolume (reserved copies : Nat) (h : reserved + copies * 1 < U32) : Volume :=
  ⟨reserved, reserved + copies * 1, 2, 1, 1, copies, Nat.one_pos, Nat.one_pos, rfl, h⟩

/-- A journal that was committed. -/
def committedJournal : Sector := (Sector.zero.put 0 JOURNAL_MAGIC).put 4 [JOURNAL_COMMITTED]

/-- A pending allocation of cluster 3, and two copies of a FAT with that cluster taken. -/
def pendingDisk : Nat → Sector
  | 1 => (Sector.zero.put 0 JOURNAL_MAGIC).put 4 [JOURNAL_PENDING, JOURNAL_OP_ALLOC, 0, 0, 3]
  | _ => Sector.zero.put 12 [255, 255, 255, 15]

end Volume

end RobotOs.Fs
