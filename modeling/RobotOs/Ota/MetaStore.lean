import RobotOs.Ota.BootRecord
import RobotOs.Lib.Run

/-!
# The two boot records on disk

`ota_read_boot_meta` and `ota_write_boot_meta` of `crates/ota/src/lib.rs`, with
the selection functions of `pure.rs`.  Two files hold a record each.  The
reader takes the valid record with the higher sequence number; the writer
overwrites the other file with the next number, so that power can fail during
the write.

`Disk` has what the reader makes of the files.  A write ends in one of three ways
(`WriteEnd`), and `crashSafe_chain` says what the reader sees then, along any
chain of writes.  The error of a record write is dropped and the plain file is
written all the same, so without a valid record the reader takes the new
metadata from there.  The two records must differ in their sequence number and the
numbers must not run out: on a tie the reader prefers file A and the writer
overwrites it, and at `u32::MAX` the number of a new record is no longer
higher.  `tie_and_saturation` shows both.

`Files` is the same disk as bytes.  `disk_writeStopped` and `disk_writeDone`
connect the two: a write that power cuts off anywhere ends in one of the two
ways, and so does one that is not cut off.
-/

namespace RobotOs.Ota

open Lib.Framing Lib.Run Lib.Text

/-! ## Selection -/

/-- `ota_pick_boot_meta_record`. -/
def pickBootMetaRecord : Option BootMetaRecord → Option BootMetaRecord → Option BootMetaRecord
  | some ra, some rb => if rb.seq > ra.seq then some rb else some ra
  | some r, none | none, some r => some r
  | none, none => none

/-- `ota_pick_meta_write_slot`. -/
def pickMetaWriteSlot : Option BootMetaRecord → Option BootMetaRecord → UInt8
  | none, _ => SLOT_A
  | _, none => SLOT_B
  | some ra, some rb => if ra.seq ≤ rb.seq then SLOT_A else SLOT_B

/-- `ota_next_seq`. -/
def nextSeq : Option BootMetaRecord → UInt32
  | none => 1
  | some r => satSucc r.seq

/-! ## The disk -/

/-- What the reader makes of the files: the two records, none for a file that
is missing or corrupt, and the plain file of the boot loader. -/
structure Disk where
  fileA : Option BootMetaRecord
  fileB : Option BootMetaRecord
  plain : Option BootMeta
  deriving DecidableEq, Repr

namespace Disk

/-- The record that the reader takes. -/
def best (disk : Disk) : Option BootMetaRecord := pickBootMetaRecord disk.fileA disk.fileB

/-- `ota_read_boot_meta`. -/
def readBootMeta (disk : Disk) : BootMeta :=
  match disk.best with
  | some picked => picked.boot
  | none => disk.plain.getD .default

/-- The file that the next write goes to. -/
def target (disk : Disk) : UInt8 := pickMetaWriteSlot disk.fileA disk.fileB

/-- Replace one of the two records. -/
def put (disk : Disk) (slot : UInt8) (file : Option BootMetaRecord) : Disk :=
  if slot = SLOT_A then { disk with fileA := file } else { disk with fileB := file }

end Disk

/-- How a write ends.  A completed one goes on to the plain file, which it may
leave in any state.  When power fails the record file is corrupt or missing.
When the file system gives an error the record file is kept or corrupt or
missing, and the plain file is written. -/
inductive WriteEnd where
  | completed (plain : Option BootMeta)
  | torn
  | failed (kept : Bool) (plain : Option BootMeta)
  deriving DecidableEq, Repr

def WriteEnd.isCompleted : WriteEnd → Bool
  | .completed _ => true
  | .torn | .failed _ _ => false

/-- A write of boot metadata and its end. -/
structure Write where
  boot : BootMeta
  how : WriteEnd
  deriving DecidableEq, Repr

namespace Disk

/-- The record that the next write produces. -/
def newRecord (disk : Disk) (boot : BootMeta) : BootMetaRecord := ⟨boot, nextSeq disk.best⟩

/-- `ota_write_boot_meta`. -/
def writeBootMeta (disk : Disk) (write : Write) : Disk :=
  match write.how with
  | .completed plain =>
    { disk.put disk.target (some (disk.newRecord write.boot)) with plain := plain }
  | .torn => disk.put disk.target none
  | .failed kept plain => { if kept then disk else disk.put disk.target none with plain }

/-- After the write the reader sees the new metadata, or what it saw before.  For a write that
failed with an error this is asked only if there was a valid record. -/
def CrashSafe (disk : Disk) (write : Write) : Prop :=
  match write.how with
  | .completed _ => (disk.writeBootMeta write).readBootMeta = write.boot
  | .torn => (disk.writeBootMeta write).readBootMeta = disk.readBootMeta
  | .failed _ _ => disk.best ≠ none →
      (disk.writeBootMeta write).readBootMeta = disk.readBootMeta

/-- Two valid records have different sequence numbers. -/
def Distinct (disk : Disk) : Prop :=
  ∀ ra ∈ disk.fileA, ∀ rb ∈ disk.fileB, ra.seq ≠ rb.seq

/-- The sequence number of the record that the reader takes. -/
def bestSeq (disk : Disk) : Nat := (disk.best.map fun r => r.seq.toNat).getD 0

end Disk

/-- The completed writes of a chain. -/
def completedWrites (writes : List Write) : Nat :=
  writes.countP fun write => write.how.isCompleted

/-! ## One write -/

namespace Disk

variable {disk : Disk}

theorem toNat_nextSeq (h : disk.bestSeq < U32_MAX) :
    (nextSeq disk.best).toNat = disk.bestSeq + 1 := by
  unfold bestSeq at h ⊢
  cases hbest : disk.best with
  | none => rfl
  | some r =>
    simp only [hbest, Option.map_some, Option.getD_some] at h ⊢
    rw [nextSeq, toNat_satSucc]
    omega

/-- The reader takes the highest number. -/
theorem seq_le_bestSeq {r : BootMetaRecord} (h : r ∈ disk.fileA ∨ r ∈ disk.fileB) :
    r.seq.toNat ≤ disk.bestSeq := by
  obtain ⟨fileA, fileB, plain⟩ := disk
  cases fileA <;> cases fileB <;> simp only [Option.mem_def, Option.some.injEq, reduceCtorEq,
    or_false, false_or] at h
  · simp [bestSeq, best, pickBootMetaRecord, h]
  · simp [bestSeq, best, pickBootMetaRecord, h]
  · simp only [bestSeq, best, pickBootMetaRecord, gt_iff_lt, UInt32.lt_iff_toNat_lt]
    rcases h with rfl | rfl <;> split_ifs <;> simp only [Option.map_some, Option.getD_some] <;>
      omega

/-- A completed write is what the reader takes, as long as there is a next
number. -/
theorem best_completed (h : disk.bestSeq < U32_MAX) (boot : BootMeta) (plain : Option BootMeta) :
    (disk.writeBootMeta ⟨boot, .completed plain⟩).best = some (disk.newRecord boot) := by
  have hnew : (disk.newRecord boot).seq.toNat = disk.bestSeq + 1 := toNat_nextSeq h
  have hA : ∀ ra ∈ disk.fileA, ra.seq < (disk.newRecord boot).seq := fun ra hra => by
    rw [UInt32.lt_iff_toNat_lt, hnew]
    exact Nat.lt_succ_of_le (seq_le_bestSeq (.inl hra))
  have hB : ∀ rb ∈ disk.fileB, ¬ rb.seq > (disk.newRecord boot).seq := fun rb hrb => by
    rw [gt_iff_lt, UInt32.lt_iff_toNat_lt, hnew]
    have := seq_le_bestSeq (.inr hrb)
    omega
  simp only [writeBootMeta, put, best]
  split_ifs
  · cases hfile : disk.fileB with
    | none => rfl
    | some rb => exact if_neg (hB rb hfile)
  · cases hfile : disk.fileA with
    | none => rfl
    | some ra => exact if_pos (hA ra hfile)

/-- The record that the reader takes is not the one that is written over. -/
theorem best_put_none (h : disk.Distinct) : (disk.put disk.target none).best = disk.best := by
  obtain ⟨fileA, fileB, plain⟩ := disk
  cases fileA with
  | none => cases fileB <;> rfl
  | some ra =>
    cases fileB with
    | none => rfl
    | some rb =>
      have hne : ra.seq.toNat ≠ rb.seq.toNat := fun he =>
        h ra rfl rb rfl (UInt32.toNat_inj.mp he)
      by_cases hle : ra.seq ≤ rb.seq
      · have hlt : rb.seq > ra.seq := by
          rw [gt_iff_lt, UInt32.lt_iff_toNat_lt]
          rw [UInt32.le_iff_toNat_le] at hle
          omega
        simp [put, target, pickMetaWriteSlot, best, pickBootMetaRecord, hle, hlt]
      · have hlt : ¬ rb.seq > ra.seq := by
          rw [gt_iff_lt, UInt32.lt_iff_toNat_lt]
          rw [UInt32.le_iff_toNat_le] at hle
          omega
        simp [put, target, pickMetaWriteSlot, best, pickBootMetaRecord, hle, hlt, SLOT_A, SLOT_B]

/-- A write that does not complete leaves the record that the reader takes. -/
theorem best_not_completed (h : disk.Distinct) {write : Write}
    (hhow : write.how.isCompleted = false) : (disk.writeBootMeta write).best = disk.best := by
  obtain ⟨boot, how⟩ := write
  cases how with
  | completed plain => cases hhow
  | torn => exact best_put_none h
  | failed kept plain =>
    cases kept with
    | true => rfl
    | false => exact best_put_none h

theorem distinct_put_none (disk : Disk) : (disk.put disk.target none).Distinct := by
  intro ra hra rb hrb
  simp only [put] at hra hrb
  split_ifs at hra hrb
  · nomatch hra
  · nomatch hrb

/-- Writes keep the numbers of the two records apart. -/
theorem distinct_write (h : disk.Distinct) {write : Write}
    (hseq : write.how.isCompleted = true → disk.bestSeq < U32_MAX) :
    (disk.writeBootMeta write).Distinct := by
  obtain ⟨boot, how⟩ := write
  cases how with
  | torn => exact distinct_put_none disk
  | failed kept plain =>
    cases kept with
    | true => exact h
    | false => exact distinct_put_none disk
  | completed plain =>
    have hnew : (disk.newRecord boot).seq.toNat = disk.bestSeq + 1 := toNat_nextSeq (hseq rfl)
    intro ra hra rb hrb heq
    have hnat := congrArg UInt32.toNat heq
    simp only [writeBootMeta, put] at hra hrb
    split_ifs at hra hrb
    · obtain rfl := Option.some.inj hra
      have hle : rb.seq.toNat ≤ disk.bestSeq := seq_le_bestSeq (.inr hrb)
      omega
    · obtain rfl := Option.some.inj hrb
      have hle : ra.seq.toNat ≤ disk.bestSeq := seq_le_bestSeq (.inl hra)
      omega

/-- One write is crash safe. -/
theorem crashSafe_write (h : disk.Distinct) {write : Write}
    (hseq : write.how.isCompleted = true → disk.bestSeq < U32_MAX) : disk.CrashSafe write := by
  obtain ⟨boot, how⟩ := write
  cases how with
  | torn =>
    have hplain : (disk.writeBootMeta ⟨boot, .torn⟩).plain = disk.plain := by
      simp only [writeBootMeta, put]
      split_ifs <;> rfl
    show readBootMeta _ = readBootMeta disk
    rw [readBootMeta, readBootMeta, best_not_completed h rfl, hplain]
  | failed kept plain =>
    intro hvalid
    rw [readBootMeta, readBootMeta, best_not_completed h rfl]
    cases hbest : disk.best with
    | none => exact absurd hbest hvalid
    | some r => rfl
  | completed plain =>
    show readBootMeta _ = boot
    rw [readBootMeta, best_completed (hseq rfl) boot plain]
    rfl

/-- The number of the record that the reader takes goes up with each completed
write. -/
theorem bestSeq_write (h : disk.Distinct) {write : Write}
    (hseq : write.how.isCompleted = true → disk.bestSeq < U32_MAX) :
    (disk.writeBootMeta write).bestSeq = disk.bestSeq + completedWrites [write] := by
  cases hhow : write.how.isCompleted with
  | false =>
    rw [bestSeq, best_not_completed h hhow]
    simp [completedWrites, hhow, bestSeq]
  | true =>
    obtain ⟨boot, how⟩ := write
    cases how with
    | completed plain =>
      rw [bestSeq, best_completed (hseq rfl) boot plain]
      exact toNat_nextSeq (hseq rfl)
    | torn => cases hhow
    | failed kept plain => cases hhow

end Disk

/-! ## Chains of writes -/

/-- Every write of a chain is crash safe when the two records start with
different sequence numbers and the numbers do not run out: a completed write is
what the reader sees, a torn one changes nothing for the reader, and neither
does one that failed when there was a valid record. -/
theorem crashSafe_chain (disk : Disk) (hdistinct : disk.Distinct) (writes : List Write)
    (hseq : disk.bestSeq + completedWrites writes ≤ U32_MAX) :
    Guarded Disk.writeBootMeta Disk.CrashSafe disk writes := by
  induction writes generalizing disk with
  | nil => trivial
  | cons write writes ih =>
    have hcount : completedWrites (write :: writes) =
        completedWrites [write] + completedWrites writes := by
      simp only [completedWrites, List.countP_cons, List.countP_nil]
      omega
    have hstep : write.how.isCompleted = true → disk.bestSeq < U32_MAX := by
      intro hhow
      have hone : completedWrites [write] = 1 := by simp [completedWrites, hhow]
      omega
    refine ⟨Disk.crashSafe_write hdistinct hstep, ih _ (Disk.distinct_write hdistinct hstep) ?_⟩
    rw [Disk.bestSeq_write hdistinct hstep]
    omega

/-- The metadata after an update to slot B. -/
def updated : BootMeta := { BootMeta.default with activeSlot := SLOT_B }

/-- Four writes on a new device; power fails in the second, and the third gives an error. -/
def firstWrites : List Write :=
  [⟨.default, .completed none⟩, ⟨updated, .torn⟩, ⟨updated, .failed false (some updated)⟩,
    ⟨updated, .completed (some updated)⟩]

theorem crashSafe_chain_firstWrites :
    Guarded Disk.writeBootMeta Disk.CrashSafe ⟨none, none, none⟩ firstWrites :=
  crashSafe_chain ⟨none, none, none⟩ (by simp [Disk.Distinct]) firstWrites (by decide)

/-- Two records with the same number, and a record in file A with the last
number. -/
def tiedDisk : Disk := ⟨some ⟨.default, 5⟩, some ⟨updated, 5⟩, none⟩
def lastSeqDisk : Disk := ⟨some ⟨.default, 0xFFFFFFFF⟩, some ⟨.default, 0xFFFFFFFE⟩, none⟩

/-- On a tie a torn write changes what the reader sees, behind the last number
the reader does not see a completed write, and without a record it sees the
metadata of a write that failed. -/
theorem tie_and_saturation :
    (tiedDisk.writeBootMeta ⟨updated, .torn⟩).readBootMeta ≠ tiedDisk.readBootMeta ∧
      (lastSeqDisk.writeBootMeta ⟨updated, .completed (some updated)⟩).readBootMeta ≠ updated ∧
      (Disk.writeBootMeta ⟨none, none, some .default⟩
        ⟨updated, .failed false (some updated)⟩).readBootMeta = updated := by
  decide

/-! ## The files as bytes -/

/-- The three files; none for one that does not exist. -/
structure Files where
  fileA : Option Bytes
  fileB : Option Bytes
  plain : Option Bytes

/-- The bytes that one `vfs_read` of a record buffer returns. -/
def readBuffer (file : Option Bytes) : Bytes := (file.getD []).take OTA_META_RECORD_MAX_BYTES

namespace Files

/-- `fs_read_meta_record`. -/
def readMetaRecord (file : Option Bytes) : Option BootMetaRecord :=
  if (readBuffer file).isEmpty then none else parseBootMetaRecord (readBuffer file)

/-- The fallback of `ota_read_boot_meta`. -/
def readPlain (file : Option Bytes) : Option BootMeta :=
  if (readBuffer file).isEmpty then none else some (parseBootMeta (readBuffer file))

/-- What the reader makes of the files. -/
def disk (files : Files) : Disk :=
  ⟨readMetaRecord files.fileA, readMetaRecord files.fileB, readPlain files.plain⟩

/-- The bytes that a write produces. -/
def newText (files : Files) (boot : BootMeta) : Bytes :=
  serializeBootMetaRecord OTA_META_RECORD_MAX_BYTES (files.disk.newRecord boot)

/-- Replace one of the two record files. -/
def put (files : Files) (slot : UInt8) (bytes : Bytes) : Files :=
  if slot = SLOT_A then { files with fileA := some bytes } else { files with fileB := some bytes }

/-- Power fails when some bytes of the record are written. -/
def writeStopped (files : Files) (boot : BootMeta) (bytes : Nat) : Files :=
  files.put files.disk.target ((files.newText boot).take bytes)

/-- The record is written, and the plain file holds whatever its write left. -/
def writeDone (files : Files) (boot : BootMeta) (plain : Option Bytes) : Files :=
  { files.put files.disk.target (files.newText boot) with plain := plain }

theorem disk_put (files : Files) (slot : UInt8) (bytes : Bytes) :
    (files.put slot bytes).disk = files.disk.put slot (readMetaRecord (some bytes)) := by
  unfold put Disk.put
  split_ifs <;> rfl

section Refinement

variable (files : Files) {boot : BootMeta} (hactive : Representable boot.activeSlot)
  (hgood : Representable boot.lastGood)

include hactive hgood

/-- A beginning of the new record reads as nothing or as the record. -/
theorem readMetaRecord_of_prefix {bytes : Bytes} (h : bytes <+: files.newText boot) :
    readMetaRecord (some bytes) = none ∨
      readMetaRecord (some bytes) = some (files.disk.newRecord boot) := by
  rw [newText, serializeBootMetaRecord_eq (le_refl _)] at h
  unfold readMetaRecord
  split_ifs
  · exact .inl rfl
  · refine parseBootMetaRecord_of_prefix hactive hgood ?_
    exact (List.take_prefix _ _).trans h

/-- A write that power cuts off after any number of bytes is torn, or it is
completed and the plain file is as it was. -/
theorem disk_writeStopped (bytes : Nat) :
    (files.writeStopped boot bytes).disk = files.disk.writeBootMeta ⟨boot, .torn⟩ ∨
      (files.writeStopped boot bytes).disk =
        files.disk.writeBootMeta ⟨boot, .completed files.disk.plain⟩ := by
  rw [writeStopped, disk_put]
  rcases files.readMetaRecord_of_prefix hactive hgood (List.take_prefix bytes _) with he | he <;>
    rw [he]
  · exact .inl rfl
  · refine .inr ?_
    simp only [Disk.writeBootMeta, Disk.put]
    split_ifs <;> rfl

/-- The whole record reads back. -/
theorem readMetaRecord_newText :
    readMetaRecord (some (files.newText boot)) = some (files.disk.newRecord boot) := by
  have hlen := length_recordText_le (files.disk.newRecord boot)
  have hparse : parseBootMetaRecord (recordText (files.disk.newRecord boot)) = _ :=
    parseBootMetaRecord_recordText hactive hgood
  have hbuffer : readBuffer (some (files.newText boot)) =
      recordText (files.disk.newRecord boot) := by
    rw [newText, serializeBootMetaRecord_eq (le_refl _)]
    exact List.take_of_length_le hlen
  unfold readMetaRecord
  rw [hbuffer, hparse, if_neg (by simp [recordText, ascii])]

/-- A write that is not cut off is completed. -/
theorem disk_writeDone (plain : Option Bytes) :
    (files.writeDone boot plain).disk =
      files.disk.writeBootMeta ⟨boot, .completed (readPlain plain)⟩ := by
  have hput := files.disk_put files.disk.target (files.newText boot)
  rw [files.readMetaRecord_newText hactive hgood] at hput
  simp only [Disk.writeBootMeta, ← hput]
  rfl

end Refinement

end Files

/-! ## Chains of file writes -/

/-- How far a write comes: power fails when some bytes of the record are written, or later and
then the plain file holds anything. -/
inductive FileEnd where
  | stopped (bytes : Nat)
  | done (plain : Option Bytes)

/-- A write of metadata that a record can hold. -/
structure FileWrite where
  boot : BootMeta
  active : Representable boot.activeSlot
  good : Representable boot.lastGood
  how : FileEnd

namespace Files

def write (files : Files) (w : FileWrite) : Files :=
  match w.how with
  | .stopped bytes => files.writeStopped w.boot bytes
  | .done plain => files.writeDone w.boot plain

/-- The reader sees the new metadata, or what it saw before if the write was stopped. -/
def Atomic (files : Files) (w : FileWrite) : Prop :=
  (files.write w).disk.readBootMeta = w.boot ∨
    (∃ bytes, w.how = .stopped bytes) ∧
      (files.write w).disk.readBootMeta = files.disk.readBootMeta

/-- A write of the files is one of the disk. -/
theorem disk_write (files : Files) (w : FileWrite) :
    ∃ how, (files.write w).disk = files.disk.writeBootMeta ⟨w.boot, how⟩ ∧
      (how.isCompleted = true ∨ how = .torn ∧ ∃ bytes, w.how = .stopped bytes) := by
  obtain ⟨boot, hactive, hgood, how⟩ := w
  cases how with
  | stopped bytes =>
    obtain h | h := files.disk_writeStopped hactive hgood bytes
    · exact ⟨_, h, .inr ⟨rfl, bytes, rfl⟩⟩
    · exact ⟨_, h, .inl rfl⟩
  | done plain => exact ⟨_, files.disk_writeDone hactive hgood plain, .inl rfl⟩

/-- In a chain of file writes that power cuts off after any number of bytes, each write is
atomic for the reader, when the records start with different numbers that do not run out. -/
theorem atomic_chain (files : Files) (hdistinct : files.disk.Distinct) (writes : List FileWrite)
    (hseq : files.disk.bestSeq + writes.length ≤ U32_MAX) :
    Guarded write Atomic files writes := by
  induction writes generalizing files with
  | nil => trivial
  | cons w writes ih =>
    rw [List.length_cons] at hseq
    obtain ⟨how, hdisk, hend⟩ := files.disk_write w
    have hstep : (Write.mk w.boot how).how.isCompleted = true → files.disk.bestSeq < U32_MAX :=
      fun _ => by omega
    have hcount : completedWrites [⟨w.boot, how⟩] ≤ 1 := List.countP_le_length
    refine ⟨?_, ih _ ?_ ?_⟩
    · have hsafe := Disk.crashSafe_write hdistinct hstep
      rw [Disk.CrashSafe, ← hdisk] at hsafe
      obtain hdone | ⟨rfl, hstopped⟩ := hend
      · cases how with
        | completed plain => exact .inl hsafe
        | torn => cases hdone
        | failed kept plain => cases hdone
      · exact .inr ⟨hstopped, hsafe⟩
    · rw [hdisk]
      exact Disk.distinct_write hdistinct hstep
    · rw [hdisk, Disk.bestSeq_write hdistinct hstep]
      omega

/-- A new device; power fails in the second write. -/
theorem atomic_chain_newDevice :
    Guarded write Atomic ⟨none, none, none⟩
      [⟨.default, .inl rfl, .inl rfl, .done none⟩,
        ⟨updated, .inr (.inl rfl), .inl rfl, .stopped 7⟩] := by
  apply atomic_chain
  · intro ra hra
    cases hra
  · decide

end Files

end RobotOs.Ota
