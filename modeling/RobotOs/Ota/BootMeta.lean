import Mathlib.Tactic

/-!
# Boot metadata

The slot bookkeeping of `crates/ota/src/pure.rs`: which kernel image boots, how
often it was tried, and the lowest firmware version that may be installed.

`boot_validate` counts a boot and falls back to the last good slot when there
were too many; `mark_good` confirms the running slot and raises the version
floor.  Nothing here touches a file.
-/

namespace RobotOs.Ota

def SLOT_A : UInt8 := 0
def SLOT_B : UInt8 := 1
def SLOT_R : UInt8 := 2

/-- `u32::MAX`. -/
def U32_MAX : Nat := 2 ^ 32 - 1

/-- `saturating_add(1)`. -/
def satSucc (x : UInt32) : UInt32 := if x.toNat < U32_MAX then x + 1 else x

theorem toNat_satSucc (x : UInt32) : (satSucc x).toNat = min (x.toNat + 1) U32_MAX := by
  have hlt := x.toNat_lt
  unfold satSucc
  split_ifs with h
  · rw [UInt32.toNat_add, show (1 : UInt32).toNat = 1 from rfl]
    unfold U32_MAX at h ⊢
    omega
  · unfold U32_MAX at h ⊢
    omega

/-- `BootMeta`. -/
structure BootMeta where
  activeSlot : UInt8
  bootCount : UInt32
  lastGood : UInt8
  fwVersionA : UInt32
  fwVersionB : UInt32
  fwVersionR : UInt32
  imageSizeA : UInt32
  imageSizeB : UInt32
  imageSizeR : UInt32
  imageCrcA : UInt32
  imageCrcB : UInt32
  imageCrcR : UInt32
  minFwVersion : UInt32
  deriving DecidableEq, Repr

namespace BootMeta

/-- `BootMeta::default`. -/
def default : BootMeta := ⟨SLOT_A, 0, SLOT_A, 0, 0, 0, 0, 0, 0, 0, 0, 0, 0⟩

/-- `slot_version`. -/
def slotVersion (boot : BootMeta) (slot : UInt8) : UInt32 :=
  if slot = SLOT_A then boot.fwVersionA
  else if slot = SLOT_R then boot.fwVersionR
  else boot.fwVersionB

end BootMeta

/-- `ota_inactive_slot_pure`. -/
def inactiveSlot (active : UInt8) : UInt8 := if active = SLOT_A then SLOT_B else SLOT_A

/-- `BootValidateOutcome`. -/
inductive BootValidateOutcome where
  | normal | rolledBack
  deriving DecidableEq, Repr

/-- `ota_boot_validate_pure`. -/
def bootValidate (boot : BootMeta) (maxAttempts : UInt32) : BootValidateOutcome × BootMeta :=
  let boot := { boot with bootCount := satSucc boot.bootCount }
  if boot.bootCount > maxAttempts then
    (.rolledBack, { boot with activeSlot := boot.lastGood, bootCount := 1 })
  else (.normal, boot)

/-- `ota_mark_boot_good_pure`. -/
def markBootGood (boot : BootMeta) : BootMeta :=
  let boot := { boot with bootCount := 0, lastGood := boot.activeSlot }
  let activeVer := boot.slotVersion boot.activeSlot
  if activeVer > boot.minFwVersion then { boot with minFwVersion := activeVer } else boot

/-- `ota_check_rollback_pure`. -/
def checkRollback (incomingVersion minFwVersion : UInt32) : Bool :=
  incomingVersion ≥ minFwVersion

/-- `BootMetaRecord`. -/
structure BootMetaRecord where
  boot : BootMeta
  seq : UInt32
  deriving DecidableEq, Repr

/-! ## What the operations do -/

/-- A boot keeps the slot and counts, or it goes back to the last good slot. -/
theorem bootValidate_cases (boot : BootMeta) (maxAttempts : UInt32) :
    (bootValidate boot maxAttempts = (.normal, { boot with bootCount := satSucc boot.bootCount }) ∧
        (satSucc boot.bootCount).toNat ≤ maxAttempts.toNat) ∨
      (bootValidate boot maxAttempts =
          (.rolledBack, { boot with activeSlot := boot.lastGood, bootCount := 1 }) ∧
        maxAttempts.toNat < (satSucc boot.bootCount).toNat) := by
  simp only [bootValidate, gt_iff_lt, UInt32.lt_iff_toNat_lt]
  split_ifs with h
  · exact .inr ⟨rfl, h⟩
  · exact .inl ⟨rfl, Nat.le_of_not_lt h⟩

/-- The floor after a slot is confirmed. -/
theorem minFwVersion_markBootGood (boot : BootMeta) :
    (markBootGood boot).minFwVersion.toNat =
      max boot.minFwVersion.toNat (boot.slotVersion boot.activeSlot).toNat := by
  simp only [markBootGood, BootMeta.slotVersion, gt_iff_lt, UInt32.lt_iff_toNat_lt]
  split_ifs <;> simp only <;> omega

@[simp] theorem activeSlot_markBootGood (boot : BootMeta) :
    (markBootGood boot).activeSlot = boot.activeSlot := by
  simp only [markBootGood]
  split_ifs <;> rfl

@[simp] theorem lastGood_markBootGood (boot : BootMeta) :
    (markBootGood boot).lastGood = boot.activeSlot := by
  simp only [markBootGood]
  split_ifs <;> rfl

end RobotOs.Ota
