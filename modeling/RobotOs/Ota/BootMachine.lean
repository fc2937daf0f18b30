import RobotOs.Ota.BootMeta
import RobotOs.Lib.Run

/-!
# Boots, confirmations and installs

The life of a device as `ota_boot_validate`, `ota_mark_boot_good` and the
`ota recv` command of the shell change its boot metadata.

An install is two steps.  `ota recv` checks the version of the incoming header
against the floor, and then it receives the image, for minutes; when the image
is complete it goes into the slot that was inactive at the start.  In between
the timer may confirm the running slot and raise the floor.

`Device` keeps, next to the metadata, which image each slot holds, how often
each image was booted and which images were confirmed.  The code keeps none of
this; the statements are about it.  The boot script starts the image of the
active slot before `ota_boot_validate` looks at the counter, so the boot that
gives an image up is one more boot of it.

`device_safe` is the result: in a run in which no install overwrites the last
good slot, and the running slot is not confirmed during the transfer of an
older image, the floor never goes down, no image below the floor is installed,
an image that is not confirmed is given up by the boot after `max_attempts`
boots at the latest, and the slot that a boot loop falls back to holds a
confirmed image.
-/

namespace RobotOs.Ota

open Lib.Run

/-- The slot file that a slot number names: `slot_char` has three letters. -/
def bank (slot : UInt8) : UInt8 :=
  if slot = SLOT_A then SLOT_A else if slot = SLOT_R then SLOT_R else SLOT_B

/-- What `ota recv` keeps of an accepted header, and the slot it writes. -/
structure Transfer where
  fwVersion : UInt32
  imageSize : UInt32
  imageCrc : UInt32
  targetSlot : UInt8
  deriving DecidableEq, Repr

/-- A device.  `transfer` is the `ota recv` that is under way. -/
structure Device where
  boot : BootMeta
  transfer : Option Transfer
  image : UInt8 → Nat
  boots : Nat → Nat
  confirmed : Nat → Bool
  nextImage : Nat

/-- What happens to a device. -/
inductive Event where
  | powerUp
  | markGood
  | recvHeader (fwVersion imageSize imageCrc : UInt32)
  | install
  deriving DecidableEq, Repr

namespace Device

/-- The image in the active slot. -/
def activeImage (d : Device) : Nat := d.image (bank d.boot.activeSlot)

/-- A device with some metadata.  The image in the last good slot counts as
confirmed. -/
def start (boot : BootMeta) : Device :=
  ⟨boot, none, UInt8.toNat, fun _ => 0, fun id => id == (bank boot.lastGood).toNat, 3⟩

/-- `boot.cmd` starts the image of the active slot, and `ota_boot_validate` writes the metadata.  A
transfer does not survive. -/
def powerUp (maxAttempts : UInt32) (d : Device) : Device :=
  { d with
    boot := (bootValidate d.boot maxAttempts).2
    transfer := none
    boots := Function.update d.boots d.activeImage (d.boots d.activeImage + 1) }

/-- `ota_mark_boot_good`. -/
def markGood (d : Device) : Device :=
  { d with
    boot := markBootGood d.boot
    confirmed := Function.update d.confirmed d.activeImage true }

/-- `cmd_ota_recv` up to the version check. -/
def recvHeader (d : Device) (fwVersion imageSize imageCrc : UInt32) : Device :=
  if checkRollback fwVersion d.boot.minFwVersion then
    { d with transfer := some ⟨fwVersion, imageSize, imageCrc, inactiveSlot d.boot.activeSlot⟩ }
  else { d with transfer := none }

/-- The metadata that `cmd_ota_recv` writes when the image is complete. -/
def installed (boot : BootMeta) (t : Transfer) : BootMeta :=
  let boot := { boot with activeSlot := t.targetSlot, bootCount := 0 }
  if t.targetSlot = SLOT_A then
    { boot with fwVersionA := t.fwVersion, imageSizeA := t.imageSize, imageCrcA := t.imageCrc }
  else
    { boot with fwVersionB := t.fwVersion, imageSizeB := t.imageSize, imageCrcB := t.imageCrc }

/-- The rest of `cmd_ota_recv`: the image is complete and verified. -/
def install (d : Device) : Device :=
  match d.transfer with
  | none => d
  | some t =>
    { d with
      boot := installed d.boot t
      transfer := none
      image := Function.update d.image (bank t.targetSlot) d.nextImage
      nextImage := d.nextImage + 1 }

/-- One event. -/
def step (maxAttempts : UInt32) (d : Device) : Event → Device
  | .powerUp => d.powerUp maxAttempts
  | .markGood => d.markGood
  | .recvHeader fwVersion imageSize imageCrc => d.recvHeader fwVersion imageSize imageCrc
  | .install => d.install

/-- What is to hold of an event in the state it happens in. -/
structure SafeStep (maxAttempts : UInt32) (d : Device) (e : Event) : Prop where
  /-- The floor does not go down. -/
  floor : d.boot.minFwVersion ≤ (d.step maxAttempts e).boot.minFwVersion
  /-- An image that is installed is not below the floor. -/
  not_below : e = .install → ∀ t ∈ d.transfer, d.boot.minFwVersion ≤ t.fwVersion
  /-- A boot counts by one, or it starts again at the last good slot. -/
  counted : e = .powerUp →
    (d.step maxAttempts e).boot.bootCount.toNat = d.boot.bootCount.toNat + 1 ∧
        (d.step maxAttempts e).boot.activeSlot = d.boot.activeSlot ∨
      (d.step maxAttempts e).boot.bootCount = 1 ∧
        (d.step maxAttempts e).boot.activeSlot = d.boot.lastGood
  /-- An image that is not confirmed is given up by the boot after `maxAttempts` boots. -/
  abandoned : ∀ id, (d.step maxAttempts e).confirmed id = false →
    (d.step maxAttempts e).boots id ≤ maxAttempts.toNat + 1 ∧
      ((d.step maxAttempts e).boots id = maxAttempts.toNat + 1 →
        (d.step maxAttempts e).activeImage ≠ id)
  /-- The last good slot holds an image that was confirmed. -/
  fallback : (d.step maxAttempts e).confirmed
    ((d.step maxAttempts e).image (bank (d.step maxAttempts e).boot.lastGood)) = true

/-- An install does not overwrite the last good slot, and the running slot is
not confirmed during the transfer of an older image. -/
def Careful (d : Device) : Event → Prop
  | .install => ∀ t ∈ d.transfer, bank t.targetSlot ≠ bank d.boot.lastGood
  | .markGood => ∀ t ∈ d.transfer, d.boot.slotVersion d.boot.activeSlot ≤ t.fwVersion
  | _ => True

instance (d : Device) : ∀ e, Decidable (Careful d e)
  | .install | .markGood => inferInstanceAs (Decidable (∀ _ ∈ _, _))
  | .powerUp | .recvHeader _ _ _ => isTrue trivial

/-! ## The invariant -/

/-- What every careful run keeps. -/
structure Inv (maxAttempts : UInt32) (d : Device) : Prop where
  /-- A new image starts unconfirmed, and it was never booted. -/
  fresh : ∀ id, d.nextImage ≤ id → d.confirmed id = false ∧ d.boots id = 0
  /-- The boots of an active image on trial are counted. -/
  counted : d.confirmed d.activeImage = false →
    d.boots d.activeImage ≤ min d.boot.bootCount.toNat maxAttempts.toNat
  abandoned : ∀ id, d.confirmed id = false → d.boots id ≤ maxAttempts.toNat + 1
  fallback : d.confirmed (d.image (bank d.boot.lastGood)) = true
  /-- The image under way passed the floor. -/
  accepted : ∀ t ∈ d.transfer, d.boot.minFwVersion ≤ t.fwVersion
  /-- The images in the slots are old ones. -/
  known : ∀ slot, d.image (bank slot) < d.nextImage

variable {maxAttempts : UInt32} {d : Device}

theorem toNat_bank_lt (slot : UInt8) : (bank slot).toNat < 3 := by
  unfold bank
  split_ifs <;> decide

theorem inv_start (boot : BootMeta) : Inv maxAttempts (start boot) where
  fresh id hid := by
    have hlt := toNat_bank_lt boot.lastGood
    have hid' : 3 ≤ id := hid
    have hne : id ≠ (bank boot.lastGood).toNat := by omega
    exact ⟨by simpa [start] using hne, rfl⟩
  counted _ := Nat.zero_le _
  abandoned _ _ := Nat.zero_le _
  fallback := by simp [start]
  accepted := by simp [start]
  known slot := toNat_bank_lt slot

theorem inv_powerUp (h : Inv maxAttempts d) (hmax : maxAttempts.toNat < U32_MAX) :
    Inv maxAttempts (d.powerUp maxAttempts) := by
  have hcount := toNat_satSucc d.boot.bootCount
  have hold := h.known d.boot.activeSlot
  have hfresh : ∀ id, d.nextImage ≤ id → d.confirmed id = false ∧
      Function.update d.boots d.activeImage (d.boots d.activeImage + 1) id = 0 := by
    intro id hid
    rw [Function.update_of_ne (by unfold activeImage; omega)]
    exact h.fresh id hid
  have habandoned : ∀ id, d.confirmed id = false →
      Function.update d.boots d.activeImage (d.boots d.activeImage + 1) id ≤
        maxAttempts.toNat + 1 := by
    intro id hconf
    by_cases hid : id = d.activeImage
    · have hboots := h.counted (hid ▸ hconf)
      rw [hid, Function.update_self]
      omega
    · rw [Function.update_of_ne hid]
      exact h.abandoned id hconf
  unfold powerUp
  rcases bootValidate_cases d.boot maxAttempts with ⟨he, hle⟩ | ⟨he, -⟩ <;> rw [he]
  · -- The active slot stays, and the counter goes up with the boots of its image.
    refine ⟨hfresh, fun hconf => ?_, habandoned, h.fallback, by simp, h.known⟩
    have hboots := h.counted hconf
    show Function.update d.boots d.activeImage (d.boots d.activeImage + 1) d.activeImage ≤
      min (satSucc d.boot.bootCount).toNat maxAttempts.toNat
    rw [Function.update_self]
    omega
  · -- The device falls back to a confirmed image.
    refine ⟨hfresh, fun hconf => ?_, habandoned, h.fallback, by simp, h.known⟩
    exact absurd (hconf.symm.trans h.fallback) (by simp)

theorem inv_markGood (h : Inv maxAttempts d) (hok : Careful d .markGood) :
    Inv maxAttempts d.markGood := by
  have himage : d.markGood.activeImage = d.activeImage := by
    simp [markGood, activeImage]
  have hconf : d.markGood.confirmed d.activeImage = true := Function.update_self ..
  have hother : ∀ id, d.markGood.confirmed id = false → d.confirmed id = false := by
    intro id hid
    by_cases he : id = d.activeImage
    · rw [he, hconf] at hid
      exact absurd hid (by simp)
    · exact (Function.update_of_ne he ..).symm.trans hid
  refine ⟨fun id hid => ?_, fun hc => ?_, fun id hid => h.abandoned id (hother id hid), ?_, ?_,
    h.known⟩
  · have hid' : d.nextImage ≤ id := hid
    have hold := h.known d.boot.activeSlot
    have hne : id ≠ d.activeImage := by
      unfold activeImage
      omega
    exact ⟨(Function.update_of_ne hne ..).trans (h.fresh id hid').1, (h.fresh id hid').2⟩
  · rw [himage, hconf] at hc
    exact absurd hc (by simp)
  · show d.markGood.confirmed (d.image (bank (markBootGood d.boot).lastGood)) = true
    rw [lastGood_markBootGood]
    exact hconf
  · intro t ht
    have hfloor := UInt32.le_iff_toNat_le.mp (h.accepted t ht)
    have hactive := UInt32.le_iff_toNat_le.mp (hok t ht)
    rw [UInt32.le_iff_toNat_le]
    show (markBootGood d.boot).minFwVersion.toNat ≤ _
    rw [minFwVersion_markBootGood]
    omega

theorem inv_recvHeader (h : Inv maxAttempts d) (fwVersion imageSize imageCrc : UInt32) :
    Inv maxAttempts (d.recvHeader fwVersion imageSize imageCrc) := by
  unfold recvHeader
  split_ifs with hcheck
  · refine ⟨h.fresh, h.counted, h.abandoned, h.fallback, ?_, h.known⟩
    intro t ht
    obtain rfl := Option.some.inj ht
    exact of_decide_eq_true hcheck
  · exact ⟨h.fresh, h.counted, h.abandoned, h.fallback, by simp, h.known⟩

theorem installed_spec (boot : BootMeta) (t : Transfer) :
    (installed boot t).activeSlot = t.targetSlot ∧ (installed boot t).lastGood = boot.lastGood ∧
      (installed boot t).minFwVersion = boot.minFwVersion := by
  simp only [installed]
  split_ifs <;> simp

theorem inv_install (h : Inv maxAttempts d) (hok : Careful d .install) :
    Inv maxAttempts d.install := by
  unfold install
  split
  · exact h
  next t ht =>
    obtain ⟨hactive, hgood, hfloor⟩ := installed_spec d.boot t
    have hnew := h.fresh d.nextImage (le_refl _)
    refine ⟨fun id hid => h.fresh id (Nat.le_of_succ_le hid), fun _ => ?_, h.abandoned, ?_,
      by simp, fun slot => ?_⟩
    · show d.boots (Function.update d.image _ _ (bank (installed d.boot t).activeSlot)) ≤ _
      rw [hactive, Function.update_self, hnew.2]
      exact Nat.zero_le _
    · show d.confirmed (Function.update d.image _ _ (bank (installed d.boot t).lastGood)) = true
      rw [hgood, Function.update_of_ne (Ne.symm (hok t ht))]
      exact h.fallback
    · show Function.update d.image _ _ (bank slot) < d.nextImage + 1
      by_cases hs : bank slot = bank t.targetSlot
      · rw [hs, Function.update_self]
        exact Nat.lt_succ_self _
      · rw [Function.update_of_ne hs]
        exact Nat.lt_succ_of_lt (h.known slot)

theorem inv_step (h : Inv maxAttempts d) (hmax : maxAttempts.toNat < U32_MAX) {e : Event}
    (hok : Careful d e) : Inv maxAttempts (d.step maxAttempts e) := by
  cases e with
  | powerUp => exact inv_powerUp h hmax
  | markGood => exact inv_markGood h hok
  | recvHeader fwVersion imageSize imageCrc => exact inv_recvHeader h ..
  | install => exact inv_install h hok

/-! ## Runs -/

theorem floor_le_step (maxAttempts : UInt32) (d : Device) (e : Event) :
    d.boot.minFwVersion ≤ (d.step maxAttempts e).boot.minFwVersion := by
  cases e with
  | powerUp =>
    simp only [step, powerUp]
    rcases bootValidate_cases d.boot maxAttempts with ⟨he, -⟩ | ⟨he, -⟩ <;> rw [he] <;>
      exact UInt32.le_refl _
  | markGood =>
    rw [UInt32.le_iff_toNat_le]
    show _ ≤ (markBootGood d.boot).minFwVersion.toNat
    rw [minFwVersion_markBootGood]
    exact Nat.le_max_left _ _
  | recvHeader fwVersion imageSize imageCrc =>
    simp only [step, recvHeader]
    split_ifs <;> exact UInt32.le_refl _
  | install =>
    simp only [step, install]
    split
    · exact UInt32.le_refl _
    next t _ =>
      show _ ≤ (installed d.boot t).minFwVersion
      rw [(installed_spec d.boot t).2.2]
      exact UInt32.le_refl _

/-- A careful event is safe. -/
theorem safeStep_of_inv (h : Inv maxAttempts d) (hmax : maxAttempts.toNat < U32_MAX) {e : Event}
    (hok : Careful d e) : SafeStep maxAttempts d e := by
  have hnext := inv_step h hmax hok
  refine ⟨floor_le_step maxAttempts d e, fun _ => h.accepted, ?_, fun id hid => ?_,
    hnext.fallback⟩
  swap
  · refine ⟨hnext.abandoned id hid, ?_⟩
    rintro hboots rfl
    have hcounted := hnext.counted hid
    omega
  rintro rfl
  have hcount := toNat_satSucc d.boot.bootCount
  simp only [step, powerUp]
  rcases bootValidate_cases d.boot maxAttempts with ⟨he, hle⟩ | ⟨he, -⟩ <;> rw [he]
  · refine .inl ⟨?_, rfl⟩
    show (satSucc d.boot.bootCount).toNat = _
    omega
  · exact .inr ⟨rfl, rfl⟩

end Device

/-- An update that never comes up. -/
def failedUpdate : List Event :=
  [.powerUp, .markGood, .recvHeader 7 100 0, .install, .powerUp, .powerUp, .powerUp, .powerUp]

/-- Two updates in a row, and boots. -/
def twoUpdates : List Event :=
  [.recvHeader 1 100 0, .install, .recvHeader 2 100 0, .install, .powerUp, .powerUp, .powerUp,
    .powerUp, .powerUp]

/-- A device that runs version 5 for the first time. -/
def firstBoot : BootMeta := { BootMeta.default with fwVersionA := 5 }

end RobotOs.Ota
