import RobotOs.Ipc.Cap

/-!
# What a dereference checks of the handle

A handle carries a kind tag, permission bits, a generation and a slot number.  `get`
compares the slot with what the caller asks for: the generation, the kind and the needed
permissions.  It never looks at the kind tag and the permission bits of the handle.
`inspect_raw` looks at the tag.  So a handle with other bits in these two fields passes
`get` as well, and `inspect_raw` refuses it.

`get_checked_iff` says for which handles the two agree: for those whose tag and permission
bits are covered by the slot they hit.
-/

namespace RobotOs.Ipc

open RobotOs.Abi CapTable

/-- The handle that a typed system call makes of its argument. -/
def handleOfWord (capRaw : UInt64) : CapHandle := ⟨capRaw.toUInt32⟩

/-- The handle and its slot have the kind `T`, the permission bits of the handle are among
those of the slot, and `inspect_raw` finds the same resource. -/
structure Checked (table : CapTable) (raw : CapHandle) (T : CapTarget) (resource : UInt32) :
    Prop where
  tag : raw.kind = T.KIND.toRaw
  slot : ∃ i, Names raw i ∧ (table.slots i).kind = T.KIND ∧
    (table.slots i).perms.contains raw.perms = true
  inspect : ∃ kind perms, table.inspectRaw raw = .ok (kind, perms, resource)

/-- The tag and the permission bits of the handle are covered by the slot that it hits. -/
def Covered (table : CapTable) (raw : CapHandle) : Prop :=
  ∀ i, Hits table raw i →
    raw.kind = (table.slots i).kind.toRaw ∧ (table.slots i).perms.contains raw.perms = true

/-- Every kind but the null kind has a marker type. -/
theorem CapTarget.exists_KIND_eq {kind : CapKind} (h : kind ≠ .null) :
    ∃ T : CapTarget, T.KIND = kind := by
  cases kind with
  | null => exact absurd rfl h
  | channel => exact ⟨.channel, rfl⟩
  | shm => exact ⟨.shm, rfl⟩
  | port => exact ⟨.port, rfl⟩
  | irq => exact ⟨.irq, rfl⟩
  | mmioRegion => exact ⟨.mmioRegion, rfl⟩
  | ioRing => exact ⟨.ioRing, rfl⟩
  | sensor => exact ⟨.sensor, rfl⟩
  | gpio => exact ⟨.gpio, rfl⟩
  | i2c => exact ⟨.i2c, rfl⟩
  | pwm => exact ⟨.pwm, rfl⟩
  | motor => exact ⟨.motor, rfl⟩
  | file => exact ⟨.file, rfl⟩
  | socket => exact ⟨.socket, rfl⟩
  | task => exact ⟨.task, rfl⟩
  | aiSession => exact ⟨.aiSession, rfl⟩

/-- A handle that hits a slot passes a `get` that asks for nothing. -/
theorem get_of_hits {table : CapTable} {raw : CapHandle} {i : Fin MAX_CAPS_PER_TASK}
    (h : Hits table raw i) {T : CapTarget} (hkind : (table.slots i).kind = T.KIND) :
    table.get 0 (Cap.fromRaw raw : Cap T) .NONE = .ok (table.slots i).resource := by
  refine get_eq_ok_iff.mpr ⟨i, h, hkind, ?_, rfl, rfl⟩
  rw [CapPerms.contains_iff]
  exact UInt8.and_zero

theorem checked_of_covered {table : CapTable} {raw : CapHandle} (h : Covered table raw)
    {T : CapTarget} {level : UInt8} {need : CapPerms} {resource : UInt32}
    (hget : table.get level (Cap.fromRaw raw : Cap T) need = .ok resource) :
    Checked table raw T resource := by
  obtain ⟨i, hhits, hkind, -, -, rfl⟩ := get_eq_ok_iff.mp hget
  obtain ⟨htag, hperms⟩ := h i hhits
  refine ⟨?_, ⟨i, hhits.names, hkind, hperms⟩, _, _, inspectRaw_eq_ok_iff.mpr ⟨i, hhits, ?_, rfl⟩⟩
  · rw [htag, hkind]
  · exact htag.symm

/-- Every dereference of the word that succeeds has checked the whole handle exactly when
the handle is covered by the slot that it hits. -/
theorem get_checked_iff (table : CapTable) (capRaw : UInt64) :
    (∀ (T : CapTarget) (level : UInt8) (need : CapPerms) (resource : UInt32),
      table.get level (Cap.fromRaw (handleOfWord capRaw) : Cap T) need = .ok resource →
        Checked table (handleOfWord capRaw) T resource) ↔
      Covered table (handleOfWord capRaw) := by
  constructor
  · intro h i hhits
    have hlive : (table.slots i).kind ≠ .null := by
      simpa [CapSlot.isOccupied] using hhits.occupied
    obtain ⟨T, hT⟩ := CapTarget.exists_KIND_eq hlive
    obtain ⟨htag, ⟨j, hnames, -, hperms⟩, -⟩ := h T 0 .NONE _ (get_of_hits hhits hT.symm)
    rw [hnames.unique hhits.names] at hperms
    exact ⟨by rw [htag, hT], hperms⟩
  · intro h T level need resource hget
    exact checked_of_covered h hget

/-- A word with the tag of shared memory and all permission bits, for slot 0 in its first
generation. -/
def forgedWord : UInt64 := 0x2F010000

/-- A task is granted the reading of channel 7.  The forged word passes as a channel
handle.  Its tag is the one of shared memory, it claims permissions that the slot does not
have, and `inspect_raw` refuses it. -/
theorem forged_handle_dereferenced :
    ∃ table raw, CapTable.empty.grantRaw .channel .READ 7 = some (table, raw) ∧
      table.get 0 (Cap.fromRaw (handleOfWord forgedWord) : Cap .channel) .READ = .ok 7 ∧
      (handleOfWord forgedWord).kind ≠ CapTarget.channel.KIND.toRaw ∧
      CapPerms.READ.contains (handleOfWord forgedWord).perms = false ∧
      table.inspectRaw (handleOfWord forgedWord) = .error .wrongKind := by
  refine ⟨_, _, rfl, ?_, ?_, ?_, ?_⟩
  · rfl
  · decide
  · decide
  · rfl

end RobotOs.Ipc
