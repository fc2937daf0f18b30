import RobotOs.Abi.Cap
import RobotOs.DegradePolicy

/-!
# The per-task capability table

`crates/ipc/src/cap.rs`.  A table has 256 slots.  A slot is free exactly
when its kind is `null`, and its generation counter survives a revocation.

The first half is the code: `grantRaw`, `inspectRaw`, `get`, `revoke` and
the scans.  The second half says once what each of them can do.  Later
modules use `grantRaw_eq_some_iff`, `inspectRaw_eq_ok_iff`, `get_eq_ok_iff`
and `slots_revoke_cases` and never unfold the functions again.
-/

namespace RobotOs.Ipc

open RobotOs.Abi RobotOs.DegradePolicy

/-! ## Typed handles -/

/-- The marker types of `cap::targets`.  There is no marker for
`CapKind.null`. -/
inductive CapTarget where
  | channel | shm | port | irq | mmioRegion | ioRing | sensor | gpio
  | i2c | pwm | motor | file | socket | task | aiSession
  deriving DecidableEq, Repr

/-- `CapTarget::KIND`. -/
def CapTarget.KIND : CapTarget → CapKind
  | channel => .channel
  | shm => .shm
  | port => .port
  | irq => .irq
  | mmioRegion => .mmioRegion
  | ioRing => .ioRing
  | sensor => .sensor
  | gpio => .gpio
  | i2c => .i2c
  | pwm => .pwm
  | motor => .motor
  | file => .file
  | socket => .socket
  | task => .task
  | aiSession => .aiSession

@[simp] theorem CapTarget.KIND_ne_null (T : CapTarget) : T.KIND ≠ .null := by
  cases T <;> decide

/-- `Cap<T>`: a handle with the kind that its user expects. -/
structure Cap (T : CapTarget) where
  raw : CapHandle
  deriving DecidableEq

/-- `Cap::from_raw`.  No check happens here. -/
def Cap.fromRaw {T : CapTarget} (raw : CapHandle) : Cap T := ⟨raw⟩

/-- `CapError`: why a table refused a handle. -/
inductive CapError where
  | stale | wrongKind | missingPerms | contained
  deriving DecidableEq, Repr

/-! ## The table -/

def MAX_CAPS_PER_TASK : Nat := 256

/-- `CapSlot`. -/
structure CapSlot where
  kind : CapKind
  perms : CapPerms
  generation : UInt8
  resource : UInt32
  deriving DecidableEq

/-- `CapSlot::EMPTY`: a slot that was never granted. -/
def CapSlot.EMPTY : CapSlot := ⟨.null, .NONE, 0, 0⟩

/-- `is_occupied`. -/
def CapSlot.isOccupied (slot : CapSlot) : Bool := slot.kind != .null

/-- `CapTable`. -/
structure CapTable where
  slots : Fin MAX_CAPS_PER_TASK → CapSlot

namespace CapTable

/-- `CapTable::empty`. -/
def empty : CapTable := ⟨fun _ => CapSlot.EMPTY⟩

/-- `self.slots[i] = slot`. -/
def set (table : CapTable) (i : Fin MAX_CAPS_PER_TASK) (slot : CapSlot) : CapTable :=
  ⟨Function.update table.slots i slot⟩

/-- `allocate_slot`: the first free slot. -/
def allocateSlot (table : CapTable) : Option (Fin MAX_CAPS_PER_TASK) :=
  (List.finRange MAX_CAPS_PER_TASK).find? fun i => !(table.slots i).isOccupied

/-- `u8::checked_add(1)`. -/
def checkedSucc (g : UInt8) : Option UInt8 :=
  if g.toNat + 1 < 256 then some (g + 1) else none

/-- `bump_generation`: the next counter value, which skips `0`. -/
def bumpGeneration (table : CapTable) (i : Fin MAX_CAPS_PER_TASK) : UInt8 :=
  match checkedSucc (table.slots i).generation with
  | some n => if n ≠ 0 then n else 1
  | none => 1

/-- `grant_raw`: fill the first free slot and pack its handle.  `none` means
that the table did not change. -/
def grantRaw (table : CapTable) (kind : CapKind) (perms : CapPerms)
    (resource : UInt32) : Option (CapTable × CapHandle) :=
  if kind = .null then none
  else
    match table.allocateSlot with
    | none => none
    | some i =>
      let nextGen := table.bumpGeneration i
      some (table.set i ⟨kind, perms, nextGen, resource⟩,
        CapHandle.pack kind perms nextGen (UInt16.ofNat i.val))

/-- `grant`: the typed grant, through `grant_raw`. -/
def grant (table : CapTable) (T : CapTarget) (perms : CapPerms)
    (resource : UInt32) : Option (CapTable × Cap T) :=
  (table.grantRaw T.KIND perms resource).map fun (table', raw) => (table', Cap.fromRaw raw)

/-- `inspect_raw`: what the slot named by the handle holds. -/
def inspectRaw (table : CapTable) (raw : CapHandle) :
    Except CapError (CapKind × CapPerms × UInt32) :=
  if raw.isNull then .error .stale
  else if h : raw.slot.toNat < MAX_CAPS_PER_TASK then
    let slot := table.slots ⟨raw.slot.toNat, h⟩
    if !slot.isOccupied then .error .stale
    else if slot.generation ≠ raw.generation then .error .stale
    else if slot.kind.toRaw ≠ raw.kind then .error .wrongKind
    else .ok (slot.kind, slot.perms, slot.resource)
  else .error .stale

/-- `get`: the checked dereference.  `level` is the global degrade level. -/
def get {T : CapTarget} (table : CapTable) (level : UInt8) (cap : Cap T)
    (need : CapPerms) : Except CapError UInt32 :=
  if cap.raw.isNull then .error .stale
  else if h : cap.raw.slot.toNat < MAX_CAPS_PER_TASK then
    let slot := table.slots ⟨cap.raw.slot.toNat, h⟩
    if !slot.isOccupied then .error .stale
    else if slot.generation ≠ cap.raw.generation then .error .stale
    else if slot.kind ≠ T.KIND then .error .wrongKind
    else if !slot.perms.contains need then .error .missingPerms
    else if need.contains .WRITE && degradedActive level then .error .contained
    else .ok slot.resource
  else .error .stale

/-- What `revoke` leaves in a slot: the generation stays. -/
def clearSlot (slot : CapSlot) : CapSlot := ⟨.null, .NONE, slot.generation, 0⟩

/-- `revoke`.  The kind of the handle is not compared. -/
def revoke {T : CapTarget} (table : CapTable) (cap : Cap T) : CapTable :=
  if cap.raw.isNull then table
  else if h : cap.raw.slot.toNat < MAX_CAPS_PER_TASK then
    let i : Fin MAX_CAPS_PER_TASK := ⟨cap.raw.slot.toNat, h⟩
    if (table.slots i).isOccupied && (table.slots i).generation == cap.raw.generation then
      table.set i (clearSlot (table.slots i))
    else table
  else table

/-- `occupied`: the number of occupied slots. -/
def occupied (table : CapTable) : Nat :=
  (List.finRange MAX_CAPS_PER_TASK).countP fun i => (table.slots i).isOccupied

/-! ## Slots and updates -/

@[simp] theorem slots_empty (i : Fin MAX_CAPS_PER_TASK) :
    empty.slots i = CapSlot.EMPTY := rfl

@[simp] theorem isOccupied_EMPTY : CapSlot.EMPTY.isOccupied = false := rfl

@[simp] theorem isOccupied_clearSlot (slot : CapSlot) :
    (clearSlot slot).isOccupied = false := rfl

@[simp] theorem generation_clearSlot (slot : CapSlot) :
    (clearSlot slot).generation = slot.generation := rfl

@[simp] theorem slots_set_self (table : CapTable) (i : Fin MAX_CAPS_PER_TASK)
    (slot : CapSlot) : (table.set i slot).slots i = slot := by
  simp [set]

theorem slots_set_of_ne (table : CapTable) {i j : Fin MAX_CAPS_PER_TASK}
    (slot : CapSlot) (h : j ≠ i) : (table.set i slot).slots j = table.slots j := by
  simp [set, h]

/-- The slot that `allocate_slot` picks is free. -/
theorem isOccupied_of_allocateSlot {table : CapTable} {i : Fin MAX_CAPS_PER_TASK}
    (h : table.allocateSlot = some i) : (table.slots i).isOccupied = false := by
  simpa using List.find?_some h

/-- The counter never reaches `0` by a bump. -/
theorem bumpGeneration_ne_zero (table : CapTable) (i : Fin MAX_CAPS_PER_TASK) :
    table.bumpGeneration i ≠ 0 := by
  unfold bumpGeneration
  split
  · split_ifs with h
    · exact h
    · decide
  · decide

/-! ## What each operation can do -/

/-- `grant_raw` succeeds exactly for a real kind and a free slot, and then
writes that slot alone. -/
theorem grantRaw_eq_some_iff {table table' : CapTable} {kind : CapKind}
    {perms : CapPerms} {resource : UInt32} {raw : CapHandle} :
    table.grantRaw kind perms resource = some (table', raw) ↔
      kind ≠ .null ∧ ∃ i, table.allocateSlot = some i ∧
        table' = table.set i ⟨kind, perms, table.bumpGeneration i, resource⟩ ∧
        raw = CapHandle.pack kind perms (table.bumpGeneration i) (UInt16.ofNat i.val) := by
  unfold grantRaw
  by_cases hk : kind = .null
  · simp [hk]
  · cases ha : table.allocateSlot with
    | none => simp [hk]
    | some i => simp [hk, eq_comm]

/-- The slot that a handle names, when it names one in range. -/
def Names (raw : CapHandle) (i : Fin MAX_CAPS_PER_TASK) : Prop :=
  raw.isNull = false ∧ raw.slot.toNat = i.val

/-- The handle names slot `i`, and the slot is occupied at the handle's
generation. -/
structure Hits (table : CapTable) (raw : CapHandle) (i : Fin MAX_CAPS_PER_TASK) :
    Prop where
  names : Names raw i
  occupied : (table.slots i).isOccupied = true
  generation : (table.slots i).generation = raw.generation

/-- A handle names at most one slot. -/
theorem Names.unique {raw : CapHandle} {i j : Fin MAX_CAPS_PER_TASK}
    (hi : Names raw i) (hj : Names raw j) : i = j :=
  Fin.ext (hi.2.symm.trans hj.2)

/-- `inspect_raw` accepts a handle exactly when it hits a slot of its own
kind, and reports that slot. -/
theorem inspectRaw_eq_ok_iff {table : CapTable} {raw : CapHandle}
    {info : CapKind × CapPerms × UInt32} :
    table.inspectRaw raw = .ok info ↔
      ∃ i, Hits table raw i ∧ (table.slots i).kind.toRaw = raw.kind ∧
        info = ((table.slots i).kind, (table.slots i).perms, (table.slots i).resource) := by
  constructor
  · intro h
    simp only [inspectRaw] at h
    split_ifs at h with hnull hlt hocc hgen hkind
    refine ⟨⟨raw.slot.toNat, hlt⟩, ⟨⟨by simpa using hnull, rfl⟩, by simpa using hocc,
      by simpa using hgen⟩, by simpa using hkind, ?_⟩
    simpa using h.symm
  · rintro ⟨i, ⟨⟨hnull, hslot⟩, hocc, hgen⟩, hkind, rfl⟩
    have hlt : raw.slot.toNat < MAX_CAPS_PER_TASK := hslot ▸ i.isLt
    have hi : (⟨raw.slot.toNat, hlt⟩ : Fin MAX_CAPS_PER_TASK) = i := Fin.ext hslot
    simp [inspectRaw, hnull, hlt, hi, hocc, hgen, hkind]

/-- `get` accepts a handle exactly when it hits a slot of the expected kind
with the needed permissions and containment does not deny the use. -/
theorem get_eq_ok_iff {T : CapTarget} {table : CapTable} {level : UInt8}
    {cap : Cap T} {need : CapPerms} {resource : UInt32} :
    table.get level cap need = .ok resource ↔
      ∃ i, Hits table cap.raw i ∧ (table.slots i).kind = T.KIND ∧
        (table.slots i).perms.contains need = true ∧
        (need.contains .WRITE && degradedActive level) = false ∧
        resource = (table.slots i).resource := by
  constructor
  · intro h
    simp only [get] at h
    split_ifs at h with hnull hlt hocc hgen hkind hperms hcont
    refine ⟨⟨cap.raw.slot.toNat, hlt⟩, ⟨⟨by simpa using hnull, rfl⟩, by simpa using hocc,
      by simpa using hgen⟩, by simpa using hkind, by simpa using hperms,
      by simpa using hcont, ?_⟩
    simpa using h.symm
  · rintro ⟨i, ⟨⟨hnull, hslot⟩, hocc, hgen⟩, hkind, hperms, hcont, rfl⟩
    have hlt : cap.raw.slot.toNat < MAX_CAPS_PER_TASK := hslot ▸ i.isLt
    have hi : (⟨cap.raw.slot.toNat, hlt⟩ : Fin MAX_CAPS_PER_TASK) = i := Fin.ext hslot
    simp [get, hnull, hlt, hi, hocc, hgen, hkind, hperms, hcont]

/-- `revoke` clears the slot that the handle hits. -/
theorem slots_revoke_of_hits {T : CapTarget} {table : CapTable} {cap : Cap T}
    {i : Fin MAX_CAPS_PER_TASK} (h : Hits table cap.raw i) :
    (table.revoke cap).slots i = clearSlot (table.slots i) := by
  obtain ⟨⟨hnull, hslot⟩, hocc, hgen⟩ := h
  have hlt : cap.raw.slot.toNat < MAX_CAPS_PER_TASK := hslot ▸ i.isLt
  have hi : (⟨cap.raw.slot.toNat, hlt⟩ : Fin MAX_CAPS_PER_TASK) = i := Fin.ext hslot
  simp [revoke, hnull, hlt, hi, hocc, hgen]

/-- `revoke` leaves every slot that the handle does not hit. -/
theorem slots_revoke_of_not_hits {T : CapTarget} {table : CapTable} {cap : Cap T}
    {i : Fin MAX_CAPS_PER_TASK} (h : ¬ Hits table cap.raw i) :
    (table.revoke cap).slots i = table.slots i := by
  simp only [revoke]
  split_ifs with hnull hlt hcond
  · rfl
  · by_cases hi : i = ⟨cap.raw.slot.toNat, hlt⟩
    · subst hi
      rw [Bool.and_eq_true, beq_iff_eq] at hcond
      exact absurd ⟨⟨by simpa using hnull, rfl⟩, hcond.1, hcond.2⟩ h
    · exact slots_set_of_ne _ _ hi
  · rfl
  · rfl

/-- A slot after `revoke` is either the same or cleared. -/
theorem slots_revoke_cases {T : CapTarget} (table : CapTable) (cap : Cap T)
    (i : Fin MAX_CAPS_PER_TASK) :
    (table.revoke cap).slots i = table.slots i ∨
      Hits table cap.raw i ∧ (table.revoke cap).slots i = clearSlot (table.slots i) := by
  by_cases h : Hits table cap.raw i
  · exact .inr ⟨h, slots_revoke_of_hits h⟩
  · exact .inl (slots_revoke_of_not_hits h)

end CapTable

end RobotOs.Ipc
