import Mathlib.Data.List.FinRange

/-!
# Hardware handles

`handle.rs` of the ipc crate: the global table of handles that user tasks hold
on hardware, and `cap_check` of the syscall crate, which lets kernel tasks
through and asks the table for everyone else.
-/

namespace RobotOs.Ipc.Handle

def MAX_HANDLES_GLOBAL : Nat := 256

inductive HandleKind where
  | None
  | Sensor (id : UInt8)
  | Gpio (pin : UInt32)
  | I2c (bus addr : UInt8)
  | Pwm (channel : UInt8)
  | Motor (id : UInt32)
  | Irq (irq : UInt32)
  | MmioRegion (base size : UInt64)
  deriving DecidableEq, Repr

structure HandlePerms where
  read : Bool
  write : Bool
  execute : Bool
  duplicate : Bool
  deriving DecidableEq, Repr

structure HandleEntry where
  kind : HandleKind
  perms : HandlePerms
  ownerTask : UInt32
  valid : Bool
  deriving DecidableEq, Repr

def HandlePerms.RO : HandlePerms := ⟨true, false, false, false⟩
def HandlePerms.RW : HandlePerms := ⟨true, true, false, false⟩

def HandleEntry.empty : HandleEntry := ⟨.None, .RO, 0, false⟩

/-- The global table. -/
abbrev Handles := Fin MAX_HANDLES_GLOBAL → HandleEntry

/-- `handle_grant`: the first free entry takes the handle. -/
def handleGrant (handles : Handles) (ownerTid : UInt32) (kind : HandleKind)
    (perms : HandlePerms) : Option (Fin MAX_HANDLES_GLOBAL) × Handles :=
  match (List.finRange MAX_HANDLES_GLOBAL).find? fun i => !(handles i).valid with
  | some i => (some i, Function.update handles i ⟨kind, perms, ownerTid, true⟩)
  | none => (none, handles)

/-- `handle_owned_by`. -/
def handleOwnedBy (handles : Handles) (ownerTid : UInt32) (kind : HandleKind)
    (needWrite : Bool) : Bool :=
  (List.finRange MAX_HANDLES_GLOBAL).any fun i =>
    let e := handles i
    e.valid && e.ownerTask == ownerTid && (!needWrite || e.perms.write) && e.kind == kind

/-- `handle_revoke_all`, as a task exits. -/
def handleRevokeAll (handles : Handles) (ownerTid : UInt32) : Handles :=
  fun i => if (handles i).valid && (handles i).ownerTask == ownerTid then .empty else handles i

/-- The task that makes a system call: a kernel task has no user page table. -/
structure Caller where
  tid : UInt32
  kernel : Bool

/-- `cap_check`. -/
def capCheck (handles : Handles) (caller : Caller) (kind : HandleKind) (needWrite : Bool) : Bool :=
  caller.kernel || handleOwnedBy handles caller.tid kind needWrite

end RobotOs.Ipc.Handle
