import RobotOs.Ipc.CapStore

/-!
# Event ports

`crates/ipc/src/port.rs`, and the port arms of
`crates/syscall/src/dispatch.rs`.  A port is an entry of a fixed table, and
its id is its index.  The table has `maxPorts` entries, a build parameter.

The fixed arrays of sources and events with their counters are lists here,
with the same bound.  The typed functions take the caller's capability table
where the source does.
-/

namespace RobotOs.Ipc

open RobotOs.Abi

/-- `PORT_MAX_SOURCES`. -/
def PORT_MAX_SOURCES : Nat := 16

/-- `PortSourceKind`. -/
inductive PortSourceKind where
  | none
  | channel (handle : UInt32)
  | ring (id : UInt32)
  | irq (number : UInt32)
  | timer (deadline : UInt64)
  deriving DecidableEq, Repr

/-- `PortSource`. -/
structure PortSource where
  kind : PortSourceKind
  userKey : UInt64
  deriving DecidableEq, Repr

/-- `PortEvent`. -/
structure PortEvent where
  key : UInt64
  sourceType : UInt8
  sourceId : UInt32
  deriving DecidableEq, Repr

/-- `Port`.  `ownerTask = none` is the `usize::MAX` of an unowned port. -/
structure Port where
  sources : List PortSource
  ownerTask : Option UInt32
  active : Bool
  pending : List PortEvent
  deriving DecidableEq, Repr

/-- `Port::empty`. -/
def Port.empty : Port := ⟨[], none, false, []⟩

/-- `PORTS`, by port id. -/
abbrev Ports := UInt32 → Port

namespace Port

variable (maxPorts : Nat)

/-- The ids of the table, in scan order. -/
def ids : List UInt32 := (List.range maxPorts).map UInt32.ofNat

/-- `port_create`: the first inactive entry. -/
def portCreate (ports : Ports) (ownerTask : UInt32) : Option (UInt32 × Ports) :=
  match (ids maxPorts).find? fun id => !(ports id).active with
  | none => none
  | some id => some (id, Function.update ports id ⟨[], some ownerTask, true, []⟩)

/-- `port_destroy`. -/
def portDestroy (ports : Ports) (portId : UInt32) : Ports :=
  if portId.toNat ≥ maxPorts then ports else Function.update ports portId Port.empty

/-- `port_bind`. -/
def portBind (ports : Ports) (portId : UInt32) (kind : PortSourceKind) (userKey : UInt64) :
    Bool × Ports :=
  if portId.toNat ≥ maxPorts then (false, ports)
  else
    let port := ports portId
    if !port.active || port.sources.length ≥ PORT_MAX_SOURCES then (false, ports)
    else (true, Function.update ports portId
      { port with sources := port.sources ++ [⟨kind, userKey⟩] })

/-- `port_queue_event`: a full port drops the event. -/
def portQueueEvent (ports : Ports) (portId : UInt32) (event : PortEvent) : Ports :=
  if portId.toNat ≥ maxPorts then ports
  else
    let port := ports portId
    if !port.active then ports
    else if port.pending.length < PORT_MAX_SOURCES then
      Function.update ports portId { port with pending := port.pending ++ [event] }
    else ports

/-- `port_poll`. -/
def portPoll (ports : Ports) (portId : UInt32) : Option PortEvent × Ports :=
  if portId.toNat ≥ maxPorts then (none, ports)
  else
    let port := ports portId
    if !port.active then (none, ports)
    else
      match port.pending with
      | [] => (none, ports)
      | event :: rest => (some event, Function.update ports portId { port with pending := rest })

/-- `port_release_all`: the ports of a task that exits. -/
def portReleaseAll (ports : Ports) (tid : UInt32) : Ports := fun id =>
  if id ∈ ids maxPorts ∧ (ports id).active = true ∧ (ports id).ownerTask = some tid then
    Port.empty
  else ports id

/-- `port_owner`. -/
def portOwner (ports : Ports) (portId : UInt32) : Option UInt32 :=
  if portId.toNat ≥ maxPorts then none else (ports portId).ownerTask

/-- `port_access_ok`: the owner, or a kernel task. -/
def portAccessOk (ports : Ports) (kernel : Bool) (tid portId : UInt32) : Bool :=
  kernel || portOwner maxPorts ports portId == some tid

/-- `port_create_cap`.  When the capability table is full the port stays. -/
def portCreateCap {n : Nat} (pool : Pool n) (store : Store n) (ports : Ports)
    (tid : UInt32) : Option (Cap .port) × Store n × Ports :=
  match portCreate maxPorts ports tid with
  | none => (none, store, ports)
  | some (portId, ports) =>
    let (cap, store) := CapStore.grant pool store .port tid .RW portId
    (cap, store, ports)

end Port

end RobotOs.Ipc
