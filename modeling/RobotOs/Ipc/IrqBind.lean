import RobotOs.Ipc.Port

/-!
# Interrupt bindings

`irq_bind.rs` of the ipc crate.  A task that drives a device binds its interrupt
to itself or to a port, and the interrupt handler queues an event to every port
that is bound.
-/

namespace RobotOs.Ipc

def MAX_IRQ_BINDINGS : Nat := 32

def PORT_SOURCE_TYPE_IRQ : UInt8 := 3

inductive IrqTarget where
  | none
  | wakeTask (tid : UInt32)
  | queueToPort (portId : UInt32) (userKey : UInt64)
  deriving DecidableEq, Repr

structure IrqBinding where
  irq : UInt32
  ownerTask : UInt32
  target : IrqTarget
  active : Bool
  deriving DecidableEq, Repr

def IrqBinding.empty : IrqBinding := ⟨0, 0, .none, false⟩

/-- `IRQ_BINDINGS`. -/
abbrev IrqBindings := Fin MAX_IRQ_BINDINGS → IrqBinding

namespace IrqBind

/-- `irq_bind`: 0, or -1 when the table is full. -/
def irqBind (bindings : IrqBindings) (irq ownerTask : UInt32) (target : IrqTarget) :
    Int × IrqBindings :=
  match (List.finRange MAX_IRQ_BINDINGS).find? fun i =>
    (bindings i).active && (bindings i).irq == irq && (bindings i).ownerTask == ownerTask with
  | some i => (0, Function.update bindings i { bindings i with target := target })
  | none =>
    match (List.finRange MAX_IRQ_BINDINGS).find? fun i => !(bindings i).active with
    | some i => (0, Function.update bindings i ⟨irq, ownerTask, target, true⟩)
    | none => (-1, bindings)

/-- `irq_unbind_all`. -/
def irqUnbindAll (bindings : IrqBindings) (ownerTask : UInt32) : IrqBindings :=
  fun i => if (bindings i).active && (bindings i).ownerTask == ownerTask then .empty else bindings i

/-- `irq_dispatch`. -/
def irqDispatch (maxPorts : Nat) (bindings : IrqBindings) (ports : Ports) (irq : UInt32) : Ports :=
  ((List.finRange MAX_IRQ_BINDINGS).filter fun i =>
    (bindings i).active && (bindings i).irq == irq).foldl
    (fun ports i =>
      match (bindings i).target with
      | .queueToPort portId userKey =>
        Port.portQueueEvent maxPorts ports portId ⟨userKey, PORT_SOURCE_TYPE_IRQ, irq⟩
      | .wakeTask _ | .none => ports)
    ports

end IrqBind

end RobotOs.Ipc
