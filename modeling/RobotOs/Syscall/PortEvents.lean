import RobotOs.Lib.Run
import RobotOs.Ipc.IrqBind

/-!
# Interrupt events and port owners

The port and interrupt arms of `dispatch.rs` for unprivileged tasks, over whole runs.
Every pending event of a port has an origin: the task whose binding queued it, and
whether that task owned the port when it bound.

`Isolated` says that a port has only events of its owner's own bindings.  The arm
`SYS_IRQ_BIND` does not look at the owner of the port, and a binding outlives the
port it names.  `Rightful` is the condition on the two calls where this matters: a
task binds to a port that it owns, and a new port is not yet bound by another task.

An exit is two calls here, in any order with those of other tasks: `irq_unbind_all`
and `port_release_all`.
-/

namespace RobotOs.Syscall.PortEvents

open RobotOs.Ipc RobotOs.Lib.Run

variable (maxPorts : Nat)

/-- Where an event came from. -/
structure Origin where
  event : PortEvent
  binder : UInt32
  rightful : Bool
  deriving DecidableEq, Repr

/-- The two tables.  `rightful` says of a binding whether its task owned the port when
it bound, and `origins` has the origins of the pending events of a port. -/
structure Desk where
  ports : Ports
  bindings : IrqBindings
  rightful : Fin MAX_IRQ_BINDINGS → Bool
  origins : UInt32 → List Origin

/-- The state at boot. -/
def Desk.init : Desk := ⟨fun _ => .empty, fun _ => .empty, fun _ => false, fun _ => []⟩

/-- A call of an unprivileged task, or an interrupt. -/
inductive Act where
  | portCreate (tid : UInt32)
  | portBind (tid portId : UInt32) (kind : PortSourceKind) (userKey : UInt64)
  | portWait (tid portId : UInt32)
  | portUnbind (tid portId : UInt32)
  | irqBind (tid irq : UInt32) (permitted : Bool) (targetType : Nat) (portId : UInt32)
      (userKey : UInt64)
  | irqDispatch (irq : UInt32)
  | unbindAll (tid : UInt32)
  | releasePorts (tid : UInt32)
  deriving DecidableEq, Repr

namespace Desk

/-- `SYS_PORT_CREATE`. -/
def portCreate (s : Desk) (tid : UInt32) : Desk :=
  match Port.portCreate maxPorts s.ports tid with
  | none => s
  | some (portId, ports) =>
    { s with ports := ports, origins := Function.update s.origins portId [] }

/-- `SYS_PORT_BIND`. -/
def portBind (s : Desk) (tid portId : UInt32) (kind : PortSourceKind) (userKey : UInt64) : Desk :=
  if !Port.portAccessOk maxPorts s.ports false tid portId then s
  else { s with ports := (Port.portBind maxPorts s.ports portId kind userKey).2 }

/-- A poll of `SYS_PORT_WAIT`. -/
def portWait (s : Desk) (tid portId : UInt32) : Option PortEvent × Desk :=
  if !Port.portAccessOk maxPorts s.ports false tid portId then (none, s)
  else
    let out := Port.portPoll maxPorts s.ports portId
    (out.1, { s with
      ports := out.2
      origins := if out.1 = none then s.origins
        else Function.update s.origins portId (s.origins portId).tail })

/-- `SYS_PORT_UNBIND`. -/
def portUnbind (s : Desk) (tid portId : UInt32) : Desk :=
  if !Port.portAccessOk maxPorts s.ports false tid portId then s
  else
    { s with
      ports := Port.portDestroy maxPorts s.ports portId
      origins := Function.update s.origins portId [] }

/-- The binding that `irq_bind` writes. -/
def bindSlot (bindings : IrqBindings) (irq tid : UInt32) : Option (Fin MAX_IRQ_BINDINGS) :=
  ((List.finRange MAX_IRQ_BINDINGS).find? fun i =>
    (bindings i).active && (bindings i).irq == irq && (bindings i).ownerTask == tid).or
    ((List.finRange MAX_IRQ_BINDINGS).find? fun i => !(bindings i).active)

/-- `irq_bind` to a target, with what the task owns. -/
def bind (s : Desk) (irq tid : UInt32) (target : IrqTarget) (owns : Bool) : Desk :=
  { s with
    bindings := (IrqBind.irqBind s.bindings irq tid target).2
    rightful := match bindSlot s.bindings irq tid with
      | none => s.rightful
      | some i => Function.update s.rightful i owns }

/-- `SYS_IRQ_BIND`.  `permitted` is the check of the interrupt capability. -/
def irqBind (s : Desk) (tid irq : UInt32) (permitted : Bool) (targetType : Nat) (portId : UInt32)
    (userKey : UInt64) : Desk :=
  if !permitted then s
  else
    match targetType with
    | 0 => s.bind irq tid (.wakeTask tid) true
    | 1 =>
      s.bind irq tid (.queueToPort portId userKey)
        (Port.portOwner maxPorts s.ports portId == some tid)
    | _ => s

/-- One binding of `irq_dispatch`, with the origin of the event. -/
def queue (bindings : IrqBindings) (rightful : Fin MAX_IRQ_BINDINGS → Bool) (irq : UInt32)
    (acc : Ports × (UInt32 → List Origin)) (i : Fin MAX_IRQ_BINDINGS) :
    Ports × (UInt32 → List Origin) :=
  match (bindings i).target with
  | .queueToPort portId userKey =>
    let event : PortEvent := ⟨userKey, PORT_SOURCE_TYPE_IRQ, irq⟩
    let ports := Port.portQueueEvent maxPorts acc.1 portId event
    (ports,
      if (ports portId).pending = (acc.1 portId).pending then acc.2
      else Function.update acc.2 portId
        (acc.2 portId ++ [⟨event, (bindings i).ownerTask, rightful i⟩]))
  | .wakeTask _ | .none => acc

/-- `irq_dispatch`. -/
def irqDispatch (s : Desk) (irq : UInt32) : Desk :=
  { s with
    ports := IrqBind.irqDispatch maxPorts s.bindings s.ports irq
    origins := (((List.finRange MAX_IRQ_BINDINGS).filter fun i =>
      (s.bindings i).active && (s.bindings i).irq == irq).foldl
        (queue maxPorts s.bindings s.rightful irq) (s.ports, s.origins)).2 }

/-- `port_release_all`. -/
def releasePorts (s : Desk) (tid : UInt32) : Desk :=
  { s with
    ports := Port.portReleaseAll maxPorts s.ports tid
    origins := fun portId =>
      if Port.portReleaseAll maxPorts s.ports tid portId = s.ports portId then s.origins portId
      else [] }

def step (s : Desk) : Act → Desk
  | .portCreate tid => s.portCreate maxPorts tid
  | .portBind tid portId kind userKey => s.portBind maxPorts tid portId kind userKey
  | .portWait tid portId => (s.portWait maxPorts tid portId).2
  | .portUnbind tid portId => s.portUnbind maxPorts tid portId
  | .irqBind tid irq permitted targetType portId userKey =>
    s.irqBind maxPorts tid irq permitted targetType portId userKey
  | .irqDispatch irq => s.irqDispatch maxPorts irq
  | .unbindAll tid => { s with bindings := IrqBind.irqUnbindAll s.bindings tid }
  | .releasePorts tid => s.releasePorts maxPorts tid

end Desk

/-- The port that a binding queues to. -/
def boundPort (binding : IrqBinding) : Option UInt32 :=
  if binding.active then
    match binding.target with
    | .queueToPort portId _ => some portId
    | .wakeTask _ | .none => none
  else none

/-- What a task polls came from a binding that it made as the owner of the port, and every
binding to a live port is its owner's. -/
structure Isolated (s : Desk) : Prop where
  polled : ∀ tid portId event, (s.portWait maxPorts tid portId).1 = some event →
    ∃ origin, (s.origins portId).head? = some origin ∧ origin.event = event ∧
      origin.binder = tid ∧ origin.rightful = true
  bound : ∀ i portId, boundPort (s.bindings i) = some portId → (s.ports portId).active = true →
    (s.ports portId).ownerTask = some (s.bindings i).ownerTask

/-- A task binds to a port that it owns, and a new port is not bound by another task. -/
def Rightful (s : Desk) : Act → Prop
  | .irqBind tid _ permitted targetType portId _ =>
    permitted = true → targetType = 1 → Port.portOwner maxPorts s.ports portId = some tid
  | .portCreate tid =>
    ∀ i, boundPort (s.bindings i) ≠ none →
      boundPort (s.bindings i) = (Port.portCreate maxPorts s.ports tid).map Prod.fst →
        (s.bindings i).ownerTask = tid
  | _ => True

instance (s : Desk) : ∀ act, Decidable (Rightful maxPorts s act)
  | .portCreate _ => inferInstanceAs (Decidable (∀ _i, _ → _ → _))
  | .portBind _ _ _ _ => inferInstanceAs (Decidable True)
  | .portWait _ _ => inferInstanceAs (Decidable True)
  | .portUnbind _ _ => inferInstanceAs (Decidable True)
  | .irqBind _ _ _ _ _ _ => inferInstanceAs (Decidable (_ → _ → _))
  | .irqDispatch _ => inferInstanceAs (Decidable True)
  | .unbindAll _ => inferInstanceAs (Decidable True)
  | .releasePorts _ => inferInstanceAs (Decidable True)

/-- Task 1 binds its interrupt to the port of task 2. -/
def foreignBind : List Act := [.portCreate 2, .irqBind 1 7 true 1 0 9, .irqDispatch 7]

/-- Task 1 binds its interrupt to its own port and gives the port up.  Task 2 gets it. -/
def staleBind : List Act :=
  [.portCreate 1, .irqBind 1 7 true 1 0 9, .portUnbind 1 0, .portCreate 2] ++
    List.replicate 16 (.irqDispatch 7)

/-- Task 2 polls an event of task 1, and the events of task 1 fill its queue. -/
theorem event_injected :
    let s := run (Desk.step 4) Desk.init foreignBind
    let s' := run (Desk.step 4) Desk.init staleBind
    ((s.portWait 4 2 0).1 = some ⟨9, PORT_SOURCE_TYPE_IRQ, 7⟩ ∧
        (s.origins 0).map Origin.binder = [1]) ∧
      (s'.ports 0).ownerTask = some 2 ∧ (s'.ports 0).pending.length = PORT_MAX_SOURCES ∧
        (s'.origins 0).map Origin.binder = List.replicate 16 1 := by
  decide +kernel

/-! ## The invariant -/

/-- The origins are those of the pending events, every binding to a port was made by the
owner of the port, and only a live port has events. -/
structure Sound (s : Desk) : Prop where
  tagged : ∀ portId, (s.origins portId).map Origin.event = (s.ports portId).pending
  bound : ∀ i portId, boundPort (s.bindings i) = some portId → s.rightful i = true ∧
    ((s.ports portId).active = true →
      (s.ports portId).ownerTask = some (s.bindings i).ownerTask)
  origins : ∀ portId, ∀ origin ∈ s.origins portId,
    (s.ports portId).ownerTask = some origin.binder ∧ origin.rightful = true

variable {s : Desk} {portId tid : UInt32}

theorem sound_init : Sound Desk.init where
  tagged _ := rfl
  bound _ _ h := by cases h
  origins _ _ h := absurd h List.not_mem_nil

/-- A port is written with the origins of its events. -/
theorem Sound.writePort (h : Sound s) {port : Port} {origins : List Origin}
    (hbound : port.active = true → ∀ i, boundPort (s.bindings i) = some portId →
      port.ownerTask = some (s.bindings i).ownerTask)
    (htagged : origins.map Origin.event = port.pending) (horigins : ∀ origin ∈ origins,
      port.ownerTask = some origin.binder ∧ origin.rightful = true) :
    Sound { s with
      ports := Function.update s.ports portId port
      origins := Function.update s.origins portId origins } := by
  refine ⟨fun p => ?_, fun i p hi => ⟨(h.bound i p hi).1, fun hp => ?_⟩, fun p origin ho => ?_⟩ <;>
    rcases eq_or_ne p portId with rfl | hne
  · simpa using htagged
  · simpa [hne] using h.tagged p
  · simp only [Function.update_self] at hp ⊢
    exact hbound hp i hi
  · simp only [Function.update_of_ne hne] at hp ⊢
    exact (h.bound i p hi).2 hp
  · simp only [Function.update_self] at ho ⊢
    exact horigins origin ho
  · simp only [Function.update_of_ne hne] at ho ⊢
    exact h.origins p origin ho

/-- A port that keeps its owner. -/
theorem Sound.keepOwner (h : Sound s) {port : Port} {origins : List Origin}
    (howner : port.ownerTask = (s.ports portId).ownerTask)
    (hactive : port.active = (s.ports portId).active)
    (htagged : origins.map Origin.event = port.pending) (horigins : ∀ origin ∈ origins,
      (s.ports portId).ownerTask = some origin.binder ∧ origin.rightful = true) :
    Sound { s with
      ports := Function.update s.ports portId port
      origins := Function.update s.origins portId origins } := by
  refine h.writePort (fun hp i hi => ?_) htagged fun origin ho => ?_
  · rw [howner]
    exact (h.bound i portId hi).2 (hactive ▸ hp)
  · rw [howner]
    exact horigins origin ho

/-- A port is emptied. -/
theorem Sound.clearPort (h : Sound s) (portId : UInt32) :
    Sound { s with
      ports := Function.update s.ports portId .empty
      origins := Function.update s.origins portId [] } :=
  h.writePort (fun hp => by cases hp) rfl fun _ ho => absurd ho List.not_mem_nil

/-! ## The calls -/

variable {maxPorts}

theorem lt_of_accessOk {ports : Ports}
    (h : Port.portAccessOk maxPorts ports false tid portId = true) :
    portId.toNat < maxPorts ∧ (ports portId).ownerTask = some tid := by
  simp only [Port.portAccessOk, Bool.false_or, beq_iff_eq, Port.portOwner] at h
  split_ifs at h with hrange
  exact ⟨Nat.lt_of_not_le hrange, h⟩

theorem Sound.portCreate (h : Sound s) (hrightful : Rightful maxPorts s (.portCreate tid)) :
    Sound (s.portCreate maxPorts tid) := by
  unfold Desk.portCreate
  simp only [Rightful] at hrightful
  cases hcreate : Port.portCreate maxPorts s.ports tid with
  | none => exact h
  | some out =>
    obtain ⟨portId, ports⟩ := out
    rw [hcreate] at hrightful
    unfold Port.portCreate at hcreate
    split at hcreate
    · cases hcreate
    obtain ⟨rfl, rfl⟩ := Prod.mk.inj (Option.some.inj hcreate)
    refine h.writePort (fun _ i hi => ?_) rfl fun _ ho => absurd ho List.not_mem_nil
    exact congrArg some (hrightful i (by rw [hi]; exact Option.some_ne_none _) hi).symm

theorem Sound.portBind (h : Sound s) (tid portId : UInt32) (kind : PortSourceKind)
    (userKey : UInt64) : Sound (s.portBind maxPorts tid portId kind userKey) := by
  unfold Desk.portBind
  split_ifs
  · exact h
  simp only [Port.portBind]
  split_ifs
  · exact h
  · exact h
  · rw [← Function.update_eq_self portId s.origins]
    exact h.keepOwner rfl rfl (h.tagged portId) (h.origins portId)

/-- A poll finds nothing, or takes the first event. -/
theorem portPoll_cases (maxPorts : Nat) (ports : Ports) (portId : UInt32) :
    Port.portPoll maxPorts ports portId = (none, ports) ∨
      ∃ event rest, (ports portId).pending = event :: rest ∧
        Port.portPoll maxPorts ports portId =
          (some event, Function.update ports portId { ports portId with pending := rest }) := by
  unfold Port.portPoll
  split_ifs with hrange
  · exact .inl rfl
  dsimp only
  split_ifs
  · exact .inl rfl
  cases hpending : (ports portId).pending with
  | nil => exact .inl rfl
  | cons event rest => exact .inr ⟨event, rest, rfl, rfl⟩

theorem Sound.portWait (h : Sound s) (tid portId : UInt32) :
    Sound (s.portWait maxPorts tid portId).2 := by
  unfold Desk.portWait
  split_ifs
  · exact h
  obtain heq | ⟨event, rest, hpending, heq⟩ := portPoll_cases maxPorts s.ports portId
  · rw [heq]
    exact h
  · rw [heq]
    have htagged := h.tagged portId
    rw [hpending] at htagged
    dsimp only
    rw [if_neg (Option.some_ne_none event)]
    refine h.keepOwner rfl rfl ?_ fun origin ho => h.origins portId origin (List.mem_of_mem_tail ho)
    rw [List.map_tail, htagged]
    rfl

theorem Sound.portUnbind (h : Sound s) (tid portId : UInt32) :
    Sound (s.portUnbind maxPorts tid portId) := by
  unfold Desk.portUnbind
  split_ifs with hrefused
  · exact h
  have hrange := (lt_of_accessOk (by simpa using hrefused)).1
  simp only [Port.portDestroy, if_neg (Nat.not_le.mpr hrange)]
  exact h.clearPort portId

/-- What `irq_bind` writes. -/
theorem irqBind_eq (bindings : IrqBindings) (irq tid : UInt32) (target : IrqTarget) :
    (IrqBind.irqBind bindings irq tid target).2 =
      match Desk.bindSlot bindings irq tid with
      | none => bindings
      | some i => Function.update bindings i ⟨irq, tid, target, true⟩ := by
  unfold IrqBind.irqBind Desk.bindSlot
  split
  next i hfind =>
    have hfound := List.find?_some hfind
    simp only [Bool.and_eq_true, beq_iff_eq] at hfound
    obtain ⟨⟨hactive, hirq⟩, howner⟩ := hfound
    simp only [hfind, Option.some_or]
    rw [← hactive, ← hirq, ← howner]
  next hnone =>
    rw [hnone, Option.none_or]
    split
    next i hfind => rw [hfind]
    next hfull => rw [hfull]

/-- A binding is written by a task that owns the port it names. -/
theorem Sound.bind (h : Sound s) (irq tid : UInt32) (target : IrqTarget) (owns : Bool)
    (htarget : ∀ portId, boundPort ⟨irq, tid, target, true⟩ = some portId →
      owns = true ∧ (s.ports portId).ownerTask = some tid) :
    Sound (s.bind irq tid target owns) := by
  unfold Desk.bind
  rw [irqBind_eq]
  cases Desk.bindSlot s.bindings irq tid with
  | none => exact h
  | some i =>
    refine ⟨h.tagged, fun j portId hj => ?_, h.origins⟩
    rcases eq_or_ne j i with rfl | hne
    · simp only [Function.update_self] at hj ⊢
      obtain ⟨howns, howner⟩ := htarget portId hj
      exact ⟨howns, fun _ => howner⟩
    · simp only [Function.update_of_ne hne] at hj ⊢
      exact h.bound j portId hj

theorem Sound.irqBind (h : Sound s) {irq : UInt32} {permitted : Bool} {targetType : Nat}
    {userKey : UInt64}
    (hrightful : Rightful maxPorts s (.irqBind tid irq permitted targetType portId userKey)) :
    Sound (s.irqBind maxPorts tid irq permitted targetType portId userKey) := by
  unfold Desk.irqBind
  split_ifs with hrefused
  · exact h
  split
  · exact h.bind irq tid _ true fun _ hnone => by cases hnone
  · have howner := hrightful (by simpa using hrefused) rfl
    refine h.bind irq tid _ _ fun p hp => ⟨by rw [howner]; exact beq_self_eq_true _, ?_⟩
    obtain rfl : portId = p := Option.some.inj hp
    unfold Port.portOwner at howner
    split_ifs at howner
    exact howner
  · exact h

/-- A full or closed port keeps its events.  Otherwise there is one more. -/
theorem portQueueEvent_cases (maxPorts : Nat) (ports : Ports) (portId : UInt32)
    (event : PortEvent) :
    Port.portQueueEvent maxPorts ports portId event = ports ∨
      (ports portId).active = true ∧
        Port.portQueueEvent maxPorts ports portId event = Function.update ports portId
          { ports portId with pending := (ports portId).pending ++ [event] } := by
  unfold Port.portQueueEvent
  split_ifs with hrange
  · exact .inl rfl
  dsimp only
  split_ifs with hactive hroom
  · exact .inl rfl
  · exact .inr ⟨by simpa using hactive, rfl⟩
  · exact .inl rfl

/-- One binding of an interrupt queues to a port of its owner. -/
theorem Sound.queue (h : Sound s) (irq : UInt32) {i : Fin MAX_IRQ_BINDINGS}
    (hactive : (s.bindings i).active = true) :
    Sound { s with
      ports := (Desk.queue maxPorts s.bindings s.rightful irq (s.ports, s.origins) i).1
      origins := (Desk.queue maxPorts s.bindings s.rightful irq (s.ports, s.origins) i).2 } := by
  unfold Desk.queue
  split
  next portId userKey htarget =>
    have hport : boundPort (s.bindings i) = some portId := by simp [boundPort, hactive, htarget]
    obtain ⟨hrightful, howner⟩ := h.bound i portId hport
    dsimp only
    obtain heq | ⟨hlive, heq⟩ :=
      portQueueEvent_cases maxPorts s.ports portId ⟨userKey, PORT_SOURCE_TYPE_IRQ, irq⟩
    · rw [heq, if_pos rfl]
      exact h
    · rw [heq, Function.update_self, if_neg (by simp)]
      refine h.keepOwner rfl rfl ?_ fun origin ho => ?_
      · rw [List.map_append, h.tagged portId]
        rfl
      · rcases List.mem_append.mp ho with hold | hnew
        · exact h.origins portId origin hold
        · rw [List.mem_singleton.mp hnew]
          exact ⟨howner hlive, hrightful⟩
  · exact h
  · exact h

/-- The ports of an interrupt do not depend on the origins. -/
theorem fst_foldl_queue (bindings : IrqBindings) (rightful : Fin MAX_IRQ_BINDINGS → Bool)
    (irq : UInt32) (l : List (Fin MAX_IRQ_BINDINGS)) (acc : Ports × (UInt32 → List Origin)) :
    (l.foldl (Desk.queue maxPorts bindings rightful irq) acc).1 =
      l.foldl (fun ports i =>
        match (bindings i).target with
        | .queueToPort portId userKey =>
          Port.portQueueEvent maxPorts ports portId ⟨userKey, PORT_SOURCE_TYPE_IRQ, irq⟩
        | .wakeTask _ | .none => ports) acc.1 := by
  induction l generalizing acc with
  | nil => rfl
  | cons i rest ih =>
    rw [List.foldl_cons, List.foldl_cons, ih]
    congr 1
    unfold Desk.queue
    cases (bindings i).target <;> rfl

theorem Sound.foldl_queue (irq : UInt32) (l : List (Fin MAX_IRQ_BINDINGS))
    (hl : ∀ i ∈ l, (s.bindings i).active = true) (acc : Ports × (UInt32 → List Origin))
    (h : Sound { s with ports := acc.1, origins := acc.2 }) :
    Sound { s with
      ports := (l.foldl (Desk.queue maxPorts s.bindings s.rightful irq) acc).1
      origins := (l.foldl (Desk.queue maxPorts s.bindings s.rightful irq) acc).2 } := by
  induction l generalizing acc with
  | nil => exact h
  | cons i rest ih =>
    rw [List.foldl_cons]
    exact ih (fun j hj => hl j (List.mem_cons_of_mem _ hj)) _
      (h.queue irq (hl i List.mem_cons_self))

theorem Sound.irqDispatch (h : Sound s) (irq : UInt32) :
    Sound (s.irqDispatch maxPorts irq) := by
  unfold Desk.irqDispatch
  have hactive : ∀ i ∈ (List.finRange MAX_IRQ_BINDINGS).filter fun i =>
      (s.bindings i).active && (s.bindings i).irq == irq, (s.bindings i).active = true :=
    fun i hi => (Bool.and_eq_true_iff.mp (List.mem_filter.mp hi).2).1
  have hports : IrqBind.irqDispatch maxPorts s.bindings s.ports irq = _ :=
    (fst_foldl_queue s.bindings s.rightful irq _ (s.ports, s.origins)).symm
  rw [hports]
  exact Sound.foldl_queue irq _ hactive (s.ports, s.origins) h

theorem Sound.unbindAll (h : Sound s) (tid : UInt32) :
    Sound { s with bindings := IrqBind.irqUnbindAll s.bindings tid } := by
  refine ⟨h.tagged, fun i portId hi => ?_, h.origins⟩
  simp only [IrqBind.irqUnbindAll] at hi ⊢
  split_ifs at hi ⊢
  · cases hi
  · exact h.bound i portId hi

/-- The origins of a port that stays, or none. -/
theorem Sound.releasePorts (h : Sound s) (tid : UInt32) :
    Sound (s.releasePorts maxPorts tid) := by
  have hport : ∀ p, Port.portReleaseAll maxPorts s.ports tid p = .empty ∨
      Port.portReleaseAll maxPorts s.ports tid p = s.ports p := by
    intro p
    unfold Port.portReleaseAll
    split_ifs
    · exact .inl rfl
    · exact .inr rfl
  unfold Desk.releasePorts
  refine ⟨fun p => ?_, fun i p hi => ⟨(h.bound i p hi).1, fun hp => ?_⟩, fun p origin ho => ?_⟩
  · dsimp only
    split_ifs with hkept
    · rw [hkept]
      exact h.tagged p
    · rw [(hport p).resolve_right hkept]
      rfl
  · dsimp only at hp ⊢
    rcases hport p with hempty | hkept
    · rw [hempty] at hp
      cases hp
    · rw [hkept] at hp ⊢
      exact (h.bound i p hi).2 hp
  · dsimp only at ho ⊢
    split_ifs at ho with hkept
    · rw [hkept]
      exact h.origins p origin ho
    · exact absurd ho List.not_mem_nil

theorem Sound.step (h : Sound s) {act : Act} (hrightful : Rightful maxPorts s act) :
    Sound (s.step maxPorts act) := by
  cases act with
  | portCreate tid => exact h.portCreate hrightful
  | portBind tid portId kind userKey => exact h.portBind tid portId kind userKey
  | portWait tid portId => exact h.portWait tid portId
  | portUnbind tid portId => exact h.portUnbind tid portId
  | irqBind tid irq permitted targetType portId userKey => exact h.irqBind hrightful
  | irqDispatch irq => exact h.irqDispatch irq
  | unbindAll tid => exact h.unbindAll tid
  | releasePorts tid => exact h.releasePorts tid

theorem Sound.isolated (h : Sound s) : Isolated maxPorts s where
  bound i portId hi := (h.bound i portId hi).2
  polled tid portId event hpoll := by
    unfold Desk.portWait at hpoll
    split_ifs at hpoll with hrefused
    have howner := (lt_of_accessOk (by simpa using hrefused)).2
    obtain heq | ⟨event', rest, hpending, heq⟩ := portPoll_cases maxPorts s.ports portId
    · rw [heq] at hpoll
      cases hpoll
    rw [heq] at hpoll
    obtain rfl : event' = event := Option.some.inj hpoll
    have htagged := h.tagged portId
    rw [hpending] at htagged
    obtain ⟨origin, rest', horigins, hevent, -⟩ := List.map_eq_cons_iff.mp htagged
    have hmem : origin ∈ s.origins portId := by
      rw [horigins]
      exact List.mem_cons_self
    obtain ⟨hbinder, hrightful⟩ := h.origins portId origin hmem
    refine ⟨origin, by rw [horigins]; rfl, hevent, ?_, hrightful⟩
    exact Option.some.inj (hbinder.symm.trans howner)

/-- In every run of rightful calls a task polls the events of its own bindings only, and
no binding reaches a port of another task. -/
theorem events_isolated (maxPorts : Nat) (acts : List Act)
    (hok : Guarded (Desk.step maxPorts) (Rightful maxPorts) Desk.init acts) :
    Isolated maxPorts (run (Desk.step maxPorts) Desk.init acts) :=
  (run_invariant_of_guarded Sound (fun _ _ h hrightful => h.step hrightful) sound_init hok).isolated

theorem events_isolated_driver :
    let acts : List Act := [.portCreate 1, .irqBind 1 7 true 1 0 9, .portCreate 2, .irqDispatch 7,
      .unbindAll 1, .releasePorts 1, .portCreate 2]
    Guarded (Desk.step 4) (Rightful 4) Desk.init acts ∧
      Isolated 4 (run (Desk.step 4) Desk.init acts) :=
  ⟨by decide +kernel, events_isolated 4 _ (by decide +kernel)⟩

end RobotOs.Syscall.PortEvents
