import RobotOs.Lib.Framing
import RobotOs.Lib.Ring
import RobotOs.Lib.Run

/-!
# The registry of userspace drivers

The driver_server crate and the system calls over it.  A driver registers for a
kind and takes one of the slots.  Clients put requests into the queue of the slot
and get a token.  The driver fetches the requests and publishes replies, and a
client asks for the reply to its token.

The registry is one lock, so a system call is one step.  Whether a copy to or from
the caller's memory succeeds is an input.  A task, a kind and a payload are what the
caller passes.

Fields that are not in the source number the registrations and the requests, and
log what was fetched, who acted, and which replies have not been taken yet.  No
step reads them.
-/

namespace RobotOs.Drivers.Server

open RobotOs.Lib.Framing (Bytes)
open RobotOs.Lib.Ring (ringIx apart_ringIx ringIx_mod ringIx_succ)

def DRIVER_MAX_KINDS : Nat := 32
def DRIVER_REQUEST_QUEUE_DEPTH : Nat := 8
def DRIVER_REQUEST_PAYLOAD_BYTES : Nat := 64

/-- What a request was submitted for: the kind, the registration of the driver at
that time, and its number. -/
structure Ticket where
  kind : UInt32
  registration : Nat
  number : Nat
  deriving DecidableEq, Repr

/-- `DriverRequest`. -/
structure DriverRequest where
  token : Nat
  clientTid : Nat
  op : UInt32
  outCap : Nat
  input : Bytes
  ticket : Ticket
  deriving DecidableEq

/-- `DriverRequest::zeroed`. -/
def DriverRequest.zeroed : DriverRequest := ⟨0, 0, 0, 0, [], ⟨0, 0, 0⟩⟩

/-- `DriverReply`. -/
structure DriverReply where
  token : Nat
  status : Int
  output : Bytes
  deriving DecidableEq

/-- `DriverReply::zeroed`. -/
def DriverReply.zeroed : DriverReply := ⟨0, 0, []⟩

/-! ## The queue -/

/-- `DriverQueue`. -/
structure DriverQueue where
  entries : Nat → DriverRequest
  head : Nat
  tail : Nat
  count : Nat
  head_eq : head = ringIx DRIVER_REQUEST_QUEUE_DEPTH tail count
  count_le : count ≤ DRIVER_REQUEST_QUEUE_DEPTH
  tail_lt : tail < DRIVER_REQUEST_QUEUE_DEPTH

namespace DriverQueue

theorem zero_eq_ringIx : 0 = ringIx DRIVER_REQUEST_QUEUE_DEPTH 0 0 := rfl

theorem depth_pos : 0 < DRIVER_REQUEST_QUEUE_DEPTH := Nat.succ_pos 7

/-- `DriverQueue::new`. -/
def new : DriverQueue := ⟨fun _ => .zeroed, 0, 0, 0, zero_eq_ringIx, Nat.zero_le _, depth_pos⟩

theorem head_succ (q : DriverQueue) : (q.head + 1) % DRIVER_REQUEST_QUEUE_DEPTH =
    ringIx DRIVER_REQUEST_QUEUE_DEPTH q.tail (q.count + 1) := by
  rw [q.head_eq, ringIx, ringIx, Nat.mod_add_mod, Nat.add_assoc]

/-- `push`. -/
def push (q : DriverQueue) (r : DriverRequest) : Option DriverQueue :=
  if h : q.count = DRIVER_REQUEST_QUEUE_DEPTH then none
  else some {
    entries := Function.update q.entries q.head r
    head := (q.head + 1) % DRIVER_REQUEST_QUEUE_DEPTH
    tail := q.tail
    count := q.count + 1
    head_eq := q.head_succ
    count_le := Nat.lt_of_le_of_ne q.count_le h
    tail_lt := q.tail_lt }

theorem head_eq_of_pop (q : DriverQueue) (h : q.count ≠ 0) : q.head =
    ringIx DRIVER_REQUEST_QUEUE_DEPTH ((q.tail + 1) % DRIVER_REQUEST_QUEUE_DEPTH)
      (q.count - 1) := by
  rw [ringIx_mod, ringIx_succ, Nat.sub_add_cancel (Nat.pos_of_ne_zero h)]
  exact q.head_eq

/-- `pop`. -/
def pop (q : DriverQueue) : Option (DriverRequest × DriverQueue) :=
  if h : q.count = 0 then none
  else some (q.entries q.tail, {
    entries := q.entries
    head := q.head
    tail := (q.tail + 1) % DRIVER_REQUEST_QUEUE_DEPTH
    count := q.count - 1
    head_eq := q.head_eq_of_pop h
    count_le := (Nat.sub_le _ _).trans q.count_le
    tail_lt := Nat.mod_lt _ depth_pos })

/-- The requests in the queue, the oldest first. -/
def pending (q : DriverQueue) : List DriverRequest :=
  (List.range q.count).map fun k => q.entries (ringIx DRIVER_REQUEST_QUEUE_DEPTH q.tail k)

theorem pending_eq_nil_iff {q : DriverQueue} : q.pending = [] ↔ q.count = 0 := by
  simp [pending]

theorem pending_push {q q' : DriverQueue} {r : DriverRequest} (h : q.push r = some q') :
    q'.pending = q.pending ++ [r] := by
  unfold push at h
  split at h
  · cases h
  · next hfull =>
    obtain rfl := Option.some.inj h
    have hlt : q.count < DRIVER_REQUEST_QUEUE_DEPTH := Nat.lt_of_le_of_ne q.count_le hfull
    simp only [pending, List.range_succ, List.map_append, List.map_cons, List.map_nil]
    congr 1
    · refine List.map_congr_left fun k hk => ?_
      have hk := List.mem_range.mp hk
      refine Function.update_of_ne (fun heq => ?_) _ _
      rw [q.head_eq] at heq
      have := apart_ringIx _ _ _ _ (hk.trans hlt) hlt heq
      omega
    · rw [← q.head_eq, Function.update_self]

theorem pending_pop {q q' : DriverQueue} {r : DriverRequest} (h : q.pop = some (r, q')) :
    q.pending = r :: q'.pending := by
  unfold pop at h
  split at h
  · cases h
  · next hcount =>
    obtain ⟨rfl, rfl⟩ := Prod.mk.inj (Option.some.inj h)
    obtain ⟨n, hn⟩ := Nat.exists_eq_succ_of_ne_zero hcount
    simp only [pending, hn, Nat.succ_eq_add_one, Nat.add_sub_cancel, List.range_succ_eq_map,
      List.map_cons, List.map_map]
    congr 1
    · rw [ringIx, Nat.add_zero, Nat.mod_eq_of_lt q.tail_lt]
    · refine List.map_congr_left fun k _ => ?_
      rw [Function.comp_apply, ringIx_mod, ringIx_succ]

end DriverQueue

/-! ## The registry -/

/-- `DriverSlot`. -/
structure DriverSlot where
  kind : UInt32
  driverTid : Nat
  mmioBase : Nat
  mmioSize : Nat
  irq : Nat
  active : Bool
  queue : DriverQueue
  lastReply : DriverReply
  irqPending : Bool
  nextToken : Nat
  registration : Nat

/-- `DriverSlot::empty`. -/
def DriverSlot.empty : DriverSlot := ⟨0, 0, 0, 0, 0, false, .new, .zeroed, false, 1, 0⟩

/-- A request that a task got, for a kind, during a registration. -/
structure Fetched where
  caller : Nat
  kind : UInt32
  registration : Nat
  ticket : Ticket
  deriving DecidableEq

/-- A fetch, a reply or an unregister that succeeded: the caller, and the task that
was registered. -/
structure Act where
  caller : Nat
  driver : Nat
  deriving DecidableEq

/-- A token that a client got for a kind. -/
structure Issued where
  kind : UInt32
  client : Nat
  token : Nat
  deriving DecidableEq

/-- A reply that was published and that the client of its token has not taken yet. -/
structure Owed where
  kind : UInt32
  client : Nat
  reply : DriverReply
  deriving DecidableEq

structure State where
  slots : Fin DRIVER_MAX_KINDS → DriverSlot
  registrations : Nat
  requests : Nat
  fetched : List Fetched
  acts : List Act
  issued : List Issued
  owed : List Owed

def init : State := ⟨fun _ => .empty, 0, 0, [], [], [], []⟩

namespace State

variable (s : State)

/-- `find_kind`. -/
def findKind (kind : UInt32) : Option (Fin DRIVER_MAX_KINDS) :=
  (List.finRange DRIVER_MAX_KINDS).find? fun i => (s.slots i).active && (s.slots i).kind == kind

/-- `find_free`. -/
def findFree : Option (Fin DRIVER_MAX_KINDS) :=
  (List.finRange DRIVER_MAX_KINDS).find? fun i => !(s.slots i).active

def set (i : Fin DRIVER_MAX_KINDS) (slot : DriverSlot) : State :=
  { s with slots := Function.update s.slots i slot }

/-- `driver_register`.  Nothing but these fields is reset. -/
def driverRegister (kind : UInt32) (tid mmioBase mmioSize irq : Nat) : State :=
  match s.findKind kind with
  | some _ => s
  | none => match s.findFree with
    | some i => { s.set i { s.slots i with
          kind, driverTid := tid, mmioBase, mmioSize, irq, active := true
          registration := s.registrations } with
        registrations := s.registrations + 1 }
    | none => s

/-- `driver_unregister`, called by `caller`. -/
def driverUnregister (caller : Nat) (kind : UInt32) : State :=
  match s.findKind kind with
  | some i => { s.set i { s.slots i with active := false, driverTid := 0, irqPending := false } with
      acts := ⟨caller, (s.slots i).driverTid⟩ :: s.acts }
  | none => s

/-- The request of `driver_submit_request`. -/
def newRequest (i : Fin DRIVER_MAX_KINDS) (clientTid : Nat) (op : UInt32) (input : Bytes)
    (outCap : Nat) : DriverRequest where
  token := (s.slots i).nextToken
  clientTid := clientTid
  op := op
  outCap := outCap
  input := input.take DRIVER_REQUEST_PAYLOAD_BYTES
  ticket := ⟨(s.slots i).kind, (s.slots i).registration, s.requests⟩

/-- `driver_submit_request`.  A token is used up even when the queue is full. -/
def driverSubmitRequest (kind : UInt32) (clientTid : Nat) (op : UInt32) (input : Bytes)
    (outCap : Nat) : State :=
  match s.findKind kind with
  | none => s
  | some i =>
    let slot := { s.slots i with nextToken := ((s.slots i).nextToken + 1) % 2 ^ 64 }
    match (s.slots i).queue.push (s.newRequest i clientTid op input outCap) with
    | none => s.set i slot
    | some queue => { s.set i { slot with queue } with
        requests := s.requests + 1
        issued := ⟨kind, clientTid, (s.slots i).nextToken⟩ :: s.issued }

/-- `driver_fetch_request`, and the copy to the caller. -/
def driverFetchRequest (caller : Nat) (kind : UInt32) (copied : Bool) : State :=
  match s.findKind kind with
  | none => s
  | some i => match (s.slots i).queue.pop with
    | none => s
    | some (r, queue) => { s.set i { s.slots i with queue } with
        acts := ⟨caller, (s.slots i).driverTid⟩ :: s.acts
        fetched := if copied then
            ⟨caller, kind, (s.slots i).registration, r.ticket⟩ :: s.fetched
          else s.fetched }

/-- What a reply to a kind owes to the clients with its token. -/
def newOwed (kind : UInt32) (reply : DriverReply) : List Owed :=
  (s.issued.filter fun t => t.kind = kind ∧ t.token = reply.token).map fun t =>
    ⟨kind, t.client, reply⟩

/-- `driver_reply`. -/
def driverReply (caller : Nat) (kind : UInt32) (reply : DriverReply) : State :=
  match s.findKind kind with
  | none => s
  | some i => { s.set i { s.slots i with lastReply := reply } with
      acts := ⟨caller, (s.slots i).driverTid⟩ :: s.acts
      owed := s.newOwed kind reply ++ s.owed }

/-- `driver_try_take_reply`. -/
def driverTryTakeReply (kind : UInt32) (token : Nat) : Option DriverReply :=
  match s.findKind kind with
  | none => none
  | some i => if (s.slots i).lastReply.token = token then some (s.slots i).lastReply else none

/-- The system call over it.  The reply stays where it is; the caller has taken what it was owed. -/
def tryReply (caller : Nat) (kind : UInt32) (token : Nat) (copied : Bool) : State :=
  match s.driverTryTakeReply kind token with
  | none => s
  | some _ =>
    if copied then
      { s with owed := s.owed.filter fun o =>
          ¬(o.kind = kind ∧ o.client = caller ∧ o.reply.token = token) }
    else s

/-- `driver_signal_irq`. -/
def driverSignalIrq (irq : Nat) : State :=
  match (List.finRange DRIVER_MAX_KINDS).find? fun i =>
      (s.slots i).active && (s.slots i).irq == irq with
  | none => s
  | some i => s.set i { s.slots i with irqPending := true }

/-- `driver_poll_event`, which clears the latch. -/
def driverPollEvent (kind : UInt32) : State :=
  match s.findKind kind with
  | none => s
  | some i => s.set i { s.slots i with irqPending := false }

end State

/-- The system calls, with the task that makes them, and the interrupt. -/
inductive Op where
  | register (tid : Nat) (kind : UInt32) (mmioBase mmioSize irq : Nat)
  | unregister (tid : Nat) (kind : UInt32)
  | request (tid : Nat) (kind op : UInt32) (input : Bytes) (outCap : Nat)
  | fetch (tid : Nat) (kind : UInt32) (copied : Bool)
  | reply (tid : Nat) (kind : UInt32) (reply : DriverReply)
  | tryReply (tid : Nat) (kind : UInt32) (token : Nat) (copied : Bool)
  | pollEvent (tid : Nat) (kind : UInt32)
  | signalIrq (irq : Nat)

def step (s : State) : Op → State
  | .register tid kind mmioBase mmioSize irq => s.driverRegister kind tid mmioBase mmioSize irq
  | .unregister tid kind => s.driverUnregister tid kind
  | .request tid kind op input outCap => s.driverSubmitRequest kind tid op input outCap
  | .fetch tid kind copied => s.driverFetchRequest tid kind copied
  | .reply tid kind reply => s.driverReply tid kind reply
  | .tryReply tid kind token copied => s.tryReply tid kind token copied
  | .pollEvent _ kind => s.driverPollEvent kind
  | .signalIrq irq => s.driverSignalIrq irq

/-! ## What is found -/

section Find

variable {s : State} {kind : UInt32} {i : Fin DRIVER_MAX_KINDS}

theorem findKind_spec (h : s.findKind kind = some i) :
    (s.slots i).active = true ∧ (s.slots i).kind = kind := by
  simpa using List.find?_some h

theorem findKind_none (h : s.findKind kind = none) (i : Fin DRIVER_MAX_KINDS)
    (hactive : (s.slots i).active = true) : (s.slots i).kind ≠ kind := by
  have := List.find?_eq_none.mp h i (List.mem_finRange i)
  simpa [hactive] using this

theorem findFree_spec (h : s.findFree = some i) : (s.slots i).active = false := by
  simpa using List.find?_some h

end Find

end RobotOs.Drivers.Server
