import RobotOs.Lib.Framing

/-!
# Pending calls

`rpc.rs` of the ipc crate: the table of the calls that wait for a reply.  A call
is registered for the owner of its channel, a reply names the task that called,
and the caller takes the reply out.

The reply buffer with its length is the list of the bytes in use.  The owner of
a channel and the identity of the task that replies are arguments.
-/

namespace RobotOs.Ipc.Rpc

open RobotOs.Lib.Framing (Bytes)

def MAX_PENDING_RPCS : Nat := 16

def RPC_MSG_MAX_LEN : Nat := 64

/-- No task may answer, except for a privileged one. -/
def NO_SERVER : UInt32 := 0xffffffff

structure RpcPending where
  callerTid : UInt32
  serverChannel : UInt32
  serverTid : UInt32
  reply : Bytes
  active : Bool
  done : Bool
  deriving DecidableEq, Repr

def RpcPending.empty : RpcPending := ⟨0, 0, NO_SERVER, [], false, false⟩

/-- The index of an entry. -/
abbrev RpcId := Fin MAX_PENDING_RPCS

/-- `RPC_PENDING`. -/
abbrev Pending := RpcId → RpcPending

/-- The entries in the order of a scan. -/
def ids : List RpcId := List.finRange MAX_PENDING_RPCS

/-- The task that may answer: the owner of the channel.  Task 0 is the mark of a
channel without an owner. -/
def serverOf (owner : Option UInt32) : UInt32 :=
  match owner with
  | none => NO_SERVER
  | some tid => if tid = 0 then NO_SERVER else tid

/-- `rpc_register`. -/
def rpcRegister (pending : Pending) (callerTid serverChannel : UInt32) (owner : Option UInt32) :
    Option RpcId × Pending :=
  match ids.find? fun i => !(pending i).active with
  | none => (none, pending)
  | some i =>
    (some i, Function.update pending i
      ⟨callerTid, serverChannel, serverOf owner, [], true, false⟩)

/-- The first entry of the caller without a reply. -/
def unanswered (pending : Pending) (callerTid : UInt32) : Option RpcId :=
  ids.find? fun i =>
    (pending i).active && (pending i).callerTid == callerTid && !(pending i).done

/-- `rpc_reply`.  The first entry of the caller without a reply decides. -/
def rpcReply (pending : Pending) (callerTid : UInt32) (data : Bytes) (replier : UInt32)
    (privileged : Bool) : Option UInt32 × Pending :=
  match unanswered pending callerTid with
  | none => (none, pending)
  | some i =>
    let rpc := pending i
    if !privileged && (rpc.serverTid == NO_SERVER || rpc.serverTid != replier) then (none, pending)
    else
      (some callerTid, Function.update pending i
        { rpc with reply := data.take RPC_MSG_MAX_LEN, done := true })

/-- `rpc_get_reply`, into a buffer of `RPC_MSG_MAX_LEN` bytes. -/
def rpcGetReply (pending : Pending) (callerTid : UInt32) : Option Bytes × Pending :=
  match ids.find? fun i =>
    (pending i).active && (pending i).callerTid == callerTid && (pending i).done with
  | none => (none, pending)
  | some i => (some (pending i).reply, Function.update pending i .empty)

/-- `rpc_cancel_all` frees this entry. -/
def Cancels (tid : UInt32) (rpc : RpcPending) : Prop :=
  rpc.active = true ∧ (rpc.callerTid = tid ∨ rpc.serverTid = tid)

instance (tid : UInt32) (rpc : RpcPending) : Decidable (Cancels tid rpc) :=
  inferInstanceAs (Decidable (_ ∧ _))

/-- `rpc_cancel_all`, without the wakes. -/
def rpcCancelAll (pending : Pending) (tid : UInt32) : Pending :=
  fun i => if Cancels tid (pending i) then .empty else pending i

/-! ## Outcomes -/

/-- A registration takes a free entry. -/
theorem rpcRegister_cases (pending : Pending) (callerTid serverChannel : UInt32)
    (owner : Option UInt32) :
    rpcRegister pending callerTid serverChannel owner = (none, pending) ∨
      ∃ i, (pending i).active = false ∧
        rpcRegister pending callerTid serverChannel owner = (some i, Function.update pending i
          ⟨callerTid, serverChannel, serverOf owner, [], true, false⟩) := by
  unfold rpcRegister
  cases hfind : ids.find? fun i => !(pending i).active with
  | none => exact .inl rfl
  | some i => exact .inr ⟨i, by simpa using List.find?_some hfind, rfl⟩

/-- A reply goes to a call that waits, from its server or from a privileged task. -/
theorem rpcReply_cases (pending : Pending) (callerTid : UInt32) (data : Bytes) (replier : UInt32)
    (privileged : Bool) :
    rpcReply pending callerTid data replier privileged = (none, pending) ∨
      ∃ i, unanswered pending callerTid = some i ∧ (pending i).active = true ∧
        (pending i).callerTid = callerTid ∧ (pending i).done = false ∧
        (privileged = true ∨ (pending i).serverTid = replier ∧ replier ≠ NO_SERVER) ∧
        rpcReply pending callerTid data replier privileged =
          (some callerTid, Function.update pending i
            { pending i with reply := data.take RPC_MSG_MAX_LEN, done := true }) := by
  unfold rpcReply
  cases hfind : unanswered pending callerTid with
  | none => exact .inl rfl
  | some i =>
    have hfound : ((pending i).active = true ∧ (pending i).callerTid = callerTid) ∧
        (pending i).done = false := by
      simpa using List.find?_some hfind
    obtain ⟨⟨hactive, hcaller⟩, hdone⟩ := hfound
    dsimp only
    split_ifs with hrefused
    · exact .inl rfl
    · right
      refine ⟨i, rfl, hactive, hcaller, hdone, ?_, rfl⟩
      cases privileged with
      | true => exact .inl rfl
      | false =>
        right
        simp only [Bool.not_false, Bool.true_and, Bool.not_eq_true, Bool.or_eq_false_iff,
          beq_eq_false_iff_ne, bne_eq_false_iff_eq] at hrefused
        exact ⟨hrefused.2, hrefused.2 ▸ hrefused.1⟩

/-- The caller takes a reply out of one of its entries. -/
theorem rpcGetReply_cases (pending : Pending) (callerTid : UInt32) :
    rpcGetReply pending callerTid = (none, pending) ∨
      ∃ i, (pending i).active = true ∧ (pending i).callerTid = callerTid ∧
        (pending i).done = true ∧
        rpcGetReply pending callerTid =
          (some (pending i).reply, Function.update pending i .empty) := by
  unfold rpcGetReply
  cases hfind : ids.find? fun i =>
    (pending i).active && (pending i).callerTid == callerTid && (pending i).done with
  | none => exact .inl rfl
  | some i =>
    have hfound : ((pending i).active = true ∧ (pending i).callerTid = callerTid) ∧
        (pending i).done = true := by
      simpa using List.find?_some hfind
    exact .inr ⟨i, hfound.1.1, hfound.1.2, hfound.2, rfl⟩

/-- A cancelled entry is free, and the others stay. -/
theorem rpcCancelAll_entry (pending : Pending) (tid : UInt32) (i : RpcId) :
    rpcCancelAll pending tid i = pending i ∨ (rpcCancelAll pending tid i).active = false := by
  unfold rpcCancelAll
  split_ifs
  · exact .inr rfl
  · exact .inl rfl

/-! ## Operations -/

/-- An operation on the table. -/
inductive Op where
  | register (callerTid serverChannel : UInt32) (owner : Option UInt32)
  | reply (callerTid : UInt32) (data : Bytes) (replier : UInt32) (privileged : Bool)
  | getReply (callerTid : UInt32)
  deriving DecidableEq, Repr

def step (pending : Pending) : Op → Pending
  | .register callerTid serverChannel owner => (rpcRegister pending callerTid serverChannel owner).2
  | .reply callerTid data replier privileged =>
    (rpcReply pending callerTid data replier privileged).2
  | .getReply callerTid => (rpcGetReply pending callerTid).2

/-! ## A reply and its call -/

/-- A call of the client that has no reply yet. -/
def Unanswered (client : UInt32) (rpc : RpcPending) : Prop :=
  rpc.active = true ∧ rpc.callerTid = client ∧ rpc.done = false

instance (client : UInt32) (rpc : RpcPending) : Decidable (Unanswered client rpc) :=
  inferInstanceAs (Decidable (_ ∧ _))

/-- The call was snapshotted to the server. -/
def CallTo (client server : UInt32) (rpc : RpcPending) : Prop :=
  Unanswered client rpc ∧ rpc.serverTid = server ∧ server ≠ NO_SERVER

instance (client server : UInt32) (rpc : RpcPending) : Decidable (CallTo client server rpc) :=
  inferInstanceAs (Decidable (_ ∧ _))

/-- Every unanswered call of the client to somebody else has one to the server before it. -/
def Unobstructed (pending : Pending) (client server : UInt32) : Prop :=
  ∀ i, Unanswered client (pending i) → ¬CallTo client server (pending i) →
    ∃ j < i, CallTo client server (pending j)

instance (pending : Pending) (client server : UInt32) :
    Decidable (Unobstructed pending client server) :=
  inferInstanceAs (Decidable (∀ _, _ → _ → ∃ _, _ ∧ _))

/-- The reply completes a call of the client that was snapshotted to the server. -/
def Completes (pending : Pending) (client server : UInt32) (data : Bytes)
    (out : Option UInt32 × Pending) : Prop :=
  ∃ i, CallTo client server (pending i) ∧
    out = (some client, Function.update pending i { pending i with reply := data, done := true })

/-- The scan finds an unanswered call, and none stands before it. -/
theorem unanswered_eq_some {pending : Pending} {client : UInt32} {i : RpcId} :
    unanswered pending client = some i ↔
      Unanswered client (pending i) ∧ ∀ j < i, ¬Unanswered client (pending j) := by
  have hscan : ∀ j, ((pending j).active && (pending j).callerTid == client &&
      !(pending j).done) = true ↔ Unanswered client (pending j) := by
    intro j
    simp [Unanswered, and_assoc]
  rw [unanswered, ids, ← Fin.find?_eq_find?_finRange, Fin.find?_eq_some_iff, hscan]
  refine and_congr_right fun _ => forall₂_congr fun j _ => ?_
  rw [← hscan, Bool.not_eq_true]

/-- The reply of a task goes to the first unanswered call of the client. -/
theorem rpcReply_eq_of_first {pending : Pending} {client replier : UInt32} {i : RpcId}
    (data : Bytes) (privileged : Bool) (hfirst : unanswered pending client = some i)
    (hmay : privileged = true ∨ (pending i).serverTid = replier ∧ replier ≠ NO_SERVER) :
    rpcReply pending client data replier privileged =
      (some client, Function.update pending i
        { pending i with reply := data.take RPC_MSG_MAX_LEN, done := true }) := by
  simp only [rpcReply, hfirst]
  rw [if_neg]
  rcases hmay with rfl | ⟨hserver, hsome⟩
  · simp
  · simp [hserver, hsome]

/-- The first unanswered call of a client decides which reply is taken.  A reply of the
server completes a call that was snapshotted to it exactly when no call to somebody else
stands before all of these.  A task that serves no active call of the client changes
nothing. -/
theorem reply_finds_call (pending : Pending) (client : UInt32) (data : Bytes)
    (hdata : data.length ≤ RPC_MSG_MAX_LEN) :
    (∀ server privileged, (∃ i, CallTo client server (pending i)) →
      (Completes pending client server data (rpcReply pending client data server privileged) ↔
        Unobstructed pending client server)) ∧
    ∀ replier, (∀ i, (pending i).active = true → (pending i).callerTid = client →
        (pending i).serverTid ≠ replier) →
      rpcReply pending client data replier false = (none, pending) := by
  refine ⟨?_, ?_⟩
  · rintro server privileged ⟨k, hk⟩
    -- The first unanswered call of the client exists, since the one to the server is one.
    obtain ⟨i, hfirst⟩ : ∃ i, unanswered pending client = some i := by
      rw [← Option.isSome_iff_exists, unanswered, List.find?_isSome]
      exact ⟨k, List.mem_finRange k, by simp [hk.1.1, hk.1.2.1, hk.1.2.2]⟩
    obtain ⟨hi, hbefore⟩ := unanswered_eq_some.mp hfirst
    constructor
    · rintro ⟨l, hl, hout⟩ j hj hother
      -- What the reply wrote is the first call, so this is the one to the server.
      rcases rpcReply_cases pending client data server privileged with
        hnone | ⟨m, hm, -, -, hmdone, -, hsome⟩
      · rw [hnone] at hout
        cases hout
      · obtain rfl := Option.some.inj (hfirst.symm.trans hm)
        have hli : l = i := by
          by_contra hne
          have hat := congrFun ((Prod.mk.inj (hsome.symm.trans hout)).2) l
          rw [Function.update_self, Function.update_of_ne hne] at hat
          have hdone := hl.1.2.2
          rw [hat] at hdone
          cases hdone
        subst hli
        have hle : l ≤ j := not_lt.mp fun hlt => hbefore j hlt hj
        have hne : l ≠ j := by
          rintro rfl
          exact hother hl
        exact ⟨l, lt_of_le_of_ne hle hne, hl⟩
    · intro hclear
      have hserver : CallTo client server (pending i) := by
        by_contra hother
        obtain ⟨j, hj, hcall⟩ := hclear i hi hother
        exact hbefore j hj hcall.1
      refine ⟨i, hserver, ?_⟩
      rw [rpcReply_eq_of_first data privileged hfirst (.inr hserver.2),
        List.take_of_length_le hdata]
  · intro replier hnone
    rcases rpcReply_cases pending client data replier false with
      hrefused | ⟨i, -, hactive, hcaller, -, hmay, -⟩
    · exact hrefused
    · rcases hmay with hpriv | ⟨hserver, -⟩
      · cases hpriv
      · exact absurd hserver (hnone i hactive hcaller)

/-- Task 1 has called channel 10 of task 2 and was woken without a reply.  Then it calls
channel 11 of task 3. -/
def strandedCall : List Op := [.register 1 10 (some 2), .getReply 1, .register 1 11 (some 3)]

/-- The table after the run. -/
def strandedTable : Pending := strandedCall.foldl step fun _ => .empty

/-- Task 3 cannot reply to the call that waits for it. -/
theorem strandedTable_reply_lost :
    (∃ i, CallTo 1 3 (strandedTable i)) ∧
      ¬Completes strandedTable 1 3 [7] (rpcReply strandedTable 1 [7] 3 false) := by
  refine ⟨by decide +kernel, ?_⟩
  rintro ⟨i, -, hout⟩
  have hnone : (rpcReply strandedTable 1 [7] 3 false).1 = none := by decide +kernel
  rw [hout] at hnone
  cases hnone

/-- Task 2 can, since its call stands first. -/
theorem reply_finds_first_call :
    (∃ i, CallTo 1 3 (strandedTable i)) ∧
      Completes strandedTable 1 2 [7] (rpcReply strandedTable 1 [7] 2 false) := by
  refine ⟨by decide +kernel, ((reply_finds_call _ 1 [7] (by decide)).1 2 false ?_).mpr ?_⟩
  · decide +kernel
  · decide +kernel

end RobotOs.Ipc.Rpc
