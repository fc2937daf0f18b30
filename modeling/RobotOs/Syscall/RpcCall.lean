import RobotOs.Ipc.Rpc
import RobotOs.Lib.Journal
import RobotOs.Lib.Run

/-!
# The synchronous call

`SYS_IPC_CALL` and `SYS_IPC_REPLY` of `dispatch.rs` around the table of
`RobotOs.Ipc.Rpc`.  The client registers its call, sends the message, blocks once
and takes the reply when it wakes.  It may wake for any reason, and then there
may be no reply.

Each locked section is one step, and the steps of all tasks come in any order.
Whether the message could be sent and whether the reply could be copied to the
client are inputs, and so is the owner of the channel.  As in
`RobotOs.Syscall.FastCall` the calls are numbered, and the journal says what
happened.
-/

namespace RobotOs.Syscall.RpcCall

open RobotOs.Ipc.Rpc RobotOs.Lib.Run RobotOs.Lib.Journal
open RobotOs.Lib.Framing (Bytes)

/-- A task inside `SYS_IPC_CALL`. -/
structure Frame where
  number : Nat
  sent : Bool
  deriving DecidableEq, Repr

inductive Event where
  | registered (client : UInt32) (number : Nat) (server : UInt32)
  | deposited (replier : UInt32) (privileged : Bool) (number : Nat) (reply : Bytes)
  | returned (client : UInt32) (number : Nat) (reply : Option Bytes)
  deriving DecidableEq, Repr

structure System where
  pending : Pending
  frames : UInt32 → Option Frame
  numbers : RpcId → Nat
  next : Nat
  log : List Event

/-- Nothing has happened yet. -/
def System.boot : System := ⟨fun _ => .empty, fun _ => none, fun _ => 0, 0, []⟩

inductive Op where
  | register (client channel : UInt32) (owner : Option UInt32)
  | send (client : UInt32) (sent : Bool)
  | wake (client : UInt32) (copied : Bool)
  | reply (client : UInt32) (data : Bytes) (replier : UInt32) (privileged : Bool)
  | exit (tid : UInt32)
  deriving DecidableEq, Repr

namespace System

/-- The call ends. -/
def leave (sys : System) (client : UInt32) (frame : Frame) (pending : Pending)
    (reply : Option Bytes) : System :=
  { sys with
    pending := pending
    frames := Function.update sys.frames client none
    log := sys.log ++ [.returned client frame.number reply] }

/-- The call is registered before its message is sent. -/
def register (sys : System) (client channel : UInt32) (owner : Option UInt32) : System :=
  match sys.frames client with
  | some _ => sys
  | none =>
    match rpcRegister sys.pending client channel owner with
    | (none, _) => sys
    | (some i, pending) =>
      { pending := pending
        frames := Function.update sys.frames client (some ⟨sys.next, false⟩)
        numbers := Function.update sys.numbers i sys.next
        next := sys.next + 1
        log := sys.log ++ [.registered client sys.next (serverOf owner)] }

/-- `channel_send`.  When it fails the calls of the client are cancelled. -/
def send (sys : System) (client : UInt32) (sent : Bool) : System :=
  match sys.frames client with
  | none => sys
  | some frame =>
    if frame.sent then sys
    else if sent then
      { sys with frames := Function.update sys.frames client (some { frame with sent := true }) }
    else sys.leave client frame (rpcCancelAll sys.pending client) none

/-- `task_block` returns, and the client takes its reply. -/
def wake (sys : System) (client : UInt32) (copied : Bool) : System :=
  match sys.frames client with
  | none => sys
  | some frame =>
    if frame.sent then
      match rpcGetReply sys.pending client with
      | (none, _) => sys.leave client frame sys.pending none
      | (some reply, pending) =>
        sys.leave client frame pending (if copied then some reply else none)
    else sys

/-- `SYS_IPC_REPLY`.  No task answers itself. -/
def reply (sys : System) (client : UInt32) (data : Bytes) (replier : UInt32)
    (privileged : Bool) : System :=
  if client = replier then sys
  else
    match rpcReply sys.pending client data replier privileged with
    | (none, _) => sys
    | (some _, pending) =>
      match unanswered sys.pending client with
      | none => sys
      | some i =>
        { sys with
          pending := pending
          log := sys.log ++ [.deposited replier privileged (sys.numbers i) (pending i).reply] }

/-- The task exits. -/
def exit (sys : System) (tid : UInt32) : System :=
  { sys with
    pending := rpcCancelAll sys.pending tid
    frames := Function.update sys.frames tid none }

def step (sys : System) : Op → System
  | .register client channel owner => sys.register client channel owner
  | .send client sent => sys.send client sent
  | .wake client copied => sys.wake client copied
  | .reply client data replier privileged => sys.reply client data replier privileged
  | .exit tid => sys.exit tid

end System

/-- The server of a call, or a privileged task. -/
def MayAnswer (server replier : UInt32) (privileged : Bool) : Prop :=
  privileged = true ∨ (replier = server ∧ server ≠ NO_SERVER)

/-- A reply that a call returns was made after the call was registered, for this
call, by its server or by a privileged task. -/
def Correlated : Event → List Event → Prop
  | .returned client number (some reply), before =>
    ∃ server replier privileged, MayAnswer server replier privileged ∧
      List.Sublist
        [.registered client number server, .deposited replier privileged number reply] before
  | _, _ => True

/-- No entry of an earlier call is left when a task calls. -/
def Orderly (sys : System) : Op → Prop
  | .register client _ _ =>
    ∀ i, (sys.pending i).active = true → (sys.pending i).callerTid ≠ client
  | _ => True

instance (sys : System) (op : Op) : Decidable (Orderly sys op) :=
  match op with
  | .register _ _ _ => inferInstanceAs (Decidable (∀ _, _))
  | .send _ _ => isTrue trivial
  | .wake _ _ => isTrue trivial
  | .reply _ _ _ _ => isTrue trivial
  | .exit _ => isTrue trivial

/-! ## The invariant -/

/-- What the journal shows of the call in an entry. -/
def Story (log : List Event) (rpc : RpcPending) (number : Nat) : Prop :=
  rpc.active = true →
    if rpc.done then
      ∃ replier privileged, MayAnswer rpc.serverTid replier privileged ∧
        List.Sublist [.registered rpc.callerTid number rpc.serverTid,
          .deposited replier privileged number rpc.reply] log
    else List.Sublist [Event.registered rpc.callerTid number rpc.serverTid] log

theorem Story.snoc {log : List Event} {rpc : RpcPending} {number : Nat} {e : Event}
    (h : Story log rpc number) : Story (log ++ [e]) rpc number := by
  intro hactive
  have hshown := h hactive
  split_ifs at hshown ⊢
  · obtain ⟨replier, privileged, hmay, hsub⟩ := hshown
    exact ⟨replier, privileged, hmay, sublist_snoc hsub⟩
  · exact sublist_snoc hshown

/-- A story stays when the entry stays, and nothing is told of a free entry. -/
theorem Story.freed {log : List Event} {rpc rpc' : RpcPending} {number : Nat}
    (h : Story log rpc number) (hentry : rpc' = rpc ∨ rpc'.active = false) :
    Story log rpc' number := by
  rcases hentry with rfl | hfree
  · exact h
  · intro hactive
    rw [hfree] at hactive
    exact absurd hactive (by simp)

structure Inv (sys : System) : Prop where
  story : ∀ i, Story sys.log (sys.pending i) (sys.numbers i)
  /-- The entries of a client that waits are those of the call it waits for. -/
  own : ∀ client frame i, sys.frames client = some frame →
    (sys.pending i).active = true → (sys.pending i).callerTid = client →
    sys.numbers i = frame.number
  justified : Justified Correlated sys.log

theorem inv_boot : Inv System.boot where
  story i := fun hactive => by simp [System.boot, RpcPending.empty] at hactive
  own client frame i hframe := by simp [System.boot] at hframe
  justified := justified_nil

namespace Inv

variable {sys : System} (h : Inv sys)
include h

/-- A call ends.  Entries are freed at most. -/
theorem leave {client : UInt32} {frame : Frame} {pending : Pending} {reply : Option Bytes}
    (hentries : ∀ i, pending i = sys.pending i ∨ (pending i).active = false)
    (hreply : Correlated (.returned client frame.number reply) sys.log) :
    Inv (sys.leave client frame pending reply) where
  story i := (h.story i).snoc.freed (hentries i)
  justified := h.justified.snoc hreply
  own := by
    intro other found i hfound hactive hcaller
    simp only [System.leave] at hfound hactive hcaller
    have hother : other ≠ client := by
      rintro rfl
      simp at hfound
    rw [Function.update_of_ne hother] at hfound
    rcases hentries i with heq | hfree
    · rw [heq] at hactive hcaller
      exact h.own other found i hfound hactive hcaller
    · rw [hfree] at hactive
      exact absurd hactive (by simp)

theorem register {client channel : UInt32} {owner : Option UInt32}
    (horderly : Orderly sys (.register client channel owner)) :
    Inv (sys.register client channel owner) := by
  unfold System.register
  split
  · exact h
  next hidle =>
    rcases rpcRegister_cases sys.pending client channel owner with hnone | ⟨i, hfree, hsome⟩
    · simp only [hnone]
      exact h
    · simp only [hsome]
      refine ⟨?_, ?_, h.justified.snoc trivial⟩
      · intro j
        simp only [Function.update_apply]
        split_ifs with hj
        · intro _
          exact List.sublist_append_right sys.log _
        · exact (h.story j).snoc
      · intro other frame j hframe hactive hcaller
        simp only [Function.update_apply] at hframe hactive hcaller ⊢
        by_cases hj : j = i
        · rw [if_pos hj] at hcaller ⊢
          rw [if_pos hcaller.symm] at hframe
          obtain rfl := Option.some.inj hframe
          rfl
        · rw [if_neg hj] at hactive hcaller ⊢
          by_cases hother : other = client
          · -- Another entry of the client would be left from an earlier call.
            exact absurd (hcaller.trans hother) (horderly j hactive)
          · rw [if_neg hother] at hframe
            exact h.own other frame j hframe hactive hcaller

theorem send (client : UInt32) (sent : Bool) : Inv (sys.send client sent) := by
  unfold System.send
  split
  · exact h
  next frame hframe =>
    split_ifs
    · exact h
    · refine ⟨h.story, ?_, h.justified⟩
      intro other found i hfound hactive hcaller
      simp only [Function.update_apply] at hfound
      split_ifs at hfound with hother
      · obtain rfl := Option.some.inj hfound
        exact h.own client frame i hframe hactive (hcaller.trans hother)
      · exact h.own other found i hfound hactive hcaller
    · exact h.leave (rpcCancelAll_entry sys.pending client) trivial

theorem wake (client : UInt32) (copied : Bool) : Inv (sys.wake client copied) := by
  unfold System.wake
  split
  · exact h
  next frame hframe =>
    by_cases hsent : frame.sent
    · rw [if_pos hsent]
      rcases rpcGetReply_cases sys.pending client with
        hnone | ⟨i, hactive, hcaller, hdone, hsome⟩
      · simp only [hnone]
        exact h.leave (fun i => .inl rfl) trivial
      · simp only [hsome]
        refine h.leave ?_ ?_
        · intro j
          simp only [Function.update_apply]
          split_ifs
          · exact .inr rfl
          · exact .inl rfl
        · -- The reply is in the entry of the call that the client waits for.
          have hnumber := h.own client frame i hframe hactive hcaller
          have hstory := h.story i hactive
          rw [if_pos hdone, hcaller, hnumber] at hstory
          cases copied with
          | false => trivial
          | true => exact ⟨_, hstory⟩
    · rw [if_neg hsent]
      exact h

theorem reply (client : UInt32) (data : Bytes) (replier : UInt32) (privileged : Bool) :
    Inv (sys.reply client data replier privileged) := by
  unfold System.reply
  split_ifs
  · exact h
  · rcases rpcReply_cases sys.pending client data replier privileged with
      hnone | ⟨i, hfirst, hactive, hcaller, hdone, hmay, hsome⟩
    · rw [hnone]
      exact h
    · simp only [hfirst, hsome, Function.update_self]
      refine ⟨?_, ?_, h.justified.snoc trivial⟩
      · intro j
        simp only [Function.update_apply]
        split_ifs with hj
        · intro _
          have hstory := h.story i hactive
          rw [hdone] at hstory
          rw [hj]
          refine ⟨replier, privileged, ?_, sublist_snoc_snoc hstory⟩
          rcases hmay with hpriv | ⟨hserver, hne⟩
          · exact .inl hpriv
          · exact .inr ⟨hserver.symm, by rw [hserver]; exact hne⟩
        · exact (h.story j).snoc
      · intro other frame j hframe hactive' hcaller'
        simp only [Function.update_apply] at hactive' hcaller'
        split_ifs at hactive' hcaller' with hj
        · rw [hj]
          exact h.own other frame i hframe hactive hcaller'
        · exact h.own other frame j hframe hactive' hcaller'

theorem exit (tid : UInt32) : Inv (sys.exit tid) := by
  refine ⟨?_, ?_, h.justified⟩
  · intro i
    exact (h.story i).freed (rpcCancelAll_entry sys.pending tid i)
  · intro client frame i hframe hactive hcaller
    simp only [System.exit, Function.update_apply] at hframe hactive hcaller ⊢
    split_ifs at hframe
    rcases rpcCancelAll_entry sys.pending tid i with heq | hfree
    · rw [heq] at hactive hcaller
      exact h.own client frame i hframe hactive hcaller
    · rw [hfree] at hactive
      exact absurd hactive (by simp)

theorem step {op : Op} (horderly : Orderly sys op) : Inv (sys.step op) := by
  cases op with
  | register client channel owner => exact h.register horderly
  | send client sent => exact h.send client sent
  | wake client copied => exact h.wake client copied
  | reply client data replier privileged => exact h.reply client data replier privileged
  | exit tid => exact h.exit tid

end Inv

/-- In an orderly run every reply that a call returns was made for this call, by
its server or by a privileged task. -/
theorem rpcCall_correlated (ops : List Op)
    (horderly : Guarded System.step Orderly System.boot ops) :
    Justified Correlated (run System.step System.boot ops).log :=
  (run_invariant_of_guarded Inv (fun _ _ h hop => h.step hop) inv_boot horderly).justified

/-- Two calls of one client, each answered. -/
def twoCalls : List Op :=
  [.register 1 5 (some 2), .send 1 true, .reply 1 [11] 2 false, .wake 1 true,
    .register 1 5 (some 2), .send 1 true, .reply 1 [21] 2 false, .wake 1 true]

theorem rpcCall_correlated_twoCalls :
    Event.returned 1 1 (some [21]) ∈ (run System.step System.boot twoCalls).log ∧
      Justified Correlated (run System.step System.boot twoCalls).log :=
  ⟨by decide +kernel, rpcCall_correlated twoCalls (by decide +kernel)⟩

/-- The client wakes for another reason and gives up its first call, the server
answers that call, and the client calls again. -/
def staleReply : List Op :=
  [.register 1 5 (some 2), .send 1 true, .wake 1 true, .reply 1 [11] 2 false,
    .register 1 5 (some 2), .send 1 true, .wake 1 true]

/-- The second call returns the reply that was made for the first, before the
second was registered. -/
theorem staleReply_delivered :
    (run System.step System.boot staleReply).log =
        [.registered 1 0 2, .returned 1 0 none, .deposited 2 false 0 [11],
          .registered 1 1 2, .returned 1 1 (some [11])] ∧
      ¬Justified Correlated (run System.step System.boot staleReply).log := by
  have hlog : (run System.step System.boot staleReply).log =
      [.registered 1 0 2, .returned 1 0 none, .deposited 2 false 0 [11],
        .registered 1 1 2, .returned 1 1 (some [11])] := by
    decide +kernel
  refine ⟨hlog, fun hjustified => ?_⟩
  obtain ⟨server, replier, privileged, -, hshown⟩ := hjustified
    [.registered 1 0 2, .returned 1 0 none, .deposited 2 false 0 [11], .registered 1 1 2]
    (.returned 1 1 (some [11])) [] hlog
  have hmem : Event.deposited replier privileged 1 [11] ∈ _ := hshown.subset (by simp)
  simp at hmem

end RobotOs.Syscall.RpcCall
