import RobotOs.Ipc.FastIpc
import RobotOs.Lib.Journal

/-!
# The fast call

`SYS_IPC_FAST_CALL` of `dispatch.rs` around the table of `RobotOs.Ipc.FastIpc`.
The client takes a slot, wakes the server and blocks.  Whenever it wakes, for
whatever reason, it collects a reply that is addressed to it; when there is none
it asks for the state of its slot and blocks again, at most eight times.

Each locked section is one step, and the steps of all tasks come in any order.
`wake` is the return from `task_block` with the collect that follows it, and
`probe` is the question that follows a collect without a reply.  A wake may come
at any time.  An accept is one look at the table; the loop of
`SYS_IPC_FAST_ACCEPT` around it is not modelled, since a server may look at any
time.

The calls are numbered.  The number of a call, the number that a slot was taken
for and the journal are not in the source; they say which call is which.
-/

namespace RobotOs.Syscall.FastCall

open RobotOs.Ipc.FastIpc RobotOs.Lib.Run RobotOs.Lib.Journal

def MAX_SPURIOUS_WAKES : Nat := 8

/-- A task inside the system call. -/
structure Frame where
  handle : UInt64
  number : Nat
  turn : Nat
  probing : Bool
  deriving DecidableEq, Repr

inductive Event where
  | called (client : UInt32) (number : Nat)
  | accepted (server : UInt32) (number : Nat)
  | deposited (replier : UInt32) (number : Nat) (words : Words)
  | returned (client : UInt32) (number : Nat) (reply : Option Words)
  deriving DecidableEq, Repr

structure System where
  table : FastIpcState
  frames : UInt32 → Option Frame
  numbers : Idx → Nat
  next : Nat
  log : List Event

/-- Nothing has happened yet. -/
def System.boot : System := ⟨.new, fun _ => none, fun _ => 0, 0, []⟩

inductive Op where
  | call (client server : UInt32) (words : Words) (tidExists : Bool)
  | wake (client : UInt32)
  | probe (client : UInt32)
  | accept (server : UInt32)
  | reply (handle : UInt64) (replier : UInt32) (privileged : Bool) (words : Words)
  | exit (tid : UInt32)
  deriving DecidableEq, Repr

namespace System

/-- A slot is taken for a call, and the client blocks. -/
def enter (sys : System) (client : UInt32) (handle : UInt64) (table : FastIpcState) (i : Idx) :
    System :=
  { table := table
    frames := Function.update sys.frames client (some ⟨handle, sys.next, 0, false⟩)
    numbers := Function.update sys.numbers i sys.next
    next := sys.next + 1
    log := sys.log ++ [.called client sys.next] }

/-- The call ends. -/
def leave (sys : System) (client : UInt32) (frame : Frame) (table : FastIpcState)
    (reply : Option Words) : System :=
  { sys with
    table := table
    frames := Function.update sys.frames client none
    log := sys.log ++ [.returned client frame.number reply] }

/-- The client goes on to another point of the loop. -/
def setFrame (sys : System) (client : UInt32) (frame : Frame) : System :=
  { sys with frames := Function.update sys.frames client (some frame) }

/-- The start of `SYS_IPC_FAST_CALL`. -/
def call (sys : System) (client server : UInt32) (words : Words) (tidExists : Bool) : System :=
  match sys.frames client with
  | some _ => sys
  | none =>
    match fastIpcCall sys.table client server words tidExists with
    | (none, _) => sys
    | (some handle, table) =>
      match fastIpcHandleSlot handle with
      | none => sys
      | some i => sys.enter client handle table i

/-- `task_block` returns, and the client collects. -/
def wake (sys : System) (client : UInt32) : System :=
  match sys.frames client with
  | none => sys
  | some frame =>
    if frame.probing then sys
    else
      match fastIpcCollect sys.table client with
      | (some reply, table) => sys.leave client frame table (some reply)
      | (none, _) => sys.setFrame client { frame with probing := true }

/-- The client asks for the state of its slot, and blocks again or gives up. -/
def probe (sys : System) (client : UInt32) : System :=
  match sys.frames client with
  | none => sys
  | some frame =>
    if frame.probing then
      match fastIpcWaitState sys.table frame.handle client with
      | .gone => sys.leave client frame sys.table none
      | .waiting | .ready =>
        if frame.turn + 1 < MAX_SPURIOUS_WAKES then
          sys.setFrame client { frame with turn := frame.turn + 1, probing := false }
        else sys.leave client frame sys.table none
    else sys

/-- A look of `SYS_IPC_FAST_ACCEPT` at the table. -/
def accept (sys : System) (server : UInt32) : System :=
  match fastIpcAccept sys.table server with
  | (none, _) => sys
  | (some (handle, _, _), table) =>
    match fastIpcHandleSlot handle with
    | none => sys
    | some i => { sys with table := table, log := sys.log ++ [.accepted server (sys.numbers i)] }

/-- `SYS_IPC_FAST_REPLY`. -/
def reply (sys : System) (handle : UInt64) (replier : UInt32) (privileged : Bool)
    (words : Words) : System :=
  match fastIpcReply sys.table handle replier privileged words with
  | (.woke _ i, table) =>
    { sys with table := table, log := sys.log ++ [.deposited replier (sys.numbers i) words] }
  | _ => sys

/-- The task exits, and its slots are released. -/
def exit (sys : System) (tid : UInt32) : System :=
  { sys with
    table := (fastIpcReleaseAll sys.table tid).st
    frames := Function.update sys.frames tid none }

def step (sys : System) : Op → System
  | .call client server words tidExists => sys.call client server words tidExists
  | .wake client => sys.wake client
  | .probe client => sys.probe client
  | .accept server => sys.accept server
  | .reply handle replier privileged words => sys.reply handle replier privileged words
  | .exit tid => sys.exit tid

end System

/-- A reply that a call returns was deposited by a server that accepted this call. -/
def Correlated : Event → List Event → Prop
  | .returned client number (some words), before =>
    ∃ server, List.Sublist
      [.called client number, .accepted server number, .deposited server number words] before
  | _, _ => True

/-- No slot of an earlier call is left when a task calls, and a privileged task
answers the calls that it serves. -/
def Orderly (sys : System) : Op → Prop
  | .call client _ _ _ =>
    ∀ i, (sys.table.slots i).state ≠ .free → (sys.table.slots i).callerTid ≠ client
  | .reply handle replier privileged _ =>
    privileged = true → ∀ i, fastIpcHandleSlot handle = some i →
      (sys.table.slots i).serverTid = replier
  | _ => True

instance (sys : System) (op : Op) : Decidable (Orderly sys op) :=
  match op with
  | .call _ _ _ _ => inferInstanceAs (Decidable (∀ _, _))
  | .reply _ _ _ _ => inferInstanceAs (Decidable (_ → ∀ _, _))
  | .wake _ => isTrue trivial
  | .probe _ => isTrue trivial
  | .accept _ => isTrue trivial
  | .exit _ => isTrue trivial

/-! ## The invariant -/

/-- What the journal shows of the exchange in a slot. -/
def Story (log : List Event) (slot : FastIpcSlot) (number : Nat) : Prop :=
  match slot.state with
  | .free => True
  | .pending => List.Sublist [Event.called slot.callerTid number] log
  | .accepted =>
    List.Sublist [.called slot.callerTid number, .accepted slot.serverTid number] log
  | .replied => ∃ server, List.Sublist
      [.called slot.callerTid number, .accepted server number,
        .deposited server number slot.words] log

theorem Story.snoc {log : List Event} {slot : FastIpcSlot} {number : Nat} {e : Event}
    (h : Story log slot number) : Story (log ++ [e]) slot number := by
  unfold Story at h ⊢
  split at h
  · trivial
  · exact sublist_snoc h
  · exact sublist_snoc h
  · exact h.imp fun _ => sublist_snoc

structure Inv (sys : System) : Prop where
  story : ∀ i, Story sys.log (sys.table.slots i) (sys.numbers i)
  /-- The slots of a client that waits are those of the call it waits for. -/
  own : ∀ client frame i, sys.frames client = some frame →
    (sys.table.slots i).state ≠ .free → (sys.table.slots i).callerTid = client →
    sys.numbers i = frame.number
  justified : Justified Correlated sys.log

theorem inv_boot : Inv System.boot where
  story i := trivial
  own client frame i hframe := by simp [System.boot] at hframe
  justified := justified_nil

namespace Inv

variable {sys : System} (h : Inv sys)
include h

theorem setFrame {client : UInt32} {frame : Frame} (hframe : sys.frames client = some frame)
    (frame' : Frame) (hnumber : frame'.number = frame.number) :
    Inv (sys.setFrame client frame') where
  story := h.story
  justified := h.justified
  own := by
    intro other found i hfound hlive hcaller
    simp only [System.setFrame] at hfound
    by_cases hother : other = client
    · rw [hother, Function.update_self] at hfound
      obtain rfl := Option.some.inj hfound
      rw [hnumber]
      exact h.own client frame i hframe hlive (hcaller.trans hother)
    · rw [Function.update_of_ne hother] at hfound
      exact h.own other found i hfound hlive hcaller

/-- A call ends.  Slots are freed at most. -/
theorem leave {client : UInt32} {frame : Frame} {table : FastIpcState} {reply : Option Words}
    (hslots : ∀ i, table.slots i = sys.table.slots i ∨ (table.slots i).state = .free)
    (hreply : Correlated (.returned client frame.number reply) sys.log) :
    Inv (sys.leave client frame table reply) where
  story := by
    intro i
    show Story (sys.log ++ [_]) (table.slots i) (sys.numbers i)
    rcases hslots i with heq | hfree
    · rw [heq]
      exact (h.story i).snoc
    · simp [Story, hfree]
  justified := h.justified.snoc hreply
  own := by
    intro other found i hfound hlive hcaller
    simp only [System.leave] at hfound hlive hcaller
    have hother : other ≠ client := by
      rintro rfl
      simp at hfound
    rw [Function.update_of_ne hother] at hfound
    rcases hslots i with heq | hfree
    · rw [heq] at hlive hcaller
      exact h.own other found i hfound hlive hcaller
    · exact absurd hfree hlive

theorem call {client server : UInt32} {words : Words} {tidExists : Bool}
    (horderly : Orderly sys (.call client server words tidExists)) :
    Inv (sys.call client server words tidExists) := by
  unfold System.call
  split
  · exact h
  next hidle =>
    rcases fastIpcCall_cases sys.table client server words tidExists with
      hnone | ⟨i, table, hsome, -, -, hfree, hwrites⟩
    · simp only [hnone]
      exact h
    · simp only [hsome, fastIpcHandleSlot_make]
      refine ⟨?_, ?_, h.justified.snoc trivial⟩
      · intro j
        simp only [System.enter, hwrites j, Function.update_apply]
        split_ifs with hj
        · exact List.sublist_append_right sys.log _
        · exact (h.story j).snoc
      · intro other frame j hframe hlive hcaller
        simp only [System.enter, Function.update_apply, hwrites j] at hframe hlive hcaller ⊢
        by_cases hj : j = i
        · rw [if_pos hj] at hcaller ⊢
          rw [if_pos hcaller.symm] at hframe
          obtain rfl := Option.some.inj hframe
          rfl
        · rw [if_neg hj] at hlive hcaller ⊢
          by_cases hother : other = client
          · -- Another slot of the client would be left from an earlier call.
            exact absurd (hcaller.trans hother) (horderly j hlive)
          · rw [if_neg hother] at hframe
            exact h.own other frame j hframe hlive hcaller

theorem wake (client : UInt32) : Inv (sys.wake client) := by
  unfold System.wake
  split
  · exact h
  next frame hframe =>
    split_ifs
    · exact h
    · rcases fastIpcCollect_cases sys.table client with
        hnone | ⟨i, table, hsome, hreplied, hcaller, hwrites⟩
      · simp only [hnone]
        exact h.setFrame hframe _ rfl
      · simp only [hsome]
        refine h.leave ?_ ?_
        · intro j
          rw [hwrites j]
          split_ifs
          · exact .inr rfl
          · exact .inl rfl
        · -- The reply is in the slot of the call that the client waits for.
          have hnumber := h.own client frame i hframe (by simp [hreplied]) hcaller
          have hstory := h.story i
          simp only [Story, hreplied, hcaller, hnumber] at hstory
          exact hstory

theorem probe (client : UInt32) : Inv (sys.probe client) := by
  have hleave : ∀ frame, Inv (sys.leave client frame sys.table none) := fun frame =>
    h.leave (fun i => .inl rfl) trivial
  unfold System.probe
  split
  · exact h
  next frame hframe =>
    by_cases hprobing : frame.probing
    · have hagain : Inv (if frame.turn + 1 < MAX_SPURIOUS_WAKES then
          sys.setFrame client { frame with turn := frame.turn + 1, probing := false }
          else sys.leave client frame sys.table none) := by
        split_ifs
        · exact h.setFrame hframe _ rfl
        · exact hleave frame
      rw [if_pos hprobing]
      cases fastIpcWaitState sys.table frame.handle client with
      | gone => exact hleave frame
      | waiting => exact hagain
      | ready => exact hagain
    · rw [if_neg hprobing]
      exact h

theorem accept (server : UInt32) : Inv (sys.accept server) := by
  unfold System.accept
  rcases fastIpcAccept_cases sys.table server with
    hnone | ⟨i, table, hsome, hpending, hserver, hwrites⟩
  · simp only [hnone]
    exact h
  · simp only [hsome, fastIpcHandleSlot_make]
    refine ⟨?_, ?_, h.justified.snoc trivial⟩
    · intro j
      simp only [hwrites j]
      split_ifs with hj
      · have hstory := h.story i
        simp only [Story, hpending] at hstory
        rw [hj, ← hserver]
        exact sublist_snoc_snoc hstory
      · exact (h.story j).snoc
    · intro client frame j hframe hlive hcaller
      simp only [hwrites j] at hlive hcaller
      split_ifs at hlive hcaller with hj
      · rw [hj]
        exact h.own client frame i hframe (by simp [hpending]) hcaller
      · exact h.own client frame j hframe hlive hcaller

theorem reply {handle : UInt64} {replier : UInt32} {privileged : Bool} {words : Words}
    (horderly : Orderly sys (.reply handle replier privileged words)) :
    Inv (sys.reply handle replier privileged words) := by
  unfold System.reply
  rcases fastIpcReply_cases sys.table handle replier privileged words with
    ⟨hturned, -⟩ | ⟨i, table, hwoke, hhandle, haccepted, hmay, hwrites⟩
  · split
    next heq =>
      rw [heq] at hturned
      simp at hturned
    · exact h
  · have hserver : (sys.table.slots i).serverTid = replier := by
      rcases hmay with hpriv | hserver
      · exact horderly hpriv i (by rw [hhandle, fastIpcHandleSlot_make])
      · exact hserver
    simp only [hwoke]
    refine ⟨?_, ?_, h.justified.snoc trivial⟩
    · intro j
      simp only [hwrites j]
      split_ifs with hj
      · have hstory := h.story i
        simp only [Story, haccepted, hserver] at hstory
        rw [hj]
        exact ⟨replier, sublist_snoc_snoc hstory⟩
      · exact (h.story j).snoc
    · intro client frame j hframe hlive hcaller
      simp only [hwrites j] at hlive hcaller
      split_ifs at hlive hcaller with hj
      · rw [hj]
        exact h.own client frame i hframe (by simp [haccepted]) hcaller
      · exact h.own client frame j hframe hlive hcaller

theorem exit (tid : UInt32) : Inv (sys.exit tid) := by
  have hslots : ∀ i, (fastIpcReleaseAll sys.table tid).st.slots i = sys.table.slots i ∨
      ((fastIpcReleaseAll sys.table tid).st.slots i).state = .free := by
    intro i
    rw [slots_fastIpcReleaseAll]
    split_ifs
    · exact .inr rfl
    · exact .inl rfl
  unfold System.exit
  generalize (fastIpcReleaseAll sys.table tid).st = table at hslots
  refine ⟨?_, ?_, h.justified⟩
  · intro i
    show Story sys.log (table.slots i) (sys.numbers i)
    rcases hslots i with heq | hfree
    · rw [heq]
      exact h.story i
    · simp [Story, hfree]
  · intro client frame i hframe hlive hcaller
    simp only [Function.update_apply] at hframe
    split_ifs at hframe
    rcases hslots i with heq | hfree
    · rw [heq] at hlive hcaller
      exact h.own client frame i hframe hlive hcaller
    · exact absurd hfree hlive

theorem step {op : Op} (horderly : Orderly sys op) : Inv (sys.step op) := by
  cases op with
  | call client server words tidExists => exact h.call horderly
  | wake client => exact h.wake client
  | probe client => exact h.probe client
  | accept server => exact h.accept server
  | reply handle replier privileged words => exact h.reply horderly
  | exit tid => exact h.exit tid

end Inv

/-- In an orderly run every reply that a call returns was deposited for this call,
by the server that accepted it. -/
theorem fastCall_correlated (ops : List Op)
    (horderly : Guarded System.step Orderly System.boot ops) :
    Justified Correlated (run System.step System.boot ops).log :=
  (run_invariant_of_guarded Inv (fun _ _ h hop => h.step hop) inv_boot horderly).justified

/-- A call that is answered, and a second one by the same client. -/
def twoCalls : List Op :=
  [.call 1 2 ⟨10, 0, 0, 0⟩ true, .wake 1, .probe 1, .accept 2,
    .reply (fastIpcMakeHandle ⟨0, zero_lt_maxSlots⟩ 0) 2 false ⟨11, 0, 0, 0⟩, .wake 1,
    .call 1 2 ⟨20, 0, 0, 0⟩ true, .accept 2,
    .reply (fastIpcMakeHandle ⟨0, zero_lt_maxSlots⟩ 1) 2 false ⟨21, 0, 0, 0⟩, .wake 1]

theorem fastCall_correlated_twoCalls :
    Event.returned 1 1 (some ⟨21, 0, 0, 0⟩) ∈ (run System.step System.boot twoCalls).log ∧
      Justified Correlated (run System.step System.boot twoCalls).log :=
  ⟨by decide +kernel, fastCall_correlated twoCalls (by decide +kernel)⟩

/-- Eight wakes that have nothing to do with the call. -/
def unrelatedWakes : List Op := (List.replicate 8 [.wake 1, .probe 1]).flatten

/-- The client gives up on its first call, the server answers it, and the client
calls again. -/
def staleReply : List Op :=
  .call 1 2 ⟨10, 0, 0, 0⟩ true :: unrelatedWakes ++
    [.accept 2, .reply (fastIpcMakeHandle ⟨0, zero_lt_maxSlots⟩ 0) 2 false ⟨11, 0, 0, 0⟩,
      .call 1 2 ⟨20, 0, 0, 0⟩ true, .wake 1]

/-- The second call returns the answer to the first. -/
theorem staleReply_returned :
    (run System.step System.boot staleReply).log =
        [.called 1 0, .returned 1 0 none, .accepted 2 0, .deposited 2 0 ⟨11, 0, 0, 0⟩,
          .called 1 1, .returned 1 1 (some ⟨11, 0, 0, 0⟩)] ∧
      ¬Justified Correlated (run System.step System.boot staleReply).log := by
  have hlog : (run System.step System.boot staleReply).log =
      [.called 1 0, .returned 1 0 none, .accepted 2 0, .deposited 2 0 ⟨11, 0, 0, 0⟩,
        .called 1 1, .returned 1 1 (some ⟨11, 0, 0, 0⟩)] := by
    decide +kernel
  refine ⟨hlog, fun hjustified => ?_⟩
  obtain ⟨server, hshown⟩ := hjustified
    [.called 1 0, .returned 1 0 none, .accepted 2 0, .deposited 2 0 ⟨11, 0, 0, 0⟩, .called 1 1]
    (.returned 1 1 (some ⟨11, 0, 0, 0⟩)) [] hlog
  have hmem : Event.deposited server 1 ⟨11, 0, 0, 0⟩ ∈ _ := hshown.subset (by simp)
  simp at hmem

end RobotOs.Syscall.FastCall
