import RobotOs.Lib.Run
import Mathlib.Tactic

/-!
# Fast IPC

`fast_ipc.rs` of the ipc crate.  A call deposits four words in a slot of one
table for the whole board, the server accepts the slot and deposits its reply
there, and the client collects it.

A handle names an exchange.  It holds the index of the slot and the generation
of the slot, which goes up each time the slot is freed.  The four words of a
message are a record, and `used` is a number without a bound; it never passes
the number of slots.

Each operation has one lemma that lists its outcomes (`fastIpcCall_cases` and so
on), and nothing else looks into the operations.  `Change` is the same for one
slot, and `change_perform` says that every operation does one of its changes.
-/

namespace RobotOs.Ipc.FastIpc

open RobotOs.Lib.Run

/-! ## Handles -/

def FAST_IPC_MAX_SLOTS : Nat := 64

/-- The sentinel in the task fields of a free slot. -/
def FAST_IPC_SLOT_FREE : UInt32 := 0xffffffff

def FAST_IPC_SLOT_BITS : UInt64 := 6

def FAST_IPC_SLOT_MASK : UInt64 := (1 <<< FAST_IPC_SLOT_BITS) - 1

def FAST_IPC_GEN_MASK : UInt64 := (1 <<< (63 - FAST_IPC_SLOT_BITS)) - 1

/-- `i64::MAX`. -/
def I64_MAX : UInt64 := 0x7fffffffffffffff

/-- The index of a slot. -/
abbrev Idx := Fin FAST_IPC_MAX_SLOTS

theorem zero_lt_maxSlots : 0 < FAST_IPC_MAX_SLOTS := by decide

/-- `fast_ipc_make_handle`. -/
def fastIpcMakeHandle (slotIdx : Idx) (generation : UInt64) : UInt64 :=
  ((generation &&& FAST_IPC_GEN_MASK) <<< FAST_IPC_SLOT_BITS) |||
    (UInt64.ofNat slotIdx &&& FAST_IPC_SLOT_MASK)

/-- `fast_ipc_handle_slot`. -/
def fastIpcHandleSlot (handle : UInt64) : Option Idx :=
  if handle > I64_MAX then none
  else
    let idx := (handle &&& FAST_IPC_SLOT_MASK).toNat
    if h : idx < FAST_IPC_MAX_SLOTS then some ⟨idx, h⟩ else none

/-- `handle_generation`. -/
def handleGeneration (handle : UInt64) : UInt64 :=
  (handle >>> FAST_IPC_SLOT_BITS) &&& FAST_IPC_GEN_MASK

/-- The number of generations. -/
def GENERATIONS : Nat := 2 ^ 57

theorem toNat_and_slotMask (x : UInt64) : (x &&& FAST_IPC_SLOT_MASK).toNat = x.toNat % 64 := by
  rw [UInt64.toNat_and]
  exact Nat.and_two_pow_sub_one_eq_mod x.toNat 6

theorem toNat_and_genMask (x : UInt64) :
    (x &&& FAST_IPC_GEN_MASK).toNat = x.toNat % GENERATIONS := by
  rw [UInt64.toNat_and]
  exact Nat.and_two_pow_sub_one_eq_mod x.toNat 57

theorem toNat_make (i : Idx) (g : UInt64) :
    (fastIpcMakeHandle i g).toNat = g.toNat % GENERATIONS * 64 + i := by
  have hi : i.val < 64 := i.isLt
  have hlow : (UInt64.ofNat i &&& FAST_IPC_SLOT_MASK).toNat = i := by
    rw [toNat_and_slotMask, UInt64.toNat_ofNat']
    omega
  have hhigh : ((g &&& FAST_IPC_GEN_MASK) <<< FAST_IPC_SLOT_BITS).toNat =
      (g.toNat % GENERATIONS) <<< 6 := by
    rw [UInt64.toNat_shiftLeft, toNat_and_genMask]
    have hlt : g.toNat % GENERATIONS < 2 ^ 57 := Nat.mod_lt _ (by decide)
    have hbits : FAST_IPC_SLOT_BITS.toNat % 64 = 6 := by decide
    rw [hbits, Nat.mod_eq_of_lt]
    rw [Nat.shiftLeft_eq]
    omega
  rw [fastIpcMakeHandle, UInt64.toNat_or, hlow, hhigh,
    ← Nat.shiftLeft_add_eq_or_of_lt (i := 6) (by omega), Nat.shiftLeft_eq]

@[simp] theorem fastIpcHandleSlot_make (i : Idx) (g : UInt64) :
    fastIpcHandleSlot (fastIpcMakeHandle i g) = some i := by
  have hi : i.val < 64 := i.isLt
  have hlt : g.toNat % GENERATIONS < 2 ^ 57 := Nat.mod_lt _ (by decide)
  have hmake := toNat_make i g
  have hpos : ¬fastIpcMakeHandle i g > I64_MAX := by
    rw [gt_iff_lt, UInt64.lt_iff_toNat_lt, hmake]
    show ¬0x7fffffffffffffff < _
    omega
  have hidx : (fastIpcMakeHandle i g &&& FAST_IPC_SLOT_MASK).toNat = i := by
    rw [toNat_and_slotMask, hmake]
    omega
  simp only [fastIpcHandleSlot, if_neg hpos, hidx, i.isLt, dite_true]

theorem toNat_handleGeneration_make (i : Idx) (g : UInt64) :
    (handleGeneration (fastIpcMakeHandle i g)).toNat = g.toNat % GENERATIONS := by
  have hi : i.val < 64 := i.isLt
  have hbits : FAST_IPC_SLOT_BITS.toNat % 64 = 6 := by decide
  rw [handleGeneration, toNat_and_genMask, UInt64.toNat_shiftRight, toNat_make, hbits,
    Nat.shiftRight_eq_div_pow]
  have hdiv : (g.toNat % GENERATIONS * 64 + i) / 2 ^ 6 = g.toNat % GENERATIONS := by omega
  rw [hdiv, Nat.mod_mod]

/-- A handle is what its slot and its generation make. -/
theorem eq_make_of_slot {handle : UInt64} {i : Idx} (h : fastIpcHandleSlot handle = some i) :
    handle = fastIpcMakeHandle i (handleGeneration handle) := by
  have hbits : FAST_IPC_SLOT_BITS.toNat % 64 = 6 := by decide
  simp only [fastIpcHandleSlot] at h
  split_ifs at h with hpos hidx
  obtain rfl := Option.some.inj h
  have hsmall : handle.toNat < 2 ^ 63 := by
    rw [gt_iff_lt, UInt64.lt_iff_toNat_lt] at hpos
    have : I64_MAX.toNat = 2 ^ 63 - 1 := by decide
    omega
  apply UInt64.toNat_inj.mp
  rw [toNat_make, handleGeneration, toNat_and_genMask, Nat.mod_mod, UInt64.toNat_shiftRight,
    hbits, Nat.shiftRight_eq_div_pow]
  show handle.toNat = _ + (handle &&& FAST_IPC_SLOT_MASK).toNat
  rw [toNat_and_slotMask, GENERATIONS]
  omega

/-! ## The table -/

/-- The words of a message. -/
structure Words where
  w0 : UInt64
  w1 : UInt64
  w2 : UInt64
  w3 : UInt64
  deriving DecidableEq, Repr

/-- `SlotState`. -/
inductive SlotState where
  | free
  | pending
  | accepted
  | replied
  deriving DecidableEq, Repr

/-- `FastIpcSlot`. -/
structure FastIpcSlot where
  callerTid : UInt32
  serverTid : UInt32
  words : Words
  state : SlotState
  generation : UInt64
  deriving DecidableEq, Repr

def FastIpcSlot.empty : FastIpcSlot :=
  ⟨FAST_IPC_SLOT_FREE, FAST_IPC_SLOT_FREE, ⟨0, 0, 0, 0⟩, .free, 0⟩

/-- `FastIpcState`. -/
structure FastIpcState where
  slots : Idx → FastIpcSlot
  used : Nat

namespace FastIpcState

def new : FastIpcState := ⟨fun _ => .empty, 0⟩

/-- The slots in the order of a scan. -/
def indices : List Idx := List.finRange FAST_IPC_MAX_SLOTS

/-- `alloc_slot`. -/
def allocSlot (st : FastIpcState) (caller server : UInt32) (words : Words) :
    Option Idx × FastIpcState :=
  match indices.find? fun i => (st.slots i).state = .free with
  | none => (none, st)
  | some i =>
    (some i,
      { slots := Function.update st.slots i
          ⟨caller, server, words, .pending, (st.slots i).generation⟩
        used := st.used + 1 })

/-- `find_pending_for_server`. -/
def findPendingForServer (st : FastIpcState) (serverTid : UInt32) : Option Idx :=
  if st.used = 0 then none
  else indices.find? fun i => (st.slots i).state = .pending ∧ (st.slots i).serverTid = serverTid

/-- `find_reply_for_caller`. -/
def findReplyForCaller (st : FastIpcState) (callerTid : UInt32) : Option Idx :=
  if st.used = 0 then none
  else indices.find? fun i => (st.slots i).state = .replied ∧ (st.slots i).callerTid = callerTid

/-- A slot is overwritten in place. -/
def setSlot (st : FastIpcState) (i : Idx) (slot : FastIpcSlot) : FastIpcState :=
  { st with slots := Function.update st.slots i slot }

/-- What a free leaves in a slot. -/
def retired (slot : FastIpcSlot) : FastIpcSlot :=
  { FastIpcSlot.empty with generation := (slot.generation + 1) &&& FAST_IPC_GEN_MASK }

/-- `free_slot`. -/
def freeSlot (st : FastIpcState) (i : Idx) : FastIpcState :=
  { slots := Function.update st.slots i (retired (st.slots i))
    used := st.used - 1 }

end FastIpcState

open FastIpcState

/-! ## The operations -/

/-- `fast_ipc_call`.  `tidExists` is the answer of the task table for the server. -/
def fastIpcCall (st : FastIpcState) (callerTid serverTid : UInt32) (words : Words)
    (tidExists : Bool) : Option UInt64 × FastIpcState :=
  if callerTid = serverTid then (none, st)
  else if !tidExists then (none, st)
  else
    match st.allocSlot callerTid serverTid words with
    | (none, st) => (none, st)
    | (some i, st) => (some (fastIpcMakeHandle i (st.slots i).generation), st)

/-- `fast_ipc_accept`. -/
def fastIpcAccept (st : FastIpcState) (serverTid : UInt32) :
    Option (UInt64 × UInt32 × Words) × FastIpcState :=
  match st.findPendingForServer serverTid with
  | none => (none, st)
  | some i =>
    let slot := st.slots i
    (some (fastIpcMakeHandle i slot.generation, slot.callerTid, slot.words),
      st.setSlot i { slot with state := .accepted })

/-- `FastIpcReply`. -/
inductive FastIpcReply where
  | woke (callerTid : UInt32) (slotIdx : Idx)
  | stale
  | refused
  deriving DecidableEq, Repr

/-- `fast_ipc_reply`. -/
def fastIpcReply (st : FastIpcState) (handle : UInt64) (replierTid : UInt32) (privileged : Bool)
    (words : Words) : FastIpcReply × FastIpcState :=
  match fastIpcHandleSlot handle with
  | none => (.refused, st)
  | some i =>
    let slot := st.slots i
    if slot.state ≠ .accepted then (.refused, st)
    else if !privileged && slot.serverTid ≠ replierTid then (.refused, st)
    else if slot.generation ≠ handleGeneration handle then (.stale, st)
    else (.woke slot.callerTid i, st.setSlot i { slot with words := words, state := .replied })

/-- `fast_ipc_collect`. -/
def fastIpcCollect (st : FastIpcState) (callerTid : UInt32) : Option Words × FastIpcState :=
  match st.findReplyForCaller callerTid with
  | none => (none, st)
  | some i => (some (st.slots i).words, st.freeSlot i)

/-- `FastIpcWait`. -/
inductive FastIpcWait where
  | gone
  | waiting
  | ready
  deriving DecidableEq, Repr

/-- `fast_ipc_wait_state`. -/
def fastIpcWaitState (st : FastIpcState) (handle : UInt64) (callerTid : UInt32) : FastIpcWait :=
  match fastIpcHandleSlot handle with
  | none => .gone
  | some i =>
    let slot := st.slots i
    if slot.state = .free ∨ slot.callerTid ≠ callerTid then .gone
    else if slot.generation ≠ handleGeneration handle then .gone
    else
      match slot.state with
      | .replied => .ready
      | .pending | .accepted => .waiting
      | .free => .gone

/-- The loop of `fast_ipc_release_all`: the table, the handles whose clients are
to be woken, and the number of slots freed. -/
structure Releasing where
  st : FastIpcState
  orphaned : List UInt64
  freed : Nat

/-- One turn of the loop.  A reply that waits for its client stays when the
server exits. -/
def releaseSlot (tid : UInt32) (acc : Releasing) (i : Idx) : Releasing :=
  let slot := acc.st.slots i
  let isCaller := slot.callerTid = tid
  let isServer := slot.serverTid = tid
  if slot.state = .free ∨ ¬(isCaller ∨ isServer) then acc
  else if isServer ∧ ¬isCaller then
    if slot.state = .replied then acc
    else
      { st := acc.st.freeSlot i
        orphaned := acc.orphaned ++ [fastIpcMakeHandle i slot.generation]
        freed := acc.freed + 1 }
  else { acc with st := acc.st.freeSlot i, freed := acc.freed + 1 }

/-- `fast_ipc_release_all`. -/
def fastIpcReleaseAll (st : FastIpcState) (tid : UInt32) : Releasing :=
  indices.foldl (releaseSlot tid) ⟨st, [], 0⟩

/-! ## What an operation does to a slot -/

@[simp] theorem slots_setSlot (st : FastIpcState) (i j : Idx) (slot : FastIpcSlot) :
    (st.setSlot i slot).slots j = if j = i then slot else st.slots j := by
  simp [setSlot, Function.update_apply]

@[simp] theorem slots_freeSlot (st : FastIpcState) (i j : Idx) :
    (st.freeSlot i).slots j = if j = i then retired (st.slots i) else st.slots j := by
  simp [freeSlot, Function.update_apply]

/-- The exit of a task frees this slot. -/
def Releases (tid : UInt32) (slot : FastIpcSlot) : Prop :=
  slot.state ≠ .free ∧
    (slot.callerTid = tid ∨ (slot.serverTid = tid ∧ slot.state ≠ .replied))

instance (tid : UInt32) (slot : FastIpcSlot) : Decidable (Releases tid slot) :=
  inferInstanceAs (Decidable (_ ∧ _))

/-- One turn of the loop frees the slot or changes nothing. -/
theorem releaseSlot_cases (tid : UInt32) (acc : Releasing) (i : Idx) :
    (¬Releases tid (acc.st.slots i) ∧ releaseSlot tid acc i = acc) ∨
      (Releases tid (acc.st.slots i) ∧ ∃ orphaned,
        releaseSlot tid acc i = ⟨acc.st.freeSlot i, orphaned, acc.freed + 1⟩) := by
  simp only [releaseSlot, Releases]
  split_ifs with hskip hserver hreplied
  · left
    refine ⟨?_, rfl⟩
    tauto
  · left
    refine ⟨?_, rfl⟩
    tauto
  · right
    refine ⟨?_, _, rfl⟩
    tauto
  · right
    refine ⟨?_, _, rfl⟩
    tauto

theorem slots_foldl_releaseSlot (tid : UInt32) (i : Idx) (l : List Idx) (hl : l.Nodup)
    (acc : Releasing) :
    (l.foldl (releaseSlot tid) acc).st.slots i =
      if i ∈ l ∧ Releases tid (acc.st.slots i) then retired (acc.st.slots i)
      else acc.st.slots i := by
  induction l generalizing acc with
  | nil => simp
  | cons j l ih =>
    obtain ⟨hj, hl⟩ := List.nodup_cons.mp hl
    rw [List.foldl_cons, ih hl]
    rcases releaseSlot_cases tid acc j with ⟨hkeep, heq⟩ | ⟨hfree, orphaned, heq⟩
    · rw [heq]
      by_cases hij : i = j
      · subst hij
        simp [hkeep]
      · simp [hij]
    · rw [heq]
      by_cases hij : i = j
      · subst hij
        simp [hj, hfree]
      · simp [hij]

theorem slots_fastIpcReleaseAll (st : FastIpcState) (tid : UInt32) (i : Idx) :
    (fastIpcReleaseAll st tid).st.slots i =
      if Releases tid (st.slots i) then retired (st.slots i) else st.slots i := by
  rw [fastIpcReleaseAll, slots_foldl_releaseSlot tid i indices (List.nodup_finRange _)]
  simp [indices]

theorem foldl_releaseSlot_eq (tid : UInt32) (l : List Idx) (acc : Releasing) :
    acc.freed ≤ (l.foldl (releaseSlot tid) acc).freed ∧
      ((l.foldl (releaseSlot tid) acc).freed = acc.freed →
        (l.foldl (releaseSlot tid) acc).st = acc.st) := by
  induction l generalizing acc with
  | nil => exact ⟨le_rfl, fun _ => rfl⟩
  | cons j l ih =>
    rw [List.foldl_cons]
    rcases releaseSlot_cases tid acc j with ⟨-, heq⟩ | ⟨-, orphaned, heq⟩
    · rw [heq]
      exact ih acc
    · rw [heq]
      have hle := (ih ⟨acc.st.freeSlot j, orphaned, acc.freed + 1⟩).1
      have hle' : acc.freed + 1 ≤
        (l.foldl (releaseSlot tid) ⟨acc.st.freeSlot j, orphaned, acc.freed + 1⟩).freed := hle
      exact ⟨by omega, by omega⟩

/-- An exit that frees no slot leaves the table as it is. -/
theorem fastIpcReleaseAll_eq {st : FastIpcState} {tid : UInt32}
    (h : (fastIpcReleaseAll st tid).freed = 0) : (fastIpcReleaseAll st tid).st = st := by
  unfold fastIpcReleaseAll at h ⊢
  generalize indices = l at h ⊢
  exact (foldl_releaseSlot_eq tid l ⟨st, [], 0⟩).2 h

/-- `slot` is written to `i`, and the other slots stay. -/
def Writes (st st' : FastIpcState) (i : Idx) (slot : FastIpcSlot) : Prop :=
  ∀ j, st'.slots j = if j = i then slot else st.slots j

/-- A call is turned down, or takes a free slot. -/
theorem fastIpcCall_cases (st : FastIpcState) (caller server : UInt32) (words : Words)
    (tidExists : Bool) :
    fastIpcCall st caller server words tidExists = (none, st) ∨
      ∃ i st', fastIpcCall st caller server words tidExists =
          (some (fastIpcMakeHandle i (st.slots i).generation), st') ∧
        caller ≠ server ∧ tidExists = true ∧ (st.slots i).state = .free ∧
        Writes st st' i ⟨caller, server, words, .pending, (st.slots i).generation⟩ := by
  simp only [fastIpcCall, allocSlot]
  split_ifs with hself hexists
  · exact .inl rfl
  · exact .inl rfl
  · cases hfind : indices.find? fun i => (st.slots i).state = .free with
    | none => exact .inl rfl
    | some i =>
      right
      refine ⟨i, _, Prod.ext ?_ rfl, hself, by simpa using hexists,
        by simpa using List.find?_some hfind, fun j => Function.update_apply _ _ _ _⟩
      simp

/-- An accept finds nothing, or takes a call that is pending for the server. -/
theorem fastIpcAccept_cases (st : FastIpcState) (server : UInt32) :
    fastIpcAccept st server = (none, st) ∨
      ∃ i st', fastIpcAccept st server =
          (some (fastIpcMakeHandle i (st.slots i).generation, (st.slots i).callerTid,
            (st.slots i).words), st') ∧
        (st.slots i).state = .pending ∧ (st.slots i).serverTid = server ∧
        Writes st st' i { st.slots i with state := .accepted } := by
  simp only [fastIpcAccept]
  cases hfind : st.findPendingForServer server with
  | none => exact .inl rfl
  | some i =>
    right
    simp only [findPendingForServer] at hfind
    split_ifs at hfind
    have hfound : (st.slots i).state = .pending ∧ (st.slots i).serverTid = server := by
      simpa using List.find?_some hfind
    exact ⟨i, _, rfl, hfound.1, hfound.2, fun j => slots_setSlot st i j _⟩

/-- A reply is turned down, or lands in the accepted slot that its handle names. -/
theorem fastIpcReply_cases (st : FastIpcState) (handle : UInt64) (replier : UInt32)
    (privileged : Bool) (words : Words) :
    (((fastIpcReply st handle replier privileged words).1 = .stale ∨
        (fastIpcReply st handle replier privileged words).1 = .refused) ∧
      (fastIpcReply st handle replier privileged words).2 = st) ∨
      ∃ i st', fastIpcReply st handle replier privileged words =
          (.woke (st.slots i).callerTid i, st') ∧
        handle = fastIpcMakeHandle i (st.slots i).generation ∧
        (st.slots i).state = .accepted ∧
        (privileged = true ∨ (st.slots i).serverTid = replier) ∧
        Writes st st' i { st.slots i with words := words, state := .replied } := by
  simp only [fastIpcReply]
  cases hslot : fastIpcHandleSlot handle with
  | none => exact .inl ⟨.inr rfl, rfl⟩
  | some i =>
    dsimp only
    split_ifs with hstate hmay hgen
    · exact .inl ⟨.inr rfl, rfl⟩
    · exact .inl ⟨.inr rfl, rfl⟩
    · exact .inl ⟨.inl rfl, rfl⟩
    · right
      refine ⟨i, _, rfl, ?_, not_not.mp hstate, ?_, fun j => slots_setSlot st i j _⟩
      · rw [not_not.mp hgen]
        exact eq_make_of_slot hslot
      · cases privileged <;> simp_all

/-- A collect finds nothing, or takes a reply and frees its slot. -/
theorem fastIpcCollect_cases (st : FastIpcState) (caller : UInt32) :
    fastIpcCollect st caller = (none, st) ∨
      ∃ i st', fastIpcCollect st caller = (some (st.slots i).words, st') ∧
        (st.slots i).state = .replied ∧ (st.slots i).callerTid = caller ∧
        Writes st st' i (retired (st.slots i)) := by
  simp only [fastIpcCollect]
  cases hfind : st.findReplyForCaller caller with
  | none => exact .inl rfl
  | some i =>
    right
    simp only [findReplyForCaller] at hfind
    split_ifs at hfind
    have hfound : (st.slots i).state = .replied ∧ (st.slots i).callerTid = caller := by
      simpa using List.find?_some hfind
    exact ⟨i, _, rfl, hfound.1, hfound.2, fun j => slots_freeSlot st i j⟩

/-- An operation, with what the environment adds. -/
inductive Op where
  | call (caller server : UInt32) (words : Words) (tidExists : Bool)
  | accept (server : UInt32)
  | reply (handle : UInt64) (replier : UInt32) (privileged : Bool) (words : Words)
  | collect (caller : UInt32)
  | waitState (handle : UInt64) (caller : UInt32)
  | releaseAll (tid : UInt32)
  deriving DecidableEq, Repr

/-- What an operation returns. -/
inductive Answer where
  | called (handle : Option UInt64)
  | accepted (request : Option (UInt64 × UInt32 × Words))
  | replied (outcome : FastIpcReply)
  | collected (reply : Option Words)
  | waited (wait : FastIpcWait)
  | released (freed : Nat)
  deriving DecidableEq, Repr

/-- One operation on the table. -/
def perform (st : FastIpcState) : Op → Answer × FastIpcState
  | .call caller server words tidExists =>
    let (handle, st) := fastIpcCall st caller server words tidExists
    (.called handle, st)
  | .accept server =>
    let (request, st) := fastIpcAccept st server
    (.accepted request, st)
  | .reply handle replier privileged words =>
    let (outcome, st) := fastIpcReply st handle replier privileged words
    (.replied outcome, st)
  | .collect caller =>
    let (reply, st) := fastIpcCollect st caller
    (.collected reply, st)
  | .waitState handle caller => (.waited (fastIpcWaitState st handle caller), st)
  | .releaseAll tid =>
    let done := fastIpcReleaseAll st tid
    (.released done.freed, done.st)

/-- What one operation can do to the slot `i`. -/
inductive Change (op : Op) (answer : Answer) (i : Idx) (slot : FastIpcSlot) : FastIpcSlot → Prop
  | same : Change op answer i slot slot
  | called (caller server : UInt32) (words : Words) (hop : op = .call caller server words true)
      (hne : caller ≠ server) (hfree : slot.state = .free)
      (hans : answer = .called (some (fastIpcMakeHandle i slot.generation))) :
      Change op answer i slot ⟨caller, server, words, .pending, slot.generation⟩
  | accepted (hop : op = .accept slot.serverTid) (hpending : slot.state = .pending)
      (hans : answer = .accepted
        (some (fastIpcMakeHandle i slot.generation, slot.callerTid, slot.words))) :
      Change op answer i slot { slot with state := .accepted }
  | replied (handle : UInt64) (replier : UInt32) (privileged : Bool) (words : Words)
      (hop : op = .reply handle replier privileged words)
      (hhandle : handle = fastIpcMakeHandle i slot.generation) (haccepted : slot.state = .accepted)
      (hmay : privileged = true ∨ slot.serverTid = replier)
      (hans : answer = .replied (.woke slot.callerTid i)) :
      Change op answer i slot { slot with words := words, state := .replied }
  | collected (hop : op = .collect slot.callerTid) (hreplied : slot.state = .replied)
      (hans : answer = .collected (some slot.words)) : Change op answer i slot (retired slot)
  | released (tid : UInt32) (hop : op = .releaseAll tid) (hrel : Releases tid slot) :
      Change op answer i slot (retired slot)

/-- A slot that is written is changed, and another one is not. -/
theorem change_of_writes {st st' : FastIpcState} {i : Idx} {slot : FastIpcSlot} {op : Op}
    {answer : Answer} (h : Writes st st' i slot) (hi : Change op answer i (st.slots i) slot)
    (j : Idx) : Change op answer j (st.slots j) (st'.slots j) := by
  rw [h j]
  split_ifs with hij
  · rw [hij]
    exact hi
  · exact .same

/-- What every operation does to every slot. -/
theorem change_perform (st : FastIpcState) (op : Op) (j : Idx) :
    Change op (perform st op).1 j (st.slots j) ((perform st op).2.slots j) := by
  cases op with
  | call caller server words tidExists =>
    rcases fastIpcCall_cases st caller server words tidExists with
      hnone | ⟨i, st', hsome, hne, rfl, hfree, hwrites⟩
    · simp only [perform, hnone]
      exact .same
    · simp only [perform, hsome]
      exact change_of_writes hwrites (.called caller server words rfl hne hfree rfl) j
  | accept server =>
    rcases fastIpcAccept_cases st server with hnone | ⟨i, st', hsome, hpending, rfl, hwrites⟩
    · simp only [perform, hnone]
      exact .same
    · simp only [perform, hsome]
      exact change_of_writes hwrites (.accepted rfl hpending rfl) j
  | reply handle replier privileged words =>
    rcases fastIpcReply_cases st handle replier privileged words with
      ⟨-, hsame⟩ | ⟨i, st', hwoke, hhandle, haccepted, hmay, hwrites⟩
    · simp only [perform, hsame]
      exact .same
    · simp only [perform, hwoke]
      exact change_of_writes hwrites
        (.replied handle replier privileged words rfl hhandle haccepted hmay rfl) j
  | collect caller =>
    rcases fastIpcCollect_cases st caller with hnone | ⟨i, st', hsome, hreplied, rfl, hwrites⟩
    · simp only [perform, hnone]
      exact .same
    · simp only [perform, hsome]
      exact change_of_writes hwrites (.collected rfl hreplied rfl) j
  | waitState handle caller => exact .same
  | releaseAll tid =>
    simp only [perform, slots_fastIpcReleaseAll]
    split_ifs with hrel
    · exact .released tid rfl hrel
    · exact .same

end RobotOs.Ipc.FastIpc
