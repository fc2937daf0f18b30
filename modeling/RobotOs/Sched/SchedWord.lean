import RobotOs.Lib.CasLoop

/-!
# The scheduling word

`task.rs` packs the state of a task and the stamp of a wake that came early into
one atomic word.  Four loops change it: the task commits to block, a waker wakes
it, the timer tick reaps a stamp that nobody consumed, and the scheduler sets the
state.  The loop that `do_schedule` runs when it switches away from a blocked
task is the one of the reaper.

`round` is one turn of each loop.  The schedules are those of
`RobotOs.Lib.CasLoop`: any number of threads, one load or one exchange at a
time, with spurious failures.  `WakeSafe` says what holds of the history of
every schedule.
-/

namespace RobotOs.Sched.SchedWord

open RobotOs.Lib.CasLoop RobotOs.Lib.Run

/-! ## The word -/

/-- `TaskState`. -/
inductive TaskState where
  | ready
  | running
  | blocked
  | zombie
  | invalid
  deriving DecidableEq, Repr

/-- Bits 0 to 2: the state. -/
def STATE_MASK : UInt32 := 0b0111

/-- Bit 3: a wake arrived before the task blocked. -/
def WAKE_STAMP : UInt32 := 0b1000

def pack : TaskState → UInt32
  | .ready => 0
  | .running => 1
  | .blocked => 2
  | .zombie => 3
  | .invalid => 4

/-- A discriminant out of range is `invalid`. -/
def stateOf (w : UInt32) : TaskState :=
  if w &&& STATE_MASK = 0 then .ready
  else if w &&& STATE_MASK = 1 then .running
  else if w &&& STATE_MASK = 2 then .blocked
  else if w &&& STATE_MASK = 3 then .zombie
  else .invalid

/-- The test `cur & WAKE_STAMP != 0`. -/
def stamped (w : UInt32) : Bool := w &&& WAKE_STAMP != 0

theorem or_and_distrib (a b c : UInt32) : (a ||| b) &&& c = a &&& c ||| b &&& c := by
  apply UInt32.toBitVec_inj.mp
  simp only [UInt32.toBitVec_and, UInt32.toBitVec_or]
  exact BitVec.and_or_distrib_right

@[simp] theorem stateOf_pack (s : TaskState) : stateOf (pack s) = s := by
  cases s <;> decide

@[simp] theorem stateOf_stamp (w : UInt32) : stateOf (w ||| WAKE_STAMP) = stateOf w := by
  have hmask : WAKE_STAMP &&& STATE_MASK = 0 := by decide
  have h : (w ||| WAKE_STAMP) &&& STATE_MASK = w &&& STATE_MASK := by
    rw [or_and_distrib, hmask, UInt32.or_zero]
  simp only [stateOf, h]

theorem or_and_self (a b : UInt32) : (a ||| b) &&& b = b := by
  apply UInt32.toBitVec_inj.mp
  simp only [UInt32.toBitVec_and, UInt32.toBitVec_or]
  ext i hi
  simp only [BitVec.getElem_and, BitVec.getElem_or]
  exact Bool.and_eq_right_iff_imp.mpr fun hb => by simp [hb]

@[simp] theorem stamped_stamp (w : UInt32) : stamped (w ||| WAKE_STAMP) = true := by
  simp only [stamped, or_and_self]
  decide

@[simp] theorem stateOf_replace (w : UInt32) (s : TaskState) :
    stateOf (w &&& WAKE_STAMP ||| pack s) = s := by
  have hmask : WAKE_STAMP &&& STATE_MASK = 0 := by decide
  have h : (w &&& WAKE_STAMP ||| pack s) &&& STATE_MASK = pack s &&& STATE_MASK := by
    rw [or_and_distrib, UInt32.and_assoc, hmask, UInt32.and_zero, UInt32.zero_or]
  simpa only [stateOf, h] using stateOf_pack s

@[simp] theorem stamped_replace (w : UInt32) (s : TaskState) :
    stamped (w &&& WAKE_STAMP ||| pack s) = stamped w := by
  have hpack : pack s &&& WAKE_STAMP = 0 := by cases s <;> decide
  have h : (w &&& WAKE_STAMP ||| pack s) &&& WAKE_STAMP = w &&& WAKE_STAMP := by
    rw [or_and_distrib, UInt32.and_assoc, UInt32.and_self, hpack, UInt32.or_zero]
  simp only [stamped, h]

/-! ## The loops -/

/-- `WakeTransition`: what a wake did. -/
inductive WakeTransition where
  | dispatched
  | stamped
  | mismatch
  | notBlocked
  deriving DecidableEq, Repr

/-- A call of one of the loops. -/
inductive Call where
  | commit
  | wake (stampIfUnblocked saved : Bool)
  | reap
  | setState (s : TaskState)
  deriving DecidableEq, Repr

/-- What a call returns. -/
inductive Outcome where
  | committed (blocked : Bool)
  | woken (transition : WakeTransition)
  | reaped (recovered : Bool)
  | set
  deriving DecidableEq, Repr

/-- `commit_blocked_or_consume_wake`. -/
def commitBlockedOrConsumeWake (cur : UInt32) : Round UInt32 Outcome :=
  if stamped cur then .swap (pack .running) (.committed false)
  else match stateOf cur with
    | .running => .swap (pack .blocked) (.committed true)
    | .blocked => .done (.committed true)
    | _ => .done (.committed true)

/-- `wake_transition`.  The reason is read again in each turn. -/
def wakeTransition (reasonMatches stampIfUnblocked saved : Bool) (cur : UInt32) :
    Round UInt32 Outcome :=
  if stateOf cur = .blocked then
    if !reasonMatches then .done (.woken .mismatch)
    else if !saved then .swap (cur ||| WAKE_STAMP) (.woken .stamped)
    else .swap (pack .ready) (.woken .dispatched)
  else if stampIfUnblocked then .swap (cur ||| WAKE_STAMP) (.woken .stamped)
  else .done (.woken .notBlocked)

/-- `reap_orphaned_stamp`. -/
def reapOrphanedStamp (cur : UInt32) : Round UInt32 Outcome :=
  if !stamped cur || stateOf cur ≠ .blocked then .done (.reaped false)
  else .swap (pack .ready) (.reaped true)

/-- `set_state`. -/
def setState (s : TaskState) (cur : UInt32) : Round UInt32 Outcome :=
  .swap (cur &&& WAKE_STAMP ||| pack s) .set

/-- One turn of a loop.  The input says whether the reason of the task matches. -/
def round : Call → Bool → UInt32 → Round UInt32 Outcome
  | .commit, _, cur => commitBlockedOrConsumeWake cur
  | .wake stampIfUnblocked saved, reasonMatches, cur =>
    wakeTransition reasonMatches stampIfUnblocked saved cur
  | .reap, _, cur => reapOrphanedStamp cur
  | .setState s, _, cur => setState s cur

/-- A call that returned. -/
abbrev Ev := Event Call Bool Outcome

/-- A move of one of the threads. -/
abbrev Step := Move Call Bool

/-- The calls that returned in a schedule, in the order in which they took effect. -/
def history (w : UInt32) (moves : List Step) : List Ev :=
  (run (Lib.CasLoop.step round) (start w) moves).history

/-! ## What each call does at once -/

theorem atomic_commit (input : Bool) (w : UInt32) :
    atomic round .commit input w =
      if stamped w then (pack .running, .committed false)
      else if stateOf w = .running then (pack .blocked, .committed true)
      else (w, .committed true) := by
  cases hs : stamped w <;> cases hw : stateOf w <;>
    simp [atomic, round, commitBlockedOrConsumeWake, hs, hw]

theorem atomic_wake (stamp saved reasonMatches : Bool) (w : UInt32) :
    atomic round (.wake stamp saved) reasonMatches w =
      if stateOf w = .blocked then
        if reasonMatches then
          if saved then (pack .ready, .woken .dispatched)
          else (w ||| WAKE_STAMP, .woken .stamped)
        else (w, .woken .mismatch)
      else if stamp then (w ||| WAKE_STAMP, .woken .stamped)
      else (w, .woken .notBlocked) := by
  by_cases hw : stateOf w = .blocked <;> cases reasonMatches <;> cases saved <;> cases stamp <;>
    simp [atomic, round, wakeTransition, hw]

theorem atomic_reap (input : Bool) (w : UInt32) :
    atomic round .reap input w =
      if stamped w ∧ stateOf w = .blocked then (pack .ready, .reaped true)
      else (w, .reaped false) := by
  cases hs : stamped w <;> by_cases hw : stateOf w = .blocked <;>
    simp [atomic, round, reapOrphanedStamp, hs, hw]

theorem atomic_setState (s : TaskState) (input : Bool) (w : UInt32) :
    atomic round (.setState s) input w = (w &&& WAKE_STAMP ||| pack s, .set) := rfl

/-! ## Wakes -/

/-- `WakeAction`: the table that the wakes follow. -/
inductive WakeAction where
  | skip
  | stampPending
  | mismatch
  | dispatch
  deriving DecidableEq, Repr

/-- `wake_action`. -/
def wakeAction (isAddressee isBlocked reasonMatches : Bool) : WakeAction :=
  if !isAddressee then .skip
  else if !isBlocked then .stampPending
  else if !reasonMatches then .mismatch
  else .dispatch

/-- What each entry of the table asks of the word. -/
def WakeAction.apply (w : UInt32) : WakeAction → UInt32 × Outcome
  | .skip => (w, .woken .notBlocked)
  | .stampPending => (w ||| WAKE_STAMP, .woken .stamped)
  | .mismatch => (w, .woken .mismatch)
  | .dispatch => (pack .ready, .woken .dispatched)

/-- A directed wake of a task whose context is saved follows the table. -/
theorem atomic_wake_eq_wakeAction (reasonMatches : Bool) (w : UInt32) :
    atomic round (.wake true true) reasonMatches w =
      (wakeAction true (stateOf w = .blocked) reasonMatches).apply w := by
  by_cases hw : stateOf w = .blocked <;> cases reasonMatches <;>
    simp [atomic_wake, wakeAction, WakeAction.apply, hw]

/-- The caller owns the dispatch of the task after this event. -/
def Dispatches (e : Ev) : Prop :=
  e.result = .woken .dispatched ∨ e.result = .reaped true

/-- An event that takes a pending stamp off the word. -/
def TakesStamp (e : Ev) : Prop :=
  e.call = .commit ∨ Dispatches e

/-- An event that puts the task to sleep. -/
def Blocks (e : Ev) (w : UInt32) : Prop :=
  (e.call = .commit ∧ e.result = .committed true ∧ stateOf w = .running) ∨
    e.call = .setState .blocked

section Step

variable {e : Ev} {w : UInt32} (he : (atomic round e.call e.input w).2 = e.result)
include he

/-- A dispatch takes a blocked task, and leaves it ready without a stamp. -/
theorem eq_ready_of_dispatches (hd : Dispatches e) :
    stateOf w = .blocked ∧ (atomic round e.call e.input w).1 = pack .ready := by
  rw [Dispatches, ← he] at hd
  cases hc : e.call with
  | commit =>
    simp only [hc, atomic_commit] at hd
    split_ifs at hd <;> simp at hd
  | wake stamp saved =>
    simp only [hc, atomic_wake] at hd ⊢
    split_ifs at hd <;> simp_all
  | reap =>
    simp only [hc, atomic_reap] at hd ⊢
    split_ifs at hd <;> simp_all
  | setState s => simp [hc, atomic_setState] at hd

/-- Every other event leaves a stamp where it is. -/
theorem stamped_of_not_takesStamp (hs : stamped w) (ht : ¬TakesStamp e) :
    stamped (atomic round e.call e.input w).1 := by
  rw [TakesStamp, Dispatches, ← he] at ht
  cases hc : e.call with
  | commit => exact absurd (.inl hc) ht
  | wake stamp saved =>
    simp only [hc, atomic_wake] at ht ⊢
    split_ifs at ht ⊢ <;> simp_all
  | reap =>
    simp only [hc, atomic_reap] at ht ⊢
    split_ifs at ht ⊢ <;> simp_all
  | setState s =>
    rw [atomic_setState, stamped_replace]
    exact hs

/-- Only a commit of the running task, or a store of the state, puts it to sleep. -/
theorem blocks_of_enters (hw : stateOf w ≠ .blocked)
    (hb : stateOf (atomic round e.call e.input w).1 = .blocked) : Blocks e w := by
  rw [Blocks, ← he]
  cases hc : e.call with
  | commit =>
    simp only [hc, atomic_commit] at hb ⊢
    split_ifs at hb ⊢ <;> simp_all
  | wake stamp saved =>
    simp only [hc, atomic_wake] at hb
    split_ifs at hb <;> simp_all
  | reap =>
    simp only [hc, atomic_reap] at hb
    split_ifs at hb <;> simp_all
  | setState s =>
    rw [hc, atomic_setState, stateOf_replace] at hb
    exact .inr (congrArg Call.setState hb)

end Step

/-! ## Histories -/

/-- After the events `past` a stamp is pending, whatever follows. -/
structure Pending (w : UInt32) (past future : List Ev) : Prop where
  /-- It lasts until an event takes it. -/
  lasts : ∀ mid post, future = mid ++ post → (∀ g ∈ mid, ¬TakesStamp g) →
    stamped (after round w (past ++ mid))
  /-- A commit that takes it returns to the running task. -/
  commit : ∀ mid e post, future = mid ++ e :: post → (∀ g ∈ mid, ¬TakesStamp g) →
    e.call = .commit →
    e.result = .committed false ∧ after round w (past ++ mid ++ [e]) = pack .running
  /-- A reap that finds the task blocked makes it ready. -/
  reap : ∀ mid e post, future = mid ++ e :: post → (∀ g ∈ mid, ¬TakesStamp g) →
    e.call = .reap → stateOf (after round w (past ++ mid)) = .blocked →
    e.result = .reaped true ∧ after round w (past ++ mid ++ [e]) = pack .ready
  /-- A wake that takes it makes the blocked task ready. -/
  dispatch : ∀ mid e post, future = mid ++ e :: post → (∀ g ∈ mid, ¬TakesStamp g) →
    e.result = .woken .dispatched →
    stateOf (after round w (past ++ mid)) = .blocked ∧
      after round w (past ++ mid ++ [e]) = pack .ready

/-- No wake is lost in the history that starts with the word `w`. -/
structure WakeSafe (w : UInt32) (events : List Ev) : Prop where
  /-- A directed wake that matches dispatches the task or leaves a stamp. -/
  wake : ∀ pre e post saved, events = pre ++ e :: post → e.call = .wake true saved →
    e.input = true →
    (e.result = .woken .dispatched ∧ stateOf (after round w pre) = .blocked ∧
        after round w (pre ++ [e]) = pack .ready) ∨
      (e.result = .woken .stamped ∧ Pending w (pre ++ [e]) post)
  /-- Between two dispatches the task was put to sleep again. -/
  once : ∀ pre d mid e post, events = pre ++ d :: (mid ++ e :: post) → Dispatches d →
    Dispatches e → ∃ a b c, mid = a ++ b :: c ∧ Blocks b (after round w (pre ++ d :: a))
  /-- A store of the state leaves the stamp as it is. -/
  setState : ∀ pre e post s, events = pre ++ e :: post → e.call = .setState s →
    stateOf (after round w (pre ++ [e])) = s ∧
      stamped (after round w (pre ++ [e])) = stamped (after round w pre)

section Replay

variable {w w' : UInt32}

/-- A stamp lasts over events that do not take it. -/
theorem stamped_after {es : List Ev} {u : UInt32} (h : Replays round w es u) (hs : stamped w)
    (ht : ∀ g ∈ es, ¬TakesStamp g) : stamped u :=
  replays_invariant (fun u => stamped u = true) h
    (fun e hmem _ hu he => stamped_of_not_takesStamp he hu (ht e hmem)) hs

theorem pending_of_stamped {past future : List Ev}
    (h : Replays round (after round w past) future w')
    (hs : stamped (after round w past)) : Pending w past future := by
  have hlasts : ∀ mid post, future = mid ++ post → (∀ g ∈ mid, ¬TakesStamp g) →
      stamped (after round w (past ++ mid)) := by
    rintro mid post rfl ht
    obtain ⟨u, hmid, -⟩ := replays_append.mp h
    rw [after_append, ← eq_after_of_replays hmid]
    exact stamped_after hmid hs ht
  refine ⟨hlasts, ?commit, ?reap, ?dispatch⟩
  case commit =>
    intro mid e post hsplit ht hcall
    have hstamp := hlasts mid _ hsplit ht
    subst hsplit
    have he := (replays_split h).1
    rw [← after_append, hcall, atomic_commit, if_pos hstamp] at he
    refine ⟨he.symm, ?_⟩
    rw [after_append, after_cons, hcall, atomic_commit, if_pos hstamp, after_nil]
  case reap =>
    intro mid e post hsplit ht hcall hblocked
    have hstamp := hlasts mid _ hsplit ht
    subst hsplit
    have he := (replays_split h).1
    rw [← after_append, hcall, atomic_reap, if_pos ⟨hstamp, hblocked⟩] at he
    refine ⟨he.symm, ?_⟩
    rw [after_append, after_cons, hcall, atomic_reap, if_pos ⟨hstamp, hblocked⟩, after_nil]
  case dispatch =>
    rintro mid e post rfl - hres
    have he := (replays_split h).1
    rw [← after_append] at he
    rw [after_append round w _ [e]]
    exact eq_ready_of_dispatches he (.inl hres)

/-- A sequential history loses no wake. -/
theorem wakeSafe_of_replays {events : List Ev} (h : Replays round w events w') :
    WakeSafe w events := by
  refine ⟨?wake, ?once, ?setState⟩
  case wake =>
    rintro pre e post saved rfl hcall hinput
    obtain ⟨he, hpost⟩ := replays_split h
    by_cases hd : Dispatches e
    · obtain ⟨hblocked, hready⟩ := eq_ready_of_dispatches he hd
      left
      refine ⟨?_, hblocked, by rw [after_append]; exact hready⟩
      refine hd.resolve_right fun hres => ?_
      rw [hcall, atomic_wake, hres] at he
      split_ifs at he
    · right
      have hstep : (atomic round e.call e.input (after round w pre)).1 =
            after round w pre ||| WAKE_STAMP ∧ e.result = .woken .stamped := by
        rw [Dispatches, not_or, ← he] at hd
        rw [← he, hcall, hinput, atomic_wake]
        rw [hcall, hinput, atomic_wake] at hd
        split_ifs at hd ⊢ <;> simp_all
      refine ⟨hstep.2, pending_of_stamped hpost ?_⟩
      rw [after_append, after_cons, hstep.1]
      exact stamped_stamp _
  case once =>
    rintro pre d mid e post rfl hd he
    obtain ⟨hdres, hrest⟩ := replays_split h
    have hready := (eq_ready_of_dispatches hdres hd).2
    have hstart : after round w (pre ++ [d]) = pack .ready := by
      rw [after_append]
      exact hready
    obtain ⟨heres, -⟩ := replays_split hrest
    have hend := (eq_ready_of_dispatches heres he).1
    -- The task is ready after the first dispatch and blocked before the second.
    obtain ⟨a, b, c, rfl, hbefore, hafter⟩ :=
      exists_entering (fun u => stateOf u = .blocked) (by simp [hstart]) hend
    refine ⟨a, b, c, rfl, ?_⟩
    rw [List.append_assoc, List.cons_append] at hrest
    have hb := (replays_split hrest).1
    rw [after_append] at hafter
    have := blocks_of_enters hb hbefore hafter
    simpa using this
  case setState =>
    rintro pre e post s rfl hcall
    rw [after_append, after_cons, hcall, atomic_setState, after_nil]
    exact ⟨stateOf_replace _ s, stamped_replace _ s⟩

end Replay

/-- No schedule loses a wake. -/
theorem wakeSafe_history (w : UInt32) (moves : List Step) : WakeSafe w (history w moves) :=
  wakeSafe_of_replays (replays_history round w moves)

/-- A wake stamps the task, which has committed but runs on.  Then the task is
parked, another wake dispatches it, and it runs and commits again. -/
def sweptStamp : List Step :=
  [.call 0 .commit, .load 0 false, .exchange 0 false,
    .call 1 (.wake true false), .load 1 true, .exchange 1 false,
    .call 2 (.wake true true), .load 2 true, .exchange 2 false,
    .call 3 (.setState .running), .load 3 false, .exchange 3 false,
    .call 0 .commit, .load 0 false, .exchange 0 false]

/-- The dispatch takes the stamp along, so the next commit sleeps. -/
theorem sweptStamp_blocks :
    history (pack .running) sweptStamp =
        [⟨.commit, false, .committed true⟩, ⟨.wake true false, true, .woken .stamped⟩,
          ⟨.wake true true, true, .woken .dispatched⟩, ⟨.setState .running, false, .set⟩,
          ⟨.commit, false, .committed true⟩] ∧
      stateOf (after round (pack .running) (history (pack .running) sweptStamp)) = .blocked := by
  decide

end RobotOs.Sched.SchedWord
