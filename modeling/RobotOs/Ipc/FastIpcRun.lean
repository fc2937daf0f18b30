import RobotOs.Ipc.FastIpc

/-!
# Runs of fast IPC

What holds in every sequence of operations on the slot table, by any tasks.

* A handle is `Dead` when no operation finds an exchange with it.  The handle
  of an exchange that has ended is dead until the generation of its slot comes
  round.  `frees` counts how often a slot was freed, and `generation_after`
  says that the generation counts the same.
* A reply is deposited by the task that accepted the call, or by a privileged
  task.  `acceptedBy_of_accepted` finds the accept in the past of an accepted slot.
* An operation that is rejected leaves the table as it is.
-/

namespace RobotOs.Ipc.FastIpc

open RobotOs.Lib.Run FastIpcState

/-- The table after some operations. -/
def after (st : FastIpcState) (ops : List Op) : FastIpcState :=
  run (fun st op => (perform st op).2) st ops

@[simp] theorem after_nil (st : FastIpcState) : after st [] = st := rfl

@[simp] theorem after_cons (st : FastIpcState) (op : Op) (ops : List Op) :
    after st (op :: ops) = after (perform st op).2 ops := rfl

theorem after_append (st : FastIpcState) (ops ops' : List Op) :
    after st (ops ++ ops') = after (after st ops) ops' :=
  run_append st ops ops'

/-! ## Generations -/

/-- The operation frees the slot. -/
def Frees (st : FastIpcState) (op : Op) (i : Idx) : Prop :=
  (st.slots i).state ≠ .free ∧ ((perform st op).2.slots i).state = .free

instance (st : FastIpcState) (op : Op) (i : Idx) : Decidable (Frees st op i) :=
  inferInstanceAs (Decidable (_ ∧ _))

/-- How often the slot is freed. -/
def frees (i : Idx) (st : FastIpcState) : List Op → Nat
  | [] => 0
  | op :: ops => (if Frees st op i then 1 else 0) + frees i (perform st op).2 ops

theorem toNat_generation_retired (slot : FastIpcSlot) :
    (retired slot).generation.toNat = (slot.generation.toNat + 1) % GENERATIONS := by
  show ((slot.generation + 1) &&& FAST_IPC_GEN_MASK).toNat = _
  rw [toNat_and_genMask, UInt64.toNat_add]
  exact Nat.mod_mod_of_dvd _ ⟨2 ^ 7, rfl⟩

/-- A slot that is freed is retired, and every other change keeps its generation. -/
theorem slot_perform (st : FastIpcState) (op : Op) (i : Idx) :
    (Frees st op i ∧ (perform st op).2.slots i = retired (st.slots i)) ∨
      (¬Frees st op i ∧
        ((perform st op).2.slots i).generation = (st.slots i).generation) := by
  have hchange := change_perform st op i
  unfold Frees
  generalize (perform st op).2.slots i = new at hchange
  cases hchange with
  | same => exact .inr ⟨fun h => h.1 h.2, rfl⟩
  | called caller server words hop hne hfree hans => exact .inr ⟨fun h => h.1 hfree, rfl⟩
  | accepted hop hpending hans => exact .inr ⟨by simp, rfl⟩
  | replied handle replier privileged words => exact .inr ⟨by simp, rfl⟩
  | collected hop hreplied hans => exact .inl ⟨⟨by simp [hreplied], rfl⟩, rfl⟩
  | released tid hop hrel => exact .inl ⟨⟨hrel.1, rfl⟩, rfl⟩

/-- The generation of a slot counts how often it was freed. -/
theorem generation_after (i : Idx) (st : FastIpcState) (ops : List Op)
    (hst : (st.slots i).generation.toNat < GENERATIONS) :
    ((after st ops).slots i).generation.toNat =
      ((st.slots i).generation.toNat + frees i st ops) % GENERATIONS := by
  induction ops generalizing st with
  | nil => simp [frees, Nat.mod_eq_of_lt hst]
  | cons op ops ih =>
    rw [after_cons, frees]
    rcases slot_perform st op i with ⟨hfrees, hslot⟩ | ⟨hkeeps, hgen⟩
    · have hnew := toNat_generation_retired (st.slots i)
      rw [← hslot] at hnew
      have hlt : ((perform st op).2.slots i).generation.toNat < GENERATIONS := by
        rw [hnew]
        exact Nat.mod_lt _ (by decide)
      rw [ih _ hlt, hnew, if_pos hfrees, Nat.mod_add_mod, Nat.add_assoc]
    · rw [ih _ (by rw [hgen]; exact hst), hgen, if_neg hkeeps, Nat.zero_add]

theorem generation_lt (i : Idx) (ops : List Op) :
    ((after new ops).slots i).generation.toNat < GENERATIONS := by
  rw [generation_after i new ops (Nat.zero_lt_of_ne_zero (by decide))]
  exact Nat.mod_lt _ (by decide)

/-! ## Handles of exchanges that ended -/

/-- The operation hands out the handle. -/
def Issues (answer : Answer) (handle : UInt64) : Prop :=
  answer = .called (some handle) ∨ ∃ caller words, answer = .accepted (some (handle, caller, words))

/-- No operation finds an exchange with the handle. -/
def Dead (st : FastIpcState) (handle : UInt64) : Prop :=
  (∀ replier privileged words caller i,
    (fastIpcReply st handle replier privileged words).1 ≠ .woke caller i) ∧
  ∀ caller, fastIpcWaitState st handle caller = .gone

variable {st : FastIpcState} {handle : UInt64} {op : Op}

/-- A handle of another generation is dead. -/
theorem dead_of_generation {i : Idx} (hslot : fastIpcHandleSlot handle = some i)
    (hgen : (st.slots i).generation ≠ handleGeneration handle) : Dead st handle := by
  refine ⟨?_, ?_⟩
  · intro replier privileged words caller j
    simp only [fastIpcReply, hslot]
    split_ifs <;> simp
  · intro caller
    simp only [fastIpcWaitState, hslot]
    split_ifs <;> rfl

/-- A handle names the slot it was made for, in its generation. -/
theorem issued_slot (h : Issues (perform st op).1 handle) :
    ∃ i, handle = fastIpcMakeHandle i ((perform st op).2.slots i).generation := by
  cases op with
  | call caller server words tidExists =>
    rcases fastIpcCall_cases st caller server words tidExists with
      hnone | ⟨i, st', hsome, -, -, -, hwrites⟩
    · simp [perform, hnone, Issues] at h
    · simp only [perform, hsome, Issues] at h ⊢
      exact ⟨i, by simpa [eq_comm, hwrites i] using h⟩
  | accept server =>
    rcases fastIpcAccept_cases st server with hnone | ⟨i, st', hsome, -, -, hwrites⟩
    · simp [perform, hnone, Issues] at h
    · simp only [perform, hsome, Issues] at h ⊢
      exact ⟨i, by simpa [eq_comm, hwrites i] using h⟩
  | reply handle replier privileged words => simp [perform, Issues] at h
  | collect caller => simp [perform, Issues] at h
  | waitState handle caller => simp [perform, Issues] at h
  | releaseAll tid => simp [perform, Issues] at h

/-- The handle of an exchange that ended is dead until its slot was freed as
often as there are generations. -/
theorem dead_of_frees {rest : List Op} {i : Idx} (hissued : Issues (perform st op).1 handle)
    (hslot : fastIpcHandleSlot handle = some i)
    (hlt : ((perform st op).2.slots i).generation.toNat < GENERATIONS)
    (hended : 0 < frees i (perform st op).2 rest)
    (hmany : frees i (perform st op).2 rest < GENERATIONS) :
    Dead (after st (op :: rest)) handle := by
  obtain ⟨j, hmake⟩ := issued_slot hissued
  obtain rfl : j = i := by
    rw [hmake, fastIpcHandleSlot_make] at hslot
    exact Option.some.inj hslot
  refine dead_of_generation hslot fun hgen => ?_
  have hnow := congrArg UInt64.toNat hgen
  rw [after_cons, generation_after j _ _ hlt, hmake, toNat_handleGeneration_make] at hnow
  generalize ((perform st op).2.slots j).generation.toNat = g at hnow hlt
  generalize frees j (perform st op).2 rest = k at hnow hended hmany
  rw [Nat.mod_eq_of_lt hlt] at hnow
  rcases Nat.lt_or_ge (g + k) GENERATIONS with hsmall | hlarge
  · rw [Nat.mod_eq_of_lt hsmall] at hnow
    omega
  · rw [Nat.mod_eq_sub_mod hlarge, Nat.mod_eq_of_lt (by omega)] at hnow
    omega

/-! ## Replies -/

/-- The task accepted the call that is in slot `i`, and the slot was not freed
since. -/
def AcceptedBy (ops : List Op) (tid : UInt32) (i : Idx) : Prop :=
  ∃ pre post, ops = pre ++ .accept tid :: post ∧
    (perform (after new pre) (.accept tid)).1 = .accepted
      (some (fastIpcMakeHandle i ((after new ops).slots i).generation,
        ((after new ops).slots i).callerTid, ((after new ops).slots i).words)) ∧
    frees i (after new (pre ++ [.accept tid])) post = 0

theorem after_snoc (st : FastIpcState) (ops : List Op) (op : Op) :
    after st (ops ++ [op]) = (perform (after st ops) op).2 := by
  rw [after_append, after_cons, after_nil]

theorem frees_append (i : Idx) (st : FastIpcState) (ops ops' : List Op) :
    frees i st (ops ++ ops') = frees i st ops + frees i (after st ops) ops' := by
  induction ops generalizing st with
  | nil => simp [frees]
  | cons op ops ih => simp only [List.cons_append, frees, after_cons, ih, Nat.add_assoc]

/-- An accepted slot was accepted by its server, in this exchange. -/
theorem acceptedBy_of_accepted (ops : List Op) (i : Idx)
    (h : ((after new ops).slots i).state = .accepted) :
    AcceptedBy ops ((after new ops).slots i).serverTid i := by
  -- By induction from the end: the last operation accepted the slot or left it.
  induction ops using List.reverseRecOn with
  | nil => exact absurd h (by decide +revert)
  | append_singleton ops op ih =>
    rw [after_snoc] at h
    have hchange := change_perform (after new ops) op i
    have hfrees : ¬Frees (after new ops) op i := fun hf => by simp [hf.2] at h
    rw [after_snoc]
    generalize hnew : (perform (after new ops) op).2.slots i = slot at hchange h ⊢
    generalize hans : (perform (after new ops) op).1 = answer at hchange
    cases hchange with
    | same =>
      obtain ⟨pre, post, hops, hanswer, hnone⟩ := ih h
      refine ⟨pre, post ++ [op], by simpa using congrArg (· ++ [op]) hops, ?_, ?_⟩
      · rw [after_snoc, hnew]
        exact hanswer
      · rw [frees_append, hnone, ← after_append]
        have hpast : pre ++ [Op.accept ((after new ops).slots i).serverTid] ++ post = ops := by
          rw [List.append_assoc]
          exact hops.symm
        rw [hpast, frees, if_neg hfrees, frees]
    | called caller server words hop hne hfree hans' => simp at h
    | accepted hop hpending hans' =>
      refine ⟨ops, [], by rw [hop], ?_, rfl⟩
      rw [after_snoc, hnew, ← hop, hans, hans']
    | replied handle replier privileged words => simp at h
    | collected hop hreplied hans' => simp [retired, FastIpcSlot.empty] at h
    | released tid hop hrel => simp [retired, FastIpcSlot.empty] at h

/-- A slot that holds a reply held it before, or the last operation is the reply
of the task that accepted the call, or of a privileged task. -/
theorem deposited (ops : List Op) (op : Op) (i : Idx)
    (h : ((after new (ops ++ [op])).slots i).state = .replied) :
    (after new (ops ++ [op])).slots i = (after new ops).slots i ∨
      ∃ handle replier privileged words, op = .reply handle replier privileged words ∧
        ((after new ops).slots i).state = .accepted ∧
        handle = fastIpcMakeHandle i ((after new ops).slots i).generation ∧
        (AcceptedBy ops replier i ∨ privileged = true) := by
  rw [after_snoc] at h ⊢
  have hchange := change_perform (after new ops) op i
  generalize (perform (after new ops) op).2.slots i = slot at hchange h ⊢
  cases hchange with
  | same => exact .inl rfl
  | called caller server words hop hne hfree hans => simp at h
  | accepted hop hpending hans => simp at h
  | replied handle replier privileged words hop hhandle haccepted hmay hans =>
    right
    refine ⟨handle, replier, privileged, words, hop, haccepted, hhandle, ?_⟩
    rcases hmay with hpriv | hserver
    · exact .inr hpriv
    · left
      rw [← hserver]
      exact acceptedBy_of_accepted ops i haccepted
  | collected hop hreplied hans => simp [retired, FastIpcSlot.empty] at h
  | released tid hop hrel => simp [retired, FastIpcSlot.empty] at h

/-! ## Rejected operations -/

/-- The operation was turned down, or asked nothing of the table. -/
def Rejected : Answer → Prop
  | .called handle => handle = none
  | .accepted request => request = none
  | .replied outcome => outcome = .stale ∨ outcome = .refused
  | .collected reply => reply = none
  | .waited _ => True
  | .released freed => freed = 0

/-- A rejected operation leaves the whole table as it is. -/
theorem perform_of_rejected (h : Rejected (perform st op).1) : (perform st op).2 = st := by
  cases op with
  | call caller server words tidExists =>
    rcases fastIpcCall_cases st caller server words tidExists with hnone | ⟨i, st', hsome, -⟩
    · simp [perform, hnone]
    · simp [perform, hsome, Rejected] at h
  | accept server =>
    rcases fastIpcAccept_cases st server with hnone | ⟨i, st', hsome, -⟩
    · simp [perform, hnone]
    · simp [perform, hsome, Rejected] at h
  | reply handle replier privileged words =>
    rcases fastIpcReply_cases st handle replier privileged words with
      ⟨-, hsame⟩ | ⟨i, st', hwoke, -⟩
    · exact hsame
    · simp [perform, hwoke, Rejected] at h
  | collect caller =>
    rcases fastIpcCollect_cases st caller with hnone | ⟨i, st', hsome, -⟩
    · simp [perform, hnone]
    · simp [perform, hsome, Rejected] at h
  | waitState handle caller => rfl
  | releaseAll tid =>
    simp only [perform, Rejected] at h ⊢
    exact fastIpcReleaseAll_eq h

/-! ## The whole table -/

/-- What holds of a sequence of operations on the table. -/
structure Safe (ops : List Op) : Prop where
  /-- The handle of an exchange that ended is dead until its slot was freed
  `2 ^ 57` times, the end of the exchange included. -/
  retired : ∀ pre op rest handle i, ops = pre ++ op :: rest →
    Issues (perform (after new pre) op).1 handle → fastIpcHandleSlot handle = some i →
    0 < frees i (after new (pre ++ [op])) rest →
    frees i (after new (pre ++ [op])) rest < 2 ^ 57 → Dead (after new ops) handle
  /-- A reply is deposited in an accepted slot, by the task that accepted it or by
  a privileged task. -/
  deposited : ∀ pre op rest i, ops = pre ++ op :: rest →
    ((after new (pre ++ [op])).slots i).state = .replied →
    (after new (pre ++ [op])).slots i = (after new pre).slots i ∨
      ∃ handle replier privileged words, op = .reply handle replier privileged words ∧
        ((after new pre).slots i).state = .accepted ∧
        handle = fastIpcMakeHandle i ((after new pre).slots i).generation ∧
        (AcceptedBy pre replier i ∨ privileged = true)
  /-- A rejected operation leaves the table as it is. -/
  rejected : ∀ pre op rest, ops = pre ++ op :: rest →
    Rejected (perform (after new pre) op).1 → after new (pre ++ [op]) = after new pre

/-- Every sequence of operations is safe. -/
theorem fastIpc_safe (ops : List Op) : Safe ops := by
  refine ⟨?retired, ?deposited, ?rejected⟩
  case retired =>
    rintro pre op rest handle i rfl hissued hslot hended hmany
    rw [after_snoc] at hended hmany
    rw [after_append]
    refine dead_of_frees hissued hslot ?_ hended hmany
    rw [← after_snoc]
    exact generation_lt i (pre ++ [op])
  case deposited =>
    rintro pre op rest i - hreplied
    exact FastIpc.deposited pre op i hreplied
  case rejected =>
    rintro pre op rest - hrejected
    rw [after_snoc]
    exact perform_of_rejected hrejected

/-! ## The generation comes round

After the exchange has ended, `2 ^ 57 - 1` further frees of its slot are enough
to bring its generation back. -/

/-- The words of the calls below. -/
def ping : Words := ⟨1, 2, 3, 4⟩

/-- A call to task 2, and the exit of its caller. -/
def lostCall : List Op := [.call 1 2 ping true, .releaseAll 1]

/-- The lost call again and again. -/
def lostCalls (n : Nat) : List Op := (List.replicate n lostCall).flatten

def firstSlot : Idx := ⟨0, zero_lt_maxSlots⟩

/-- All slots are free. -/
def Idle (st : FastIpcState) : Prop := ∀ i, (st.slots i).state = .free

/-- The call when all slots are free. -/
theorem perform_call_of_idle (h : Idle st) :
    (perform st (.call 1 2 ping true)).1 =
        .called (some (fastIpcMakeHandle firstSlot (st.slots firstSlot).generation)) ∧
      ∀ j, (perform st (.call 1 2 ping true)).2.slots j =
        if j = firstSlot then ⟨1, 2, ping, .pending, (st.slots firstSlot).generation⟩
        else st.slots j := by
  have hfirst : indices.find? (fun i => (st.slots i).state = .free) = some firstSlot := by
    have hindices : indices = firstSlot :: indices.tail := by decide
    rw [hindices, List.find?_cons_of_pos (by simpa using h firstSlot)]
  simp [perform, fastIpcCall, allocSlot, hfirst, Function.update_apply]

/-- A lost call frees the first slot once and leaves all slots free. -/
theorem lostCall_of_idle (h : Idle st) :
    Idle (after st lostCall) ∧ frees firstSlot st lostCall = 1 := by
  obtain ⟨-, hcall⟩ := perform_call_of_idle h
  have hfree : ∀ j, ((after st lostCall).slots j).state = .free := by
    intro j
    rw [lostCall, after_cons, after_cons, after_nil]
    generalize (perform st (.call 1 2 ping true)).2 = called at hcall
    rw [perform, slots_fastIpcReleaseAll, hcall j]
    by_cases hfirst : j = firstSlot
    · simp [hfirst, Releases, retired, FastIpcSlot.empty]
    · simp [hfirst, Releases, h j]
  refine ⟨hfree, ?_⟩
  have hend := hfree firstSlot
  rw [lostCall, after_cons, after_cons, after_nil] at hend
  have hbefore : ¬Frees st (.call 1 2 ping true) firstSlot := fun hf => hf.1 (h firstSlot)
  have hafter : Frees (perform st (.call 1 2 ping true)).2 (.releaseAll 1) firstSlot := by
    refine ⟨?_, hend⟩
    rw [hcall firstSlot]
    simp
  rw [lostCall, frees, frees, frees, if_neg hbefore, if_pos hafter]

theorem lostCalls_of_idle (n : Nat) (h : Idle st) :
    Idle (after st (lostCalls n)) ∧ frees firstSlot st (lostCalls n) = n := by
  induction n generalizing st with
  | zero => exact ⟨h, rfl⟩
  | succ n ih =>
    obtain ⟨hidle, hone⟩ := lostCall_of_idle h
    obtain ⟨hidle', hrest⟩ := ih hidle
    have hsplit : lostCalls (n + 1) = lostCall ++ lostCalls n := by
      simp [lostCalls, List.replicate_succ]
    rw [hsplit, after_append, frees_append]
    exact ⟨hidle', by omega⟩

/-- The first call is lost, then `2 ^ 57 - 1` others are, and then the client
that calls again waits with the handle of the first call. -/
theorem first_handle_returns :
    (perform new (.call 1 2 ping true)).1 = .called (some (fastIpcMakeHandle firstSlot 0)) ∧
      ((after new lostCall).slots firstSlot).state = .free ∧
      frees firstSlot (after new lostCall) (lostCalls (2 ^ 57 - 1)) = 2 ^ 57 - 1 ∧
      fastIpcWaitState
        (after new (lostCall ++ lostCalls (2 ^ 57 - 1) ++ [.call 1 2 ping true]))
        (fastIpcMakeHandle firstSlot 0) 1 = .waiting := by
  have hnew : Idle new := fun _ => rfl
  obtain ⟨hidle, hone⟩ := lostCall_of_idle hnew
  obtain ⟨hidle', hmany⟩ := lostCalls_of_idle (2 ^ 57 - 1) hidle
  refine ⟨(perform_call_of_idle hnew).1, hidle firstSlot, hmany, ?_⟩
  rw [after_append, after_append, after_cons, after_nil]
  generalize hst : after (after new lostCall) (lostCalls (2 ^ 57 - 1)) = st at hidle'
  have hgen : (st.slots firstSlot).generation = 0 := by
    have hcount := generation_after firstSlot new (lostCall ++ lostCalls (2 ^ 57 - 1))
      (Nat.zero_lt_of_ne_zero (by decide))
    rw [frees_append, hone, hmany, after_append, hst] at hcount
    apply UInt64.toNat_inj.mp
    exact hcount
  have hslot := (perform_call_of_idle hidle').2 firstSlot
  rw [if_pos rfl, hgen] at hslot
  rw [fastIpcWaitState, fastIpcHandleSlot_make]
  simp only [hslot]
  decide

end RobotOs.Ipc.FastIpc
