import RobotOs.Ipc.Signal
import RobotOs.Lib.Run

/-!
# Isolation in the signal table

The table of `signal.rs` under any sequence of its operations, `signal_release` with its
compaction among them.

An operation is for one task.  `Frames` says that the entries of the others are the same
before and after, wherever they stand, and `step_cases` is what an operation can do.  What no
mask may hide is `Deliverable`.
-/

namespace RobotOs.Ipc.Signal

open RobotOs.Lib.Run

variable {table : SigTable} {tid : UInt32} {s : SigState}

/-- `signal_pending`. -/
def signalPending (table : SigTable) (caller : UInt32) : UInt32 :=
  match find table caller with
  | some i => ((table[i]?).map fun e => e.state.pending &&& ~~~e.state.mask).getD 0
  | none => 0

/-- `signal_get_mask`. -/
def signalGetMask (table : SigTable) (caller : UInt32) : UInt32 :=
  match find table caller with
  | some i => ((table[i]?).map fun e => e.state.mask).getD 0
  | none => 0

/-- A call of the module. -/
inductive Request where
  | update (op : Op)
  | release (tid : UInt32)
  | pending (caller : UInt32)
  | getMask (caller : UInt32)
  deriving DecidableEq, Repr

def serve (table : SigTable) : Request → SigTable
  | .update op => step table op
  | .release tid => release table tid
  | .pending _ => table
  | .getMask _ => table

/-- The task whose entry a call may change. -/
def Request.subject : Request → Option UInt32
  | .update op => op.guest
  | .release tid => some tid
  | .pending _ => none
  | .getMask _ => none

/-! ## The state of a task -/

def stateOf (table : SigTable) (tid : UInt32) : Option SigState :=
  (table.find? fun e => e.tid == tid).map SigEntry.state

/-- The state does not depend on where the entry stands. -/
theorem stateOf_eq_some_iff (h : TidsNodup table) :
    stateOf table tid = some s ↔ ⟨tid, s⟩ ∈ table := by
  constructor
  · intro hs
    obtain ⟨e, he, rfl⟩ := Option.map_eq_some_iff.mp hs
    have htid : e.tid = tid := by simpa using List.find?_some he
    rw [← htid]
    exact List.mem_of_find?_eq_some he
  · intro hmem
    obtain ⟨e, he⟩ : ∃ e, (table.find? fun e => e.tid == tid) = some e := by
      rw [← Option.isSome_iff_exists, List.find?_isSome]
      exact ⟨_, hmem, beq_self_eq_true tid⟩
    have htid : e.tid = tid := by simpa using List.find?_some he
    have heq : e = ⟨tid, s⟩ :=
      List.inj_on_of_nodup_map h (List.mem_of_find?_eq_some he) hmem htid
    rw [stateOf, he, heq]
    rfl

theorem stateOf_eq_bind (table : SigTable) (tid : UInt32) :
    stateOf table tid = (find table tid).bind fun i => (table[i]?).map SigEntry.state := by
  unfold stateOf find
  rw [List.find?_eq_bind_findIdx?_getElem?, Option.map_bind]
  rfl

theorem signalPending_eq (table : SigTable) (tid : UInt32) :
    signalPending table tid =
      ((stateOf table tid).map fun s => s.pending &&& ~~~s.mask).getD 0 := by
  unfold signalPending
  rw [stateOf_eq_bind]
  cases find table tid with
  | none => rfl
  | some i => rw [Option.bind_some, Option.map_map, Function.comp_def]

theorem signalGetMask_eq (table : SigTable) (tid : UInt32) :
    signalGetMask table tid = ((stateOf table tid).map SigState.mask).getD 0 := by
  unfold signalGetMask
  rw [stateOf_eq_bind]
  cases find table tid with
  | none => rfl
  | some i => rw [Option.bind_some, Option.map_map, Function.comp_def]

/-! ## What an operation can do -/

/-- The entries of the other tasks are the same. -/
def Frames (tid : UInt32) (table table' : SigTable) : Prop :=
  ∀ e : SigEntry, e.tid ≠ tid → (e ∈ table' ↔ e ∈ table)

theorem Frames.stateOf {u : UInt32} {table' : SigTable} (h : Frames tid table table')
    (hnodup : TidsNodup table) (hnodup' : TidsNodup table') (hne : u ≠ tid) :
    stateOf table' u = stateOf table u := by
  apply Option.ext
  intro s
  rw [stateOf_eq_some_iff hnodup', stateOf_eq_some_iff hnodup]
  exact h ⟨u, s⟩ hne

theorem frames_release (table : SigTable) (tid : UInt32) :
    Frames tid table (release table tid) := by
  intro e he
  unfold release
  cases hfind : find table tid with
  | none => rfl
  | some i =>
    obtain ⟨hi, hentry, -⟩ := List.findIdx?_eq_some_iff_getElem.mp hfind
    have htid : table[i].tid = tid := by simpa using hentry
    cases hlast : table.getLast? with
    | none => rfl
    | some last =>
      -- The entry that goes is the only difference.
      have hsplit := (List.getElem_cons_eraseIdx_perm hi).mem_iff (a := e)
      have hother : e ≠ table[i] := fun heq => he (heq ▸ htid)
      rw [List.mem_cons, or_iff_right hother] at hsplit
      exact (perm_set_dropLast table last hi hlast).mem_iff.trans hsplit

/-- The place that `get_or_create` gives is the place of the task. -/
theorem getOrCreate_spec {table' : SigTable} {i : Nat}
    (h : getOrCreate table tid = some (i, table')) :
    (∃ s, table'[i]? = some ⟨tid, s⟩) ∧ Frames tid table table' ∧
      (table' = table ∨ table' = table ++ [⟨tid, .new⟩] ∧ table.length < MAX_TASKS) := by
  unfold getOrCreate at h
  split at h
  · next j hfind =>
    obtain ⟨rfl, rfl⟩ := Prod.mk.inj (Option.some.inj h)
    obtain ⟨hi, hentry, -⟩ := List.findIdx?_eq_some_iff_getElem.mp hfind
    have htid : table[j].tid = tid := by simpa using hentry
    refine ⟨⟨table[j].state, ?_⟩, fun _ _ => Iff.rfl, .inl rfl⟩
    rw [List.getElem?_eq_getElem hi, ← htid]
  · split_ifs at h with hroom
    obtain ⟨rfl, rfl⟩ := Prod.mk.inj (Option.some.inj h)
    refine ⟨⟨.new, by simp⟩, ?_, .inr ⟨rfl, hroom⟩⟩
    intro e he
    have hother : e ∉ [(⟨tid, .new⟩ : SigEntry)] := fun hmem =>
      he (by rw [List.mem_singleton.mp hmem])
    rw [List.mem_append, or_iff_left hother]

theorem mem_modifyState {i : Nat} {f : SigState → SigState} {e : SigEntry} :
    e ∈ modifyState table i f ↔
      ∃ k a, table[k]? = some a ∧ e = if i = k then ⟨a.tid, f a.state⟩ else a := by
  unfold modifyState
  rw [List.mem_iff_getElem?]
  simp only [List.getElem?_modify, Option.map_eq_map, Option.map_eq_some_iff]
  apply exists_congr
  intro k
  apply exists_congr
  intro a
  split_ifs <;> exact and_congr_right fun _ => eq_comm

theorem frames_modifyState {i : Nat} (hplace : table[i]? = some ⟨tid, s⟩)
    (f : SigState → SigState) :
    Frames tid table (modifyState table i f) := by
  intro e he
  rw [mem_modifyState, List.mem_iff_getElem?]
  apply exists_congr
  intro k
  by_cases hk : i = k
  · subst hk
    simp only [hplace, if_true]
    constructor
    · intro h
      obtain ⟨a, ha, rfl⟩ := h
      obtain rfl := Option.some.inj ha
      exact absurd rfl he
    · intro h
      obtain rfl := Option.some.inj h
      exact absurd rfl he
  · simp [hk, eq_comm]

/-! ## Signals that stay deliverable -/

def unblockable : UInt32 := 1 <<< SIGKILL ||| 1 <<< SIGSTOP

/-- Neither of the two signals is masked or handled. -/
structure Deliverable (s : SigState) : Prop where
  mask : s.mask &&& unblockable = 0
  handlers : ∀ k, k = SIGKILL.toNat ∨ k = SIGSTOP.toNat → s.handlers k = SIG_DFL

theorem deliverable_new : Deliverable .new := ⟨by decide, fun _ _ => rfl⟩

/-- An operation does nothing, or it changes the state of its guest. -/
theorem step_cases (table : SigTable) (op : Op) :
    step table op = table ∨ ∃ tid i table' f, op.guest = some tid ∧
      getOrCreate table tid = some (i, table') ∧ step table op = modifyState table' i f ∧
      ∀ s, Deliverable s → Deliverable (f s) := by
  cases op with
  | send tid signum caller privileged =>
    simp only [step, signalSend]
    split_ifs
    · exact .inl rfl
    · cases hget : getOrCreate table tid with
      | none => exact .inl rfl
      | some out =>
        obtain ⟨i, table'⟩ := out
        dsimp only
        refine .inr ⟨tid, i, table', _, rfl, hget, rfl, ?_⟩
        exact fun s hs => ⟨hs.1, hs.2⟩
  | setHandler signum handler caller =>
    simp only [step, signalSetHandler]
    split_ifs with hvalid hcatch
    · exact .inl rfl
    · cases hget : getOrCreate table caller with
      | none => exact .inl rfl
      | some out =>
        obtain ⟨i, table'⟩ := out
        dsimp only
        refine .inr ⟨caller, i, table', _, rfl, hget, rfl, ?_⟩
        intro s hs
        refine ⟨hs.1, fun k hk => ?_⟩
        have hother : k ≠ signum.toNat := by
          intro heq
          simp only [signalCatchable, Bool.and_eq_true, decide_eq_true_eq] at hcatch
          obtain hk | hk := hk
          · exact hcatch.1 (UInt32.toNat_inj.mp (heq.symm.trans hk))
          · exact hcatch.2 (UInt32.toNat_inj.mp (heq.symm.trans hk))
        exact (if_neg hother).trans (hs.2 k hk)
    · cases hget : getOrCreate table caller with
      | none => exact .inl rfl
      | some out =>
        obtain ⟨i, table'⟩ := out
        dsimp only
        refine .inr ⟨caller, i, table', id, rfl, hget, ?_, fun s hs => hs⟩
        exact (List.modify_id _ _).symm
  | setMask mask caller =>
    simp only [step, signalSetMask]
    cases hget : getOrCreate table caller with
    | none => exact .inl rfl
    | some out =>
      obtain ⟨i, table'⟩ := out
      dsimp only
      refine .inr ⟨caller, i, table', _, rfl, hget, rfl, ?_⟩
      intro s hs
      refine ⟨?_, hs.2⟩
      show mask &&& ~~~unblockable &&& unblockable = 0
      simp [UInt32.and_assoc]

/-- The table is well formed: one entry for a task, no more entries than places, and nothing
hides the two signals. -/
structure Sound (table : SigTable) : Prop where
  nodup : TidsNodup table
  room : table.length ≤ MAX_TASKS
  deliverable : ∀ e ∈ table, Deliverable e.state

theorem sound_nil : Sound [] :=
  ⟨List.nodup_nil, Nat.zero_le _, fun _ h => absurd h List.not_mem_nil⟩

theorem Sound.step (h : Sound table) (op : Op) :
    Sound (Signal.step table op) ∧
      ∀ tid, op.guest = some tid → Frames tid table (Signal.step table op) := by
  have hnodup := tidsNodup_step h.nodup op
  obtain hsame | ⟨tid, i, table', f, hguest, hget, hstep, hkeeps⟩ := step_cases table op
  · rw [hsame]
    exact ⟨h, fun _ _ _ _ => Iff.rfl⟩
  · obtain ⟨⟨s, hplace⟩, hframes, hgrown⟩ := getOrCreate_spec hget
    have hdeliverable : ∀ e ∈ table', Deliverable e.state := by
      obtain rfl | ⟨rfl, -⟩ := hgrown
      · exact h.deliverable
      · intro e he
        obtain he | he := List.mem_append.mp he
        · exact h.deliverable e he
        · rw [List.mem_singleton.mp he]
          exact deliverable_new
    rw [hstep] at hnodup ⊢
    refine ⟨⟨hnodup, ?_, ?_⟩, ?_⟩
    · rw [modifyState, List.length_modify]
      obtain rfl | ⟨rfl, hroom⟩ := hgrown
      · exact h.room
      · rw [List.length_append, List.length_singleton]
        exact hroom
    · intro e he
      obtain ⟨k, a, ha, rfl⟩ := mem_modifyState.mp he
      have hold := hdeliverable a (List.mem_of_getElem? ha)
      split_ifs
      · exact hkeeps _ hold
      · exact hold
    · intro u hu e he
      obtain rfl := Option.some.inj (hguest.symm.trans hu)
      exact (frames_modifyState hplace f e he).trans (hframes e he)

theorem Sound.release (h : Sound table) (tid : UInt32) :
    Sound (Signal.release table tid) := by
  obtain ⟨hgone, hnodup, -⟩ := tids_release h.nodup tid
  refine ⟨hnodup, ?_, ?_⟩
  · refine Nat.le_trans ?_ h.room
    unfold Signal.release
    split
    · rw [List.length_dropLast, List.length_set]
      exact Nat.sub_le _ _
    · exact Nat.le_refl _
  · intro e he
    have hother : e.tid ≠ tid := by
      intro htid
      rw [← htid] at hgone he
      exact hgone (List.mem_map_of_mem he)
    exact h.deliverable e ((frames_release table tid e hother).mp he)

/-- A call keeps the table well formed and is no concern of the other tasks. -/
theorem Sound.serve (h : Sound table) (req : Request) :
    Sound (Signal.serve table req) ∧ ∀ u, req.subject ≠ some u →
      stateOf (Signal.serve table req) u = stateOf table u := by
  cases req with
  | update op =>
    obtain ⟨hsound, hframes⟩ := h.step op
    refine ⟨hsound, fun u hu => ?_⟩
    obtain ⟨tid, hguest, -⟩ := grows_step table op
    exact (hframes tid hguest).stateOf h.nodup hsound.nodup fun heq => hu (heq ▸ hguest)
  | release tid =>
    refine ⟨h.release tid, fun u hu => ?_⟩
    exact (frames_release table tid).stateOf h.nodup (h.release tid).nodup
      fun heq => hu (heq ▸ rfl)
  | pending caller => exact ⟨h, fun _ _ => rfl⟩
  | getMask caller => exact ⟨h, fun _ _ => rfl⟩

/-! ## Delivery -/

/-- Taking out bits that a signal does not have leaves the signal. -/
theorem and_not_and {p m b : UInt32} (h : m &&& b = 0) : p &&& ~~~m &&& b = p &&& b := by
  have hkeep : ~~~m &&& b = b := by
    rw [← UInt32.toBitVec_inj] at h ⊢
    ext k hk
    have hbit := congrArg (·.getLsbD k) h
    simp only [UInt32.toBitVec_and, UInt32.toBitVec_ofNat, UInt32.toBitVec_not, BitVec.getLsbD_and,
      BitVec.getLsbD_zero, BitVec.getElem_and, BitVec.getElem_not] at hbit ⊢
    grind
  rw [UInt32.and_assoc, hkeep]

theorem or_and_cancel (p b : UInt32) : (p ||| b) &&& b = b := by
  rw [← UInt32.toBitVec_inj]
  ext k hk
  simp only [UInt32.toBitVec_and, UInt32.toBitVec_or, BitVec.getElem_and, BitVec.getElem_or,
    Bool.and_eq_right_iff_imp, Bool.or_eq_true]
  exact Or.inr

/-- A part of what no mask may hide. -/
theorem Deliverable.unmasked (h : Deliverable s) {signum : UInt32}
    (hsig : signum = SIGKILL ∨ signum = SIGSTOP) : s.mask &&& 1 <<< signum = 0 := by
  have hpart : 1 <<< signum = unblockable &&& 1 <<< signum := by
    obtain rfl | rfl := hsig <;> decide
  rw [hpart, ← UInt32.and_assoc, h.mask, UInt32.zero_and]

theorem Sound.deliverable_of (h : Sound table) (hs : stateOf table tid = some s) : Deliverable s :=
  h.deliverable _ ((stateOf_eq_some_iff h.nodup).mp hs)

/-- Once one of the two signals is sent it is pending, whatever the mask. -/
theorem Sound.send (h : Sound table) {signum caller : UInt32} {privileged : Bool}
    (hsig : signum = SIGKILL ∨ signum = SIGSTOP)
    (hsent : (signalSend table tid signum caller privileged).1 = true) :
    signalPending (signalSend table tid signum caller privileged).2 tid &&& 1 <<< signum =
      1 <<< signum := by
  have hsound := (h.step (.send tid signum caller privileged)).1
  obtain ⟨s, hs⟩ : ∃ s : SigState, stateOf (signalSend table tid signum caller privileged).2 tid =
      some { s with pending := s.pending ||| 1 <<< signum } := by
    change Sound (signalSend table tid signum caller privileged).2 at hsound
    unfold signalSend at hsent hsound ⊢
    split_ifs at hsent hsound ⊢
    cases hget : getOrCreate table tid with
    | none => simp [hget] at hsent
    | some out =>
      obtain ⟨i, table'⟩ := out
      simp only [hget] at hsound ⊢
      obtain ⟨⟨s, hplace⟩, -, -⟩ := getOrCreate_spec hget
      refine ⟨s, (stateOf_eq_some_iff hsound.nodup).mpr (mem_modifyState.mpr ?_)⟩
      exact ⟨i, _, hplace, (if_pos rfl).symm⟩
  have hmask := (hsound.deliverable_of hs).unmasked hsig
  rw [signalPending_eq, hs]
  show _ &&& ~~~_ &&& _ = _
  rw [and_not_and hmask, or_and_cancel]

/-- A task that is in the table can be sent to. -/
theorem signalSend_of_mem {signum caller : UInt32} {privileged : Bool}
    (hvalid : signalValid signum = true) (hpolicy : privileged = true ∨ tid = caller)
    (hmem : tid ∈ tids table) : (signalSend table tid signum caller privileged).1 = true := by
  have hallowed : ¬((!signalValid signum) = true ∨ (!privileged) = true ∧ tid ≠ caller) := by
    obtain rfl | rfl := hpolicy <;> simp [hvalid]
  unfold signalSend getOrCreate
  rw [if_neg hallowed]
  cases hfind : find table tid with
  | none => exact absurd hmem (find_eq_none hfind)
  | some i => rfl

/-- Whatever is called, no two entries are of one task, a call is no concern of the other
tasks, and nothing keeps the two signals from a task that is in the table. -/
theorem signal_table_isolated (reqs : List Request) :
    TidsNodup (run serve [] reqs) ∧ (run serve [] reqs).length ≤ MAX_TASKS ∧
    (∀ tid u, u ≠ tid →
      stateOf (release (run serve [] reqs) tid) u = stateOf (run serve [] reqs) u) ∧
    (∀ req u, req.subject ≠ some u →
      stateOf (serve (run serve [] reqs) req) u = stateOf (run serve [] reqs) u) ∧
    ∀ signum, signum = SIGKILL ∨ signum = SIGSTOP → ∀ tid,
      signalGetMask (run serve [] reqs) tid &&& 1 <<< signum = 0 ∧
      (∀ s, stateOf (run serve [] reqs) tid = some s → s.handlers signum.toNat = SIG_DFL ∧
        signalPending (run serve [] reqs) tid &&& 1 <<< signum = s.pending &&& 1 <<< signum) ∧
      ∀ caller privileged,
        ((privileged = true ∨ tid = caller) → tid ∈ tids (run serve [] reqs) →
          (signalSend (run serve [] reqs) tid signum caller privileged).1 = true) ∧
        ((signalSend (run serve [] reqs) tid signum caller privileged).1 = true →
          signalPending (signalSend (run serve [] reqs) tid signum caller privileged).2 tid &&&
            1 <<< signum = 1 <<< signum) := by
  have hsound : Sound (run serve [] reqs) :=
    run_invariant Sound (fun _ req h => (h.serve req).1) sound_nil reqs
  generalize run serve [] reqs = table at hsound ⊢
  refine ⟨hsound.nodup, hsound.room, ?_, fun req => (hsound.serve req).2, ?_⟩
  · intro tid u hne
    exact (hsound.serve (.release tid)).2 u fun heq => hne (Option.some.inj heq).symm
  · intro signum hsig tid
    have hvalid : signalValid signum = true := by obtain rfl | rfl := hsig <;> decide
    refine ⟨?_, ?_, fun caller privileged => ⟨signalSend_of_mem hvalid, hsound.send hsig⟩⟩
    · rw [signalGetMask_eq]
      cases hs : stateOf table tid with
      | none => exact UInt32.zero_and
      | some s => exact (hsound.deliverable_of hs).unmasked hsig
    · intro s hs
      have hdeliverable := hsound.deliverable_of hs
      refine ⟨hdeliverable.handlers _ (hsig.imp (congrArg _) (congrArg _)), ?_⟩
      rw [signalPending_eq, hs]
      exact and_not_and (hdeliverable.unmasked hsig)

end RobotOs.Ipc.Signal
