import RobotOs.Ipc.Pipe
import RobotOs.Lib.Run

/-!
# Slots of closed pipes

`alloc` takes a slot in the state `Free`.  A create makes a slot `Active`, and the two close
functions count the ends down.  When the last end goes the slot becomes `Closed`, and no
function makes it `Free` again.

So a pool can be used up by pipes that nobody has open.  As long as no call closes the last
end of a pipe, every slot is free or has an end open.
-/

namespace RobotOs.Ipc.Pipe

open RobotOs.Lib.Run

variable {m : Nat}

/-- The read end or the write end is open. -/
def EndOpen (pipe : Pipe) : Prop := 0 < pipe.readers ∨ 0 < pipe.writers

instance (pipe : Pipe) : Decidable (EndOpen pipe) := inferInstanceAs (Decidable (_ ∨ _))

/-- A slot without an open end can be allocated, and a create fails only when every slot has
an end open. -/
structure Reusable (pool : Pipes m) : Prop where
  closed : ∀ i, ¬EndOpen (pool.pipes i) → (pool.pipes i).state = .free
  create : ∀ caller, (pipeCreate pool caller).1 = none → ∀ i, EndOpen (pool.pipes i)

/-- The call is let through to the pipe. -/
def Granted (pool : Pipes m) (i : Fin m) (caller : UInt32) (privileged : Bool) : Prop :=
  (pool.pipes i).state ≠ .free ∧ accessOk (pool.pipes i) caller privileged = true

/-- The call does not close the last end of a pipe. -/
def KeepsEnd (pool : Pipes m) : Op → Prop
  | .closeRead idx caller privileged =>
    ∀ i : Fin m, i.val = idx → Granted pool i caller privileged →
      1 < (pool.pipes i).readers ∨ 0 < (pool.pipes i).writers
  | .closeWrite idx caller privileged =>
    ∀ i : Fin m, i.val = idx → Granted pool i caller privileged →
      1 < (pool.pipes i).writers ∨ 0 < (pool.pipes i).readers
  | _ => True

/-! ## One call -/

theorem state_ne_free_of_create {pool : Pipes m} {caller : UInt32}
    (h : (pipeCreate pool caller).1 = none) (i : Fin m) : (pool.pipes i).state ≠ .free := by
  intro hfree
  unfold pipeCreate at h
  cases hfind : (List.finRange m).find? fun i => decide ((pool.pipes i).state = .free) with
  | none =>
    have hnot := List.find?_eq_none.mp hfind i (List.mem_finRange i)
    simp [hfree] at hnot
  | some j =>
    rw [hfind] at h
    cases h

/-- The second half of the property follows from the first. -/
theorem reusable_of_closed {pool : Pipes m}
    (h : ∀ i, ¬EndOpen (pool.pipes i) → (pool.pipes i).state = .free) : Reusable pool where
  closed := h
  create := by
    intro caller hnone i
    by_contra hends
    exact state_ne_free_of_create hnone i (h i hends)

/-- A slot is written, and the pool stays reusable exactly when the slot allows it. -/
theorem reusable_setPipe_iff {pool : Pipes m} (h : Reusable pool) (i : Fin m) (pipe : Pipe) :
    Reusable (setPipe pool i pipe) ↔ (¬EndOpen pipe → pipe.state = .free) := by
  constructor
  · intro hset
    have hi := hset.closed i
    simpa only [setPipe, Function.update_self] using hi
  · intro hpipe
    apply reusable_of_closed
    intro j
    by_cases hj : j = i
    · subst hj
      simpa only [setPipe, Function.update_self] using hpipe
    · simpa only [setPipe, Function.update_of_ne hj] using h.closed j

/-- A pipe in use has an end open. -/
theorem endOpen_of_used {pool : Pipes m} (h : Reusable pool) {i : Fin m}
    (hused : (pool.pipes i).state ≠ .free) : EndOpen (pool.pipes i) := by
  by_contra hends
  exact hused (h.closed i hends)

theorem endOpen_dropReader (pipe : Pipe) :
    (EndOpen (dropReader pipe) ↔ 1 < pipe.readers ∨ 0 < pipe.writers) ∧
      (pipe.state ≠ .free → (dropReader pipe).state ≠ .free) := by
  unfold dropReader EndOpen
  dsimp only
  split_ifs <;> simp_all <;> omega

theorem endOpen_dropWriter (pipe : Pipe) :
    (EndOpen (dropWriter pipe) ↔ 1 < pipe.writers ∨ 0 < pipe.readers) ∧
      (pipe.state ≠ .free → (dropWriter pipe).state ≠ .free) := by
  unfold dropWriter EndOpen
  dsimp only
  split_ifs <;> simp_all <;> omega

/-- A close keeps the property exactly when an end stays open. -/
theorem reusable_pipeClose_iff {drop : Pipe → Pipe} {stays : Pipe → Prop}
    (hdrop : ∀ pipe, (EndOpen (drop pipe) ↔ stays pipe) ∧
      (pipe.state ≠ .free → (drop pipe).state ≠ .free))
    {pool : Pipes m} (h : Reusable pool) (idx : Nat) (caller : UInt32) (privileged : Bool) :
    Reusable (pipeClose drop pool idx caller privileged).2 ↔
      ∀ i : Fin m, i.val = idx → Granted pool i caller privileged → stays (pool.pipes i) := by
  unfold pipeClose
  split_ifs with hidx
  · dsimp only
    split_ifs with hrefused
    · -- The call is refused, so there is nothing to keep.
      refine iff_of_true h ?_
      intro i hi hgranted
      have hi' : i = ⟨idx, hidx⟩ := Fin.ext hi
      rw [Granted, hi'] at hgranted
      simp [hgranted.1, hgranted.2] at hrefused
    · simp only [not_or, Bool.not_eq_eq_eq_not] at hrefused
      rw [reusable_setPipe_iff h]
      constructor
      · intro hends i hi _
        have hi' : i = ⟨idx, hidx⟩ := Fin.ext hi
        rw [hi']
        apply (hdrop _).1.mp
        by_contra hlast
        exact (hdrop _).2 hrefused.1 (hends hlast)
      · intro hstays hlast
        have hopen := hstays ⟨idx, hidx⟩ rfl ⟨hrefused.1, by simpa using hrefused.2⟩
        exact absurd ((hdrop _).1.mpr hopen) hlast
  · refine iff_of_true h ?_
    intro i hi
    omega

/-- A call on a reusable pool leaves it reusable exactly when it closes no last end. -/
theorem reusable_step_iff {pool : Pipes m} (h : Reusable pool) (op : Op) :
    Reusable (step pool op) ↔ KeepsEnd pool op := by
  cases op with
  | create caller =>
    refine iff_of_true ?_ trivial
    rw [step]
    obtain hout | ⟨i, -, hout⟩ := pipeCreate_cases pool caller
    · rw [hout]
      exact h
    · rw [hout]
      apply reusable_of_closed
      exact ((reusable_setPipe_iff h i ⟨[], .active, 1, 1, pool.nextId, caller⟩).mpr
        fun hends => absurd (.inl Nat.one_pos) hends).closed
  | read idx count caller privileged =>
    refine iff_of_true ?_ trivial
    rw [step]
    obtain ⟨answer, hout, -⟩ | ⟨hidx, hused, hout⟩ :=
      pipeRead_cases pool idx count caller privileged
    · rw [hout]
      exact h
    · rw [hout]
      exact (reusable_setPipe_iff h _ _).mpr fun hends => absurd (endOpen_of_used h hused) hends
  | write idx data caller privileged =>
    refine iff_of_true ?_ trivial
    rw [step]
    obtain hout | ⟨hidx, hused, hout⟩ := pipeWrite_cases pool idx data caller privileged
    · rw [hout]
      exact h
    · rw [hout]
      exact (reusable_setPipe_iff h _ _).mpr fun hends => absurd (endOpen_of_used h hused) hends
  | closeRead idx caller privileged =>
    exact reusable_pipeClose_iff endOpen_dropReader h idx caller privileged
  | closeWrite idx caller privileged =>
    exact reusable_pipeClose_iff endOpen_dropWriter h idx caller privileged

/-! ## Runs -/

theorem reusable_new (m : Nat) : Reusable (Pipes.new m) := reusable_of_closed fun _ _ => rfl

/-- From a pool with the property a call keeps it exactly when it closes no last end.  In
every run without such a call every slot whose ends are closed can be allocated, and a create
fails only when every slot has an end open. -/
theorem slots_reusable_iff (m : Nat) :
    (∀ pool : Pipes m, Reusable pool → ∀ op, Reusable (step pool op) ↔ KeepsEnd pool op) ∧
      ∀ ops, Guarded step KeepsEnd (Pipes.new m) ops → Reusable (run step (Pipes.new m) ops) := by
  refine ⟨fun pool h op => reusable_step_iff h op, fun ops hops => ?_⟩
  exact run_invariant_of_guarded Reusable (fun pool op h hop => (reusable_step_iff h op).mpr hop)
    (reusable_new m) hops

/-- In each of eight slots, the number of the embedded profile, a pipe is made and both its
ends are closed.  No slot has an end open, and the next create fails. -/
theorem closed_slots_not_reused :
    let calls := (List.range 8).flatMap fun i =>
      [.create 5, .closeRead i 5 false, .closeWrite i 5 false]
    let pool := run step (Pipes.new 8) calls
    (∀ i, ¬EndOpen (pool.pipes i)) ∧ (pipeCreate pool 5).1 = none := by
  decide +kernel

end RobotOs.Ipc.Pipe
