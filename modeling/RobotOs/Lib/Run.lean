import Mathlib.Data.List.Basic
import Mathlib.Logic.Relation

/-!
# Runs of a deterministic machine

A machine is a total function `step : σ → α → σ` from a state and an
operation to the next state.  A run is the left fold of a list of
operations.  Nothing here mentions a concrete machine.

The rules are those that the safety proofs of the development use:

* `run_invariant` and `run_invariant_of_guarded` package the induction over
  a run.  The first needs a property that every step keeps.  The second
  needs it only for the steps that meet a condition on the state they start
  from, and the run carries that condition as `Guarded`.
* `guarded_of_steps` and `guarded_of_invariant` are the same inductions for a property of the
  steps.
* `run_invariant_of_chain` is for a step that is a sequence of smaller moves.
  It needs the property for one move only.
* `guarded_split` cuts a run at one of its steps, so that a statement about
  "the state before the step" is a statement about a prefix.
* `reaches_of_measure` is for what a run must come to: a measure that no step
  raises and that the marked steps lower bounds the marked steps before the goal.
-/

namespace RobotOs.Lib.Run

variable {σ α : Type}

/-- The state after the operations `ops`, from left to right. -/
def run (step : σ → α → σ) (s : σ) (ops : List α) : σ := ops.foldl step s

/-- Every operation of the run meets `ok` in the state it starts from. -/
def Guarded (step : σ → α → σ) (ok : σ → α → Prop) : σ → List α → Prop
  | _, [] => True
  | s, op :: ops => ok s op ∧ Guarded step ok (step s op) ops

/-- A condition that can be checked can be checked along a run. -/
instance Guarded.decidable (step : σ → α → σ) (ok : σ → α → Prop)
    [∀ s op, Decidable (ok s op)] : ∀ s ops, Decidable (Guarded step ok s ops)
  | _, [] => isTrue trivial
  | s, op :: ops =>
    have := Guarded.decidable step ok (step s op) ops
    inferInstanceAs (Decidable (ok s op ∧ Guarded step ok (step s op) ops))

section Runs

variable {step : σ → α → σ} {ok : σ → α → Prop}

@[simp] theorem run_nil (s : σ) : run step s [] = s := rfl

@[simp] theorem run_cons (s : σ) (op : α) (ops : List α) :
    run step s (op :: ops) = run step (step s op) ops := rfl

@[simp] theorem run_append (s : σ) (ops ops' : List α) :
    run step s (ops ++ ops') = run step (run step s ops) ops' := by
  simp [run]

/-- The state after one more operation. -/
theorem run_concat (s : σ) (ops : List α) (op : α) :
    run step s (ops ++ [op]) = step (run step s ops) op := by
  simp

/-- A property that every step keeps holds after every run. -/
theorem run_invariant (inv : σ → Prop)
    (hstep : ∀ s op, inv s → inv (step s op)) {s : σ} (hs : inv s)
    (ops : List α) : inv (run step s ops) := by
  induction ops generalizing s with
  | nil => exact hs
  | cons op ops ih => exact ih (hstep s op hs)

/-- A property that every step meeting `ok` keeps holds after every run
whose steps all meet `ok`. -/
theorem run_invariant_of_guarded (inv : σ → Prop)
    (hstep : ∀ s op, inv s → ok s op → inv (step s op)) {s : σ} (hs : inv s)
    {ops : List α} (hok : Guarded step ok s ops) : inv (run step s ops) := by
  induction ops generalizing s with
  | nil => exact hs
  | cons op ops ih =>
    obtain ⟨hop, hrest⟩ := hok
    exact ih (hstep s op hs hop) hrest

/-- When every step that meets `ok` keeps a property and has another one, every
step of a run whose steps all meet `ok` has the other one. -/
theorem guarded_of_invariant (inv : σ → Prop) {safe : σ → α → Prop}
    (hstep : ∀ s op, inv s → ok s op → safe s op ∧ inv (step s op)) {s : σ} (hs : inv s)
    {ops : List α} (hok : Guarded step ok s ops) : Guarded step safe s ops := by
  induction ops generalizing s with
  | nil => trivial
  | cons op ops ih =>
    obtain ⟨hop, hrest⟩ := hok
    obtain ⟨hsafe, hinv⟩ := hstep s op hs hop
    exact ⟨hsafe, ih hinv hrest⟩

/-- When every step keeps a property and has another one, every step of a run has the other
one. -/
theorem guarded_of_steps (inv : σ → Prop) {safe : σ → α → Prop}
    (hstep : ∀ s op, inv s → safe s op ∧ inv (step s op)) {s : σ} (hs : inv s)
    (ops : List α) : Guarded step safe s ops := by
  induction ops generalizing s with
  | nil => trivial
  | cons op ops ih =>
    obtain ⟨hsafe, hinv⟩ := hstep s op hs
    exact ⟨hsafe, ih hinv⟩

/-- A property that every move keeps is kept by a chain of moves. -/
theorem chain_invariant (inv : σ → Prop) {move : σ → σ → Prop}
    (hmove : ∀ s s', inv s → move s s' → inv s') {s s' : σ} (hs : inv s)
    (hchain : Relation.ReflTransGen move s s') : inv s' := by
  induction hchain with
  | refl => exact hs
  | tail _ hlast ih => exact hmove _ _ ih hlast

/-- When every step is a chain of moves, a property that every move keeps
holds after every run. -/
theorem run_invariant_of_chain (inv : σ → Prop) {move : σ → σ → Prop}
    (hchain : ∀ s op, Relation.ReflTransGen move s (step s op))
    (hmove : ∀ s s', inv s → move s s' → inv s') {s : σ} (hs : inv s)
    (ops : List α) : inv (run step s ops) :=
  run_invariant inv (fun s op h => chain_invariant inv hmove h (hchain s op)) hs ops

/-- A guarded run is a guarded prefix followed by a guarded suffix. -/
theorem guarded_append {s : σ} {ops ops' : List α} :
    Guarded step ok s (ops ++ ops') ↔
      Guarded step ok s ops ∧ Guarded step ok (run step s ops) ops' := by
  induction ops generalizing s with
  | nil => simp [Guarded]
  | cons op ops ih => simp [Guarded, ih, and_assoc]

/-- The step in the middle of a guarded run meets the condition in the state
that the steps before it reach. -/
theorem guarded_split {s : σ} {pre post : List α} {op : α}
    (hok : Guarded step ok s (pre ++ op :: post)) :
    Guarded step ok s pre ∧ ok (run step s pre) op := by
  obtain ⟨hpre, hrest⟩ := guarded_append.mp hok
  exact ⟨hpre, hrest.1⟩

/-- No step before the goal raises the measure, and the marked ones lower it.  Then a run
with more marked steps than the measure reaches the goal. -/
theorem reaches_of_measure (inv goal : σ → Prop) (mark : α → Bool) (m : σ → Nat)
    (hstep : ∀ s op, inv s → ok s op →
      goal (step s op) ∨ inv (step s op) ∧ m (step s op) + (mark op).toNat ≤ m s)
    {s : σ} (hs : inv s) {ops : List α} (hok : Guarded step ok s ops)
    (hcount : m s < ops.countP mark) : ∃ pre, pre <+: ops ∧ goal (run step s pre) := by
  induction ops generalizing s with
  | nil => exact absurd hcount (Nat.not_lt_zero _)
  | cons op ops ih =>
    obtain ⟨hop, hrest⟩ := hok
    obtain hgoal | ⟨hinv, hle⟩ := hstep s op hs hop
    · exact ⟨[op], ⟨ops, rfl⟩, hgoal⟩
    · have hless : m (step s op) < ops.countP mark := by
        rw [List.countP_cons] at hcount
        cases hmark : mark op with
        | true => simp [hmark] at hcount hle; omega
        | false => simp [hmark] at hcount hle; omega
      obtain ⟨pre, hpre, hgoal⟩ := ih hinv hrest hless
      exact ⟨op :: pre, (List.prefix_cons_inj op).mpr hpre, hgoal⟩

end Runs

end RobotOs.Lib.Run
