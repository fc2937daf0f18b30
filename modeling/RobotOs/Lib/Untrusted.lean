import Mathlib.Tactic

/-!
# Reading input that is not trusted

A computation on such input stops in two ways.  A check of the program rejects
the input.  A check of the language, on an index or on the result of an
operation, is a fault.  `Attempt` has both, and a `do` block in `Attempt` is a
program in which every operation that can fault says so.

`Safe x` says that `x` does not fault.  The rules are equivalences, because a
program that faults on some inputs is described by the inputs on which it does:
`safe_bind_iff` for a sequence, and `safe_timesM_iff` for a loop.  `Runs` is the
judgement for the parts that never fault.
`timesM_eq_of_lt` bounds the rounds of a loop that makes progress.
-/

namespace RobotOs.Lib.Untrusted

/-- How a computation stops early. -/
inductive Stop where
  | fault | reject
  deriving DecidableEq, Repr

/-- A computation on input that is not trusted. -/
abbrev Attempt (α : Type) := Except Stop α

/-- A check of the language. -/
def demand (p : Prop) [Decidable p] : Attempt Unit := if p then .ok () else .error .fault

/-- A check of the program. -/
def require (p : Prop) [Decidable p] : Attempt Unit := if p then .ok () else .error .reject

/-- A value that the program expects. -/
def expect {α : Type} : Option α → Attempt α
  | some a => .ok a
  | none => .error .reject

/-- The exact result `n` of an operation on `w` bits that the language checks. -/
def unchecked (w n : Nat) : Attempt Nat := if n < 2 ^ w then .ok n else .error .fault

/-- The exact result `n` of an operation on `w` bits that the program checks. -/
def checked (w n : Nat) : Attempt Nat := if n < 2 ^ w then .ok n else .error .reject

/-- The computation does not fault. -/
def Safe {α : Type} (x : Attempt α) : Prop := x ≠ .error .fault

section Rules

variable {α β : Type} {x : Attempt α} {f : α → Attempt β}

@[simp] theorem safe_ok (a : α) : Safe (.ok a : Attempt α) := by simp [Safe]

@[simp] theorem safe_pure (a : α) : Safe (pure a : Attempt α) := safe_ok a

@[simp] theorem safe_reject : Safe (.error .reject : Attempt α) := by simp [Safe]

@[simp] theorem not_safe_fault : ¬ Safe (.error .fault : Attempt α) := fun h => h rfl

@[simp] theorem ok_bind (a : α) : (Except.ok a : Attempt α) >>= f = f a := rfl

@[simp] theorem error_bind (e : Stop) : (Except.error e : Attempt α) >>= f = .error e := rfl

theorem safe_bind_iff : Safe (x >>= f) ↔ Safe x ∧ ∀ a, x = .ok a → Safe (f a) := by
  cases x with
  | error e =>
    show Safe (.error e : Attempt β) ↔ _
    cases e <;> simp
  | ok a =>
    show Safe (f a) ↔ _
    simp

theorem bind_eq_ok_iff {b : β} : x >>= f = .ok b ↔ ∃ a, x = .ok a ∧ f a = .ok b := by
  cases x with
  | error e =>
    show (.error e : Attempt β) = .ok b ↔ _
    simp
  | ok a =>
    show f a = .ok b ↔ _
    simp

@[simp] theorem pure_eq_ok_iff {a b : α} : (pure a : Attempt α) = .ok b ↔ a = b :=
  ⟨Except.ok.inj, congrArg _⟩

@[simp] theorem safe_demand_iff {p : Prop} [Decidable p] : Safe (demand p) ↔ p := by
  by_cases h : p <;> simp [demand, h]

@[simp] theorem demand_eq_ok_iff {p : Prop} [Decidable p] {u : Unit} : demand p = .ok u ↔ p := by
  by_cases h : p <;> simp [demand, h]

@[simp] theorem safe_require {p : Prop} [Decidable p] : Safe (require p) := by
  by_cases h : p <;> simp [require, h]

@[simp] theorem require_eq_ok_iff {p : Prop} [Decidable p] {u : Unit} :
    require p = .ok u ↔ p := by
  by_cases h : p <;> simp [require, h]

theorem require_of {p : Prop} [Decidable p] (h : p) : require p = .ok () :=
  require_eq_ok_iff.mpr h

theorem require_of_not {p : Prop} [Decidable p] (h : ¬ p) : require p = .error .reject :=
  if_neg h

@[simp] theorem safe_expect (o : Option α) : Safe (expect o) := by
  cases o <;> simp [expect]

@[simp] theorem expect_eq_ok_iff {o : Option α} {a : α} : expect o = .ok a ↔ o = some a := by
  cases o <;> simp [expect]

@[simp] theorem safe_unchecked_iff {w n : Nat} : Safe (unchecked w n) ↔ n < 2 ^ w := by
  by_cases h : n < 2 ^ w <;> simp [unchecked, h]

@[simp] theorem unchecked_eq_ok_iff {w n m : Nat} : unchecked w n = .ok m ↔ n < 2 ^ w ∧ n = m := by
  by_cases h : n < 2 ^ w <;> simp [unchecked, h]

@[simp] theorem safe_checked {w n : Nat} : Safe (checked w n) := by
  by_cases h : n < 2 ^ w <;> simp [checked, h]

@[simp] theorem checked_eq_ok_iff {w n m : Nat} : checked w n = .ok m ↔ n < 2 ^ w ∧ n = m := by
  by_cases h : n < 2 ^ w <;> simp [checked, h]

end Rules

/-! ## Programs that do not fault -/

/-- A result has the property. -/
def Yields {α : Type} (x : Attempt α) (post : α → Prop) : Prop := ∀ a, x = .ok a → post a

/-- The computation does not fault, and its result has the property. -/
def Runs {α : Type} (x : Attempt α) (post : α → Prop) : Prop := Safe x ∧ Yields x post

section Runs

variable {α β : Type} {x : Attempt α} {f : α → Attempt β} {m : α → Prop} {q : β → Prop}

theorem Yields.pure {b : β} (h : q b) : Yields (Pure.pure b) q :=
  fun _ hb => pure_eq_ok_iff.mp hb ▸ h

theorem Yields.bind (hx : Yields x m) (hf : ∀ a, m a → Yields (f a) q) :
    Yields (x >>= f) q := by
  intro b hb
  obtain ⟨a, ha, hb⟩ := bind_eq_ok_iff.mp hb
  exact hf a (hx a ha) b hb

theorem Runs.pure {b : β} (h : q b) : Runs (Pure.pure b) q :=
  ⟨safe_pure b, Yields.pure h⟩

theorem Runs.bind (hx : Runs x m) (hf : ∀ a, m a → Runs (f a) q) : Runs (x >>= f) q := by
  refine ⟨safe_bind_iff.mpr ⟨hx.1, fun a ha => (hf a (hx.2 a ha)).1⟩, ?_⟩
  exact Yields.bind hx.2 fun a ha => (hf a ha).2

theorem Runs.demand {p : Prop} [Decidable p] {f : Unit → Attempt β} (h : p)
    (hf : Runs (f ()) q) : Runs (demand p >>= f) q :=
  Runs.bind (m := fun _ => True) ⟨safe_demand_iff.mpr h, fun _ _ => trivial⟩ fun _ _ => hf

theorem Runs.require {p : Prop} [Decidable p] {f : Unit → Attempt β} (hf : p → Runs (f ()) q) :
    Runs (require p >>= f) q :=
  Runs.bind (m := fun _ => p) ⟨safe_require, fun _ h => require_eq_ok_iff.mp h⟩ fun _ h => hf h

theorem Runs.expect {o : Option α} (hf : ∀ a, o = some a → Runs (f a) q) :
    Runs (expect o >>= f) q :=
  Runs.bind ⟨safe_expect o, fun _ h => expect_eq_ok_iff.mp h⟩ hf

theorem Runs.unchecked {w n : Nat} {f : Nat → Attempt β} (h : n < 2 ^ w)
    (hf : Runs (f n) q) : Runs (unchecked w n >>= f) q :=
  Runs.bind (m := fun m => n = m)
    ⟨safe_unchecked_iff.mpr h, fun _ hm => (unchecked_eq_ok_iff.mp hm).2⟩ fun _ hm => hm ▸ hf

theorem Runs.checked {w n : Nat} {f : Nat → Attempt β} (hf : n < 2 ^ w → Runs (f n) q) :
    Runs (checked w n >>= f) q :=
  Runs.bind (m := fun m => n < 2 ^ w ∧ n = m)
    ⟨safe_checked, fun _ hm => checked_eq_ok_iff.mp hm⟩ fun _ hm => hm.2 ▸ hf hm.1

end Runs

/-! ## Loops -/

/-- `for _ in 0..n { a = f(a)?; }`. -/
def timesM {α : Type} : Nat → (α → Attempt α) → α → Attempt α
  | 0, _, a => .ok a
  | n + 1, f, a => f a >>= timesM n f

section Loops

variable {α : Type} {f : α → Attempt α}

theorem timesM_succ_eq_ok_iff {n : Nat} {a b : α} :
    timesM (n + 1) f a = .ok b ↔ ∃ c, timesM n f a = .ok c ∧ f c = .ok b := by
  induction n generalizing a with
  | zero => simp [timesM, bind_eq_ok_iff]
  | succ n ih =>
    rw [timesM, bind_eq_ok_iff]
    constructor
    · rintro ⟨c, hc, hrest⟩
      obtain ⟨e, he, hb⟩ := ih.mp hrest
      exact ⟨e, bind_eq_ok_iff.mpr ⟨c, hc, he⟩, hb⟩
    · rintro ⟨e, he, hb⟩
      obtain ⟨c, hc, he⟩ := bind_eq_ok_iff.mp he
      exact ⟨c, hc, ih.mpr ⟨e, he, hb⟩⟩

/-- A property that every round keeps. -/
theorem timesM_invariant (inv : α → Prop) (hround : ∀ a b, inv a → f a = .ok b → inv b)
    {n : Nat} {a b : α} (ha : inv a) (h : timesM n f a = .ok b) : inv b := by
  induction n generalizing a with
  | zero =>
    obtain rfl := Except.ok.inj h
    exact ha
  | succ n ih =>
    obtain ⟨c, hc, hrest⟩ := bind_eq_ok_iff.mp h
    exact ih (hround a c ha hc) hrest

/-- A loop faults when one of the rounds it comes to does. -/
theorem safe_timesM_iff {n : Nat} {a : α} :
    Safe (timesM n f a) ↔ ∀ k < n, ∀ b, timesM k f a = .ok b → Safe (f b) := by
  induction n generalizing a with
  | zero => simp [timesM]
  | succ n ih =>
    rw [timesM, safe_bind_iff]
    constructor
    · rintro ⟨hfirst, hrest⟩ k hk b hb
      cases k with
      | zero =>
        obtain rfl := Except.ok.inj hb
        exact hfirst
      | succ k =>
        obtain ⟨c, hc, hb⟩ := bind_eq_ok_iff.mp hb
        exact ih.mp (hrest c hc) k (by omega) b hb
    · intro h
      refine ⟨h 0 (by omega) a rfl, fun c hc => ih.mpr fun k hk b hb => ?_⟩
      exact h (k + 1) (by omega) b (bind_eq_ok_iff.mpr ⟨c, hc, hb⟩)

/-- A loop of which every round is known by its number. -/
theorem Runs.timesM (inv : Nat → α → Prop) {n : Nat} {a : α} (ha : inv 0 a)
    (hround : ∀ k < n, ∀ a, inv k a → Runs (f a) (inv (k + 1))) :
    Runs (timesM n f a) (inv n) := by
  have hreach : ∀ k ≤ n, ∀ b, Untrusted.timesM k f a = .ok b → inv k b := by
    intro k hk
    induction k with
    | zero =>
      intro b hb
      obtain rfl := Except.ok.inj hb
      exact ha
    | succ k ih =>
      intro b hb
      obtain ⟨c, hc, hb⟩ := timesM_succ_eq_ok_iff.mp hb
      exact (hround k (by omega) c (ih (by omega) c hc)).2 b hb
  refine ⟨safe_timesM_iff.mpr fun k hk b hb => ?_, hreach n le_rfl⟩
  exact (hround k hk b (hreach k (by omega) b hb)).1

/-- A loop whose rounds make progress stops in its first rounds, whatever the
number of rounds that was asked for. -/
theorem timesM_eq_of_lt (rank : α → Nat) (inv : α → Prop)
    (hround : ∀ a b, inv a → f a = .ok b → inv b ∧ rank b < rank a) {n m : Nat} {a : α}
    (ha : inv a) (hn : rank a < n) (hm : rank a < m) : timesM n f a = timesM m f a := by
  induction n generalizing m a with
  | zero => omega
  | succ n ih =>
    cases m with
    | zero => omega
    | succ m =>
      rw [timesM, timesM]
      cases hf : f a with
      | error e => rfl
      | ok b =>
        obtain ⟨hb, hrank⟩ := hround a b ha hf
        exact ih hb (by omega) (by omega)

end Loops

end RobotOs.Lib.Untrusted
