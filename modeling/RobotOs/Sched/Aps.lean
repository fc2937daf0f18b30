import RobotOs.Sched.Policies

/-!
# Adaptive partitioning

`class.rs` and `partitions.rs` of the sched crate.  Each class has a budget in
every window: a minimum that it is promised and a maximum after which it yields.
`pick_class` serves a class below its minimum first, then one below its maximum,
and then any class with a task, each time the most urgent one.  `tick` charges
the class that runs and starts a new window when the time has come.

Times of the clock are natural numbers; its 64 bits of microseconds do not run
out.  The time that a class consumed wraps around as in the source.
-/

namespace RobotOs.Sched.Policy

/-- `ClassBudget`. -/
structure ClassBudget where
  minPct : UInt8
  maxPct : UInt8
  consumedUs : UInt32
  deriving DecidableEq, Repr

namespace ClassBudget

def new (minPct maxPct : UInt8) : ClassBudget := ⟨minPct, maxPct, 0⟩

def resetWindow (b : ClassBudget) : ClassBudget := { b with consumedUs := 0 }

def consume (b : ClassBudget) (dtUs : UInt32) : ClassBudget :=
  { b with consumedUs := b.consumedUs + dtUs }

def quotaUs (b : ClassBudget) (windowUs : UInt32) : UInt32 :=
  UInt32.ofNat (windowUs.toNat * b.maxPct.toNat / 100)

def minQuotaUs (b : ClassBudget) (windowUs : UInt32) : UInt32 :=
  UInt32.ofNat (windowUs.toNat * b.minPct.toNat / 100)

def overQuota (b : ClassBudget) (windowUs : UInt32) : Bool := b.consumedUs ≥ b.quotaUs windowUs

def underMin (b : ClassBudget) (windowUs : UInt32) : Bool := b.consumedUs < b.minQuotaUs windowUs

end ClassBudget

/-- `DEFAULT_BUDGETS_PCT`. -/
def defaultBudgetPct : SchedClass → UInt8
  | .SafetyCritical => 20
  | .HardRT => 30
  | .SoftRT => 25
  | .BestEffort => 20
  | .Idle => 5

/-- `Aps`. -/
structure Aps where
  budgets : SchedClass → ClassBudget
  windowUs : UInt32
  windowStartUs : Nat
  currentClass : Option SchedClass
  currentTid : UInt32

namespace Aps

def new (budgets : SchedClass → ClassBudget) (windowUs : UInt32) : Aps :=
  ⟨budgets, windowUs, 0, none, 0⟩

/-- `Aps::default_config`. -/
def defaultConfig : Aps := new (fun c => .new (defaultBudgetPct c) 100) 10000

def setCurrent (a : Aps) (c : SchedClass) (tid : UInt32) : Aps :=
  { a with currentClass := some c, currentTid := tid }

def setIdle (a : Aps) : Aps := { a with currentClass := none, currentTid := 0 }

/-- Every class starts a window. -/
def resetWindows (a : Aps) : Aps := { a with budgets := fun c => (a.budgets c).resetWindow }

/-- The budget of the class that runs is charged. -/
def charge (a : Aps) (dtUs : UInt32) : Aps :=
  match a.currentClass with
  | none => a
  | some c => { a with budgets := Function.update a.budgets c ((a.budgets c).consume dtUs) }

/-- `tick`.  A new window starts before the elapsed time is charged. -/
def tick (a : Aps) (nowUs : Nat) (dtUs : UInt32) : Aps :=
  let elapsed := nowUs - a.windowStartUs
  let window := a.windowUs.toNat
  if window > 0 ∧ elapsed ≥ window then
    charge { a.resetWindows with
      windowStartUs := a.windowStartUs + elapsed / window * window } dtUs
  else a.charge dtUs

/-- `pick_class`. -/
def pickClass (a : Aps) (isRunnable : SchedClass → Bool) : Option SchedClass :=
  match SchedClass.ALL.find? fun c => isRunnable c && (a.budgets c).underMin a.windowUs with
  | some c => some c
  | none =>
    match SchedClass.ALL.find? fun c => isRunnable c && !(a.budgets c).overQuota a.windowUs with
    | some c => some c
    | none => SchedClass.ALL.find? isRunnable

def anchorWindow (a : Aps) (nowUs : Nat) : Aps := { a.resetWindows with windowStartUs := nowUs }

/-! ## Which class is picked -/

theorem mem_all (c : SchedClass) : c ∈ SchedClass.ALL := by cases c <;> decide

variable {a : Aps} {isRunnable : SchedClass → Bool}

/-- A class that is picked has a task. -/
theorem isRunnable_of_pickClass {c : SchedClass} (h : a.pickClass isRunnable = some c) :
    isRunnable c = true := by
  unfold pickClass at h
  split at h
  next d hd =>
    obtain rfl := Option.some.inj h
    have hfound := List.find?_some hd
    rw [Bool.and_eq_true] at hfound
    exact hfound.1
  next =>
    split at h
    next d hd =>
      obtain rfl := Option.some.inj h
      have hfound := List.find?_some hd
      rw [Bool.and_eq_true] at hfound
      exact hfound.1
    next => exact List.find?_some h

/-- A class is picked when some class has a task. -/
theorem isSome_pickClass {c : SchedClass} (h : isRunnable c = true) :
    (a.pickClass isRunnable).isSome := by
  unfold pickClass
  split
  · rfl
  · split
    · rfl
    · exact List.find?_isSome.mpr ⟨c, mem_all c, h⟩

/-- As long as some class with a task is below its minimum, such a class is
picked. -/
theorem underMin_of_pickClass {c d : SchedClass} (hd : isRunnable d = true)
    (hmin : (a.budgets d).underMin a.windowUs = true) (h : a.pickClass isRunnable = some c) :
    (a.budgets c).underMin a.windowUs = true := by
  unfold pickClass at h
  split at h
  next e he =>
    obtain rfl := Option.some.inj h
    have hfound := List.find?_some he
    rw [Bool.and_eq_true] at hfound
    exact hfound.2
  next hnone =>
    have := List.find?_eq_none.mp hnone d (mem_all d)
    simp [hd, hmin] at this

/-- The least urgent class has its turn: no class with a task is below its
minimum but this one, or they are all at their maximum. -/
structure IdleTurn (a : Aps) (isRunnable : SchedClass → Bool) : Prop where
  runnable : isRunnable .Idle = true
  served : ∀ c, c ≠ .Idle → isRunnable c = true → (a.budgets c).underMin a.windowUs = false
  due : (a.budgets .Idle).underMin a.windowUs = true ∨
    (∀ c, c ≠ .Idle → isRunnable c = true → (a.budgets c).overQuota a.windowUs = true) ∧
      ((a.budgets .Idle).overQuota a.windowUs = false ∨
        ∀ c, c ≠ .Idle → isRunnable c = false)

/-- The classes before the last one. -/
def urgent : List SchedClass := [.SafetyCritical, .HardRT, .SoftRT, .BestEffort]

theorem mem_urgent {c : SchedClass} (h : c ≠ .Idle) : c ∈ urgent := by
  cases c <;> first | decide | exact absurd rfl h

/-- A search finds the last class when it does not stop at the others. -/
theorem eq_idle_iff_of_find {p : SchedClass → Bool} {c : SchedClass}
    (h : SchedClass.ALL.find? p = some c) : c = .Idle ↔ ∀ d, d ≠ .Idle → p d = false := by
  constructor
  · rintro rfl d hd
    have hsplit : SchedClass.ALL = urgent ++ [.Idle] := rfl
    rw [hsplit, List.find?_append] at h
    cases hfront : urgent.find? p with
    | none =>
      rw [← Bool.not_eq_true]
      exact List.find?_eq_none.mp hfront d (mem_urgent hd)
    | some e =>
      rw [hfront, Option.some_or] at h
      obtain rfl := Option.some.inj h
      exact absurd (List.mem_of_find?_eq_some hfront) (by decide)
  · intro hother
    by_contra hc
    have hfound := List.find?_some h
    rw [hother c hc] at hfound
    exact Bool.false_ne_true hfound

theorem find_eq_idle_iff (p : SchedClass → Bool) :
    SchedClass.ALL.find? p = some .Idle ↔ p .Idle = true ∧ ∀ c, c ≠ .Idle → p c = false := by
  constructor
  · intro h
    exact ⟨List.find?_some h, (eq_idle_iff_of_find h).mp rfl⟩
  · rintro ⟨hidle, hother⟩
    obtain ⟨c, hc⟩ := Option.isSome_iff_exists.mp (List.find?_isSome.mpr ⟨.Idle, mem_all _, hidle⟩)
    rwa [(eq_idle_iff_of_find hc).mpr hother] at hc

theorem pickClass_eq_idle_iff : a.pickClass isRunnable = some .Idle ↔ a.IdleTurn isRunnable := by
  unfold pickClass
  split
  next c hfirst =>
    -- A class below its minimum is found.
    rw [Option.some_inj, eq_idle_iff_of_find hfirst]
    constructor
    · intro hother
      obtain rfl := (eq_idle_iff_of_find hfirst).mpr hother
      have hfound := List.find?_some hfirst
      rw [Bool.and_eq_true] at hfound
      exact ⟨hfound.1, fun d hd hrun => by simpa [hrun] using hother d hd, .inl hfound.2⟩
    · intro hturn d hd
      cases hrun : isRunnable d with
      | false => rfl
      | true => exact hturn.served d hd hrun
  next hfirst =>
    have hserved : ∀ c, isRunnable c = true → (a.budgets c).underMin a.windowUs = false := by
      intro c hrun
      simpa [hrun] using List.find?_eq_none.mp hfirst c (mem_all c)
    split
    next c hsecond =>
      rw [Option.some_inj, eq_idle_iff_of_find hsecond]
      constructor
      · intro hother
        obtain rfl := (eq_idle_iff_of_find hsecond).mpr hother
        have hfound := List.find?_some hsecond
        rw [Bool.and_eq_true, Bool.not_eq_true'] at hfound
        exact ⟨hfound.1, fun d _ => hserved d,
          .inr ⟨fun d hd hrun => by simpa [hrun] using hother d hd, .inl hfound.2⟩⟩
      · intro hturn d hd
        cases hrun : isRunnable d with
        | false => rfl
        | true =>
          rcases hturn.due with hunder | ⟨hover, -⟩
          · rw [hserved .Idle hturn.runnable] at hunder
            exact absurd hunder Bool.false_ne_true
          · simp [hover d hd hrun]
    next hsecond =>
      have hover : ∀ c, isRunnable c = true → (a.budgets c).overQuota a.windowUs = true := by
        intro c hrun
        simpa [hrun] using List.find?_eq_none.mp hsecond c (mem_all c)
      rw [find_eq_idle_iff]
      constructor
      · rintro ⟨hidle, hother⟩
        exact ⟨hidle, fun d _ => hserved d, .inr ⟨fun d _ => hover d, .inr hother⟩⟩
      · intro hturn
        refine ⟨hturn.runnable, ?_⟩
        rcases hturn.due with hunder | ⟨-, hquota | hother⟩
        · rw [hserved .Idle hturn.runnable] at hunder
          exact absurd hunder Bool.false_ne_true
        · rw [hover .Idle hturn.runnable] at hquota
          exact absurd hquota.symm Bool.false_ne_true
        · exact hother

end Aps

end RobotOs.Sched.Policy
