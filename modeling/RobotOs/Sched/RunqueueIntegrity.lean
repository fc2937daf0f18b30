import RobotOs.Lib.Run
import RobotOs.Sched.Policies

/-!
# Integrity of the run queues

The five policies behind `trait Policy`, under any sequence of its calls.

What a policy is for is a `Discipline`: the same calls on a plain list of tasks, which says
what stands where.  `Dense` and `RoundRobin.Holds` relate the arrays to the lists: the tasks
stand in the first `len` places of the array or the ring, in the order of the list, and every
other cell is empty.  A ledger keeps what was accepted and what was removed.  What a policy
owes its callers is a `Contract`, and `Contract.intact` is the induction over the calls.
-/

namespace RobotOs.Sched.Policy

open Lib.Ring Lib.Run

/-- `trait Policy`. -/
structure Ops (Q : Type) where
  new : Q
  enqueue : Q → TaskMeta → Option Q
  dequeue : Q → UInt32 → Option TaskMeta × Q
  pickNext : Q → Option TaskMeta
  tick : Q → UInt32 → Nat → Q

/-- A call of the trait. -/
inductive Call where
  | enqueue (m : TaskMeta)
  | dequeue (tid : UInt32)
  | pickNext (nowUs : Nat)
  | tick (tidRunning : UInt32) (dtUs : Nat)
  deriving DecidableEq, Repr

/-- A queue, the tasks that it accepted and those that it gave back. -/
structure Ledger (Q : Type) where
  queue : Q
  accepted : List TaskMeta
  removed : List TaskMeta

variable {Q A : Type}

def Ledger.start (P : Ops Q) : Ledger Q := ⟨P.new, [], []⟩

/-- A call, with its entry in the ledger. -/
def Ledger.step (P : Ops Q) (s : Ledger Q) : Call → Ledger Q
  | .enqueue m =>
    match P.enqueue s.queue m with
    | none => s
    | some queue => { s with queue := queue, accepted := s.accepted ++ [m] }
  | .dequeue tid =>
    let (removed, queue) := P.dequeue s.queue tid
    { s with queue := queue, removed := s.removed ++ removed.toList }
  | .pickNext _ => s
  | .tick tidRunning dtUs => { s with queue := P.tick s.queue tidRunning dtUs }

/-- The ledger after some calls. -/
def Ops.after (P : Ops Q) (calls : List Call) : Ledger Q := run (Ledger.step P) (.start P) calls

/-- A task without the two fields that a policy rewrites while the task waits. -/
def TaskMeta.identity (m : TaskMeta) : TaskMeta := { m with deadlineUs := none, vruntimeUs := 0 }

variable {l : List TaskMeta} {α : Type} {m : TaskMeta}

/-! ## Disciplines -/

/-- A policy on lists: the tasks that wait, what each call does to them, when a task may run
and which one is the best.  A task leaves its place only when it is removed or by a tick. -/
structure Discipline (A : Type) where
  capacity : Nat
  start : A
  tasks : A → List TaskMeta
  enqueue : A → TaskMeta → A
  dequeue : A → UInt32 → A
  tick : A → UInt32 → Nat → A
  gives : A → Prop
  best : List TaskMeta → TaskMeta → Prop
  tasks_start : tasks start = []
  tasks_enqueue : ∀ a m, ∃ m', m'.identity = m.identity ∧ tasks (enqueue a m) = tasks a ++ [m']
  tasks_dequeue : ∀ a tid, tasks (dequeue a tid) = (tasks a).eraseP fun m => m.tid = tid
  tasks_tick : ∀ a tid dtUs,
    ((tasks (tick a tid dtUs)).map TaskMeta.identity).Perm ((tasks a).map TaskMeta.identity)

/-- A call on the list; a full one takes no more. -/
def Discipline.step (D : Discipline A) (a : A) : Call → A
  | .enqueue m => if (D.tasks a).length < D.capacity then D.enqueue a m else a
  | .dequeue tid => D.dequeue a tid
  | .pickNext _ => a
  | .tick tidRunning dtUs => D.tick a tidRunning dtUs

/-- The list after some calls. -/
def Discipline.after (D : Discipline A) (calls : List Call) : A := run D.step D.start calls

/-- The first of the tasks with the least key. -/
def FirstLeast (key : TaskMeta → Nat) (l : List TaskMeta) (m : TaskMeta) : Prop :=
  ∃ i : Nat, l[i]? = some m ∧ (∀ a ∈ l, key m ≤ key a) ∧ ∀ j < i, ∀ a ∈ l[j]?, key m < key a

theorem firstLeast_of_argmin {key : TaskMeta → Nat} (h : l.argmin key = some m) :
    FirstLeast key l m := by
  have hmem : m ∈ l := List.argmin_mem h
  refine ⟨l.idxOf m, List.getElem?_idxOf hmem, fun a ha => List.le_of_mem_argmin ha h, ?_⟩
  intro j hj a ha
  obtain ⟨hjlt, hja⟩ := List.getElem?_eq_some_iff.mp ha
  by_contra hle
  have hidx := List.index_of_argmin h (List.mem_of_getElem? ha) (Nat.le_of_not_lt hle)
  have hfirst : l.idxOf a ≤ j := by
    by_contra hlt
    have hne := List.not_of_lt_findIdx (Nat.lt_of_not_le hlt)
    simp [hja] at hne
  omega

/-- What a policy owes its callers: its queue stands for the list of the discipline, whatever is
called, and it picks by it. -/
structure Contract (P : Ops Q) (D : Discipline A) (rep : Q → A → Prop) : Prop where
  new : rep P.new D.start
  enqueue : ∀ {q a}, rep q a → ∀ m,
    if (D.tasks a).length < D.capacity then ∃ q', P.enqueue q m = some q' ∧ rep q' (D.enqueue a m)
    else P.enqueue q m = none
  dequeue : ∀ {q a}, rep q a → ∀ tid, rep (P.dequeue q tid).2 (D.dequeue a tid) ∧
    (P.dequeue q tid).1 = (D.tasks a).find? fun m => m.tid = tid
  tick : ∀ {q a}, rep q a → ∀ tid dtUs, rep (P.tick q tid dtUs) (D.tick a tid dtUs)
  pick : ∀ {q a}, rep q a → D.tasks a ≠ [] → D.gives a →
    ∃ m, P.pickNext q = some m ∧ m ∈ D.tasks a ∧ D.best (D.tasks a) m
  pick_none : ∀ {q a}, rep q a → D.tasks a = [] ∨ ¬D.gives a → P.pickNext q = none

/-- The queue stands for the list, and the list has the tasks in it that were accepted and not
removed. -/
structure Balanced (D : Discipline A) (rep : Q → A → Prop) (s : Ledger Q) (a : A) : Prop where
  rep : rep s.queue a
  tasks : ((D.tasks a ++ s.removed).map TaskMeta.identity).Perm (s.accepted.map TaskMeta.identity)

/-- And it picks the best of them. -/
structure Intact (P : Ops Q) (D : Discipline A) (rep : Q → A → Prop) (s : Ledger Q) (a : A) : Prop
    extends Balanced D rep s a where
  pick : D.tasks a ≠ [] → D.gives a →
    ∃ m, P.pickNext s.queue = some m ∧ m ∈ D.tasks a ∧ D.best (D.tasks a) m
  pick_none : D.tasks a = [] ∨ ¬D.gives a → P.pickNext s.queue = none

theorem find?_cons_eraseP (l : List α) (p : α → Bool) :
    ((l.find? p).toList ++ l.eraseP p).Perm l := by
  induction l with
  | nil => rfl
  | cons a l ih =>
    cases hp : p a with
    | true => simp [hp]
    | false =>
      rw [List.find?_cons_of_neg (by simp [hp]), List.eraseP_cons_of_neg (by simp [hp])]
      exact List.perm_middle.trans (ih.cons a)

section Calls

variable {P : Ops Q} {D : Discipline A} {rep : Q → A → Prop}

/-- A call keeps the ledger balanced. -/
theorem Contract.step (h : Contract P D rep) {s : Ledger Q} {a : A} (hs : Balanced D rep s a)
    (call : Call) : Balanced D rep (s.step P call) (D.step a call) := by
  cases call with
  | enqueue m =>
    have hcall := h.enqueue hs.rep m
    simp only [Ledger.step, Discipline.step]
    split_ifs at hcall ⊢ with hroom
    · obtain ⟨queue, hqueue, hrep⟩ := hcall
      rw [hqueue]
      refine ⟨hrep, ?_⟩
      obtain ⟨m', hsame, htasks⟩ := D.tasks_enqueue a m
      have hlater := hs.tasks.append_right [m.identity]
      simp only [htasks, List.map_append, List.map_cons, List.map_nil, hsame,
        List.append_assoc] at hlater ⊢
      exact (List.perm_append_comm.append_left _).trans hlater
    · rwa [hcall]
  | dequeue tid =>
    obtain ⟨hrest, hgiven⟩ := h.dequeue hs.rep tid
    refine ⟨hrest, List.Perm.trans (List.Perm.map _ ?_) hs.tasks⟩
    show (D.tasks (D.dequeue a tid) ++ (s.removed ++ (P.dequeue s.queue tid).1.toList)).Perm
      (D.tasks a ++ s.removed)
    rw [D.tasks_dequeue, hgiven, ← List.append_assoc]
    refine List.perm_append_comm.trans ?_
    rw [← List.append_assoc]
    exact (find?_cons_eraseP _ _).append_right _
  | pickNext nowUs => exact hs
  | tick tidRunning dtUs =>
    refine ⟨h.tick hs.rep tidRunning dtUs, ?_⟩
    have htasks := hs.tasks
    rw [List.map_append] at htasks ⊢
    exact ((D.tasks_tick a tidRunning dtUs).append_right _).trans htasks

/-- After any calls the queue stands for the list after the same calls. -/
theorem Contract.intact (h : Contract P D rep) (calls : List Call) :
    Intact P D rep (P.after calls) (D.after calls) := by
  have hbalanced : Balanced D rep (P.after calls) (D.after calls) := by
    induction calls using List.reverseRecOn with
    | nil =>
      refine ⟨h.new, .of_eq ?_⟩
      show (D.tasks D.start ++ []).map _ = _
      rw [D.tasks_start]
      rfl
    | append_singleton calls call ih =>
      rw [Ops.after, Discipline.after, run_concat, run_concat]
      exact h.step ih call
  exact ⟨hbalanced, h.pick hbalanced.rep, h.pick_none hbalanced.rep⟩

end Calls

/-! ## Arrays -/

/-- The list stands in the first `len` cells, and the other cells are empty. -/
structure Runqueue.Dense {α : Type} (capacity : Nat) (q : Runqueue α) (l : List α) : Prop
    extends q.Holds l where
  room : l.length ≤ capacity
  vacant : Vacant none q.slots id l.length

namespace Runqueue

variable {α : Type} {capacity : Nat} {q : Runqueue α} {l : List α}

theorem dense_new : Dense capacity (new : Runqueue α) [] :=
  ⟨holds_new, Nat.zero_le _, fun _ _ => rfl⟩

theorem Dense.enqueue (h : Dense capacity q l) (a : α) :
    if l.length < capacity then ∃ q', q.enqueue capacity a = some q' ∧ Dense capacity q' (l ++ [a])
    else q.enqueue capacity a = none := by
  have hq : q.enqueue capacity a = if q.len ≥ capacity then none
      else some ⟨Function.update q.slots q.len (some a), q.len + 1⟩ := rfl
  rw [h.len] at hq
  split_ifs with hroom
  · rw [if_neg (Nat.not_le_of_lt hroom)] at hq
    refine ⟨_, hq, h.toHolds.enqueue hq, ?_, ?_⟩
    · rwa [List.length_append, List.length_singleton]
    · rw [List.length_append, List.length_singleton]
      exact h.vacant.push none (some a)
  · rw [hq, if_pos (Nat.le_of_not_lt hroom)]

theorem Dense.dequeue (h : Dense capacity q l) (p : α → Bool) :
    (q.dequeue p).1 = l.find? p ∧ Dense capacity (q.dequeue p).2 (l.eraseP p) := by
  obtain ⟨hgiven, hrest⟩ := h.toHolds.dequeue p
  refine ⟨hgiven, hrest, (List.eraseP_sublist.length_le).trans h.room, ?_⟩
  rw [← hrest.len]
  unfold Runqueue.dequeue
  rw [h.find]
  cases hfind : l.findIdx? p with
  | none =>
    show Vacant none q.slots id q.len
    rw [h.len]
    exact h.vacant
  | some idx =>
    have hidx : idx < l.length := (List.findIdx?_eq_some_iff_getElem.mp hfind).1
    rw [← h.len] at hidx
    have hvacant := h.vacant
    rw [← h.len] at hvacant
    exact hvacant.erase none hidx

theorem Dense.updateFirst (h : Dense capacity q l) (p : α → Bool) (f : α → α) :
    Dense capacity (q.updateFirst p f) (l.modify (l.findIdx p) f) := by
  refine ⟨h.toHolds.updateFirst p f, by simpa using h.room, ?_⟩
  intro c hc
  rw [List.length_modify] at hc
  unfold Runqueue.updateFirst
  rw [h.find]
  cases hfind : l.findIdx? p with
  | none => exact h.vacant c hc
  | some idx =>
    have hidx : idx < l.length := (List.findIdx?_eq_some_iff_getElem.mp hfind).1
    have hne : c ≠ idx := (hc idx hidx).symm
    show Function.update q.slots idx _ c = none
    rw [Function.update_of_ne hne]
    exact h.vacant c hc

end Runqueue

/-- A change that keeps who a task is. -/
theorem map_modify_of_eq {β : Type} {g : α → β} {f : α → α} (h : ∀ a, g (f a) = g a) (l : List α)
    (i : Nat) : (l.modify i f).map g = l.map g := by
  apply List.ext_getElem?
  intro k
  simp only [List.getElem?_map, List.getElem?_modify]
  by_cases hk : i = k <;> cases l[k]? <;> simp [hk, h]

theorem mem_modify {f : α → α} {l : List α} {i : Nat} {b : α} (h : b ∈ l.modify i f) :
    ∃ a ∈ l, b = a ∨ b = f a := by
  obtain ⟨k, hk⟩ := List.mem_iff_getElem?.mp h
  rw [List.getElem?_modify] at hk
  obtain ⟨a, ha, hab⟩ := Option.map_eq_some_iff.mp hk
  refine ⟨a, List.mem_of_getElem? ha, ?_⟩
  split_ifs at hab
  · exact .inr hab.symm
  · exact .inl hab.symm

/-! ## Fixed-priority FIFO -/

theorem argmin_map {β : Type} (g : α → β) (f : β → Nat) (l : List α) :
    (l.map g).argmin f = (l.argmin fun a => f (g a)).map g := by
  induction l using List.reverseRecOn with
  | nil => rfl
  | append_singleton l a ih =>
    rw [List.map_append, List.map_singleton, List.argmin_concat, List.argmin_concat, ih]
    cases l.argmin fun a => f (g a) with
    | none => rfl
    | some c =>
      simp only [Option.map_some]
      split_ifs <;> rfl

theorem filterMap_range_eq {β : Type} {slots : Nat → Option α} {l : List α}
    (h : ∀ i (hi : i < l.length), slots i = some l[i]) (g : Nat → α → β) :
    ((List.range l.length).filterMap fun i => (slots i).map (g i)) =
      l.zipIdx.map fun x => g x.2 x.1 := by
  induction l using List.reverseRecOn with
  | nil => rfl
  | append_singleton l a ih =>
    have hlast := h l.length (by simp)
    have hinit : ∀ i (hi : i < l.length), slots i = some l[i] := by
      intro i hi
      rw [h i (by simp; omega), List.getElem_append_left hi]
    rw [List.length_append, List.length_singleton, List.range_succ, List.filterMap_append,
      ih hinit, List.zipIdx_append]
    simp [hlast]

/-- The scan of the whole array meets the tasks in their order. -/
theorem Fifo.pickNext_eq {q : Fifo} (h : Runqueue.Dense FIFO_CAPACITY q l) :
    Fifo.pickNext q = l.argmin fun m => m.priority.toNat := by
  have hfound : ((List.range FIFO_CAPACITY).filterMap fun i =>
      (q.slots i).map fun m => (i, m.priority.toNat)) =
        l.zipIdx.map fun x => (x.2, x.1.priority.toNat) := by
    have hrest : ((List.range (FIFO_CAPACITY - l.length)).map (l.length + ·)).filterMap
        (fun i => (q.slots i).map fun m => (i, m.priority.toNat)) = [] := by
      simp only [List.filterMap_eq_nil_iff, List.mem_map, Option.map_eq_none_iff]
      intro i hi
      obtain ⟨k, -, rfl⟩ := hi
      apply h.vacant
      intro j hj
      show j ≠ _
      omega
    rw [← Nat.add_sub_of_le h.room, List.range_add, List.filterMap_append, hrest, List.append_nil]
    exact filterMap_range_eq (fun i hi => h.slot hi) fun i m => (i, m.priority.toNat)
  have hlist : l.argmin (fun m => m.priority.toNat) =
      (l.zipIdx.argmin fun x => x.1.priority.toNat).map Prod.fst := by
    rw [← argmin_map Prod.fst (fun m : TaskMeta => m.priority.toNat), List.zipIdx_map_fst]
  unfold Fifo.pickNext
  dsimp only
  rw [hfound, argmin_map, hlist]
  cases hmin : l.zipIdx.argmin fun x => x.1.priority.toNat with
  | none => simp
  | some x =>
    obtain ⟨-, hlt, hx⟩ := List.mem_zipIdx (List.argmin_mem hmin)
    have hne : q.len ≠ 0 := by
      rw [h.len]
      omega
    have hslot := h.slot (i := x.2) (by omega)
    simp only [hne, if_false, Option.map_some, hslot, hx]
    simp

def Fifo.ops : Ops Fifo := ⟨.new, enqueue, dequeue, pickNext, fun q _ _ => q⟩

/-- The tasks stand in the order in which they came, and the first of the most urgent ones runs. -/
def Fifo.line : Discipline (List TaskMeta) where
  capacity := FIFO_CAPACITY
  start := []
  tasks := id
  enqueue l m := l ++ [m]
  dequeue l tid := l.eraseP fun m => m.tid = tid
  tick l _ _ := l
  gives _ := True
  best := FirstLeast fun m => m.priority.toNat
  tasks_start := rfl
  tasks_enqueue _ m := ⟨m, rfl, rfl⟩
  tasks_dequeue _ _ := rfl
  tasks_tick _ _ _ := .refl _

theorem firstLeast_mem {key : TaskMeta → Nat} (h : FirstLeast key l m) : m ∈ l := by
  obtain ⟨i, hi, -⟩ := h
  exact List.mem_of_getElem? hi

theorem exists_firstLeast (hne : l ≠ []) (key : TaskMeta → Nat) :
    ∃ m, l.argmin key = some m ∧ m ∈ l ∧ FirstLeast key l m := by
  obtain ⟨m, hm⟩ := Option.isSome_iff_exists.mp (isSome_argmin hne key)
  have hfirst := firstLeast_of_argmin hm
  exact ⟨m, hm, firstLeast_mem hfirst, hfirst⟩

theorem Fifo.contract : Contract ops line (Runqueue.Dense FIFO_CAPACITY) where
  new := Runqueue.dense_new
  enqueue h m := h.enqueue m
  dequeue h tid := (h.dequeue _).symm
  tick h _ _ := h
  pick h hne _ := by
    show ∃ m, pickNext _ = some m ∧ _
    rw [pickNext_eq h]
    exact exists_firstLeast hne _
  pick_none {_ l} h hnone := by
    obtain rfl : l = [] := hnone.resolve_right fun hnot => hnot trivial
    exact pickNext_eq h

/-! ## Fair share -/

def Cfs.ops : Ops Cfs := ⟨.new, enqueue, dequeue, pickNext, tick⟩

/-- A task that comes is not behind all the others. -/
def Cfs.joining (l : List TaskMeta) (m : TaskMeta) : TaskMeta :=
  { m with vruntimeUs := max m.vruntimeUs ((l.map TaskMeta.vruntimeUs).min?.getD 0) }

/-- The tasks keep their places; the time of the running one is charged by its weight. -/
def Cfs.line : Discipline (List TaskMeta) where
  capacity := CFS_CAPACITY
  start := []
  tasks := id
  enqueue l m := l ++ [joining l m]
  dequeue l tid := l.eraseP fun m => m.tid = tid
  tick l tid dtUs := l.modify (l.findIdx fun m => m.tid = tid) fun m =>
    { m with vruntimeUs := min U64_MAX (m.vruntimeUs + min U64_MAX (dtUs * weight m.priority)) }
  gives _ := True
  best := FirstLeast TaskMeta.vruntimeUs
  tasks_start := rfl
  tasks_enqueue l m := ⟨joining l m, rfl, rfl⟩
  tasks_dequeue _ _ := rfl
  tasks_tick l _ _ := by
    refine .of_eq (map_modify_of_eq ?_ l _)
    intro m
    rfl

theorem Cfs.enqueue_eq {q : Cfs} (h : Runqueue.Holds q l) (m : TaskMeta) :
    q.enqueue m = Runqueue.enqueue CFS_CAPACITY q (joining l m) := by
  rw [Cfs.enqueue, h.iter, joining]
  split_ifs with hlate
  · rw [max_eq_right hlate.le]
  · rw [max_eq_left (Nat.le_of_not_lt hlate)]

theorem Cfs.contract : Contract ops line (Runqueue.Dense CFS_CAPACITY) where
  new := Runqueue.dense_new
  enqueue {q l} h m := by
    have hjoin := h.enqueue (joining l m)
    rwa [← enqueue_eq h.toHolds] at hjoin
  dequeue h tid := (h.dequeue _).symm
  tick h tid dtUs := h.updateFirst _ _
  pick h hne _ := by
    show ∃ m, pickNext _ = some m ∧ _
    rw [pickNext_eq h.toHolds]
    exact exists_firstLeast hne _
  pick_none {_ l} h hnone := by
    obtain rfl : l = [] := hnone.resolve_right fun hnot => hnot trivial
    exact pickNext_eq h.toHolds

/-! ## The sporadic server -/

def Sporadic.ops : Ops Sporadic := ⟨.new, enqueue, dequeue, pickNext, fun q _ dtUs => q.tick dtUs⟩

/-- The tasks in the order in which they came, with the time of all ticks so far: no task runs
once it has reached the capacity. -/
def Sporadic.line : Discipline (List TaskMeta × Nat) where
  capacity := SPORADIC_CAPACITY
  start := ([], 0)
  tasks a := a.1
  enqueue a m := (a.1 ++ [m], a.2)
  dequeue a tid := (a.1.eraseP fun m => m.tid = tid, a.2)
  tick a _ dtUs := (a.1, a.2 + dtUs)
  gives a := a.2 < DEFAULT_CAPACITY_US
  best := FirstLeast fun m => m.priority.toNat
  tasks_start := rfl
  tasks_enqueue _ m := ⟨m, rfl, rfl⟩
  tasks_dequeue _ _ := rfl
  tasks_tick _ _ _ := .refl _

/-- What is left of the capacity is what was not used. -/
def Sporadic.Rep (q : Sporadic) (a : List TaskMeta × Nat) : Prop :=
  Runqueue.Dense SPORADIC_CAPACITY q.queue a.1 ∧ q.remainingUs = DEFAULT_CAPACITY_US - a.2

theorem Sporadic.contract : Contract ops line Rep where
  new := ⟨Runqueue.dense_new, rfl⟩
  enqueue {q a} h m := by
    have hqueue := h.1.enqueue m
    show if a.1.length < SPORADIC_CAPACITY then ∃ q', q.enqueue m = some q' ∧ _
      else q.enqueue m = none
    rw [Sporadic.enqueue]
    split_ifs at hqueue ⊢
    · obtain ⟨queue, hsome, hdense⟩ := hqueue
      rw [hsome]
      exact ⟨_, rfl, hdense, h.2⟩
    · rw [hqueue]
      rfl
  dequeue h tid := ⟨⟨(h.1.dequeue _).2, h.2⟩, (h.1.dequeue _).1⟩
  tick {q a} h _ dtUs := by
    refine ⟨h.1, ?_⟩
    show q.remainingUs - dtUs = DEFAULT_CAPACITY_US - (a.2 + dtUs)
    rw [h.2, Nat.sub_sub]
  pick {q a} h hne hgives := by
    have hlen : q.queue.len ≠ 0 := h.1.len ▸ mt List.length_eq_zero_iff.mp hne
    have hleft : q.remainingUs ≠ 0 := h.2 ▸ Nat.sub_ne_zero_of_lt hgives
    show ∃ m, pickNext q = some m ∧ _
    rw [pickNext, if_neg (by simp [hlen, exhausted, hleft]), h.1.iter]
    exact exists_firstLeast hne _
  pick_none {q a} h hnone := by
    refine if_pos ?_
    obtain hnil | hdrained := hnone
    · exact .inl (h.1.len.trans (congrArg List.length hnil))
    · refine .inr (decide_eq_true ?_)
      rw [h.2]
      exact Nat.sub_eq_zero_of_le (Nat.le_of_not_lt hdrained)

/-! ## Earliest deadline first -/

def EdfCbs.ops : Ops EdfCbs := ⟨.new, enqueue, dequeue, pickNext, tick⟩

theorem EdfCbs.charge_pos {e : EdfEntry} (h : 0 < e.cbs.remainingUs ∧ 0 < e.cbs.budgetUs)
    (dtUs : Nat) : 0 < (charge dtUs e).cbs.remainingUs ∧ 0 < (charge dtUs e).cbs.budgetUs := by
  unfold charge
  split_ifs with hused
  · exact ⟨h.2, h.2⟩
  · exact ⟨Nat.sub_pos_of_lt (Nat.lt_of_not_le hused), h.2⟩

theorem EdfCbs.identity_charge (dtUs : Nat) (e : EdfEntry) :
    (charge dtUs e).taskMeta.identity = e.taskMeta.identity := by
  unfold charge
  split_ifs <;> rfl

/-- The tasks with their servers keep their places; the server of the running one is charged. -/
def EdfCbs.line : Discipline (List EdfEntry) where
  capacity := EDF_CAPACITY
  start := []
  tasks l := l.map EdfEntry.taskMeta
  enqueue l m := l ++ [⟨m, .new DEFAULT_BUDGET_US DEFAULT_PERIOD_US⟩]
  dequeue l tid := l.eraseP fun e => e.taskMeta.tid = tid
  tick l tid dtUs := l.modify (l.findIdx fun e => e.taskMeta.tid = tid) (charge dtUs)
  gives _ := True
  best := FirstLeast fun m => m.deadlineUs.getD U64_MAX
  tasks_start := rfl
  tasks_enqueue _ m := ⟨m, rfl, List.map_append⟩
  tasks_dequeue l tid := by
    rw [List.eraseP_map]
    rfl
  tasks_tick l tid dtUs := by
    rw [List.map_map, List.map_map]
    exact .of_eq (map_modify_of_eq (identity_charge dtUs) l _)

/-- All servers have a budget, and some of it left. -/
def EdfCbs.Rep (q : EdfCbs) (l : List EdfEntry) : Prop :=
  Runqueue.Dense EDF_CAPACITY q l ∧ ∀ e ∈ l, 0 < e.cbs.remainingUs ∧ 0 < e.cbs.budgetUs

theorem EdfCbs.contract : Contract ops line Rep where
  new := ⟨Runqueue.dense_new, fun _ he => absurd he List.not_mem_nil⟩
  enqueue {q l} h m := by
    have hqueue := h.1.enqueue ⟨m, .new DEFAULT_BUDGET_US DEFAULT_PERIOD_US⟩
    show if (l.map EdfEntry.taskMeta).length < EDF_CAPACITY then
      ∃ q', q.enqueue m = some q' ∧ Rep q' (l ++ [_]) else q.enqueue m = none
    rw [List.length_map]
    split_ifs at hqueue ⊢
    · obtain ⟨q', hsome, hdense⟩ := hqueue
      refine ⟨q', hsome, hdense, List.forall_mem_append.mpr ⟨h.2, ?_⟩⟩
      simp [CbsState.new, DEFAULT_BUDGET_US]
    · exact hqueue
  dequeue {q l} h tid := by
    obtain ⟨hgiven, hrest⟩ := h.1.dequeue fun e => e.taskMeta.tid = tid
    refine ⟨⟨hrest, fun e he => h.2 e (List.mem_of_mem_eraseP he)⟩, ?_⟩
    show Option.map EdfEntry.taskMeta (Runqueue.dequeue q fun e => e.taskMeta.tid = tid).1 =
      (l.map EdfEntry.taskMeta).find? _
    rw [hgiven, List.find?_map]
    rfl
  tick h tid dtUs := by
    refine ⟨h.1.updateFirst _ _, ?_⟩
    intro e he
    obtain ⟨a, ha, rfl | rfl⟩ := mem_modify he
    · exact h.2 _ ha
    · exact charge_pos (h.2 a ha) dtUs
  pick {q l} h hne _ := by
    have hlen : q.len ≠ 0 := by
      rw [h.1.len]
      exact mt List.length_eq_zero_iff.mp (mt List.map_eq_nil_iff.mpr hne)
    have hfilter : (l.filter fun e => !e.cbs.exhausted) = l := by
      apply List.filter_eq_self.mpr
      intro e he
      simp [CbsState.exhausted, (h.2 e he).1.ne']
    obtain ⟨m, hm, hbest⟩ := exists_firstLeast hne fun m => m.deadlineUs.getD U64_MAX
    obtain ⟨e, he, rfl⟩ := Option.map_eq_some_iff.mp ((argmin_map _ _ l).symm.trans hm)
    have he : l.argmin deadline = some e := he
    refine ⟨_, ?_, hbest⟩
    show pickNext q = _
    rw [pickNext, if_neg hlen, h.1.iter, hfilter, he]
  pick_none {q l} h hnone := by
    have hnil := List.map_eq_nil_iff.mp (hnone.resolve_right fun hnot => hnot trivial)
    exact if_pos (h.1.len.trans (congrArg List.length hnil))

/-! ## Round robin -/

namespace RoundRobin

def ops : Ops RoundRobin := ⟨new, enqueue, dequeue, pickNext, tick⟩

/-- The tasks in the order of their turns, and the time that the first one has had of its. -/
structure Turns where
  tasks : List TaskMeta
  usedUs : Nat

/-- The running task goes behind all others when it has had its quantum. -/
def Turns.tick (a : Turns) (tid : UInt32) (dtUs : Nat) : Turns :=
  match a.tasks with
  | [] => a
  | m :: rest =>
    if m.tid ≠ tid then a
    else if quantum m ≤ a.usedUs + dtUs then ⟨rest ++ [m], 0⟩
    else { a with usedUs := a.usedUs + dtUs }

/-- When the first task leaves, the turn of the next one starts. -/
def Turns.dequeue (a : Turns) (tid : UInt32) : Turns :=
  ⟨a.tasks.eraseP fun m => m.tid = tid,
    if a.tasks.head?.any fun m => m.tid = tid then 0 else a.usedUs⟩

theorem Turns.tasks_tick (a : Turns) (tid : UInt32) (dtUs : Nat) :
    (a.tick tid dtUs).tasks.Perm a.tasks := by
  obtain ⟨tasks, usedUs⟩ := a
  cases tasks with
  | nil => rfl
  | cons m rest =>
    simp only [tick]
    split_ifs
    · rfl
    · exact List.perm_append_singleton m rest
    · rfl

def line : Discipline Turns where
  capacity := RR_CAPACITY
  start := ⟨[], 0⟩
  tasks := Turns.tasks
  enqueue a m := { a with tasks := a.tasks ++ [m] }
  dequeue := Turns.dequeue
  tick := Turns.tick
  gives _ := True
  best l m := l.head? = some m
  tasks_start := rfl
  tasks_enqueue _ m := ⟨m, rfl, rfl⟩
  tasks_dequeue _ _ := rfl
  tasks_tick a tid dtUs := (a.tasks_tick tid dtUs).map _

/-- The ring has the tasks in it, and the first one has what is left of its quantum. -/
structure Rep (q : RoundRobin) (a : Turns) : Prop where
  holds : q.Holds a.tasks
  left : ∀ m ∈ a.tasks.head?, q.remainingUs + a.usedUs = quantum m
  idle : a.tasks = [] → a.usedUs = 0

variable {q : RoundRobin} {a : Turns}

/-- A rotation starts the quantum of the new head. -/
theorem remainingUs_rotate {first : TaskMeta} {rest : List TaskMeta} (h : q.Holds (m :: l))
    (hfirst : l ++ [m] = first :: rest) : q.rotate.remainingUs = quantum first := by
  obtain ⟨turned, hturned⟩ : ∃ turned : RoundRobin, q.rotate = turned.startQuantum := by
    unfold rotate
    split_ifs
    all_goals exact ⟨_, rfl⟩
  have hrotate := h.rotate
  rw [hturned, hfirst] at hrotate
  have hslot : turned.slots turned.head = some first := hrotate.slot_head
  rw [hturned, startQuantum, hslot]
  rfl

/-- So does the removal of the head; other removals leave the quantum alone. -/
theorem remainingUs_dequeue {first : TaskMeta} {rest : List TaskMeta} (h : q.Holds (m :: l))
    {tid : UInt32} (hfirst : ((m :: l).eraseP fun m => m.tid = tid) = first :: rest) :
    (q.dequeue tid).2.remainingUs = if m.tid = tid then quantum first else q.remainingUs := by
  have hholds := (h.dequeue tid).2
  rw [hfirst] at hholds
  have hslot := hholds.slot_head
  have hrest := hholds.len
  unfold RoundRobin.dequeue at hslot hrest ⊢
  dsimp only at hslot hrest ⊢
  rw [h.len, h.stores.find_range, List.findIdx?_cons] at hslot hrest ⊢
  by_cases htid : m.tid = tid
  · simp only [htid, decide_true, if_true] at hslot hrest ⊢
    -- A first task is left, so the queue is not empty.
    split_ifs at hslot hrest ⊢ with hempty
    dsimp only at hslot ⊢
    rw [hslot]
    rfl
  · simp only [htid, decide_false, Bool.false_eq_true, if_false] at hslot hrest ⊢
    cases hfind : l.findIdx? fun m => decide (m.tid = tid) with
    | none => rfl
    | some off =>
      simp only [hfind, Option.map_some, Nat.succ_ne_zero, if_false] at hslot hrest ⊢
      split_ifs at hrest ⊢ with hempty
      rfl

theorem Rep.enqueue (h : q.Rep a) (m : TaskMeta) :
    if a.tasks.length < RR_CAPACITY then
      ∃ q', q.enqueue m = some q' ∧ q'.Rep { a with tasks := a.tasks ++ [m] }
    else q.enqueue m = none := by
  obtain ⟨tasks, usedUs⟩ := a
  have hlen : q.len = tasks.length := h.holds.len
  split_ifs with hroom
  · refine ⟨_, if_neg (by rw [hlen]; exact Nat.not_le_of_lt hroom), ?_, ?_, by simp⟩
    · exact h.holds.enqueue (if_neg (by rw [hlen]; exact Nat.not_le_of_lt hroom))
    · intro first hfirst
      cases tasks with
      | nil =>
        obtain rfl : m = first := Option.some.inj hfirst
        obtain rfl : usedUs = 0 := h.idle rfl
        exact if_pos hlen
      | cons head rest =>
        have hne : q.len ≠ 0 := by simp [hlen]
        dsimp only
        rw [if_neg hne]
        exact h.left first hfirst
  · exact if_pos (by rw [hlen]; exact Nat.le_of_not_lt hroom)

theorem Rep.dequeue (h : q.Rep a) (tid : UInt32) : (q.dequeue tid).2.Rep (a.dequeue tid) := by
  obtain ⟨tasks, usedUs⟩ := a
  have hholds := (h.holds.dequeue tid).2
  cases tasks with
  | nil => exact ⟨hholds, by simp [Turns.dequeue], fun _ => h.idle rfl⟩
  | cons m rest =>
    have hused : (Turns.dequeue ⟨m :: rest, usedUs⟩ tid).usedUs =
        if m.tid = tid then 0 else usedUs := by
      simp [Turns.dequeue]
    refine ⟨hholds, ?_, ?_⟩
    · intro first hfirst
      obtain ⟨rest', hrest'⟩ := List.head?_eq_some_iff.mp hfirst
      rw [remainingUs_dequeue h.holds hrest', hused]
      split_ifs with htid
      · rfl
      · -- Another task than the head is removed.
        have hhead := hrest'
        rw [Turns.dequeue, List.eraseP_cons_of_neg (by simpa using htid)] at hhead
        obtain rfl := (List.cons.inj hhead).1
        exact h.left m rfl
    · intro hnil
      rw [hused]
      split_ifs with htid
      · rfl
      · rw [Turns.dequeue, List.eraseP_cons_of_neg (by simpa using htid)] at hnil
        nomatch hnil

theorem Rep.tick (h : q.Rep a) (tid : UInt32) (dtUs : Nat) :
    (q.tick tid dtUs).Rep (a.tick tid dtUs) := by
  obtain ⟨tasks, usedUs⟩ := a
  cases tasks with
  | nil =>
    have hlen : q.len = 0 := h.holds.len
    rwa [RoundRobin.tick, if_pos hlen]
  | cons m rest =>
    have hleft : q.remainingUs + usedUs = quantum m := h.left m rfl
    have hused : dtUs ≥ q.remainingUs ↔ quantum m ≤ usedUs + dtUs := by omega
    rw [h.holds.tick_eq, Turns.tick]
    dsimp only
    simp only [hused]
    split_ifs with hother hfull
    · exact h
    · refine ⟨h.holds.rotate, ?_, by simp⟩
      intro first hfirst
      obtain ⟨rest', hrest'⟩ := List.head?_eq_some_iff.mp hfirst
      exact remainingUs_rotate h.holds hrest'
    · refine ⟨⟨h.holds.head, h.holds.len, h.holds.room, h.holds.stores, h.holds.vacant⟩, ?_,
        by simp⟩
      intro first hfirst
      obtain rfl : m = first := Option.some.inj hfirst
      show q.remainingUs - dtUs + (usedUs + dtUs) = quantum m
      omega

theorem contract : Contract ops line Rep where
  new := ⟨holds_new, by simp [line], fun _ => rfl⟩
  enqueue h m := h.enqueue m
  dequeue h tid := ⟨h.dequeue tid, (h.holds.dequeue tid).1⟩
  tick h tid dtUs := h.tick tid dtUs
  pick {q a} h hne _ := by
    obtain ⟨m, rest, hcons⟩ := List.exists_cons_of_ne_nil hne
    have hholds : q.Holds (m :: rest) := hcons ▸ h.holds
    rw [hcons]
    refine ⟨m, ?_, List.mem_cons_self, rfl⟩
    show pickNext q = some m
    rw [pickNext, if_neg (by simp [hholds.len]), hholds.slot_head]
  pick_none {q a} h hnone := by
    have hnil := hnone.resolve_right fun hnot => hnot trivial
    exact if_pos (h.holds.len.trans (congrArg List.length hnil))

end RoundRobin

/-! ## All five -/

/-- Whatever is called, the queue of each policy is dense and has the tasks in it in the order of
the policy, they are the ones that were accepted and not removed, and it picks the best of them.
Only the sporadic server may refuse to pick, when its capacity is used up. -/
theorem runqueues_intact (calls : List Call) :
    Intact Fifo.ops Fifo.line (Runqueue.Dense FIFO_CAPACITY) (Fifo.ops.after calls)
      (Fifo.line.after calls) ∧
    Intact RoundRobin.ops RoundRobin.line RoundRobin.Rep (RoundRobin.ops.after calls)
      (RoundRobin.line.after calls) ∧
    Intact Cfs.ops Cfs.line (Runqueue.Dense CFS_CAPACITY) (Cfs.ops.after calls)
      (Cfs.line.after calls) ∧
    Intact EdfCbs.ops EdfCbs.line EdfCbs.Rep (EdfCbs.ops.after calls) (EdfCbs.line.after calls) ∧
    Intact Sporadic.ops Sporadic.line Sporadic.Rep (Sporadic.ops.after calls)
      (Sporadic.line.after calls) :=
  ⟨Fifo.contract.intact calls, RoundRobin.contract.intact calls, Cfs.contract.intact calls,
    EdfCbs.contract.intact calls, Sporadic.contract.intact calls⟩

/-- A sporadic queue with a task in it picks nothing after a tick of its whole capacity. -/
theorem drained_sporadic_picks_nothing :
    let s := Sporadic.ops.after [.enqueue ⟨1, .Idle, 0, none, 0, 0⟩, .tick 1 1000]
    s.queue.queue.iter = [⟨1, .Idle, 0, none, 0, 0⟩] ∧ Sporadic.pickNext s.queue = none := by
  decide

end RobotOs.Sched.Policy
