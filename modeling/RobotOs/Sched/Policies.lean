import RobotOs.Lib.Ring

/-!
# The policies of the scheduling classes

`class.rs` and `policies/` of the sched crate.  Each of the five classes has a
run queue of its own: fixed-priority FIFO, earliest deadline first with a
bandwidth server, round robin, fair share, and a sporadic server.

Four of the queues are arrays that are filled from the front, so one definition
serves them; the round robin queue is a ring.  `Holds` says which list of tasks a
queue has in it.  Every operation is an operation on that list, so a pick of a
queue that is not empty finds a task.  The one exception is the sporadic server,
which gives nothing once its capacity is used up.
-/

namespace RobotOs.Sched.Policy

open Lib.Ring

/-- `SchedClass`, the most urgent one first. -/
inductive SchedClass where
  | SafetyCritical
  | HardRT
  | SoftRT
  | BestEffort
  | Idle
  deriving DecidableEq, Repr

namespace SchedClass

/-- `SchedClass::ALL`. -/
def ALL : List SchedClass := [.SafetyCritical, .HardRT, .SoftRT, .BestEffort, .Idle]

/-- `SchedClass::from_raw`. -/
def fromRaw (raw : UInt8) : Option SchedClass :=
  match raw.toNat with
  | 0 => some .SafetyCritical
  | 1 => some .HardRT
  | 2 => some .SoftRT
  | 3 => some .BestEffort
  | 4 => some .Idle
  | _ => none

end SchedClass

def U64_MAX : Nat := 2 ^ 64 - 1

/-- `TaskMeta`. -/
structure TaskMeta where
  tid : UInt32
  schedClass : SchedClass
  priority : UInt8
  deadlineUs : Option Nat
  timeSliceUs : Nat
  vruntimeUs : Nat
  deriving DecidableEq, Repr

/-! ## Queues that are filled from the front -/

/-- An array and the number of its valid entries. -/
structure Runqueue (α : Type) where
  slots : Nat → Option α
  len : Nat

namespace Runqueue

variable {α : Type}

def new : Runqueue α := ⟨fun _ => none, 0⟩

/-- Append to the tail, when there is room. -/
def enqueue (capacity : Nat) (q : Runqueue α) (a : α) : Option (Runqueue α) :=
  if q.len ≥ capacity then none
  else some ⟨Function.update q.slots q.len (some a), q.len + 1⟩

/-- The first entry with a property, and the queue without it. -/
def dequeue (q : Runqueue α) (p : α → Bool) : Option α × Runqueue α :=
  match (List.range q.len).find? fun i => (q.slots i).any p with
  | none => (none, q)
  | some idx =>
    (q.slots idx, ⟨shiftDown none id (q.len - 1 - idx) idx (Function.update q.slots idx none),
      q.len - 1⟩)

/-- The entries in their order. -/
def iter (q : Runqueue α) : List α := (List.range q.len).filterMap q.slots

/-- Rewrites the first entry with a property. -/
def updateFirst (q : Runqueue α) (p : α → Bool) (f : α → α) : Runqueue α :=
  match (List.range q.len).find? fun i => (q.slots i).any p with
  | none => q
  | some idx => { q with slots := Function.update q.slots idx ((q.slots idx).map f) }

/-- The tasks in the queue. -/
structure Holds (q : Runqueue α) (l : List α) : Prop where
  len : q.len = l.length
  stores : Stores q.slots id (l.map some)

variable {q : Runqueue α} {l : List α}

theorem holds_new : (new : Runqueue α).Holds [] := ⟨rfl, .nil⟩

theorem Holds.slot (h : q.Holds l) {i : Nat} (hi : i < l.length) : q.slots i = some l[i] := by
  have hstored := h.stores i (by rwa [List.length_map])
  rwa [List.getElem_map] at hstored

theorem Holds.iter (h : q.Holds l) : q.iter = l := by
  have hslots : ∀ i ∈ List.range l.length, q.slots i = l[i]? := by
    intro i hi
    rw [h.slot (List.mem_range.mp hi), List.getElem?_eq_getElem]
  rw [Runqueue.iter, h.len, List.filterMap_congr hslots]
  clear h hslots
  induction l with
  | nil => rfl
  | cons a l ih =>
    rw [List.length_cons, List.range_succ_eq_map, List.filterMap_cons, List.filterMap_map]
    simpa using ih

theorem Holds.enqueue (h : q.Holds l) {capacity : Nat} {a : α} {q' : Runqueue α}
    (hq : q.enqueue capacity a = some q') : q'.Holds (l ++ [a]) := by
  unfold Runqueue.enqueue at hq
  split_ifs at hq
  obtain rfl := Option.some.inj hq
  refine ⟨by simp [h.len], ?_⟩
  have hpush := h.stores.push (apart_id _) (some a)
  rwa [List.length_map, ← h.len, ← List.map_singleton, ← List.map_append] at hpush

/-- A search of the array finds what a search of the list finds. -/
theorem Holds.find (h : q.Holds l) (p : α → Bool) :
    ((List.range q.len).find? fun i => (q.slots i).any p) = l.findIdx? p := by
  rw [h.len]
  exact h.stores.find_range p

theorem Holds.dequeue (h : q.Holds l) (p : α → Bool) :
    (q.dequeue p).1 = l.find? p ∧ (q.dequeue p).2.Holds (l.eraseP p) := by
  unfold Runqueue.dequeue
  rw [h.find, List.find?_eq_bind_findIdx?_getElem?, List.eraseP_eq_eraseIdx]
  cases hfind : l.findIdx? p with
  | none => exact ⟨rfl, h⟩
  | some idx =>
    have hidx : idx < l.length := (List.findIdx?_eq_some_iff_getElem.mp hfind).1
    refine ⟨?_, ?_, ?_⟩
    · show q.slots idx = l[idx]?
      rw [h.slot hidx, List.getElem?_eq_getElem hidx]
    · show q.len - 1 = _
      rw [List.length_eraseIdx_of_lt hidx, ← h.len]
    · have herase := h.stores.erase none (apart_id _) (by rwa [List.length_map])
      rwa [List.length_map, ← h.len, List.eraseIdx_map] at herase

theorem Holds.updateFirst (h : q.Holds l) (p : α → Bool) (f : α → α) :
    (q.updateFirst p f).Holds (l.modify (l.findIdx p) f) := by
  unfold Runqueue.updateFirst
  rw [h.find]
  cases hfind : l.findIdx? p with
  | none =>
    rw [List.findIdx_eq_length_of_false (List.findIdx?_eq_none_iff.mp hfind),
      List.modify_eq_self le_rfl]
    exact h
  | some idx =>
    have hidx : idx < l.length := (List.findIdx?_eq_some_iff_getElem.mp hfind).1
    rw [(List.findIdx?_eq_some_iff_findIdx_eq.mp hfind).2]
    refine ⟨by simp [h.len], fun k hk => ?_⟩
    have hlt : k < l.length := by simpa using hk
    by_cases hki : k = idx
    · subst hki
      simp [h.slot hlt]
    · simp [Function.update_of_ne hki, h.slot hlt, Ne.symm hki]

theorem Holds.ne_nil (h : q.Holds l) (hlen : q.len ≠ 0) : l ≠ [] := by
  rintro rfl
  exact hlen h.len

end Runqueue

/-! ## Fixed-priority FIFO -/

def FIFO_CAPACITY : Nat := 32

abbrev Fifo := Runqueue TaskMeta

namespace Fifo

def enqueue (q : Fifo) (m : TaskMeta) : Option Fifo := Runqueue.enqueue FIFO_CAPACITY q m

def dequeue (q : Fifo) (tid : UInt32) : Option TaskMeta × Fifo :=
  Runqueue.dequeue q fun m => m.tid = tid

/-- `pick_next` looks at the whole array. -/
def pickNext (q : Fifo) : Option TaskMeta :=
  if q.len = 0 then none
  else
    let found := (List.range FIFO_CAPACITY).filterMap fun i =>
      (q.slots i).map fun m => (i, m.priority.toNat)
    match found.argmin fun x => x.2 with
    | none => none
    | some (idx, _) => q.slots idx

end Fifo

/-! ## Earliest deadline first with a bandwidth server -/

def EDF_CAPACITY : Nat := 16

/-- `CbsState`. -/
structure CbsState where
  budgetUs : Nat
  periodUs : Nat
  remainingUs : Nat
  deriving DecidableEq, Repr

/-- `CbsState::new`. -/
def CbsState.new (budgetUs periodUs : Nat) : CbsState := ⟨budgetUs, periodUs, budgetUs⟩

def CbsState.exhausted (cbs : CbsState) : Bool := cbs.remainingUs = 0

def CbsState.refill (cbs : CbsState) : CbsState := { cbs with remainingUs := cbs.budgetUs }

/-- `EdfEntry`. -/
structure EdfEntry where
  taskMeta : TaskMeta
  cbs : CbsState
  deriving DecidableEq, Repr

abbrev EdfCbs := Runqueue EdfEntry

namespace EdfCbs

def DEFAULT_BUDGET_US : Nat := 10000
def DEFAULT_PERIOD_US : Nat := 10000

def enqueueWithCbs (q : EdfCbs) (m : TaskMeta) (cbs : CbsState) : Option EdfCbs :=
  Runqueue.enqueue EDF_CAPACITY q ⟨m, cbs⟩

def enqueue (q : EdfCbs) (m : TaskMeta) : Option EdfCbs :=
  enqueueWithCbs q m (.new DEFAULT_BUDGET_US DEFAULT_PERIOD_US)

def dequeue (q : EdfCbs) (tid : UInt32) : Option TaskMeta × EdfCbs :=
  let (removed, rest) := Runqueue.dequeue q fun e => e.taskMeta.tid = tid
  (removed.map EdfEntry.taskMeta, rest)

/-- The key of the search: an entry without a deadline comes last. -/
def deadline (e : EdfEntry) : Nat := e.taskMeta.deadlineUs.getD U64_MAX

/-- `pick_next`: servers with budget first, and any server when all are used up. -/
def pickNext (q : EdfCbs) : Option TaskMeta :=
  if q.len = 0 then none
  else
    match (q.iter.filter fun e => !e.cbs.exhausted).argmin deadline with
    | some e => some e.taskMeta
    | none => (q.iter.argmin deadline).map EdfEntry.taskMeta

/-- `tick` at the entry that runs. -/
def charge (dtUs : Nat) (e : EdfEntry) : EdfEntry :=
  if dtUs ≥ e.cbs.remainingUs then
    let pushed := e.taskMeta.deadlineUs.map fun d => min U64_MAX (d + e.cbs.periodUs)
    ⟨{ e.taskMeta with deadlineUs := pushed }, e.cbs.refill⟩
  else { e with cbs := { e.cbs with remainingUs := e.cbs.remainingUs - dtUs } }

def tick (q : EdfCbs) (tidRunning : UInt32) (dtUs : Nat) : EdfCbs :=
  q.updateFirst (fun e => e.taskMeta.tid = tidRunning) (charge dtUs)

end EdfCbs

/-! ## Fair share -/

def CFS_CAPACITY : Nat := 32

abbrev Cfs := Runqueue TaskMeta

namespace Cfs

/-- `weight`: two to the priority, at most two to the twenty. -/
def weight (priority : UInt8) : Nat := 2 ^ min priority.toNat 20

/-- A new task joins with the smallest virtual runtime in the queue. -/
def enqueue (q : Cfs) (m : TaskMeta) : Option Cfs :=
  let baseline := (q.iter.map TaskMeta.vruntimeUs).min?.getD 0
  Runqueue.enqueue CFS_CAPACITY q
    (if m.vruntimeUs < baseline then { m with vruntimeUs := baseline } else m)

def dequeue (q : Cfs) (tid : UInt32) : Option TaskMeta × Cfs :=
  Runqueue.dequeue q fun m => m.tid = tid

def pickNext (q : Cfs) : Option TaskMeta :=
  if q.len = 0 then none else q.iter.argmin TaskMeta.vruntimeUs

/-- `charge`. -/
def tick (q : Cfs) (tidRunning : UInt32) (dtUs : Nat) : Cfs :=
  q.updateFirst (fun m => m.tid = tidRunning) fun m =>
    { m with vruntimeUs := min U64_MAX (m.vruntimeUs + min U64_MAX (dtUs * weight m.priority)) }

end Cfs

/-! ## The sporadic server -/

def SPORADIC_CAPACITY : Nat := 8

structure Sporadic where
  queue : Runqueue TaskMeta
  remainingUs : Nat
  capacityUs : Nat

namespace Sporadic

def DEFAULT_CAPACITY_US : Nat := 1000

def new : Sporadic := ⟨.new, DEFAULT_CAPACITY_US, DEFAULT_CAPACITY_US⟩

def exhausted (q : Sporadic) : Bool := q.remainingUs = 0

def enqueue (q : Sporadic) (m : TaskMeta) : Option Sporadic :=
  (Runqueue.enqueue SPORADIC_CAPACITY q.queue m).map fun queue => { q with queue := queue }

def dequeue (q : Sporadic) (tid : UInt32) : Option TaskMeta × Sporadic :=
  let (removed, rest) := Runqueue.dequeue q.queue fun m => m.tid = tid
  (removed, { q with queue := rest })

/-- `pick_next`: nothing once the capacity is used up. -/
def pickNext (q : Sporadic) : Option TaskMeta :=
  if q.queue.len = 0 ∨ q.exhausted then none
  else q.queue.iter.argmin fun m => m.priority.toNat

/-- `tick`: whatever runs drains the capacity. -/
def tick (q : Sporadic) (dtUs : Nat) : Sporadic :=
  { q with remainingUs := q.remainingUs - dtUs }

end Sporadic

/-! ## Round robin -/

def RR_CAPACITY : Nat := 32

def DEFAULT_QUANTUM_US : Nat := 10000

/-- The time that a task gets when it comes to the head. -/
def quantum (m : TaskMeta) : Nat := if m.timeSliceUs = 0 then DEFAULT_QUANTUM_US else m.timeSliceUs

structure RoundRobin where
  slots : Nat → Option TaskMeta
  head : Nat
  len : Nat
  remainingUs : Nat

namespace RoundRobin

def new : RoundRobin := ⟨fun _ => none, 0, 0, 0⟩

def tail (q : RoundRobin) : Nat := (q.head + q.len) % RR_CAPACITY

def enqueue (q : RoundRobin) (m : TaskMeta) : Option RoundRobin :=
  if q.len ≥ RR_CAPACITY then none
  else some
    { q with
      slots := Function.update q.slots q.tail (some m)
      len := q.len + 1
      remainingUs := if q.len = 0 then quantum m else q.remainingUs }

def dequeue (q : RoundRobin) (tid : UInt32) : Option TaskMeta × RoundRobin :=
  let ix := ringIx RR_CAPACITY q.head
  match (List.range q.len).find? fun off => (q.slots (ix off)).any fun m => m.tid = tid with
  | none => (none, q)
  | some off =>
    let slots := shiftDown none ix (q.len - 1 - off) off (Function.update q.slots (ix off) none)
    let len := q.len - 1
    (q.slots (ix off),
      if len = 0 then ⟨slots, 0, 0, 0⟩
      else if off = 0 then
        ⟨slots, q.head, len, ((slots q.head).map quantum).getD DEFAULT_QUANTUM_US⟩
      else ⟨slots, q.head, len, q.remainingUs⟩)

def pickNext (q : RoundRobin) : Option TaskMeta := if q.len = 0 then none else q.slots q.head

/-- Starts the quantum of the task at the head. -/
def startQuantum (q : RoundRobin) : RoundRobin :=
  { q with remainingUs := ((q.slots q.head).map quantum).getD q.remainingUs }

/-- `rotate`: the task at the head goes to the tail. -/
def rotate (q : RoundRobin) : RoundRobin :=
  if q.len < 2 then q.startQuantum
  else
    let slots := Function.update (Function.update q.slots q.head none) q.tail (q.slots q.head)
    { q with slots := slots, head := (q.head + 1) % RR_CAPACITY }.startQuantum

def tick (q : RoundRobin) (tidRunning : UInt32) (dtUs : Nat) : RoundRobin :=
  if q.len = 0 then q
  else
    match q.slots q.head with
    | none => q
    | some m =>
      if m.tid ≠ tidRunning then q
      else if dtUs ≥ q.remainingUs then q.rotate
      else { q with remainingUs := q.remainingUs - dtUs }

/-- The tasks stand in the ring from the head on, and the other cells are empty. -/
structure Holds (q : RoundRobin) (l : List TaskMeta) : Prop where
  head : q.head < RR_CAPACITY
  len : q.len = l.length
  room : l.length ≤ RR_CAPACITY
  stores : Stores q.slots (ringIx RR_CAPACITY q.head) (l.map some)
  vacant : Vacant none q.slots (ringIx RR_CAPACITY q.head) l.length

variable {q : RoundRobin} {l : List TaskMeta}

theorem holds_new : new.Holds [] := ⟨by decide, rfl, by decide, .nil, fun _ _ => rfl⟩

theorem ringIx_head (h : q.Holds l) : ringIx RR_CAPACITY q.head 0 = q.head :=
  Nat.mod_eq_of_lt h.head

theorem Holds.slot_head {m : TaskMeta} (h : q.Holds (m :: l)) : q.slots q.head = some m := by
  have hhead := h.stores.pop.1
  rwa [ringIx_head h] at hhead

theorem Holds.apart (h : q.Holds l) : Apart (ringIx RR_CAPACITY q.head) (l.map some).length :=
  (apart_ringIx RR_CAPACITY q.head).mono (by rw [List.length_map]; exact h.room)

theorem Holds.tail_eq (h : q.Holds l) : q.tail = ringIx RR_CAPACITY q.head l.length := by
  rw [tail, h.len, ringIx]

theorem Holds.startQuantum (h : q.Holds l) : q.startQuantum.Holds l :=
  ⟨h.head, h.len, h.room, h.stores, h.vacant⟩

theorem Holds.enqueue (h : q.Holds l) {m : TaskMeta} {q' : RoundRobin}
    (hq : q.enqueue m = some q') : q'.Holds (l ++ [m]) := by
  unfold RoundRobin.enqueue at hq
  split at hq
  · nomatch hq
  next hfull =>
  obtain rfl := Option.some.inj hq
  have hroom : l.length + 1 ≤ RR_CAPACITY := by rw [← h.len]; omega
  refine ⟨h.head, by simp [h.len], by simpa using hroom, ?_, ?_⟩
  · have hpush := h.stores.push ((apart_ringIx RR_CAPACITY q.head).mono (by simpa using hroom))
      (some m)
    rwa [List.length_map, ← h.len, ← List.map_singleton, ← List.map_append] at hpush
  · rw [List.length_append, List.length_singleton, h.tail_eq]
    exact h.vacant.push none (some m)

theorem Holds.dequeue (h : q.Holds l) (tid : UInt32) :
    (q.dequeue tid).1 = l.find? (fun m => m.tid = tid) ∧
      (q.dequeue tid).2.Holds (l.eraseP fun m => m.tid = tid) := by
  unfold RoundRobin.dequeue
  dsimp only
  rw [h.len, h.stores.find_range, List.find?_eq_bind_findIdx?_getElem?, List.eraseP_eq_eraseIdx]
  cases hfind : l.findIdx? fun m => decide (m.tid = tid) with
  | none => exact ⟨rfl, h⟩
  | some off =>
    have hoff : off < l.length := (List.findIdx?_eq_some_iff_getElem.mp hfind).1
    have hlen : l.length - 1 = (l.eraseIdx off).length := (List.length_eraseIdx_of_lt hoff).symm
    have hroom : (l.eraseIdx off).length ≤ RR_CAPACITY := by
      have hall := h.room
      omega
    have herase := h.stores.erase none h.apart (by rwa [List.length_map])
    rw [List.length_map, List.eraseIdx_map] at herase
    have hvacant := h.vacant.erase none hoff
    have hcell := h.stores off (by rwa [List.length_map])
    rw [List.getElem_map] at hcell
    constructor
    · show q.slots (ringIx RR_CAPACITY q.head off) = l[off]?
      rw [hcell, List.getElem?_eq_getElem hoff]
    · dsimp only
      split_ifs with hempty
      · -- The last task is gone, and the ring starts again at its first cell.
        have hnil : l.eraseIdx off = [] := List.length_eq_zero_iff.mp (hlen ▸ hempty)
        rw [hnil]
        exact ⟨show 0 < RR_CAPACITY by decide, rfl, Nat.zero_le _, .nil,
          fun c _ => hvacant c fun k hk => absurd hk (by omega)⟩
      · exact ⟨h.head, hlen, hroom, herase, hlen ▸ hvacant⟩
      · exact ⟨h.head, hlen, hroom, herase, hlen ▸ hvacant⟩

/-- The rest of the list, behind it the head. -/
theorem Holds.rotate {m : TaskMeta} (h : q.Holds (m :: l)) : q.rotate.Holds (l ++ [m]) := by
  unfold RoundRobin.rotate
  split_ifs with hone
  · rw [h.len, List.length_cons] at hone
    obtain rfl : l = [] := List.length_eq_zero_iff.mp (by omega)
    exact h.startQuantum
  · have hroom : l.length + 1 ≤ RR_CAPACITY := by simpa using h.room
    have hix : ringIx RR_CAPACITY ((q.head + 1) % RR_CAPACITY) =
        fun k => ringIx RR_CAPACITY q.head (k + 1) :=
      funext fun k => by rw [ringIx_mod, ringIx_succ]
    have hnext : Apart (fun k => ringIx RR_CAPACITY q.head (k + 1)) (l.length + 1) := by
      rw [← hix]
      exact (apart_ringIx RR_CAPACITY _).mono hroom
    refine Holds.startQuantum ⟨Nat.mod_lt _ (by decide), by simp [h.len], by simpa using h.room,
      ?_, ?_⟩
    · -- The cell of the head is none of the cells of the others.
      have hother : ∀ k < (l.map some).length, ringIx RR_CAPACITY q.head (k + 1) ≠ q.head := by
        intro k hk heq
        rw [List.length_map] at hk
        have := apart_ringIx RR_CAPACITY q.head (k + 1) 0 (by omega) (by omega)
          (heq.trans (ringIx_head h).symm)
        omega
      have hclear := h.stores.pop.2.write q.head none hother
      have hpush := hclear.push (by simpa using hnext) (some m)
      rw [hix, h.tail_eq, h.slot_head, List.map_append]
      simpa using hpush
    · intro c hc
      rw [hix, List.length_append, List.length_singleton] at hc
      have htail : c ≠ q.tail := by
        rw [h.tail_eq]
        exact (hc l.length (Nat.lt_succ_self _)).symm
      show Function.update (Function.update q.slots q.head none) q.tail (q.slots q.head) c = none
      rw [Function.update_of_ne htail]
      by_cases hhead : c = q.head
      · rw [hhead, Function.update_self]
      · rw [Function.update_of_ne hhead]
        apply h.vacant
        intro k hk
        cases k with
        | zero =>
          rw [ringIx_head h]
          exact Ne.symm hhead
        | succ k => exact hc k (Nat.lt_of_succ_lt hk)

/-- A tick looks at the head. -/
theorem Holds.tick_eq {m : TaskMeta} (h : q.Holds (m :: l)) (tidRunning : UInt32) (dtUs : Nat) :
    q.tick tidRunning dtUs =
      if m.tid ≠ tidRunning then q
      else if dtUs ≥ q.remainingUs then q.rotate
      else { q with remainingUs := q.remainingUs - dtUs } := by
  have hlen : q.len ≠ 0 := by simp [h.len]
  rw [RoundRobin.tick, if_neg hlen, h.slot_head]

theorem Holds.tick (h : q.Holds l) (tidRunning : UInt32) (dtUs : Nat) :
    ∃ l', (q.tick tidRunning dtUs).Holds l' := by
  cases l with
  | nil =>
    have hlen : q.len = 0 := h.len
    exact ⟨[], by rwa [RoundRobin.tick, if_pos hlen]⟩
  | cons m rest =>
    rw [h.tick_eq]
    split_ifs
    · exact ⟨_, h⟩
    · exact ⟨_, h.rotate⟩
    · exact ⟨_, h.head, h.len, h.room, h.stores, h.vacant⟩

end RoundRobin

/-! ## Picks of queues that are not empty -/

theorem isSome_argmin {α : Type} {l : List α} (h : l ≠ []) (f : α → Nat) :
    (l.argmin f).isSome := by
  rw [Option.isSome_iff_ne_none, ne_eq, List.argmin_eq_none]
  exact h

theorem Fifo.isSome_pickNext {q : Fifo} {l : List TaskMeta} (h : Runqueue.Holds q l)
    (hlen : q.len ≠ 0) : (Fifo.pickNext q).isSome := by
  have hpos : 0 < l.length := List.length_pos_iff.mpr (h.ne_nil hlen)
  rw [Fifo.pickNext, if_neg hlen]
  dsimp only
  split
  next hnone =>
    have hfirst : (0, l[0].priority.toNat) ∈ (List.range FIFO_CAPACITY).filterMap fun i =>
        (q.slots i).map fun m => (i, m.priority.toNat) :=
      List.mem_filterMap.mpr ⟨0, by decide, by rw [h.slot hpos]; rfl⟩
    rw [List.argmin_eq_none.mp hnone] at hfirst
    exact absurd hfirst List.not_mem_nil
  next idx prio hsome =>
    obtain ⟨i, -, hi⟩ := List.mem_filterMap.mp (List.argmin_mem hsome)
    obtain ⟨m, hm, hpair⟩ := Option.map_eq_some_iff.mp hi
    obtain rfl : i = idx := congrArg Prod.fst hpair
    rw [hm]
    rfl

theorem EdfCbs.isSome_pickNext {q : EdfCbs} {l : List EdfEntry} (h : Runqueue.Holds q l)
    (hlen : q.len ≠ 0) : (EdfCbs.pickNext q).isSome := by
  rw [EdfCbs.pickNext, if_neg hlen, h.iter]
  split
  · rfl
  · rw [Option.isSome_map]
    exact isSome_argmin (h.ne_nil hlen) _

theorem Cfs.pickNext_eq {q : Cfs} {l : List TaskMeta} (h : Runqueue.Holds q l) :
    Cfs.pickNext q = l.argmin TaskMeta.vruntimeUs := by
  unfold Cfs.pickNext
  rw [h.iter, h.len]
  cases l with
  | nil => rfl
  | cons a l => exact if_neg (Nat.succ_ne_zero _)

theorem Cfs.isSome_pickNext {q : Cfs} {l : List TaskMeta} (h : Runqueue.Holds q l)
    (hlen : q.len ≠ 0) : (Cfs.pickNext q).isSome := by
  rw [Cfs.pickNext_eq h]
  exact isSome_argmin (h.ne_nil hlen) _

theorem RoundRobin.isSome_pickNext {q : RoundRobin} {l : List TaskMeta} (h : q.Holds l)
    (hlen : q.len ≠ 0) : q.pickNext.isSome := by
  cases l with
  | nil => exact absurd h.len hlen
  | cons m rest =>
    rw [RoundRobin.pickNext, if_neg hlen, h.slot_head]
    rfl

theorem Sporadic.isSome_pickNext {q : Sporadic} {l : List TaskMeta}
    (h : Runqueue.Holds q.queue l) (hlen : q.queue.len ≠ 0) :
    q.pickNext.isSome ↔ q.remainingUs ≠ 0 := by
  unfold Sporadic.pickNext Sporadic.exhausted
  by_cases hzero : q.remainingUs = 0
  · simp [hzero]
  · simp only [hlen, hzero, decide_false, Bool.false_eq_true, or_self, if_false, h.iter]
    exact iff_of_true (isSome_argmin (h.ne_nil hlen) _) hzero

end RobotOs.Sched.Policy
