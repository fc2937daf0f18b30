import RobotOs.Lib.Run
import RobotOs.Sched.Aps

/-!
# The state of one CPU under adaptive partitioning

`aps_state.rs` of the sched crate.  A CPU has the partitioning and the five run
queues.  A task is put into the queue of its class and taken out of it by its
id, `pick_next` asks the partitioning for a class and the queue of that class for
a task, and the timer charges the time that passed to all of them.

`pick_next` answers whenever the queue it asks does.  The sporadic server of the
class `Idle` does not when its capacity is used up: every tick drains it,
whatever runs, and nothing refills it.
-/

namespace RobotOs.Sched.Policy

open Lib.Run

/-- `CpuSchedV2`. -/
structure CpuSched where
  aps : Aps
  fifo : Fifo
  edfCbs : EdfCbs
  rr : RoundRobin
  cfs : Cfs
  sporadic : Sporadic

namespace CpuSched

def new : CpuSched := ⟨.defaultConfig, .new, .new, .new, .new, .new⟩

/-- `enqueue_task_for_class`.  A task is dropped when the queue is full. -/
def enqueueTaskForClass (s : CpuSched) (tid : UInt32) (classRaw priority : UInt8)
    (timeSliceUs deadlineUs : Nat) : CpuSched :=
  match SchedClass.fromRaw classRaw with
  | none => s
  | some c =>
    let deadline := if deadlineUs ≠ 0 then some deadlineUs else none
    let m : TaskMeta := ⟨tid, c, priority, deadline, timeSliceUs, 0⟩
    match c with
    | .SafetyCritical => { s with fifo := (Fifo.enqueue s.fifo m).getD s.fifo }
    | .HardRT => { s with edfCbs := (EdfCbs.enqueue s.edfCbs m).getD s.edfCbs }
    | .SoftRT => { s with rr := (s.rr.enqueue m).getD s.rr }
    | .BestEffort => { s with cfs := (Cfs.enqueue s.cfs m).getD s.cfs }
    | .Idle => { s with sporadic := (s.sporadic.enqueue m).getD s.sporadic }

/-- `dequeue_task_for_class`. -/
def dequeueTaskForClass (s : CpuSched) (tid : UInt32) (classRaw : UInt8) : CpuSched :=
  match SchedClass.fromRaw classRaw with
  | none => s
  | some .SafetyCritical => { s with fifo := (Fifo.dequeue s.fifo tid).2 }
  | some .HardRT => { s with edfCbs := (EdfCbs.dequeue s.edfCbs tid).2 }
  | some .SoftRT => { s with rr := (s.rr.dequeue tid).2 }
  | some .BestEffort => { s with cfs := (Cfs.dequeue s.cfs tid).2 }
  | some .Idle => { s with sporadic := (s.sporadic.dequeue tid).2 }

/-- The queue of a class is not empty. -/
def runnable (s : CpuSched) : SchedClass → Bool
  | .SafetyCritical => s.fifo.len != 0
  | .HardRT => s.edfCbs.len != 0
  | .SoftRT => s.rr.len != 0
  | .BestEffort => s.cfs.len != 0
  | .Idle => s.sporadic.queue.len != 0

/-- What the queue of a class answers. -/
def pickOf (s : CpuSched) : SchedClass → Option TaskMeta
  | .SafetyCritical => Fifo.pickNext s.fifo
  | .HardRT => EdfCbs.pickNext s.edfCbs
  | .SoftRT => s.rr.pickNext
  | .BestEffort => Cfs.pickNext s.cfs
  | .Idle => s.sporadic.pickNext

/-- `pick_next`. -/
def pickNext (s : CpuSched) : Option TaskMeta := (s.aps.pickClass s.runnable).bind s.pickOf

/-- `account`. -/
def account (s : CpuSched) (nowUs : Nat) (dtUs : UInt32) (runningTid : UInt32) : CpuSched :=
  { s with
    aps := s.aps.tick nowUs dtUs
    edfCbs := EdfCbs.tick s.edfCbs runningTid dtUs.toNat
    rr := s.rr.tick runningTid dtUs.toNat
    cfs := Cfs.tick s.cfs runningTid dtUs.toNat
    sporadic := s.sporadic.tick dtUs.toNat }

/-- A call on the state of the CPU.  `pick_next` does not change it.  The
dispatcher tells the partitioning what it switched to. -/
inductive Op where
  | enqueue (tid : UInt32) (classRaw priority : UInt8) (timeSliceUs deadlineUs : Nat)
  | dequeue (tid : UInt32) (classRaw : UInt8)
  | pickNext
  | account (nowUs : Nat) (dtUs runningTid : UInt32)
  | setCurrent (c : SchedClass) (tid : UInt32)
  | setIdle
  deriving DecidableEq, Repr

def step (s : CpuSched) : Op → CpuSched
  | .enqueue tid classRaw priority timeSliceUs deadlineUs =>
    s.enqueueTaskForClass tid classRaw priority timeSliceUs deadlineUs
  | .dequeue tid classRaw => s.dequeueTaskForClass tid classRaw
  | .pickNext => s
  | .account nowUs dtUs runningTid => s.account nowUs dtUs runningTid
  | .setCurrent c tid => { s with aps := s.aps.setCurrent c tid }
  | .setIdle => { s with aps := s.aps.setIdle }

/-! ## The queues hold lists of tasks -/

/-- Every queue holds a list of tasks. -/
structure Filled (s : CpuSched) : Prop where
  fifo : ∃ l, Runqueue.Holds s.fifo l
  edfCbs : ∃ l, Runqueue.Holds s.edfCbs l
  rr : ∃ l, s.rr.Holds l
  cfs : ∃ l, Runqueue.Holds s.cfs l
  sporadic : ∃ l, Runqueue.Holds s.sporadic.queue l

theorem filled_new : new.Filled :=
  ⟨⟨[], Runqueue.holds_new⟩, ⟨[], Runqueue.holds_new⟩, ⟨[], RoundRobin.holds_new⟩,
    ⟨[], Runqueue.holds_new⟩, ⟨[], Runqueue.holds_new⟩⟩

/-- A queue after an enqueue that may have failed. -/
theorem holds_getD_enqueue {α : Type} {q : Runqueue α} (h : ∃ l, q.Holds l) (capacity : Nat)
    (a : α) : ∃ l, ((q.enqueue capacity a).getD q).Holds l := by
  obtain ⟨l, hl⟩ := h
  cases hq : q.enqueue capacity a with
  | none => exact ⟨l, hl⟩
  | some q' => exact ⟨l ++ [a], hl.enqueue hq⟩

theorem holds_dequeue {α : Type} {q : Runqueue α} (h : ∃ l, q.Holds l) (p : α → Bool) :
    ∃ l, (q.dequeue p).2.Holds l := by
  obtain ⟨l, hl⟩ := h
  exact ⟨_, (hl.dequeue p).2⟩

theorem filled_enqueue {s : CpuSched} (h : s.Filled) (tid : UInt32) (classRaw priority : UInt8)
    (timeSliceUs deadlineUs : Nat) :
    (s.enqueueTaskForClass tid classRaw priority timeSliceUs deadlineUs).Filled := by
  unfold enqueueTaskForClass
  split
  · exact h
  next c _ =>
    cases c with
    | SafetyCritical => exact { h with fifo := holds_getD_enqueue h.fifo _ _ }
    | HardRT => exact { h with edfCbs := holds_getD_enqueue h.edfCbs _ _ }
    | SoftRT =>
      obtain ⟨l, hl⟩ := h.rr
      refine { h with rr := ?_ }
      dsimp only
      generalize TaskMeta.mk tid .SoftRT _ _ _ _ = m
      cases hq : s.rr.enqueue m with
      | none => exact ⟨l, hl⟩
      | some q' => exact ⟨l ++ [m], hl.enqueue hq⟩
    | BestEffort => exact { h with cfs := holds_getD_enqueue h.cfs _ _ }
    | Idle =>
      refine { h with sporadic := ?_ }
      have hqueue := holds_getD_enqueue h.sporadic SPORADIC_CAPACITY
        ⟨tid, .Idle, priority, if deadlineUs ≠ 0 then some deadlineUs else none, timeSliceUs, 0⟩
      dsimp only [Sporadic.enqueue]
      revert hqueue
      cases Runqueue.enqueue SPORADIC_CAPACITY s.sporadic.queue _ <;> exact id

theorem filled_dequeue {s : CpuSched} (h : s.Filled) (tid : UInt32) (classRaw : UInt8) :
    (s.dequeueTaskForClass tid classRaw).Filled := by
  unfold dequeueTaskForClass
  split
  · exact h
  · exact { h with fifo := holds_dequeue h.fifo _ }
  · exact { h with edfCbs := holds_dequeue h.edfCbs _ }
  · obtain ⟨l, hl⟩ := h.rr
    exact { h with rr := ⟨_, (hl.dequeue tid).2⟩ }
  · exact { h with cfs := holds_dequeue h.cfs _ }
  · exact { h with sporadic := holds_dequeue h.sporadic _ }

theorem filled_account {s : CpuSched} (h : s.Filled) (nowUs : Nat) (dtUs runningTid : UInt32) :
    (s.account nowUs dtUs runningTid).Filled := by
  obtain ⟨ledf, hedf⟩ := h.edfCbs
  obtain ⟨lrr, hrr⟩ := h.rr
  obtain ⟨lcfs, hcfs⟩ := h.cfs
  exact ⟨h.fifo, ⟨_, hedf.updateFirst _ _⟩, hrr.tick runningTid dtUs.toNat,
    ⟨_, hcfs.updateFirst _ _⟩, h.sporadic⟩

theorem filled_step (s : CpuSched) (op : Op) (h : s.Filled) : (step s op).Filled := by
  cases op with
  | enqueue tid classRaw priority timeSliceUs deadlineUs =>
    exact filled_enqueue h tid classRaw priority timeSliceUs deadlineUs
  | dequeue tid classRaw => exact filled_dequeue h tid classRaw
  | account nowUs dtUs runningTid => exact filled_account h nowUs dtUs runningTid
  | pickNext => exact h
  | setCurrent c tid => exact ⟨h.fifo, h.edfCbs, h.rr, h.cfs, h.sporadic⟩
  | setIdle => exact ⟨h.fifo, h.edfCbs, h.rr, h.cfs, h.sporadic⟩

/-! ## Picks -/

/-- The queue of a class with a task answers, unless it is the sporadic server
without capacity. -/
theorem isSome_pickOf_iff {s : CpuSched} (h : s.Filled) {c : SchedClass}
    (hc : s.runnable c = true) :
    (s.pickOf c).isSome ↔ ¬(c = .Idle ∧ s.sporadic.remainingUs = 0) := by
  cases c with
  | SafetyCritical =>
    obtain ⟨l, hl⟩ := h.fifo
    simpa [pickOf] using Fifo.isSome_pickNext hl (by simpa [runnable] using hc)
  | HardRT =>
    obtain ⟨l, hl⟩ := h.edfCbs
    simpa [pickOf] using EdfCbs.isSome_pickNext hl (by simpa [runnable] using hc)
  | SoftRT =>
    obtain ⟨l, hl⟩ := h.rr
    simpa [pickOf] using RoundRobin.isSome_pickNext hl (by simpa [runnable] using hc)
  | BestEffort =>
    obtain ⟨l, hl⟩ := h.cfs
    simpa [pickOf] using Cfs.isSome_pickNext hl (by simpa [runnable] using hc)
  | Idle =>
    obtain ⟨l, hl⟩ := h.sporadic
    simpa [pickOf] using Sporadic.isSome_pickNext hl (by simpa [runnable] using hc)

/-- A task of the class `Idle` waits for a server that was drained. -/
def waitsForServer : List Op := [.enqueue 1 4 0 0 0, .account 1000 1000 7]

/-- So does a task of the class `BestEffort` behind it, once its own class has had
its minimum. -/
def waitsBehindServer : List Op :=
  [.enqueue 1 4 0 0 0, .enqueue 2 3 0 0 0, .setCurrent .BestEffort 2, .account 2000 2000 2]

/-- Queues are not empty, and nothing is picked. -/
theorem picks_nothing :
    (run step new waitsForServer).runnable .Idle = true ∧
      (run step new waitsForServer).pickNext = none ∧
      (run step new waitsBehindServer).runnable .BestEffort = true ∧
      (run step new waitsBehindServer).pickNext = none := by
  decide +kernel

/-- In every state that calls reach, a task is picked whenever a queue is not
empty, exactly if it is not the turn of the class `Idle` with its server drained. -/
theorem picks_task_iff (ops : List Op) :
    ((∃ c, (run step new ops).runnable c = true) → (run step new ops).pickNext.isSome) ↔
      ¬((run step new ops).aps.IdleTurn (run step new ops).runnable ∧
        (run step new ops).sporadic.remainingUs = 0) := by
  have hfilled : (run step new ops).Filled := run_invariant Filled filled_step filled_new ops
  generalize run step new ops = s at hfilled
  constructor
  · rintro hpick ⟨hturn, hzero⟩
    have hsome := hpick ⟨.Idle, hturn.runnable⟩
    rw [pickNext, Aps.pickClass_eq_idle_iff.mpr hturn, Option.bind_some,
      isSome_pickOf_iff hfilled hturn.runnable] at hsome
    exact hsome ⟨rfl, hzero⟩
  · rintro hserver ⟨c, hc⟩
    obtain ⟨d, hd⟩ := Option.isSome_iff_exists.mp (Aps.isSome_pickClass (a := s.aps) hc)
    rw [pickNext, hd, Option.bind_some,
      isSome_pickOf_iff hfilled (Aps.isRunnable_of_pickClass hd)]
    rintro ⟨rfl, hzero⟩
    exact hserver ⟨Aps.pickClass_eq_idle_iff.mp hd, hzero⟩

end CpuSched

end RobotOs.Sched.Policy
