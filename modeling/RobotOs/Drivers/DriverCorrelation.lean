import RobotOs.Drivers.DriverServer

/-!
# Requests and replies find their way

`Correlated` is what the registry is for: a driver fetches the requests for its own
kind and its own registration, in their order and once; only the registered task
fetches, replies and unregisters; and a reply that was published is what the client of its
token gets, until it has taken it.

The code keeps less than that.  It does not look at the caller, it does not empty
the queue of a slot that another driver takes over, and it has room for one reply.
`Orderly` says what the callers have to do instead.  In a run of such calls
everything is kept, by the invariant `Inv`: one part about each slot, and one about
the log.
-/

namespace RobotOs.Drivers.Server

open RobotOs.Lib.Run

/-- What the registry promises. -/
structure Correlated (s : State) : Prop where
  own : ∀ f ∈ s.fetched, f.ticket.kind = f.kind ∧ f.ticket.registration = f.registration
  /-- The log has the last fetch first. -/
  order : s.fetched.Pairwise fun f g =>
    f.registration = g.registration → g.ticket.number < f.ticket.number
  entitled : ∀ a ∈ s.acts, a.caller = a.driver
  obtainable : ∀ o ∈ s.owed, s.driverTryTakeReply o.kind o.reply.token = some o.reply

/-- A driver takes a slot without requests, only the registered task acts for a
kind, and it neither unregisters nor publishes another reply while one waits to be taken. -/
def Orderly (s : State) : Op → Prop
  | .register _ kind _ _ _ => s.findKind kind = none →
      ∀ i, s.findFree = some i → (s.slots i).queue.count = 0
  | .unregister tid kind => ∀ i, s.findKind kind = some i →
      (s.slots i).driverTid = tid ∧ ∀ o ∈ s.owed, o.kind ≠ kind
  | .fetch tid kind _ => ∀ i, s.findKind kind = some i →
      (s.slots i).queue.count ≠ 0 → (s.slots i).driverTid = tid
  | .reply tid kind reply => ∀ i, s.findKind kind = some i →
      (s.slots i).driverTid = tid ∧ ∀ o ∈ s.owed, o.kind = kind → o.reply = reply
  | _ => True

instance (s : State) : (op : Op) → Decidable (Orderly s op)
  | .register _ kind _ _ _ => inferInstanceAs (Decidable (s.findKind kind = none →
      ∀ i, s.findFree = some i → (s.slots i).queue.count = 0))
  | .unregister tid kind => inferInstanceAs (Decidable (∀ i, s.findKind kind = some i →
      (s.slots i).driverTid = tid ∧ ∀ o ∈ s.owed, o.kind ≠ kind))
  | .fetch tid kind _ => inferInstanceAs (Decidable (∀ i, s.findKind kind = some i →
      (s.slots i).queue.count ≠ 0 → (s.slots i).driverTid = tid))
  | .reply tid kind reply => inferInstanceAs (Decidable (∀ i, s.findKind kind = some i →
      (s.slots i).driverTid = tid ∧ ∀ o ∈ s.owed, o.kind = kind → o.reply = reply))
  | .request .. | .tryReply .. | .pollEvent .. | .signalIrq _ => isTrue trivial

/-- What holds for a slot. -/
structure SlotOk (s : State) (slot : DriverSlot) : Prop where
  registered : slot.active = true → slot.registration < s.registrations
  own : slot.active = true → ∀ r ∈ slot.queue.pending,
    r.ticket.kind = slot.kind ∧ r.ticket.registration = slot.registration
  sorted : slot.queue.pending.Pairwise fun r r' => r.ticket.number < r'.ticket.number
  known : ∀ r ∈ slot.queue.pending, r.ticket.number < s.requests
  above : slot.active = true → ∀ f ∈ s.fetched, f.registration = slot.registration →
    ∀ r ∈ slot.queue.pending, f.ticket.number < r.ticket.number

/-- No two drivers have a kind or a registration in common. -/
def Apart (slots : Fin DRIVER_MAX_KINDS → DriverSlot) : Prop :=
  ∀ i j, (slots i).active = true → (slots j).active = true →
    (slots i).kind = (slots j).kind ∨ (slots i).registration = (slots j).registration → i = j

structure Inv (s : State) : Prop where
  slot : ∀ i, SlotOk s (s.slots i)
  apart : Apart s.slots
  logged : ∀ f ∈ s.fetched, f.registration < s.registrations ∧ f.ticket.number < s.requests
  owed : ∀ o ∈ s.owed, ∃ i, (s.slots i).active = true ∧ (s.slots i).kind = o.kind ∧
    (s.slots i).lastReply = o.reply
  own : ∀ f ∈ s.fetched, f.ticket.kind = f.kind ∧ f.ticket.registration = f.registration
  order : s.fetched.Pairwise fun f g =>
    f.registration = g.registration → g.ticket.number < f.ticket.number
  entitled : ∀ a ∈ s.acts, a.caller = a.driver

variable {s s' : State} {i j : Fin DRIVER_MAX_KINDS} {slot slot' : DriverSlot} {kind : UInt32}

/-- With the invariant, a driver that is there is the one that is found. -/
theorem Apart.findKind (h : Apart s.slots) (hactive : (s.slots i).active = true)
    (hkind : (s.slots i).kind = kind) : s.findKind kind = some i := by
  cases hfind : s.findKind kind with
  | none => exact absurd hkind (findKind_none hfind i hactive)
  | some j =>
    obtain ⟨hj, hk⟩ := findKind_spec hfind
    rw [h i j hactive hj (.inl (hkind.trans hk.symm))]

theorem Inv.correlated (h : Inv s) : Correlated s where
  own := h.own
  order := h.order
  entitled := h.entitled
  obtainable p hp := by
    obtain ⟨i, hactive, hkind, hreply⟩ := h.owed p hp
    simp only [State.driverTryTakeReply, h.apart.findKind hactive hkind, hreply, if_true]

/-! ## One slot changes -/

/-- The counters and the log may go on, when nothing of this slot is new. -/
theorem SlotOk.mono (h : SlotOk s slot) (hreg : s.registrations ≤ s'.registrations)
    (hreq : s.requests ≤ s'.requests)
    (hfetched : slot.active = true → ∀ f ∈ s'.fetched, f.registration = slot.registration →
      f ∈ s.fetched) : SlotOk s' slot where
  registered ha := (h.registered ha).trans_le hreg
  own := h.own
  sorted := h.sorted
  known r hr := (h.known r hr).trans_le hreq
  above ha f hf hfr := h.above ha f (hfetched ha f hf hfr) hfr

/-- The fields that matter. -/
theorem SlotOk.congr (h : SlotOk s slot) (hactive : slot'.active = true → slot.active = true)
    (hkind : slot'.kind = slot.kind) (hreg : slot'.registration = slot.registration)
    (hqueue : slot'.queue = slot.queue) : SlotOk s slot' where
  registered ha := hreg ▸ h.registered (hactive ha)
  own ha r hr := by
    rw [hkind, hreg]
    exact h.own (hactive ha) r (hqueue ▸ hr)
  sorted := hqueue ▸ h.sorted
  known r hr := h.known r (hqueue ▸ hr)
  above ha f hf hfr r hr := h.above (hactive ha) f hf (hfr.trans hreg) r (hqueue ▸ hr)

theorem Apart.congr (h : Apart s.slots) (hactive : slot'.active = true → (s.slots i).active = true)
    (hkind : slot'.kind = (s.slots i).kind)
    (hreg : slot'.registration = (s.slots i).registration) :
    Apart (Function.update s.slots i slot') := by
  intro j k hj hk hsame
  have hread (l : Fin DRIVER_MAX_KINDS) (hl : (Function.update s.slots i slot' l).active = true) :
      (s.slots l).active = true ∧ (Function.update s.slots i slot' l).kind = (s.slots l).kind ∧
        (Function.update s.slots i slot' l).registration = (s.slots l).registration := by
    by_cases hli : l = i
    · subst hli
      rw [Function.update_self] at hl ⊢
      exact ⟨hactive hl, hkind, hreg⟩
    · rw [Function.update_of_ne hli] at hl ⊢
      exact ⟨hl, rfl, rfl⟩
  obtain ⟨hj, hjk, hjr⟩ := hread j hj
  obtain ⟨hk, hkk, hkr⟩ := hread k hk
  rw [hjk, hjr, hkk, hkr] at hsame
  exact h j k hj hk hsame

/-- A field of a slot changes that no request and no reply depends on. -/
theorem Inv.touch (h : Inv s) (hactive : slot'.active = (s.slots i).active)
    (hkind : slot'.kind = (s.slots i).kind)
    (hreg : slot'.registration = (s.slots i).registration)
    (hqueue : slot'.queue = (s.slots i).queue)
    (hreply : slot'.lastReply = (s.slots i).lastReply) : Inv (s.set i slot') where
  slot j := by
    by_cases hji : j = i
    · subst hji
      simp only [State.set, Function.update_self]
      exact SlotOk.congr ((h.slot j).mono le_rfl le_rfl fun _ _ hf _ => hf)
        (fun ha => hactive ▸ ha) hkind hreg hqueue
    · simp only [State.set, Function.update_of_ne hji]
      exact (h.slot j).mono le_rfl le_rfl fun _ _ hf _ => hf
  apart := h.apart.congr (fun ha => hactive ▸ ha) hkind hreg
  logged := h.logged
  owed p hp := by
    obtain ⟨j, hj⟩ := h.owed p hp
    refine ⟨j, ?_⟩
    by_cases hji : j = i
    · subst hji
      simp only [State.set, Function.update_self]
      rwa [hactive, hkind, hreply]
    · simpa only [State.set, Function.update_of_ne hji] using hj
  own := h.own
  order := h.order
  entitled := h.entitled

/-- A slot other than the one that changes. -/
theorem Inv.other (h : Inv s) (hji : j ≠ i) : SlotOk s ((s.set i slot').slots j) := by
  have hsame : (s.set i slot').slots j = s.slots j := Function.update_of_ne hji _ _
  rw [hsame]
  exact h.slot j

/-! ## The operations -/

theorem Inv.register (h : Inv s) (tid mmioBase mmioSize irq : Nat)
    (hok : Orderly s (.register tid kind mmioBase mmioSize irq)) :
    Inv (s.driverRegister kind tid mmioBase mmioSize irq) := by
  unfold State.driverRegister
  cases hkind : s.findKind kind with
  | some _ => exact h
  | none =>
    cases hfree : s.findFree with
    | none => exact h
    | some i =>
      have hinactive := findFree_spec hfree
      have hempty : (s.slots i).queue.pending = [] :=
        DriverQueue.pending_eq_nil_iff.mpr (hok hkind i hfree)
      have hne {j : Fin DRIVER_MAX_KINDS} (hj : (s.slots j).active = true) : j ≠ i := by
        rintro rfl
        rw [hinactive] at hj
        cases hj
      refine ⟨fun j => ?_, ?_, fun f hf => ?_, fun p hp => ?_, h.own, h.order, h.entitled⟩
      · by_cases hji : j = i
        · subst hji
          simp only [State.set, Function.update_self]
          exact ⟨fun _ => Nat.lt_succ_self _, by simp [hempty], by simp [hempty], by simp [hempty],
            by simp [hempty]⟩
        · exact (h.other hji).mono (Nat.le_succ _) le_rfl fun _ _ hf _ => hf
      · intro j k hj hk hsame
        simp only [State.set] at hj hk hsame
        by_cases hji : j = i
        · by_cases hki : k = i
          · rw [hji, hki]
          · rw [hji, Function.update_self, Function.update_of_ne hki] at hsame
            rw [Function.update_of_ne hki] at hk
            have hkk := findKind_none hkind k hk
            have hkr := (h.slot k).registered hk
            obtain hsame | hsame := hsame
            · exact absurd hsame.symm hkk
            · simp only at hsame
              omega
        · by_cases hki : k = i
          · rw [hki, Function.update_self, Function.update_of_ne hji] at hsame
            rw [Function.update_of_ne hji] at hj
            have hjk := findKind_none hkind j hj
            have hjr := (h.slot j).registered hj
            obtain hsame | hsame := hsame
            · exact absurd hsame hjk
            · simp only at hsame
              omega
          · rw [Function.update_of_ne hji, Function.update_of_ne hki] at hsame
            rw [Function.update_of_ne hji] at hj
            rw [Function.update_of_ne hki] at hk
            exact h.apart j k hj hk hsame
      · obtain ⟨hreg, hreq⟩ := h.logged f hf
        exact ⟨hreg.trans (Nat.lt_succ_self _), hreq⟩
      · obtain ⟨j, hj⟩ := h.owed p hp
        refine ⟨j, ?_⟩
        simpa only [State.set, Function.update_of_ne (hne hj.1)] using hj

theorem Inv.unregister (h : Inv s) (tid : Nat) (hok : Orderly s (.unregister tid kind)) :
    Inv (s.driverUnregister tid kind) := by
  unfold State.driverUnregister
  cases hkind : s.findKind kind with
  | none => exact h
  | some i =>
    obtain ⟨hdriver, howed⟩ := hok i hkind
    refine ⟨fun j => ?_, ?_, h.logged, fun p hp => ?_, h.own, h.order, fun a ha => ?_⟩
    · by_cases hji : j = i
      · subst hji
        simp only [State.set, Function.update_self]
        exact SlotOk.congr ((h.slot j).mono le_rfl le_rfl fun _ _ hf _ => hf)
          (fun ha => by cases ha) rfl rfl rfl
      · exact (h.other hji).mono le_rfl le_rfl fun _ _ hf _ => hf
    · exact h.apart.congr (fun ha => by cases ha) rfl rfl
    · obtain ⟨j, hactive, hjkind, htoken⟩ := h.owed p hp
      have hji : j ≠ i := by
        rintro rfl
        exact howed p hp (hjkind.symm.trans (findKind_spec hkind).2)
      exact ⟨j, by simpa only [State.set, Function.update_of_ne hji] using
        ⟨hactive, hjkind, htoken⟩⟩
    · obtain rfl | ha := List.mem_cons.mp ha
      · exact hdriver.symm
      · exact h.entitled a ha

/-- The new request is behind all others of its slot. -/
theorem SlotOk.push (h : SlotOk s slot) (hactive : slot.active = true) {queue : DriverQueue}
    {r : DriverRequest} (hlogged : ∀ f ∈ s.fetched, f.ticket.number < s.requests)
    (hpending : queue.pending = slot.queue.pending ++ [r])
    (hticket : r.ticket = ⟨slot.kind, slot.registration, s.requests⟩)
    (hreq : s'.requests = s.requests + 1) (hreg : s'.registrations = s.registrations)
    (hfetched : s'.fetched = s.fetched) (token : Nat) :
    SlotOk s' { slot with queue, nextToken := token } where
  registered ha := hreg ▸ h.registered ha
  own _ r' hr' := by
    simp only [hpending, List.mem_append, List.mem_singleton] at hr'
    obtain hr' | rfl := hr'
    · exact h.own hactive r' hr'
    · simp [hticket]
  sorted := by
    simp only [hpending, List.pairwise_append, List.pairwise_singleton, List.mem_singleton,
      true_and]
    refine ⟨h.sorted, ?_⟩
    rintro r' hr' _ rfl
    rw [hticket]
    exact h.known r' hr'
  known r' hr' := by
    simp only [hpending, List.mem_append, List.mem_singleton] at hr'
    obtain hr' | rfl := hr'
    · have := h.known r' hr'
      omega
    · rw [hticket]
      simp only
      omega
  above _ f hf hfr r' hr' := by
    rw [hfetched] at hf
    simp only [hpending, List.mem_append, List.mem_singleton] at hr'
    obtain hr' | rfl := hr'
    · exact h.above hactive f hf hfr r' hr'
    · rw [hticket]
      exact hlogged f hf

theorem Inv.request (h : Inv s) (tid : Nat) (op : UInt32) (input : RobotOs.Lib.Framing.Bytes)
    (outCap : Nat) : Inv (s.driverSubmitRequest kind tid op input outCap) := by
  unfold State.driverSubmitRequest
  cases hkind : s.findKind kind with
  | none => exact h
  | some i =>
    dsimp only
    cases hpush : (s.slots i).queue.push (s.newRequest i tid op input outCap) with
    | none => exact h.touch rfl rfl rfl rfl rfl
    | some queue =>
      have hactive := (findKind_spec hkind).1
      refine ⟨fun j => ?_, ?_, fun f hf => ?_, fun p hp => ?_, h.own, h.order, h.entitled⟩
      · by_cases hji : j = i
        · subst hji
          simp only [State.set, Function.update_self]
          refine (h.slot j).push hactive (fun f hf => (h.logged f hf).2)
            (DriverQueue.pending_push hpush) ?_ ?_ ?_ ?_ _
          all_goals rfl
        · exact (h.other hji).mono le_rfl (Nat.le_succ _) fun _ _ hf _ => hf
      · exact h.apart.congr (fun ha => ha) rfl rfl
      · obtain ⟨hreg, hreq⟩ := h.logged f hf
        exact ⟨hreg, hreq.trans (Nat.lt_succ_self _)⟩
      · obtain ⟨j, hj⟩ := h.owed p hp
        refine ⟨j, ?_⟩
        by_cases hji : j = i
        · subst hji
          simpa only [State.set, Function.update_self] using hj
        · simpa only [State.set, Function.update_of_ne hji] using hj

/-- The oldest request of a slot leaves it. -/
theorem SlotOk.pop (h : SlotOk s slot) {queue : DriverQueue} {r : DriverRequest}
    (hpending : slot.queue.pending = r :: queue.pending) (hreg : s'.registrations = s.registrations)
    (hreq : s'.requests = s.requests)
    (hfetched : ∀ f ∈ s'.fetched, f ∈ s.fetched ∨ f.ticket = r.ticket) :
    SlotOk s' { slot with queue } := by
  have hmem {r' : DriverRequest} (hr' : r' ∈ queue.pending) : r' ∈ slot.queue.pending := by
    rw [hpending]
    exact List.mem_cons_of_mem r hr'
  have hsorted := h.sorted
  rw [hpending, List.pairwise_cons] at hsorted
  refine ⟨fun ha => hreg ▸ h.registered ha, fun ha r' hr' => h.own ha r' (hmem hr'), hsorted.2,
    fun r' hr' => hreq ▸ h.known r' (hmem hr'), fun ha f hf hfr r' hr' => ?_⟩
  obtain hf | hticket := hfetched f hf
  · exact h.above ha f hf hfr r' (hmem hr')
  · rw [hticket]
    exact hsorted.1 r' hr'

theorem Inv.fetch (h : Inv s) (tid : Nat) (copied : Bool)
    (hok : Orderly s (.fetch tid kind copied)) :
    Inv (s.driverFetchRequest tid kind copied) := by
  unfold State.driverFetchRequest
  cases hkind : s.findKind kind with
  | none => exact h
  | some i =>
    dsimp only
    cases hpop : (s.slots i).queue.pop with
    | none => exact h
    | some p =>
      obtain ⟨r, queue⟩ := p
      obtain ⟨hactive, hk⟩ := findKind_spec hkind
      have hpending := DriverQueue.pending_pop hpop
      have hr : r ∈ (s.slots i).queue.pending := by
        rw [hpending]
        exact List.mem_cons_self
      have hcount : (s.slots i).queue.count ≠ 0 := by
        rw [ne_eq, ← DriverQueue.pending_eq_nil_iff, hpending]
        exact List.cons_ne_nil _ _
      have hown := (h.slot i).own hactive r hr
      dsimp only
      -- The log with the fetch, if the copy succeeded.
      generalize hlog : (if copied = true then
        ⟨tid, kind, (s.slots i).registration, r.ticket⟩ :: s.fetched else s.fetched) = log
      have hcases (f : Fetched) (hf : f ∈ log) : f ∈ s.fetched ∨
          f = ⟨tid, kind, (s.slots i).registration, r.ticket⟩ := by
        rw [← hlog] at hf
        split at hf
        · exact (List.mem_cons.mp hf).symm
        · exact .inl hf
      refine ⟨fun j => ?_, ?_, fun f hf => ?_, fun p hp => ?_, fun f hf => ?_, ?_, fun a ha => ?_⟩
      · by_cases hji : j = i
        · subst hji
          simp only [State.set, Function.update_self]
          refine (h.slot j).pop hpending rfl rfl fun f hf => ?_
          exact (hcases f hf).imp_right fun hf => by rw [hf]
        · refine (h.other hji).mono le_rfl le_rfl fun hj f hf hfr => ?_
          obtain hf | rfl := hcases f hf
          · exact hf
          · simp only [State.set, Function.update_of_ne hji] at hj hfr
            exact absurd (h.apart j i hj hactive (.inr hfr.symm)) hji
      · exact h.apart.congr (fun ha => ha) rfl rfl
      · obtain hf | rfl := hcases f hf
        · exact h.logged f hf
        · exact ⟨(h.slot i).registered hactive, (h.slot i).known r hr⟩
      · obtain ⟨j, hj⟩ := h.owed p hp
        refine ⟨j, ?_⟩
        by_cases hji : j = i
        · subst hji
          simpa only [State.set, Function.update_self] using hj
        · simpa only [State.set, Function.update_of_ne hji] using hj
      · obtain hf | rfl := hcases f hf
        · exact h.own f hf
        · exact ⟨hown.1.trans hk, hown.2⟩
      · show log.Pairwise _
        rw [← hlog]
        split
        · refine List.pairwise_cons.mpr ⟨fun f hf hsame => ?_, h.order⟩
          exact (h.slot i).above hactive f hf hsame.symm r hr
        · exact h.order
      · obtain rfl | ha := List.mem_cons.mp ha
        · exact (hok i hkind hcount).symm
        · exact h.entitled a ha

theorem Inv.reply (h : Inv s) (tid : Nat) (reply : DriverReply)
    (hok : Orderly s (.reply tid kind reply)) : Inv (s.driverReply tid kind reply) := by
  unfold State.driverReply
  cases hkind : s.findKind kind with
  | none => exact h
  | some i =>
    obtain ⟨hdriver, howed⟩ := hok i hkind
    obtain ⟨hactive, hk⟩ := findKind_spec hkind
    dsimp only
    refine ⟨fun j => ?_, ?_, h.logged, fun p hp => ?_, h.own, h.order, fun a ha => ?_⟩
    · by_cases hji : j = i
      · subst hji
        simp only [State.set, Function.update_self]
        exact SlotOk.congr ((h.slot j).mono le_rfl le_rfl fun _ _ hf _ => hf)
          (fun ha => ha) rfl rfl rfl
      · exact (h.other hji).mono le_rfl le_rfl fun _ _ hf _ => hf
    · exact h.apart.congr (fun ha => ha) rfl rfl
    · obtain hnew | hold := List.mem_append.mp hp
      · obtain ⟨t, -, rfl⟩ := List.mem_map.mp hnew
        refine ⟨i, ?_⟩
        simp only [State.set, Function.update_self]
        exact ⟨hactive, hk, trivial⟩
      · obtain ⟨j, hj⟩ := h.owed p hold
        refine ⟨j, ?_⟩
        by_cases hji : j = i
        · subst hji
          simp only [State.set, Function.update_self]
          exact ⟨hj.1, hj.2.1, (howed p hold (hj.2.1.symm.trans hk)).symm⟩
        · simpa only [State.set, Function.update_of_ne hji] using hj
    · obtain rfl | ha := List.mem_cons.mp ha
      · exact hdriver.symm
      · exact h.entitled a ha

theorem Inv.tryReply (h : Inv s) (tid token : Nat) (copied : Bool) :
    Inv (s.tryReply tid kind token copied) := by
  unfold State.tryReply
  split
  · exact h
  · split
    · refine ⟨fun j => (h.slot j).mono le_rfl le_rfl fun _ _ hf _ => hf, h.apart, h.logged,
        fun p hp => h.owed p (List.mem_of_mem_filter hp), h.own, h.order, h.entitled⟩
    · exact h

/-! ## Whole runs -/

theorem inv_init : Inv init where
  slot i := by
    have hpending : (init.slots i).queue.pending = [] := rfl
    have hactive : (init.slots i).active = false := rfl
    exact ⟨by simp [hactive], by simp [hactive], by simp [hpending], by simp [hpending],
      by simp [hactive]⟩
  apart i j hi := by cases hi
  logged f hf := absurd hf List.not_mem_nil
  owed p hp := absurd hp List.not_mem_nil
  own f hf := absurd hf List.not_mem_nil
  order := .nil
  entitled a ha := absurd ha List.not_mem_nil

theorem Inv.step (h : Inv s) (op : Op) (hok : Orderly s op) : Inv (step s op) := by
  cases op with
  | register tid kind mmioBase mmioSize irq => exact h.register tid mmioBase mmioSize irq hok
  | unregister tid kind => exact h.unregister tid hok
  | request tid kind op input outCap => exact h.request tid op input outCap
  | fetch tid kind copied => exact h.fetch tid copied hok
  | reply tid kind reply => exact h.reply tid reply hok
  | tryReply tid kind token copied => exact h.tryReply tid token copied
  | pollEvent tid kind =>
    simp only [Server.step, State.driverPollEvent]
    split
    · exact h
    · exact h.touch rfl rfl rfl rfl rfl
  | signalIrq irq =>
    simp only [Server.step, State.driverSignalIrq]
    split
    · exact h
    · exact h.touch rfl rfl rfl rfl rfl

/-- In every run of orderly calls the registry keeps what it promises. -/
theorem correlated_of_orderly {ops : List Op} (hok : Guarded step Orderly init ops) :
    Correlated (run step init ops) :=
  (run_invariant_of_guarded Inv (fun _ op h hop => h.step op hop) inv_init hok).correlated

/-- A driver serves two requests and unregisters.  The second client also asks for the reply to
the first. -/
def orderlyRun : List Op :=
  [.register 1 7 0 0 0, .request 2 7 0 [10] 4, .request 3 7 0 [11] 4, .fetch 1 7 true,
    .reply 1 7 ⟨1, 0, [20]⟩, .tryReply 3 7 1 true, .tryReply 2 7 1 true, .fetch 1 7 true,
    .reply 1 7 ⟨2, 0, [21]⟩, .tryReply 3 7 2 true, .unregister 1 7, .register 4 7 0 0 0]

theorem correlated_orderlyRun :
    (run step init orderlyRun).fetched =
        [⟨1, 7, 0, ⟨7, 0, 1⟩⟩, ⟨1, 7, 0, ⟨7, 0, 0⟩⟩] ∧
      Correlated (run step init orderlyRun) :=
  ⟨by decide +kernel, correlated_of_orderly (by decide +kernel)⟩

/-- A request for kind 7 is left in the queue, and a driver for kind 8 takes the slot.
Another task fetches it, and replies for the next two clients before the first one
has asked. -/
def disorderlyRun : List Op :=
  [.register 1 7 0 0 0, .request 2 7 0 [10] 4, .unregister 5 7, .register 4 8 0 0 0,
    .fetch 6 8 true, .request 2 8 0 [] 4, .request 3 8 0 [] 4, .reply 6 8 ⟨2, 0, []⟩,
    .reply 6 8 ⟨3, 0, []⟩]

/-- The request was for another kind and another registration, the caller is not the
driver, and the first of the two replies is gone. -/
theorem disorderlyRun_not_correlated :
    ((run step init disorderlyRun).fetched = [⟨6, 8, 1, ⟨7, 0, 0⟩⟩] ∧
      (run step init disorderlyRun).acts = [⟨6, 4⟩, ⟨6, 4⟩, ⟨6, 4⟩, ⟨5, 1⟩] ∧
      ⟨8, 2, ⟨2, 0, []⟩⟩ ∈ (run step init disorderlyRun).owed ∧
      (run step init disorderlyRun).driverTryTakeReply 8 2 = none) ∧
      ¬ Correlated (run step init disorderlyRun) := by
  have hrun : (run step init disorderlyRun).fetched = [⟨6, 8, 1, ⟨7, 0, 0⟩⟩] ∧
      (run step init disorderlyRun).acts = [⟨6, 4⟩, ⟨6, 4⟩, ⟨6, 4⟩, ⟨5, 1⟩] ∧
      ⟨8, 2, ⟨2, 0, []⟩⟩ ∈ (run step init disorderlyRun).owed ∧
      (run step init disorderlyRun).driverTryTakeReply 8 2 = none := by decide +kernel
  refine ⟨hrun, fun h => ?_⟩
  have hown := h.own ⟨6, 8, 1, ⟨7, 0, 0⟩⟩ (by rw [hrun.1]; exact List.mem_cons_self)
  exact absurd hown (by decide)

end RobotOs.Drivers.Server
