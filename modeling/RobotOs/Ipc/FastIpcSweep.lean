import RobotOs.Ipc.FastIpcRun
import RobotOs.Lib.Tally

/-!
# The exit sweep of fast IPC

What `fast_ipc_release_all` leaves behind in a table that any operations have led to.  The
slots of the task are freed but for the replies that wait for their clients, the others
stay, the count of the slots in use is right again, and the clients that wait for the task
are woken with the handles they wait on.

The count matters because a lookup gives up when it is zero.  `Counted` is kept by every
operation, and it is what makes the early exit of the lookups sound.
-/

namespace RobotOs.Ipc.FastIpc

open RobotOs.Lib.Run RobotOs.Lib.Tally FastIpcState

/-- The slot has an exchange. -/
def live (slot : FastIpcSlot) : Bool := slot.state ≠ .free

/-- `used` is the number of the slots that have an exchange. -/
def Counted (st : FastIpcState) : Prop := st.used = census live st.slots

/-- A free slot has the mark of no task. -/
def Marked (st : FastIpcState) : Prop :=
  ∀ i, (st.slots i).state = .free →
    (st.slots i).callerTid = FAST_IPC_SLOT_FREE ∧ (st.slots i).serverTid = FAST_IPC_SLOT_FREE

/-! ## The count -/

theorem live_iff {slot : FastIpcSlot} : live slot = true ↔ slot.state ≠ .free := by
  simp [live]

theorem live_of_ne {slot : FastIpcSlot} (h : slot.state ≠ .free) : live slot = true :=
  live_iff.mpr h

variable {st : FastIpcState} {slot : FastIpcSlot}

/-- A slot that has an exchange is freed. -/
theorem Counted.freeSlot (h : Counted st) {i : Idx} (hi : (st.slots i).state ≠ .free) :
    Counted (st.freeSlot i) := by
  have hcensus := census_update live st.slots i (retired (st.slots i))
  have hretired : live (retired (st.slots i)) = false := rfl
  rw [live_of_ne hi, hretired] at hcensus
  simp only [Bool.toNat_true, Bool.toNat_false, Nat.add_zero] at hcensus
  show st.used - 1 = census live (Function.update st.slots i (retired (st.slots i)))
  rw [h]
  omega

/-- A slot that has an exchange is overwritten by another one that has. -/
theorem Counted.setSlot (h : Counted st) {i : Idx} (hi : (st.slots i).state ≠ .free)
    (hslot : slot.state ≠ .free) :
    Counted (st.setSlot i slot) := by
  have hcensus := census_update live st.slots i slot
  rw [live_of_ne hi, live_of_ne hslot] at hcensus
  show st.used = census live (Function.update st.slots i slot)
  rw [h]
  omega

theorem Counted.foldl_releaseSlot {tid : UInt32} (l : List Idx) {acc : Releasing}
    (h : Counted acc.st) : Counted (l.foldl (releaseSlot tid) acc).st := by
  induction l generalizing acc with
  | nil => exact h
  | cons j l ih =>
    rw [List.foldl_cons]
    apply ih
    rcases releaseSlot_cases tid acc j with ⟨-, heq⟩ | ⟨hfree, orphaned, heq⟩
    · rwa [heq]
    · rw [heq]
      exact h.freeSlot hfree.1

theorem Counted.releaseAll (h : Counted st) (tid : UInt32) :
    Counted (fastIpcReleaseAll st tid).st := by
  unfold fastIpcReleaseAll
  generalize indices = l
  exact Counted.foldl_releaseSlot l h

theorem Counted.perform (h : Counted st) (op : Op) :
    Counted (perform st op).2 := by
  cases op with
  | call caller server words tidExists =>
    simp only [FastIpc.perform, fastIpcCall, allocSlot]
    split_ifs
    · exact h
    · exact h
    · cases hfind : indices.find? fun i => (st.slots i).state = .free with
      | none => exact h
      | some i =>
        have hfree : (st.slots i).state = .free := by simpa using List.find?_some hfind
        have hcensus := census_update live st.slots i
          ⟨caller, server, words, .pending, (st.slots i).generation⟩
        have hold : live (st.slots i) = false := by simp [live, hfree]
        have hnew : live ⟨caller, server, words, .pending, (st.slots i).generation⟩ = true := rfl
        rw [hold, hnew] at hcensus
        have hused : st.used + 1 = census live (Function.update st.slots i
            ⟨caller, server, words, .pending, (st.slots i).generation⟩) := by
          rw [show st.used = census live st.slots from h]
          simpa using hcensus.symm
        exact hused
  | accept server =>
    simp only [FastIpc.perform, fastIpcAccept]
    split
    · exact h
    · rename_i i hfind
      simp only [findPendingForServer] at hfind
      split_ifs at hfind
      have hfound : (st.slots i).state = .pending ∧ (st.slots i).serverTid = server := by
        simpa using List.find?_some hfind
      exact h.setSlot (by simp [hfound.1]) (by simp)
  | reply handle replier privileged words =>
    simp only [FastIpc.perform, fastIpcReply]
    split
    · exact h
    · rename_i i hslot
      split_ifs with hstate hmay hgen
      · exact h
      · exact h
      · exact h
      · exact h.setSlot (by simp [not_not.mp hstate]) (by simp)
  | collect caller =>
    simp only [FastIpc.perform, fastIpcCollect]
    split
    · exact h
    · rename_i i hfind
      simp only [findReplyForCaller] at hfind
      split_ifs at hfind
      have hfound : (st.slots i).state = .replied ∧ (st.slots i).callerTid = caller := by
        simpa using List.find?_some hfind
      exact h.freeSlot (by simp [hfound.1])
  | waitState handle caller => exact h
  | releaseAll tid =>
    simp only [FastIpc.perform]
    exact h.releaseAll tid

theorem counted_after (ops : List Op) : Counted (after new ops) := by
  refine run_invariant Counted (fun _ op h => h.perform op) ?_ ops
  exact ((census_eq_zero_iff live new.slots).mpr fun _ => rfl).symm

theorem Marked.perform (h : Marked st) (op : Op) :
    Marked (perform st op).2 := by
  intro i hfree
  have hchange := change_perform st op i
  generalize (FastIpc.perform st op).2.slots i = slot at hfree hchange
  cases hchange with
  | same => exact h i hfree
  | called caller server words hop hne hold hans => cases hfree
  | accepted hop hpending hans => cases hfree
  | replied handle replier privileged words hop hhandle haccepted hmay hans => cases hfree
  | collected hop hreplied hans => exact ⟨rfl, rfl⟩
  | released tid hop hrel => exact ⟨rfl, rfl⟩

theorem marked_after (ops : List Op) : Marked (after new ops) :=
  run_invariant Marked (fun _ op h => h.perform op) (fun _ _ => ⟨rfl, rfl⟩) ops

/-! ## The clients that are woken -/

/-- The client of the slot waits for the task, and is another one. -/
def Orphans (tid : UInt32) (slot : FastIpcSlot) : Prop :=
  (slot.state = .pending ∨ slot.state = .accepted) ∧ slot.serverTid = tid ∧ slot.callerTid ≠ tid

instance (tid : UInt32) (slot : FastIpcSlot) : Decidable (Orphans tid slot) :=
  inferInstanceAs (Decidable (_ ∧ _))

theorem Orphans.releases {tid : UInt32} (h : Orphans tid slot) :
    Releases tid slot := by
  obtain ⟨hstate, hserver, -⟩ := h
  rcases hstate with hstate | hstate <;> exact ⟨by simp [hstate], .inr ⟨hserver, by simp [hstate]⟩⟩

/-- One turn of the loop reports the handle of a client that waits for the task. -/
theorem orphaned_releaseSlot (tid : UInt32) (acc : Releasing) (i : Idx) :
    (releaseSlot tid acc i).orphaned = acc.orphaned ++
      if Orphans tid (acc.st.slots i) then
        [fastIpcMakeHandle i (acc.st.slots i).generation] else [] := by
  by_cases horphan : Orphans tid (acc.st.slots i)
  · rw [if_pos horphan]
    obtain ⟨hstate, hserver, hcaller⟩ := horphan
    rcases hstate with hstate | hstate <;> simp [releaseSlot, hstate, hserver, hcaller]
  · rw [if_neg horphan, List.append_nil]
    unfold releaseSlot
    dsimp only
    split_ifs with hskip hserver hreplied
    · rfl
    · rfl
    · refine absurd ⟨?_, hserver⟩ horphan
      cases hstate : (acc.st.slots i).state with
      | free => exact absurd (.inl hstate) hskip
      | pending => exact .inl rfl
      | accepted => exact .inr rfl
      | replied => exact absurd hstate hreplied
    · rfl

theorem orphaned_foldl_releaseSlot (tid : UInt32) (l : List Idx) (hl : l.Nodup)
    (acc : Releasing) :
    (l.foldl (releaseSlot tid) acc).orphaned = acc.orphaned ++
      (l.filter fun i => Orphans tid (acc.st.slots i)).map fun i =>
        fastIpcMakeHandle i (acc.st.slots i).generation := by
  induction l generalizing acc with
  | nil => simp
  | cons j l ih =>
    obtain ⟨hj, hl⟩ := List.nodup_cons.mp hl
    -- The turn for `j` leaves the slots of the rest as they are.
    have hrest : ∀ i ∈ l, (releaseSlot tid acc j).st.slots i = acc.st.slots i := by
      intro i hi
      have hij : i ≠ j := fun h => hj (h ▸ hi)
      rcases releaseSlot_cases tid acc j with ⟨-, heq⟩ | ⟨-, orphaned, heq⟩
      · rw [heq]
      · rw [heq, slots_freeSlot, if_neg hij]
    have hfilter : (l.filter fun i => Orphans tid ((releaseSlot tid acc j).st.slots i)) =
        l.filter fun i => Orphans tid (acc.st.slots i) :=
      List.filter_congr fun i hi => by rw [hrest i hi]
    have hmap : ((l.filter fun i => Orphans tid (acc.st.slots i)).map fun i =>
          fastIpcMakeHandle i ((releaseSlot tid acc j).st.slots i).generation) =
        (l.filter fun i => Orphans tid (acc.st.slots i)).map fun i =>
          fastIpcMakeHandle i (acc.st.slots i).generation :=
      List.map_congr_left fun i hi => by rw [hrest i (List.mem_of_mem_filter hi)]
    rw [List.foldl_cons, ih hl, hfilter, hmap, orphaned_releaseSlot]
    by_cases horphan : Orphans tid (acc.st.slots j)
    · simp [horphan]
    · simp [horphan]

/-- The handle of an exchange that has no reply yet is one that its client waits on. -/
theorem waiting_of_live {i : Idx} (hgen : (st.slots i).generation.toNat < GENERATIONS)
    (hstate : (st.slots i).state = .pending ∨ (st.slots i).state = .accepted) :
    fastIpcWaitState st (fastIpcMakeHandle i (st.slots i).generation) (st.slots i).callerTid =
      .waiting := by
  have hhandle : handleGeneration (fastIpcMakeHandle i (st.slots i).generation) =
      (st.slots i).generation := by
    apply UInt64.toNat_inj.mp
    rw [toNat_handleGeneration_make, Nat.mod_eq_of_lt hgen]
  simp only [fastIpcWaitState, fastIpcHandleSlot_make, hhandle]
  rcases hstate with hstate | hstate <;> simp [hstate]

/-! ## The sweep -/

/-- What the sweep for `tid` leaves behind of the table `st`. -/
structure Swept (st : FastIpcState) (tid : UInt32) (done : Releasing) : Prop where
  /-- No slot has the task as its caller.  A free slot has the mark of no task. -/
  caller : ∀ i, (done.st.slots i).callerTid = tid →
    (done.st.slots i).state = .free ∧ tid = FAST_IPC_SLOT_FREE
  /-- The task is the server of replies only. -/
  server : ∀ i, (done.st.slots i).serverTid = tid →
    (done.st.slots i).state = .replied ∨
      (done.st.slots i).state = .free ∧ tid = FAST_IPC_SLOT_FREE
  others : ∀ i, (st.slots i).callerTid ≠ tid → (st.slots i).serverTid ≠ tid →
    done.st.slots i = st.slots i
  used : done.st.used = census live done.st.slots
  /-- The clients of the exchanges without a reply that were freed, in the order of the
  table, with the handles that they wait on. -/
  wakes : done.orphaned =
    (indices.filter fun i =>
      ((st.slots i).state = .pending ∨ (st.slots i).state = .accepted) ∧
        (done.st.slots i).state = .free ∧ (st.slots i).callerTid ≠ tid).map fun i =>
      fastIpcMakeHandle i (st.slots i).generation
  valid : ∀ i, ((st.slots i).state = .pending ∨ (st.slots i).state = .accepted) →
    fastIpcWaitState st (fastIpcMakeHandle i (st.slots i).generation) (st.slots i).callerTid =
      .waiting

/-- An exchange without a reply is freed, and its client is another task, exactly when the
client waits for the task. -/
theorem orphans_iff (st : FastIpcState) (tid : UInt32) (i : Idx) :
    Orphans tid (st.slots i) ↔
      ((st.slots i).state = .pending ∨ (st.slots i).state = .accepted) ∧
        ((fastIpcReleaseAll st tid).st.slots i).state = .free ∧ (st.slots i).callerTid ≠ tid := by
  rw [slots_fastIpcReleaseAll]
  constructor
  · intro h
    rw [if_pos h.releases]
    exact ⟨h.1, rfl, h.2.2⟩
  · rintro ⟨hstate, hfree, hcaller⟩
    split_ifs at hfree with hrel
    · exact ⟨hstate, (hrel.2.resolve_left hcaller).1, hcaller⟩
    · rcases hstate with hstate | hstate <;> rw [hstate] at hfree <;> cases hfree

/-- The sweep of an exit, in every table that the operations lead to. -/
theorem releaseAll_swept (ops : List Op) (tid : UInt32) :
    Swept (after new ops) tid (fastIpcReleaseAll (after new ops) tid) where
  caller i hcaller := by
    have hmarked := marked_after ops i
    rw [slots_fastIpcReleaseAll] at hcaller ⊢
    split_ifs at hcaller ⊢ with hrel
    · exact ⟨rfl, hcaller.symm⟩
    · have hfree : ((after new ops).slots i).state = .free := by
        by_contra hlive
        exact hrel ⟨hlive, .inl hcaller⟩
      exact ⟨hfree, hcaller.symm.trans (hmarked hfree).1⟩
  server i hserver := by
    have hmarked := marked_after ops i
    rw [slots_fastIpcReleaseAll] at hserver ⊢
    split_ifs at hserver ⊢ with hrel
    · exact .inr ⟨rfl, hserver.symm⟩
    · by_cases hfree : ((after new ops).slots i).state = .free
      · exact .inr ⟨hfree, hserver.symm.trans (hmarked hfree).2⟩
      · left
        by_contra hreplied
        exact hrel ⟨hfree, .inr ⟨hserver, hreplied⟩⟩
  others i hcaller hserver := by
    rw [slots_fastIpcReleaseAll, if_neg]
    rintro ⟨-, hc | ⟨hs, -⟩⟩
    · exact hcaller hc
    · exact hserver hs
  used := (counted_after ops).releaseAll tid
  wakes := by
    have hlist := orphaned_foldl_releaseSlot tid indices (List.nodup_finRange _)
      ⟨after new ops, [], 0⟩
    rw [List.nil_append] at hlist
    refine hlist.trans ?_
    simp only [orphans_iff]
  valid i hstate := waiting_of_live (generation_lt i ops) hstate

end RobotOs.Ipc.FastIpc
