import RobotOs.Lib.Run
import RobotOs.Lib.Tally
import RobotOs.Ipc.IoRing

/-!
# The pages of the rings

How long the page of a ring lives, over whole runs of `io_ring.rs`.  A page stands
for one call of `alloc_page` that succeeded: the pages are numbered in the order of
these calls, so that a frame which the allocator hands out again is a new page.

A claim is open from `claim_ring` to its `release_ring`.  It knows the ring id and
the page it got.  The release knows the ring id only.

A page is held by an active ring, or by an open claim.  `Settled` says that a page is
returned exactly when it is not held, and then once.  `io_ring_create` takes an entry
of the table that is not active.  When that entry is orphaned, a claim on it is still
open, and its page is forgotten.  `Vacant` is the condition that this does not happen.
-/

namespace RobotOs.Ipc.IoRing

open RobotOs.Lib.Run RobotOs.Lib.Tally

/-- An open claim. -/
structure Claim where
  ringId : UInt32
  page : Nat
  deriving DecidableEq, Repr

/-- The table, the number of pages so far, the pages returned, and the open claims. -/
structure Pages where
  rings : Rings
  next : Nat
  returned : List Nat
  claims : List Claim

/-- The state at boot. -/
def Pages.init : Pages := ⟨fun _ => .empty, 0, [], []⟩

variable {s : Pages} {i : Fin MAX_IO_RINGS} {ring : IoRingState}

/-- A call.  `granted` is whether `alloc_page` finds a frame. -/
inductive Act where
  | create (caller : UInt32) (privileged granted : Bool)
  | destroy (ringId : UInt32)
  | claim (ringId : UInt32)
  | close (c : Claim)
  | releaseAll (tid : UInt32)
  deriving DecidableEq, Repr

namespace Pages

/-- `io_ring_create`. -/
def create (s : Pages) (caller : UInt32) (privileged granted : Bool) : Pages :=
  if granted then
    let out := ioRingCreate s.rings caller.toNat privileged (some s.next)
    { s with rings := out.2.2, next := s.next + 1, returned := s.returned ++ out.2.1 }
  else s

/-- `claim_ring`. -/
def claim (s : Pages) (ringId : UInt32) : Pages :=
  let out := claimRing s.rings ringId
  match out.1 with
  | none => s
  | some (page, _, _) => { s with rings := out.2, claims := s.claims ++ [⟨ringId, page⟩] }

def step (s : Pages) : Act → Pages
  | .create caller privileged granted => s.create caller privileged granted
  | .destroy ringId =>
    let out := ioRingDestroy s.rings ringId
    { s with rings := out.2.2, returned := s.returned ++ out.2.1 }
  | .claim ringId => s.claim ringId
  | .close c =>
    if c ∈ s.claims then
      let out := releaseRing s.rings c.ringId
      { s with rings := out.2, returned := s.returned ++ out.1, claims := s.claims.erase c }
    else s
  | .releaseAll tid =>
    let out := ioRingReleaseAll s.rings tid
    { s with rings := out.2, returned := s.returned ++ out.1 }

end Pages

/-- An active ring or an open claim has the page. -/
def Held (s : Pages) (page : Nat) : Prop :=
  (∃ i, (s.rings i).active = true ∧ (s.rings i).physAddr = page) ∨ ∃ c ∈ s.claims, c.page = page

instance (s : Pages) (page : Nat) : Decidable (Held s page) :=
  inferInstanceAs (Decidable (_ ∨ _))

/-- A page is returned once when it is not held, and not before. -/
def Settled (s : Pages) : Prop :=
  ∀ page < s.next, s.returned.count page = if Held s page then 0 else 1

/-- The end of a claim leaves the rings with other pages alone. -/
def CloseLocal (s : Pages) : Prop :=
  ∀ c ∈ s.claims, ∀ i, (s.rings i).physAddr ≠ c.page →
    (s.step (.close c)).rings i = s.rings i

/-- The entry that a creation takes is not orphaned. -/
def Vacant (s : Pages) : Act → Prop
  | .create _ _ granted =>
    (!granted || ((List.finRange MAX_IO_RINGS).find? fun i => !(s.rings i).active).all
      fun i => !(s.rings i).orphaned) = true
  | _ => True

instance (s : Pages) : ∀ act, Decidable (Vacant s act)
  | .create _ _ _ => inferInstanceAs (Decidable (_ = true))
  | .destroy _ => inferInstanceAs (Decidable True)
  | .claim _ => inferInstanceAs (Decidable True)
  | .close _ => inferInstanceAs (Decidable True)
  | .releaseAll _ => inferInstanceAs (Decidable True)

/-- A task exits with a claim open on its ring, and another task creates one.  Then the
first page is lost, and the end of the first claim lets the second page go under a claim. -/
theorem orphan_taken :
    let s := run Pages.step Pages.init
      [.create 1 false true, .claim 0, .releaseAll 1, .create 2 false true, .claim 0, .close ⟨0, 0⟩]
    (¬ Held s 0 ∧ s.returned.count 0 = 0) ∧
      (⟨0, 1⟩ ∈ (s.step (.destroy 0)).claims ∧ 1 ∈ (s.step (.destroy 0)).returned) := by
  decide +kernel

/-! ## The invariant -/

/-- The entry has a page: its ring is active, or a claim is still open. -/
def occupied (ring : IoRingState) : Bool := ring.active || ring.orphaned

def hasPage (page : Nat) (ring : IoRingState) : Bool := occupied ring && ring.physAddr == page

/-- An orphaned ring is in flight and not active, and only an occupied one is in flight. -/
structure RingSound (ring : IoRingState) : Prop where
  orphan : ring.orphaned = true → ring.active = false ∧ ring.inFlight = true
  busy : ring.inFlight = true → occupied ring = true

/-- Every page is in one entry or was returned once, and the open claims are those that
the entries in flight know. -/
structure Sound (s : Pages) : Prop where
  rings : ∀ i, RingSound (s.rings i)
  balanced : ∀ page, census (hasPage page) s.rings + s.returned.count page =
    if page < s.next then 1 else 0
  claimed : ∀ c ∈ s.claims, ∃ i, entry c.ringId = some i ∧ (s.rings i).inFlight = true ∧
    (s.rings i).physAddr = c.page
  known : ∀ i, (s.rings i).inFlight = true → ∃ c ∈ s.claims, entry c.ringId = some i
  distinct : (s.claims.map Claim.ringId).Nodup

theorem entry_inj {ringId ringId' : UInt32} (h : entry ringId = some i)
    (h' : entry ringId' = some i) : ringId = ringId' := by
  unfold entry at h h'
  split_ifs at h h'
  have hval := congrArg Fin.val (Option.some.inj (h.trans h'.symm))
  exact UInt32.toNat_inj.mp hval

theorem ringSound_empty : RingSound .empty := ⟨by decide, by decide⟩

theorem rings_update {rings : Rings} (h : ∀ i, RingSound (rings i)) (hring : RingSound ring)
    (j : Fin MAX_IO_RINGS) : RingSound (Function.update rings i ring j) := by
  rcases eq_or_ne j i with rfl | hne
  · rw [Function.update_self]
    exact hring
  · rw [Function.update_of_ne hne]
    exact h j

theorem hasPage_empty (page : Nat) : hasPage page .empty = false := rfl

/-- A claim does not see a write of another entry. -/
theorem Sound.claimed_update (h : Sound s) (ring : IoRingState) {c : Claim} (hc : c ∈ s.claims)
    (hother : entry c.ringId ≠ some i) :
    ∃ j, entry c.ringId = some j ∧ (Function.update s.rings i ring j).inFlight = true ∧
      (Function.update s.rings i ring j).physAddr = c.page := by
  obtain ⟨j, hentry, hbusy, hpage⟩ := h.claimed c hc
  have hne : j ≠ i := by
    rintro rfl
    exact hother hentry
  exact ⟨j, hentry, by rwa [Function.update_of_ne hne], by rwa [Function.update_of_ne hne]⟩

/-- No claim is open on an entry that is not in flight. -/
theorem Sound.entry_ne_of_idle (h : Sound s) (hidle : (s.rings i).inFlight = false) {c : Claim}
    (hc : c ∈ s.claims) :
    entry c.ringId ≠ some i := by
  intro hentry
  obtain ⟨j, hentry', hbusy, -⟩ := h.claimed c hc
  obtain rfl := Option.some.inj (hentry'.symm.trans hentry)
  rw [hidle] at hbusy
  cases hbusy

theorem Sound.known_update (h : Sound s) (hidle : ring.inFlight = false) (j : Fin MAX_IO_RINGS)
    (hbusy : (Function.update s.rings i ring j).inFlight = true) :
    j ≠ i ∧ ∃ c ∈ s.claims, entry c.ringId = some j := by
  have hne : j ≠ i := by
    rintro rfl
    rw [Function.update_self, hidle] at hbusy
    cases hbusy
  rw [Function.update_of_ne hne] at hbusy
  exact ⟨hne, h.known j hbusy⟩

/-- A write that moves a page between its entry, the pages returned and the new pages. -/
theorem Sound.balanced_update (h : Sound s) (freed : List Nat) (page got : Nat)
    (hmove : (hasPage page ring).toNat + freed.count page =
      (hasPage page (s.rings i)).toNat + got) :
    census (hasPage page) (Function.update s.rings i ring) + (s.returned ++ freed).count page =
      (if page < s.next then 1 else 0) + got := by
  have hold := h.balanced page
  have hupdate := census_update (hasPage page) s.rings i ring
  rw [List.count_append]
  omega

/-- The pages after one more. -/
theorem lt_next_succ (page next : Nat) :
    (if page < next + 1 then 1 else 0) = (if page < next then 1 else 0) + (next == page).toNat := by
  rcases Nat.lt_trichotomy page next with hlt | rfl | hgt
  · have hne : (next == page) = false := beq_false_of_ne (by omega)
    rw [if_pos (by omega), if_pos hlt, hne]
    rfl
  · simp
  · have hne : (next == page) = false := beq_false_of_ne (by omega)
    rw [if_neg (by omega), if_neg (by omega), hne]
    rfl

/-- A page in an occupied entry. -/
theorem toNat_hasPage (h : occupied ring = true) (page : Nat) :
    (hasPage page ring).toNat = [ring.physAddr].count page := by
  rw [hasPage, h, Bool.true_and, List.count_singleton]
  cases ring.physAddr == page <;> rfl

/-! ## The calls -/

theorem Sound.create (h : Sound s) {caller : UInt32} {privileged granted : Bool}
    (hvacant : Vacant s (.create caller privileged granted)) :
    Sound (s.create caller privileged granted) := by
  unfold Pages.create
  split_ifs with hgranted
  swap
  · exact h
  simp only [Vacant, hgranted, Bool.not_true, Bool.false_or] at hvacant
  simp only [ioRingCreate]
  split
  next hfull =>
    -- No entry is free, and the page goes back at once.
    refine ⟨h.rings, fun page => ?_, h.claimed, h.known, h.distinct⟩
    have hold := h.balanced page
    rw [lt_next_succ, List.count_append, List.count_singleton]
    cases s.next == page <;> simp <;> omega
  next i hfind =>
    have hinactive : (s.rings i).active = false := by simpa using List.find?_some hfind
    have hfree : occupied (s.rings i) = false := by
      rw [hfind] at hvacant
      simp [occupied, hinactive, by simpa using hvacant]
    have hidle : (s.rings i).inFlight = false := by
      by_contra hbusy
      rw [Bool.not_eq_false] at hbusy
      rw [(h.rings i).busy hbusy] at hfree
      cases hfree
    refine ⟨rings_update h.rings ⟨by simp, by simp⟩, fun page => ?_,
      fun _ hc => h.claimed_update _ hc (h.entry_ne_of_idle hidle hc),
      fun j hbusy => (h.known_update rfl j hbusy).2, h.distinct⟩
    rw [lt_next_succ]
    refine h.balanced_update [] page _ ?_
    have hbefore : hasPage page (s.rings i) = false := by rw [hasPage, hfree, Bool.false_and]
    rw [hbefore]
    simp [hasPage, occupied]

/-- An entry that is idle gives its page back. -/
theorem Sound.destroy (h : Sound s) (ringId : UInt32) :
    Sound (s.step (.destroy ringId)) := by
  simp only [Pages.step, ioRingDestroy]
  split
  · rw [List.append_nil]
    exact h
  next i hentry =>
    split_ifs with hrefused
    · rw [List.append_nil]
      exact h
    obtain ⟨hactive, hidle⟩ : (s.rings i).active = true ∧ (s.rings i).inFlight = false := by
      simpa using hrefused
    refine ⟨rings_update h.rings ringSound_empty, fun page => ?_,
      fun _ hc => h.claimed_update _ hc (h.entry_ne_of_idle hidle hc),
      fun j hbusy => (h.known_update rfl j hbusy).2, h.distinct⟩
    refine h.balanced_update _ page 0 ?_
    rw [hasPage_empty, toNat_hasPage (by simp [occupied, hactive])]
    exact Nat.zero_add _

theorem Sound.claim (h : Sound s) (ringId : UInt32) : Sound (s.claim ringId) := by
  unfold Pages.claim
  simp only [claimRing]
  cases hentry : entry ringId with
  | none => exact h
  | some i =>
    dsimp only
    split_ifs with hrefused
    · exact h
    obtain ⟨hactive, hidle⟩ : (s.rings i).active = true ∧ (s.rings i).inFlight = false := by
      simpa using hrefused
    dsimp only
    have horphan : (s.rings i).orphaned = false := by
      by_contra horphan
      rw [Bool.not_eq_false] at horphan
      rw [((h.rings i).orphan horphan).1] at hactive
      cases hactive
    refine ⟨rings_update h.rings ⟨by simp [horphan], fun _ => by simp [occupied, hactive]⟩,
      fun page => ?_, fun c hc => ?_, fun j hbusy => ?_, ?_⟩
    · have hkept : hasPage page { s.rings i with inFlight := true } = hasPage page (s.rings i) :=
        rfl
      rw [← List.append_nil s.returned]
      exact h.balanced_update [] page 0 (by rw [hkept]; rfl)
    · rcases List.mem_append.mp hc with hold | hnew
      · exact h.claimed_update _ hold (h.entry_ne_of_idle hidle hold)
      · rw [List.mem_singleton.mp hnew]
        refine ⟨i, hentry, ?_⟩
        simp
    · dsimp only at hbusy ⊢
      rcases eq_or_ne j i with rfl | hne
      · exact ⟨⟨ringId, (s.rings j).physAddr⟩, by simp, hentry⟩
      · rw [Function.update_of_ne hne] at hbusy
        obtain ⟨c, hc, hentry'⟩ := h.known j hbusy
        exact ⟨c, List.mem_append_left _ hc, hentry'⟩
    · rw [List.map_append, List.map_singleton]
      refine List.Nodup.append h.distinct (List.nodup_singleton _) ?_
      rw [List.disjoint_singleton]
      intro hmem
      obtain ⟨c, hc, rfl⟩ := List.mem_map.mp hmem
      exact h.entry_ne_of_idle hidle hc hentry

/-- The end of a claim that the entry knows. -/
theorem Sound.close (h : Sound s) (c : Claim) : Sound (s.step (.close c)) := by
  simp only [Pages.step]
  split_ifs with hmem
  swap
  · exact h
  obtain ⟨i, hentry, hbusy, hpage⟩ := h.claimed c hmem
  have hnodup : s.claims.Nodup := h.distinct.of_map
  have hother : ∀ c' ∈ s.claims.erase c, c' ∈ s.claims ∧ entry c'.ringId ≠ some i := by
    intro c' hc'
    obtain ⟨hne, hc'⟩ := (hnodup.mem_erase_iff).mp hc'
    refine ⟨hc', fun hentry' => hne ?_⟩
    exact List.inj_on_of_nodup_map h.distinct hc' hmem (entry_inj hentry' hentry)
  have hknown : ∀ ring : IoRingState, ring.inFlight = false → ∀ j,
      (Function.update s.rings i ring j).inFlight = true →
      ∃ c' ∈ s.claims.erase c, entry c'.ringId = some j := by
    intro ring hidle j hj
    obtain ⟨hji, c', hc', hentry'⟩ := h.known_update hidle j hj
    refine ⟨c', hnodup.mem_erase_iff.mpr ⟨?_, hc'⟩, hentry'⟩
    rintro rfl
    exact hji (Option.some.inj (hentry'.symm.trans hentry))
  have hdistinct : ((s.claims.erase c).map Claim.ringId).Nodup :=
    h.distinct.sublist (List.erase_sublist.map _)
  simp only [releaseRing, hentry]
  split_ifs with horphan
  · refine ⟨rings_update h.rings ringSound_empty, fun page => ?_,
      fun c' hc' => h.claimed_update _ (hother c' hc').1 (hother c' hc').2, hknown _ rfl, hdistinct⟩
    refine h.balanced_update _ page 0 ?_
    rw [hasPage_empty, toNat_hasPage ((h.rings i).busy hbusy)]
    exact Nat.zero_add _
  · refine ⟨rings_update h.rings ⟨fun ho => absurd ho horphan, fun hb => by cases hb⟩,
      fun page => ?_, fun c' hc' => h.claimed_update _ (hother c' hc').1 (hother c' hc').2,
      hknown _ rfl, hdistinct⟩
    exact h.balanced_update [] page 0 rfl

/-- The exit of a task at one entry. -/
theorem toNat_hasPage_releaseEntry (tid : UInt32) (page : Nat) (ring : IoRingState) :
    (hasPage page (releaseEntry tid ring)).toNat +
        (decide (Leaves tid ring ∧ !ring.inFlight) && ring.physAddr == page).toNat =
      (hasPage page ring).toNat := by
  by_cases hleaves : Leaves tid ring
  · have hactive := hleaves.1
    cases hbusy : ring.inFlight <;> simp [releaseEntry, hleaves, hbusy, hasPage, occupied, hactive,
      IoRingState.empty]
  · simp [releaseEntry, hleaves]

theorem RingSound.releaseEntry (h : RingSound ring) (tid : UInt32) :
    RingSound (releaseEntry tid ring) := by
  unfold IoRing.releaseEntry
  split_ifs with hleaves hbusy
  · exact ⟨fun _ => ⟨rfl, hbusy⟩, fun _ => rfl⟩
  · exact ringSound_empty
  · exact h

theorem inFlight_releaseEntry (tid : UInt32) (ring : IoRingState) :
    (releaseEntry tid ring).inFlight = ring.inFlight := by
  unfold releaseEntry
  split_ifs with hleaves hbusy
  · rfl
  · exact (Bool.eq_false_iff.mpr hbusy).symm
  · rfl

theorem physAddr_releaseEntry (tid : UInt32) (hbusy : ring.inFlight = true) :
    (releaseEntry tid ring).physAddr = ring.physAddr := by
  simp only [releaseEntry, hbusy, if_true]
  split_ifs <;> rfl

theorem Sound.releaseAll (h : Sound s) (tid : UInt32) :
    Sound (s.step (.releaseAll tid)) := by
  simp only [Pages.step, ioRingReleaseAll]
  refine ⟨fun i => (h.rings i).releaseEntry tid, fun page => ?_, fun c hc => ?_, fun i hbusy => ?_,
    h.distinct⟩
  · have hold := h.balanced page
    have hfreed : (((List.finRange MAX_IO_RINGS).filter fun i =>
        Leaves tid (s.rings i) ∧ !(s.rings i).inFlight).map fun i => (s.rings i).physAddr).count
          page = census (fun ring => decide (Leaves tid ring ∧ !ring.inFlight) &&
            ring.physAddr == page) s.rings := by
      rw [← countP_finRange, List.count, List.countP_map, List.countP_filter]
      congr 1
      funext i
      exact Bool.and_comm _ _
    have hmove : census (hasPage page) (fun i => IoRing.releaseEntry tid (s.rings i)) +
        census (fun ring => decide (Leaves tid ring ∧ !ring.inFlight) && ring.physAddr == page)
          s.rings = census (hasPage page) s.rings := by
      simp only [census, total, ← Finset.sum_add_distrib]
      exact Finset.sum_congr rfl fun i _ => toNat_hasPage_releaseEntry tid page (s.rings i)
    rw [List.count_append, hfreed]
    dsimp only
    omega
  · obtain ⟨i, hentry, hbusy, hpage⟩ := h.claimed c hc
    exact ⟨i, hentry, (inFlight_releaseEntry tid _).trans hbusy,
      (physAddr_releaseEntry tid hbusy).trans hpage⟩
  · exact h.known i ((inFlight_releaseEntry tid _).symm.trans hbusy)

theorem Sound.step (h : Sound s) {act : Act} (hvacant : Vacant s act) : Sound (s.step act) := by
  cases act with
  | create caller privileged granted => exact h.create hvacant
  | destroy ringId => exact h.destroy ringId
  | claim ringId => exact h.claim ringId
  | close c => exact h.close c
  | releaseAll tid => exact h.releaseAll tid

theorem sound_init : Sound Pages.init where
  rings _ := ringSound_empty
  balanced page := by
    have hnone : census (hasPage page) Pages.init.rings = 0 :=
      (census_eq_zero_iff _ _).mpr fun _ => rfl
    rw [hnone]
    rfl
  claimed c hc := absurd hc (List.not_mem_nil)
  known i hbusy := by cases hbusy
  distinct := List.nodup_nil

/-! ## The result -/

theorem Sound.hasPage_of_claim (h : Sound s) {c : Claim} (hc : c ∈ s.claims) :
    ∃ i, hasPage c.page (s.rings i) = true := by
  obtain ⟨i, -, hbusy, hpage⟩ := h.claimed c hc
  exact ⟨i, by simp [hasPage, (h.rings i).busy hbusy, hpage]⟩

/-- The pages of the entries are the pages that are held. -/
theorem Sound.held_iff (h : Sound s) (page : Nat) :
    Held s page ↔ ∃ i, hasPage page (s.rings i) = true := by
  constructor
  · rintro (⟨i, hactive, rfl⟩ | ⟨c, hc, rfl⟩)
    · exact ⟨i, by simp [hasPage, occupied, hactive]⟩
    · exact h.hasPage_of_claim hc
  · rintro ⟨i, hi⟩
    simp only [hasPage, occupied, Bool.and_eq_true, Bool.or_eq_true, beq_iff_eq] at hi
    obtain ⟨hactive | horphan, rfl⟩ := hi
    · exact .inl ⟨i, hactive, rfl⟩
    · obtain ⟨c, hc, hentry⟩ := h.known i ((h.rings i).orphan horphan).2
      obtain ⟨j, hentry', -, hpage⟩ := h.claimed c hc
      obtain rfl := Option.some.inj (hentry'.symm.trans hentry)
      exact .inr ⟨c, hc, hpage.symm⟩

theorem Sound.settled (h : Sound s) : Settled s := by
  intro page hpage
  have hbalanced := h.balanced page
  rw [if_pos hpage] at hbalanced
  split_ifs with hheld
  · obtain ⟨i, hi⟩ := (h.held_iff page).mp hheld
    have hle := toNat_le_census (hasPage page) s.rings i
    rw [hi, Bool.toNat_true] at hle
    omega
  · have hnone : census (hasPage page) s.rings = 0 := by
      refine (census_eq_zero_iff _ _).mpr fun i => ?_
      by_contra hi
      exact hheld ((h.held_iff page).mpr ⟨i, by simpa using hi⟩)
    omega

theorem Sound.closeLocal (h : Sound s) : CloseLocal s := by
  intro c hc j hj
  obtain ⟨i, hentry, -, hpage⟩ := h.claimed c hc
  have hne : j ≠ i := by
    rintro rfl
    exact hj hpage
  simp only [Pages.step, if_pos hc, releaseRing, hentry]
  split_ifs <;> exact Function.update_of_ne hne _ _

/-- In every run whose creations take no orphaned entry, a page is returned once, when no
ring and no claim has it, and the end of a claim touches its own ring only. -/
theorem pages_settled (acts : List Act) (hok : Guarded Pages.step Vacant Pages.init acts) :
    Settled (run Pages.step Pages.init acts) ∧ CloseLocal (run Pages.step Pages.init acts) :=
  have hsound := run_invariant_of_guarded Sound (fun _ _ h hvacant => h.step hvacant) sound_init hok
  ⟨hsound.settled, hsound.closeLocal⟩

theorem pages_settled_exit :
    let acts : List Act := [.create 1 false true, .claim 0, .releaseAll 1, .close ⟨0, 0⟩,
      .create 2 false true, .claim 0]
    Guarded Pages.step Vacant Pages.init acts ∧ Settled (run Pages.step Pages.init acts) :=
  ⟨by decide +kernel, (pages_settled _ (by decide +kernel)).1⟩

end RobotOs.Ipc.IoRing
