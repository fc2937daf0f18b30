import RobotOs.Ipc.CapConfinement
import Mathlib.Data.List.TakeWhile

/-!
# Table ownership

A table of the store belongs to the task that claimed it last.  The log says
which task that is: `ownerOf` is the claimant of the newest claim, and no
task after a reset.  `since` is the part of the log that is newer than the
last claim or reset of a table.

The invariant `Owned` links the three: the recorded owner is the one of the
log, every mint into the table since then was for that owner, and every
occupied slot was filled since then.  A task identity is a task id here, which
is what the scheduler's promise never to reissue an id makes of it.
-/

namespace RobotOs.Ipc.CapStore

open RobotOs.Abi RobotOs.Lib.Run CapTable

variable {tid : UInt32} {held : Held}

variable {n : Nat}

/-! ## What the log says about a table -/

/-- The event empties table `i`. -/
def Event.wipes (i : Fin n) : Event n → Bool
  | .claimed j _ => j == i
  | .reset j _ => j == i
  | _ => false

/-- The event fills the slot `loc`. -/
def Event.fills (loc : Loc n) : Event n → Bool
  | .granted dst _ _ => dst == loc
  | .delegated _ dst _ _ _ => dst == loc
  | _ => false

/-- The event fills the slot `loc` with `held` for the task `tid`. -/
def Event.Mints (e : Event n) (loc : Loc n) (tid : UInt32) (held : Held) : Prop :=
  e = .granted loc tid held ∨ ∃ src grantor, e = .delegated src loc grantor tid held

/-- The events since the last claim or reset of table `i`. -/
def since (i : Fin n) (log : List (Event n)) : List (Event n) :=
  log.takeWhile fun e => !e.wipes i

/-- The owner of table `i` by the newest claim or reset. -/
def ownerOf (i : Fin n) (log : List (Event n)) : UInt32 :=
  match log.find? (Event.wipes i) with
  | some (.claimed _ tid) => tid
  | _ => NO_OWNER

variable {e : Event n} {i : Fin n}

theorem since_cons_of_not_wipes (h : e.wipes i = false) (log : List (Event n)) :
    since i (e :: log) = e :: since i log := by
  simp [since, h]

theorem since_cons_of_wipes (h : e.wipes i = true) (log : List (Event n)) :
    since i (e :: log) = [] := by
  simp [since, h]

theorem ownerOf_cons_of_not_wipes (h : e.wipes i = false) (log : List (Event n)) :
    ownerOf i (e :: log) = ownerOf i log := by
  simp [ownerOf, h]

@[simp] theorem ownerOf_cons_claimed (i : Fin n) (tid : UInt32) (log : List (Event n)) :
    ownerOf i (.claimed i tid :: log) = tid := by
  simp [ownerOf, Event.wipes]

@[simp] theorem ownerOf_cons_reset (i : Fin n) (tid : UInt32) (log : List (Event n)) :
    ownerOf i (.reset i tid :: log) = NO_OWNER := by
  simp [ownerOf, Event.wipes]

theorem wipes_of_mem_since {log : List (Event n)} (h : e ∈ since i log) : e.wipes i = false := by
  simpa using List.mem_takeWhile_imp h

theorem Event.Mints.fills {loc : Loc n} (h : e.Mints loc tid held) : e.fills loc = true := by
  rcases h with rfl | ⟨src, g, rfl⟩ <;> simp [Event.fills]

theorem Event.Mints.not_wipes {loc : Loc n} (h : e.Mints loc tid held) (i : Fin n) :
    e.wipes i = false := by
  rcases h with rfl | ⟨src, g, rfl⟩ <;> rfl

/-- A mint determines its slot, its task and what it put there. -/
theorem Event.Mints.unique {loc loc' : Loc n} {tid' : UInt32} {held' : Held}
    (h : e.Mints loc tid held) (h' : e.Mints loc' tid' held') :
    loc = loc' ∧ tid = tid' ∧ held = held' := by
  rcases h with rfl | ⟨src, g, rfl⟩ <;> rcases h' with h' | ⟨src', g', h'⟩ <;> simp_all

/-- A task that owns a table by the log made its newest claim. -/
theorem log_eq_of_ownerOf {log : List (Event n)} (htid : tid ≠ NO_OWNER) (h : ownerOf i log = tid) :
    ∃ older, log = since i log ++ .claimed i tid :: older := by
  unfold ownerOf at h
  split at h
  · next j u hfind =>
    subst h
    have hj : j = i := by simpa [Event.wipes] using List.find?_some hfind
    subst hj
    obtain ⟨hwipe, recent, older, hlog, hrecent⟩ := List.find?_eq_some_iff_append.mp hfind
    have hsince : since j log = recent := by
      rw [hlog, since, List.takeWhile_append_of_pos hrecent]
      simp [hwipe]
    exact ⟨older, by rw [hsince, hlog]⟩
  · exact absurd h.symm htid

/-! ## The ownership invariant -/

/-- The newest event of the table's time that fills slot `(i, k)` gave `held`
to `tid`. -/
def FilledBy (log : List (Event n)) (i : Fin n) (k : Fin MAX_CAPS_PER_TASK)
    (tid : UInt32) (held : Held) : Prop :=
  ∃ e, (since i log).find? (Event.fills (i, k)) = some e ∧ e.Mints (i, k) tid held

/-- The store agrees with the log about who owns what. -/
structure Owned (s : System n) : Prop where
  owner : ∀ i, s.store.owner i = ownerOf i s.log
  mints : ∀ i, ∀ e ∈ since i s.log, ∀ k tid held, e.Mints (i, k) tid held →
    tid = s.store.owner i
  filled : ∀ i k, ((s.store.tables i).slots k).isOccupied = true →
    FilledBy s.log i k (s.store.owner i) (heldOf ((s.store.tables i).slots k))

/-- Events that neither wipe the table nor fill the slot do not matter. -/
theorem filledBy_cons {log : List (Event n)} {k : Fin MAX_CAPS_PER_TASK} (hwipe : e.wipes i = false)
    (hfill : e.fills (i, k) = false) (h : FilledBy log i k tid held) :
    FilledBy (e :: log) i k tid held := by
  obtain ⟨e', hfind, hmints⟩ := h
  refine ⟨e', ?_, hmints⟩
  rw [since_cons_of_not_wipes hwipe, List.find?_cons_of_neg (by simp [hfill])]
  exact hfind

/-- A mint fills its slot. -/
theorem filledBy_of_mints {k : Fin MAX_CAPS_PER_TASK} (h : e.Mints (i, k) tid held)
    (log : List (Event n)) : FilledBy (e :: log) i k tid held := by
  refine ⟨e, ?_, h⟩
  rw [since_cons_of_not_wipes (h.not_wipes i)]
  simp [h.fills]

/-- A mint into table `i` for its owner keeps the invariant. -/
theorem owned_mint {s : System n} (h : Owned s) {kind : CapKind} {perms : CapPerms}
    {resource : UInt32} {table : CapTable} {handle : CapHandle} {store : Store n}
    (hown : s.store.owner i = tid)
    (hmint : (s.store.tables i).grantRaw kind perms resource = some (table, handle))
    (he : e.Mints (i, slotIdx handle) tid ⟨kind, perms, resource⟩)
    (htables : store.tables = (s.store.setTable i table).tables)
    (howner : store.owner = s.store.owner) : Owned ⟨s.pool, store, e :: s.log⟩ := by
  refine ⟨?_, ?_, ?_⟩
  · intro j
    rw [ownerOf_cons_of_not_wipes (he.not_wipes j), howner]
    exact h.owner j
  · intro j e' he' k tid' held' hm
    simp only [since_cons_of_not_wipes (he.not_wipes j), List.mem_cons] at he'
    simp only [howner]
    rcases he' with rfl | he'
    · obtain ⟨hloc, rfl, -⟩ := he.unique hm
      obtain ⟨rfl, -⟩ := Prod.mk.inj hloc
      exact hown.symm
    · exact h.mints j e' he' k tid' held' hm
  · intro j k hocc
    simp only [htables, howner] at hocc ⊢
    rcases slot_after_mint (j := j) (k := k) hmint with ⟨hloc, hheld⟩ | ⟨hloc, hsame⟩
    · obtain ⟨rfl, rfl⟩ := Prod.ext_iff.mp hloc
      simp only at hheld ⊢
      rw [hheld, hown]
      exact filledBy_of_mints he _
    · rw [hsame] at hocc ⊢
      refine filledBy_cons (he.not_wipes j) ?_ (h.filled j k hocc)
      by_contra hf
      rw [Bool.not_eq_false] at hf
      refine hloc ?_
      rcases he with rfl | ⟨src, g, rfl⟩ <;> simpa [Event.fills] using hf

/-- An event that wipes table `i` alone does not matter to table `j`. -/
theorem owned_other {s : System n} (h : Owned s) {j : Fin n} (hwipe : e.wipes j = false)
    (hfill : ∀ k, e.fills (j, k) = false) {store : Store n}
    (htable : store.tables j = s.store.tables j) (howner : store.owner j = s.store.owner j) :
    store.owner j = ownerOf j (e :: s.log) ∧
      (∀ e' ∈ since j (e :: s.log), ∀ k tid held, e'.Mints (j, k) tid held →
        tid = store.owner j) ∧
      ∀ k, ((store.tables j).slots k).isOccupied = true →
        FilledBy (e :: s.log) j k (store.owner j) (heldOf ((store.tables j).slots k)) := by
  rw [ownerOf_cons_of_not_wipes hwipe, since_cons_of_not_wipes hwipe, htable, howner]
  refine ⟨h.owner j, ?_, fun k hocc => filledBy_cons hwipe (hfill k) (h.filled j k hocc)⟩
  intro e' he' k tid held hm
  rcases List.mem_cons.mp he' with rfl | he'
  · exact absurd hm.fills (by simp [hfill k])
  · exact h.mints j e' he' k tid held hm

/-- A wipe of table `i` keeps the invariant. -/
theorem owned_wipe {s : System n} (h : Owned s) {store : Store n}
    (hwipe : ∀ j, e.wipes j = (i == j)) (hfill : ∀ loc, e.fills loc = false)
    (hempty : store.tables i = CapTable.empty) (hown : store.owner i = ownerOf i (e :: s.log))
    (hother : ∀ j, j ≠ i → store.tables j = s.store.tables j ∧
      store.owner j = s.store.owner j) : Owned ⟨s.pool, store, e :: s.log⟩ := by
  have hi : e.wipes i = true := by simp [hwipe]
  have hcase : ∀ j, j ≠ i → _ := fun j hj =>
    owned_other h (by simp [hwipe, Ne.symm hj]) (fun k => hfill (j, k))
      (hother j hj).1 (hother j hj).2
  refine ⟨?_, ?_, ?_⟩
  · intro j
    by_cases hj : j = i
    · subst hj
      exact hown
    · exact (hcase j hj).1
  · intro j
    by_cases hj : j = i
    · subst hj
      simp [since_cons_of_wipes hi]
    · exact (hcase j hj).2.1
  · intro j
    by_cases hj : j = i
    · subst hj
      simp [hempty]
    · exact (hcase j hj).2.2

/-- Every move keeps the ownership invariant. -/
theorem owned_move (s s' : System n) (h : Owned s) (hmove : Move s s') : Owned s' := by
  cases hmove with
  | schedule pool => exact ⟨h.owner, h.mints, h.filled⟩
  | @claim i tid live =>
    obtain hsame | ⟨ho, hclaim⟩ := s.claim_cases i tid
    · rwa [hsame]
    · rw [hclaim]
      refine owned_wipe h (i := i) (fun j => rfl) (fun loc => rfl) ?_ (by simp) ?_
      · simp [Store.claimSlot, ho]
      · intro j hj
        exact ⟨(s.store.claimSlot_of_ne tid hj).1, (s.store.claimSlot_of_ne tid hj).2.1⟩
  | grant live own mint => exact owned_mint h own mint (.inl rfl) rfl rfl
  | @delegate idxG idxT g t raw handle kind perms want resource table liveG liveT ownG ownT m =>
    refine owned_mint h ownT m.mint (.inr ⟨_, _, rfl⟩) ?_ ?_ <;> split_ifs <;> rfl
  | @revoke i tid T cap live own =>
    refine ⟨h.owner, h.mints, ?_⟩
    intro j k hocc
    have hsame := occupied_after_revoke hocc
    simp only [hsame] at hocc ⊢
    exact h.filled j k hocc
  | @reset i tid live own =>
    refine owned_wipe h (i := i) (fun j => rfl) (fun loc => rfl) (by simp [Store.resetSlot])
      (by simp [Store.resetSlot]) ?_
    intro j hj
    exact ⟨(s.store.resetSlot_of_ne hj).1, (s.store.resetSlot_of_ne hj).2.1⟩

/-- In every run the store agrees with the log about who owns what. -/
theorem owned_run (pool : Pool n) (calls : List (Call n)) :
    Owned (run step (System.boot pool) calls) := by
  refine run_invariant_of_chain Owned step_moves owned_move ⟨fun i => rfl, ?_, ?_⟩ calls
  · simp [System.boot, since]
  · simp [System.boot, Store.fresh]

/-! ## What a task can look up -/

/-- The handle `h` of task `t` names `held`: task `t` has the slot of table
`i`, it made the table's newest claim, the newest mint into the slot since
that claim gave `held` to `t`, and every mint into the table since then was
for `t`. -/
def NamesOwnMint (s : System n) (t : UInt32) (h : CapHandle) (held : Held) : Prop :=
  ∃ i k recent older, resolveOnly s.pool t = some i ∧ Names h k ∧
    s.log = recent ++ .claimed i t :: older ∧ (∀ e ∈ recent, e.wipes i = false) ∧
    (∃ e, recent.find? (Event.fills (i, k)) = some e ∧ e.Mints (i, k) t held) ∧
    ∀ e ∈ recent, ∀ k' u held', e.Mints (i, k') u held' → u = t

/-- A slot that a task hits through its own table was minted for it. -/
theorem namesOwnMint_of_hits {s : System n} (hs : Owned s) {t : UInt32} {h : CapHandle}
    {k : Fin MAX_CAPS_PER_TASK} (hlive : resolveOnly s.pool t = some i)
    (hhit : Hits ((s.store.claimSlot i t).tables i) h k) :
    NamesOwnMint s t h (heldOf (((s.store.claimSlot i t).tables i).slots k)) := by
  obtain ⟨htab, hown⟩ := occupied_after_claim hhit.occupied
  have howner : s.store.owner i = t := hown rfl
  have hocc : ((s.store.tables i).slots k).isOccupied = true := htab ▸ hhit.occupied
  obtain ⟨e, hfind, hmints⟩ := hs.filled i k hocc
  obtain ⟨older, hlog⟩ := log_eq_of_ownerOf (resolveOnly_eq_some hlive).1
    ((hs.owner i).symm.trans howner)
  rw [howner] at hmints
  rw [htab]
  refine ⟨i, k, since i s.log, older, hlive, hhit.names, hlog,
    fun e he => wipes_of_mem_since he, ⟨e, hfind, hmints⟩, ?_⟩
  intro e' he' k' u held' hm
  exact (hs.mints i e' he' k' u held' hm).trans howner

/-- No capability inheritance across task-slot reuse.

In every run: a dereference that succeeds for task `t`, and a delegation that
succeeds for `t` as the grantor, name a capability that was granted or
delegated to `t` after `t` claimed the table, and nothing was minted into the
table for another task since.  A task that finds its table with another owner
resolves no handle at all. -/
theorem no_capability_inheritance (pool : Pool n) (calls : List (Call n)) (t : UInt32) :
    let s := run step (System.boot pool) calls
    (∀ (T : CapTarget) (level : UInt8) (h : CapHandle) (need : CapPerms) (resource : UInt32),
        (get s.pool s.store level t (Cap.fromRaw h : Cap T) need).1 = .ok resource →
        ∃ held, NamesOwnMint s t h held ∧ held.kind = T.KIND ∧
          held.perms.contains need = true ∧ held.resource = resource) ∧
      (∀ (target : UInt32) (h handle : CapHandle) (want : CapPerms),
        (delegate s.pool s.store t target h want).1 = .ok handle →
        ∃ held, NamesOwnMint s t h held ∧ held.perms.contains want = true) ∧
      ∀ i, resolveOnly s.pool t = some i → s.store.owner i ≠ t →
        ∀ (T : CapTarget) (level : UInt8) (h : CapHandle) (need : CapPerms),
          (get s.pool s.store level t (Cap.fromRaw h : Cap T) need).1 = .error .stale := by
  intro s
  have hs : Owned s := owned_run pool calls
  refine ⟨?_, ?_, ?_⟩
  · intro T level h need resource hok
    unfold get slotFor at hok
    cases hlive : resolveOnly s.pool t with
    | none => simp [hlive] at hok
    | some i =>
      simp only [hlive] at hok
      obtain ⟨k, hhit, hkind, hperms, -, hres⟩ := get_eq_ok_iff.mp hok
      exact ⟨_, namesOwnMint_of_hits hs hlive hhit, hkind, hperms, hres.symm⟩
  · intro target h handle want hok
    rcases delegate_cases s.pool s.store t target h want with
      ⟨-, e, he⟩ | ⟨idxG, idxT, -, hg, ht, hiff, ⟨e, he⟩ | ⟨_, _, _, _, _, hminted, -⟩⟩
    · simp [he] at hok
    · simp [he] at hok
    · -- The claim of the target's slot does not touch the grantor's table.
      have htable : (claimPair s.store idxG idxT t target).tables idxG =
          (s.store.claimSlot idxG t).tables idxG := by
        unfold claimPair
        split_ifs with hne
        · exact ((s.store.claimSlot idxG t).claimSlot_of_ne target (Ne.symm hne)).1
        · rfl
      have hsrc := hminted.source
      rw [htable] at hsrc
      obtain ⟨k, hhit, -, hinfo⟩ := inspectRaw_eq_ok_iff.mp hsrc
      simp only [Prod.mk.injEq] at hinfo
      have hsub := hminted.sub
      rw [hinfo.2.1] at hsub
      exact ⟨_, namesOwnMint_of_hits hs hg hhit, hsub⟩
  · intro i hlive hne T level h need
    simp [get, slotFor, hlive, Store.claimSlot, hne, CapTable.get]

end RobotOs.Ipc.CapStore
