import RobotOs.Drivers.VirtioBlk

/-!
# Completions that were posted too early

`blk_rw` polls the used ring once before it submits a request, and takes any
entry there as forged.  An entry whose id is out of range is consumed by the
poll and looks like an empty ring, so that the entries behind it stay for the
request.

A `Posts` says what the device writes during a call: the ring as it is when the
call starts, and what is posted before each poll after the submission.  The ring
is kept with a mark on the slots that were written after the submission
(`MarkedRing`).  The positions that the driver reads are counted from the first
one of the call, so that the 16-bit indices never have to be compared.
-/

namespace RobotOs.Drivers.VirtioBlk

open RobotOs.Lib.Run
open RobotOs.Drivers.Virtio
open RobotOs.Drivers.Virtio.Virtq

/-- The used ring; `late` are the slots that were written after the submission. -/
structure MarkedRing where
  used : VirtqUsed
  late : Nat → Bool

/-- The device posts an entry. -/
def MarkedRing.post (num : Nat) (r : MarkedRing) (elem : VirtqUsedElem) : MarkedRing :=
  let slot := r.used.idx.toNat % num
  ⟨⟨r.used.idx + 1, Function.update r.used.ring slot elem⟩, Function.update r.late slot true⟩

/-- What the device does during a call. -/
structure Posts where
  /-- The used ring when the call starts, with all that was posted until then. -/
  idle : VirtqUsed
  /-- The entries that are posted before each poll, once the request is submitted. -/
  batch : Nat → List VirtqUsedElem
  status : UInt8
  data : Nat → UInt8

namespace Posts

/-- The ring at the poll `j`.  The poll 0 is the one before the submission. -/
def ring (p : Posts) (num : Nat) : Nat → MarkedRing
  | 0 => ⟨p.idle, fun _ => false⟩
  | j + 1 => (p.batch j).foldl (MarkedRing.post num) (p.ring num j)

/-- The number of entries posted after the submission, until the poll `j`. -/
def posted (p : Posts) : Nat → Nat
  | 0 => 0
  | j + 1 => p.posted j + (p.batch j).length

def device (p : Posts) (num : Nat) : Device := ⟨fun j => (p.ring num j).used, p.status, p.data⟩

end Posts

/-! ## The ring -/

/-- What `m` posts after the submission leave of the ring. -/
structure Marks (idle : VirtqUsed) (num : Nat) (r : MarkedRing) (m : Nat) : Prop where
  idx : r.used.idx = idle.idx + UInt16.ofNat m
  late : ∀ t < m, r.late ((idle.idx + UInt16.ofNat t).toNat % num) = true
  kept : ∀ slot, r.late slot = false → r.used.ring slot = idle.ring slot

theorem Marks.post {idle : VirtqUsed} {num m : Nat} {r : MarkedRing} (h : Marks idle num r m)
    (elem : VirtqUsedElem) : Marks idle num (r.post num elem) (m + 1) := by
  refine ⟨?_, fun t ht => ?_, fun slot hslot => ?_⟩
  · show r.used.idx + 1 = _
    rw [h.idx, UInt16.ofNat_add, UInt16.add_assoc]
    rfl
  · show Function.update r.late (r.used.idx.toNat % num) true _ = true
    by_cases hlast : t = m
    · rw [hlast, h.idx, Function.update_self]
    · rw [Function.update_apply]
      split_ifs
      · rfl
      · exact h.late t (by omega)
  · have hslot : Function.update r.late (r.used.idx.toNat % num) true slot = false := hslot
    have hne : slot ≠ r.used.idx.toNat % num := by
      intro heq
      rw [heq, Function.update_self] at hslot
      cases hslot
    rw [Function.update_of_ne hne] at hslot
    show Function.update r.used.ring (r.used.idx.toNat % num) elem slot = _
    rw [Function.update_of_ne hne]
    exact h.kept slot hslot

theorem marks_ring (p : Posts) (num j : Nat) : Marks p.idle num (p.ring num j) (p.posted j) := by
  have hbatch : ∀ (elems : List VirtqUsedElem) {r : MarkedRing} {m : Nat},
      Marks p.idle num r m → Marks p.idle num (elems.foldl (.post num) r) (m + elems.length) := by
    intro elems
    induction elems with
    | nil => exact fun h => h
    | cons elem elems ih =>
      intro r m h
      rw [List.length_cons, Nat.add_comm elems.length 1, ← Nat.add_assoc]
      exact ih (h.post elem)
  induction j with
  | zero =>
    refine ⟨?_, fun t ht => absurd ht (Nat.not_lt_zero t), fun _ _ => rfl⟩
    exact (UInt16.add_zero _).symm
  | succ j ih => exact hbatch (p.batch j) ih

/-! ## What the driver reads -/

/-- A poll finds the ring empty, or it consumes one entry. -/
theorem virtqPoll_cases {vq : Virtq BlkBuf} (hnum : vq.num ≠ 0) (used : VirtqUsed) :
    vq.lastUsedIdx = used.idx ∧ vq.virtqPoll used = (none, vq) ∨
      vq.lastUsedIdx ≠ used.idx ∧ ∃ answer vq', vq.virtqPoll used = (answer, vq') ∧
        vq'.num = vq.num ∧ vq'.lastUsedIdx = vq.lastUsedIdx + 1 ∧ vq'.freeHead = vq.freeHead ∧
        answer = if (used.ring (vq.lastUsedIdx.toNat % vq.num)).id.toNat ≥ vq.num then none
          else some (used.ring (vq.lastUsedIdx.toNat % vq.num)).id.toNat := by
  unfold virtqPoll virtqPollWithLen
  rw [if_neg hnum]
  by_cases hidx : vq.lastUsedIdx = used.idx
  · rw [if_pos hidx]
    exact .inl ⟨hidx, rfl⟩
  · rw [if_neg hidx]
    refine .inr ⟨hidx, _, _, rfl, ?_⟩
    dsimp only
    split_ifs
    · exact ⟨rfl, rfl, rfl, rfl⟩
    · exact ⟨rfl, rfl, rfl, rfl⟩

/-- The driver is at the position `k` of the call, counted from `last`, and has not
passed what is posted. -/
structure At (vq : Virtq BlkBuf) (num : Nat) (last : UInt16) (k : Nat) : Prop where
  num : vq.num = num
  idx : vq.lastUsedIdx = last + UInt16.ofNat k

/-- The entry that ends the loop well. -/
theorem awaitCompletion_reads {p : Posts} {num hdr pending : Nat} {last : UInt16}
    (hnum : num ≠ 0) (hidle : p.idle.idx = last + UInt16.ofNat pending) :
    ∀ (left j k : Nat) (vq : Virtq BlkBuf) {n : Nat} {vq' : Virtq BlkBuf}, At vq num last k →
      k ≤ pending + p.posted j →
      awaitCompletion (fun j => (p.ring num j).used) hdr left j vq = (.ok, n + 1, vq') →
      ∃ k', k ≤ k' ∧ k' < pending + p.posted n ∧ At vq' num last (k' + 1) ∧
        ((p.ring num n).used.ring ((last + UInt16.ofNat k').toNat % num)).id.toNat = hdr := by
  intro left
  induction left with
  | zero => intro j k vq n vq' _ _ h; cases h
  | succ left ih =>
    intro j k vq n vq' hat hk h
    have hgrow : p.posted j ≤ p.posted (j + 1) := Nat.le_add_right _ _
    rw [awaitCompletion] at h
    obtain ⟨hidx, hpoll⟩ | ⟨hidx, answer, vq₁, hpoll, hnum₁, hidx₁, -, hanswer⟩ :=
      virtqPoll_cases (hat.num ▸ hnum) (p.ring num j).used
    · rw [hpoll] at h
      exact ih (j + 1) k vq hat (by omega) h
    · rw [hpoll] at h
      have hnext : At vq₁ num last (k + 1) := by
        refine ⟨hnum₁.trans hat.num, ?_⟩
        rw [hidx₁, hat.idx, UInt16.ofNat_add, UInt16.add_assoc]
        rfl
      -- Equal positions would be equal indices.
      have hlt : k < pending + p.posted j := by
        refine lt_of_le_of_ne hk fun heq => hidx ?_
        rw [(marks_ring p num j).idx, hidle, hat.idx, heq, UInt16.ofNat_add, UInt16.add_assoc]
      rw [hat.num, hat.idx] at hanswer
      by_cases hrange :
          ((p.ring num j).used.ring ((last + UInt16.ofNat k).toNat % num)).id.toNat ≥ num
      · rw [hanswer, if_pos hrange] at h
        obtain ⟨k', hle, hrest⟩ := ih (j + 1) (k + 1) vq₁ hnext (by omega) h
        exact ⟨k', by omega, hrest⟩
      · rw [hanswer, if_neg hrange] at h
        dsimp only at h
        split_ifs at h with hid
        · injection h with _ h
          injection h with hn hvq
          obtain rfl : j = n := by omega
          exact ⟨k, le_refl k, hlt, hvq ▸ hnext, hid⟩
        · cases h

theorem lastUsedIdx_virtqSubmit (vq : Virtq BlkBuf) (head : Nat) :
    (vq.virtqSubmit head).lastUsedIdx = vq.lastUsedIdx := by
  unfold virtqSubmit
  split_ifs
  · rfl
  · rfl

theorem virtqAllocDesc_some {vq vq' : Virtq BlkBuf} {i : Nat}
    (h : vq.virtqAllocDesc = (some i, vq')) :
    i = vq.freeHead ∧ vq'.num = vq.num ∧ vq'.lastUsedIdx = vq.lastUsedIdx := by
  unfold virtqAllocDesc at h
  split_ifs at h
  · cases h
  · cases h
  · obtain ⟨hi, rfl⟩ := Prod.mk.inj h
    exact ⟨(Option.some.inj hi).symm, rfl, rfl⟩

theorem virtqFreeDesc_some {vq vq' : Virtq BlkBuf} {i : Nat} (h : vq.virtqFreeDesc i = some vq') :
    vq'.num = vq.num ∧ vq'.lastUsedIdx = vq.lastUsedIdx := by
  unfold virtqFreeDesc at h
  split_ifs at h
  · exact Option.some.inj h ▸ ⟨rfl, rfl⟩
  · exact Option.some.inj h ▸ ⟨rfl, rfl⟩

/-- A chain starts with the first free descriptor. -/
theorem allocChain_some {vq vq' : Virtq BlkBuf} {hdr data status : Nat}
    (h : allocChain vq = some (some (hdr, data, status), vq')) :
    hdr = vq.freeHead ∧ vq'.num = vq.num ∧ vq'.lastUsedIdx = vq.lastUsedIdx := by
  unfold allocChain at h
  split at h
  · cases h
  · rename_i _ _ vq₁ halloc₁
    split at h
    · obtain ⟨_, _, hnone⟩ := Option.map_eq_some_iff.mp h
      cases hnone
    · rename_i _ _ vq₂ halloc₂
      split at h
      · obtain ⟨_, _, hnone⟩ := Option.map_eq_some_iff.mp h
        cases hnone
      · rename_i _ _ vq₃ halloc₃
        obtain ⟨rfl, hnum₁, hidx₁⟩ := virtqAllocDesc_some halloc₁
        obtain ⟨-, hnum₂, hidx₂⟩ := virtqAllocDesc_some halloc₂
        obtain ⟨-, hnum₃, hidx₃⟩ := virtqAllocDesc_some halloc₃
        simp only [Option.some.injEq, Prod.mk.injEq] at h
        obtain ⟨⟨rfl, -⟩, rfl⟩ := h
        exact ⟨rfl, hnum₃.trans (hnum₂.trans hnum₁), hidx₃.trans (hidx₂.trans hidx₁)⟩

/-! ## Fresh completions -/

/-- How many entries the driver has not consumed. -/
def BlkDev.pending (dev : BlkDev) (used : VirtqUsed) : Nat :=
  (used.idx - dev.vq.lastUsedIdx).toNat

/-- The id of the `k`-th of these entries. -/
def BlkDev.pendingId (dev : BlkDev) (used : VirtqUsed) (k : Nat) : Nat :=
  (used.ring ((dev.vq.lastUsedIdx + UInt16.ofNat k).toNat % dev.vq.num)).id.toNat

/-- The first entry that the call finds is out of range, and one behind it names the
descriptor that the call starts its chain with. -/
def Deceived (dev : BlkDev) (idle : VirtqUsed) : Prop :=
  dev.pendingId idle 0 ≥ dev.vq.num ∧
    ∃ k < dev.pending idle, 0 < k ∧ dev.pendingId idle k = dev.vq.freeHead

/-- A request and what the device does meanwhile. -/
structure Turn where
  sector : Nat
  count : Nat
  write : Bool
  posts : Posts

def BlkDev.serve (dev : BlkDev) (turn : Turn) : Option (Request × BlkDev) :=
  blkRw dev turn.sector turn.count turn.write (turn.posts.device dev.vq.num)

/-- The driver after a request. -/
def BlkDev.next (dev : BlkDev) (turn : Turn) : BlkDev := ((dev.serve turn).map Prod.snd).getD dev

/-- A request that succeeds does so on an entry that was posted after its submission: the
entry of its last poll. -/
def Fresh (dev : BlkDev) (turn : Turn) : Prop :=
  ∀ req dev', dev.serve turn = some (req, dev') → req.ending = .ok →
    (turn.posts.ring dev.vq.num (req.polls - 1)).late
      ((dev'.vq.lastUsedIdx - 1).toNat % dev.vq.num) = true

/-- The success of a request, from the state after its first poll. -/
theorem finish_ok {dev dev' : BlkDev} {device : Device} {write : Bool} {hdr data status : Nat}
    {vq : Virtq BlkBuf} {req : Request}
    (h : finish dev device write hdr data status vq = some (req, dev')) (hok : req.ending = .ok) :
    ∃ vq', awaitCompletion device.used hdr TIMEOUT 1 (vq.virtqSubmit hdr) =
      (.ok, req.polls, vq') ∧ dev'.vq.lastUsedIdx = vq'.lastUsedIdx := by
  unfold finish at h
  dsimp only at h
  split at h
  · rename_i polls vq' hawait
    obtain ⟨vq'', hfree, hout⟩ := Option.map_eq_some_iff.mp h
    obtain ⟨rfl, rfl⟩ := Prod.mk.inj hout
    refine ⟨vq', hawait, ?_⟩
    obtain ⟨vq₁, hfree₁, hfree⟩ := Option.bind_eq_some_iff.mp hfree
    obtain ⟨vq₂, hfree₂, hfree₃⟩ := Option.bind_eq_some_iff.mp hfree
    exact (virtqFreeDesc_some hfree₃).2.trans
      ((virtqFreeDesc_some hfree₂).2.trans (virtqFreeDesc_some hfree₁).2)
  · rename_i hnot _
    obtain ⟨rfl, -⟩ := Prod.mk.inj (Option.some.inj h)
    exact absurd hok hnot

/-- The polls of a loop that ends well are at least one. -/
theorem polls_pos {used : Nat → VirtqUsed} {hdr : Nat} :
    ∀ (left j : Nat) (vq : Virtq BlkBuf) {n : Nat} {vq' : Virtq BlkBuf},
      awaitCompletion used hdr left j vq = (.ok, n, vq') → 0 < n := by
  intro left
  induction left with
  | zero => intro j vq n vq' h; cases h
  | succ left ih =>
    intro j vq n vq' h
    rw [awaitCompletion] at h
    split at h
    · split_ifs at h
      · injection h with _ h
        injection h with hn
        omega
      · cases h
    · exact ih _ _ h

theorem idx_eq_pending (dev : BlkDev) (used : VirtqUsed) :
    used.idx = dev.vq.lastUsedIdx + UInt16.ofNat (dev.pending used) := by
  rw [BlkDev.pending, UInt16.ofNat_toNat, UInt16.add_comm, UInt16.sub_add_cancel]

/-- The first poll of a request that goes on finds nothing, or an entry out of range. -/
theorem first_poll {dev : BlkDev} {used : VirtqUsed} {vq : Virtq BlkBuf} (hnum : dev.vq.num ≠ 0)
    (h : dev.vq.virtqPoll used = (none, vq)) :
    vq.freeHead = dev.vq.freeHead ∧ ∃ k, At vq dev.vq.num dev.vq.lastUsedIdx k ∧
      k ≤ dev.pending used ∧
      (dev.pending used = 0 ∨ 0 < k ∧ dev.pendingId used 0 ≥ dev.vq.num) := by
  have hidle := idx_eq_pending dev used
  obtain ⟨hidx, hpoll⟩ | ⟨hidx, answer, vq', hpoll, hnum', hidx', hhead, hanswer⟩ :=
    virtqPoll_cases hnum used
  · obtain ⟨-, rfl⟩ := Prod.mk.inj (hpoll.symm.trans h)
    have hzero : dev.pending used = 0 := by
      rw [BlkDev.pending, ← hidx, UInt16.sub_self]
      rfl
    exact ⟨rfl, 0, ⟨rfl, (UInt16.add_zero _).symm⟩, Nat.zero_le _, .inl hzero⟩
  · obtain ⟨rfl, rfl⟩ := Prod.mk.inj (hpoll.symm.trans h)
    have hpos : 0 < dev.pending used := by
      refine Nat.pos_of_ne_zero fun hzero => hidx ?_
      rw [hidle, hzero]
      exact (UInt16.add_zero _).symm
    have hrange : dev.pendingId used 0 ≥ dev.vq.num := by
      rw [BlkDev.pendingId, show dev.vq.lastUsedIdx + UInt16.ofNat 0 = dev.vq.lastUsedIdx from
        UInt16.add_zero _]
      by_contra hlt
      rw [if_neg hlt] at hanswer
      cases hanswer
    exact ⟨hhead, 1, ⟨hnum', hidx'⟩, hpos, .inr ⟨one_pos, hrange⟩⟩

/-- A request that succeeds goes through all of `blk_rw`. -/
theorem blkRw_ok {dev dev' : BlkDev} {sector count : Nat} {write : Bool} {device : Device}
    {req : Request} (h : blkRw dev sector count write device = some (req, dev'))
    (hok : req.ending = .ok) :
    dev.vq.num ≠ 0 ∧ ∃ vq hdr vq₁ vq', dev.vq.virtqPoll (device.used 0) = (none, vq) ∧
      hdr = vq.freeHead ∧ vq₁.num = vq.num ∧ vq₁.lastUsedIdx = vq.lastUsedIdx ∧
      awaitCompletion device.used hdr TIMEOUT 1 vq₁ = (.ok, req.polls, vq') ∧
      dev'.vq.lastUsedIdx = vq'.lastUsedIdx := by
  unfold blkRw at h
  by_cases haccepts : dev.Accepts sector count write
  swap
  · rw [if_pos haccepts] at h
    obtain ⟨rfl, -⟩ := Prod.mk.inj (Option.some.inj h)
    cases hok
  rw [if_neg (not_not.mpr haccepts)] at h
  refine ⟨haccepts.2.2.1, ?_⟩
  split at h
  · obtain ⟨rfl, -⟩ := Prod.mk.inj (Option.some.inj h)
    cases hok
  · rename_i vq hpoll
    dsimp only at h
    split at h
    · cases h
    · obtain ⟨rfl, -⟩ := Prod.mk.inj (Option.some.inj h)
      cases hok
    · rename_i hdr data status vq₁ halloc
      obtain ⟨hhdr, hnum, hidx⟩ := allocChain_some halloc
      obtain ⟨vq', hawait, hlast⟩ := finish_ok h hok
      refine ⟨vq, hdr, _, vq', hpoll, hhdr, ?_, ?_, hawait, hlast⟩
      · exact (num_virtqSubmit _ _).trans hnum
      · exact (lastUsedIdx_virtqSubmit _ _).trans hidx

/-- A request that is not deceived by what it finds is fresh. -/
theorem fresh_of_not_deceived {dev : BlkDev} {turn : Turn}
    (hclean : ¬ Deceived dev turn.posts.idle) : Fresh dev turn := by
  intro req dev' hserve hok
  obtain ⟨hnum, vq, hdr, vq₁, vq', hpoll, hhdr, hnum₁, hidx₁, hawait, hlast⟩ := blkRw_ok hserve hok
  have hpoll : dev.vq.virtqPoll turn.posts.idle = (none, vq) := hpoll
  obtain ⟨hhead, k, hat, hk, hfirst⟩ := first_poll hnum hpoll
  have hidle := idx_eq_pending dev turn.posts.idle
  obtain ⟨n, hn⟩ := Nat.exists_eq_add_of_le' (polls_pos _ _ _ hawait)
  rw [hn] at hawait
  have hat₁ : At vq₁ dev.vq.num dev.vq.lastUsedIdx k :=
    ⟨hnum₁.trans hat.num, hidx₁.trans hat.idx⟩
  obtain ⟨k', hle, hlt, hat', hid⟩ := awaitCompletion_reads hnum hidle TIMEOUT 1 k _ hat₁
    (Nat.le_add_right_of_le hk) hawait
  have hslot : dev'.vq.lastUsedIdx - 1 = dev.vq.lastUsedIdx + UInt16.ofNat k' := by
    rw [hlast, hat'.idx, UInt16.ofNat_add, ← UInt16.add_assoc]
    exact UInt16.add_sub_cancel _ _
  rw [hn, Nat.add_sub_cancel, hslot]
  by_contra hlate
  rw [Bool.not_eq_true] at hlate
  have hmarks := marks_ring turn.posts dev.vq.num n
  -- A slot that was not written since is one of the pending positions.
  have hk' : k' < dev.pending turn.posts.idle := by
    by_contra hge
    obtain ⟨t, rfl⟩ := Nat.exists_eq_add_of_le (not_lt.mp hge)
    have hwritten := hmarks.late t (by omega)
    rw [hidle, UInt16.add_assoc, ← UInt16.ofNat_add, hlate] at hwritten
    cases hwritten
  obtain hzero | ⟨hpos, hrange⟩ := hfirst
  · omega
  · refine hclean ⟨hrange, k', hk', by omega, ?_⟩
    rw [BlkDev.pendingId, ← hmarks.kept _ hlate, hid, hhdr, hhead]

/-- In every run whose requests are not deceived, each request is fresh. -/
theorem requests_fresh (dev : BlkDev) (turns : List Turn)
    (hclean : Guarded BlkDev.next (fun dev turn => ¬ Deceived dev turn.posts.idle) dev turns) :
    Guarded BlkDev.next Fresh dev turns :=
  guarded_of_invariant (fun _ => True) (fun _ _ _ h => ⟨fresh_of_not_deceived h, trivial⟩) trivial
    hclean

/-- The device posts an id out of range and then the first descriptor, while the driver is
idle, and nothing later. -/
def staleTurn : Turn :=
  ⟨0, 1, false, ⟨⟨2, fun slot => if slot = 0 then ⟨9, 0⟩ else ⟨0, 0⟩⟩, fun _ => [], 0, fun _ => 0⟩⟩

/-- The first request after `init` succeeds on the second of these entries. -/
theorem stale_completion_succeeds : ∃ dev, init 4 100 = some dev ∧ ¬ Fresh dev staleTurn := by
  have hrun : ((init 4 100).bind fun dev => (dev.serve staleTurn).map fun out =>
      (out.1.ending, (staleTurn.posts.ring dev.vq.num (out.1.polls - 1)).late
        ((out.2.vq.lastUsedIdx - 1).toNat % dev.vq.num))) = some (.ok, false) := by
    decide +kernel
  obtain ⟨dev, hinit, hserve⟩ := Option.bind_eq_some_iff.mp hrun
  obtain ⟨out, hout, hresult⟩ := Option.map_eq_some_iff.mp hserve
  obtain ⟨hok, hlate⟩ := Prod.mk.inj hresult
  refine ⟨dev, hinit, fun hfresh => ?_⟩
  rw [hfresh out.1 out.2 hout hok] at hlate
  cases hlate

/-- An id out of range is there, and the device posts the entry after the submission. -/
def promptTurn : Turn :=
  ⟨0, 1, false, ⟨⟨1, fun slot => if slot = 0 then ⟨9, 0⟩ else ⟨0, 0⟩⟩,
    fun j => if j = 0 then [⟨0, 512⟩] else [], 0, fun _ => 0⟩⟩

theorem requests_fresh_prompt :
    ((init 4 100).bind fun dev => (dev.serve promptTurn).map fun out => out.1.ending) = some .ok ∧
      ∃ dev, init 4 100 = some dev ∧ Guarded BlkDev.next Fresh dev [promptTurn] := by
  refine ⟨by decide +kernel, _, rfl, requests_fresh _ [promptTurn] ⟨?_, trivial⟩⟩
  rintro ⟨-, k, hk, hpos, -⟩
  exact absurd (Nat.lt_one_iff.mp hk) hpos.ne'

end RobotOs.Drivers.VirtioBlk
