import RobotOs.Lib.Framing
import RobotOs.Mm.Cow

/-!
# Copies between the kernel and a task

`copy_from_user`, `copy_to_user` and `copy_cstr_from_user` of `process.rs` for a task with a
page table, over `translate_user` of `vmm.rs`.  A fault is an addition that overflows.

A copy says what it does to memory as a list of `Transfer`s, one for each page.  The walk of an
address does not see its bits above 38, so that an address stands for the page that its low 39
bits select.

`Confined` says that a transfer stays in a frame that the page table maps for the task with a
permission.  `copies_confined` is the statement about the three functions: a large page is
aligned, so that no sum overflows.
-/

namespace RobotOs.Sched.UserCopy

open RobotOs.Mm RobotOs.Mm.PageTable RobotOs.Lib.Untrusted
open RobotOs.Lib.Framing (Bytes)

/-- The last step of `user_leaf_ok`. -/
def leafAddr (s : Space) (va : Nat) (found : Pte × Nat) : Attempt (Space × Option Nat) := do
  let pa ← unchecked 64 (found.1.physAddr + va % found.2)
  return (s, some pa)

/-- The walk of `user_leaf_ok` after a copy. -/
def afterCow (s : Space) (va : Nat) : Attempt (Space × Option Nat) :=
  match s.table.leaf va with
  | none => .ok (s, none)
  | some found => if found.1.flags.write then leafAddr s va found else .ok (s, none)

/-- `translate_user` with `user_leaf_ok`. -/
def translateUser (s : Space) (va : Nat) (write : Bool) : Attempt (Space × Option Nat) :=
  match s.table.leaf va with
  | none => .ok (s, none)
  | some found =>
    if !found.1.flags.user || !found.1.flags.read then .ok (s, none)
    else if write && !found.1.flags.write then
      if found.1.flags.cow then
        match s.handleCowFault va with
        | none => .ok (s, none)
        | some s' => afterCow s' va
      else .ok (s, none)
    else leafAddr s va found

/-- A part of a copy: `len` bytes at a virtual and a physical address. -/
structure Transfer where
  va : Nat
  pa : Nat
  len : Nat
  deriving DecidableEq, Repr

/-- The bytes of the memory at `pa`. -/
def readBytes (ram : Nat → UInt8) (pa len : Nat) : Bytes :=
  (List.range len).map fun i => ram (pa + i)

/-- The memory with `data` at `pa`. -/
def writeBytes (ram : Nat → UInt8) (pa : Nat) (data : Bytes) : Nat → UInt8 :=
  fun addr => if pa ≤ addr ∧ addr < pa + data.length then data.getD (addr - pa) 0 else ram addr

/-- What a loop returns: whether it got to the end, the memory, and the transfers. -/
structure Copied where
  ok : Bool
  space : Space
  log : List Transfer

/-- The memory after a part of `copy_to_user`.  Without `data` it is a part of `copy_from_user`. -/
def Space.store (s : Space) (data : Option Bytes) (pa moved chunk : Nat) : Space :=
  match data with
  | none => s
  | some bytes => { s with ram := writeBytes s.ram pa ((bytes.drop moved).take chunk) }

/-- The loop of `copy_from_user`, and with `data` the one of `copy_to_user`.  A round moves at
least one byte, so that `len - rest` rounds are enough. -/
def copyLoop (data : Option Bytes) (ptr len : Nat) : Nat → Nat → Space → Attempt Copied
  | 0, _, s => .ok ⟨true, s, []⟩
  | fuel + 1, moved, s =>
    if len ≤ moved then .ok ⟨true, s, []⟩
    else do
      let va ← unchecked 64 (ptr + moved)
      let out ← translateUser s va data.isSome
      match out.2 with
      | none => return ⟨false, out.1, []⟩
      | some pa =>
        let chunk := min (PAGE_SIZE - va % PAGE_SIZE) (len - moved)
        let rest ← copyLoop data ptr len fuel (moved + chunk)
          (Space.store out.1 data pa moved chunk)
        return { rest with log := ⟨va, pa, chunk⟩ :: rest.log }

/-- The tests before the loop. -/
def copyUser (data : Option Bytes) (ptr len : Nat) (s : Space) : Attempt Copied :=
  if len = 0 then .ok ⟨true, s, []⟩
  else if ptr + len ≥ 2 ^ 64 then .ok ⟨false, s, []⟩
  else copyLoop data ptr len len 0 s

/-- `copy_from_user`.  The bytes are those of the transfers. -/
def copyFromUser (s : Space) (userSrc len : Nat) : Attempt (Copied × Bytes) := do
  let out ← copyUser none userSrc len s
  return (out, out.log.flatMap fun t => readBytes s.ram t.pa t.len)

/-- `copy_to_user`. -/
def copyToUser (s : Space) (userDst : Nat) (kernelSrc : Bytes) : Attempt Copied :=
  copyUser (some kernelSrc) userDst kernelSrc.length s

/-- The walk of `copy_cstr_from_user` at the start and at the end of a page: the address of the
next byte, and the bytes that are left in its page. -/
def placeAt (s : Space) (va : Nat) (place : Nat × Nat) : Attempt (Option (Nat × Nat)) :=
  if place.2 ≠ 0 then .ok (some place)
  else if va ≥ 2 ^ 64 then .ok none
  else do
    let out ← translateUser s va false
    return out.2.map fun pa => (pa, PAGE_SIZE - va % PAGE_SIZE)

/-- The loops of `copy_cstr_from_user`, with the room that is left, the bytes that were copied,
and the place in the page. -/
def cstrLoop (s : Space) (userPtr : Nat) :
    Nat → Bytes → Nat × Nat → Attempt (Option Bytes × List Transfer)
  | 0, _, _ => .ok (none, [])
  | room + 1, string, place => do
    let place ← placeAt s (userPtr + string.length) place
    match place with
    | none => return (none, [])
    | some place =>
      let addr ← unchecked 64 place.1
      let read : Transfer := ⟨userPtr + string.length, addr, 1⟩
      if s.ram addr = 0 then return (some string, [read])
      else
        let rest ← cstrLoop s userPtr room (string ++ [s.ram addr]) (place.1 + 1, place.2 - 1)
        return (rest.1, read :: rest.2)

/-- `copy_cstr_from_user`: the bytes before the terminator. -/
def copyCstrFromUser (s : Space) (dstLen userPtr : Nat) : Attempt (Option Bytes × List Transfer) :=
  cstrLoop s userPtr dstLen [] (0, 0)

/-! ## What a copy may do -/

/-- The page table maps the address for the task, readable or also writable. -/
def Mapped (pt : PageTable) (write : Bool) (va : Nat) : Prop :=
  ∃ found, pt.leaf va = some found ∧ found.1.flags.user = true ∧ found.1.flags.read = true ∧
    (write = true → found.1.flags.write = true)

/-- The transfer is in one frame, at the place of its address in a page of the task. -/
def Confined (pt : PageTable) (write : Bool) (t : Transfer) : Prop :=
  ∃ found, pt.leaf t.va = some found ∧ found.1.flags.user = true ∧ found.1.flags.read = true ∧
    (write = true → found.1.flags.write = true) ∧ t.pa = found.1.physAddr + t.va % found.2 ∧
    t.va % PAGE_SIZE + t.len ≤ PAGE_SIZE ∧ t.pa % PAGE_SIZE + t.len ≤ PAGE_SIZE

/-- The pages that are mapped with the permission stay as they are. -/
def Stays (write : Bool) (pt pt' : PageTable) : Prop :=
  ∀ va found, pt.leaf va = some found → (write = true → found.1.flags.write = true) →
    pt'.leaf va = some found

variable {write : Bool} {va pa : Nat} {s s' : Space} {pt : PageTable}

theorem Stays.refl (write : Bool) (pt : PageTable) : Stays write pt pt := fun _ _ h _ => h

theorem Stays.trans {pt' pt'' : PageTable} (h : Stays write pt pt') (h' : Stays write pt' pt'') :
    Stays write pt pt'' := by
  intro va found hleaf hwrite
  exact h' va found (h va found hleaf hwrite) hwrite

/-- An address that `translate_user` returns is the one of a page with the permission. -/
def At (pt : PageTable) (write : Bool) (va pa : Nat) : Prop :=
  ∃ found, pt.leaf va = some found ∧ found.1.flags.user = true ∧ found.1.flags.read = true ∧
    (write = true → found.1.flags.write = true) ∧ pa = found.1.physAddr + va % found.2

theorem leafAddr_eq {found : Pte × Nat} (hleaf : s.table.leaf va = some found) :
    leafAddr s va found = .ok (s, some (found.1.physAddr + va % found.2)) := by
  have hfits := physAddr_add_mod_lt (leaf_eq_some_iff.mp hleaf).1 va
  rw [leafAddr, unchecked, if_pos hfits]
  rfl

/-- A copy of a page leaves the pages that can be written. -/
theorem stays_handleCowFault {found : Pte × Nat} (hleaf : s.table.leaf va = some found)
    (hwrite : found.1.flags.write = false) (hcow : s.handleCowFault va = some s') :
    Stays true s.table s'.table ∧ ∃ frame,
      s'.table.leaf va = some (Pte.new frame found.1.flags.broken, PAGE_SIZE) := by
  obtain ⟨-, pte, frame, frames, hwalk, htakes, -, rfl⟩ :=
    (Space.handleFault_eq_some_iff (.inl ⟨rfl, rfl⟩)).mp hcow
  have hvalid : pte.isValid = true := (Handler.takes_cow_iff.mp htakes).1.1
  obtain ⟨hwalk', -⟩ := leaf_eq_some_iff.mp hleaf
  rw [hwalk] at hwalk'
  obtain rfl := Option.some.inj hwalk'
  refine ⟨?_, frame, leaf_eq_some_iff.mpr
    ⟨walk_setLeaf_self _ hwalk, hvalid⟩⟩
  intro va' found' hleaf' hwrite'
  obtain ⟨hwalk', hvalid'⟩ := leaf_eq_some_iff.mp hleaf'
  by_cases hpage : SamePage va va'
  · -- The page that is copied could not be written.
    rw [walk_eq_of_samePage _ hpage, hwalk] at hwalk'
    obtain rfl := Option.some.inj hwalk'
    rw [hwrite] at hwrite'
    cases hwrite' rfl
  · have hsame := (walk_setLeaf va' (Pte.new frame pte.flags.broken) hwalk).2 hpage
    exact leaf_eq_some_iff.mpr ⟨hsame.trans hwalk', hvalid'⟩

/-- `translate_user` does not overflow, and returns addresses of the task's pages. -/
theorem translateUser_spec (s : Space) (va : Nat) (write : Bool) :
    ∃ s' r, translateUser s va write = .ok (s', r) ∧ Stays write s.table s'.table ∧
      (write = false → s' = s) ∧ ∀ pa, r = some pa → At s'.table write va pa := by
  have hrefused : ∃ s' r, (.ok (s, none) : Attempt (Space × Option Nat)) = .ok (s', r) ∧
      Stays write s.table s'.table ∧ (write = false → s' = s) ∧
      ∀ pa, r = some pa → At s'.table write va pa :=
    ⟨s, none, rfl, .refl write _, fun _ => rfl, fun pa hpa => by cases hpa⟩
  unfold translateUser
  split
  · exact hrefused
  next found hleaf =>
  split
  · exact hrefused
  next hperm =>
  simp only [Bool.or_eq_true, Bool.not_eq_true', not_or, Bool.not_eq_false] at hperm
  obtain ⟨huser, hread⟩ := hperm
  split
  · next hneeds =>
    simp only [Bool.and_eq_true, Bool.not_eq_true'] at hneeds
    obtain ⟨rfl, hwrite⟩ := hneeds
    split
    · split
      · exact hrefused
      next s' hcow =>
      obtain ⟨hstays, frame, hleaf'⟩ := stays_handleCowFault hleaf hwrite hcow
      have hok : afterCow s' va = .ok (s', some ((Pte.new frame found.1.flags.broken).physAddr +
          va % PAGE_SIZE)) := by
        rw [afterCow, hleaf']
        exact leafAddr_eq hleaf'
      refine ⟨s', _, hok, hstays, ?_, ?_⟩
      · intro hfalse
        cases hfalse
      · intro pa hpa
        obtain rfl := Option.some.inj hpa
        exact ⟨_, hleaf', huser, hread, fun _ => rfl, rfl⟩
    · exact hrefused
  · next hneeds =>
    refine ⟨s, _, leafAddr_eq hleaf, .refl write _, fun _ => rfl, ?_⟩
    intro pa hpa
    obtain rfl := Option.some.inj hpa
    refine ⟨found, hleaf, huser, hread, ?_, rfl⟩
    rintro rfl
    simpa using hneeds

/-- A part of a page at an address of a page is confined. -/
theorem At.confined {len : Nat} (h : At pt write va pa) (hlen : va % PAGE_SIZE + len ≤ PAGE_SIZE) :
    Confined pt write ⟨va, pa, len⟩ := by
  obtain ⟨found, hleaf, huser, hread, hwrite, rfl⟩ := h
  refine ⟨found, hleaf, huser, hread, hwrite, rfl, hlen, ?_⟩
  -- The frame starts at a page, and the size of the page is a multiple of 4 KiB.
  have hdvd := page_dvd_size (leaf_eq_some_iff.mp hleaf).1
  have hmod : (found.1.physAddr + va % found.2) % PAGE_SIZE = va % PAGE_SIZE := by
    rw [Nat.add_mod, Nat.mod_eq_zero_of_dvd found.1.dvd_physAddr, Nat.mod_mod_of_dvd va hdvd,
      Nat.zero_add, Nat.mod_mod]
  exact hmod ▸ hlen

theorem At.mapped {va' : Nat} (h : At pt write va pa) (hpage : va' / PAGE_SIZE = va / PAGE_SIZE) :
    Mapped pt write va' := by
  obtain ⟨found, hleaf, huser, hread, hwrite, -⟩ := h
  have hsame := walk_eq_of_samePage pt (samePage_of_div_eq hpage)
  exact ⟨found, (leaf_congr hsame).trans hleaf, huser, hread, hwrite⟩

theorem At.stays {pt' : PageTable} (h : At pt write va pa) (hstays : Stays write pt pt') :
    At pt' write va pa := by
  obtain ⟨found, hleaf, huser, hread, hwrite, hpa⟩ := h
  exact ⟨found, hstays va found hleaf hwrite, huser, hread, hwrite, hpa⟩

/-- What a copy of `[lo, hi)` has done: the task's pages only, and all of them when it succeeds. -/
structure CopyOk (write : Bool) (s : Space) (lo hi : Nat) (out : Copied) : Prop where
  stays : Stays write s.table out.space.table
  same : write = false → out.space = s
  confined : ∀ t ∈ out.log, Confined out.space.table write t
  mapped : out.ok = true → ∀ va, lo ≤ va → va < hi → Mapped out.space.table write va

/-- A copy that has not moved a byte. -/
theorem CopyOk.of_nil {ok : Bool} {lo hi : Nat}
    (hstays : Stays write s.table s'.table) (hsame : write = false → s' = s)
    (hend : ok = true → hi ≤ lo) : CopyOk write s lo hi ⟨ok, s', []⟩ where
  stays := hstays
  same := hsame
  confined t ht := by cases ht
  mapped hok va hlo hhi := by
    have hle := hend hok
    omega

/-- A part of a copy changes no page table. -/
theorem store_eq (s : Space) (data : Option Bytes) (pa moved chunk : Nat) :
    (Space.store s data pa moved chunk).table = s.table ∧
      (data.isSome = false → Space.store s data pa moved chunk = s) := by
  cases data with
  | none => exact ⟨rfl, fun _ => rfl⟩
  | some bytes =>
    refine ⟨rfl, ?_⟩
    intro hfalse
    cases hfalse

theorem copyLoop_spec (data : Option Bytes) {ptr len : Nat} (hwrap : ptr + len < 2 ^ 64) :
    ∀ fuel moved s, len ≤ moved + fuel →
      ∃ out, copyLoop data ptr len fuel moved s = .ok out ∧
        CopyOk data.isSome s (ptr + moved) (ptr + len) out := by
  intro fuel
  induction fuel with
  | zero =>
    intro moved s hfuel
    exact ⟨_, rfl, .of_nil (.refl _ _) (fun _ => rfl) fun _ => by omega⟩
  | succ fuel ih =>
    intro moved s hfuel
    rw [copyLoop]
    split
    · exact ⟨_, rfl, .of_nil (.refl _ _) (fun _ => rfl) fun _ => by omega⟩
    next hmore =>
    obtain ⟨s₁, r, htrans, hstays, hsame, hat⟩ :=
      translateUser_spec s (ptr + moved) data.isSome
    have hfits : ptr + moved < 2 ^ 64 := by omega
    rw [unchecked, if_pos hfits, ok_bind, htrans, ok_bind]
    cases r with
    | none => exact ⟨_, rfl, .of_nil hstays hsame fun hfalse => by cases hfalse⟩
    | some pa =>
      have hmod : (ptr + moved) % PAGE_SIZE < PAGE_SIZE := Nat.mod_lt _ (by decide)
      dsimp only
      generalize hchunk : min (PAGE_SIZE - (ptr + moved) % PAGE_SIZE) (len - moved) = chunk
      obtain ⟨htable, hread⟩ := store_eq s₁ data pa moved chunk
      obtain ⟨out, hout, hok⟩ := ih (moved + chunk) (Space.store s₁ data pa moved chunk)
        (by omega)
      rw [hout, ok_bind]
      have hfirst : At out.space.table data.isSome (ptr + moved) pa :=
        (hat pa rfl).stays (htable ▸ hok.stays)
      refine ⟨_, rfl, hstays.trans (htable ▸ hok.stays), ?_, ?_, ?_⟩
      · intro hfalse
        rw [← hsame hfalse, ← hread hfalse]
        exact hok.same hfalse
      · intro t ht
        obtain rfl | ht := List.mem_cons.mp ht
        · apply hfirst.confined
          omega
        · exact hok.confined t ht
      · intro hdone va hlo hhi
        by_cases hin : va < ptr + moved + chunk
        · apply hfirst.mapped
          simp only [PAGE_SIZE] at hchunk hmod ⊢
          omega
        · exact hok.mapped hdone va (by omega) hhi

theorem copyUser_spec (data : Option Bytes) (ptr len : Nat) (s : Space) :
    ∃ out, copyUser data ptr len s = .ok out ∧ CopyOk data.isSome s ptr (ptr + len) out ∧
      (out.ok = true → len = 0 ∨ ptr + len < 2 ^ 64) := by
  rw [copyUser]
  split
  · next hzero =>
    exact ⟨_, rfl, .of_nil (.refl _ _) (fun _ => rfl) fun _ => by omega, fun _ => .inl hzero⟩
  split
  · exact ⟨_, rfl, .of_nil (.refl _ _) (fun _ => rfl) fun hfalse => (by cases hfalse),
      fun hfalse => by cases hfalse⟩
  · next hwrap =>
    obtain ⟨out, hout, hok⟩ := copyLoop_spec data (not_le.mp hwrap) len 0 s (by omega)
    exact ⟨out, hout, hok, fun _ => .inr (not_le.mp hwrap)⟩

/-- The place in the page is the one of the next byte. -/
def Place (s : Space) (va : Nat) (place : Nat × Nat) : Prop :=
  At s.table false va place.1 ∧ place.2 = PAGE_SIZE - va % PAGE_SIZE ∧ va < 2 ^ 64

theorem placeAt_spec {place : Nat × Nat} (hplace : place.2 ≠ 0 → Place s va place) :
    ∃ next, placeAt s va place = .ok next ∧ ∀ found, next = some found → Place s va found := by
  rw [placeAt]
  split
  · next hrest =>
    refine ⟨_, rfl, ?_⟩
    intro found hfound
    obtain rfl := Option.some.inj hfound
    exact hplace hrest
  split
  · exact ⟨none, rfl, fun found hfound => by cases hfound⟩
  · next hwrap =>
    obtain ⟨s₁, r, htrans, -, hsame, hat⟩ := translateUser_spec s va false
    obtain rfl := hsame rfl
    rw [htrans, ok_bind]
    refine ⟨_, rfl, ?_⟩
    intro found hfound
    obtain ⟨pa, hpa, rfl⟩ := Option.map_eq_some_iff.mp hfound
    exact ⟨hat pa hpa, rfl, not_le.mp hwrap⟩

/-- The next byte of the page. -/
theorem Place.next {place : Nat × Nat} (h : Place s va place) (hmore : place.2 - 1 ≠ 0) :
    Place s (va + 1) (place.1 + 1, place.2 - 1) := by
  obtain ⟨⟨found, hleaf, huser, hread, hwrite, hpa⟩, hrest, hlt⟩ := h
  have hpage : (va + 1) / PAGE_SIZE = va / PAGE_SIZE := by
    simp only [PAGE_SIZE] at *
    omega
  have hsame := walk_eq_of_samePage s.table (samePage_of_div_eq hpage)
  refine ⟨⟨found, (leaf_congr hsame).trans hleaf, huser, hread, hwrite, ?_⟩, ?_, ?_⟩
  · obtain ⟨k, hk⟩ := page_dvd_size (leaf_eq_some_iff.mp hleaf).1
    rw [hpa, hk, Nat.add_assoc, Nat.mod_mul, Nat.mod_mul, hpage]
    simp only [PAGE_SIZE] at *
    omega
  all_goals
    simp only [PAGE_SIZE] at *
    omega

theorem At.lt (h : At pt write va pa) : pa < 2 ^ 64 := by
  obtain ⟨found, hleaf, -, -, -, rfl⟩ := h
  exact physAddr_add_mod_lt (leaf_eq_some_iff.mp hleaf).1 va

theorem cstrLoop_spec (s : Space) (userPtr : Nat) :
    ∀ room string place, (place.2 ≠ 0 → Place s (userPtr + string.length) place) →
      ∃ r log, cstrLoop s userPtr room string place = .ok (r, log) ∧
        (∀ t ∈ log, Confined s.table false t) ∧
        ∀ bytes, r = some bytes → bytes.length < string.length + room ∧
          ∀ i, string.length ≤ i → i ≤ bytes.length →
            userPtr + i < 2 ^ 64 ∧ Mapped s.table false (userPtr + i) := by
  intro room
  induction room with
  | zero =>
    intro string place _
    exact ⟨none, [], rfl, fun t ht => (by cases ht), fun bytes hbytes => by cases hbytes⟩
  | succ room ih =>
    intro string place hplace
    obtain ⟨next, heq, hfound⟩ := placeAt_spec hplace
    rw [cstrLoop, heq, ok_bind]
    cases next with
    | none => exact ⟨none, [], rfl, fun t ht => (by cases ht), fun bytes hbytes => by cases hbytes⟩
    | some found =>
      have hnow := hfound found rfl
      have hmod : (userPtr + string.length) % PAGE_SIZE < PAGE_SIZE := Nat.mod_lt _ (by decide)
      have hbyte : Confined s.table false ⟨userPtr + string.length, found.1, 1⟩ :=
        hnow.1.confined (by omega)
      dsimp only
      rw [unchecked, if_pos hnow.1.lt, ok_bind]
      split
      · refine ⟨_, _, rfl, ?_, ?_⟩
        · intro t ht
          obtain rfl := List.mem_singleton.mp ht
          exact hbyte
        · intro bytes hbytes
          obtain rfl := Option.some.inj hbytes
          refine ⟨by omega, fun i hlo hhi => ?_⟩
          obtain rfl := Nat.le_antisymm hhi hlo
          exact ⟨hnow.2.2, hnow.1.mapped rfl⟩
      · obtain ⟨r, log, hout, hlog, hread⟩ := ih (string ++ [s.ram found.1])
          (found.1 + 1, found.2 - 1) (by simpa [Nat.add_assoc] using hnow.next)
        rw [hout, ok_bind]
        refine ⟨_, _, rfl, ?_, ?_⟩
        · intro t ht
          obtain rfl | ht := List.mem_cons.mp ht
          · exact hbyte
          · exact hlog t ht
        · intro bytes hbytes
          obtain ⟨hlt, hrange⟩ := hread bytes hbytes
          rw [List.length_append, List.length_singleton] at hlt hrange
          refine ⟨by omega, fun i hlo hhi => ?_⟩
          by_cases hfirst : i = string.length
          · rw [hfirst]
            exact ⟨hnow.2.2, hnow.1.mapped rfl⟩
          · exact hrange i (by omega) hhi

/-! ## The three functions -/

/-- No addition overflows; reads and writes are in frames of the task with the permission; a copy
that succeeds did not wrap and had such a page at every address, up to the terminator of a string;
and a string is shorter than its destination. -/
theorem copies_confined (s : Space) :
    (∀ userSrc len, ∃ out bytes, copyFromUser s userSrc len = .ok (out, bytes) ∧
      (∀ t ∈ out.log, Confined s.table false t) ∧
      (out.ok = true → (len = 0 ∨ userSrc + len < 2 ^ 64) ∧
        ∀ va, userSrc ≤ va → va < userSrc + len → Mapped s.table false va)) ∧
    (∀ userDst kernelSrc, ∃ out, copyToUser s userDst kernelSrc = .ok out ∧
      (∀ t ∈ out.log, Confined out.space.table true t) ∧
      (out.ok = true → (kernelSrc.length = 0 ∨ userDst + kernelSrc.length < 2 ^ 64) ∧
        ∀ va, userDst ≤ va → va < userDst + kernelSrc.length → Mapped out.space.table true va)) ∧
    ∀ dstLen userPtr, ∃ r log, copyCstrFromUser s dstLen userPtr = .ok (r, log) ∧
      (∀ t ∈ log, Confined s.table false t) ∧
      ∀ bytes, r = some bytes → bytes.length < dstLen ∧
        ∀ i ≤ bytes.length, userPtr + i < 2 ^ 64 ∧ Mapped s.table false (userPtr + i) := by
  refine ⟨?_, ?_, ?_⟩
  · intro userSrc len
    obtain ⟨out, hout, hok, hrange⟩ := copyUser_spec none userSrc len s
    have hsame := hok.same rfl
    refine ⟨out, _, by rw [copyFromUser, hout]; rfl, ?_, ?_⟩
    · intro t ht
      rw [← hsame]
      exact hok.confined t ht
    · intro hdone
      refine ⟨hrange hdone, ?_⟩
      rw [← hsame]
      exact hok.mapped hdone
  · intro userDst kernelSrc
    obtain ⟨out, hout, hok, hrange⟩ := copyUser_spec (some kernelSrc) userDst kernelSrc.length s
    exact ⟨out, hout, hok.confined, fun hdone => ⟨hrange hdone, hok.mapped hdone⟩⟩
  · intro dstLen userPtr
    obtain ⟨r, log, hout, hlog, hread⟩ := cstrLoop_spec s userPtr dstLen [] (0, 0)
      fun hfalse => absurd rfl hfalse
    refine ⟨r, log, hout, hlog, ?_⟩
    intro bytes hbytes
    simpa using hread bytes hbytes

/-- The addresses that the processor translates: the bits above 38 are as bit 38. -/
def Canonical (va : Nat) : Prop := va < 2 ^ 38 ∨ 2 ^ 64 - 2 ^ 38 ≤ va

/-- The process with one page. -/
def onePageSpace : Space := ⟨.onePage, fun _ => 7, []⟩

/-- An address that the processor does not translate is taken for the one of its low 39 bits. -/
theorem copies_alias : ¬ Canonical (2 ^ 39 + 65536) ∧
    ∃ out, copyFromUser onePageSpace (2 ^ 39 + 65536) 1 = .ok (out, [7]) ∧ out.ok = true := by
  refine ⟨?_, ⟨true, onePageSpace, [⟨2 ^ 39 + 65536, 8192, 1⟩]⟩, rfl, rfl⟩
  unfold Canonical
  decide

end RobotOs.Sched.UserCopy
