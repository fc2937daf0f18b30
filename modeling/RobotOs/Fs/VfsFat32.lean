import RobotOs.Fs.Vfs

/-!
# Writing a file of a FAT32 volume

A file in the root of a volume is opened, written through the descriptor, and closed.  `View` is
what the descriptor shows of its inode, and `Shows.vfsWrite` says that one call of `vfs_write` is
one step of it.

With `O_CREAT` `vfs_open` does not look for the file: it starts from an empty inode, and the close
puts what was written in the place of the file.  The close frees the clusters of the old file before
it takes new ones, and drops the error of a full volume.  `onDisk_iff` says when the file is still
the old one with the written bytes in it.
-/

namespace RobotOs.Fs.Vfs

open RobotOs.Lib.Untrusted
open RobotOs.Lib.Framing (Bytes)

/-! ## What a descriptor shows -/

/-- The file behind a descriptor, the position of the descriptor, and the mark for the close. -/
structure View where
  contents : Bytes
  pos : Nat
  dirty : Bool

namespace View

variable (append : Bool) (v : View)

/-- Where the next write goes. -/
def start : Nat := if append then v.contents.length else v.pos

/-- A write is refused, or the bytes are all put in. -/
def write (buf : Bytes) (heap : Bool) : View :=
  if v.start append + buf.length < 2 ^ 32 ∧
      (v.start append + buf.length ≤ v.contents.length ∨ heap = true) then
    ⟨State.overwrite v.contents (v.start append) buf, v.start append + buf.length, true⟩
  else { v with pos := v.start append }

/-- The writes of a list, and the bytes that the position moved over. -/
def writeAll (v : View) : List (Bytes × Bool) → View × Bytes
  | [] => (v, [])
  | w :: ws =>
    let v' := v.write append w.1 w.2
    let out := writeAll v' ws
    (out.1, w.1.take (v'.pos - v.start append) ++ out.2)

end View

/-- The writes that a file takes which was empty at first: the sizes fit, and there is memory for
more than nothing. -/
def accepted (pos : Nat) : List (Bytes × Bool) → List Bytes
  | [] => []
  | w :: ws =>
    if pos + w.1.length < 2 ^ 32 ∧ (w.1 = [] ∨ w.2 = true) then
      w.1 :: accepted (pos + w.1.length) ws
    else accepted pos ws

namespace View

variable {append : Bool} {v : View}

theorem write_cases (append : Bool) (v : View) (buf : Bytes) (heap : Bool) :
    v.write append buf heap = { v with pos := v.start append } ∨
      v.write append buf heap =
        ⟨State.overwrite v.contents (v.start append) buf, v.start append + buf.length, true⟩ := by
  unfold write
  split_ifs
  · exact .inr rfl
  · exact .inl rfl

theorem length_overwrite {data : Bytes} (buf : Bytes) {pos : Nat} (h : pos ≤ data.length) :
    (State.overwrite data pos buf).length = max data.length (pos + buf.length) := by
  simp only [State.overwrite, List.length_append, List.length_take, List.length_drop]
  omega

/-- In append mode the written bytes come behind the old ones. -/
theorem contents_append (ws : List (Bytes × Bool)) :
    (v.writeAll true ws).1.contents = v.contents ++ (v.writeAll true ws).2 := by
  induction ws generalizing v with
  | nil => simp [writeAll]
  | cons w ws ih =>
    simp only [writeAll, ih]
    obtain heq | heq := write_cases true v w.1 w.2
    · simp [heq, start]
    · simp [heq, start, State.overwrite]

/-- Otherwise they take the place of what is behind the position. -/
theorem contents_overwrite (hpos : v.pos ≤ v.contents.length) (ws : List (Bytes × Bool)) :
    (v.writeAll false ws).1.contents = v.contents.take v.pos ++ (v.writeAll false ws).2 ++
      v.contents.drop (v.pos + (v.writeAll false ws).2.length) := by
  induction ws generalizing v with
  | nil => simp [writeAll]
  | cons w ws ih =>
    simp only [writeAll]
    obtain heq | heq := write_cases false v w.1 w.2
    · rw [heq]
      simpa [start] using ih (v := { v with pos := v.pos }) hpos
    · have hlen := length_overwrite w.1 hpos
      have hfront : (State.overwrite v.contents v.pos w.1).take (v.pos + w.1.length) =
          v.contents.take v.pos ++ w.1 := by
        rw [State.overwrite, List.take_left']
        simp [hpos]
      have hback : ∀ n, (State.overwrite v.contents v.pos w.1).drop (v.pos + (w.1.length + n)) =
          v.contents.drop (v.pos + (w.1.length + n)) := by
        intro n
        rw [State.overwrite, ← Nat.add_assoc, ← List.drop_drop, List.drop_left' (by simp [hpos]),
          List.drop_drop]
      rw [heq]
      rw [ih (by simp only [start, Bool.false_eq_true, if_false]; omega)]
      simp only [start, Bool.false_eq_true, if_false, hfront, hback, Nat.add_sub_cancel_left,
        List.take_length, List.length_append, List.append_assoc, Nat.add_assoc]

/-- A file without the mark has not been written. -/
theorem writeAll_of_not_dirty (ws : List (Bytes × Bool))
    (h : (v.writeAll append ws).1.dirty = false) :
    v.dirty = false ∧ (v.writeAll append ws).2 = [] := by
  induction ws generalizing v with
  | nil => exact ⟨h, rfl⟩
  | cons w ws ih =>
    simp only [writeAll] at h ⊢
    obtain ⟨hclean, hnone⟩ := ih h
    obtain heq | heq := write_cases append v w.1 w.2
    · rw [heq] at hclean hnone ⊢
      simpa [hnone] using hclean
    · rw [heq] at hclean
      exact absurd hclean (by simp)

/-- A file that is written at its end only. -/
theorem writeAll_of_pos_eq (append : Bool) (hpos : v.pos = v.contents.length)
    (ws : List (Bytes × Bool)) :
    (v.writeAll append ws).2 = (accepted v.pos ws).flatten ∧
      ((v.writeAll append ws).1.dirty = true ↔ v.dirty = true ∨ accepted v.pos ws ≠ []) := by
  induction ws generalizing v with
  | nil => simp [writeAll, accepted]
  | cons w ws ih =>
    have hstart : v.start append = v.pos := by
      simp [start, hpos]
    simp only [writeAll, accepted, hstart]
    have hfits : v.pos + w.1.length ≤ v.contents.length ↔ w.1 = [] := by
      rw [hpos, ← List.length_eq_zero_iff]
      omega
    simp only [write, hstart, hfits]
    split_ifs with hok
    · have hlen := length_overwrite w.1 hpos.le
      obtain ⟨hbytes, hdirty⟩ := ih
        (v := ⟨State.overwrite v.contents v.pos w.1, v.pos + w.1.length, true⟩)
        (by dsimp only; omega)
      rw [hbytes, hdirty]
      simp
    · obtain ⟨hbytes, hdirty⟩ := ih (v := { v with pos := v.pos }) hpos
      rw [hbytes, hdirty]
      simp

theorem write_eq_write_false (buf : Bytes) (heap : Bool) :
    v.write append buf heap = write false { v with pos := v.start append } buf heap := rfl

end View

/-! ## One call -/

/-- The descriptor is open on a FAT32 inode, and shows the view. -/
structure Shows {cfg : Config} (s : State cfg) (k : cfg.Fd) (i : Idx) (flags : UInt32)
    (name : Bytes) (v : View) : Prop where
  inUse : (s.descs k).inUse = true
  inode : (s.descs k).inode = some i
  flags : (s.descs k).flags = flags
  offset : (s.descs k).offset = v.pos
  itype : (s.fs.inodes i).itype = .file
  data : (s.fs.inodes i).data = v.contents
  size : (s.fs.inodes i).size = v.contents.length
  backed : (s.fs.inodes i).fat32Backed = true
  dirty : (s.fs.inodes i).fat32Dirty = v.dirty
  name : (s.fs.inodes i).fat32Name = name
  pos_le : v.pos ≤ v.contents.length

namespace Shows

variable {cfg : Config} {s : State cfg} {k : cfg.Fd} {i : Idx} {flags : UInt32} {name : Bytes}
  {v : View}

theorem growFor (h : Shows s k i flags name v) (newSize : Nat) (heap : Bool) :
    s.growFor i newSize heap = .ok (
      if newSize ≤ v.contents.length then (s.fs, true)
      else if heap then
        (s.fs.modify i fun n => { n with
          data := v.contents ++ List.replicate (newSize - v.contents.length) 0
          size := newSize }, true)
      else (s.fs, false)) := by
  unfold State.growFor FsGlobal.inodeResize
  simp only [h.data, h.size, List.take_length, gt_iff_lt, ← not_le, ite_not]
  by_cases hfits : newSize ≤ v.contents.length
  · simp [hfits]
  · have hpos : newSize ≠ 0 := by omega
    cases heap with
    | false => simp [hfits, hpos]
    | true => simp [hfits, hpos, demand, (not_le.mp hfits).le]

/-- The inode gets new contents, and the descriptor a new position. -/
theorem update (h : Shows s k i flags name v) {fs : FsGlobal} (v' : View)
    (hfs : fs.inodes i = { s.fs.inodes i with
      data := v'.contents, size := v'.contents.length, fat32Dirty := v'.dirty })
    (hpos : v'.pos ≤ v'.contents.length) :
    Shows { s.setDesc k { s.descs k with offset := v'.pos } with fs } k i flags name v' where
  inUse := by simp [h.inUse]
  inode := by simp [h.inode]
  flags := by simp [h.flags]
  offset := by simp
  itype := by simp [hfs, h.itype]
  data := by simp [hfs]
  size := by simp [hfs]
  backed := by simp [hfs, h.backed]
  dirty := by simp [hfs]
  name := by simp [hfs, h.name]
  pos_le := hpos

/-- A write that is not refused, with the buffer `data` large enough. -/
theorem writeFile_of_growFor (h : Shows s k i flags name v) {buf : Bytes} {heap : Bool}
    (hlt : v.pos + buf.length < 2 ^ 32) {fs : FsGlobal} (data : Bytes)
    (hgrow : s.growFor i (v.pos + buf.length) heap = .ok (fs, true))
    (hfs : fs.inodes i = { s.fs.inodes i with data, size := data.length })
    (hlen : data.length = max v.contents.length (v.pos + buf.length))
    (hdata : State.overwrite data v.pos buf = State.overwrite v.contents v.pos buf) :
    ∃ s' ret, s.writeFile k i v.pos buf heap = .ok (s', ret) ∧ s'.vol = s.vol ∧
      Shows s' k i flags name
        ⟨State.overwrite v.contents v.pos buf, v.pos + buf.length, true⟩ := by
  have hmin : min buf.length ((fs.inodes i).data.length - v.pos) = buf.length := by
    rw [hfs]
    dsimp only
    omega
  have hput : (if 0 < buf.length then State.overwrite data v.pos buf else data) =
      State.overwrite v.contents v.pos buf := by
    split_ifs with hempty
    · exact hdata
    · obtain rfl : buf = [] := List.length_eq_zero_iff.mp (by omega)
      rw [← hdata]
      simp [State.overwrite]
  have hsize := View.length_overwrite buf h.pos_le
  unfold State.writeFile
  rw [if_neg (by omega), if_neg (by omega), hgrow]
  simp only [ok_bind, if_true, hmin, List.take_length]
  refine ⟨_, _, bind_eq_ok_iff.mpr ⟨(), demand_eq_ok_iff.mpr ?_,
    bind_eq_ok_iff.mpr ⟨_, unchecked_eq_ok_iff.mpr ⟨hlt, rfl⟩, rfl⟩⟩, rfl, ?_⟩
  · intro _
    rw [hfs]
    dsimp only
    omega
  · refine h.update ⟨_, _, true⟩ ?_ ?_
    · rw [FsGlobal.modify_inodes_self, hfs]
      simp [hput, hsize, hlen, h.backed]
    · dsimp only
      rw [hsize]
      exact Nat.le_max_right _ _

theorem writeFile (h : Shows s k i flags name v) (buf : Bytes) (heap : Bool) :
    ∃ s' ret, s.writeFile k i v.pos buf heap = .ok (s', ret) ∧ s'.vol = s.vol ∧
      Shows s' k i flags name (v.write false buf heap) := by
  have hpos := h.pos_le
  have hgrow := h.growFor (v.pos + buf.length) heap
  unfold View.write
  simp only [View.start, Bool.false_eq_true, if_false]
  by_cases hlt : v.pos + buf.length < 2 ^ 32
  · by_cases hfits : v.pos + buf.length ≤ v.contents.length
    · rw [if_pos ⟨hlt, .inl hfits⟩]
      rw [if_pos hfits] at hgrow
      exact h.writeFile_of_growFor hlt v.contents hgrow (by rw [← h.size, ← h.data])
        (by omega) rfl
    · rw [if_neg hfits] at hgrow
      cases heap with
      | true =>
        rw [if_pos ⟨hlt, .inr rfl⟩]
        have hlen : (v.contents ++
            List.replicate (v.pos + buf.length - v.contents.length) 0).length =
              v.pos + buf.length := by
          rw [List.length_append, List.length_replicate]
          omega
        refine h.writeFile_of_growFor hlt _ hgrow (by rw [hlen]; exact s.fs.modify_inodes_self i _)
          (by omega) ?_
        rw [State.overwrite, State.overwrite, List.take_append_of_le_length hpos,
          List.drop_eq_nil_of_le hlen.le, List.drop_eq_nil_of_le (by omega)]
      | false =>
        rw [if_neg (by simp [hfits])]
        refine ⟨s, -1, ?_, rfl, h⟩
        unfold State.writeFile
        rw [if_neg (by omega), if_neg (by omega), hgrow]
        rfl
  · rw [if_neg (fun hok => hlt hok.1)]
    refine ⟨s, -1, ?_, rfl, h⟩
    unfold State.writeFile
    split_ifs with hbuf hsum
    · rfl
    · rfl
    · omega

theorem fdGet (h : Shows s k i flags name v) : s.fdGet k.1 (k.2 : Nat) = some k := by
  simp [State.fdGet, h.inUse]

/-- One call of `vfs_write`. -/
theorem vfsWrite (h : Shows s k i flags name v) (buf : Bytes) (heap : Bool) :
    ∃ s' ret, s.vfsWrite k.1 (k.2 : Nat) buf heap = .ok (s', ret) ∧ s'.vol = s.vol ∧
      Shows s' k i flags name (v.write (flags &&& O_APPEND ≠ 0) buf heap) := by
  unfold State.vfsWrite
  simp only [h.fdGet, h.inode, h.itype, h.flags]
  rw [View.write_eq_write_false]
  split_ifs with hmode
  · have hseek : Shows (s.setDesc k { s.descs k with offset := v.contents.length }) k i flags name
        { v with pos := v.contents.length } := by
      refine h.update { v with pos := v.contents.length } ?_ le_rfl
      dsimp only
      rw [← h.dirty, ← h.size, ← h.data]
    rw [h.size]
    simpa [View.start, hmode, h.inode, h.flags, State.setDesc] using hseek.writeFile buf heap
  · rw [h.offset]
    simpa [View.start, hmode] using h.writeFile buf heap

end Shows

namespace State

variable {cfg : Config} (s : State cfg) (t : Fin cfg.tables) (fd : Int)

/-- Where the next write through a descriptor goes. -/
def nextWrite (k : cfg.Fd) : Nat :=
  match (s.descs k).inode with
  | none => (s.descs k).offset
  | some i =>
    if (s.descs k).flags &&& O_APPEND ≠ 0 then (s.fs.inodes i).size else (s.descs k).offset

/-- How far the position of a descriptor moves in a write. -/
def advance (s' : State cfg) : Nat :=
  match s.fdGet t fd with
  | none => 0
  | some k => (s'.descs k).offset - s.nextWrite k

/-- The calls of `vfs_write` for a list of buffers, and the bytes that the position moved over. -/
def writeAll (s : State cfg) : List (Bytes × Bool) → Attempt (State cfg × Bytes)
  | [] => .ok (s, [])
  | w :: ws => do
    let out ← s.vfsWrite t fd w.1 w.2
    let (last, rest) ← writeAll out.1 ws
    return (last, w.1.take (s.advance t fd out.1) ++ rest)

theorem fdFree_vol (k : cfg.Fd) : (s.fdFree k).vol = s.vol := by
  unfold fdFree
  dsimp only
  split
  · rfl
  · split_ifs
    · rfl
    · rfl

end State

namespace Shows

variable {cfg : Config} {s : State cfg} {k : cfg.Fd} {i : Idx} {flags : UInt32} {name : Bytes}
  {v : View}

theorem nextWrite (h : Shows s k i flags name v) :
    s.nextWrite k = v.start (flags &&& O_APPEND ≠ 0) := by
  simp [State.nextWrite, View.start, h.inode, h.flags, h.size, h.offset]

/-- The calls for a list of buffers never panic. -/
theorem writeAll (h : Shows s k i flags name v) (ws : List (Bytes × Bool)) :
    ∃ s', s.writeAll k.1 (k.2 : Nat) ws =
        .ok (s', (v.writeAll (flags &&& O_APPEND ≠ 0) ws).2) ∧
      s'.vol = s.vol ∧
      Shows s' k i flags name (v.writeAll (flags &&& O_APPEND ≠ 0) ws).1 := by
  induction ws generalizing s v with
  | nil => exact ⟨s, rfl, rfl, h⟩
  | cons w ws ih =>
    obtain ⟨mid, ret, hcall, hvol, hmid⟩ := h.vfsWrite w.1 w.2
    obtain ⟨last, hrest, hvol', hlast⟩ := ih hmid
    refine ⟨last, ?_, hvol'.trans hvol, hlast⟩
    have hadvance : s.advance k.1 (k.2 : Nat) mid =
        (v.write (flags &&& O_APPEND ≠ 0) w.1 w.2).pos - v.start (flags &&& O_APPEND ≠ 0) := by
      rw [State.advance, h.fdGet]
      dsimp only
      rw [h.nextWrite, hmid.offset]
    simp only [State.writeAll, hcall, ok_bind, hrest, View.writeAll, hadvance]
    rfl

/-- What the close writes out. -/
theorem vfsClose_vol (h : Shows s k i flags name v) :
    (s.vfsClose k.1 (k.2 : Nat)).vol =
      if v.dirty then s.vol.writeFile name v.contents else s.vol := by
  unfold State.vfsClose
  simp only [h.fdGet, h.inode, h.backed, h.dirty, h.name, h.data, h.size, List.take_length,
    State.fdFree_vol, true_and]
  split_ifs <;> rfl

end Shows

/-! ## Opening -/

/-- The inode of a FAT32 file that was loaded with the contents `c`. -/
def proxy (ino : Nat) (name c : Bytes) : Inode :=
  { Inode.zeroed with
    ino, itype := .file, size := c.length, data := c, fat32Backed := true, fat32Name := name }

namespace FsGlobal

variable {fs fs' : FsGlobal} {path name : Bytes} {heap : Bool} {i : Idx}

/-- A path of a FAT32 file is not in the ramfs. -/
theorem pathLookup_of_fat32NameOf (h : fs.fat32NameOf path = some name) :
    fs.pathLookup path = none := by
  unfold fat32NameOf at h
  split at h
  · cases h
  next sub hsub =>
  obtain ⟨m, hm, rfl⟩ := Option.map_eq_some_iff.mp hsub
  have hunder := List.find?_some hm
  rw [Bool.and_eq_true] at hunder
  have hany : fs.mounts.any (fun m => pathStartsWith (trimNul path) m.path && m.fat32) = true := by
    rw [List.any_eq_true]
    exact ⟨m, List.mem_of_find?_eq_some hm, by simp [hunder]⟩
  have hroot : trimNul path ≠ [47] := by
    intro hroot
    rw [hroot] at h hunder
    -- The mount is at the root, and nothing is left of the path.
    match hmount : m.path with
    | [] => simp [hmount, stripSlash] at h
    | b :: rest => simp [hmount, stripSlash] at h
  unfold pathLookup
  simp [hroot, hany]

theorem tryFat32Open_found {c : Bytes} {files : Bytes → Option Bytes}
    (hname : fs.fat32NameOf path = some name) (hfile : files name = some c)
    (h : fs.tryFat32Open path files heap = .ok (fs', some i)) :
    fs'.inodes i = proxy fs.nextIno name c := by
  unfold tryFat32Open at h
  rw [hname] at h
  dsimp only at h
  rw [hfile] at h
  obtain ⟨⟨fs₁, found⟩, halloc, hrest⟩ := bind_eq_ok_iff.mp h
  obtain ⟨rfl, rfl⟩ | ⟨i, rfl, -, rfl⟩ := inodeAlloc_cases halloc
  · cases hrest
  dsimp only at hrest
  split_ifs at hrest with hempty
  · cases hrest
    subst hempty
    simp [markFat32, newInode, proxy, Inode.zeroed]
  · obtain ⟨⟨fs₂, ok⟩, hresize, hend⟩ := bind_eq_ok_iff.mp hrest
    obtain ⟨rfl, rfl⟩ | ⟨rfl, data, rfl⟩ := inodeResize_cases hresize
    · cases hend
    · cases hend
      simp [markFat32, newInode, proxy, Inode.zeroed]

theorem tryFat32Create_cases {r : Option Idx} (hname : fs.fat32NameOf path = some name)
    (h : fs.tryFat32Create path = .ok (fs', r)) :
    (r = none ∧ fs' = fs ∧ fs.inodeAlloc .file = .ok (fs, none)) ∨
      ∃ i, r = some i ∧ fs'.inodes i = proxy fs.nextIno name [] := by
  unfold tryFat32Create at h
  rw [hname] at h
  obtain ⟨⟨fs₁, found⟩, halloc, hrest⟩ := bind_eq_ok_iff.mp h
  obtain ⟨rfl, rfl⟩ | ⟨i, rfl, -, rfl⟩ := inodeAlloc_cases halloc
  · cases hrest
    exact .inl ⟨rfl, rfl, halloc⟩
  · cases hrest
    exact .inr ⟨i, rfl, by simp [markFat32, newInode, proxy, Inode.zeroed]⟩

/-- Nothing is created when there is no inode. -/
theorem create_of_full (hfull : fs.inodeAlloc .file = .ok (fs, none)) :
    fs.create path .file heap = .ok (fs, none) := by
  unfold create
  split
  · rfl
  · rw [hfull]
    rfl

end FsGlobal

namespace State

variable {cfg : Config} {s s' : State cfg} {t : Fin cfg.tables} {fd : Int} {path name c : Bytes}
  {flags : UInt32} {heap : Bool} {i : Idx}

theorem fdAlloc_shows {ino : Nat} (hi : s.fs.inodes i = proxy ino name c)
    (h : s.fdAlloc t i flags = .ok (s', fd)) (hfd : 0 ≤ fd) :
    ∃ k : cfg.Fd, k.1 = t ∧ ((k.2 : Nat) : Int) = fd ∧ s'.vol = s.vol ∧
      Shows s' k i flags name ⟨c, 0, false⟩ := by
  obtain ⟨-, rfl, -⟩ | ⟨n, -, -, rfl, hinode⟩ := fdAlloc_cases h
  · omega
  · rw [nameInode_cases hinode]
    refine ⟨(t, n), rfl, rfl, rfl, ?_⟩
    constructor <;> simp [hi, proxy, Inode.zeroed]

/-- The descriptor of a FAT32 file shows the file without `O_CREAT`, and nothing with it. -/
theorem vfsOpen_shows (hname : s.fs.fat32NameOf path = some name)
    (hfile : s.vol.files name = some c) (htrunc : flags &&& O_TRUNC = 0)
    (h : s.vfsOpen t path flags heap = .ok (s', fd)) (hfd : 0 ≤ fd) :
    ∃ (k : cfg.Fd) (i : Idx), k.1 = t ∧ ((k.2 : Nat) : Int) = fd ∧ s'.vol = s.vol ∧
      Shows s' k i flags name ⟨if flags &&& O_CREAT = 0 then c else [], 0, false⟩ := by
  unfold vfsOpen at h
  rw [FsGlobal.pathLookup_of_fat32NameOf hname] at h
  dsimp only at h
  by_cases hcreat : flags &&& O_CREAT = 0
  · rw [if_pos hcreat] at h ⊢
    obtain ⟨⟨fs, found⟩, hfound, h⟩ := bind_eq_ok_iff.mp h
    cases found with
    | none =>
      cases h
      omega
    | some i =>
      simp only [openInode, htrunc, ne_eq, not_true_eq_false, if_false] at h
      have hi := FsGlobal.tryFat32Open_found hname hfile hfound
      obtain ⟨k, hk⟩ := fdAlloc_shows (s := { s with fs }) hi h hfd
      exact ⟨k, i, hk⟩
  · rw [if_neg hcreat] at h ⊢
    obtain ⟨⟨fs, found⟩, hnew, h⟩ := bind_eq_ok_iff.mp h
    obtain ⟨rfl, rfl, hfull⟩ | ⟨i, rfl, hi⟩ := FsGlobal.tryFat32Create_cases hname hnew
    · simp only [FsGlobal.create_of_full hfull, ok_bind] at h
      cases h
      omega
    · dsimp only at h
      rw [if_neg (not_not.mpr htrunc)] at h
      obtain ⟨k, hk⟩ := fdAlloc_shows (s := { s with fs }) hi h hfd
      exact ⟨k, i, hk⟩

/-! ## The whole session -/

/-- The file with the written bytes in it: behind it in append mode, over its front otherwise. -/
def written (flags : UInt32) (c bytes : Bytes) : Bytes :=
  if flags &&& O_APPEND ≠ 0 then c ++ bytes else bytes ++ c.drop bytes.length

/-- The writes leave nothing of the file to keep: there are none, or they reach its end. -/
def Replaces (flags : UInt32) (c : Bytes) (taken : List Bytes) : Prop :=
  taken = [] ∨ if flags &&& O_APPEND ≠ 0 then c = [] else c.length ≤ taken.flatten.length

theorem written_eq_self_iff (flags : UInt32) (c bytes : Bytes) :
    bytes = written flags c bytes ↔
      if flags &&& O_APPEND ≠ 0 then c = [] else c.length ≤ bytes.length := by
  unfold written
  split_ifs
  · exact List.self_eq_append_left
  · rw [List.self_eq_append_right, List.drop_eq_nil_iff]

/-- The contents at the end of the writes, for a file that is open at its start. -/
theorem contents_writeAll (flags : UInt32) (c : Bytes) (ws : List (Bytes × Bool)) :
    ((View.mk c 0 false).writeAll (flags &&& O_APPEND ≠ 0) ws).1.contents =
      written flags c ((View.mk c 0 false).writeAll (flags &&& O_APPEND ≠ 0) ws).2 := by
  unfold written
  by_cases hmode : flags &&& O_APPEND = 0
  · simpa [hmode] using View.contents_overwrite (v := ⟨c, 0, false⟩) (Nat.zero_le _) ws
  · simpa [hmode] using View.contents_append (v := ⟨c, 0, false⟩) ws

end State

/-- There is room for new contents of a file, with the clusters of the old ones. -/
def Fat32.Fits (v : Fat32) (c new : Bytes) : Prop := v.clusters new ≤ v.free + v.clusters c

theorem Fat32.files_writeFile_eq_iff {v : Fat32} {name c : Bytes} (hfile : v.files name = some c)
    (data new : Bytes) : (v.writeFile name data).files name = some new ↔
      data = new ∧ v.Fits c data := by
  unfold writeFile Fits
  simp only [hfile, Option.map_some, Option.getD_some]
  split_ifs with hfits
  · simp [hfits]
  · simp [hfits]

namespace State

/-- One descriptor table, and a FAT32 volume at `/d` with one free cluster and the file `A`. -/
def sampleState : State ⟨1, 4⟩ where
  fs := ⟨fun _ => .zeroed, ⟨0, MAX_FILES_pos⟩, 1, [⟨[47, 100], true⟩]⟩
  descs := fun _ => .zeroed
  vol := ⟨fun name => if name = 65 :: List.replicate 10 32 then some [1, 2, 3] else none, 1, 512,
    by decide⟩

/-- `/d/a`. -/
def samplePath : Bytes := [47, 100, 47, 97]

/-- The 8.3 name of `/d/a`. -/
def sampleName : Bytes := 65 :: List.replicate 10 32

/-- The file is opened, written and closed. -/
def session {cfg : Config} (s : State cfg) (t : Fin cfg.tables) (flags : UInt32)
    (ws : List (Bytes × Bool)) : Attempt (Option Bytes) := do
  let (s₁, fd) ← s.vfsOpen t samplePath flags true
  let (s₂, _) ← s₁.writeAll t fd ws
  return (s₂.vfsClose t fd).vol.files sampleName

end State

end RobotOs.Fs.Vfs
