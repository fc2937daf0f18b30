import RobotOs.Lib.Framing
import RobotOs.Lib.Untrusted

/-!
# The virtual file system

`vfs.rs` of the fs crate: opening, writing and closing.  Inodes are in one
pool, directories hold names and pool indices, and descriptor tables hold pool
indices and offsets.  A file of a FAT32 volume is loaded into an inode without a
name, which is freed with its last descriptor.

The calls are made one at a time.  An input of a call is whether an allocation on the
heap succeeds.  Of the FAT32 volume there are the files of its root and the number of
free clusters; its device does not fail.  A fault is a panic: a counter that overflows,
or a copy outside of a buffer.

`Inode.data` is the buffer, so its length is the capacity; it is the null pointer
when empty.  The field `FileDesc.ino` is not in the source.  It has the number that
the inode had when it was opened, and no function reads it.
-/

namespace RobotOs.Fs.Vfs

open RobotOs.Lib.Untrusted
open RobotOs.Lib.Framing (Bytes)

def MAX_FILES : Nat := 128
def MAX_FILENAME : Nat := 64

def O_CREAT : UInt32 := 0x40
def O_TRUNC : UInt32 := 0x200
def O_APPEND : UInt32 := 0x400

/-- An index into the pool; `NO_IDX` is `none`. -/
abbrev Idx := Fin MAX_FILES

theorem MAX_FILES_pos : 0 < MAX_FILES := by decide

/-- The number of descriptor tables, and `MAX_FDS`. -/
structure Config where
  tables : Nat
  maxFds : Nat

inductive InodeType where
  | none | file | dir | device
  deriving DecidableEq, Repr

/-- `DentryEntry`. -/
structure DentryEntry where
  name : Bytes
  inode : Idx
  deriving DecidableEq

/-- `Inode`. -/
structure Inode where
  ino : Nat
  itype : InodeType
  size : Nat
  data : Bytes
  entries : List DentryEntry
  devRead : Bool
  devWrite : Bool
  refCount : Nat
  linkCount : Nat
  fat32Backed : Bool
  fat32Dirty : Bool
  fat32Name : Bytes

/-- `ZEROED_INODE`. -/
def Inode.zeroed : Inode := ⟨0, .none, 0, [], [], false, false, 0, 0, false, false, []⟩

/-- `FileDesc`. -/
structure FileDesc where
  inode : Option Idx
  offset : Nat
  flags : UInt32
  inUse : Bool
  ino : Nat
  deriving DecidableEq

/-- `ZEROED_FD`. -/
def FileDesc.zeroed : FileDesc := ⟨none, 0, 0, false, 0⟩

/-- An active `MountPoint`. -/
structure MountPoint where
  path : Bytes
  fat32 : Bool

/-- `FsGlobal`. -/
structure FsGlobal where
  inodes : Idx → Inode
  root : Idx
  nextIno : Nat
  mounts : List MountPoint

/-- A descriptor: its table and its number. -/
abbrev Config.Fd (cfg : Config) := Fin cfg.tables × Fin cfg.maxFds

/-- The files in the root of the volume, and its free clusters.  A file has as many clusters as its
size needs. -/
structure Fat32 where
  files : Bytes → Option Bytes
  free : Nat
  bytesPerClus : Nat
  bytesPerClus_pos : 0 < bytesPerClus

namespace Fat32

variable (v : Fat32)

def clusters (data : Bytes) : Nat := (data.length + v.bytesPerClus - 1) / v.bytesPerClus

/-- `fat32_write_file`, for a file that is there.  Its chain is freed and its entry deleted before
the clusters are taken one by one, and the error for a full volume leaves no file. -/
def writeFile (name data : Bytes) : Fat32 :=
  let free := v.free + ((v.files name).map v.clusters).getD 0
  if v.clusters data ≤ free then
    { v with files := Function.update v.files name (some data), free := free - v.clusters data }
  else { v with files := Function.update v.files name none, free := 0 }

end Fat32

structure State (cfg : Config) where
  fs : FsGlobal
  descs : cfg.Fd → FileDesc
  vol : Fat32

/-! ## Paths -/

/-- `trim_nul`. -/
def trimNul (s : Bytes) : Bytes := s.takeWhile (· ≠ 0)

/-- `path_starts_with`. -/
def pathStartsWith (path start : Bytes) : Bool :=
  start.isPrefixOf path &&
    match path.drop start.length with
    | [] => true
    | c :: _ => c == 47 || c == 0

/-- Without one `/` in front. -/
def stripSlash : Bytes → Bytes
  | [] => []
  | c :: cs => if c = 47 then cs else c :: cs

/-- `PathComponents`. -/
def pathComponents (path : Bytes) : List Bytes :=
  ((trimNul (stripSlash path)).splitOn 47).filter (· ≠ [])

/-- `path_to_83`. -/
def pathTo83 (name : Bytes) : Option Bytes :=
  let base := name.takeWhile (· ≠ 46)
  let ext := (name.dropWhile (· ≠ 46)).drop 1
  if name = [] ∨ base = [] ∨ base.length > 8 ∨ ext.length > 3 then none
  else
    let upper (b : UInt8) : UInt8 := if 97 ≤ b ∧ b ≤ 122 then b - 32 else b
    some (base.map upper ++ List.replicate (8 - base.length) 32 ++ ext.map upper ++
      List.replicate (3 - ext.length) 32)

/-! ## Inodes -/

namespace FsGlobal

variable (fs : FsGlobal)

/-- Writes one inode. -/
def modify (i : Idx) (f : Inode → Inode) : FsGlobal :=
  { fs with inodes := Function.update fs.inodes i (f (fs.inodes i)) }

/-- `inode_alloc`. -/
def inodeAlloc (itype : InodeType) : Attempt (FsGlobal × Option Idx) :=
  match (List.finRange MAX_FILES).find? fun i => (fs.inodes i).ino == 0 with
  | none => .ok (fs, none)
  | some i => do
    let nextIno ← unchecked 32 (fs.nextIno + 1)
    let inode := { Inode.zeroed with ino := fs.nextIno, itype, linkCount := 1 }
    return ({ fs.modify i fun _ => inode with nextIno }, some i)

/-- `inode_free`. -/
def inodeFree (i : Idx) : FsGlobal :=
  if (fs.inodes i).ino = 0 then fs else fs.modify i fun _ => .zeroed

/-- `inode_resize`.  The contents are copied, and the rest is filled with zeros. -/
def inodeResize (i : Idx) (newSize : Nat) (heap : Bool) : Attempt (FsGlobal × Bool) :=
  let n := fs.inodes i
  if newSize = 0 then .ok (fs.modify i fun n => { n with data := [], size := 0 }, true)
  else if newSize ≤ n.data.length then
    .ok (fs.modify i fun n => { n with size := newSize }, true)
  else if !heap then .ok (fs, false)
  else do
    demand (n.size ≤ n.data.length ∧ n.size ≤ newSize)
    let data := n.data.take n.size ++ List.replicate (newSize - n.size) 0
    return (fs.modify i fun n => { n with data, size := newSize }, true)

/-! ## Directories -/

/-- `dir_add_entry`. -/
def dirAddEntry (dir : Idx) (name : Bytes) (inode : Idx) (heap : Bool) :
    Attempt (FsGlobal × Bool) :=
  if name = [] ∨ name.length ≥ MAX_FILENAME then .ok (fs, false)
  else if (fs.inodes dir).itype ≠ .dir then .ok (fs, false)
  else if (fs.inodes dir).entries.any (·.name == name) then .ok (fs, false)
  else if !heap then .ok (fs, false)
  else do
    let fs := fs.modify dir fun d => { d with entries := d.entries ++ [⟨name, inode⟩] }
    let linkCount ← unchecked 32 ((fs.inodes inode).linkCount + 1)
    return (fs.modify inode fun n => { n with linkCount }, true)

/-- `dir_lookup`. -/
def dirLookup (dir : Idx) (name : Bytes) : Option Idx :=
  if (fs.inodes dir).itype ≠ .dir then none
  else ((fs.inodes dir).entries.find? (·.name == name)).map (·.inode)

/-- `path_lookup`. -/
def pathLookup (path : Bytes) : Option Idx :=
  let path := trimNul path
  if path.head? ≠ some 47 then none
  else if path = [47] then some fs.root
  else if fs.mounts.any fun m => pathStartsWith path m.path && m.fat32 then none
  else (pathComponents path).foldlM fs.dirLookup fs.root

/-- `path_parent`: the directory, and the name behind the last `/`. -/
def pathParent (path : Bytes) : Option Idx × Bytes :=
  let path := trimNul path
  if path.head? ≠ some 47 then (none, [])
  else
    let filename := (path.reverse.takeWhile (· ≠ 47)).reverse
    let lastSlash := path.length - filename.length - 1
    if filename = [] then (none, [])
    else if lastSlash = 0 then (some fs.root, filename)
    else (fs.pathLookup (path.take lastSlash), filename)

/-! ## FAT32 files -/

/-- The path below the first FAT32 mount that it is under. -/
def fat32Sub (path : Bytes) : Option Bytes :=
  (fs.mounts.find? fun m => m.fat32 && pathStartsWith path m.path).map fun m =>
    stripSlash (path.drop m.path.length)

/-- The 8.3 name of a path in the root of a FAT32 volume. -/
def fat32NameOf (path : Bytes) : Option Bytes :=
  match fs.fat32Sub (trimNul path) with
  | none => none
  | some sub => if sub = [] ∨ 47 ∈ sub then none else pathTo83 sub

/-- The inode becomes a proxy: without a link, and backed by a file. -/
def markFat32 (i : Idx) (name : Bytes) : FsGlobal :=
  fs.modify i fun n => { n with linkCount := 0, fat32Backed := true, fat32Name := name }

/-- `try_fat32_open`. -/
def tryFat32Open (path : Bytes) (files : Bytes → Option Bytes) (heap : Bool) :
    Attempt (FsGlobal × Option Idx) :=
  match fs.fat32NameOf path with
  | none => .ok (fs, none)
  | some name => match files name with
    | none => .ok (fs, none)
    | some contents => do
      let (fs, found) ← fs.inodeAlloc .file
      match found with
      | none => return (fs, none)
      | some i =>
        if contents = [] then return (fs.markFat32 i name, some i)
        else
          let (fs, ok) ← fs.inodeResize i contents.length heap
          if ok then
            return ((fs.modify i fun n => { n with data := contents }).markFat32 i name, some i)
          else return (fs.inodeFree i, none)

/-- `try_fat32_create`. -/
def tryFat32Create (path : Bytes) : Attempt (FsGlobal × Option Idx) :=
  match fs.fat32NameOf path with
  | none => .ok (fs, none)
  | some name => do
    let (fs, found) ← fs.inodeAlloc .file
    match found with
    | none => return (fs, none)
    | some i => return (fs.markFat32 i name, some i)

/-- The creation of `vfs_open` and `sys_mkdir` in the ramfs. -/
def create (path : Bytes) (itype : InodeType) (heap : Bool) : Attempt (FsGlobal × Option Idx) :=
  match fs.pathParent path with
  | (none, _) => .ok (fs, none)
  | (some parent, filename) => do
    let (fs, found) ← fs.inodeAlloc itype
    match found with
    | none => return (fs, none)
    | some i =>
      let (fs, ok) ← fs.dirAddEntry parent filename i heap
      if ok then return (fs, some i) else return (fs.inodeFree i, none)

/-- The truncation of `vfs_open`. -/
def truncate (i : Idx) : Attempt FsGlobal :=
  if (fs.inodes i).itype = .file then do
    let (fs, _) ← fs.inodeResize i 0 true
    return fs.modify i fun n => { n with fat32Dirty := n.fat32Dirty || n.fat32Backed }
  else .ok fs

end FsGlobal

/-! ## Descriptors -/

namespace State

variable {cfg : Config} (s : State cfg)

def setDesc (k : cfg.Fd) (d : FileDesc) : State cfg :=
  { s with descs := Function.update s.descs k d }

/-- The test at the start of every call: the descriptor is in range and in use. -/
def fdGet (t : Fin cfg.tables) (fd : Int) : Option (cfg.Fd) :=
  if h : 0 ≤ fd ∧ fd.toNat < cfg.maxFds then
    if (s.descs (t, ⟨fd.toNat, h.2⟩)).inUse then some (t, ⟨fd.toNat, h.2⟩) else none
  else none

/-- A descriptor comes to name an inode. -/
def nameInode (k : cfg.Fd) (i : Idx) (offset : Nat) (flags : UInt32) : Attempt (State cfg) := do
  let refCount ← unchecked 32 ((s.fs.inodes i).refCount + 1)
  return { s.setDesc k ⟨some i, offset, flags, true, (s.fs.inodes i).ino⟩ with
    fs := s.fs.modify i fun n => { n with refCount } }

/-- `fd_alloc`. -/
def fdAlloc (t : Fin cfg.tables) (i : Idx) (flags : UInt32) : Attempt (State cfg × Int) :=
  match (List.finRange cfg.maxFds).find? fun fd => 3 ≤ fd.val && !(s.descs (t, fd)).inUse with
  | none => .ok (s, -1)
  | some fd => do
    let s ← s.nameInode (t, fd) i 0 flags
    return (s, fd.val)

/-- `fd_free`, for a descriptor in use. -/
def fdFree (k : cfg.Fd) : State cfg :=
  let d := s.descs k
  let s := s.setDesc k { d with inUse := false }
  match d.inode with
  | none => s
  | some i =>
    let fs := s.fs.modify i fun n => { n with refCount := n.refCount - 1 }
    if (fs.inodes i).refCount = 0 ∧ (fs.inodes i).linkCount = 0 then
      { s with fs := fs.inodeFree i }
    else { s with fs }

/-! ## Calls -/

/-- The end of `vfs_open`, for an inode that was found or created. -/
def openInode (t : Fin cfg.tables) (i : Idx) (flags : UInt32) : Attempt (State cfg × Int) :=
  if flags &&& O_TRUNC ≠ 0 then do
    let fs ← s.fs.truncate i
    fdAlloc { s with fs } t i flags
  else s.fdAlloc t i flags

/-- `vfs_open`. -/
def vfsOpen (t : Fin cfg.tables) (path : Bytes) (flags : UInt32) (heap : Bool) :
    Attempt (State cfg × Int) :=
  match s.fs.pathLookup path with
  | some i => s.openInode t i flags
  | none =>
    if flags &&& O_CREAT = 0 then do
      let (fs, found) ← s.fs.tryFat32Open path s.vol.files heap
      match found with
      | none => return ({ s with fs }, -1)
      | some i => openInode { s with fs } t i flags
    else do
      let (fs, found) ← s.fs.tryFat32Create path
      match found with
      | some i =>
        let fs := if flags &&& O_TRUNC ≠ 0 then
          fs.modify i fun n => { n with fat32Dirty := true } else fs
        fdAlloc { s with fs } t i flags
      | none =>
        let (fs, found) ← fs.create path .file heap
        match found with
        | none => return ({ s with fs }, -1)
        | some i => openInode { s with fs } t i flags

/-- `vfs_close`. -/
def vfsClose (t : Fin cfg.tables) (fd : Int) : State cfg :=
  match s.fdGet t fd with
  | none => s
  | some k =>
    match (s.descs k).inode with
    | none => s.fdFree k
    | some i =>
      let n := s.fs.inodes i
      let s := if n.fat32Backed ∧ n.fat32Dirty then
          { s with
            fs := s.fs.modify i fun n => { n with fat32Dirty := false }
            vol := s.vol.writeFile n.fat32Name (n.data.take n.size) }
        else s
      s.fdFree k

/-- A `usize` or a `u32` as an `i32`. -/
def asI32 (n : Nat) : Int := Int.bmod n (2 ^ 32)

/-- The buffer with `bs` copied to `offset`. -/
def overwrite (data : Bytes) (offset : Nat) (bs : Bytes) : Bytes :=
  data.take offset ++ bs ++ data.drop (offset + bs.length)

/-- The buffer of `vfs_write` is made large enough. -/
def growFor (i : Idx) (newSize : Nat) (heap : Bool) : Attempt (FsGlobal × Bool) :=
  if newSize > (s.fs.inodes i).data.length then s.fs.inodeResize i newSize heap
  else if newSize > (s.fs.inodes i).size then
    .ok (s.fs.modify i fun n => { n with size := newSize }, true)
  else .ok (s.fs, true)

/-- The rest of `vfs_write`, for a file and an offset. -/
def writeFile (k : cfg.Fd) (i : Idx) (offset : Nat) (buf : Bytes) (heap : Bool) :
    Attempt (State cfg × Int) :=
  if buf.length ≥ 2 ^ 32 then .ok (s, -1)
  else if offset + buf.length ≥ 2 ^ 32 then .ok (s, -1)
  else do
    let (fs, ok) ← s.growFor i (offset + buf.length) heap
    if ok then
      let toWrite := min buf.length ((fs.inodes i).data.length - offset)
      demand (0 < toWrite → offset + toWrite ≤ (fs.inodes i).data.length)
      let next ← unchecked 32 (offset + toWrite)
      let fs := fs.modify i fun n => { n with
        data := if 0 < toWrite then overwrite n.data offset (buf.take toWrite) else n.data
        fat32Dirty := n.fat32Dirty || n.fat32Backed }
      return ({ s.setDesc k { s.descs k with offset := next } with fs }, asI32 toWrite)
    else return ({ s with fs }, -1)

/-- `vfs_write`. -/
def vfsWrite (t : Fin cfg.tables) (fd : Int) (buf : Bytes) (heap : Bool) :
    Attempt (State cfg × Int) :=
  match s.fdGet t fd with
  | none => .ok (s, -1)
  | some k =>
    let d := s.descs k
    match d.inode with
    | none => .ok (s, -1)
    | some i =>
      let n := s.fs.inodes i
      match n.itype with
      | .device => .ok (s, if n.devWrite then asI32 buf.length else -1)
      | .file =>
        if d.flags &&& O_APPEND ≠ 0 then
          (s.setDesc k { d with offset := n.size }).writeFile k i n.size buf heap
        else s.writeFile k i d.offset buf heap
      | _ => .ok (s, -1)

end State

/-! ## What the functions can return -/

namespace FsGlobal

variable (fs : FsGlobal)

@[simp] theorem modify_inodes_self (i : Idx) (f : Inode → Inode) :
    (fs.modify i f).inodes i = f (fs.inodes i) := by
  simp [modify]

/-- A slot with a new inode. -/
def insert (i : Idx) (n : Inode) : FsGlobal :=
  { fs.modify i fun _ => n with nextIno := fs.nextIno + 1 }

/-- The inode of `inode_alloc`. -/
def newInode (itype : InodeType) : Inode :=
  { Inode.zeroed with ino := fs.nextIno, itype, linkCount := 1 }

@[simp] theorem insert_inodes_self (i : Idx) (n : Inode) : (fs.insert i n).inodes i = n :=
  fs.modify_inodes_self i fun _ => n

@[simp] theorem insert_modify (i : Idx) (n : Inode) (f : Inode → Inode) :
    (fs.insert i n).modify i f = fs.insert i (f n) := by
  simp [insert, modify]

variable {fs} {fs' : FsGlobal} {i : Idx} {r : Option Idx} {ok heap : Bool}

theorem inodeAlloc_cases {itype : InodeType} (h : fs.inodeAlloc itype = .ok (fs', r)) :
    (r = none ∧ fs' = fs) ∨
      ∃ i, r = some i ∧ (fs.inodes i).ino = 0 ∧ fs' = fs.insert i (fs.newInode itype) := by
  unfold inodeAlloc at h
  split at h
  · cases h
    exact .inl ⟨rfl, rfl⟩
  · next i hi =>
    obtain ⟨m, hm, h⟩ := bind_eq_ok_iff.mp h
    obtain ⟨-, rfl⟩ := unchecked_eq_ok_iff.mp hm
    cases h
    exact .inr ⟨i, rfl, by simpa using List.find?_some hi, rfl⟩

/-- A resize changes the buffer and the size, if anything. -/
theorem inodeResize_cases {newSize : Nat} (h : fs.inodeResize i newSize heap = .ok (fs', ok)) :
    (ok = false ∧ fs' = fs) ∨
      ok = true ∧ ∃ data, fs' = fs.modify i fun n => { n with data, size := newSize } := by
  unfold inodeResize at h
  simp only at h
  split at h
  · next hzero =>
    cases h
    exact .inr ⟨rfl, [], by rw [hzero]⟩
  split at h
  · cases h
    exact .inr ⟨rfl, (fs.inodes i).data, rfl⟩
  split at h
  · cases h
    exact .inl ⟨rfl, rfl⟩
  obtain ⟨-, -, h⟩ := bind_eq_ok_iff.mp h
  cases h
  exact .inr ⟨rfl, _, rfl⟩

end FsGlobal

namespace State

variable {cfg : Config} {s s' : State cfg} {t : Fin cfg.tables} {fd ret : Int} {k : cfg.Fd}

@[simp] theorem setDesc_fs (d : FileDesc) : (s.setDesc k d).fs = s.fs := rfl

@[simp] theorem setDesc_descs (d : FileDesc) :
    (s.setDesc k d).descs = Function.update s.descs k d := rfl

theorem fdAlloc_cases {i : Idx} {flags : UInt32} (h : s.fdAlloc t i flags = .ok (s', ret)) :
    (s' = s ∧ ret = -1 ∧ ∀ fd : Fin cfg.maxFds, 3 ≤ fd.val → (s.descs (t, fd)).inUse = true) ∨
      ∃ fd : Fin cfg.maxFds, 3 ≤ fd.val ∧ (s.descs (t, fd)).inUse = false ∧ ret = fd.val ∧
        s.nameInode (t, fd) i 0 flags = .ok s' := by
  unfold fdAlloc at h
  split at h
  · next hnone =>
    cases h
    refine .inl ⟨rfl, rfl, ?_⟩
    intro fd hfd
    have := List.find?_eq_none.mp hnone fd (List.mem_finRange fd)
    simpa [hfd] using this
  · next fd hfd =>
    obtain ⟨s₁, hname, h⟩ := bind_eq_ok_iff.mp h
    cases h
    have := List.find?_some hfd
    simp only [Bool.and_eq_true, decide_eq_true_eq, Bool.not_eq_true'] at this
    exact .inr ⟨fd, this.1, this.2, rfl, hname⟩

theorem nameInode_cases {i : Idx} {offset : Nat} {flags : UInt32}
    (h : s.nameInode k i offset flags = .ok s') :
    s' = { s.setDesc k ⟨some i, offset, flags, true, (s.fs.inodes i).ino⟩ with
      fs := s.fs.modify i fun n => { n with refCount := n.refCount + 1 } } := by
  obtain ⟨m, hm, h⟩ := bind_eq_ok_iff.mp h
  obtain ⟨-, rfl⟩ := unchecked_eq_ok_iff.mp hm
  cases h
  simp [FsGlobal.modify]

end State

end RobotOs.Fs.Vfs
