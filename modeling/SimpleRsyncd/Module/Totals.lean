import Mathlib.Algebra.GroupWithZero.Nat
import SimpleRsyncd.Module.Listing

/-!
This module determines the totals of a listing, whatever the calls that `addFileInfo` makes for an entry
answer. What the sizes of directories, symbolic links and other entries hold is added up as well, although
nothing has been assigned to them.
-/

namespace SimpleRsyncd

/--
The lists of a `DirectoryListing`.
-/
inductive ListKind where
  | files
  | directories
  | symlinks
  | other
  deriving DecidableEq

namespace DirectoryListing

variable (listing : DirectoryListing)

def list : ListKind → List FileInfo
  | .files => listing.files
  | .directories => listing.directories
  | .symlinks => listing.symlinks
  | .other => listing.other

def total : ListKind → Nat
  | .files => listing.totalFiles
  | .directories => listing.totalDirectories
  | .symlinks => listing.totalSymlinks
  | .other => listing.totalOther

/--
The end of `addFileInfo`: the information goes into a list, and both totals count it.
-/
def push (k : ListKind) (info : FileInfo) : DirectoryListing :=
  let listing := { listing with totalSize := (listing.totalSize + info.size) % 2 ^ 64 }
  match k with
  | .files =>
    { listing with files := listing.files ++ [info], totalFiles := listing.totalFiles + 1 }
  | .directories =>
    { listing with directories := listing.directories ++ [info], totalDirectories := listing.totalDirectories + 1 }
  | .symlinks =>
    { listing with symlinks := listing.symlinks ++ [info], totalSymlinks := listing.totalSymlinks + 1 }
  | .other =>
    { listing with other := listing.other ++ [info], totalOther := listing.totalOther + 1 }

theorem list_push (k k' : ListKind) (info : FileInfo)
    : (listing.push k info).list k' = listing.list k' ++ if k' = k then [info] else [] := by
  cases k <;> cases k' <;> simp [push, list]

theorem total_push (k k' : ListKind) (info : FileInfo)
    : (listing.push k info).total k' = listing.total k' + if k' = k then 1 else 0 := by
  cases k <;> cases k' <;> simp [push, total]

theorem totalSize_push (k : ListKind) (info : FileInfo)
    : (listing.push k info).totalSize = (listing.totalSize + info.size) % 2 ^ 64 := by
  cases k <;> rfl

end DirectoryListing

/--
An entry of a directory as the calls of `addFileInfo` answer it, any of them can throw. Before an assignment the
size in a `FileInfo` holds `uninit`.
-/
structure Entry where
  path : Bytes
  uninit : Nat
  status : Except Errno Int
  relative : Except Errno Bytes := .ok []
  isRegularFile : Except Errno Bool
  fileSize : Except Errno Nat
  isDirectory : Except Errno Bool
  isSymlink : Except Errno Bool

namespace Entry

/--
The information `addFileInfo` gathers and the list it is meant for.
-/
def record (entry : Entry) : Except Errno (ListKind × FileInfo) := do
  let type ← entry.status
  let _ ← entry.relative
  let info : FileInfo := { name := Path.filename entry.path, path := entry.path, type, size := entry.uninit }
  if ← entry.isRegularFile then
    let size ← entry.fileSize
    .ok (.files, { info with size })
  else if ← entry.isDirectory then
    .ok (.directories, info)
  else if ← entry.isSymlink then
    .ok (.symlinks, { info with isSymlink := true })
  else
    .ok (.other, info)

/--
`addFileInfo`, an entry that cannot be accessed is skipped.
-/
def addTo (listing : DirectoryListing) (entry : Entry) : DirectoryListing :=
  match entry.record with
  | .ok (k, info) => listing.push k info
  | .error _ => listing

/--
What the entry adds to a list.
-/
def infoIn (k : ListKind) (entry : Entry) : Option FileInfo :=
  match entry.record with
  | .ok (k', info) => if k = k' then some info else none
  | .error _ => none

/--
The size of a regular file that can be accessed.
-/
def assignedSize (entry : Entry) : Option Nat :=
  match entry.status, entry.relative, entry.isRegularFile, entry.fileSize with
  | .ok _, .ok _, .ok true, .ok size => some size
  | _, _, _, _ => none

/--
The entry can be accessed, and it is not a regular file.
-/
def isUnsized (entry : Entry) : Bool :=
  match entry.status, entry.relative, entry.isRegularFile, entry.isDirectory, entry.isSymlink with
  | .ok _, .ok _, .ok false, .ok true, _ => true
  | .ok _, .ok _, .ok false, .ok false, .ok _ => true
  | _, _, _, _, _ => false

variable (entry : Entry)

theorem record_cases
    : (∃ info, entry.record = .ok (.files, info) ∧ entry.assignedSize = some info.size ∧ entry.isUnsized = false)
        ∨ (∃ k info, entry.record = .ok (k, info) ∧ k ≠ .files ∧ info.size = entry.uninit
            ∧ entry.assignedSize = none ∧ entry.isUnsized = true)
        ∨ (∃ e, entry.record = .error e ∧ entry.assignedSize = none ∧ entry.isUnsized = false) := by
  obtain ⟨path, uninit, status, relative, isRegularFile, fileSize, isDirectory, isSymlink⟩ := entry
  cases status with
  | error => exact .inr (.inr ⟨_, rfl, rfl, rfl⟩)
  | ok =>
    cases relative with
    | error => exact .inr (.inr ⟨_, rfl, rfl, rfl⟩)
    | ok =>
      cases isRegularFile with
      | error => exact .inr (.inr ⟨_, rfl, rfl, rfl⟩)
      | ok isFile =>
        cases isFile with
        | true =>
          cases fileSize with
          | error => exact .inr (.inr ⟨_, rfl, rfl, rfl⟩)
          | ok => exact .inl ⟨_, rfl, rfl, rfl⟩
        | false =>
          cases isDirectory with
          | error => exact .inr (.inr ⟨_, rfl, rfl, rfl⟩)
          | ok isDir =>
            cases isDir with
            | true => exact .inr (.inl ⟨_, _, rfl, by decide, rfl, rfl, rfl⟩)
            | false =>
              cases isSymlink with
              | error => exact .inr (.inr ⟨_, rfl, rfl, rfl⟩)
              | ok isLink => cases isLink <;> exact .inr (.inl ⟨_, _, rfl, by decide, rfl, rfl, rfl⟩)

/--
An entry that can be accessed is in exactly one list.
-/
theorem existsUnique_infoIn {r : ListKind × FileInfo} (h : entry.record = .ok r)
    : ∃! k, (entry.infoIn k).isSome := by
  refine ⟨r.1, by simp [infoIn, h], fun k hk => ?_⟩
  simp only [infoIn, h] at hk
  split at hk
  . assumption
  . contradiction

end Entry

/--
The loop of `listDirectory`.
-/
def listEntries (path : Bytes) (entries : List Entry) : DirectoryListing :=
  entries.foldl Entry.addTo { path }

theorem listed_append (path : Bytes) (entries : List Entry) (entry : Entry)
    : listEntries path (entries ++ [entry]) = Entry.addTo (listEntries path entries) entry := by
  simp [listEntries]

theorem list_listEntries (path : Bytes) (entries : List Entry) (k : ListKind)
    : (listEntries path entries).list k = entries.filterMap (Entry.infoIn k) := by
  induction entries using List.reverseRecOn with
  | nil => cases k <;> rfl
  | append_singleton entries entry ih =>
    rw [listed_append, List.filterMap_append, ← ih]
    rcases hrecord : entry.record with e | ⟨k', info⟩
    . simp [Entry.addTo, Entry.infoIn, hrecord]
    . simp only [Entry.addTo, hrecord, DirectoryListing.list_push, List.filterMap_cons, Entry.infoIn]
      split <;> rfl

theorem total_listEntries (path : Bytes) (entries : List Entry) (k : ListKind)
    : (listEntries path entries).total k = ((listEntries path entries).list k).length := by
  induction entries using List.reverseRecOn with
  | nil => cases k <;> rfl
  | append_singleton entries entry ih =>
    rw [listed_append, Entry.addTo]
    split
    . rw [DirectoryListing.total_push, DirectoryListing.list_push, ih, List.length_append]
      split <;> rfl
    . exact ih

theorem sizes_listEntries (path : Bytes) (entries : List Entry)
    : (listEntries path entries).files.map FileInfo.size = entries.filterMap Entry.assignedSize := by
  change ((listEntries path entries).list .files).map FileInfo.size = _
  rw [list_listEntries, List.map_filterMap]
  refine List.filterMap_congr fun entry _ => ?_
  obtain ⟨info, hrecord, hsize, -⟩ | ⟨k, info, hrecord, hk, -, hsize, -⟩ | ⟨e, hrecord, hsize, -⟩ :=
    entry.record_cases
  . simp [Entry.infoIn, hrecord, hsize]
  . simp [Entry.infoIn, hrecord, hsize, Ne.symm hk]
  . simp [Entry.infoIn, hrecord, hsize]

/--
Every entry that can be accessed counts, with the size of the file or with what its size happens to hold.
-/
theorem totalSize_listEntries (path : Bytes) (entries : List Entry)
    : (listEntries path entries).totalSize
      = ((entries.filterMap Entry.assignedSize).sum + ((entries.filter Entry.isUnsized).map Entry.uninit).sum)
          % 2 ^ 64 := by
  induction entries using List.reverseRecOn with
  | nil => rfl
  | append_singleton entries entry ih =>
    rw [listed_append, List.filterMap_append, List.filter_append, List.map_append, List.sum_append, List.sum_append,
      Entry.addTo]
    obtain ⟨info, hrecord, hsize, hunsized⟩ | ⟨k, info, hrecord, -, hinfo, hsize, hunsized⟩
        | ⟨e, hrecord, hsize, hunsized⟩ := entry.record_cases
    . rw [hrecord]
      simp only [DirectoryListing.totalSize_push, ih, List.filterMap_cons, hsize, List.filter_cons, hunsized,
        List.filterMap_nil, List.filter_nil, List.sum_singleton, List.map_nil, List.sum_nil, Bool.false_eq_true,
        if_false]
      omega
    . rw [hrecord]
      simp only [DirectoryListing.totalSize_push, ih, List.filterMap_cons, hsize, List.filter_cons, hunsized, hinfo,
        List.filterMap_nil, List.filter_nil, List.sum_singleton, List.map_cons, List.map_nil, List.sum_nil, if_true]
      omega
    . rw [hrecord]
      simpa [hsize, hunsized] using ih

namespace Module

variable (m : Module) (host : Host) (fs : FileSystem)

/--
How the file system answers for an entry of a directory.
-/
def entryAt (entry : Bytes) : Entry where
  path := entry
  uninit := host.uninit
  status :=
    match fs.resolve entry with
    | .ok l => .ok (fileType (fs.kind l))
    | .error .enoent | .error .enotdir => .ok (fileType none)
    | .error e => .error e
  isRegularFile := fs.isRegularFile entry
  fileSize := fs.fileSize entry
  isDirectory := fs.isDirectory entry
  isSymlink := fs.isSymlink entry

theorem addFileInfo_eq_addTo (listing : DirectoryListing) (entry : Bytes)
    : addFileInfo host fs listing entry = (entryAt host fs entry).addTo listing := by
  unfold addFileInfo Entry.addTo Entry.record entryAt FileSystem.exists FileSystem.isRegularFile FileSystem.isDirectory
    FileSystem.hasKind FileSystem.fileSize
  cases hresolve : fs.resolve entry with
  | ok l =>
    rcases FileSystem.kind_of_resolve_eq_ok hresolve with hkind | hkind
    . have hdata : fs.data l = none := by
        cases hdata : fs.data l with
        | none => rfl
        | some d => simp [fs.kind_of_data hdata] at hkind
      simp [hkind, hdata, bind, Except.bind, DirectoryListing.push]
    . obtain ⟨d, hdata⟩ := fs.data_of_kind hkind
      simp [hkind, hdata, bind, Except.bind, DirectoryListing.push]
  | error e =>
    cases e <;> simp only [bind, Except.bind, Bool.false_eq_true, if_false] <;> try rfl
    all_goals
      rcases fs.isSymlink entry with e | b
      . rfl
      . cases b <;> rfl

/--
The paths of the entries that `listDirectory` iterates over.
-/
def iteratedPaths (path : Bytes) (recursive : Bool) : Except Errno (List Bytes) := do
  if ← m.checkReadPermission host fs path then
    match ← m.resolveSafe fs path with
    | some fullPath =>
      match fs.directoryEntries fullPath recursive with
      | .ok entries => .ok (entries.map (entryPath fullPath))
      | .error _ => .ok []
    | none => .ok []
  else
    .ok []

theorem listDirectory_eq_listEntries (path : Bytes) (recursive : Bool)
    : m.listDirectory host fs path recursive
      = (m.iteratedPaths host fs path recursive).map fun paths => listEntries path (paths.map (entryAt host fs)) := by
  unfold listDirectory iteratedPaths
  rcases m.checkReadPermission host fs path with e | b
  . rfl
  . cases b with
    | false => rfl
    | true =>
      rcases m.resolveSafe fs path with e | fullPath
      . rfl
      . cases fullPath with
        | none => rfl
        | some fullPath =>
          simp only [bind, Except.bind, if_true]
          cases fs.directoryEntries fullPath recursive with
          | error e => rfl
          | ok entries =>
            simp only [addFileInfo_eq_addTo]
            simp [Except.map, listEntries, List.foldl_map, entryPath]

/--
The counters of a listing are the lengths of its lists, and every entry that can be accessed is in exactly one of
them. The total size is that of the files if and only if the other sizes cancel out.
-/
theorem listDirectory_totals_iff (path : Bytes) (entries : List Entry)
    : (∀ k, (listEntries path entries).total k = ((listEntries path entries).list k).length)
        ∧ (∀ k, (listEntries path entries).list k = entries.filterMap (Entry.infoIn k))
        ∧ (∀ entry ∈ entries, ∀ r, entry.record = .ok r → ∃! k, (entry.infoIn k).isSome)
        ∧ ((listEntries path entries).totalSize = ((listEntries path entries).files.map FileInfo.size).sum
            ↔
          (entries.filterMap Entry.assignedSize).sum < 2 ^ 64
            ∧ 2 ^ 64 ∣ ((entries.filter Entry.isUnsized).map Entry.uninit).sum)
        ∧ ∀ (m : Module) (host : Host) (fs : FileSystem) (recursive : Bool),
          m.listDirectory host fs path recursive
            = (m.iteratedPaths host fs path recursive).map fun paths =>
                listEntries path (paths.map (entryAt host fs)) := by
  refine ⟨total_listEntries path entries, list_listEntries path entries,
    fun entry _ _ => entry.existsUnique_infoIn, ?_, fun m host fs => m.listDirectory_eq_listEntries host fs path⟩
  rw [totalSize_listEntries, sizes_listEntries]
  generalize (entries.filterMap Entry.assignedSize).sum = sizes
  generalize ((entries.filter Entry.isUnsized).map Entry.uninit).sum = others
  omega

/--
A subdirectory adds what its size happens to hold.
-/
theorem not_listDirectory_totals_single
    : ∃ listing,
        Module.listDirectory { config := { path := bytes "/m" } } { uninit := 7 }
            { entries := [(⟨bytes "m", isName_m⟩, .dir [(⟨bytes "m", isName_m⟩, .dir [])])] } [] false
          = .ok listing
          ∧ listing.totalSize = 7
          ∧ (listing.files.map FileInfo.size).sum = 0 :=
  ⟨_, rfl, by decide, by decide⟩

end Module
end SimpleRsyncd
