import Mathlib.Algebra.Order.BigOperators.Group.List
import Mathlib.Algebra.Order.Group.Nat
import SimpleRsyncd.FileSystem.Canonical
import SimpleRsyncd.FileSystem.File
import SimpleRsyncd.Module.FileSystemModule

/-!
This module determines the files in a listing. A listing of the root of a module that gets to the directory
of a file counts that file.
-/

namespace SimpleRsyncd
namespace Module

open Resolve

/--
What an entry adds to the files of a listing.
-/
def listedFiles (fs : FileSystem) (entry : Bytes) : List FileInfo :=
  match fs.resolve entry with
  | .error _ => []
  | .ok l =>
    match fs.data l with
    | none => []
    | some d =>
      [{ name := Path.filename entry, path := entry, type := fileType (fs.kind l), size := d.length }]

/--
What an entry adds to the directories of a listing.
-/
def listedDirectories (host : Host) (fs : FileSystem) (entry : Bytes) : List FileInfo :=
  match fs.resolve entry with
  | .error _ => []
  | .ok l =>
    match fs.data l with
    | some _ => []
    | none => [{ name := Path.filename entry, path := entry, type := fileType (fs.kind l), size := host.uninit }]

/--
What the text of a listing shows of the entries with these paths.
-/
structure Shows (host : Host) (fs : FileSystem) (path : Bytes) (entries : List Bytes) (listing : DirectoryListing)
    : Prop where
  path : listing.path = path
  files : listing.files = entries.flatMap (listedFiles fs)
  directories : listing.directories = entries.flatMap (listedDirectories host fs)
  totalFiles : listing.totalFiles = listing.files.length
  totalDirectories : listing.totalDirectories = listing.directories.length

variable {m : Module} {host : Host} {fs : FileSystem}

theorem addFileInfo_shown (host : Host) (fs : FileSystem) (listing : DirectoryListing) (entry : Bytes)
    : (addFileInfo host fs listing entry).path = listing.path
        ∧ (addFileInfo host fs listing entry).files = listing.files ++ listedFiles fs entry
        ∧ (addFileInfo host fs listing entry).directories = listing.directories ++ listedDirectories host fs entry
        ∧ (addFileInfo host fs listing entry).totalFiles = listing.totalFiles + (listedFiles fs entry).length
        ∧ (addFileInfo host fs listing entry).totalDirectories
          = listing.totalDirectories + (listedDirectories host fs entry).length := by
  unfold addFileInfo listedFiles listedDirectories FileSystem.exists
  cases hresolve : fs.resolve entry with
  | ok l =>
    cases hdata : fs.data l <;> simp [hdata]
  | error e =>
    cases e <;> simp only <;> cases fs.isSymlink entry with
    | error => simp
    | ok b => cases b <;> simp

theorem Shows.addFileInfo {path : Bytes} {entries : List Bytes} {listing : DirectoryListing}
    (h : Shows host fs path entries listing) (entry : Bytes)
    : Shows host fs path (entries ++ [entry]) (addFileInfo host fs listing entry) := by
  obtain ⟨hpath, hfiles, hdirectories, htotalFiles, htotalDirectories⟩ := addFileInfo_shown host fs listing entry
  exact {
    path := by rw [hpath, h.path]
    files := by rw [hfiles, h.files, List.flatMap_append, List.flatMap_singleton]
    directories := by rw [hdirectories, h.directories, List.flatMap_append, List.flatMap_singleton]
    totalFiles := by rw [htotalFiles, hfiles, h.totalFiles, List.length_append]
    totalDirectories := by rw [htotalDirectories, hdirectories, h.totalDirectories, List.length_append]
  }

theorem shows_foldl_addFileInfo (path : Bytes) (pathOf : Loc → Bytes) (entries : List Loc)
    : Shows host fs path (entries.map pathOf)
        (entries.foldl (fun listing l => addFileInfo host fs listing (pathOf l)) { path }) := by
  induction entries using List.reverseRecOn with
  | nil => exact ⟨rfl, rfl, rfl, rfl, rfl⟩
  | append_singleton entries l ih =>
    rw [List.map_append, List.foldl_append]
    exact ih.addFileInfo (pathOf l)

theorem length_listedFiles_of_data {entry : Bytes} {l : Loc} {d : Bytes} (hresolve : fs.resolve entry = .ok l)
    (hdata : fs.data l = some d)
    : (listedFiles fs entry).length = 1 := by
  unfold listedFiles
  rw [hresolve]
  simp only
  rw [hdata]
  rfl

theorem length_listedFiles_le {l : Loc} {n : Name} (d : Bytes) (hdir : fs.kind l = some .dir) {entry : Bytes}
    : (listedFiles (fs.withFile (l ++ [n]) none) entry).length
      ≤ (listedFiles (fs.withFile (l ++ [n]) (some d)) entry).length := by
  by_cases hfile : ∃ l' d', (fs.withFile (l ++ [n]) none).resolve entry = .ok l'
      ∧ (fs.withFile (l ++ [n]) none).data l' = some d'
  . obtain ⟨l', d', hresolve, hdata⟩ := hfile
    obtain ⟨hresolve', hdata'⟩ := FileSystem.data_withFile_mono d hdir hresolve hdata
    rw [length_listedFiles_of_data hresolve hdata, length_listedFiles_of_data hresolve' hdata']
  . have hnone : listedFiles (fs.withFile (l ++ [n]) none) entry = [] := by
      unfold listedFiles
      split
      . rfl
      . next l' hresolve =>
        split
        . rfl
        . next d' hdata => exact absurd ⟨l', d', hresolve, hdata⟩ hfile
    rw [hnone]
    exact Nat.zero_le _

theorem checkReadPermission_root {root : Loc} (hpath : m.config.path ≠ [])
    (hroot : fs.resolve m.config.path = .ok root) (hdir : fs.kind root = some .dir)
    : m.checkReadPermission host fs [] = .ok true := by
  simp [checkReadPermission, resolvePath, FileSystem.exists, FileSystem.isDirectory, FileSystem.hasKind, hroot, hdir,
    hpath, bind, Except.bind]

theorem resolveSafe_root (hpath : m.config.path ≠ []) : m.resolveSafe fs [] = .ok (some m.config.path) := by
  have hdots : Bytes.contains [] dotDot = false := by decide
  have hinside : Bytes.contains [] (bytes "/../") = false := by decide
  have hleading : Bytes.startsWith [] (bytes "../") = false := by decide
  simp [resolveSafe, isPathSafe, isPathTraversal, resolvePath, hdots, hinside, hleading, hpath, bind, Except.bind]

/--
The path of a directory that is iterated over with the names below it.
-/
def entryPath (fullPath : Bytes) (l : Loc) : Bytes :=
  l.foldl (fun p n => Path.append p n.toBytes) fullPath

theorem path_ne_nil_of_resolve {root : Loc} (hroot : fs.resolve m.config.path = .ok root) : m.config.path ≠ [] := by
  rintro hnil
  simp [FileSystem.resolve, hnil] at hroot

/--
The request is granted, and these are the entries below the directory it leads to.
-/
structure Iterates (m : Module) (host : Host) (fs : FileSystem) (path : Bytes) (recursive : Bool) (fullPath : Bytes)
    (entries : List Loc) : Prop where
  readable : m.checkReadPermission host fs path = .ok true
  resolved : m.resolveSafe fs path = .ok (some fullPath)
  entries : fs.directoryEntries fullPath recursive = .ok entries

theorem Iterates.shows {path fullPath : Bytes} {recursive : Bool} {entries : List Loc}
    (h : m.Iterates host fs path recursive fullPath entries)
    : ∃ listing, m.listDirectory host fs path recursive = .ok listing
        ∧ Shows host fs path (entries.map (entryPath fullPath)) listing := by
  refine ⟨_, ?_, shows_foldl_addFileInfo path (entryPath fullPath) entries⟩
  unfold listDirectory
  rw [h.readable, h.resolved]
  simp only [bind, Except.bind, if_true, h.entries, entryPath]

theorem iterates_root (host : Host) {root : Loc} {recursive : Bool} {entries : List Loc}
    (hroot : fs.resolve m.config.path = .ok root) (hdir : fs.kind root = some .dir)
    (hentries : fs.directoryEntries m.config.path recursive = .ok entries)
    : m.Iterates host fs [] recursive m.config.path entries :=
  have hpath := path_ne_nil_of_resolve hroot
  ⟨checkReadPermission_root hpath hroot hdir, resolveSafe_root hpath, hentries⟩

/--
A slash at the end of a path does not change where it leads.
-/
theorem resolve_pieces {p : Bytes} {l : Loc} (h : fs.resolve p = .ok l)
    : ∃ left, resolve fs.kind false maxSymlinks (fs.start p) ((Path.pieces p).map Elem.ofBytes) = .ok (l, left) := by
  rw [FileSystem.resolve] at h
  split at h
  . contradiction
  . rw [FileSystem.resolveElems, Path.elems, resolve_append _ _ _ _ (.inl rfl)] at h
    cases hpieces : resolve fs.kind false maxSymlinks (fs.start p) ((Path.pieces p).map Elem.ofBytes) with
    | error e => simp [hpieces, Except.bind, Except.map] at h
    | ok r =>
      refine ⟨r.2, ?_⟩
      suffices r.1 = l by rw [← this]
      simp only [hpieces, Except.bind] at h
      split at h
      . by_cases hdir : fs.kind r.1 = some .dir
        . rw [resolve_cons_stay hdir (.inl rfl), resolve_nil] at h
          simpa [Except.map] using h
        . rw [resolve_cons_of_not_dir hdir] at h
          simp [Except.map] at h
      . simpa [Except.map] using h

/--
The path of an entry below the root leads to it.
-/
theorem resolve_below_root {root names : Loc} {n : Name} {d : Bytes}
    (hroot : fs.resolve m.config.path = .ok root) (hdir : fs.kind (root ++ names) = some .dir)
    (hdata : fs.data (root ++ names ++ [n]) = some d)
    : fs.resolve (entryPath m.config.path (names ++ [n])) = .ok (root ++ names ++ [n]) := by
  obtain ⟨habs, helems⟩ := Path.append_names (names ++ [n]) (path_ne_nil_of_resolve hroot)
  replace helems := helems (by simp)
  obtain ⟨left, hleft⟩ := resolve_pieces hroot
  rw [entryPath]
  generalize (names ++ [n]).foldl (fun p n => Path.append p n.toBytes) m.config.path = p at habs helems ⊢
  have hne : p.isEmpty = false := by
    cases p with
    | nil => simp [Path.elems, Path.pieces, Path.hasTrailingSlash] at helems
    | cons => rfl
  have hstart : fs.start p = fs.start m.config.path := by
    rw [FileSystem.start, FileSystem.start, habs]
  have hnames : resolve fs.kind false left root ((names ++ [n]).map .name) = .ok (root ++ names ++ [n], left) := by
    rw [List.map_append, resolve_names fs.isTree false left _ hdir, List.map_singleton,
      resolve_cons_entry hdir (fs.kind_of_data hdata) (by simp), resolve_nil]
  rw [FileSystem.resolve, hne, FileSystem.resolveElems, helems, hstart, resolve_append _ _ _ _ (.inl rfl), hleft]
  simp only [Except.bind, hnames]
  rfl

theorem directoryEntries_of_node {p : Bytes} {l : Loc} {t : Node} (recursive : Bool) (hresolve : fs.resolve p = .ok l)
    (hnode : fs.node l = some t) (ht : t.kind = .dir)
    : fs.directoryEntries p recursive
      = .ok (if recursive then t.descendants else t.entries.map fun e => [e.1]) := by
  cases t with
  | file => simp [Node.kind] at ht
  | symlink => simp [Node.kind] at ht
  | dir es =>
    simp only [FileSystem.directoryEntries, hresolve, hnode, bind, Except.bind]
    rfl

theorem node_withFile_above {root names : Loc} {n : Name} {es : List (Name × Node)} (content : Option Bytes)
    (hnode : fs.node root = some (.dir es))
    : (fs.withFile (root ++ names ++ [n]) content).node root
      = some ((Node.dir es).alter (fun _ => content.map .file) (names ++ [n])) := by
  rw [FileSystem.node, FileSystem.withFile, FileSystem.root_alter, List.append_assoc,
    Node.get_alter_append _ _ (by simp)]
  rw [FileSystem.node] at hnode
  rw [hnode]
  rfl

/--
An iteration that gets to the directory of a file finds it in addition to everything else.
-/
theorem directoryEntries_withFile {p : Bytes} {root names : Loc} {n : Name} {recursive : Bool} (d : Bytes)
    (hroot : fs.resolve p = .ok root) (hdir : fs.kind (root ++ names) = some .dir)
    (hfree : fs.IsFree (root ++ names ++ [n])) (hreach : recursive = true ∨ names = [])
    : ∃ entries entries', (fs.withFile (root ++ names ++ [n]) none).directoryEntries p recursive = .ok entries
        ∧ (fs.withFile (root ++ names ++ [n]) (some d)).directoryEntries p recursive = .ok entries'
        ∧ entries'.Perm ((names ++ [n]) :: entries) := by
  have hkind := FileSystem.kind_of_below hdir
  obtain ⟨es, hnode⟩ := FileSystem.node_of_dir hkind
  have hentries : ∀ content, (fs.withFile (root ++ names ++ [n]) content).directoryEntries p recursive = .ok _ :=
    fun content => directoryEntries_of_node recursive (FileSystem.resolve_withFile content hdir hfree hroot hkind)
      (node_withFile_above content hnode) (Node.alter_kind _ _)
  refine ⟨_, _, hentries none, hentries (some d), ?_⟩
  rcases hreach with rfl | rfl
  . refine Node.descendants_alter _ names n d ?_
    rw [FileSystem.kind, FileSystem.node, Node.get_append] at hdir
    rw [FileSystem.node] at hnode
    simpa [hnode] using hdir
  . cases recursive with
    | true => exact Node.descendants_alter _ [] n d rfl
    | false => simp [Node.alter, Node.entries, Node.setEntry]

/--
A listing of the root that gets to the directory of a file counts it.
-/
theorem totalFiles_lt (host : Host) {root names : Loc} {n : Name} (recursive : Bool) (d : Bytes)
    (hroot : fs.resolve m.config.path = .ok root) (hdir : fs.kind (root ++ names) = some .dir)
    (hfree : fs.IsFree (root ++ names ++ [n])) (hreach : recursive = true ∨ names = [])
    : ∃ listing listing',
        m.listDirectory host (fs.withFile (root ++ names ++ [n]) none) [] recursive = .ok listing
          ∧ m.listDirectory host (fs.withFile (root ++ names ++ [n]) (some d)) [] recursive = .ok listing'
          ∧ listing.path = listing'.path ∧ listing.totalFiles < listing'.totalFiles := by
  have hkind := FileSystem.kind_of_below hdir
  obtain ⟨entries, entries', hentries, hentries', hperm⟩ := directoryEntries_withFile d hroot hdir hfree hreach
  have hroot' : ∀ content, (fs.withFile (root ++ names ++ [n]) content).resolve m.config.path = .ok root :=
    fun content => FileSystem.resolve_withFile content hdir hfree hroot hkind
  have hdir' : ∀ content, (fs.withFile (root ++ names ++ [n]) content).kind (root ++ names) = some .dir := by
    intro content
    rw [FileSystem.kind_withFile_of_ne content hdir hfree (by simp), hdir]
  obtain ⟨listing, hlisting, hshows⟩ :=
    (iterates_root host (hroot' _) (FileSystem.kind_of_below (hdir' _)) hentries).shows
  obtain ⟨listing', hlisting', hshows'⟩ :=
    (iterates_root host (hroot' _) (FileSystem.kind_of_below (hdir' _)) hentries').shows
  refine ⟨listing, listing', hlisting, hlisting', hshows.path.trans hshows'.path.symm, ?_⟩
  rw [hshows.totalFiles, hshows'.totalFiles, hshows.files, hshows'.files, List.flatMap_map, List.flatMap_map,
    (hperm.flatMap_right _).length_eq, List.flatMap_cons, List.length_append]
  have hnew : (listedFiles (fs.withFile (root ++ names ++ [n]) (some d))
      (entryPath m.config.path (names ++ [n]))).length = 1 :=
    length_listedFiles_of_data (resolve_below_root (hroot' _) (hdir' _) (FileSystem.data_withFile (some d) hdir))
      (FileSystem.data_withFile (some d) hdir)
  have hold : (entries.flatMap fun l => listedFiles (fs.withFile (root ++ names ++ [n]) none)
        (entryPath m.config.path l)).length
      ≤ (entries.flatMap fun l => listedFiles (fs.withFile (root ++ names ++ [n]) (some d))
        (entryPath m.config.path l)).length := by
    rw [List.length_flatMap, List.length_flatMap]
    exact List.sum_le_sum fun l _ => length_listedFiles_le d hdir
  omega

theorem ne_nil_of_mem_entryDescendants {es : List (Name × Node)} {l : Loc} (h : l ∈ Node.entryDescendants es)
    : l ≠ [] := by
  induction es with
  | nil => simp [Node.entryDescendants] at h
  | cons e es ih =>
    obtain ⟨n, c⟩ := e
    rw [Node.entryDescendants, List.mem_append, List.mem_cons, List.mem_map] at h
    rcases h with (rfl | ⟨l', -, rfl⟩) | h
    . simp
    . simp
    . exact ih h

theorem Iterates.exists_entries {path fullPath : Bytes} {recursive : Bool} {entries : List Loc}
    (h : m.Iterates host fs path recursive fullPath entries)
    : ∃ es, entries = if recursive then Node.entryDescendants es else es.map fun e => [e.1] := by
  have hentries := h.entries
  unfold FileSystem.directoryEntries at hentries
  cases hresolve : fs.resolve fullPath with
  | error => simp [hresolve, bind, Except.bind] at hentries
  | ok d =>
    simp only [hresolve, bind, Except.bind] at hentries
    split at hentries
    . next es hnode => exact ⟨es, (Except.ok.inj hentries).symm⟩
    . contradiction

theorem Iterates.ne_nil {path fullPath : Bytes} {recursive : Bool} {entries : List Loc}
    (h : m.Iterates host fs path recursive fullPath entries)
    : ∀ l ∈ entries, l ≠ [] := by
  obtain ⟨es, rfl⟩ := h.exists_entries
  intro l hl
  cases recursive with
  | true => exact ne_nil_of_mem_entryDescendants hl
  | false =>
    obtain ⟨e, -, rfl⟩ := List.mem_map.mp hl
    simp

theorem Iterates.exists_name {path fullPath : Bytes} {entries : List Loc}
    (h : m.Iterates host fs path false fullPath entries)
    : ∀ l ∈ entries, ∃ n, l = [n] := by
  obtain ⟨es, rfl⟩ := h.exists_entries
  intro l hl
  obtain ⟨e, -, rfl⟩ := List.mem_map.mp hl
  exact ⟨e.1, rfl⟩

section below

variable (fs : FileSystem) (fullPath : Bytes)

/--
The regular files among the entries below a directory, with their sizes.
-/
def filesBelow (entries : List Loc) : List (Loc × Nat) :=
  entries.filterMap fun l => (fs.fileSize (entryPath fullPath l)).toOption.map (l, ·)

def directoriesBelow (entries : List Loc) : List Loc :=
  entries.filter fun l => fs.isDirectory (entryPath fullPath l) = .ok true

/--
The last component of a path relative to the directory.
-/
def lastName (l : Loc) : Bytes :=
  (l.getLast?.map Name.toBytes).getD []

/--
The entry of a directory with that name.
-/
def ofLastName (name : Bytes) : Loc :=
  if h : IsName name then [⟨name, h⟩] else []

end below

theorem filename_entryPath (fullPath : Bytes) {l : Loc} (h : l ≠ [])
    : Path.filename (entryPath fullPath l) = lastName l := by
  cases l using List.reverseRecOn with
  | nil => contradiction
  | append_singleton l n =>
    rw [entryPath, List.foldl_append]
    simp [Path.filename_append_name, lastName]

section below

variable (host : Host) (fs : FileSystem) (fullPath : Bytes) {entries : List Loc} (hentries : ∀ l ∈ entries, l ≠ [])

include hentries

/--
What is shown has the name of an entry.
-/
theorem name_of_mem_listed
    : ∀ info,
        (info ∈ (entries.map (entryPath fullPath)).flatMap (listedFiles fs)
          ∨ info ∈ (entries.map (entryPath fullPath)).flatMap (listedDirectories host fs)) →
        ∃ l ∈ entries, info.name = lastName l := by
  intro info hinfo
  have hname : ∀ l ∈ entries, info ∈ listedFiles fs (entryPath fullPath l)
      ∨ info ∈ listedDirectories host fs (entryPath fullPath l) → info.name = lastName l := by
    intro l hl hinfo
    rw [← filename_entryPath fullPath (hentries l hl)]
    unfold listedFiles listedDirectories at hinfo
    cases hresolve : fs.resolve (entryPath fullPath l) with
    | error => simp [hresolve] at hinfo
    | ok t => cases hdata : fs.data t <;> simp_all
  rcases hinfo with hinfo | hinfo
  . obtain ⟨_, hpath, hinfo⟩ := List.mem_flatMap.mp hinfo
    obtain ⟨l, hl, rfl⟩ := List.mem_map.mp hpath
    exact ⟨l, hl, hname l hl (.inl hinfo)⟩
  . obtain ⟨_, hpath, hinfo⟩ := List.mem_flatMap.mp hinfo
    obtain ⟨l, hl, rfl⟩ := List.mem_map.mp hpath
    exact ⟨l, hl, hname l hl (.inr hinfo)⟩

/--
The names and the sizes of the files in a listing.
-/
theorem files_of_entries
    : ((entries.map (entryPath fullPath)).flatMap (listedFiles fs)).map (fun file => (file.name, file.size))
      = (filesBelow fs fullPath entries).map fun file => (lastName file.1, file.2) := by
  induction entries with
  | nil => rfl
  | cons l entries ih =>
    obtain ⟨hl, hentries⟩ := List.forall_mem_cons.mp hentries
    have hfirst : (listedFiles fs (entryPath fullPath l)).map (fun file => (file.name, file.size))
        = ((fs.fileSize (entryPath fullPath l)).toOption.map fun size => (lastName l, size)).toList := by
      rw [← filename_entryPath fullPath hl, FileSystem.fileSize, listedFiles]
      cases hresolve : fs.resolve (entryPath fullPath l) with
      | error => rfl
      | ok t => cases hdata : fs.data t <;> simp [hdata, bind, Except.bind, Except.toOption]
    rw [List.map_cons, List.flatMap_cons, List.map_append, ih hentries, hfirst, filesBelow, filesBelow,
      List.filterMap_cons]
    cases (fs.fileSize (entryPath fullPath l)).toOption <;> rfl

/--
The names of the directories in a listing.
-/
theorem directories_of_entries
    : ((entries.map (entryPath fullPath)).flatMap (listedDirectories host fs)).map FileInfo.name
      = (directoriesBelow fs fullPath entries).map lastName := by
  induction entries with
  | nil => rfl
  | cons l entries ih =>
    obtain ⟨hl, hentries⟩ := List.forall_mem_cons.mp hentries
    have hfirst : (listedDirectories host fs (entryPath fullPath l)).map FileInfo.name
        = if fs.isDirectory (entryPath fullPath l) = .ok true then [lastName l] else [] := by
      rw [← filename_entryPath fullPath hl, FileSystem.isDirectory, FileSystem.hasKind, listedDirectories]
      cases hresolve : fs.resolve (entryPath fullPath l) with
      | error e => cases e <;> rfl
      | ok t =>
        cases hdata : fs.data t with
        | some d => simp [hdata, fs.kind_of_data hdata]
        | none =>
          have hdir : fs.kind t = some .dir := by
            rcases FileSystem.kind_of_resolve_eq_ok hresolve with hkind | hkind
            . exact hkind
            . obtain ⟨d, hd⟩ := fs.data_of_kind hkind
              simp [hdata] at hd
          simp [hdata, hdir]
    rw [List.map_cons, List.flatMap_cons, List.map_append, ih hentries, hfirst, directoriesBelow, directoriesBelow,
      List.filter_cons]
    split <;> simp_all

end below

section names

variable {fullPath : Bytes} {entries : List Loc} (hentries : ∀ l ∈ entries, ∃ n, l = [n])

include hentries

/--
The entries of a directory are found by their names.
-/
theorem filesBelow_of_names
    : ((filesBelow fs fullPath entries).map fun file => (lastName file.1, file.2)).map
        (fun file => (ofLastName file.1, file.2))
      = filesBelow fs fullPath entries := by
  rw [List.map_map]
  refine (List.map_congr_left ?_).trans (List.map_id _)
  intro file hfile
  obtain ⟨l, hl, hsize⟩ := List.mem_filterMap.mp hfile
  obtain ⟨n, rfl⟩ := hentries l hl
  obtain ⟨size, -, rfl⟩ := Option.map_eq_some_iff.mp hsize
  simp [lastName, ofLastName, n.isName]

theorem directoriesBelow_of_names
    : ((directoriesBelow fs fullPath entries).map lastName).map ofLastName = directoriesBelow fs fullPath entries := by
  rw [List.map_map]
  refine (List.map_congr_left ?_).trans (List.map_id _)
  intro l hl
  obtain ⟨n, rfl⟩ := hentries l (List.mem_of_mem_filter hl)
  simp [lastName, ofLastName, n.isName]

end names

end Module
end SimpleRsyncd
