import SimpleRsyncd.Bytes.Decimal
import SimpleRsyncd.Module.Listing
import SimpleRsyncd.Protocol.Handler

/-!
This module determines what a client can read from the text of a listing. The names in it are not quoted, so
that a newline in a name looks like the end of a line, and of a path only the last component is shown.
-/

namespace SimpleRsyncd
namespace ProtocolHandler

def fileLine (name : Bytes) (size : Nat) : Bytes :=
  bytes "F " ++ name ++ bytes " " ++ Bytes.ofNat size

def directoryLine (name : Bytes) : Bytes :=
  bytes "D " ++ name

/--
The lines below the head of a listing.
-/
def listingLines (listing : DirectoryListing) : List Bytes :=
  listing.files.map (fun file => fileLine file.name file.size)
    ++ listing.directories.map fun dir => directoryLine dir.name

theorem formatListing_eq (listing : DirectoryListing)
    : formatListing listing
        =
      bytes "@RSYNCD: OK\n" ++ bytes "Path: " ++ listing.path ++ bytes "\n"
        ++ bytes "Files: " ++ Bytes.ofNat listing.totalFiles ++ newline :: (bytes "Directories: "
        ++ Bytes.ofNat listing.totalDirectories ++ newline :: (bytes "Total size: "
        ++ Bytes.ofNat listing.totalSize ++ newline :: (listingLines listing).flatMap (· ++ [newline]))) := by
  have hline : bytes "\n" = [newline] := by decide
  simp only [formatListing, listingLines, fileLine, directoryLine, List.flatMap_append, List.flatMap_map, hline,
    List.append_assoc, List.cons_append]
  rfl

/--
The numbers in the head of a listing are in its text, and so are the lines that follow.
-/
theorem head_of_formatListing {listing listing' : DirectoryListing} (hpath : listing.path = listing'.path)
    (h : formatListing listing = formatListing listing')
    : listing.totalFiles = listing'.totalFiles ∧ listing.totalDirectories = listing'.totalDirectories
        ∧ (listingLines listing).flatMap (· ++ [newline]) = (listingLines listing').flatMap (· ++ [newline]) := by
  rw [formatListing_eq, formatListing_eq, hpath] at h
  simp only [List.append_assoc, List.append_cancel_left_eq] at h
  obtain ⟨hfiles, h⟩ := Bytes.ofNat_append_inj (by decide) h
  rw [List.append_cancel_left_eq] at h
  obtain ⟨hdirectories, h⟩ := Bytes.ofNat_append_inj (by decide) h
  rw [List.append_cancel_left_eq] at h
  exact ⟨hfiles, hdirectories, (Bytes.ofNat_append_inj (by decide) h).2⟩

/--
The number of files is in the text of a listing.
-/
theorem totalFiles_of_formatListing {listing listing' : DirectoryListing} (hpath : listing.path = listing'.path)
    (h : formatListing listing = formatListing listing')
    : listing.totalFiles = listing'.totalFiles :=
  (head_of_formatListing hpath h).1

section lines

variable {name name' : Bytes} {size size' : Nat}

theorem fileLine_inj (h : fileLine name size = fileLine name' size') : name = name' ∧ size = size' := by
  have hspace : bytes " " = [32] := by decide
  simp only [fileLine, hspace, List.append_assoc, List.append_cancel_left_eq, List.singleton_append] at h
  exact Bytes.append_cons_ofNat_inj (by decide) h

theorem newline_notMem_fileLine (h : newline ∉ name) : newline ∉ fileLine name size := by
  have hdigits : newline ∉ Bytes.ofNat size := by
    intro hmem
    exact absurd (Bytes.range_of_mem_ofNat hmem) (by decide)
  have hkind : newline ∉ bytes "F " := by decide
  have hspace : newline ∉ bytes " " := by decide
  simp [fileLine, h, hdigits, hkind, hspace]

theorem newline_notMem_directoryLine (h : newline ∉ name) : newline ∉ directoryLine name := by
  have hkind : newline ∉ bytes "D " := by decide
  simp [directoryLine, h, hkind]

end lines

/--
A listing without newlines in its names is told apart from every other one.
-/
theorem names_of_formatListing {listing listing' : DirectoryListing} (hpath : listing.path = listing'.path)
    (hfiles : listing.totalFiles = listing.files.length) (hfiles' : listing'.totalFiles = listing'.files.length)
    (hdirectories : listing.totalDirectories = listing.directories.length)
    (hdirectories' : listing'.totalDirectories = listing'.directories.length)
    (hplain : ∀ file ∈ listing.files, newline ∉ file.name) (hplain' : ∀ dir ∈ listing.directories, newline ∉ dir.name)
    (h : formatListing listing = formatListing listing')
    : listing.files.map (fun file => (file.name, file.size)) = listing'.files.map (fun file => (file.name, file.size))
        ∧ listing.directories.map FileInfo.name = listing'.directories.map FileInfo.name := by
  obtain ⟨htotalFiles, htotalDirectories, hlines⟩ := head_of_formatListing hpath h
  rw [hfiles, hfiles'] at htotalFiles
  rw [hdirectories, hdirectories'] at htotalDirectories
  have hnone : ∀ line ∈ listingLines listing, newline ∉ line := by
    intro line hline
    rcases List.mem_append.mp hline with hline | hline
    . obtain ⟨file, hfile, rfl⟩ := List.mem_map.mp hline
      exact newline_notMem_fileLine (hplain file hfile)
    . obtain ⟨dir, hdir, rfl⟩ := List.mem_map.mp hline
      exact newline_notMem_directoryLine (hplain' dir hdir)
  have hsame : listingLines listing = listingLines listing' := by
    refine Bytes.flatMap_lines_inj hnone ?_ hlines
    simp [listingLines, htotalFiles, htotalDirectories]
  obtain ⟨hfileLines, hdirectoryLines⟩ := List.append_inj hsame (by simpa using htotalFiles)
  have hfileInjective : Function.Injective fun file : Bytes × Nat => fileLine file.1 file.2 := by
    intro file file' heq
    obtain ⟨hname, hsize⟩ := fileLine_inj heq
    exact Prod.ext hname hsize
  have hdirectoryInjective : Function.Injective directoryLine := fun _ _ => List.append_cancel_left
  constructor
  . apply hfileInjective.list_map
    simpa [Function.comp_def] using hfileLines
  . apply hdirectoryInjective.list_map
    simpa [Function.comp_def] using hdirectoryLines

variable {h : ProtocolHandler} {message : ProtocolMessage} {m : Module} {host host' : Host} {fs fs' : FileSystem}
  {fullPath fullPath' : Bytes} {entries entries' : List Loc}

theorem handleList_eq {listing : DirectoryListing} (hmodule : h.getModule (h.moduleName message.module) = some m)
    (hallowed : m.allowsListing = true)
    (hlisting : m.listDirectory host fs message.path (message.arguments.lookup (bytes "recursive")).isSome = .ok listing)
    : h.handleList host message fs = formatListing listing := by
  simp [handleList, hmodule, hallowed, hlisting]

open Module

/--
The text of a listing without newlines in the names is not the text of any listing with other names, sizes or
directories. Without `recursive` the names are all of the paths.
-/
theorem names_of_handleList (hmodule : h.getModule (h.moduleName message.module) = some m)
    (hallowed : m.allowsListing = true)
    (hentries : m.Iterates host fs message.path (message.arguments.lookup (bytes "recursive")).isSome fullPath entries)
    (hentries' : m.Iterates host' fs' message.path (message.arguments.lookup (bytes "recursive")).isSome fullPath' entries')
    (hplain : ∀ l ∈ entries, newline ∉ lastName l)
    (htext : h.handleList host message fs = h.handleList host' message fs')
    : (filesBelow fs fullPath entries).map (fun file => (lastName file.1, file.2))
          = (filesBelow fs' fullPath' entries').map (fun file => (lastName file.1, file.2))
        ∧ (directoriesBelow fs fullPath entries).map lastName = (directoriesBelow fs' fullPath' entries').map lastName
        ∧ (message.arguments.lookup (bytes "recursive") = none →
          filesBelow fs fullPath entries = filesBelow fs' fullPath' entries'
            ∧ directoriesBelow fs fullPath entries = directoriesBelow fs' fullPath' entries') := by
  obtain ⟨listing, hlisting, hshows⟩ := hentries.shows
  obtain ⟨listing', hlisting', hshows'⟩ := hentries'.shows
  rw [handleList_eq hmodule hallowed hlisting, handleList_eq hmodule hallowed hlisting'] at htext
  have hfiles := files_of_entries fs fullPath hentries.ne_nil
  have hfiles' := files_of_entries fs' fullPath' hentries'.ne_nil
  have hdirectories := directories_of_entries host fs fullPath hentries.ne_nil
  have hdirectories' := directories_of_entries host' fs' fullPath' hentries'.ne_nil
  have hname := name_of_mem_listed host fs fullPath hentries.ne_nil
  rw [← hshows.files] at hfiles hname
  rw [← hshows'.files] at hfiles'
  rw [← hshows.directories] at hdirectories hname
  rw [← hshows'.directories] at hdirectories'
  -- a name with a newline in it would print as two lines
  have hnewline : ∀ info, info ∈ listing.files ∨ info ∈ listing.directories → newline ∉ info.name := by
    intro info hinfo
    obtain ⟨l, hl, heq⟩ := hname info hinfo
    rw [heq]
    exact hplain l hl
  obtain ⟨hnames, hnames'⟩ := names_of_formatListing (hshows.path.trans hshows'.path.symm) hshows.totalFiles
    hshows'.totalFiles hshows.totalDirectories hshows'.totalDirectories (fun file hfile => hnewline file (.inl hfile))
    (fun dir hdir => hnewline dir (.inr hdir)) htext
  rw [hfiles, hfiles'] at hnames
  rw [hdirectories, hdirectories'] at hnames'
  refine ⟨hnames, hnames', ?_⟩
  intro hplain
  rw [hplain] at hentries hentries'
  have hsingle := hentries.exists_name
  have hsingle' := hentries'.exists_name
  constructor
  . rw [← filesBelow_of_names hsingle, hnames, filesBelow_of_names hsingle']
  . rw [← directoriesBelow_of_names hsingle, hnames', directoriesBelow_of_names hsingle']

theorem isName_f : IsName (bytes "f") := by
  decide

/--
A handler for the module `m`, whose root is the directory `/m`.
-/
def serving : ProtocolHandler :=
  { modules := fun name => if name = bytes "m" then some { config := { path := bytes "/m" } } else none }

def listed (entries : List (Name × Node)) : FileSystem :=
  { entries := [(⟨bytes "m", isName_m⟩, .dir entries)] }

def asks (arguments : Arguments) : ProtocolMessage :=
  { command := .list, module := bytes "m", arguments, valid := true }

/--
A file and a directory of the same name are told apart.
-/
theorem names_of_handleList_single
    : serving.handleList {} (asks []) (listed [(⟨bytes "f", isName_f⟩, .file [])])
        ≠ serving.handleList {} (asks []) (listed [(⟨bytes "f", isName_f⟩, .dir [])]) := by
  intro htext
  have hmodule : serving.getModule (serving.moduleName (asks []).module) = some { config := { path := bytes "/m" } } := by
    decide
  have hfile : (Module.mk { path := bytes "/m" }).Iterates {} (listed [(⟨bytes "f", isName_f⟩, .file [])]) [] false
      (bytes "/m") [[⟨bytes "f", isName_f⟩]] :=
    ⟨by decide, by decide, by decide⟩
  have hdirectory : (Module.mk { path := bytes "/m" }).Iterates {} (listed [(⟨bytes "f", isName_f⟩, .dir [])]) [] false
      (bytes "/m") [[⟨bytes "f", isName_f⟩]] :=
    ⟨by decide, by decide, by decide⟩
  have hnames := names_of_handleList hmodule rfl hfile hdirectory (by decide) htext
  exact absurd hnames.1 (by decide)

/--
The files and the directories in a directory can be recovered from the text of its listing.
-/
def Decodable (h : ProtocolHandler) (message : ProtocolMessage) : Prop :=
  ∀ (m : Module) (host host' : Host) (fs fs' : FileSystem) (fullPath fullPath' : Bytes) (entries entries' : List Loc),
    h.getModule (h.moduleName message.module) = some m → m.allowsListing = true →
    m.Iterates host fs message.path (message.arguments.lookup (bytes "recursive")).isSome fullPath entries →
    m.Iterates host' fs' message.path (message.arguments.lookup (bytes "recursive")).isSome fullPath' entries' →
    h.handleList host message fs = h.handleList host' message fs' →
    filesBelow fs fullPath entries = filesBelow fs' fullPath' entries'
      ∧ directoriesBelow fs fullPath entries = directoriesBelow fs' fullPath' entries'

theorem isName_lines : IsName (bytes "f 0\nF f") ∧ IsName (bytes "g") ∧ IsName (bytes "f 0\nF g") := by
  decide

/--
A file in a directory is shown like one beside it, and two names with a newline in one of them can be cut in two
ways.
-/
theorem not_decodable_single
    : ¬serving.Decodable (asks [(bytes "recursive", bytes "true")]) ∧ ¬serving.Decodable (asks []) := by
  constructor
  . intro hdecodable
    have hsame := hdecodable { config := { path := bytes "/m" } } {} {}
      (listed [(⟨bytes "m", isName_m⟩, .dir [(⟨bytes "f", isName_f⟩, .file [])])])
      (listed [(⟨bytes "m", isName_m⟩, .dir []), (⟨bytes "f", isName_f⟩, .file [])]) (bytes "/m") (bytes "/m")
      [[⟨bytes "m", isName_m⟩], [⟨bytes "m", isName_m⟩, ⟨bytes "f", isName_f⟩]]
      [[⟨bytes "m", isName_m⟩], [⟨bytes "f", isName_f⟩]]
      (by decide) (by decide) ⟨by decide, by decide, by decide⟩
      ⟨by decide, by decide, by decide⟩ (by decide)
    exact absurd hsame.1 (by decide)
  . intro hdecodable
    have hsame := hdecodable { config := { path := bytes "/m" } } {} {}
      (listed [(⟨bytes "f 0\nF f", isName_lines.1⟩, .file []), (⟨bytes "g", isName_lines.2.1⟩, .file [])])
      (listed [(⟨bytes "f", isName_f⟩, .file []), (⟨bytes "f 0\nF g", isName_lines.2.2⟩, .file [])])
      (bytes "/m") (bytes "/m")
      [[⟨bytes "f 0\nF f", isName_lines.1⟩], [⟨bytes "g", isName_lines.2.1⟩]]
      [[⟨bytes "f", isName_f⟩], [⟨bytes "f 0\nF g", isName_lines.2.2⟩]]
      (by decide) (by decide) ⟨by decide, by decide, by decide⟩
      ⟨by decide, by decide, by decide⟩ (by decide)
    exact absurd hsame.1 (by decide)

end ProtocolHandler
end SimpleRsyncd
