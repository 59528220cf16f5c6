import SimpleRsyncd.FileSystem.Spelling
import SimpleRsyncd.Session.Announcement.Get
import SimpleRsyncd.Session.Closing
import SimpleRsyncd.Session.Download
import SimpleRsyncd.Session.Overwrite

/-!
This module contains uploads together with the downloads after them. A download delivers what the last
upload to its file has received, and an upload leaves what it has received at the temporary path.
-/

namespace SimpleRsyncd

namespace FileSystem

variable {fs : FileSystem} {p content : Bytes} {l : Loc}

theorem hasKind_of_resolve (hresolve : fs.resolve p = .ok l) (k : Kind)
    : fs.hasKind k p = .ok (fs.kind l = some k : Bool) := by
  simp [hasKind, hresolve]

theorem read_of_resolve (hresolve : fs.resolve p = .ok l) : fs.read p = fs.data l := by
  simp [read, hresolve]

end FileSystem

namespace Module

variable {m : Module} {host : Host} {fs : FileSystem} {path content p : Bytes} {l : Loc}

/--
A file at a path that passes the checks of the module.
-/
structure Finds (m : Module) (fs : FileSystem) (path p : Bytes) (l : Loc) : Prop where
  nonempty : path ≠ []
  resolvesTo : m.resolvePath fs path = .ok p
  safe : m.resolveSafe fs path = .ok (some p)
  found : p ≠ []
  leads : fs.resolve p = .ok l
  file : fs.kind l = some .file

namespace Finds

theorem fileExists (h : m.Finds fs path p l) : m.fileExists fs path = .ok true := by
  have hempty : path.isEmpty = false := by simpa using h.nonempty
  simp [Module.fileExists, entryExists, hempty, h.safe, FileSystem.exists_of_resolve h.leads,
    FileSystem.hasKind_of_resolve h.leads, h.file, bind, Except.bind]

theorem checkReadPermission (h : m.Finds fs path p l)
    : m.checkReadPermission host fs path = .ok (host.canRead p) := by
  have hempty : p.isEmpty = false := by simpa using h.found
  simp [Module.checkReadPermission, h.resolvesTo, hempty, FileSystem.exists_of_resolve h.leads,
    FileSystem.isDirectory, FileSystem.isRegularFile, FileSystem.hasKind_of_resolve h.leads, h.file, bind,
    Except.bind]

theorem getFileInfo (h : m.Finds fs path p l) (hread : host.canRead p = true)
    : m.getFileInfo host fs path = .ok (describe host fs p) := by
  simp [Module.getFileInfo, h.checkReadPermission, hread, h.safe, bind, Except.bind]

theorem describe_path (h : m.Finds fs path p l) : (describe host fs p).path = p := by
  simp [describe, FileSystem.exists_of_resolve h.leads, h.leads]

/--
What is read is the content of the file, if the stream reads the file system.
-/
theorem openFile (h : m.Finds fs path p l) (hread : host.canRead p = true)
    : m.openFile host fs.read fs path = .ok ((fs.data l).map (·, (describe host fs p).size)) := by
  simp [Module.openFile, h.getFileInfo hread, h.fileExists, h.describe_path, h.found,
    FileSystem.read_of_resolve h.leads, bind, Except.bind]

end Finds
end Module

namespace World

open ProtocolParser

variable {w w' : World} {env : Env} {m : Module} {content : Bytes} {l : Loc}

/--
What an upload that started has done at its end.
-/
theorem PutRun.stores {request : Bytes} {chunks : List Bytes} (h : w.PutRun env request m chunks w')
    (hword : w.HasWord) (hclosed : w.session.uploadFile = none)
    (hstarted : (w.processRequest env).2.session.transferState = .receivingFile)
    : ∃ l, m.locate w'.fs (tempPath (parse request).path) = .ok l ∧ w.fs.Writes w'.fs l chunks.flatten := by
  obtain ⟨received, huploads, hrun⟩ := h.run
  cases starts_processRequest hword hclosed h.active h.reads h.target h.valid h.put with
  | nothing hidle => contradiction
  | receiving l hreceiving =>
    -- the same upload, seen from the state after its request
    have hsince : (w.processRequest env).2.Receiving m (parse request).path (w.processRequest env).2.fs l [] :=
      ⟨hreceiving.state, hreceiving.file, ⟨rfl, fun _ _ h => h, hreceiving.writes.content, fun _ _ _ h => h⟩,
        hreceiving.temp⟩
    exact ⟨l, Module.locate_of_writes (hsince.run huploads hrun) hreceiving.temp,
      hreceiving.run huploads hrun⟩

end World
end SimpleRsyncd
