import SimpleRsyncd.Module.Deletion
import SimpleRsyncd.Protocol.Handler

/-!
This module determines what requests remove. Only a `DELETE` changes anything, and whether it removes a
directory with its contents depends on the argument `recursive` being there, whatever its value is.
-/

namespace SimpleRsyncd
namespace ProtocolHandler

variable {h : ProtocolHandler} {host : Host} {message : ProtocolMessage} {fs : FileSystem} {m : Module} {p : Bytes}
  {root l : Loc}

/--
The presence of the argument.
-/
def isRecursive (message : ProtocolMessage) : Bool :=
  (message.arguments.lookup (bytes "recursive")).isSome

theorem delete_cases (message : ProtocolMessage) (fs : FileSystem) (m : Module)
    : (delete message fs m).2 = fs
        ∨ (delete message fs m).2 = (m.deleteFile fs message.path).2
        ∨ (delete message fs m).2 = (m.deleteDirectory fs message.path (isRecursive message)).2 := by
  unfold delete
  split
  . exact .inl rfl
  . exact .inr (.inl rfl)
  . split
    . exact .inl rfl
    . exact .inr (.inr rfl)
    . exact .inl rfl

/--
Anything but a deletion that the module allows leaves the file system alone.
-/
theorem handle_cases (h : ProtocolHandler) (host : Host) (message : ProtocolMessage) (fs : FileSystem)
    : (h.handle host message fs).2 = fs
        ∨ ∃ m, message.valid = true ∧ message.command = .delete
          ∧ h.getModule (h.moduleName message.module) = some m
          ∧ m.isReadOnly = false ∧ m.allowsDeletion = true
          ∧ (h.handle host message fs).2 = (delete message fs m).2 := by
  unfold handle
  split
  . exact .inl rfl
  . next hvalid =>
    split
    . exact .inl rfl
    . exact .inl rfl
    . exact .inl rfl
    . next hcommand =>
      unfold handleDelete
      dsimp only
      split
      . exact .inl rfl
      . next m hmodule =>
        split
        . exact .inl rfl
        . next hflags =>
          simp only [Bool.or_eq_true, Bool.not_eq_true', not_or, Bool.not_eq_true, Bool.not_eq_false] at hflags
          refine .inr ⟨m, by simpa using hvalid, hcommand, hmodule, hflags.1, hflags.2, ?_⟩
          split <;> simp_all
    . exact .inl rfl
    . exact .inl rfl
    . exact .inl rfl

theorem handle_delete (host : Host) (hvalid : message.valid = true) (hcommand : message.command = .delete)
    (hmodule : h.getModule (h.moduleName message.module) = some m) (hwritable : m.isReadOnly = false)
    (hallowed : m.allowsDeletion = true)
    : (h.handle host message fs).2 = (delete message fs m).2 := by
  simp only [handle, hvalid, hcommand, handleDelete, hmodule, hwritable, hallowed, Bool.not_true, Bool.or_self,
    Bool.false_eq_true, if_false]
  split <;> simp_all

/--
The subtree at the path that a request is resolved to.
-/
def Names (h : ProtocolHandler) (message : ProtocolMessage) (fs : FileSystem) (l : Loc) : Prop :=
  ∃ m p top, h.getModule (h.moduleName message.module) = some m ∧ m.resolvePath fs message.path = .ok p
    ∧ fs.lresolve p = .ok top ∧ top <+: l

theorem delete_named (message : ProtocolMessage) (fs : FileSystem) (m : Module)
    : (delete message fs m).2 = fs
        ∨ ∃ p top, m.DeletionTarget fs message.path p ∧ fs.lresolve p = .ok top
          ∧ FileSystem.SameOutside top fs (delete message fs m).2 := by
  rcases delete_cases message fs m with hsame | hfile | hdirectory
  . exact .inl hsame
  . rw [hfile]
    rcases m.deleteFile_cases fs message.path with hsame | ⟨p, htarget, -, hdelete⟩
    . exact .inl hsame
    . rw [hdelete]
      refine (fs.delete_cases false p).imp_right ?_
      rintro ⟨top, htop, hout⟩
      exact ⟨p, top, htarget, htop, hout⟩
  . rw [hdirectory]
    rcases m.deleteDirectory_cases fs message.path (isRecursive message) with
      hsame | ⟨p, htarget, hdelete⟩
    . exact .inl hsame
    . rw [hdelete]
      refine (fs.delete_cases _ p).imp_right ?_
      rintro ⟨top, htop, hout⟩
      exact ⟨p, top, htarget, htop, hout⟩

/--
A request changes nothing outside the subtree that it names. Without `DELETE` it changes nothing at all,
and with it only in a module that is not read-only and allows it.
-/
theorem handle_touches_named (h : ProtocolHandler) (host : Host) (message : ProtocolMessage) (fs : FileSystem)
    : (h.handle host message fs).2.cwd = fs.cwd
        ∧ (∀ l, ¬h.Names message fs l →
          ((h.handle host message fs).2.node l).map Node.label = (fs.node l).map Node.label)
        ∧ (message.command ≠ .delete → (h.handle host message fs).2 = fs)
        ∧ ((h.handle host message fs).2 ≠ fs →
          ∃ m, h.getModule (h.moduleName message.module) = some m ∧ m.isReadOnly = false
            ∧ m.allowsDeletion = true) := by
  rcases h.handle_cases host message fs with hsame
    | ⟨m, -, hcommand, hmodule, hwritable, hallowed, hdelete⟩
  . simp [hsame]
  . rw [hdelete]
    have hframe : (delete message fs m).2.cwd = fs.cwd
        ∧ ∀ l, ¬h.Names message fs l →
          ((delete message fs m).2.node l).map Node.label = (fs.node l).map Node.label := by
      rcases delete_named message fs m with hsame | ⟨p, top, htarget, htop, hout⟩
      . simp [hsame]
      . refine ⟨hout.cwd, ?_⟩
        intro l hnamed
        exact hout.entries l fun hbelow => hnamed ⟨m, p, top, hmodule, htarget.resolvePath, htop, hbelow⟩
    refine ⟨hframe.1, hframe.2, ?_, ?_⟩
    . intro hother
      exact absurd hcommand hother
    . intro _
      exact ⟨m, hmodule, hwritable, hallowed⟩

theorem entryExists_of_target (k : Kind) (hpath : message.path ≠ []) (h : m.DeletionTarget fs message.path p)
    (hl : fs.resolve p = .ok l)
    : m.entryExists fs k message.path = .ok (fs.kind l = some k) := by
  simp [Module.entryExists, hpath, h.safe, h.there, FileSystem.hasKind, hl, bind, Except.bind]

theorem delete_of_directory (hpath : message.path ≠ []) (h : m.DeletionTarget fs message.path p)
    (hl : fs.resolve p = .ok l) (hdir : fs.kind l = some .dir)
    : (delete message fs m).2 = (m.deleteDirectory fs message.path (isRecursive message)).2 := by
  simp [delete, Module.fileExists, Module.directoryExists, entryExists_of_target _ hpath h hl, hdir, isRecursive]

theorem delete_of_nil (hpath : message.path = []) : (delete message fs m).2 = fs := by
  simp [delete, Module.fileExists, Module.directoryExists, Module.entryExists, hpath]

def sampleName : Name := ⟨bytes "m", isName_m⟩

/--
The root `/m` of a module, with a directory `/m/m` that has a file in it.
-/
def nested : FileSystem :=
  { entries := [(sampleName, .dir [(sampleName, .dir [(sampleName, .file [])])])] }

def deletable : Module := { config := { path := bytes "/m", allowDelete := true } }

def deleting : ProtocolHandler := { modules := fun name => if name = bytes "m" then some deletable else none }

theorem resolve_root_nested : nested.resolve deletable.config.path = .ok [sampleName] := by
  decide +kernel

theorem resolveSafe_nested : deletable.resolveSafe nested (bytes "m") = .ok (some (bytes "/m/m")) := by
  decide +kernel

/--
A directory with entries that a `DELETE` names stays as it is if there is no argument `recursive`, or if the
path is empty.
-/
theorem node_handle_delete_iff {e : Name × Node} {es : List (Name × Node)} (host : Host)
    (hmodule : h.getModule (h.moduleName message.module) = some m) (hvalid : message.valid = true)
    (hcommand : message.command = .delete) (hwritable : m.isReadOnly = false) (hallowed : m.allowsDeletion = true)
    (hroot : fs.resolve m.config.path = .ok root) (hsafe : m.resolveSafe fs message.path = .ok (some p))
    (hresolve : fs.resolve p = .ok l) (hnode : fs.node l = some (.dir (e :: es)))
    : (h.handle host message fs).2.node l = some (.dir (e :: es))
        ↔
      message.path = [] ∨ message.arguments.lookup (bytes "recursive") = none := by
  have hdir : fs.kind l = some .dir := by simp [FileSystem.kind, hnode, Node.kind]
  have htarget : m.DeletionTarget fs message.path p :=
    ⟨hwritable, hallowed, hsafe, by simp [FileSystem.exists, hresolve]⟩
  rw [handle_delete host hvalid hcommand hmodule hwritable hallowed]
  by_cases hpath : message.path = []
  . simp [delete_of_nil hpath, hpath, hnode]
  . obtain ⟨hp, -⟩ := Module.eq_ofLoc_of_resolvePath hpath htarget.ne_nil hroot htarget.resolvePath hresolve
    have hl : fs.lresolve p = .ok l := by
      rw [hp]
      exact FileSystem.lresolve_ofLoc (by simp [hdir])
    rw [delete_of_directory hpath htarget hresolve hdir, Module.deleteDirectory_of_target _ htarget,
      FileSystem.node_delete_of_entries _ hl hnode]
    simp [hpath, isRecursive]

/--
A directory with entries is left in place without `recursive=true` if and only if the argument is not there
or is `true`, or if the path is empty.
-/
theorem keeps_directory_iff {e : Name × Node} {es : List (Name × Node)} (host : Host)
    (hmodule : h.getModule (h.moduleName message.module) = some m) (hvalid : message.valid = true)
    (hcommand : message.command = .delete) (hwritable : m.isReadOnly = false) (hallowed : m.allowsDeletion = true)
    (hroot : fs.resolve m.config.path = .ok root) (hsafe : m.resolveSafe fs message.path = .ok (some p))
    (hresolve : fs.resolve p = .ok l) (hnode : fs.node l = some (.dir (e :: es)))
    : (message.arguments.lookup (bytes "recursive") ≠ some (bytes "true") →
          (h.handle host message fs).2.node l = some (.dir (e :: es)))
        ↔
      message.path = [] ∨ message.arguments.lookup (bytes "recursive") = none
        ∨ message.arguments.lookup (bytes "recursive") = some (bytes "true") := by
  rw [node_handle_delete_iff host hmodule hvalid hcommand hwritable hallowed hroot hsafe hresolve hnode]
  by_cases htrue : message.arguments.lookup (bytes "recursive") = some (bytes "true") <;> simp [htrue]

theorem keeps_directory_single
    : (deleting.handle {} (ProtocolParser.parse (bytes "DELETE m m")) nested).2.node [sampleName, sampleName]
      = some (.dir [(sampleName, .file [])]) := by
  have hmodule : deleting.getModule (deleting.moduleName (ProtocolParser.parse (bytes "DELETE m m")).module)
      = some deletable := by
    decide +kernel
  have hpath : (ProtocolParser.parse (bytes "DELETE m m")).path = bytes "m" := by decide +kernel
  have hsafe : deletable.resolveSafe nested (ProtocolParser.parse (bytes "DELETE m m")).path
      = .ok (some (bytes "/m/m")) := by
    rw [hpath, resolveSafe_nested]
  refine (keeps_directory_iff {} hmodule (by decide +kernel) (by decide +kernel) rfl rfl resolve_root_nested hsafe
    (by decide +kernel) rfl).mpr (.inr (.inl ?_)) ?_ <;> decide +kernel

/--
`recursive=false` removes the directory.
-/
theorem not_keeps_directory_single
    : (ProtocolParser.parse (bytes "DELETE m m recursive=false")).arguments.lookup (bytes "recursive")
        = some (bytes "false")
        ∧ nested.kind [sampleName, sampleName] = some .dir
        ∧ (deleting.handle {} (ProtocolParser.parse (bytes "DELETE m m recursive=false")) nested).2.kind
          [sampleName, sampleName] = none := by
  decide +kernel

end ProtocolHandler
end SimpleRsyncd
