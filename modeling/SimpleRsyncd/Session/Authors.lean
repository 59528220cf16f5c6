import SimpleRsyncd.FileSystem.Frame
import SimpleRsyncd.Protocol.Deletion
import SimpleRsyncd.Session.Steps
import SimpleRsyncd.Session.Upload

/-!
This module determines what a session has to show for a change of the file system: a `DELETE` that was
handled, or a `PUT` and the file or directory that was created for it.
-/

namespace SimpleRsyncd

/--
A client with this trace may have changed what is at location `l`.
-/
def Answerable (modules : Bytes → Option Module) (trace : List Event) (l : Loc) : Prop :=
  Requested modules .delete trace ∨ Requested modules .put trace ∧ (.made l ∈ trace ∨ .opened l ∈ trace)

variable {modules : Bytes → Option Module}

theorem Answerable.mono {trace trace' : List Event} {l : Loc} (h : Answerable modules trace l) (hpre : trace <+: trace')
    : Answerable modules trace' l :=
  h.imp (·.mono hpre) fun ⟨hput, hevent⟩ =>
    ⟨hput.mono hpre, hevent.imp (fun hmade => hpre.subset hmade) fun hopened => hpre.subset hopened⟩

namespace Module

/--
Opening the temporary file touches the directories that are created and the file.
-/
theorem sameBut_openTemp {m : Module} {canOpen : Bool} {fs fs' : FileSystem} {path : Bytes} {made : List Loc}
    {opened : Option Loc} (h : m.openTemp canOpen fs path = .ok (fs', made, opened))
    : fs.SameBut (fun l => l ∈ made ∨ opened = some l) fs' := by
  cases hfull : fs.absolute (m.joinPath (tempPath path)) with
  | error => simp [openTemp, hfull, bind, Except.bind] at h
  | ok fullPath =>
    obtain ⟨parent, n, hfile⟩ := isFilePath_tempPath hfull
    have hne : fullPath ≠ [] := by
      rintro rfl
      have := hfile.absolute
      simp [Path.isAbsolute] at this
    rw [openTemp_of_fullPath hfile hfull] at h
    split at h
    . contradiction
    . next fs₁ made' hparent =>
      have hmade := FileSystem.sameBut_createParent hparent
      split at h
      . next hwrite =>
        simp only [Except.ok.injEq, Prod.mk.injEq] at h
        obtain ⟨rfl, rfl, rfl⟩ := h
        exact (hmade.mono fun _ => .inl).trans
          ((FileSystem.sameBut_openWrite hne hwrite).mono fun _ heq => .inr (congrArg some heq.symm))
      . simp only [Except.ok.injEq, Prod.mk.injEq] at h
        obtain ⟨rfl, rfl, rfl⟩ := h
        exact hmade.mono fun _ => .inl

end Module

namespace World

/--
From `w` to `w'` only that changes which the trace of `w'` answers for, or the file that was open before.
-/
structure Accounts (modules : Bytes → Option Module) (w w' : World) : Prop where
  trace : w.trace <+: w'.trace
  sameModules : w'.session.handler.modules = w.session.handler.modules
  file : ∀ l, w'.session.uploadFile = some l → w.session.uploadFile = some l ∨ Answerable modules w'.trace l
  changes : w.fs.SameBut (fun l => w.session.uploadFile = some l ∨ Answerable modules w'.trace l) w'.fs

variable {w w' w'' : World}

namespace Accounts

theorem of_keeps (h : Keeps w w') : Accounts modules w w' where
  trace := h.trace
  sameModules := h.sameModules
  file l hl := .inl (h.file l hl)
  changes := by
    rw [h.fs]
    exact .refl _ _

theorem trans (h : Accounts modules w w') (h' : Accounts modules w' w'') : Accounts modules w w'' := by
  have hlift : ∀ l, w.session.uploadFile = some l ∨ Answerable modules w'.trace l →
      w.session.uploadFile = some l ∨ Answerable modules w''.trace l :=
    fun l => Or.imp_right (·.mono h'.trace)
  refine ⟨h.trace.trans h'.trace, h'.sameModules.trans h.sameModules, ?_, ?_⟩
  . intro l hl
    rcases h'.file l hl with hl | hl
    . exact hlift l (h.file l hl)
    . exact .inr hl
  . refine (h.changes.mono hlift).trans (h'.changes.mono ?_)
    rintro l (hl | hl)
    . exact hlift l (h.file l hl)
    . exact .inr hl

end Accounts

theorem accounts_storeChunk (w : World) (chunk : Bytes) : Accounts modules w (w.storeChunk chunk) where
  trace := List.prefix_rfl
  sameModules := rfl
  file l hl := .inl hl
  changes := by
    unfold storeChunk
    dsimp only
    split
    . next l hl =>
      refine (FileSystem.sameBut_appendData l chunk).mono ?_
      rintro _ rfl
      exact .inl hl
    . exact .refl _ _

theorem accounts_setUploadFile {m : Module} {canOpen : Bool} {path : Bytes} {fs : FileSystem} {made : List Loc}
    {opened : Option Loc} (hput : Requested modules .put w.trace)
    (hopen : m.openTemp canOpen w.fs path = .ok (fs, made, opened))
    : Accounts modules w (w.setUploadFile fs made opened) := by
  have htrace : w.trace <+: w.trace ++ made.map .made ++ opened.toList.map .opened := by
    rw [List.append_assoc]
    apply List.prefix_append
  have hevents : ∀ l, l ∈ made ∨ opened = some l →
      Answerable modules (w.trace ++ made.map .made ++ opened.toList.map .opened) l := by
    rintro l hl
    refine .inr ⟨hput.mono htrace, ?_⟩
    rcases hl with hmade | rfl
    . exact .inl (by simp [hmade])
    . exact .inr (by simp)
  refine ⟨htrace, rfl, ?_, ?_⟩
  . intro l hl
    simp only [setUploadFile, Option.or_eq_some_iff] at hl
    rcases hl with hl | ⟨-, hl⟩
    . exact .inr (hevents l (.inr hl))
    . exact .inl hl
  . exact (Module.sameBut_openTemp hopen).mono fun l hl => .inr (hevents l hl)

/--
Of the requests for the handler a `DELETE` may change something at once.
-/
theorem accounts_handle (message : ProtocolMessage) (host : Host) (hmodules : w.session.handler.modules = modules)
    : Accounts modules w {
      w.answering message [.handled message] with
      fs := ((w.session.handler.setModule (w.session.handler.moduleName message.module)).handle host message w.fs).2
    } := by
  have htarget : (w.session.handler.setModule (w.session.handler.moduleName message.module)).getModule
      ((w.session.handler.setModule (w.session.handler.moduleName message.module)).moduleName message.module)
      = modules (w.session.handler.moduleName message.module) := by
    rw [moduleName_setModule, ← hmodules]
    rfl
  have hhandled : .handled message ∈ (w.answering message [.handled message]).trace := by simp [answering]
  have hname := eq_or_nil_of_moduleName w.session.handler message.module
  refine ⟨List.prefix_append _ _, rfl, fun l hl => .inl hl, ?_⟩
  rcases (w.session.handler.setModule (w.session.handler.moduleName message.module)).handle_cases host message w.fs with
    hsame | ⟨m, -, hcommand, hmodule, hwritable, hallowed, -⟩
  . dsimp only
    rw [hsame]
    exact .refl _ _
  . intro l hl
    exact absurd (.inr (.inl ⟨_, _, m, hhandled, hcommand, hname, htarget ▸ hmodule, hwritable, fun _ => hallowed⟩)) hl

theorem covers_accounts : Covers modules (Accounts modules) where
  ofKeeps := .of_keeps
  trans := .trans
  storeChunk := accounts_storeChunk
  setUploadFile := accounts_setUploadFile
  handle host hmodules := accounts_handle _ host hmodules

end World
end SimpleRsyncd
