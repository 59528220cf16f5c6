import SimpleRsyncd.FileSystem.Shrink
import SimpleRsyncd.Protocol.Deletion
import SimpleRsyncd.Session.Forgery
import SimpleRsyncd.Session.ReadOnly
import SimpleRsyncd.Session.Steps
import SimpleRsyncd.Session.UploadRun

/-!
This module contains deletions together with the requests after them. Whatever way a deleted path was written,
there is nothing left for a `GET`, a `STAT` or another `DELETE` until something is created.
-/

namespace SimpleRsyncd

open ProtocolParser

namespace Module

variable {m : Module} {host : Host} {fs fs' : FileSystem} {path p : Bytes} {l : Loc}

/--
`<root>/<path>` leads nowhere.
-/
def Gone (m : Module) (fs : FileSystem) (path : Bytes) : Prop := ∀ l, m.locate fs path ≠ .ok l

theorem locate_of_shrinks (h : fs.Shrinks fs') (hlocate : m.locate fs' path = .ok l) : m.locate fs path = .ok l := by
  obtain ⟨fullPath, hfull, hresolve⟩ := locate_eq_ok_iff.mp hlocate
  exact locate_eq_ok_iff.mpr ⟨fullPath, h.absolute hfull, h.resolve hresolve⟩

theorem Gone.of_shrinks (h : m.Gone fs path) (hshrinks : fs.Shrinks fs') : m.Gone fs' path :=
  fun l hl => h l (locate_of_shrinks hshrinks hl)

/--
What a request is resolved to leads to the same as its path. It is written in canonical form, unless making
it canonical has failed.
-/
theorem locate_of_resolvePath (hpath : path ≠ []) (hp : p ≠ []) (hresolve : m.resolvePath fs path = .ok p)
    (hl : fs.resolve p = .ok l)
    : m.locate fs path = .ok l ∧ (p = Path.ofLoc l ∨ fs.absolute (m.joinPath path) = .ok p) := by
  obtain ⟨base, resolved, hadm, hcheck⟩ := (resolvePath_eq_ok_iff hpath hp).mp hresolve
  rw [locate_eq_ok_iff]
  rcases (checkCanonical_eq_iff hp).mp hcheck with ⟨-, -, hcanonical, -⟩ | ⟨-, rfl⟩
  . have habs := (FileSystem.resolve_absolute hadm.resolved).1
    have hdots := Path.dotdot_notMem_elems hadm.noDots
    obtain ⟨heq, hleads⟩ := FileSystem.eq_ofLoc_of_weaklyCanonical habs hdots hcanonical hl
    exact ⟨⟨resolved, hadm.resolved, hleads⟩, .inl heq⟩
  . exact ⟨⟨resolved, hadm.resolved, hl⟩, .inr hadm.resolved⟩

theorem resolve_of_exists (h : fs.exists p = .ok true) : ∃ l, fs.resolve p = .ok l := by
  unfold FileSystem.exists at h
  split at h
  . next l hl => exact ⟨l, hl⟩
  all_goals simp at h

/--
An entry that is found is where the path leads.
-/
theorem locate_of_entryExists {k : Kind} (h : m.entryExists fs k path = .ok true)
    : ∃ l, m.locate fs path = .ok l ∧ fs.kind l = some k := by
  unfold Module.entryExists at h
  split at h
  . simp at h
  . next hpath =>
    cases hsafe : m.resolveSafe fs path with
    | error => simp [hsafe, bind, Except.bind] at h
    | ok target =>
      cases target with
      | none => simp [hsafe, bind, Except.bind] at h
      | some p =>
        obtain ⟨hresolve, hp, -⟩ := resolveSafe_eq_some_iff.mp hsafe
        cases hexists : fs.exists p with
        | error => simp [hsafe, hexists, bind, Except.bind] at h
        | ok found =>
          cases found with
          | false => simp [hsafe, hexists, bind, Except.bind] at h
          | true =>
            obtain ⟨l, hl⟩ := resolve_of_exists hexists
            have hkind : fs.hasKind k p = .ok true := by simpa [hsafe, hexists, bind, Except.bind] using h
            rw [FileSystem.hasKind, hl] at hkind
            exact ⟨l, (locate_of_resolvePath (by simpa using hpath) hp hresolve hl).1, by simpa using hkind⟩

namespace Gone

theorem not_exists (h : m.Gone fs path) (hpath : path ≠ []) (hp : p ≠ []) (hresolve : m.resolvePath fs path = .ok p)
    : fs.exists p ≠ .ok true := by
  intro hexists
  obtain ⟨l, hl⟩ := resolve_of_exists hexists
  exact h l (locate_of_resolvePath hpath hp hresolve hl).1

theorem entryExists (h : m.Gone fs path) (k : Kind) : m.entryExists fs k path ≠ .ok true := by
  intro hexists
  obtain ⟨l, hl, -⟩ := locate_of_entryExists hexists
  exact h l hl

theorem getFileInfo (h : m.Gone fs path) (hpath : path ≠ []) {info : FileInfo} (hinfo : m.getFileInfo host fs path = .ok info)
    : info.path = [] := by
  have hnot : m.checkReadPermission host fs path ≠ .ok true := by
    intro hread
    unfold Module.checkReadPermission at hread
    cases hresolve : m.resolvePath fs path with
    | error => simp [hresolve, bind, Except.bind] at hread
    | ok p =>
      by_cases hp : p = []
      . simp [hresolve, hp, bind, Except.bind] at hread
      . have hexists := h.not_exists hpath hp hresolve
        cases hfound : fs.exists p with
        | error => simp [hresolve, hp, hfound, bind, Except.bind] at hread
        | ok found => cases found <;> simp_all [bind, Except.bind]
  unfold Module.getFileInfo at hinfo
  cases hread : m.checkReadPermission host fs path with
  | error => simp [hread, bind, Except.bind] at hinfo
  | ok granted =>
    cases granted with
    | true => exact absurd hread hnot
    | false =>
      simp only [hread, bind, Except.bind, Bool.false_eq_true, if_false, Except.ok.injEq] at hinfo
      rw [← hinfo]

end Gone

/--
A deletion that succeeds leaves nothing at its path.
-/
theorem gone_of_delete (recursive : Bool) (hpath : path ≠ []) (htarget : m.DeletionTarget fs path p)
    (hdelete : fs.delete recursive p = (.ok true, fs'))
    : m.Gone fs' path := by
  obtain ⟨l, hl⟩ := resolve_of_exists htarget.there
  obtain ⟨hlocate, hspelling⟩ := locate_of_resolvePath hpath htarget.ne_nil htarget.resolvePath hl
  have hshrinks : fs.Shrinks fs' := by
    have hdelete' := fs.shrinks_delete recursive p
    rwa [hdelete] at hdelete'
  obtain ⟨top, hroot, htop, rfl⟩ := FileSystem.delete_eq_ok_true hdelete
  intro l' hl'
  obtain rfl : l' = l := Except.ok.inj ((locate_of_shrinks hshrinks hl').symm.trans hlocate)
  obtain ⟨fullPath, hfull, hleads⟩ := locate_eq_ok_iff.mp hl'
  rcases hspelling with rfl | habsolute
  . -- the canonical path names the location itself
    have hkind : (fs.remove top).kind l' ≠ none := by
      rcases FileSystem.kind_of_resolve_eq_ok hleads with hk | hk <;> simp [hk]
    have hsame : fs.lresolve (Path.ofLoc l') = .ok l' := by
      apply FileSystem.lresolve_ofLoc
      rcases FileSystem.kind_of_resolve_eq_ok hl with hk | hk <;> simp [hk]
    obtain rfl : l' = top := Except.ok.inj (hsame.symm.trans htop)
    exact hkind (FileSystem.kind_remove fs hroot)
  . obtain rfl : fullPath = p := Except.ok.inj ((hshrinks.absolute hfull).symm.trans habsolute)
    exact FileSystem.not_resolve_remove hroot htop l' hleads

theorem gone_of_deleteFile (hpath : path ≠ []) (h : m.deleteFile fs path = (.ok true, fs')) : m.Gone fs' path := by
  obtain ⟨p, htarget, hremove⟩ := deletionTarget_of_deleted _ h
  split at hremove
  . exact gone_of_delete false hpath htarget hremove
  . simp at hremove
  . simp at hremove

theorem gone_of_deleteDirectory {recursive : Bool} (hpath : path ≠ [])
    (h : m.deleteDirectory fs path recursive = (.ok true, fs'))
    : m.Gone fs' path := by
  obtain ⟨p, htarget, hdelete⟩ := deletionTarget_of_deleted _ h
  exact gone_of_delete recursive hpath htarget hdelete

theorem ne_nil_of_entryExists {k : Kind} (h : m.entryExists fs k path = .ok true) : path ≠ [] := by
  rintro rfl
  simp [Module.entryExists] at h

/--
If nothing is created for an upload, nothing changes.
-/
theorem openTemp_of_nothing {canOpen : Bool} (h : m.openTemp canOpen fs path = .ok (fs', [], none)) : fs' = fs := by
  cases hfull : fs.absolute (m.joinPath (tempPath path)) with
  | error => simp [openTemp, hfull, bind, Except.bind] at h
  | ok fullPath =>
    obtain ⟨parent, n, hfile⟩ := isFilePath_tempPath hfull
    rw [openTemp_of_fullPath hfile hfull] at h
    split at h
    . contradiction
    . next fs₁ made hparent =>
      split at h
      . simp at h
      . obtain ⟨rfl, rfl⟩ : fs₁ = fs' ∧ made = [] := by simpa using h
        rcases FileSystem.createParent_cases hfile hparent with ⟨-, -, hsame, -⟩ | ⟨d, n, names, -, hmakes⟩
        . exact hsame
        . exact absurd hmakes.first (by simp)

end Module

namespace ProtocolHandler

variable {h : ProtocolHandler} {host : Host} {message : ProtocolMessage} {fs fs' : FileSystem} {m : Module}

theorem gone_of_deleted (hdelete : delete message fs m = (.ok (some true), fs'))
    : message.path ≠ [] ∧ m.Gone fs' message.path := by
  unfold delete at hdelete
  split at hdelete
  . simp at hdelete
  . next hfile =>
    have hpath := Module.ne_nil_of_entryExists hfile
    have hdeleted : m.deleteFile fs message.path = (.ok true, fs') := by
      cases hresult : m.deleteFile fs message.path with
      | mk removed fs₁ => cases removed <;> simp_all [Except.map]
    exact ⟨hpath, Module.gone_of_deleteFile hpath hdeleted⟩
  . split at hdelete
    . simp at hdelete
    . next hdirectory =>
      have hpath := Module.ne_nil_of_entryExists hdirectory
      have hdeleted : m.deleteDirectory fs message.path (isRecursive message) = (.ok true, fs') := by
        cases hresult : m.deleteDirectory fs message.path (isRecursive message) with
        | mk removed fs₁ => cases removed <;> simp_all [isRecursive, Except.map]
      exact ⟨hpath, Module.gone_of_deleteDirectory hpath hdeleted⟩
    . simp at hdelete

/--
Only a deletion that succeeds is not answered with an error.
-/
theorem gone_of_handleDelete (host : Host) (fs : FileSystem) (hmodule : h.getModule (h.moduleName message.module) = some m)
    (hanswer : isError (h.handleDelete host message fs).1 = false)
    : message.path ≠ [] ∧ m.Gone (h.handleDelete host message fs).2 message.path := by
  unfold handleDelete at hanswer ⊢
  simp only [hmodule] at hanswer ⊢
  split at hanswer
  . simp [isError_buildErrorResponse] at hanswer
  . next hflags =>
    rw [if_neg hflags]
    split at hanswer
    . simp [isError_buildErrorResponse] at hanswer
    . next hdelete => exact gone_of_deleted hdelete
    . simp [isError_buildErrorResponse] at hanswer
    . simp [caught, isError_buildErrorResponse] at hanswer

theorem delete_of_gone (hgone : m.Gone fs message.path)
    : delete message fs m = (.ok none, fs) ∨ ∃ e, delete message fs m = (.error e, fs) := by
  have hfile : m.fileExists fs message.path ≠ .ok true := hgone.entryExists .file
  have hdirectory : m.directoryExists fs message.path ≠ .ok true := hgone.entryExists .dir
  unfold delete
  split
  . next e _ => exact .inr ⟨e, rfl⟩
  . contradiction
  . split
    . next e _ => exact .inr ⟨e, rfl⟩
    . contradiction
    . exact .inl rfl

theorem isError_handleGet (hmodule : h.getModule (h.moduleName message.module) = some m)
    (hfile : m.fileExists fs message.path ≠ .ok true) {response : Bytes}
    (hanswer : h.handleGet host message fs = .ok response)
    : isError response = true := by
  unfold handleGet at hanswer
  simp only [hmodule] at hanswer
  split at hanswer
  . contradiction
  . rw [← Except.ok.inj hanswer, isError_buildErrorResponse]
  . contradiction

theorem isError_handleStat (hmodule : h.getModule (h.moduleName message.module) = some m) (hpath : message.path ≠ [])
    (hgone : m.Gone fs message.path)
    : isError (h.handleStat host message fs) = true := by
  unfold handleStat
  simp only [hmodule]
  split
  . simp [caught, isError_buildErrorResponse]
  . next info hinfo => simp [hgone.getFileInfo hpath hinfo, isError_buildErrorResponse]

theorem handleDelete_of_gone (host : Host) (hmodule : h.getModule (h.moduleName message.module) = some m)
    (hgone : m.Gone fs message.path)
    : isError (h.handleDelete host message fs).1 = true ∧ (h.handleDelete host message fs).2 = fs := by
  unfold handleDelete
  simp only [hmodule]
  split
  . simp [isError_buildErrorResponse]
  . rcases delete_of_gone hgone with hdelete | ⟨e, hdelete⟩ <;>
      simp [hdelete, caught, isError_buildErrorResponse]

/--
A download of what is not a file changes nothing, and it is answered with an error.
-/
theorem handle_of_not_fileExists (hmodule : h.getModule (h.moduleName message.module) = some m)
    (hvalid : message.valid = true) (hget : message.command = .get) (hfile : m.fileExists fs message.path ≠ .ok true)
    : (h.handle host message fs).2 = fs
        ∧ ∀ response, (h.handle host message fs).1 = .ok response → isError response = true := by
  simp only [handle, hvalid, hget, Bool.not_true, Bool.false_eq_true, if_false]
  exact ⟨trivial, fun response => isError_handleGet hmodule hfile⟩

/--
A request for what is gone changes nothing, and it is answered with an error.
-/
theorem handle_of_gone (hmodule : h.getModule (h.moduleName message.module) = some m) (hvalid : message.valid = true)
    (hcommand : message.command = .get ∨ message.command = .stat ∨ message.command = .delete)
    (hpath : message.path ≠ []) (hgone : m.Gone fs message.path)
    : (h.handle host message fs).2 = fs
        ∧ ∀ response, (h.handle host message fs).1 = .ok response → isError response = true := by
  rcases hcommand with hcommand | hcommand | hcommand
  . exact handle_of_not_fileExists hmodule hvalid hcommand (hgone.entryExists .file)
  . simp [handle, hvalid, hcommand, isError_handleStat hmodule hpath hgone]
  . obtain ⟨herror, hsame⟩ := handleDelete_of_gone host hmodule hgone
    simp only [handle, hvalid, hcommand, Bool.not_true, Bool.false_eq_true, if_false]
    exact ⟨hsame, fun response hanswer => Except.ok.inj hanswer ▸ herror⟩

end ProtocolHandler

/--
What belongs to a request that is not served.
-/
def Event.refuses : Event → Bool
  | .received _ | .handled _ => true
  | .response text _ => SimpleRsyncd.isError text
  | _ => false

namespace World

variable {w w' : World} {env : Env} {m : Module} {request : Bytes}

/--
A request about module `m` that is processed.
-/
structure Asks (w : World) (env : Env) (request : Bytes) (m : Module) : Prop where
  active : w.session.active = true
  reads : w.Reads env request
  gate : w.session.awaitsKey = false
  target : w.transferTarget (parse request).module = some m
  valid : (parse request).valid = true

/--
A `DELETE` that is not answered with an error.
-/
structure Deletes (w : World) (env : Env) (request : Bytes) (m : Module) : Prop extends w.Asks env request m where
  delete : (parse request).command = .delete
  answer : ∃ response, (w.handleProtocolMessage env (parse request)).1 = .ok response ∧ isError response = false

/--
From `w` to `w'` nothing changes, and the client is sent an error or nothing.
-/
structure Refuses (w w' : World) : Prop where
  fs : w'.fs = w.fs
  idle : w'.session.transferState = .idle
  trace : ∃ events, w'.trace = w.trace ++ events ∧ ∀ e ∈ events, e.refuses = true

theorem Asks.processRequest (h : w.Asks env request m)
    : ∃ ssl, w.processRequest env
        =
      World.processMessage env { w with session := { w.session with sslConnection := ssl } } request := by
  obtain ⟨ssl, hssl⟩ := readSocket_frame w.session env.recv requestSize
  refine ⟨ssl, ?_⟩
  have hreceived : w.session.readSocket env.recv requestSize
      = (some request, { w.session with sslConnection := ssl }) := Prod.ext h.reads.received hssl
  have hne : request ≠ [] := by
    rintro rfl
    exact absurd h.valid (by decide)
  exact processRequest_of_read env w h.active h.reads.idle hreceived hne

theorem finishRequest_of_no_transfer {message : ProtocolMessage} (response : Bytes) (hget : message.command ≠ .get)
    (hput : message.command ≠ .put)
    : w.finishRequest env message response = w.respond (env.send 0) response := by
  simp [finishRequest, hget, hput]

/--
The handler while it handles the message.
-/
abbrev handlerFor (w : World) (message : ProtocolMessage) : ProtocolHandler :=
  w.session.handler.setModule (w.session.handler.moduleName message.module)

theorem target_handlerFor {message : ProtocolMessage} (htarget : w.transferTarget message.module = some m)
    : (w.handlerFor message).getModule ((w.handlerFor message).moduleName message.module) = some m := by
  rw [handlerFor, moduleName_setModule]
  exact htarget

theorem gone_of_processMessage {response : Bytes} (hvalid : (parse request).valid = true)
    (hgate : w.session.awaitsKey = false) (htarget : w.transferTarget (parse request).module = some m)
    (hdelete : (parse request).command = .delete)
    (hanswer : ((w.handlerFor (parse request)).handle env.host (parse request) w.fs).1 = .ok response)
    (herror : isError response = false)
    : (parse request).path ≠ [] ∧ m.Gone (w.processMessage env request).2.fs (parse request).path := by
  have hgone := ProtocolHandler.gone_of_handleDelete env.host w.fs (target_handlerFor htarget)
  rw [processMessage_handled hvalid (by simp [hdelete]) hgate]
  dsimp only
  rw [hanswer]
  dsimp only
  rw [finishRequest_of_no_transfer response (by simp [hdelete]) (by simp [hdelete]), (keeps_respond _ _ _).fs]
  simp only [ProtocolHandler.handle, hvalid, hdelete, Bool.not_true, Bool.false_eq_true, if_false, Except.ok.injEq]
    at hanswer ⊢
  exact hgone (by rw [hanswer, herror])

/--
After a deletion there is nothing at the path that was named.
-/
theorem Deletes.gone (h : w.Deletes env request m)
    : (parse request).path ≠ [] ∧ m.Gone (w.processRequest env).2.fs (parse request).path := by
  obtain ⟨ssl, hrequest⟩ := h.toAsks.processRequest
  obtain ⟨response, hanswer, herror⟩ := h.answer
  rw [handleProtocolMessage_of_not_auth (by simp [h.delete])] at hanswer
  simp only [h.gate, Bool.false_eq_true, if_false] at hanswer
  rw [hrequest]
  exact gone_of_processMessage (w := { w with session := { w.session with sslConnection := ssl } }) h.valid h.gate
    h.target h.delete hanswer herror

theorem refuses_respond (hidle : w.session.transferState = .idle) (send : Nat → Option Nat) {response : Bytes}
    (herror : isError response = true)
    : Refuses w (w.respond send response).2 := by
  rcases w.writeResponse_cases send response with h | ⟨k, -, h⟩
  . simp only [respond, h]
    exact ⟨rfl, hidle, [], by simp, by simp⟩
  . simp only [respond, h]
    exact ⟨rfl, hidle, [_], rfl, by simpa [Event.refuses] using herror⟩

theorem Refuses.trans {w'' : World} (h : Refuses w w') (h' : Refuses w' w'') : Refuses w w'' := by
  obtain ⟨events, htrace, hrefuses⟩ := h.trace
  obtain ⟨events', htrace', hrefuses'⟩ := h'.trace
  refine ⟨h'.fs.trans h.fs, h'.idle, events ++ events', by simp [htrace', htrace], ?_⟩
  intro e he
  exact (List.mem_append.mp he).elim (hrefuses e) (hrefuses' e)

theorem refuses_answering (hidle : w.session.transferState = .idle) (message : ProtocolMessage)
    : Refuses w (w.answering message [.handled message]) :=
  ⟨rfl, hidle, _, rfl, by simp [Event.refuses]⟩

theorem refuses_nameTransfer (hidle : w.session.transferState = .idle) (moduleName path : Bytes)
    : Refuses w (w.nameTransfer moduleName path) :=
  ⟨rfl, hidle, [], by simp [nameTransfer], by simp⟩

/--
An error is sent, even if it contains what announces a download.
-/
theorem refuses_finishRequest {message : ProtocolMessage} {response : Bytes} (hidle : w.session.transferState = .idle)
    (htarget : w.transferTarget message.module = some m) (hfile : m.fileExists w.fs message.path ≠ .ok true)
    (hput : message.command ≠ .put) (herror : isError response = true)
    : Refuses w (w.finishRequest env message response).2 := by
  have hname := refuses_nameTransfer hidle message.module message.path
  unfold finishRequest startFileDownload
  dsimp only
  split
  . have htarget' : (w.nameTransfer message.module message.path).transferTarget message.module = some m := htarget
    rw [htarget']
    dsimp only
    cases hopen : m.openFile env.host ((w.nameTransfer message.module message.path).openDownloadFile env)
        (w.nameTransfer message.module message.path).fs message.path with
    | error => exact hname
    | ok found =>
      cases found with
      | none => exact hname.trans (refuses_respond (w := w.nameTransfer message.module message.path) hidle _ herror)
      | some found => exact absurd (openFile_ready hopen).1 hfile
  . simp only [hput, decide_false, Bool.and_false, Bool.false_eq_true, if_false]
    exact refuses_respond hidle _ herror

section refused

variable (hauth : (parse request).command ≠ .auth) (hput : (parse request).command ≠ .put)
  (hfile : m.fileExists w.fs (parse request).path ≠ .ok true)
  (hhandle : ((w.handlerFor (parse request)).handle env.host (parse request) w.fs).2 = w.fs
    ∧ ∀ response, ((w.handlerFor (parse request)).handle env.host (parse request) w.fs).1 = .ok response →
      isError response = true)

include hauth hput hfile hhandle

theorem refuses_processMessage (hidle : w.session.transferState = .idle) (hvalid : (parse request).valid = true)
    (hgate : w.session.awaitsKey = false) (htarget : w.transferTarget (parse request).module = some m)
    : Refuses w (w.processMessage env request).2 := by
  obtain ⟨hsame, herror⟩ := hhandle
  have hanswering := refuses_answering hidle (parse request)
  rw [processMessage_handled hvalid hauth hgate]
  dsimp only
  rw [hsame]
  split
  . exact hanswering
  . next response hresponse =>
    refine hanswering.trans (refuses_finishRequest (m := m) hidle ?_ hfile hput (herror response hresponse))
    exact (transferTarget_answering _ _).trans htarget

/--
A request is refused if the handler changes nothing and answers with an error, and there is no file to be sent.
-/
theorem Asks.refuses_of_handle (h : w.Asks env request m) : Refuses w (w.processRequest env).2 := by
  obtain ⟨ssl, hrequest⟩ := h.processRequest
  have hrefuses := refuses_processMessage (w := { w with session := { w.session with sslConnection := ssl } })
    hauth hput hfile hhandle h.reads.idle h.valid h.gate h.target
  rw [hrequest]
  exact ⟨hrefuses.fs, hrefuses.idle, hrefuses.trace⟩

end refused

/--
A request for what is gone is refused.
-/
theorem Asks.refuses (h : w.Asks env request m)
    (hcommand : (parse request).command = .get ∨ (parse request).command = .stat ∨ (parse request).command = .delete)
    (hpath : (parse request).path ≠ []) (hgone : m.Gone w.fs (parse request).path)
    : Refuses w (w.processRequest env).2 := by
  have hauth : (parse request).command ≠ .auth := by rcases hcommand with h | h | h <;> simp [h]
  have hput : (parse request).command ≠ .put := by rcases hcommand with h | h | h <;> simp [h]
  exact refuses_of_handle hauth hput (hgone.entryExists .file)
    (ProtocolHandler.handle_of_gone (target_handlerFor h.target) h.valid hcommand hpath hgone) h

end World

/--
Whether a directory was created, or a file created or truncated.
-/
def Event.creates : Event → Bool
  | .made _ | .opened _ => true
  | _ => false

namespace World

variable {w w' w'' : World} {modules : Bytes → Option Module}

/--
From `w` to `w'` the file system shrinks unless something is created.
-/
structure Diminishes (w w' : World) : Prop where
  trace : w.trace <+: w'.trace
  fs : w'.trace.countP Event.creates = w.trace.countP Event.creates → w.fs.Shrinks w'.fs

theorem Diminishes.trans (h : Diminishes w w') (h' : Diminishes w' w'') : Diminishes w w'' where
  trace := h.trace.trans h'.trace
  fs hcount := by
    have hfirst := h.trace.sublist.countP_le (p := Event.creates)
    have hsecond := h'.trace.sublist.countP_le (p := Event.creates)
    exact (h.fs (by omega)).trans (h'.fs (by omega))

theorem Diminishes.of_keeps (h : Keeps w w') : Diminishes w w' where
  trace := h.trace
  fs _ := by
    rw [h.fs]
    exact .refl _

theorem diminishes_storeChunk (w : World) (chunk : Bytes) : Diminishes w (w.storeChunk chunk) where
  trace := List.prefix_rfl
  fs _ := by
    unfold storeChunk
    dsimp only
    split
    . next l _ => exact w.fs.shrinks_appendData l chunk
    . exact .refl _

/--
What is created for an upload is recorded.
-/
theorem diminishes_setUploadFile {m : Module} {canOpen : Bool} {path : Bytes} {fs : FileSystem} {made : List Loc}
    {opened : Option Loc} (hopen : m.openTemp canOpen w.fs path = .ok (fs, made, opened))
    : Diminishes w (w.setUploadFile fs made opened) where
  trace := by
    rw [setUploadFile, List.append_assoc]
    apply List.prefix_append
  fs hcount := by
    obtain ⟨rfl, rfl⟩ : made = [] ∧ opened = none := by
      cases opened <;> cases made <;> simp [setUploadFile, Event.creates] at hcount ⊢
    rw [Module.openTemp_of_nothing hopen]
    exact .refl _

theorem diminishes_handle (message : ProtocolMessage) (host : Host) (h : ProtocolHandler)
    : Diminishes w { w.answering message [.handled message] with fs := (h.handle host message w.fs).2 } where
  trace := List.prefix_append _ _
  fs _ := by
    dsimp only
    rcases h.handle_cases host message w.fs with hsame | ⟨m, -, -, -, -, -, hdelete⟩
    . rw [hsame]
      exact .refl _
    . rw [hdelete]
      rcases ProtocolHandler.delete_cases message w.fs m with hsame | hfile | hdirectory
      . rw [hsame]
        exact .refl _
      . rw [hfile]
        rcases m.deleteFile_cases w.fs message.path with hsame | ⟨p, -, -, hremove⟩
        . rw [hsame]
          exact .refl _
        . rw [hremove]
          exact w.fs.shrinks_delete false p
      . rw [hdirectory]
        rcases m.deleteDirectory_cases w.fs message.path (ProtocolHandler.isRecursive message) with
          hsame | ⟨p, -, hremove⟩
        . rw [hsame]
          exact .refl _
        . rw [hremove]
          exact w.fs.shrinks_delete _ p

theorem covers_diminishes : Covers modules Diminishes where
  ofKeeps := .of_keeps
  trans := .trans
  storeChunk := diminishes_storeChunk
  setUploadFile _ := diminishes_setUploadFile
  handle host _ := diminishes_handle _ host _

end World
end SimpleRsyncd
