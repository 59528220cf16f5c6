import SimpleRsyncd.Module.Overwrite
import SimpleRsyncd.Session.ReadOnly
import SimpleRsyncd.Session.UploadRun

/-!
This module determines which files an upload overwrites. The temporary file is emptied when the upload
starts, and nobody asks whether the module allows it.
-/

namespace SimpleRsyncd

namespace Module

variable {m : Module} {fs fs' : FileSystem} {path : Bytes} {l : Loc} {old : Bytes}

/--
A file in the place of the temporary file is opened as that.
-/
theorem openTemp_of_locate (hlocate : m.locate fs (tempPath path) = .ok l) (hold : fs.data l = some old)
    : m.openTemp true fs path = .ok (fs.put l (.file []), [], some l) := by
  obtain ⟨fullPath, hfull, hresolve⟩ := locate_eq_ok_iff.mp hlocate
  obtain ⟨parent, n, hfile⟩ := isFilePath_tempPath hfull
  have hleads : fs.resolveElems fullPath (parent ++ [.name n]) = .ok l := by
    rw [← hfile.elems, ← FileSystem.resolve_of_isAbsolute hfile.absolute, hresolve]
  obtain ⟨d, hd⟩ := fs.resolveElems_append hleads
  have hparent : fs.createParent fullPath = .ok (fs, []) := by
    have hexists : fs.exists (Path.parentPath fullPath) = .ok true :=
      FileSystem.exists_of_resolve (hfile.resolve_parentPath.trans hd)
    simp [FileSystem.createParent, hfile.isEmpty_parentPath, hexists, bind, Except.bind]
  rw [openTemp_of_fullPath hfile hfull, hparent]
  simp only [FileSystem.openWrite_of_resolve hresolve hold]

theorem locate_of_openTemp {canOpen : Bool} {made : List Loc}
    (h : m.openTemp canOpen fs path = .ok (fs', made, some l)) (hold : fs.data l = some old)
    : m.locate fs (tempPath path) = .ok l := by
  obtain ⟨fullPath, fs₁, hfull, hparent, hopened⟩ := openTemp_eq_ok h
  obtain ⟨parent, n, hfile⟩ := isFilePath_tempPath hfull
  have hopen := (hopened l rfl).2
  refine locate_eq_ok_iff.mpr ⟨fullPath, hfull, ?_⟩
  rcases FileSystem.createParent_cases hfile hparent with ⟨d, -, rfl, -⟩ | ⟨d, x, names, hleading, hmakes⟩
  . refine FileSystem.resolve_of_openWrite ?_ hopen hold
    rintro rfl
    simpa [Path.isAbsolute] using hfile.absolute
  . have hlocation := (FileSystem.opened_of_makes hfile hleading hmakes hopen).1
    have hwhole : fs.leading fullPath [] (Path.elems fullPath) = .ok (d, List.map .name (x :: names ++ [n])) := by
      rw [hfile.elems, FileSystem.leading_append_of_ne_nil _ hleading (by simp)]
      simp
    have hl : l = d ++ (x :: names ++ [n]) :=
      Except.ok.inj (hlocation.symm.trans (FileSystem.location_of_leading hwhole).1)
    have hbelow : d ++ [x] <+: l := by
      rw [hl]
      exact ⟨names ++ [n], by simp⟩
    exact absurd hmakes.missing (fs.isTree.of_isPrefix hbelow (fs.kind_of_data hold))

theorem data_openTemp {canOpen : Bool} {made : List Loc} (h : m.openTemp canOpen fs path = .ok (fs', made, none))
    (hold : fs.data l = some old)
    : fs'.data l = some old := by
  obtain ⟨fullPath, fs₁, hfull, hparent, -⟩ := openTemp_eq_ok h
  obtain ⟨parent, n, hfile⟩ := isFilePath_tempPath hfull
  rw [openTemp_of_fullPath hfile hfull, hparent] at h
  dsimp only at h
  split at h
  . simp at h
  . obtain ⟨rfl, -⟩ := Prod.mk.inj (Except.ok.inj h)
    exact FileSystem.data_createParent hparent hold

end Module

namespace World

open ProtocolParser

variable {w w' : World} {env : Env} {m : Module} {message : ProtocolMessage} {l : Loc} {content old : Bytes}

theorem Receiving.of_rests {path : Bytes} {fs : FileSystem} (h : w.Receiving m path fs l content)
    (hrests : Rests w w') (hfs : w'.fs = w.fs)
    : w'.Receiving m path fs l content where
  state := hrests.transferState.trans h.state
  file := hrests.uploadFile.trans h.file
  writes := hfs ▸ h.writes
  temp := hfs ▸ h.temp

theorem Receiving.announceUpload {path : Bytes} {fs : FileSystem} (h : w.Receiving m path fs l content)
    (env : Env) (response : Bytes)
    : (w.announceUpload env response).2.Receiving m path fs l content := by
  have hrests := w.rests_writeResponse (env.send 0) response
  have hfs := w.fs_writeResponse (env.send 0) response
  unfold World.announceUpload
  split
  . next w' heq =>
    rw [heq] at hrests hfs
    have hreceiving := h.of_rests hrests hfs
    exact ⟨rfl, hreceiving.file, hreceiving.writes, hreceiving.temp⟩
  . next w' heq =>
    rw [heq] at hrests hfs
    exact (h.of_rests hrests hfs).of_rests (w'.rests_writeResponse _ _) (w'.fs_writeResponse _ _)

/--
The upload that a PUT request starts goes to the file at `l`.
-/
structure Overwrites (w : World) (env : Env) (message : ProtocolMessage) (m : Module) (l : Loc) : Prop where
  ready : w.PutReady message m
  canOpen : env.openUpload = true
  temp : m.locate w.fs (tempPath message.path) = .ok l

/--
The request starts an upload to the file that was opened, or no upload at all.
-/
inductive Starts (w : World) (env : Env) (message : ProtocolMessage) (m : Module) (w' : World) : Prop where
  | receiving (l : Loc) (hreceiving : w'.Receiving m message.path w.fs l [])
    (hoverwrites : ∀ l' old, w.fs.data l' = some old → (w.Overwrites env message m l' ↔ l' = l))
  | nothing (hidle : w'.session.transferState ≠ .receivingFile)
    (hkeeps : ∀ l old, w.fs.data l = some old → w'.fs.data l = some old ∧ ¬w.Overwrites env message m l)

theorem starts_put {request : Bytes} (hclosed : w.session.uploadFile = none)
    (hidle : w.session.transferState = .idle) (hvalid : (parse request).valid = true)
    (hput : (parse request).command = .put) (hready : w.PutReady (parse request) m)
    : w.Starts env (parse request) m (w.processMessage env request).2 := by
  have htarget : (w.answering (parse request) [.handled (parse request)]).transferTarget
      (parse request).module = some m := (transferTarget_answering _ _).trans hready.target
  -- a file that the request overwrites is found and emptied by opening its temporary path
  have hlocate : ∀ l old, w.fs.data l = some old → w.Overwrites env (parse request) m l →
      m.openTemp env.openUpload w.fs (parse request).path = .ok (w.fs.put l (.file []), [], some l) := by
    intro l old hold hoverwrites
    rw [hoverwrites.canOpen]
    exact Module.openTemp_of_locate hoverwrites.temp hold
  rw [processMessage_put_ready hvalid hput hready, finishRequest_put hput htarget hclosed]
  have hfs : (w.answering (parse request) [.handled (parse request)]).fs = w.fs := rfl
  rw [hfs]
  rcases hopen : m.openTemp env.openUpload w.fs (parse request).path with e | ⟨fs', made, _ | l⟩
  . refine .nothing (by simp [answering, nameTransfer, hidle]) ?_
    intro l old hold
    refine ⟨hold, fun hoverwrites => ?_⟩
    simp [hlocate l old hold hoverwrites] at hopen
  . refine .nothing ?_ ?_
    . simp only [Option.isSome_none, Bool.false_eq_true, if_false]
      rw [(rests_respond _ _ _).transferState]
      simp [answering, nameTransfer, setUploadFile, hidle]
    . intro l old hold
      refine ⟨?_, fun hoverwrites => ?_⟩
      . simp only [Option.isSome_none, Bool.false_eq_true, if_false]
        exact (congrArg (FileSystem.data · l) (fs_writeResponse _ _ _)).trans (Module.data_openTemp hopen hold)
      . simp [hlocate l old hold hoverwrites] at hopen
  . obtain ⟨hwrites, htemp⟩ := Module.writes_openTemp hopen
    refine .receiving l ?_ ?_
    . simp only [Option.isSome_some, if_true]
      apply Receiving.announceUpload
      exact ⟨rfl, by simp [beginReceiving, setUploadFile], hwrites, htemp⟩
    . intro l' old hold
      constructor
      . intro hoverwrites
        have := (hlocate l' old hold hoverwrites).symm.trans hopen
        simp_all
      . rintro rfl
        have hcan : env.openUpload = true := by
          obtain ⟨_, _, -, -, hopened⟩ := Module.openTemp_eq_ok hopen
          exact (hopened l' rfl).1
        exact ⟨hready, hcan, Module.locate_of_openTemp hopen hold⟩

/--
A request that is refused starts nothing.
-/
theorem Starts.of_spares (h : Spares w.fs w') (hready : ¬w.PutReady message m) : w.Starts env message m w' :=
  .nothing h.noUpload fun l old hold => ⟨by rw [h.fs, hold], fun hoverwrites => hready hoverwrites.ready⟩

theorem starts_processMessage {request : Bytes} (hword : w.HasWord) (hclosed : w.session.uploadFile = none)
    (hidle : w.session.transferState = .idle) (htarget : w.transferTarget (parse request).module = some m)
    (hvalid : (parse request).valid = true) (hput : (parse request).command = .put)
    : w.Starts env (parse request) m (w.processMessage env request).2 := by
  cases hgate : w.session.awaitsKey with
  | true =>
    have hspares : Spares w.fs (w.processMessage env request).2 := by
      rw [processMessage_refused hvalid (by simp [hput]) hgate]
      exact (spares_answering _ _ hidle).finishRequest env fun _ => contains_unauthenticated.2
    exact .of_spares hspares fun hready => by simp [hready.gate] at hgate
  | false =>
    cases hreadOnly : m.isReadOnly with
    | true =>
      exact .of_spares (spares_processMessage hword hidle htarget hreadOnly) fun hready => by
        simp [hready.writable] at hreadOnly
    | false => exact starts_put hclosed hidle hvalid hput ⟨hgate, htarget, hreadOnly⟩

theorem starts_processRequest {request : Bytes} (hword : w.HasWord) (hclosed : w.session.uploadFile = none)
    (hactive : w.session.active = true) (hreads : w.Reads env request)
    (htarget : w.transferTarget (parse request).module = some m) (hvalid : (parse request).valid = true)
    (hput : (parse request).command = .put)
    : w.Starts env (parse request) m (w.processRequest env).2 := by
  obtain ⟨ssl, hssl⟩ := readSocket_frame w.session env.recv requestSize
  have hread : w.session.readSocket env.recv requestSize
      = (some request, { w.session with sslConnection := ssl }) := Prod.ext hreads.received hssl
  have hne : request ≠ [] := by
    rintro rfl
    exact absurd hvalid (by decide)
  rw [processRequest_of_read env w hactive hreads.idle hread hne]
  have hstarts : Starts { w with session := { w.session with sslConnection := ssl } } env (parse request) m _ :=
    starts_processMessage hword hclosed hreads.idle htarget hvalid hput
  -- the state of the connection is not looked at
  have hsame : ∀ l, Overwrites { w with session := { w.session with sslConnection := ssl } } env (parse request) m l
      ↔ w.Overwrites env (parse request) m l := fun l =>
    ⟨fun h => ⟨⟨h.ready.gate, h.ready.target, h.ready.writable⟩, h.canOpen, h.temp⟩,
      fun h => ⟨⟨h.ready.gate, h.ready.target, h.ready.writable⟩, h.canOpen, h.temp⟩⟩
  cases hstarts with
  | receiving l hreceiving hoverwrites =>
    exact .receiving l hreceiving fun l' old hold => (hsame l').symm.trans (hoverwrites l' old hold)
  | nothing hidle hkeeps =>
    exact .nothing hidle fun l old hold => (hkeeps l old hold).imp_right fun hnot h => hnot ((hsame l).mpr h)

/--
A call of `processRequest` that receives these bytes of an upload, nothing at the end of the stream and
`none` if there is an error.
-/
def uploadStep : Transition World (Option Bytes) := fun w received w' =>
  w.session.active = true ∧ w.session.transferState = .receivingFile
    ∧ ∃ env : Env, (w.session.readSocket env.recv chunkSize).1 = received ∧ (w.processRequest env).2 = w'

theorem receiveStep_of_uploadStep {received : Option Bytes} (h : uploadStep w received w')
    : receiveStep w received w' := by
  obtain ⟨hactive, hreceiving, env, hread, rfl⟩ := h
  refine ⟨env, hread, ?_⟩
  simp [processRequest, hactive, hreceiving]

/--
The bytes of an upload, up to the end of the stream or an error if it has come to that.
-/
structure Uploads (chunks : List Bytes) (received : List (Option Bytes)) : Prop where
  nonempty : ∀ chunk ∈ chunks, chunk ≠ []
  received : received = chunks.map some ∨ ∃ ending, (ending = none ∨ ending = some [])
    ∧ received = chunks.map some ++ [ending]

theorem Receiving.run {path : Bytes} {fs : FileSystem} {chunks : List Bytes} {received : List (Option Bytes)}
    (h : w.Receiving m path fs l []) (huploads : Uploads chunks received)
    (hrun : uploadStep.Run w received w')
    : fs.Writes w'.fs l chunks.flatten := by
  have hrun := hrun.mono fun _ _ _ => receiveStep_of_uploadStep
  have hchunks : ∀ w', receiveStep.Run w (chunks.map some) w' → w'.Receiving m path fs l chunks.flatten := by
    intro w' hrun
    simpa using (h.chunks huploads.nonempty hrun).1
  rcases huploads.received with rfl | ⟨ending, hending, rfl⟩
  . exact (hchunks w' hrun).writes
  . obtain ⟨w'', hrun'', hlast⟩ := hrun.of_append
    obtain ⟨_, hstep, hnil⟩ := Transition.run_cons_iff.mp hlast
    obtain rfl := Transition.run_nil_iff.mp hnil
    have hreceiving := hchunks w'' hrun''
    rw [(hreceiving.ending hending hstep).1]
    exact hreceiving.writes

/--
A PUT request to a module that is processed, and the upload that follows.
-/
structure PutRun (w : World) (env : Env) (request : Bytes) (m : Module) (chunks : List Bytes) (w' : World)
    : Prop where
  active : w.session.active = true
  reads : w.Reads env request
  target : w.transferTarget (parse request).module = some m
  valid : (parse request).valid = true
  put : (parse request).command = .put
  run : ∃ received, Uploads chunks received ∧ uploadStep.Run (w.processRequest env).2 received w'

end World
end SimpleRsyncd
