import SimpleRsyncd.Session.Announcement.Get
import SimpleRsyncd.Session.Announcement.Put

/-!
This module takes apart what a worker does with a session. Most of it keeps the file system and all files that
are open, and what remains are four kinds of steps, so a relation that covers them covers whole requests.
-/

namespace SimpleRsyncd

open ProtocolParser

/--
A request with this command was handled which was about a module that may be written to.
-/
def Requested (modules : Bytes → Option Module) (command : ProtocolCommand) (trace : List Event) : Prop :=
  ∃ message name m, .handled message ∈ trace ∧ message.command = command
    ∧ (message.module = name ∨ message.module = []) ∧ modules name = some m ∧ m.isReadOnly = false
    ∧ (command = .delete → m.allowsDeletion = true)

variable {modules : Bytes → Option Module}

theorem Requested.mono {command : ProtocolCommand} {trace trace' : List Event} (h : Requested modules command trace)
    (hpre : trace <+: trace')
    : Requested modules command trace' := by
  obtain ⟨message, name, m, hmem, hrest⟩ := h
  exact ⟨message, name, m, hpre.subset hmem, hrest⟩

namespace World

/--
From `w` to `w'` the file system stays as it is, and no file is opened.
-/
structure Keeps (w w' : World) : Prop where
  trace : w.trace <+: w'.trace
  fs : w'.fs = w.fs
  sameModules : w'.session.handler.modules = w.session.handler.modules
  file : ∀ l, w'.session.uploadFile = some l → w.session.uploadFile = some l

variable {w w' w'' : World}

/--
A relation that covers all that a worker does with a session: what keeps the file system, the chunk that is
written to the open file, the opening of the temporary file for a `PUT` and the answer of the handler.
-/
structure Covers (modules : Bytes → Option Module) (R : World → World → Prop) : Prop where
  ofKeeps : ∀ {w w'}, Keeps w w' → R w w'
  trans : ∀ {w w' w''}, R w w' → R w' w'' → R w w''
  storeChunk : ∀ w chunk, R w (w.storeChunk chunk)
  setUploadFile : ∀ {w m canOpen path fs made opened}, Requested modules .put w.trace →
    Module.openTemp m canOpen w.fs path = .ok (fs, made, opened) → R w (w.setUploadFile fs made opened)
  handle : ∀ {w message} host, w.session.handler.modules = modules →
    R w {
      w.answering message [.handled message] with
      fs := ((w.session.handler.setModule (w.session.handler.moduleName message.module)).handle host message w.fs).2
    }

variable (w) (env : Env)

theorem keeps_writeResponse (send : Nat → Option Nat) (response : Bytes)
    : Keeps w (w.writeResponse send response).2 := by
  rcases w.writeResponse_cases send response with h | ⟨k, -, h⟩
  . rw [h]
    exact ⟨List.prefix_rfl, rfl, rfl, fun _ h => h⟩
  . rw [h]
    exact ⟨List.prefix_append _ _, rfl, rfl, fun _ h => h⟩

theorem keeps_respond (send : Nat → Option Nat) (response : Bytes) : Keeps w (w.respond send response).2 :=
  w.keeps_writeResponse send response

theorem keeps_endFileTransfer : Keeps w w.endFileTransfer :=
  ⟨List.prefix_rfl, rfl, rfl, fun l hl => by simp [endFileTransfer, Session.endFileTransfer] at hl⟩

theorem Keeps.refl (w : World) : Keeps w w :=
  ⟨List.prefix_rfl, rfl, rfl, fun _ h => h⟩

theorem Keeps.trans {w w' w'' : World} (h : Keeps w w') (h' : Keeps w' w'') : Keeps w w'' where
  trace := h.trace.trans h'.trace
  fs := h'.fs.trans h.fs
  sameModules := h'.sameModules.trans h.sameModules
  file l hl := h.file l (h'.file l hl)

theorem keeps_sendChunk : Keeps w (w.sendChunk env).2 := by
  unfold sendChunk
  split
  . exact w.keeps_endFileTransfer
  . split
    . exact w.keeps_endFileTransfer
    . next k _ =>
      have hchunk : Keeps w (w.afterChunk k) := ⟨List.prefix_append _ _, rfl, rfl, fun _ h => h⟩
      dsimp only
      split
      . have hdone : Keeps (w.afterChunk k) ((w.afterChunk k).endFileTransfer.log [.completed]) :=
          (keeps_endFileTransfer _).trans ⟨List.prefix_append _ _, rfl, rfl, fun _ h => h⟩
        exact (hchunk.trans hdone).trans (keeps_writeResponse _ _ _)
      . exact hchunk

theorem keeps_readSocket (recv : Option Bytes) (length : Nat)
    : Keeps w { w with session := (w.session.readSocket recv length).2 } := by
  obtain ⟨ssl, hssl⟩ := readSocket_frame w.session recv length
  rw [hssl]
  exact ⟨List.prefix_rfl, rfl, rfl, fun _ h => h⟩

theorem keeps_startFileDownload (moduleName path : Bytes) : Keeps w (w.startFileDownload env moduleName path).2 := by
  unfold startFileDownload
  dsimp only
  split
  . exact ⟨List.prefix_rfl, rfl, rfl, fun _ h => h⟩
  . split
    . exact ⟨List.prefix_rfl, rfl, rfl, fun _ h => h⟩
    . exact ⟨List.prefix_rfl, rfl, rfl, fun _ h => h⟩
    . exact ⟨List.prefix_append _ _, rfl, rfl, fun _ h => h⟩

theorem keeps_announceUpload (response : Bytes) : Keeps w (w.announceUpload env response).2 := by
  have hwrite := w.keeps_writeResponse (env.send 0) response
  unfold announceUpload
  split
  . next w' heq =>
    rw [heq] at hwrite
    exact hwrite.trans ⟨List.prefix_rfl, rfl, rfl, fun _ h => h⟩
  . next w' heq =>
    rw [heq] at hwrite
    exact hwrite.trans (w'.keeps_respond _ _)

theorem keeps_answering (message : ProtocolMessage) (events : List Event) : Keeps w (w.answering message events) :=
  ⟨List.prefix_append _ _, rfl, rfl, fun _ h => h⟩

theorem keeps_handleAuthMessage (message : ProtocolMessage) : Keeps w (w.handleAuthMessage env message).2 := by
  rcases w.handleAuthMessage_cases env message with ⟨user, h⟩ | h
  . rw [h]
    exact ⟨List.prefix_rfl, rfl, rfl, fun _ h => h⟩
  . rw [h]
    exact ⟨List.prefix_append _ _, rfl, rfl, fun _ h => h⟩

theorem eq_or_nil_of_moduleName (h : ProtocolHandler) (name : Bytes) : name = h.moduleName name ∨ name = [] := by
  unfold ProtocolHandler.moduleName
  cases name <;> simp

theorem keeps_close (w : World) : Keeps w w.close := by
  unfold close
  split
  . exact ⟨List.prefix_append _ _, rfl, rfl, fun _ h => h⟩
  . split
    . exact ⟨List.prefix_append _ _, rfl, rfl, fun _ h => h⟩
    . exact ⟨List.prefix_rfl, rfl, rfl, fun _ h => h⟩

namespace Covers

variable {R : World → World → Prop}

theorem refl (hR : Covers modules R) (w : World) : R w w :=
  hR.ofKeeps (.refl w)

theorem receiveChunk (hR : Covers modules R) : R w (w.receiveChunk env).2 := by
  have hread := w.keeps_readSocket env.recv chunkSize
  -- a transfer that has ended has nothing to move to its final place
  have hnothing : ∀ w : World, w.endFileTransfer.finishUpload = .ok w.fs := fun _ => rfl
  unfold World.receiveChunk
  dsimp only
  split
  . exact hR.ofKeeps (hread.trans (keeps_endFileTransfer _))
  . simp only [hnothing]
    exact hR.ofKeeps ((hread.trans (keeps_endFileTransfer _)).trans (keeps_writeResponse _ _ _))
  . exact hR.trans (hR.ofKeeps hread) (hR.storeChunk _ _)

theorem continueFileTransfer (hR : Covers modules R) : R w (w.continueFileTransfer env).2 := by
  unfold World.continueFileTransfer
  split
  . exact hR.ofKeeps (w.keeps_sendChunk env)
  . exact hR.receiveChunk w env
  . exact hR.refl w

variable {w}

theorem startFileUpload (hR : Covers modules R) (moduleName path : Bytes) (hput : Requested modules .put w.trace)
    : R w (w.startFileUpload env moduleName path).2 := by
  have hname : R w (w.nameTransfer moduleName path) :=
    hR.ofKeeps ⟨List.prefix_rfl, rfl, rfl, fun _ h => h⟩
  unfold World.startFileUpload
  dsimp only
  split
  . exact hname
  . split
    . exact hname
    . next fs made opened hopen =>
      have hset : R w ((w.nameTransfer moduleName path).setUploadFile fs made opened) :=
        hR.trans hname (hR.setUploadFile hput hopen)
      split
      . exact hR.trans hset (hR.ofKeeps ⟨List.prefix_append _ _, rfl, rfl, fun _ h => h⟩)
      . exact hset

/--
A response that invites to an upload needs a request that asks for one.
-/
theorem finishRequest (hR : Covers modules R) {message : ProtocolMessage} {response : Bytes}
    (hput : message.command = .put → Bytes.contains response readyToReceive = true → Requested modules .put w.trace)
    : R w (w.finishRequest env message response).2 := by
  have hdownload := w.keeps_startFileDownload env message.module message.path
  unfold World.finishRequest
  split
  . split
    . next heq =>
      rw [heq] at hdownload
      exact hR.ofKeeps hdownload
    . next w' heq =>
      rw [heq] at hdownload
      exact hR.trans (hR.ofKeeps hdownload) (hR.continueFileTransfer w' env)
    . next w' heq =>
      rw [heq] at hdownload
      exact hR.ofKeeps (hdownload.trans (w'.keeps_respond _ _))
  . split
    . next hinvites =>
      simp only [Bool.and_eq_true, decide_eq_true_eq] at hinvites
      have hupload := hR.startFileUpload env message.module message.path (hput hinvites.2 hinvites.1)
      split
      . next heq =>
        rw [heq] at hupload
        exact hupload
      . next w' heq =>
        rw [heq] at hupload
        exact hR.trans hupload (hR.ofKeeps (w'.keeps_announceUpload env response))
      . next w' heq =>
        rw [heq] at hupload
        exact hR.trans hupload (hR.ofKeeps (w'.keeps_respond _ _))
    . exact hR.ofKeeps (w.keeps_respond _ _)

theorem auth (hR : Covers modules R) {request : Bytes} (hvalid : (parse request).valid = true)
    (hauth : (parse request).command = .auth)
    : R w (w.processMessage env request).2 := by
  unfold World.processMessage handleProtocolMessage
  dsimp only
  rw [setModule_eq_answering]
  simp only [hvalid, hauth, Bool.not_true, Bool.false_eq_true, ne_eq, not_true_eq_false, decide_false,
    Bool.and_false, ↓reduceIte]
  refine hR.trans ?_ (hR.finishRequest env (by simp [hauth]))
  exact hR.ofKeeps ((keeps_answering w (parse request) []).trans (keeps_handleAuthMessage _ env (parse request)))

/--
A request that passed the gate: the invitation to upload a file is the answer to a `PUT`.
-/
theorem handled (hR : Covers modules R) {request : Bytes} (hword : w.HasWord)
    (hmodules : w.session.handler.modules = modules) (hvalid : (parse request).valid = true)
    (hauth : (parse request).command ≠ .auth) (hgate : w.session.awaitsKey = false)
    : R w (w.processMessage env request).2 := by
  have hhandled : .handled (parse request) ∈ (w.answering (parse request) [.handled (parse request)]).trace := by
    simp [answering]
  have hhandle := @hR.handle w (parse request) env.host hmodules
  rw [processMessage_handled hvalid hauth hgate]
  dsimp only
  split
  . exact hhandle
  . next response hresponse =>
    refine hR.trans hhandle (hR.finishRequest env ?_)
    intro hput hcontains
    by_cases hready : ∃ m, w.PutReady (parse request) m
    . obtain ⟨m, hready⟩ := hready
      refine ⟨_, _, m, hhandled, hput, eq_or_nil_of_moduleName w.session.handler _, ?_, hready.writable, by simp⟩
      rw [← hready.target, ← hmodules]
      rfl
    . obtain ⟨code, text, herror, -, hnone⟩ :=
        handlePut_of_not_ready hgate (word_moduleName hword (parse_no_space request).1) (not_exists.mp hready)
      rw [ProtocolHandler.handle, hvalid, hput] at hresponse
      obtain rfl := Except.ok.inj hresponse
      rw [herror, hnone] at hcontains
      contradiction

theorem processMessage (hR : Covers modules R) (hword : w.HasWord) (hmodules : w.session.handler.modules = modules)
    (request : Bytes)
    : R w (w.processMessage env request).2 := by
  cases hvalid : (parse request).valid with
  | false =>
    obtain ⟨response, hrespond⟩ := w.processMessage_of_not_valid env hvalid
    rw [hrespond]
    exact hR.ofKeeps (w.keeps_respond _ _)
  | true =>
    by_cases hauth : (parse request).command = .auth
    . exact hR.auth env hvalid hauth
    . cases hgate : w.session.awaitsKey with
      | false => exact hR.handled env hword hmodules hvalid hauth hgate
      | true =>
        rw [processMessage_refused hvalid hauth hgate]
        refine hR.trans (hR.ofKeeps (keeps_answering _ _ _)) (hR.finishRequest env ?_)
        intro _ hcontains
        rw [contains_unauthenticated.2] at hcontains
        contradiction

theorem processRequest (hR : Covers modules R) (hword : w.HasWord) (hmodules : w.session.handler.modules = modules)
    : R w (w.processRequest env).2 := by
  have hread := w.keeps_readSocket env.recv requestSize
  obtain ⟨ssl, hssl⟩ := readSocket_frame w.session env.recv requestSize
  unfold World.processRequest
  split
  . exact hR.refl w
  . split
    . exact hR.continueFileTransfer w env
    . dsimp only
      split
      . exact hR.ofKeeps ⟨hread.trace, hread.fs, hread.sameModules, hread.file⟩
      . exact hR.ofKeeps ⟨hread.trace, hread.fs, hread.sameModules, hread.file⟩
      . refine hR.trans (hR.ofKeeps hread) ?_
        rw [hssl]
        exact hR.processMessage (w := { w with session := { w.session with sslConnection := ssl } }) env hword hmodules _

/--
Whatever a worker does with a session.
-/
theorem workerAct (hR : Covers modules R) (hword : w.HasWord) (hmodules : w.session.handler.modules = modules)
    (action : Action)
    : R w (workerAct action w) := by
  cases action with
  | close => exact hR.ofKeeps w.keeps_close
  | request env =>
    have hrequest := hR.processRequest env hword hmodules
    unfold World.workerAct serve
    dsimp only
    split
    . split
      . next heq =>
        rw [heq] at hrequest
        exact hrequest
      . next _ w' _ heq =>
        rw [heq] at hrequest
        exact hR.trans hrequest (hR.ofKeeps w'.keeps_close)
    . exact hR.refl w

end Covers
end World
end SimpleRsyncd
