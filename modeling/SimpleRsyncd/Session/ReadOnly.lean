import SimpleRsyncd.Module.Operation
import SimpleRsyncd.Session.Announcement.Put

/-!
This module determines what a read-only module is protected from: no request to it, no transfer such a
request starts and no operation on it changes the file system.
-/

namespace SimpleRsyncd
namespace Module

variable {m : Module} (host : Host) (fs : FileSystem)

theorem deleteChecked_of_readOnly (h : m.isReadOnly = true) (path : Bytes)
    (delete : Bytes → Except Errno Bool × FileSystem)
    : m.deleteChecked fs path delete = (.ok false, fs) := by
  simp [deleteChecked, h]

/--
The operations that could write to a module leave the file system alone.
-/
def Spared (m : Module) : Prop :=
  ∀ (host : Host) (fs : FileSystem) (path : Bytes),
    (∀ recursive, (m.createDirectory host fs path recursive).2 = fs)
      ∧ (m.deleteFile fs path).2 = fs
      ∧ (∀ recursive, (m.deleteDirectory fs path recursive).2 = fs)
      ∧ ∀ localPath overwrite, (m.transferFile host fs localPath path overwrite).2 = fs

theorem spared_of_readOnly (h : m.isReadOnly = true) : m.Spared := by
  intro host fs path
  refine ⟨fun recursive => ?_, ?_, fun recursive => ?_, fun localPath overwrite => ?_⟩
  . simp [createDirectory, h]
  . rw [deleteFile, deleteChecked_of_readOnly fs h]
  . rw [deleteDirectory, deleteChecked_of_readOnly fs h]
  . simp [transferFile, h]

end Module

namespace ProtocolHandler

variable {h : ProtocolHandler} {m : Module} {message : ProtocolMessage}

theorem handleDelete_of_readOnly (host : Host) (fs : FileSystem)
    (hmodule : h.getModule (h.moduleName message.module) = some m) (hreadOnly : m.isReadOnly = true)
    : (h.handleDelete host message fs).2 = fs := by
  simp [handleDelete, hmodule, hreadOnly]

theorem handle_of_readOnly (host : Host) (fs : FileSystem)
    (hmodule : h.getModule (h.moduleName message.module) = some m) (hreadOnly : m.isReadOnly = true)
    : (h.handle host message fs).2 = fs := by
  unfold handle
  split
  . rfl
  . split
    . rfl
    . rfl
    . rfl
    . exact handleDelete_of_readOnly host fs hmodule hreadOnly
    . rfl
    . rfl
    . rfl

end ProtocolHandler

namespace World

open ProtocolParser

/--
The file system is the given one, and no upload is going on that could change it.
-/
structure Spares (fs : FileSystem) (w : World) : Prop where
  fs : w.fs = fs
  noUpload : w.session.transferState ≠ .receivingFile

namespace Spares

variable {fs : FileSystem} {w : World}

theorem writeResponse (h : Spares fs w) (send : Nat → Option Nat) (response : Bytes)
    : Spares fs (w.writeResponse send response).2 where
  fs := (w.fs_writeResponse send response).trans h.fs
  noUpload := by
    rw [(w.rests_writeResponse send response).transferState]
    exact h.noUpload

theorem respond (h : Spares fs w) (send : Nat → Option Nat) (response : Bytes)
    : Spares fs (w.respond send response).2 :=
  h.writeResponse send response

theorem endFileTransfer (h : Spares fs w) : Spares fs w.endFileTransfer :=
  ⟨h.fs, by simp [World.endFileTransfer, Session.endFileTransfer]⟩

theorem sendChunk (h : Spares fs w) (env : Env) : Spares fs (w.sendChunk env).2 := by
  unfold World.sendChunk
  split
  . exact h.endFileTransfer
  . split
    . exact h.endFileTransfer
    . next k _ =>
      have hchunk : Spares fs (w.afterChunk k) := ⟨h.fs, h.noUpload⟩
      dsimp only
      split
      . apply writeResponse
        exact ⟨hchunk.endFileTransfer.fs, hchunk.endFileTransfer.noUpload⟩
      . exact hchunk

theorem continueFileTransfer (h : Spares fs w) (env : Env)
    : Spares fs (w.continueFileTransfer env).2 := by
  unfold World.continueFileTransfer
  split
  . exact h.sendChunk env
  . next hreceiving => exact absurd hreceiving h.noUpload
  . exact h

theorem startFileDownload (h : Spares fs w) (env : Env) (moduleName path : Bytes)
    : Spares fs (w.startFileDownload env moduleName path).2 := by
  have hname : Spares fs (w.nameTransfer moduleName path) := ⟨h.fs, h.noUpload⟩
  unfold World.startFileDownload
  dsimp only
  split
  . exact hname
  . split
    . exact hname
    . exact hname
    . exact ⟨h.fs, by simp [beginSending]⟩

/--
A response that invites no upload starts none.
-/
theorem finishRequest (h : Spares fs w) (env : Env) {message : ProtocolMessage} {response : Bytes}
    (hnone : message.command = .put → Bytes.contains response readyToReceive = false)
    : Spares fs (w.finishRequest env message response).2 := by
  have hdownload := h.startFileDownload env message.module message.path
  unfold World.finishRequest
  split
  . split
    . next heq =>
      rw [heq] at hdownload
      exact hdownload
    . next heq =>
      rw [heq] at hdownload
      exact hdownload.continueFileTransfer env
    . next heq =>
      rw [heq] at hdownload
      exact hdownload.respond _ _
  . split
    . next hput =>
      simp only [Bool.and_eq_true, decide_eq_true_eq] at hput
      rw [hnone hput.2] at hput
      simp at hput
    . exact h.respond _ _

end Spares

variable {w : World} {env : Env} {m : Module} {request : Bytes}

theorem spares_answering (message : ProtocolMessage) (events : List Event)
    (hidle : w.session.transferState = .idle)
    : Spares w.fs (w.answering message events) :=
  ⟨rfl, by simp [answering, hidle]⟩

theorem spares_handleAuthMessage (message : ProtocolMessage) (hidle : w.session.transferState = .idle)
    : Spares w.fs (w.handleAuthMessage env message).2 := by
  rcases w.handleAuthMessage_cases env message with ⟨user, h⟩ | h <;> rw [h]
  . exact ⟨rfl, by simp [hidle]⟩
  . exact ⟨rfl, by simp [acceptUser, hidle]⟩

theorem spares_auth (hidle : w.session.transferState = .idle) (hvalid : (parse request).valid = true)
    (hauth : (parse request).command = .auth)
    : Spares w.fs (w.processMessage env request).2 := by
  unfold processMessage handleProtocolMessage
  dsimp only
  rw [setModule_eq_answering]
  simp only [hvalid, hauth, Bool.not_true, Bool.false_eq_true, ne_eq, not_true_eq_false, decide_false,
    Bool.and_false, ↓reduceIte]
  exact (spares_handleAuthMessage (w := w.answering (parse request) []) _ hidle).finishRequest env
    (by simp [hauth])

/--
A request that passed the gate. If it is a PUT, it is refused, and its refusal cannot be mistaken for
an invitation.
-/
theorem spares_handled (hword : w.HasWord) (hidle : w.session.transferState = .idle)
    (hmodule : w.transferTarget (parse request).module = some m) (hreadOnly : m.isReadOnly = true)
    (hvalid : (parse request).valid = true) (hauth : (parse request).command ≠ .auth)
    (hgate : w.session.awaitsKey = false)
    : Spares w.fs (w.processMessage env request).2 := by
  have htarget : (w.session.handler.setModule (w.session.handler.moduleName (parse request).module)).getModule
      ((w.session.handler.setModule (w.session.handler.moduleName (parse request).module)).moduleName
        (parse request).module) = some m := (transferTarget_answering (parse request) []).trans hmodule
  have hanswering := spares_answering (parse request) [.handled (parse request)] hidle
  have hnone : ∀ m', ¬w.PutReady (parse request) m' := by
    intro m' hready
    obtain rfl := Option.some.inj (hready.target.symm.trans hmodule)
    rw [hready.writable] at hreadOnly
    contradiction
  rw [processMessage_handled hvalid hauth hgate]
  dsimp only
  rw [ProtocolHandler.handle_of_readOnly env.host w.fs htarget hreadOnly]
  split
  . exact hanswering
  . next response hresponse =>
    apply hanswering.finishRequest
    intro hput
    obtain ⟨code, text, herror, -, hcontains⟩ :=
      handlePut_of_not_ready hgate (word_moduleName hword (parse_no_space request).1) hnone
    rw [ProtocolHandler.handle, hvalid, hput] at hresponse
    obtain rfl := Except.ok.inj hresponse
    rw [herror, hcontains]

theorem spares_processMessage (hword : w.HasWord) (hidle : w.session.transferState = .idle)
    (hmodule : w.transferTarget (parse request).module = some m) (hreadOnly : m.isReadOnly = true)
    : Spares w.fs (w.processMessage env request).2 := by
  cases hvalid : (parse request).valid with
  | false =>
    obtain ⟨response, hrespond⟩ := w.processMessage_of_not_valid env hvalid
    rw [hrespond]
    exact Spares.respond ⟨rfl, by simp [hidle]⟩ _ _
  | true =>
    by_cases hauth : (parse request).command = .auth
    . exact spares_auth hidle hvalid hauth
    . cases hgate : w.session.awaitsKey with
      | false => exact spares_handled hword hidle hmodule hreadOnly hvalid hauth hgate
      | true =>
        rw [processMessage_refused hvalid hauth hgate]
        exact (spares_answering _ _ hidle).finishRequest env fun _ => contains_unauthenticated.2

/--
One call of `processRequest` reads this request, it does not continue a transfer.
-/
structure Reads (w : World) (env : Env) (request : Bytes) : Prop where
  idle : w.session.transferState = .idle
  received : (w.session.readSocket env.recv requestSize).1 = some request

theorem spares_processRequest (hword : w.HasWord) (hreads : w.Reads env request)
    (hmodule : w.transferTarget (parse request).module = some m) (hreadOnly : m.isReadOnly = true)
    : Spares w.fs (w.processRequest env).2 := by
  have hnone : w.session.transferState ≠ .receivingFile := by simp [hreads.idle]
  obtain ⟨ssl, hssl⟩ := readSocket_frame w.session env.recv requestSize
  unfold processRequest
  split
  . exact ⟨rfl, hnone⟩
  . split
    . next hbusy => exact absurd hreads.idle hbusy
    . dsimp only
      rw [hreads.received, hssl]
      split
      . exact ⟨rfl, hnone⟩
      . exact ⟨rfl, hnone⟩
      . next heq =>
        obtain rfl := Option.some.inj heq
        exact spares_processMessage (w := { w with session := { w.session with sslConnection := ssl } })
          hword hreads.idle hmodule hreadOnly

/--
The calls of `processRequest` that continue a transfer.
-/
def transferStep : Transition World Env :=
  fun w env w' => w.session.transferState ≠ .idle ∧ (w.processRequest env).2 = w'

theorem Spares.run {fs : FileSystem} {w w' : World} {envs : List Env} (h : Spares fs w)
    (hrun : transferStep.Run w envs w')
    : Spares fs w' := by
  refine hrun.invariant h ?_
  rintro w env _ hspares ⟨hbusy, rfl⟩
  unfold processRequest
  split
  . exact hspares
  . exact hspares.continueFileTransfer env

/--
Nothing writes to a read-only module: whatever a session has done so far and whatever the file system
is by then, a request to such a module and the transfer it starts leave the file system alone, and so
do the operations of the module.
-/
theorem fs_of_readOnly {w₀ : World} {actions : List Action} (hfresh : w₀.Fresh)
    (hrun : step.Run w₀ actions w) (hreadOnly : m.isReadOnly = true)
    : m.Spared
        ∧ ∀ fs env request, Reads { w with fs } env request →
          w.transferTarget (parse request).module = some m →
          ∀ envs w', transferStep.Run (processRequest env { w with fs }).2 envs w' → w'.fs = fs := by
  refine ⟨Module.spared_of_readOnly hreadOnly, ?_⟩
  intro fs env request hreads hmodule envs w' htransfer
  have hword : w.HasWord := (Orderly.of_run hfresh hrun).word
  have hspares : Spares fs (processRequest env { w with fs }).2 :=
    spares_processRequest (w := { w with fs }) hword hreads hmodule hreadOnly
  exact (hspares.run htransfer).fs

def readOnlyModule : Module := { config := { path := bytes "/m", readOnly := true } }

/--
A new session with a read-only module `m` that has a file `f`.
-/
def singleReadOnly : World :=
  {
    session := {
      clientSocket := 4
      config := none
      handler := { modules := fun name => if name = moduleRoot.toBytes then some readOnlyModule else none }
    }
    fs := { entries := [(moduleRoot, .dir [(fileName, .file (bytes "x"))])] }
  }

theorem fresh_singleReadOnly : singleReadOnly.Fresh where
  socket := by simp [singleReadOnly]
  active := rfl
  noUser := rfl
  noModule := rfl
  idle := rfl
  noUpload := rfl
  noDownload := rfl
  noRemaining := rfl
  noSent := rfl
  noTrace := rfl

theorem fs_of_readOnly_single_put
    : (processRequest { recv := some (bytes "PUT m f\n") } singleReadOnly).2.fs = singleReadOnly.fs :=
  (fs_of_readOnly fresh_singleReadOnly .nil (m := readOnlyModule) rfl).2 singleReadOnly.fs
    { recv := some (bytes "PUT m f\n") } (bytes "PUT m f\n") ⟨rfl, by decide⟩ (by decide)
    [] _ .nil

end World
end SimpleRsyncd
