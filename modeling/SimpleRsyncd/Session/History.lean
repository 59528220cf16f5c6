import SimpleRsyncd.Session.Process

/-!
This module shows that a session never looks at what it has done: with another history in front of its
trace every function does the same and adds the same to it.
-/

namespace SimpleRsyncd
namespace World

/--
The world with more in front of its trace.
-/
def after (past : List Event) (w : World) : World := { w with trace := past ++ w.trace }

/--
What a function returns, and the world it leaves with more in front of its trace.
-/
def resultAfter {β : Type} (past : List Event) (result : β × World) : β × World :=
  (result.1, result.2.after past)

variable (past : List Event) (env : Env) (w : World)

@[simp]
theorem session_after : (w.after past).session = w.session := rfl

@[simp]
theorem fs_after : (w.after past).fs = w.fs := rfl

@[simp]
theorem trace_after : (w.after past).trace = past ++ w.trace := rfl

@[simp]
theorem resultAfter_mk {β : Type} (b : β) : resultAfter past (b, w) = (b, w.after past) := rfl

@[simp]
theorem fst_resultAfter {β : Type} (result : β × World) : (resultAfter past result).1 = result.1 := rfl

@[simp]
theorem snd_resultAfter {β : Type} (result : β × World) : (resultAfter past result).2 = result.2.after past := rfl

theorem log_after (events : List Event) : (w.after past).log events = (w.log events).after past := by
  simp [log, after]

theorem endFileTransfer_after : (w.after past).endFileTransfer = w.endFileTransfer.after past := rfl

theorem close_after : (w.after past).close = w.close.after past := by
  obtain ⟨session, fs, trace⟩ := w
  unfold close after
  dsimp only
  split
  . simp
  . split <;> simp

theorem writeResponse_after (send : Nat → Option Nat) (response : Bytes)
    : (w.after past).writeResponse send response = resultAfter past (w.writeResponse send response) := by
  unfold writeResponse
  simp only [session_after, log_after]
  split
  . split <;> rfl
  . rfl

theorem respond_after (send : Nat → Option Nat) (response : Bytes)
    : (w.after past).respond send response = resultAfter past (w.respond send response) := by
  unfold respond
  rw [writeResponse_after]
  rfl

theorem nameTransfer_after (moduleName path : Bytes)
    : (w.after past).nameTransfer moduleName path = (w.nameTransfer moduleName path).after past := rfl

theorem transferTarget_after (moduleName : Bytes)
    : (w.after past).transferTarget moduleName = w.transferTarget moduleName := rfl

theorem beginReceiving_after : (w.after past).beginReceiving = w.beginReceiving.after past := by
  simp [beginReceiving, after]

theorem setUploadFile_after (fs : FileSystem) (made : List Loc) (opened : Option Loc)
    : (w.after past).setUploadFile fs made opened = (w.setUploadFile fs made opened).after past := by
  simp [setUploadFile, after]

theorem startFileUpload_after (moduleName path : Bytes)
    : (w.after past).startFileUpload env moduleName path
        =
      resultAfter past (w.startFileUpload env moduleName path) := by
  unfold startFileUpload
  simp only [nameTransfer_after, transferTarget_after, session_after, fs_after, setUploadFile_after,
    beginReceiving_after]
  split
  . rfl
  . split
    . rfl
    . split <;> rfl

theorem openDownloadFile_after : (w.after past).openDownloadFile env = w.openDownloadFile env := rfl

theorem beginSending_after (content : Bytes) (size : Nat)
    : (w.after past).beginSending content size = (w.beginSending content size).after past := by
  simp [beginSending, after]

theorem startFileDownload_after (moduleName path : Bytes)
    : (w.after past).startFileDownload env moduleName path
        =
      resultAfter past (w.startFileDownload env moduleName path) := by
  unfold startFileDownload
  simp only [nameTransfer_after, transferTarget_after, openDownloadFile_after, fs_after, beginSending_after]
  split
  . rfl
  . split <;> rfl

theorem nextChunk_after : (w.after past).nextChunk = w.nextChunk := rfl

theorem afterChunk_after (k : Nat) : (w.after past).afterChunk k = (w.afterChunk k).after past := by
  unfold afterChunk
  rw [nextChunk_after]
  simp [after]

theorem sendChunk_after : (w.after past).sendChunk env = resultAfter past (w.sendChunk env) := by
  unfold sendChunk
  simp only [nextChunk_after, endFileTransfer_after, session_after, afterChunk_after, log_after,
    writeResponse_after]
  split
  . rfl
  . split
    . rfl
    . split <;> rfl

theorem withSession_after (session : Session)
    : ({ w.after past with session } : World) = World.after past { w with session } := rfl

theorem withFs_after (fs : FileSystem)
    : ({ w.after past with fs } : World) = World.after past { w with fs } := rfl

theorem finishUpload_after : (w.after past).finishUpload = w.finishUpload := rfl

theorem receiveChunk_after : (w.after past).receiveChunk env = resultAfter past (w.receiveChunk env) := by
  unfold receiveChunk
  dsimp only
  rw [session_after, withSession_after, endFileTransfer_after, finishUpload_after]
  split
  . rfl
  . split
    . rfl
    . rw [withFs_after, writeResponse_after]
      rfl
  . rfl

theorem continueFileTransfer_after
    : (w.after past).continueFileTransfer env = resultAfter past (w.continueFileTransfer env) := by
  unfold continueFileTransfer
  simp only [session_after, sendChunk_after, receiveChunk_after]
  split <;> rfl

theorem acceptUser_after (user : Bytes) : (w.after past).acceptUser user = (w.acceptUser user).after past := by
  simp [acceptUser, after]

variable (message : ProtocolMessage)

theorem handlePublicKey_after
    : (w.after past).handlePublicKey env message = resultAfter past (w.handlePublicKey env message) := by
  unfold handlePublicKey
  simp only [session_after, acceptUser_after]
  split
  . rfl
  . split
    . rfl
    . split
      . rfl
      . split <;> rfl

theorem handlePassword_after
    : (w.after past).handlePassword env message = resultAfter past (w.handlePassword env message) := by
  unfold handlePassword
  simp only [session_after, acceptUser_after]
  split
  . rfl
  . split
    . rfl
    . split <;> rfl

theorem handleAuthMessage_after
    : (w.after past).handleAuthMessage env message = resultAfter past (w.handleAuthMessage env message) := by
  unfold handleAuthMessage
  rw [session_after, handlePublicKey_after, handlePassword_after]
  split
  . rfl
  . split
    . rfl
    . split
      . rfl
      . split <;> rfl

theorem setModule_after : (w.after past).setModule message = (w.setModule message).after past := by
  unfold setModule
  split <;> rfl

theorem handleProtocolMessage_after
    : (w.after past).handleProtocolMessage env message = resultAfter past (w.handleProtocolMessage env message) := by
  unfold handleProtocolMessage
  dsimp only
  rw [log_after, setModule_after, session_after, handleAuthMessage_after, fs_after]
  split
  . rfl
  . split
    . rfl
    . generalize (w.log [.received message]).setModule message = w'
      exact congrArg (Prod.mk _)
        (log_after past { w' with fs := (w'.session.handler.handle env.host message w'.fs).2 } [.handled message])

theorem announceUpload_after (response : Bytes)
    : (w.after past).announceUpload env response = resultAfter past (w.announceUpload env response) := by
  unfold announceUpload
  rw [writeResponse_after]
  rcases w.writeResponse (env.send 0) response with ⟨_ | _, w'⟩
  . exact respond_after past w' (env.send 1) response
  . rfl

theorem finishRequest_after (response : Bytes)
    : (w.after past).finishRequest env message response = resultAfter past (w.finishRequest env message response) := by
  unfold finishRequest
  rw [startFileDownload_after, startFileUpload_after, respond_after]
  split
  . rcases w.startFileDownload env message.module message.path with ⟨_ | _ | _, w'⟩
    . rfl
    . exact respond_after past w' (env.send 0) response
    . exact continueFileTransfer_after past env w'
  . split
    . rcases w.startFileUpload env message.module message.path with ⟨_ | _ | _, w'⟩
      . rfl
      . exact respond_after past w' (env.send 0) response
      . exact announceUpload_after past env w' response
    . rfl

theorem processMessage_after (request : Bytes)
    : (w.after past).processMessage env request = resultAfter past (w.processMessage env request) := by
  unfold processMessage
  dsimp only
  rw [respond_after, handleProtocolMessage_after]
  split
  . rfl
  . rcases w.handleProtocolMessage env (ProtocolParser.parse request) with ⟨_ | response, w'⟩
    . rfl
    . exact finishRequest_after past env w' (ProtocolParser.parse request) response

theorem processRequest_after : (w.after past).processRequest env = resultAfter past (w.processRequest env) := by
  unfold processRequest
  dsimp only
  rw [session_after, continueFileTransfer_after, withSession_after]
  split
  . rfl
  . split
    . rfl
    . split
      . rfl
      . rfl
      . next request _ _ =>
        exact processMessage_after past env
          { w with session := (w.session.readSocket env.recv requestSize).2 } request

theorem serve_after : (w.after past).serve env = (w.serve env).after past := by
  unfold serve
  rw [session_after, processRequest_after]
  split
  . rcases w.processRequest env with ⟨_ | _ | _, w'⟩
    . exact close_after past w'
    . exact close_after past w'
    . rfl
  . rfl

end World
end SimpleRsyncd
