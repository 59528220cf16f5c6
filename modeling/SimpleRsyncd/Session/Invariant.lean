import SimpleRsyncd.Session.Lemmas

/-!
This module contains what every state of a session satisfies: which files are open in which transfer
state, that an active session has a socket, and that the current module is a single word.
-/

namespace SimpleRsyncd

/--
The open files and the counters fit the transfer state.
-/
def Session.Consistent (s : Session) : Prop :=
  match s.transferState with
  | .idle =>
    s.uploadFile = none ∧ s.downloadFile = none
      ∧ s.transferBytesRemaining = 0 ∧ s.transferBytesSent = 0
  | .receivingFile => s.uploadFile.isSome = true ∧ s.downloadFile = none
  | .sendingFile => s.uploadFile = none ∧ s.downloadFile.isSome = true

namespace World

variable {w w' : World} {env : Env}

theorem consistent_of_rests (h : w.session.Consistent) (hrests : Rests w w')
    : w'.session.Consistent := by
  simpa only [Session.Consistent, hrests.transferState, hrests.uploadFile, hrests.downloadFile,
    hrests.transferBytesRemaining, hrests.transferBytesSent] using h

theorem consistent_endFileTransfer : w.endFileTransfer.session.Consistent :=
  ⟨rfl, rfl, rfl, rfl⟩

theorem consistent_writeResponse (h : w.session.Consistent) (send : Nat → Option Nat) (response : Bytes)
    : (w.writeResponse send response).2.session.Consistent :=
  consistent_of_rests h (w.rests_writeResponse send response)

theorem consistent_sendChunk (h : w.session.Consistent) (hsending : w.session.transferState = .sendingFile)
    : (w.sendChunk env).2.session.Consistent := by
  have hopen : w.session.uploadFile = none ∧ w.session.downloadFile.isSome = true := by
    simpa [Session.Consistent, hsending] using h
  unfold sendChunk
  split
  . exact consistent_endFileTransfer
  . split
    . exact consistent_endFileTransfer
    . dsimp only
      split
      . apply consistent_writeResponse
        exact (w.afterChunk _).consistent_endFileTransfer
      . simpa [Session.Consistent, afterChunk, hsending] using hopen

theorem consistent_receiveChunk (h : w.session.Consistent)
    (hreceiving : w.session.transferState = .receivingFile)
    : (w.receiveChunk env).2.session.Consistent := by
  have hopen : w.session.uploadFile.isSome = true ∧ w.session.downloadFile = none := by
    simpa [Session.Consistent, hreceiving] using h
  obtain ⟨ssl, hssl⟩ := readSocket_frame w.session env.recv chunkSize
  unfold receiveChunk
  dsimp only
  split
  . exact consistent_endFileTransfer
  . split
    . exact consistent_endFileTransfer
    . apply consistent_writeResponse
      exact consistent_endFileTransfer (w := { w with session := _ })
  . rw [hssl]
    simpa [Session.Consistent, storeChunk, hreceiving] using hopen

theorem consistent_continueFileTransfer (h : w.session.Consistent)
    : (w.continueFileTransfer env).2.session.Consistent := by
  unfold continueFileTransfer
  split
  . next hsending => exact consistent_sendChunk h hsending
  . next hreceiving => exact consistent_receiveChunk h hreceiving
  . exact h

theorem consistent_startFileDownload (h : w.session.Consistent) (hidle : w.session.transferState = .idle)
    {moduleName path : Bytes} (hstart : w.startFileDownload env moduleName path = (.ok true, w'))
    : w'.session.Consistent := by
  have hclosed : w.session.uploadFile = none := by
    simp only [Session.Consistent, hidle] at h
    exact h.1
  rcases w.startFileDownload_cases env moduleName path with ⟨_, _, _, -, -, heq⟩ | ⟨hne, -⟩
  . rw [hstart] at heq
    obtain rfl := (Prod.mk.inj heq).2
    exact ⟨hclosed, rfl⟩
  . simp [hstart] at hne

theorem consistent_startFileUpload (h : w.session.Consistent) (hidle : w.session.transferState = .idle)
    {moduleName path : Bytes} (hstart : w.startFileUpload env moduleName path = (.ok true, w'))
    : w'.session.Consistent ∧ w'.session.transferState = .receivingFile := by
  have hclosed : w.session.downloadFile = none := by
    simp only [Session.Consistent, hidle] at h
    exact h.2.1
  rcases w.startFileUpload_cases env moduleName path with ⟨_, _, _, _, -, -, hsome, heq⟩ | ⟨hne, -⟩
  . rw [hstart] at heq
    obtain rfl := (Prod.mk.inj heq).2
    exact ⟨⟨hsome, hclosed⟩, rfl⟩
  . simp [hstart] at hne

theorem consistent_announceUpload (h : w.session.Consistent)
    (hreceiving : w.session.transferState = .receivingFile) (response : Bytes)
    : (w.announceUpload env response).2.session.Consistent := by
  have hrests := w.rests_writeResponse (env.send 0) response
  unfold announceUpload
  split
  . next w' heq =>
    rw [heq] at hrests
    have hstate : w'.session.transferState = .receivingFile := hrests.transferState.trans hreceiving
    have hconsistent := consistent_of_rests h hrests
    simp only [Session.Consistent, hstate] at hconsistent ⊢
    exact hconsistent
  . next w' heq =>
    rw [heq] at hrests
    exact consistent_writeResponse (consistent_of_rests h hrests) _ _

theorem consistent_finishRequest (h : w.session.Consistent) (hidle : w.session.transferState = .idle)
    (message : ProtocolMessage) (response : Bytes)
    : (w.finishRequest env message response).2.session.Consistent := by
  have hcases := w.finishRequest_cases env message response
  generalize w.finishRequest env message response = result at hcases ⊢
  cases hcases with
  | throws hattempted => exact consistent_of_rests h hattempted.rests
  | responds hattempted =>
    exact consistent_writeResponse (consistent_of_rests h hattempted.rests) _ _
  | downloads _ hstart =>
    exact consistent_continueFileTransfer (consistent_startFileDownload h hidle hstart)
  | uploads _ hstart =>
    obtain ⟨hconsistent, hreceiving⟩ := consistent_startFileUpload h hidle hstart
    exact consistent_announceUpload hconsistent hreceiving response

theorem consistent_processMessage (h : w.session.Consistent) (hidle : w.session.transferState = .idle)
    (request : Bytes)
    : (w.processMessage env request).2.session.Consistent := by
  have hrests := w.rests_handleProtocolMessage env (ProtocolParser.parse request)
  unfold processMessage
  dsimp only
  split
  . exact consistent_writeResponse h _ _
  . split
    . next heq =>
      rw [heq] at hrests
      exact consistent_of_rests h hrests
    . next heq =>
      rw [heq] at hrests
      exact consistent_finishRequest (consistent_of_rests h hrests)
        (hrests.transferState.trans hidle) _ _

theorem consistent_processRequest (h : w.session.Consistent)
    : (w.processRequest env).2.session.Consistent := by
  unfold processRequest
  split
  . exact h
  . split
    . exact consistent_continueFileTransfer h
    . next hidle =>
      simp only [ne_eq, Decidable.not_not] at hidle
      obtain ⟨ssl, hssl⟩ := readSocket_frame w.session env.recv requestSize
      have hread : Session.Consistent { w.session with sslConnection := ssl } := h
      dsimp only
      rw [hssl]
      split
      . exact h
      . exact h
      . exact consistent_processMessage (w := { w with session := _ }) hread hidle _

theorem handler_handleProtocolMessage (env : Env) (w : World) (message : ProtocolMessage)
    : (w.handleProtocolMessage env message).2.session.handler
        =
      w.session.handler.setModule (w.session.handler.moduleName message.module) := by
  have hset : ((w.log [.received message]).setModule message).session.handler
      = w.session.handler.setModule (w.session.handler.moduleName message.module) := by
    unfold setModule ProtocolHandler.moduleName
    split <;> rfl
  unfold handleProtocolMessage
  generalize (w.log [.received message]).setModule message = w' at hset ⊢
  dsimp only
  split
  . exact hset
  . split
    . rcases w'.handleAuthMessage_cases env message with ⟨user, h⟩ | h
      . rw [h]
        exact hset
      . rw [h]
        exact hset
    . exact hset

/--
The name of the current module is empty or a single word of some request.
-/
def HasWord (w : World) : Prop :=
  ∀ c ∈ w.session.handler.currentModule, Bytes.isspace c = false

theorem hasWord_processMessage (h : w.HasWord) (request : Bytes)
    : (w.processMessage env request).2.HasWord := by
  cases hvalid : (ProtocolParser.parse request).valid with
  | true =>
    rw [HasWord, (w.quiet_processMessage env hvalid).handler, handler_handleProtocolMessage,
      ProtocolHandler.setModule, ProtocolHandler.moduleName]
    dsimp only
    split
    . exact h
    . exact (ProtocolParser.parse_no_space request).1
  | false =>
    obtain ⟨response, hrespond⟩ := w.processMessage_of_not_valid env hvalid
    rw [hrespond, HasWord, (w.quiet_respond _ _).handler]
    exact h

theorem hasWord_processRequest (h : w.HasWord) : (w.processRequest env).2.HasWord := by
  unfold processRequest
  split
  . exact h
  . split
    . rw [HasWord, (w.quiet_continueFileTransfer env).handler]
      exact h
    . obtain ⟨ssl, hssl⟩ := readSocket_frame w.session env.recv requestSize
      dsimp only
      rw [hssl]
      split
      . exact h
      . exact h
      . exact hasWord_processMessage (w := { w with session := { w.session with sslConnection := ssl } }) h _

/--
What holds in every state of every run.
-/
structure Orderly (w : World) : Prop where
  consistent : w.session.Consistent
  connected : w.session.active = true → 0 ≤ w.session.clientSocket
  word : w.HasWord

theorem Orderly.processRequest (h : w.Orderly) (env : Env) : (w.processRequest env).2.Orderly where
  consistent := consistent_processRequest h.consistent
  connected := by
    rw [clientSocket_processRequest]
    cases hactive : w.session.active with
    | true => exact fun _ => h.connected hactive
    | false => simp [World.processRequest, hactive]
  word := hasWord_processRequest h.word

theorem Orderly.close (h : w.Orderly) : w.close.Orderly := by
  unfold World.close
  split
  . exact ⟨h.consistent, by simp, h.word⟩
  . split
    . exact ⟨h.consistent, by simp, h.word⟩
    . exact h

theorem Orderly.of_fresh (h : w.Fresh) : w.Orderly where
  consistent := by
    simp [Session.Consistent, h.idle, h.noUpload, h.noDownload, h.noRemaining, h.noSent]
  connected := fun _ => h.socket
  word := by
    rw [HasWord, h.noModule]
    simp

theorem Orderly.of_run {w w' : World} {actions : List Action} (h : w.Fresh)
    (hrun : step.Run w actions w')
    : w'.Orderly := by
  refine hrun.invariant (.of_fresh h) ?_
  intro s action s' h hstep
  cases hstep
  cases action with
  | request env => exact h.processRequest env
  | close => exact h.close

end World
end SimpleRsyncd
