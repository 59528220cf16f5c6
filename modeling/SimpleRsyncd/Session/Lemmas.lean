import SimpleRsyncd.Session.Process

/-!
This module contains what the functions of a session leave alone: only `handleProtocolMessage`
changes the user and the current module, and only it receives, handles and accepts messages.
-/

namespace SimpleRsyncd

/--
Events of file transfers and of the socket, none of them is about a message.
-/
def Event.isTransfer : Event → Bool
  | .received _ | .handled _ | .accepted _ => false
  | _ => true

namespace World

open ProtocolParser

/--
`w'` comes from `w` by steps that have nothing to do with messages, and the session stays open.
-/
structure Quiet (w w' : World) : Prop where
  active : w'.session.active = w.session.active
  clientSocket : w'.session.clientSocket = w.session.clientSocket
  config : w'.session.config = w.session.config
  user : w'.session.authenticatedUser = w.session.authenticatedUser
  handler : w'.session.handler = w.session.handler
  trace : ∃ events, w'.trace = w.trace ++ events ∧ ∀ e ∈ events, e.isTransfer = true

namespace Quiet

theorem refl (w : World) : Quiet w w := ⟨rfl, rfl, rfl, rfl, rfl, [], by simp, by simp⟩

theorem trans {w w' w'' : World} (h : Quiet w w') (h' : Quiet w' w'') : Quiet w w'' := by
  obtain ⟨events, htrace, hevents⟩ := h.trace
  obtain ⟨events', htrace', hevents'⟩ := h'.trace
  refine ⟨h'.active.trans h.active, h'.clientSocket.trans h.clientSocket, h'.config.trans h.config,
    h'.user.trans h.user, h'.handler.trans h.handler, events ++ events', ?_, ?_⟩
  . rw [htrace', htrace, List.append_assoc]
  . intro e he
    cases List.mem_append.mp he with
    | inl he => exact hevents e he
    | inr he => exact hevents' e he

end Quiet

variable (env : Env) (w : World)

theorem writeResponse_cases (send : Nat → Option Nat) (response : Bytes)
    : w.writeResponse send response = (false, w)
        ∨ ∃ k, w.session.writeSocket send response = some (k + 1)
          ∧ w.writeResponse send response = (true, w.log [.response response (k + 1)]) := by
  unfold writeResponse
  split
  . split
    . next k hk => exact .inr ⟨k, hk, rfl⟩
    . exact .inl rfl
  . exact .inl rfl

theorem fs_writeResponse (send : Nat → Option Nat) (response : Bytes)
    : (w.writeResponse send response).2.fs = w.fs := by
  rcases w.writeResponse_cases send response with h | ⟨k, -, h⟩ <;> rw [h]
  rfl

theorem quiet_log {events : List Event} (h : ∀ e ∈ events, e.isTransfer = true)
    : Quiet w (w.log events) :=
  ⟨rfl, rfl, rfl, rfl, rfl, events, rfl, h⟩

theorem quiet_endFileTransfer : Quiet w w.endFileTransfer :=
  ⟨rfl, rfl, rfl, rfl, rfl, [], by simp [endFileTransfer], by simp⟩

theorem quiet_writeResponse (send : Nat → Option Nat) (response : Bytes)
    : Quiet w (w.writeResponse send response).2 := by
  rcases w.writeResponse_cases send response with h | ⟨k, -, h⟩
  . rw [h]
    exact .refl w
  . rw [h]
    exact w.quiet_log (by simp [Event.isTransfer])

theorem quiet_respond (send : Nat → Option Nat) (response : Bytes)
    : Quiet w (w.respond send response).2 :=
  w.quiet_writeResponse send response

theorem quiet_nameTransfer (moduleName path : Bytes) : Quiet w (w.nameTransfer moduleName path) :=
  ⟨rfl, rfl, rfl, rfl, rfl, [], by simp [nameTransfer], by simp⟩

theorem quiet_beginReceiving : Quiet w w.beginReceiving :=
  ⟨rfl, rfl, rfl, rfl, rfl, [.receiving], rfl, by simp [Event.isTransfer]⟩

theorem quiet_setUploadFile (fs : FileSystem) (made : List Loc) (opened : Option Loc)
    : Quiet w (w.setUploadFile fs made opened) := by
  refine ⟨rfl, rfl, rfl, rfl, rfl, made.map .made ++ opened.toList.map .opened, ?_, ?_⟩
  . simp [setUploadFile]
  . simp only [List.mem_append, List.mem_map]
    rintro e (⟨l, -, rfl⟩ | ⟨l, -, rfl⟩) <;> rfl

theorem quiet_startFileUpload (moduleName path : Bytes)
    : Quiet w (w.startFileUpload env moduleName path).2 := by
  have hname := w.quiet_nameTransfer moduleName path
  unfold startFileUpload
  dsimp only
  split
  . exact hname
  . split
    . exact hname
    . next fs made opened _ =>
      have hset := hname.trans (quiet_setUploadFile _ fs made opened)
      split
      . exact hset.trans (quiet_beginReceiving _)
      . exact hset

theorem quiet_beginSending (content : Bytes) (size : Nat) : Quiet w (w.beginSending content size) :=
  ⟨rfl, rfl, rfl, rfl, rfl, [.sending content size], rfl, by simp [Event.isTransfer]⟩

theorem quiet_startFileDownload (moduleName path : Bytes)
    : Quiet w (w.startFileDownload env moduleName path).2 := by
  have hname := w.quiet_nameTransfer moduleName path
  unfold startFileDownload
  dsimp only
  repeat' split
  all_goals first | exact hname | exact hname.trans (quiet_beginSending _ _ _)

theorem quiet_afterChunk (k : Nat) : Quiet w (w.afterChunk k) :=
  ⟨rfl, rfl, rfl, rfl, rfl, [.data w.nextChunk k], rfl, by simp [Event.isTransfer]⟩

theorem quiet_sendChunk : Quiet w (w.sendChunk env).2 := by
  unfold sendChunk
  split
  . exact w.quiet_endFileTransfer
  . split
    . exact w.quiet_endFileTransfer
    . next k _ =>
      have hchunk := w.quiet_afterChunk k
      dsimp only
      split
      . have hdone := hchunk.trans (quiet_endFileTransfer (w.afterChunk k))
        have hcompleted : ∀ e ∈ [Event.completed], e.isTransfer = true := by simp [Event.isTransfer]
        exact (hdone.trans (quiet_log _ hcompleted)).trans (quiet_writeResponse _ _ _)
      . exact hchunk

theorem readSocket_frame (s : Session) (recv : Option Bytes) (length : Nat)
    : ∃ ssl, (s.readSocket recv length).2 = { s with sslConnection := ssl } := by
  unfold Session.readSocket
  split
  . split
    . exact ⟨_, rfl⟩
    . exact ⟨s.sslConnection, rfl⟩
  . split
    . exact ⟨s.sslConnection, rfl⟩
    . exact ⟨s.sslConnection, rfl⟩

theorem quiet_readSocket (recv : Option Bytes) (length : Nat)
    : Quiet w { w with session := (w.session.readSocket recv length).2 } := by
  obtain ⟨ssl, hssl⟩ := readSocket_frame w.session recv length
  rw [hssl]
  exact ⟨rfl, rfl, rfl, rfl, rfl, [], by simp, by simp⟩

theorem quiet_setFs (fs : FileSystem) : Quiet w { w with fs } :=
  ⟨rfl, rfl, rfl, rfl, rfl, [], by simp, by simp⟩

theorem quiet_storeChunk (chunk : Bytes) : Quiet w (w.storeChunk chunk) :=
  ⟨rfl, rfl, rfl, rfl, rfl, [], by simp [storeChunk], by simp⟩

theorem quiet_receiveChunk : Quiet w (w.receiveChunk env).2 := by
  have hread := w.quiet_readSocket env.recv chunkSize
  unfold receiveChunk
  dsimp only
  split
  . exact hread.trans (quiet_endFileTransfer _)
  . have hend := hread.trans (quiet_endFileTransfer _)
    split
    . exact hend
    . exact (hend.trans (quiet_setFs _ _)).trans (quiet_writeResponse _ _ _)
  . exact hread.trans (quiet_storeChunk _ _)

theorem quiet_continueFileTransfer : Quiet w (w.continueFileTransfer env).2 := by
  unfold continueFileTransfer
  split
  . exact w.quiet_sendChunk env
  . exact w.quiet_receiveChunk env
  . exact .refl w

/--
`w'` is as ready for the next request as `w`.
-/
structure Rests (w w' : World) : Prop where
  active : w'.session.active = w.session.active
  clientSocket : w'.session.clientSocket = w.session.clientSocket
  sslConnection : w'.session.sslConnection = w.session.sslConnection
  transferState : w'.session.transferState = w.session.transferState
  uploadFile : w'.session.uploadFile = w.session.uploadFile
  downloadFile : w'.session.downloadFile = w.session.downloadFile
  transferBytesRemaining : w'.session.transferBytesRemaining = w.session.transferBytesRemaining
  transferBytesSent : w'.session.transferBytesSent = w.session.transferBytesSent

namespace Rests

theorem refl (w : World) : Rests w w := ⟨rfl, rfl, rfl, rfl, rfl, rfl, rfl, rfl⟩

theorem trans {w w' w'' : World} (h : Rests w w') (h' : Rests w' w'') : Rests w w'' where
  active := h'.active.trans h.active
  clientSocket := h'.clientSocket.trans h.clientSocket
  sslConnection := h'.sslConnection.trans h.sslConnection
  transferState := h'.transferState.trans h.transferState
  uploadFile := h'.uploadFile.trans h.uploadFile
  downloadFile := h'.downloadFile.trans h.downloadFile
  transferBytesRemaining := h'.transferBytesRemaining.trans h.transferBytesRemaining
  transferBytesSent := h'.transferBytesSent.trans h.transferBytesSent

end Rests

theorem rests_writeResponse (send : Nat → Option Nat) (response : Bytes)
    : Rests w (w.writeResponse send response).2 := by
  rcases w.writeResponse_cases send response with h | ⟨k, -, h⟩
  . rw [h]
    exact .refl w
  . rw [h]
    exact ⟨rfl, rfl, rfl, rfl, rfl, rfl, rfl, rfl⟩

theorem rests_respond (send : Nat → Option Nat) (response : Bytes)
    : Rests w (w.respond send response).2 :=
  w.rests_writeResponse send response

/--
A session that is waiting for the next request of its client.
-/
structure Waiting (w : World) : Prop where
  active : w.session.active = true
  idle : w.session.transferState = .idle
  readable : w.session.isSecure = true ∨ 0 ≤ w.session.clientSocket

theorem Waiting.of_rests {w w' : World} (h : w.Waiting) (hrests : Rests w w') : w'.Waiting where
  active := hrests.active.trans h.active
  idle := hrests.transferState.trans h.idle
  readable := by
    rw [Session.isSecure, hrests.sslConnection, hrests.clientSocket]
    exact h.readable

theorem Waiting.of_fresh {w : World} (h : w.Fresh) : w.Waiting where
  active := h.active
  idle := h.idle
  readable := .inr h.socket

theorem Waiting.readSocket {w : World} (h : w.Waiting) {segment : Bytes} (hne : segment ≠ [])
    (hlength : segment.length ≤ requestSize)
    : w.session.readSocket (some segment) requestSize = (some segment, w.session) := by
  have htake : segment.take requestSize = segment := List.take_of_length_le hlength
  unfold Session.readSocket
  split
  . simp [hne, htake]
  . next hsecure =>
    have hsocket : ¬w.session.clientSocket < 0 := by
      have := h.readable
      simp_all
    simp [hsocket, htake]

theorem rests_setModule (message : ProtocolMessage) : Rests w (w.setModule message) := by
  unfold setModule
  split
  . exact .refl w
  . exact ⟨rfl, rfl, rfl, rfl, rfl, rfl, rfl, rfl⟩

theorem quiet_announceUpload (response : Bytes) : Quiet w (w.announceUpload env response).2 := by
  have hwrite := w.quiet_writeResponse (env.send 0) response
  unfold announceUpload
  split
  . next w' h =>
    rw [h] at hwrite
    exact hwrite.trans ⟨rfl, rfl, rfl, rfl, rfl, [], by simp, by simp⟩
  . next w' h =>
    rw [h] at hwrite
    exact hwrite.trans (w'.quiet_respond _ _)

/--
A transfer was asked for but did not start: at most directories have been created.
-/
structure Attempted (w w' : World) : Prop where
  session : ∃ moduleName path,
    w'.session = { w.session with transferModule := moduleName, transferPath := path }
  trace : ∃ made : List Loc, w'.trace = w.trace ++ made.map .made

theorem attempted_refl : Attempted w w where
  session := ⟨w.session.transferModule, w.session.transferPath, rfl⟩
  trace := ⟨[], by simp⟩

theorem attempted_nameTransfer (moduleName path : Bytes)
    : Attempted w (w.nameTransfer moduleName path) where
  session := ⟨moduleName, path, rfl⟩
  trace := ⟨[], by simp [nameTransfer]⟩

theorem Attempted.quiet {w w' : World} (h : Attempted w w') : Quiet w w' := by
  obtain ⟨⟨moduleName, path, hsession⟩, made, htrace⟩ := h
  refine ⟨by rw [hsession], by rw [hsession], by rw [hsession], by rw [hsession], by rw [hsession],
    made.map .made, htrace, ?_⟩
  simp [Event.isTransfer]

theorem Attempted.rests {w w' : World} (h : Attempted w w') : Rests w w' := by
  obtain ⟨⟨moduleName, path, hsession⟩, -⟩ := h
  constructor <;> rw [hsession]

/--
Either the download starts with what `openFile` found, or it was only attempted.
-/
theorem startFileDownload_cases (moduleName path : Bytes)
    : (∃ m content size, w.transferTarget moduleName = some m
        ∧ m.openFile env.host (w.openDownloadFile env) w.fs path = .ok (some (content, size))
        ∧ w.startFileDownload env moduleName path
          =
        (.ok true, (w.nameTransfer moduleName path).beginSending content size))
      ∨
      (w.startFileDownload env moduleName path).1 ≠ .ok true
        ∧ Attempted w (w.startFileDownload env moduleName path).2 := by
  have hname := w.attempted_nameTransfer moduleName path
  unfold startFileDownload
  dsimp only
  split
  . exact .inr ⟨by simp, hname⟩
  . next m htarget =>
    split
    . exact .inr ⟨by simp, hname⟩
    . exact .inr ⟨by simp, hname⟩
    . next content size hopen => exact .inl ⟨m, content, size, htarget, hopen, rfl⟩

theorem startFileUpload_of_target {moduleName path : Bytes} {m : Module}
    (h : w.transferTarget moduleName = some m)
    : w.startFileUpload env moduleName path
        =
      match m.openTemp (env.openUpload && w.session.uploadFile.isNone) w.fs path with
      | .error e => (.error e, w.nameTransfer moduleName path)
      | .ok (fs, made, opened) =>
        let w' := (w.nameTransfer moduleName path).setUploadFile fs made opened
        if w'.session.uploadFile.isSome then (.ok true, w'.beginReceiving) else (.ok false, w') := by
  have htarget : (w.nameTransfer moduleName path).transferTarget moduleName = some m := h
  simp only [startFileUpload, htarget]
  rfl

/--
Either the upload starts with the file that `openTemp` opened, or it was only attempted.
-/
theorem startFileUpload_cases (moduleName path : Bytes)
    : (∃ m fs made opened, w.transferTarget moduleName = some m
        ∧ m.openTemp (env.openUpload && w.session.uploadFile.isNone) w.fs path
          =
        .ok (fs, made, opened)
        ∧ (opened.or w.session.uploadFile).isSome = true
        ∧ w.startFileUpload env moduleName path
          =
        (
          .ok true,
          ((w.nameTransfer moduleName path).setUploadFile fs made opened).beginReceiving
        ))
      ∨
      (w.startFileUpload env moduleName path).1 ≠ .ok true
        ∧ Attempted w (w.startFileUpload env moduleName path).2 := by
  have hname := w.attempted_nameTransfer moduleName path
  unfold startFileUpload
  dsimp only
  split
  . exact .inr ⟨by simp, hname⟩
  . next m htarget =>
    split
    . exact .inr ⟨by simp, hname⟩
    . next fs made opened hopen =>
      split
      . next hsome => exact .inl ⟨m, fs, made, opened, htarget, hopen, hsome, rfl⟩
      . next hsome =>
        refine .inr ⟨by simp, ⟨moduleName, path, ?_⟩, made, ?_⟩
        . simp only [setUploadFile, nameTransfer, Option.not_isSome_iff_eq_none] at hsome ⊢
          rw [Option.or_eq_none_iff] at hsome
          simp [hsome.1, hsome.2]
        . simp only [setUploadFile, nameTransfer, Option.not_isSome_iff_eq_none] at hsome ⊢
          rw [Option.or_eq_none_iff] at hsome
          simp [hsome.1]

/--
The ways a request can end after its message was handled.
-/
inductive Finishes (env : Env) (w : World) (message : ProtocolMessage) (response : Bytes)
    : Except Errno Bool × World → Prop where
  | throws {e : Errno} {w' : World} : Attempted w w' → Finishes env w message response (.error e, w')
  | responds {w' : World} : Attempted w w'
    → Finishes env w message response (w'.respond (env.send 0) response)
  | downloads {w' : World} : Bytes.contains response readyForTransfer && message.command = .get
    → w.startFileDownload env message.module message.path = (.ok true, w')
    → Finishes env w message response (w'.continueFileTransfer env)
  | uploads {w' : World} : Bytes.contains response readyToReceive && message.command = .put
    → w.startFileUpload env message.module message.path = (.ok true, w')
    → Finishes env w message response (w'.announceUpload env response)

theorem finishRequest_cases (message : ProtocolMessage) (response : Bytes)
    : Finishes env w message response (w.finishRequest env message response) := by
  unfold finishRequest
  split
  . next hget =>
    rcases w.startFileDownload_cases env message.module message.path with
      ⟨_, _, _, -, -, heq⟩ | ⟨hne, hattempted⟩
    . rw [heq]
      exact .downloads hget heq
    . split
      . next heq =>
        rw [heq] at hattempted
        exact .throws hattempted
      . next heq => simp [heq] at hne
      . next heq =>
        rw [heq] at hattempted
        exact .responds hattempted
  . split
    . next hput =>
      rcases w.startFileUpload_cases env message.module message.path with
        ⟨_, _, _, _, -, -, -, heq⟩ | ⟨hne, hattempted⟩
      . rw [heq]
        exact .uploads hput heq
      . split
        . next heq =>
          rw [heq] at hattempted
          exact .throws hattempted
        . next heq => simp [heq] at hne
        . next heq =>
          rw [heq] at hattempted
          exact .responds hattempted
    . exact .responds w.attempted_refl

theorem quiet_finishRequest (message : ProtocolMessage) (response : Bytes)
    : Quiet w (w.finishRequest env message response).2 := by
  have hcases := w.finishRequest_cases env message response
  generalize w.finishRequest env message response = result at hcases ⊢
  cases hcases with
  | throws h => exact h.quiet
  | responds h => exact h.quiet.trans (quiet_respond _ _ _)
  | downloads _ h =>
    have hstart := w.quiet_startFileDownload env message.module message.path
    rw [h] at hstart
    exact hstart.trans (quiet_continueFileTransfer _ _)
  | uploads _ h =>
    have hstart := w.quiet_startFileUpload env message.module message.path
    rw [h] at hstart
    exact hstart.trans (quiet_announceUpload _ _ _)

theorem processRequest_of_read {s : Session} {request : Bytes} (hactive : w.session.active = true)
    (hidle : w.session.transferState = .idle)
    (hread : w.session.readSocket env.recv requestSize = (some request, s)) (hne : request ≠ [])
    : w.processRequest env = { w with session := s }.processMessage env request := by
  unfold processRequest
  simp only [hactive, hidle, hread, Bool.not_true, Bool.false_eq_true, ↓reduceIte, ne_eq,
    not_true_eq_false]

theorem quiet_processMessage {request : Bytes} (h : (parse request).valid = true)
    : Quiet (w.handleProtocolMessage env (parse request)).2 (w.processMessage env request).2 := by
  unfold processMessage
  simp only [h, Bool.not_true, Bool.false_eq_true, ↓reduceIte]
  split
  . next heq =>
    rw [heq]
    exact .refl _
  . next heq =>
    rw [heq]
    apply quiet_finishRequest

theorem processMessage_of_not_valid {request : Bytes} (h : (parse request).valid = false)
    : ∃ response, w.processMessage env request = w.respond (env.send 0) response := by
  unfold processMessage
  simp only [h, Bool.not_false, ↓reduceIte]
  exact ⟨_, rfl⟩

theorem trace_setModule (message : ProtocolMessage) : (w.setModule message).trace = w.trace := by
  unfold setModule
  split <;> rfl

theorem handleAuthMessage_cases (message : ProtocolMessage)
    : (∃ user, (w.handleAuthMessage env message).2
        = { w with session := { w.session with authenticatedUser := user } })
        ∨ (w.handleAuthMessage env message).2 = w.acceptUser message.module := by
  unfold handleAuthMessage handleAuthMessage.disabled handlePublicKey handlePassword
  repeat' split
  all_goals first
    | exact .inr rfl
    | exact .inl ⟨_, rfl⟩

/--
A message is received once, and then either handled or answered by the session itself.
-/
theorem trace_handleProtocolMessage (message : ProtocolMessage)
    : ∃ events, (w.handleProtocolMessage env message).2.trace = w.trace ++ .received message :: events
        ∧ ∀ e ∈ events, e = .handled message ∨ e = .accepted message.module := by
  have hset : ((w.log [.received message]).setModule message).trace = w.trace ++ [.received message] :=
    trace_setModule _ message
  unfold handleProtocolMessage
  generalize (w.log [.received message]).setModule message = w' at hset ⊢
  dsimp only
  split
  . exact ⟨[], by simp [hset], by simp⟩
  . split
    . rcases w'.handleAuthMessage_cases env message with ⟨user, h⟩ | h
      . exact ⟨[], by simp [h, hset], by simp⟩
      . exact ⟨[.accepted message.module], by simp [h, acceptUser, hset], by simp⟩
    . exact ⟨[.handled message], by simp [log, hset], by simp⟩

/--
A message that passes the gate is handled at once.
-/
theorem trace_handleProtocolMessage_of_not_awaitsKey {message : ProtocolMessage}
    (h : ((w.log [.received message]).setModule message).session.awaitsKey = false)
    (hauth : message.command ≠ .auth)
    : (w.handleProtocolMessage env message).2.trace
        =
      w.trace ++ [.received message, .handled message] := by
  have hset : ((w.log [.received message]).setModule message).trace = w.trace ++ [.received message] :=
    trace_setModule _ message
  unfold handleProtocolMessage
  generalize (w.log [.received message]).setModule message = w' at h hset ⊢
  simp [h, hauth, log, hset]

theorem trace_processMessage (request : Bytes)
    : w.trace <+: (w.processMessage env request).2.trace := by
  cases hvalid : (parse request).valid with
  | true =>
    obtain ⟨events, h, -⟩ := w.trace_handleProtocolMessage env (parse request)
    obtain ⟨events', h', -⟩ := (w.quiet_processMessage env hvalid).trace 
    rw [h', h, List.append_assoc]
    apply List.prefix_append
  | false =>
    obtain ⟨response, h⟩ := w.processMessage_of_not_valid env hvalid
    obtain ⟨events, h', -⟩ := (w.quiet_respond (env.send 0) response).trace
    rw [h, h']
    apply List.prefix_append

theorem trace_processRequest : w.trace <+: (w.processRequest env).2.trace := by
  unfold processRequest
  split
  . exact List.prefix_rfl
  . split
    . obtain ⟨events, h, -⟩ := (w.quiet_continueFileTransfer env).trace
      rw [h]
      apply List.prefix_append
    . dsimp only
      split
      . exact List.prefix_rfl
      . exact List.prefix_rfl
      . next request _ _ =>
        exact trace_processMessage env
          { w with session := (w.session.readSocket env.recv requestSize).2 } request

theorem rests_handleProtocolMessage (message : ProtocolMessage)
    : Rests w (w.handleProtocolMessage env message).2 := by
  have hset : Rests w ((w.log [.received message]).setModule message) :=
    (⟨rfl, rfl, rfl, rfl, rfl, rfl, rfl, rfl⟩ : Rests w (w.log [.received message])).trans
      (rests_setModule _ message)
  unfold handleProtocolMessage
  generalize (w.log [.received message]).setModule message = w' at hset ⊢
  dsimp only
  split
  . exact hset
  . split
    . rcases w'.handleAuthMessage_cases env message with ⟨user, h⟩ | h
      . rw [h]
        exact hset.trans ⟨rfl, rfl, rfl, rfl, rfl, rfl, rfl, rfl⟩
      . rw [h]
        exact hset.trans ⟨rfl, rfl, rfl, rfl, rfl, rfl, rfl, rfl⟩
    . exact hset.trans ⟨rfl, rfl, rfl, rfl, rfl, rfl, rfl, rfl⟩

theorem clientSocket_processMessage (request : Bytes)
    : (w.processMessage env request).2.session.clientSocket = w.session.clientSocket := by
  cases hvalid : (parse request).valid with
  | true =>
    rw [(w.quiet_processMessage env hvalid).clientSocket,
      (w.rests_handleProtocolMessage env (parse request)).clientSocket]
  | false =>
    obtain ⟨response, h⟩ := w.processMessage_of_not_valid env hvalid
    rw [h, (w.quiet_respond (env.send 0) response).clientSocket]

/--
Only `close` gives the socket up.
-/
theorem clientSocket_processRequest
    : (w.processRequest env).2.session.clientSocket = w.session.clientSocket := by
  obtain ⟨ssl, hssl⟩ := readSocket_frame w.session env.recv requestSize
  unfold processRequest
  split
  . rfl
  . split
    . exact (w.quiet_continueFileTransfer env).clientSocket
    . dsimp only
      rw [hssl]
      split
      . rfl
      . rfl
      . apply clientSocket_processMessage

theorem trace_close
    : ∃ events, w.close.trace = w.trace ++ events ∧ ∀ e ∈ events, ∃ fd, e = .closed fd := by
  unfold close
  split
  . refine ⟨_, rfl, ?_⟩
    split <;> simp
  . split
    . exact ⟨_, rfl, by simp⟩
    . exact ⟨[], by simp, by simp⟩

end World
end SimpleRsyncd
