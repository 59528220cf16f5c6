import SimpleRsyncd.Session.Announcement.Basic

/-!
This module contains the answer to a GET request: the header that announces the file is sent only if
the download did not start.
-/

namespace SimpleRsyncd
namespace World

open ProtocolParser

variable {w : World} {env : Env} {message : ProtocolMessage}

/--
What a GET request needs to be answered by the header of its file.
-/
structure GetReady (w : World) (env : Env) (message : ProtocolMessage) (m : Module) (info : FileInfo)
    : Prop where
  gate : w.session.awaitsKey = false
  target : w.transferTarget message.module = some m
  «exists» : m.fileExists w.fs message.path = .ok true
  info : m.getFileInfo env.host w.fs message.path = .ok info

/--
The file of a download can be opened.
-/
def Opens (w : World) (env : Env) (message : ProtocolMessage) (m : Module) : Prop :=
  ∃ file, m.openFile env.host (w.openDownloadFile env) w.fs message.path = .ok (some file)

theorem openFile_ready {m : Module} {host : Host} {read : Bytes → Option Bytes} {fs : FileSystem}
    {path : Bytes} {file : Bytes × Nat} (h : m.openFile host read fs path = .ok (some file))
    : m.fileExists fs path = .ok true ∧ ∃ info, m.getFileInfo host fs path = .ok info := by
  unfold Module.openFile at h
  cases hinfo : m.getFileInfo host fs path with
  | error => simp [hinfo, bind, Except.bind] at h
  | ok info =>
    simp only [hinfo, bind, Except.bind] at h
    split at h
    . simp at h
    . split at h
      . contradiction
      . next b hexists =>
        cases b with
        | true => exact ⟨hexists, info, rfl⟩
        | false => simp at h

theorem openFile_of_ready {m : Module} {host : Host} (read : Bytes → Option Bytes) {fs : FileSystem}
    {path : Bytes} {info : FileInfo} (hexists : m.fileExists fs path = .ok true)
    (hinfo : m.getFileInfo host fs path = .ok info)
    : ∃ file, m.openFile host read fs path = .ok file := by
  unfold Module.openFile
  simp only [hexists, hinfo, bind, Except.bind]
  split <;> exact ⟨_, rfl⟩

theorem handleGet_of_ready {m : Module} {info : FileInfo} (h : w.GetReady env message m info)
    : (w.session.handler.setModule (w.session.handler.moduleName message.module)).handleGet env.host
        message w.fs
      =
    .ok (ProtocolHandler.formatFile info) := by
  have htarget : (w.session.handler.setModule (w.session.handler.moduleName message.module)).getModule
      (w.session.handler.moduleName message.module) = some m := h.target
  simp [ProtocolHandler.handleGet, moduleName_setModule, htarget, h.exists, h.info]

theorem handleGet_of_not_ready (hgate : w.session.awaitsKey = false)
    (h : ∀ m info, ¬w.GetReady env message m info)
    : (∃ e, (w.session.handler.setModule (w.session.handler.moduleName message.module)).handleGet
        env.host message w.fs = .error e)
      ∨ ∃ code text, (w.session.handler.setModule (w.session.handler.moduleName message.module)).handleGet
        env.host message w.fs = .ok (buildErrorResponse code text) := by
  unfold ProtocolHandler.handleGet
  rw [moduleName_setModule]
  dsimp only
  split
  . exact .inr ⟨_, _, rfl⟩
  . next m htarget =>
    split
    . exact .inl ⟨_, rfl⟩
    . exact .inr ⟨_, _, rfl⟩
    . next hexists =>
      split
      . next info hinfo => exact absurd ⟨hgate, htarget, hexists, hinfo⟩ (h m info)
      . exact .inr ⟨_, _, rfl⟩

theorem isAnnouncement_transferComplete (command : ProtocolCommand) (k : Nat)
    : Event.isAnnouncement command (.response transferComplete k) = false := by
  have hphrases : ∀ phrase ∈ [readyForTransfer, readyToReceive],
      Bytes.contains transferComplete phrase = false := by decide
  simp only [List.forall_mem_cons, List.not_mem_nil, false_implies, implies_true, and_true] at hphrases
  cases command <;> simp [Event.isAnnouncement, Event.announces, hphrases]

theorem unrelated_sendChunk (w : World) (env : Env) (command : ProtocolCommand)
    : ∃ events, (w.sendChunk env).2.trace = w.trace ++ events ∧ Unrelated command events := by
  have hdata : ∀ k, Unrelated command [.data w.nextChunk k] := by
    intro k
    cases command <;> exact unrelated_singleton rfl rfl
  unfold sendChunk
  split
  . exact ⟨[], by simp [endFileTransfer], by simp [Unrelated]⟩
  . split
    . exact ⟨[], by simp [endFileTransfer], by simp [Unrelated]⟩
    . next k _ =>
      dsimp only
      split
      . have hcompleted : Unrelated command ([.data w.nextChunk k] ++ [.completed]) := by
          apply unrelated_append (hdata k)
          cases command <;> exact unrelated_singleton rfl rfl
        rcases writeResponse_cases ((w.afterChunk k).endFileTransfer.log [.completed]) (env.send 1)
          transferComplete with h | ⟨k', -, h⟩
        . refine ⟨_, ?_, hcompleted⟩
          rw [h]
          simp [log, endFileTransfer, afterChunk]
        . refine ⟨_ ++ [.response transferComplete (k' + 1)], ?_, unrelated_append hcompleted ?_⟩
          . rw [h]
            simp [log, endFileTransfer, afterChunk]
          . apply unrelated_singleton (isAnnouncement_transferComplete _ _)
            cases command <;> rfl
      . exact ⟨_, rfl, hdata k⟩

theorem isAnnouncement_formatFile (info : FileInfo) (k : Nat)
    : Event.isAnnouncement .get (.response (ProtocolHandler.formatFile info) k) = true := by
  have hphrase : readyForTransfer <:+: ProtocolHandler.formatFile info := by
    have hline : readyForTransfer <:+: bytes "Ready for transfer\n" := by decide
    exact hline.trans (List.suffix_append _ _).isInfix
  have hheader : okHeader <+: ProtocolHandler.formatFile info := by
    simp only [ProtocolHandler.formatFile, List.append_assoc]
    apply List.prefix_append
  simp [Event.isAnnouncement, Event.announces, Bytes.contains, Bytes.startsWith, hphrase, hheader]

theorem contains_formatFile (info : FileInfo)
    : Bytes.contains (ProtocolHandler.formatFile info) readyForTransfer = true := by
  have := isAnnouncement_formatFile info 0
  simp_all [Event.isAnnouncement, Event.announces]

theorem startFileDownload_ne_true {events : List Event}
    (hgate : w.session.awaitsKey = false) (h : ∀ m info, ¬w.GetReady env message m info) (w' : World)
    : (w.answering message events).startFileDownload env message.module message.path ≠ (.ok true, w') := by
  intro hstart
  rcases startFileDownload_cases env (w.answering message events) message.module message.path with
    ⟨m, content, size, htarget, hopen, -⟩ | ⟨hne, -⟩
  . rw [transferTarget_answering] at htarget
    obtain ⟨hexists, info, hinfo⟩ := openFile_ready hopen
    exact h m info ⟨hgate, htarget, hexists, hinfo⟩
  . simp [hstart] at hne

theorem startFileDownload_of_target {moduleName path : Bytes} {m : Module}
    (h : w.transferTarget moduleName = some m)
    : w.startFileDownload env moduleName path
        =
      match m.openFile env.host (w.openDownloadFile env) w.fs path with
      | .error e => (.error e, w.nameTransfer moduleName path)
      | .ok none => (.ok false, w.nameTransfer moduleName path)
      | .ok (some (content, size)) =>
        (.ok true, (w.nameTransfer moduleName path).beginSending content size) := by
  have htarget : (w.nameTransfer moduleName path).transferTarget moduleName = some m := h
  simp only [startFileDownload, htarget]
  rfl

/--
The download starts, so the response is not written.
-/
theorem agree_get_opens {m : Module} (info : FileInfo) (hget : message.command = .get)
    (htarget : w.transferTarget message.module = some m) (hopens : w.Opens env message m)
    : ∃ events, (w.finishRequest env message (ProtocolHandler.formatFile info)).2.trace = w.trace ++ events
        ∧ ¬Agree .get events := by
  obtain ⟨⟨content, size⟩, hopen⟩ := hopens
  have hcontains := contains_formatFile info
  simp only [finishRequest, hcontains, hget, decide_true, Bool.and_self, ↓reduceIte,
    startFileDownload_of_target htarget, hopen]
  have hcontinue : ∀ w : World, w.session.transferState = .sendingFile →
      (w.continueFileTransfer env).2 = (w.sendChunk env).2 := by
    intro w h
    simp [continueFileTransfer, h]
  rw [hcontinue _ rfl]
  obtain ⟨events, htrace, hevents⟩ := unrelated_sendChunk
    ((w.nameTransfer message.module message.path).beginSending content size) env .get
  refine ⟨[.sending content size] ++ events, ?_, ?_⟩
  . rw [htrace]
    simp [beginSending, nameTransfer]
  . rw [Agree, List.any_append, List.any_append, (unrelated_any hevents).1, (unrelated_any hevents).2]
    simp [Event.isAnnouncement, Event.announces, Event.isStart]

theorem openFile_of_not_opens {m : Module} {info : FileInfo} (hready : w.GetReady env message m info)
    (hopens : ¬w.Opens env message m)
    : m.openFile env.host (w.openDownloadFile env) w.fs message.path = .ok none := by
  obtain ⟨file, hfile⟩ := openFile_of_ready (w.openDownloadFile env) hready.exists hready.info
  cases file with
  | none => exact hfile
  | some file => exact absurd ⟨file, hfile⟩ hopens

theorem isError_formatFile (info : FileInfo) (k : Nat)
    : Event.isError (.response (ProtocolHandler.formatFile info) k) = false := by
  have hheader : okHeader <+: ProtocolHandler.formatFile info := by
    simp only [ProtocolHandler.formatFile, List.append_assoc]
    apply List.prefix_append
  simp only [Event.isError, Bytes.startsWith, decide_eq_false_iff_not]
  intro herror
  exact absurd (List.prefix_of_prefix_length_le hheader herror (by decide)) (by decide)

/--
The download does not start, and the client gets no error.
-/
theorem no_error_get_fails {m : Module} {info : FileInfo} (hget : message.command = .get)
    (hready : w.GetReady env message m info) (hopens : ¬w.Opens env message m)
    : ∃ events, (w.finishRequest env message (ProtocolHandler.formatFile info)).2.trace = w.trace ++ events
        ∧ events.any Event.isError = false := by
  have hcontains := contains_formatFile info
  simp only [finishRequest, hcontains, hget, decide_true, Bool.and_self, ↓reduceIte,
    startFileDownload_of_target hready.target, openFile_of_not_opens hready hopens]
  rcases (w.nameTransfer message.module message.path).trace_respond (env.send 0)
    (ProtocolHandler.formatFile info) with htrace | ⟨k, htrace⟩
  . exact ⟨[], by rw [htrace]; simp [nameTransfer], rfl⟩
  . exact ⟨_, htrace, by simp [isError_formatFile]⟩

/--
Only a download that was ready can fail to start.
-/
theorem ready_of_startFails_get (hvalid : message.valid = true) (hget : message.command = .get)
    (hmodule : ∀ c ∈ w.session.handler.moduleName message.module, Bytes.isspace c = false)
    (hpath : ∀ c ∈ message.path, Bytes.isspace c = false) (h : w.StartFails env message)
    : ∃ m info, w.GetReady env message m info := by
  obtain ⟨response, w', hhandle, ⟨hcontains, -, hfalse⟩ | ⟨-, hput, -⟩⟩ := h
  . rw [handleProtocolMessage_of_not_auth (by simp [hget])] at hhandle
    split at hhandle
    . obtain rfl := Except.ok.inj (Prod.mk.inj hhandle).1
      rw [contains_unauthenticated.1] at hcontains
      contradiction
    . next hgate =>
      simp only [ProtocolHandler.handle, hvalid, hget, Bool.not_true, Bool.false_eq_true, ↓reduceIte,
        ProtocolHandler.handleGet, moduleName_setModule, Prod.mk.injEq] at hhandle
      obtain ⟨hresponse, rfl⟩ := hhandle
      split at hresponse
      . obtain rfl := Except.ok.inj hresponse
        rw [ProtocolHandler.moduleNotFound, (not_contains_error hmodule (by decide)).1] at hcontains
        contradiction
      . next m htarget =>
        split at hresponse
        . contradiction
        . obtain rfl := Except.ok.inj hresponse
          rw [(not_contains_error hpath (by decide)).1] at hcontains
          contradiction
        . next hexists =>
          split at hresponse
          . next info hinfo => exact ⟨m, info, by simpa using hgate, htarget, hexists, hinfo⟩
          . next e hinfo =>
            change ((w.answering message [.handled message]).startFileDownload env message.module
              message.path).1 = .ok false at hfalse
            rw [startFileDownload_of_target ((transferTarget_answering _ _).trans htarget)] at hfalse
            simp [Module.openFile, answering, hinfo, bind, Except.bind] at hfalse
  . simp [hget] at hput

theorem startFails_of_not_opens {m : Module} {info : FileInfo} (hvalid : message.valid = true)
    (hget : message.command = .get) (hready : w.GetReady env message m info)
    (hopens : ¬w.Opens env message m)
    : w.StartFails env message := by
  refine ⟨ProtocolHandler.formatFile info, w.answering message [.handled message], ?_,
    .inl ⟨contains_formatFile info, hget, ?_⟩⟩
  . rw [handleProtocolMessage_of_not_auth (by simp [hget]), if_neg (by simp [hready.gate])]
    simp only [ProtocolHandler.handle, hvalid, hget, Bool.not_true, Bool.false_eq_true, ↓reduceIte,
      handleGet_of_ready hready]
    rfl
  . rw [startFileDownload_of_target ((transferTarget_answering _ _).trans hready.target)]
    have hopen := openFile_of_not_opens hready hopens
    change m.openFile env.host ((w.answering message [.handled message]).openDownloadFile env)
        (w.answering message [.handled message]).fs message.path = .ok none at hopen
    rw [hopen]

theorem processMessage_get {request response : Bytes} (hvalid : (parse request).valid = true)
    (hget : (parse request).command = .get) (hgate : w.session.awaitsKey = false)
    (h : (w.session.handler.setModule (w.session.handler.moduleName (parse request).module)).handleGet env.host
      (parse request) w.fs = .ok response)
    : w.processMessage env request
        =
      (w.answering (parse request) [.handled (parse request)]).finishRequest env (parse request) response := by
  rw [processMessage_handled hvalid (by simp [hget]) hgate]
  simp only [ProtocolHandler.handle, hvalid, hget, Bool.not_true, Bool.false_eq_true, ↓reduceIte, h]
  rfl

theorem processMessage_get_error {request : Bytes} {e : Errno} (hvalid : (parse request).valid = true)
    (hget : (parse request).command = .get) (hgate : w.session.awaitsKey = false)
    (h : (w.session.handler.setModule (w.session.handler.moduleName (parse request).module)).handleGet env.host
      (parse request) w.fs = .error e)
    : w.processMessage env request = (.error e, w.answering (parse request) [.handled (parse request)]) := by
  rw [processMessage_handled hvalid (by simp [hget]) hgate]
  simp only [ProtocolHandler.handle, hvalid, hget, Bool.not_true, Bool.false_eq_true, ↓reduceIte, h]
  rfl

theorem tells_get {request : Bytes} (hword : w.HasWord) (hvalid : (parse request).valid = true)
    (hget : (parse request).command = .get)
    : ∃ events, (w.processMessage env request).2.trace = w.trace ++ events
        ∧ (w.Tells env (parse request) events ↔ ∀ m info, ¬w.GetReady env (parse request) m info) := by
  have hauth : (parse request).command ≠ .auth := by simp [hget]
  cases hgate : w.session.awaitsKey with
  | true =>
    obtain ⟨events, htrace, htells⟩ := tells_refused env hvalid hauth hgate
    refine ⟨events, htrace, iff_of_true htells ?_⟩
    intro m info hready
    simp [hready.gate] at hgate
  | false =>
    have hunrelated := unrelated_handled .get (parse request)
    simp only [hget, Tells]
    by_cases hready : ∃ m info, w.GetReady env (parse request) m info
    . obtain ⟨m, info, hready⟩ := hready
      rw [processMessage_get hvalid hget hgate (handleGet_of_ready hready)]
      have hready' : (w.answering (parse request) [.handled (parse request)]).GetReady env (parse request)
          m info :=
        ⟨hgate, (transferTarget_answering _ _).trans hready.target, hready.exists, hready.info⟩
      -- the handler has answered by now, so a file that cannot be opened is not announced as an error
      by_cases hopens : w.Opens env (parse request) m
      . obtain ⟨events, htrace, hnot⟩ := agree_get_opens info hget hready'.target hopens
        refine ⟨[.received (parse request), .handled (parse request)] ++ events, ?_, ?_⟩
        . rw [htrace, trace_answering, List.append_assoc]
        . rw [agree_append_iff hunrelated]
          exact iff_of_false (fun h => hnot h.1) (fun h => h m info hready)
      . obtain ⟨events, htrace, hnone⟩ := no_error_get_fails hget hready' hopens
        refine ⟨[.received (parse request), .handled (parse request)] ++ events, ?_, ?_⟩
        . rw [htrace, trace_answering, List.append_assoc]
        . refine iff_of_false (fun h => ?_) (fun h => h m info hready)
          have herror := h.2 (startFails_of_not_opens hvalid hget hready hopens)
          rw [List.any_append, hnone] at herror
          simp [Event.isError] at herror
    . have hfails : ¬w.StartFails env (parse request) := fun h =>
        hready (ready_of_startFails_get hvalid hget (word_moduleName hword (parse_no_space request).1)
          (parse_no_space request).2 h)
      simp only [not_exists] at hready
      rcases handleGet_of_not_ready hgate hready with ⟨e, herror⟩ | ⟨code, text, hresponse⟩
      . rw [processMessage_get_error hvalid hget hgate herror]
        exact ⟨_, rfl, iff_of_true ⟨agree_of_unrelated hunrelated, fun h => absurd h hfails⟩ hready⟩
      . rw [processMessage_get hvalid hget hgate hresponse]
        obtain ⟨events, htrace, hevents⟩ := unrelated_finishRequest_error env
          (w.answering (parse request) [.handled (parse request)]) (parse request) code text
          (fun _ _ w' => startFileDownload_ne_true hgate hready w') (fun hput => by simp [hget] at hput)
        refine ⟨[.received (parse request), .handled (parse request)] ++ events, ?_, ?_⟩
        . rw [htrace, trace_answering, List.append_assoc]
        . rw [hget] at hevents
          refine iff_of_true ⟨?_, fun h => absurd h hfails⟩ hready
          exact (agree_append_iff hunrelated).mpr (agree_of_unrelated hevents)

end World
end SimpleRsyncd
