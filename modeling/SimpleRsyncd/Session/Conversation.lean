import SimpleRsyncd.Session.Deletion
import SimpleRsyncd.Session.Download
import SimpleRsyncd.Session.Overwrite
import SimpleRsyncd.Transition.Excursion

/-!
This module contains the conversation of a session with its client. As long as the socket takes everything, it is
a sequence of exchanges: every request is answered once, and a transfer is over before the next request is read.
-/

namespace SimpleRsyncd

open ProtocolParser

namespace Module

variable {m : Module} {host : Host} {fs : FileSystem} {path content : Bytes} {size : Nat}

/--
The path in the information about an entry is that of the request, once it is resolved.
-/
theorem resolvePath_of_getFileInfo {info : FileInfo} (hinfo : m.getFileInfo host fs path = .ok info)
    (hfound : info.path ≠ [])
    : m.resolvePath fs path = .ok info.path ∧ ∃ l, fs.resolve info.path = .ok l := by
  unfold getFileInfo at hinfo
  simp only [bind, Except.bind] at hinfo
  repeat' split at hinfo
  all_goals try contradiction
  all_goals
    obtain rfl := Except.ok.inj hinfo
  . next p hsafe =>
    obtain ⟨l, hl, hpath, -⟩ := describe_of_path_ne_nil hfound
    rw [hpath]
    exact ⟨(resolveSafe_eq_some_iff.mp hsafe).1, l, hl⟩
  . simp at hfound
  . simp at hfound

/--
What is opened for a download is the content of the file at its path.
-/
theorem holds_of_openFile {read : Bytes → Option Bytes}
    (hread : ∀ p content, read p = some content → fs.read p = some content)
    (hopen : m.openFile host read fs path = .ok (some (content, size)))
    : m.Holds fs path content := by
  obtain ⟨hexists, info, hinfo⟩ := World.openFile_ready hopen
  have hfound : info.path ≠ [] ∧ read info.path = some content := by
    unfold openFile at hopen
    by_cases hempty : info.path = [] <;> simp_all [bind, Except.bind]
  obtain ⟨hresolve, l, hl⟩ := resolvePath_of_getFileInfo hinfo hfound.1
  refine ⟨l, (locate_of_resolvePath (ne_nil_of_entryExists hexists) hfound.1 hresolve hl).1, ?_⟩
  have hdata := hread _ _ hfound.2
  rwa [FileSystem.read, hl] at hdata

end Module

/--
A response the client is sent as a whole.
-/
def Event.whole (text : Bytes) : Event := .response text text.length

/--
A part of a file the client is sent as a whole.
-/
def Event.part (chunk : Bytes) : Event := .data chunk chunk.length

/--
Whether the client is sent something.
-/
def Event.isSaid : Event → Bool
  | .response _ _ | .data _ _ => true
  | _ => false

namespace World

def said (w : World) : List Event := w.trace.filter Event.isSaid

variable {w w' : World} {env : Env} {message : ProtocolMessage}

theorem said_log (events : List Event) : (w.log events).said = w.said ++ events.filter Event.isSaid := by
  simp [said, log]

theorem said_of_silent {events : List Event} (htrace : w'.trace = w.trace ++ events)
    (hsilent : ∀ e ∈ events, e.isSaid = false)
    : w'.said = w.said := by
  have hnone : events.filter Event.isSaid = [] := by
    rw [List.filter_eq_nil_iff]
    intro e he
    simp [hsilent e he]
  rw [said, htrace, List.filter_append, hnone, List.append_nil, said]

/--
What the client is sent for a request, where `m` is the module of the request and `fs` the file system it
finds.
-/
inductive Reply (m : Option Module) (fs : FileSystem) (message : ProtocolMessage) : List Event → Prop where
  | answer {text : Bytes} : ProtocolHandler.HasHead text → Reply m fs message [.whole text]
  | upload {text : Bytes} : message.command = .put → ProtocolHandler.HasHead text
    → Reply m fs message [.whole text, .whole uploadComplete]
  | download {target : Module} {chunks : List Bytes} : message.command = .get → m = some target
    → target.Holds fs message.path chunks.flatten → chunks ≠ []
    → Reply m fs message (chunks.map .part ++ [.whole transferComplete])

/--
What the client has been sent for a request so far, and the session while its transfer goes on.
-/
inductive Ongoing (m : Option Module) (fs : FileSystem) (message : ProtocolMessage) : List Event → World → Prop where
  | upload {text : Bytes} {w : World} : message.command = .put → ProtocolHandler.HasHead text
    → w.session.transferState = .receivingFile → Ongoing m fs message [.whole text] w
  | download {target : Module} {chunks : List Bytes} {rest : Bytes} {w : World} : message.command = .get
    → m = some target → target.Holds fs message.path (chunks.flatten ++ rest) → chunks ≠ [] → w.Downloading rest
    → Ongoing m fs message (chunks.map .part) w

/--
From `w` to `w'` a request is answered, or its transfer goes on.
-/
def Proceeds (m : Option Module) (fs : FileSystem) (message : ProtocolMessage) (before : List Event) (w w' : World)
    : Prop :=
  ∃ events, w'.said = w.said ++ events
    ∧ (w'.session.transferState = .idle ∧ Reply m fs message (before ++ events)
      ∨ Ongoing m fs message (before ++ events) w')

/--
A call that goes on with a download sends the next chunk of the file.
-/
theorem Downloading.continueFileTransfer {rest : Bytes} (h : w.Downloading rest) (henv : env.WritesAll)
    (hcall : w.continueFileTransfer env = (.ok true, w'))
    : rest.length ≤ chunkSize ∧ w'.session.transferState = .idle
          ∧ w'.said = w.said ++ [.part rest, .whole transferComplete]
        ∨ w'.Downloading (rest.drop chunkSize) ∧ w'.said = w.said ++ [.part (rest.take chunkSize)] := by
  have hchunk := h.nextChunk
  have hafter : (w.afterChunk w.nextChunk.length).said = w.said ++ [.part w.nextChunk] := by
    simp [said, World.afterChunk, Event.isSaid, Event.part]
  by_cases hne : rest = []
  . subst hne
    have hnone : w.nextChunk = [] := by simp [hchunk]
    simp [World.continueFileTransfer, h.sending, sendChunk, hnone] at hcall
  . by_cases hlast : rest.length ≤ chunkSize
    . have hstep := h.continueStep_last hne hlast henv
      rw [continueStep, hcall] at hstep
      obtain rfl := (Prod.mk.inj hstep).2
      refine .inl ⟨hlast, rfl, ?_⟩
      have hended : (w.afterChunk w.nextChunk.length).endFileTransfer.said = w.said ++ [.part w.nextChunk] := hafter
      rw [said_log, said_log, hended, hchunk, List.take_of_length_le hlast]
      simp [Event.isSaid, Event.whole]
    . have hstep := h.continueStep_more (by omega) henv
      rw [continueStep, hcall] at hstep
      obtain rfl := (Prod.mk.inj hstep).2
      refine .inr ⟨h.afterChunk (by omega), ?_⟩
      rw [hafter, hchunk]

/--
A call that goes on with an upload takes a chunk, or it finds the end and says so.
-/
theorem said_receiveChunk (hreceiving : w.session.transferState = .receivingFile)
    (hrespond : w.session.canRespond = true) (henv : env.WritesAll) (hcall : w.receiveChunk env = (.ok true, w'))
    : w'.session.transferState = .receivingFile ∧ w'.said = w.said
        ∨ w'.session.transferState = .idle ∧ w'.said = w.said ++ [.whole uploadComplete] := by
  obtain ⟨ssl, hssl⟩ := readSocket_frame w.session env.recv chunkSize
  unfold receiveChunk at hcall
  simp only [hssl] at hcall
  split at hcall
  . simp at hcall
  . split at hcall
    . simp at hcall
    . next fs _ =>
      right
      have hresponse := writeResponse_of_writesAll
        (w := { World.endFileTransfer { w with session := { w.session with sslConnection := ssl } } with fs })
        (i := 0) hrespond henv (by decide : uploadComplete ≠ [])
      rw [hresponse] at hcall
      obtain rfl := (Prod.mk.inj hcall).2
      refine ⟨rfl, ?_⟩
      rw [said_log]
      rfl
  . obtain rfl := (Prod.mk.inj hcall).2
    exact .inl ⟨hreceiving, rfl⟩

theorem Orderly.canRespond (h : w.Orderly) (hactive : w.session.active = true) : w.session.canRespond = true := by
  simp [Session.canRespond, hactive, h.connected hactive]

theorem active_of_processRequest (hcall : w.processRequest env = (.ok true, w')) : w.session.active = true := by
  cases hactive : w.session.active with
  | true => rfl
  | false => simp [processRequest, hactive] at hcall

/--
A transfer goes on until it is over.
-/
theorem Ongoing.processRequest {m : Option Module} {fs : FileSystem} {before : List Event}
    (h : Ongoing m fs message before w) (horderly : w.Orderly) (henv : env.WritesAll)
    (hcall : w.processRequest env = (.ok true, w'))
    : Proceeds m fs message before w w' := by
  have hactive := active_of_processRequest hcall
  cases h with
  | upload hput hhead hreceiving =>
    simp only [World.processRequest, hactive, hreceiving, World.continueFileTransfer, Bool.not_true, Bool.false_eq_true,
      if_false] at hcall
    rcases said_receiveChunk hreceiving (horderly.canRespond hactive) henv hcall with ⟨hmore, hsaid⟩ | ⟨hidle, hsaid⟩
    . exact ⟨[], by simpa using hsaid, .inr (.upload hput hhead hmore)⟩
    . exact ⟨_, hsaid, .inl ⟨hidle, .upload hput hhead⟩⟩
  | @download target chunks rest _ hget htarget hholds hne hdownloading =>
    have hcontinue : w.continueFileTransfer env = (.ok true, w') := by
      rw [← hcall]
      simp [World.processRequest, hactive, hdownloading.sending]
    rcases hdownloading.continueFileTransfer henv hcontinue with ⟨hlast, hidle, hsaid⟩ | ⟨hmore, hsaid⟩
    . refine ⟨_, hsaid, .inl ⟨hidle, ?_⟩⟩
      have hreply : Reply m fs message ((chunks ++ [rest]).map .part ++ [.whole transferComplete]) :=
        .download hget htarget (by simpa using hholds) (by simp)
      simpa using hreply
    . refine ⟨_, hsaid, .inr ?_⟩
      have hongoing : Ongoing m fs message ((chunks ++ [rest.take chunkSize]).map .part) w' :=
        .download hget htarget (by simpa using hholds) (by simp) hmore
      simpa using hongoing

theorem said_of_attempted (h : Attempted w w') : w'.said = w.said := by
  obtain ⟨made, htrace⟩ := h.trace
  apply said_of_silent htrace
  simp [Event.isSaid]

theorem ne_nil_of_hasHead {response : Bytes} (h : ProtocolHandler.HasHead response) : response ≠ [] := by
  rintro rfl
  obtain ⟨head, hmem, hprefix⟩ := h
  rw [List.prefix_nil.mp hprefix] at hmem
  exact absurd hmem (by decide)

/--
A single response.
-/
theorem proceeds_respond {m : Option Module} {fs : FileSystem} {response : Bytes}
    (hidle : w.session.transferState = .idle) (hrespond : w.session.canRespond = true) (henv : env.WritesAll)
    (hhead : ProtocolHandler.HasHead response) (i : Nat) (hcall : w.respond (env.send i) response = (.ok true, w'))
    : Proceeds m fs message [] w w' := by
  rw [respond, writeResponse_of_writesAll hrespond henv (ne_nil_of_hasHead hhead)] at hcall
  obtain rfl := (Prod.mk.inj hcall).2
  refine ⟨_, said_log _, .inl ⟨hidle, ?_⟩⟩
  exact .answer hhead

/--
After its response a request is done with, unless a transfer has started.
-/
theorem proceeds_finishRequest {response : Bytes} (hidle : w.session.transferState = .idle)
    (hrespond : w.session.canRespond = true) (hclosed : w.session.downloadFile = none) (henv : env.WritesAll)
    (hhead : ProtocolHandler.HasHead response) (hcall : w.finishRequest env message response = (.ok true, w'))
    : Proceeds (w.transferTarget message.module) w.fs message [] w w' := by
  have hcases := w.finishRequest_cases env message response
  rw [hcall] at hcases
  generalize hresult : ((.ok true, w') : Except Errno Bool × World) = result at hcases
  cases hcases with
  | throws => simp at hresult
  | @responds u hattempted =>
    have hrests := hattempted.rests
    have hrespond' : u.session.canRespond = true := by
      rw [Session.canRespond, hrests.active, hrests.clientSocket]
      exact hrespond
    rw [Proceeds, ← said_of_attempted hattempted]
    exact proceeds_respond (hrests.transferState.trans hidle) hrespond' henv hhead 0 hresult.symm
  | @downloads u hget hstart =>
    have hcommand : message.command = .get := by simpa using (Bool.and_eq_true_iff.mp hget).2
    rcases w.startFileDownload_cases env message.module message.path with
      ⟨m, content, size, htarget, hopen, heq⟩ | ⟨hne, -⟩
    . rw [hstart] at heq
      obtain rfl := (Prod.mk.inj heq).2
      have hdownloading := downloading_of_start hclosed hrespond hstart rfl
      have hholds := Module.holds_of_openFile (read_of_openDownloadFile hclosed) hopen
      have hsaid : ((w.nameTransfer message.module message.path).beginSending content size).said = w.said := by
        have htrace : ((w.nameTransfer message.module message.path).beginSending content size).trace
            = w.trace ++ [.sending content size] := rfl
        exact said_of_silent htrace (by simp [Event.isSaid])
      rw [Proceeds, ← hsaid]
      rcases hdownloading.continueFileTransfer henv hresult.symm with ⟨hlast, hidle', hsent⟩ | ⟨hmore, hsent⟩
      . refine ⟨_, hsent, .inl ⟨hidle', ?_⟩⟩
        have hwhole : m.Holds w.fs message.path [content].flatten := by simpa using hholds
        exact .download hcommand htarget hwhole (by simp)
      . refine ⟨_, hsent, .inr ?_⟩
        have hparts : m.Holds w.fs message.path ([content.take chunkSize].flatten ++ content.drop chunkSize) := by
          simpa using hholds
        exact .download hcommand htarget hparts (by simp) hmore
    . simp [hstart] at hne
  | @uploads u hput hstart =>
    have hcommand : message.command = .put := by simpa using (Bool.and_eq_true_iff.mp hput).2
    obtain ⟨hreceiving, -, events, htrace, hsilent⟩ := startFileUpload_silent hstart
    have hsaid : u.said = w.said := by
      apply said_of_silent htrace
      intro e he
      have := hsilent e he
      cases e <;> simp_all [Event.isSilent, Event.isSaid]
    have hrespond' : u.session.canRespond = true := by
      have hquiet := w.quiet_startFileUpload env message.module message.path
      rw [hstart] at hquiet
      rw [Session.canRespond, hquiet.active, hquiet.clientSocket]
      exact hrespond
    rw [announceUpload, writeResponse_of_writesAll hrespond' henv (ne_nil_of_hasHead hhead)] at hresult
    obtain rfl := (Prod.mk.inj hresult).2
    rw [Proceeds, ← hsaid]
    exact ⟨_, said_log _, .inr (.upload hcommand hhead rfl)⟩

theorem Reply.of_fs {m : Option Module} {fs fs' : FileSystem} {events : List Event} (h : Reply m fs' message events)
    (hfs : message.command = .get → fs' = fs)
    : Reply m fs message events := by
  cases h with
  | answer hhead => exact .answer hhead
  | upload hput hhead => exact .upload hput hhead
  | download hget htarget hholds hne => exact .download hget htarget (hfs hget ▸ hholds) hne

theorem Ongoing.of_fs {m : Option Module} {fs fs' : FileSystem} {events : List Event}
    (h : Ongoing m fs' message events w) (hfs : message.command = .get → fs' = fs)
    : Ongoing m fs message events w := by
  cases h with
  | upload hput hhead hreceiving => exact .upload hput hhead hreceiving
  | download hget htarget hholds hne hdownloading =>
    exact .download hget htarget (hfs hget ▸ hholds) hne hdownloading

theorem fs_handleProtocolMessage_of_get (w : World) (hget : message.command = .get)
    : (w.handleProtocolMessage env message).2.fs = w.fs := by
  have hset : ((w.log [.received message]).setModule message).fs = w.fs := by
    unfold setModule
    split <;> rfl
  unfold handleProtocolMessage
  dsimp only
  split
  . exact hset
  . split
    . next hauth => simp [hget] at hauth
    . have hhandle : ∀ (h : ProtocolHandler) fs, (h.handle env.host message fs).2 = fs := by
        intro h fs
        cases hvalid : message.valid <;> simp [ProtocolHandler.handle, hvalid, hget]
      simp only [log, hhandle]
      exact hset

theorem transferTarget_handleProtocolMessage (w : World) (env : Env) (message : ProtocolMessage)
    : (w.handleProtocolMessage env message).2.transferTarget message.module = w.transferTarget message.module := by
  rw [transferTarget, handler_handleProtocolMessage, moduleName_setModule]
  rfl

/--
What is sent for a request.
-/
theorem proceeds_processMessage {request : Bytes} (hidle : w.session.transferState = .idle)
    (hrespond : w.session.canRespond = true) (hclosed : w.session.downloadFile = none) (henv : env.WritesAll)
    (hcall : w.processMessage env request = (.ok true, w'))
    : Proceeds (w.transferTarget (parse request).module) w.fs (parse request) [] w w' := by
  unfold processMessage at hcall
  dsimp only at hcall
  split at hcall
  . exact proceeds_respond hidle hrespond henv (ProtocolHandler.hasHead_error _ _) 0 hcall
  . split at hcall
    . simp at hcall
    . next response u heq =>
      have hrests := w.rests_handleProtocolMessage env (parse request)
      have hhead : ProtocolHandler.HasHead response := hasHead_handleProtocolMessage (by rw [heq])
      obtain ⟨events, htrace, hevents⟩ := w.trace_handleProtocolMessage env (parse request)
      have htarget := w.transferTarget_handleProtocolMessage env (parse request)
      have hfs : (parse request).command = .get → (w.handleProtocolMessage env (parse request)).2.fs = w.fs :=
        w.fs_handleProtocolMessage_of_get
      rw [heq] at hrests htrace htarget hfs
      have hsaid : u.said = w.said := by
        apply said_of_silent htrace
        intro e he
        rcases List.mem_cons.mp he with rfl | he
        . rfl
        . rcases hevents e he with rfl | rfl <;> rfl
      have hrespond' : u.session.canRespond = true := by
        rw [Session.canRespond, hrests.active, hrests.clientSocket]
        exact hrespond
      obtain ⟨events, hsaid', hproceeds⟩ := proceeds_finishRequest (hrests.transferState.trans hidle) hrespond'
        (hrests.downloadFile.trans hclosed) henv hhead hcall
      rw [htarget] at hproceeds
      refine ⟨events, by rw [hsaid', hsaid], ?_⟩
      rcases hproceeds with ⟨hidle', hreply⟩ | hongoing
      . exact .inl ⟨hidle', hreply.of_fs hfs⟩
      . exact .inr (hongoing.of_fs hfs)

/--
A session that is idle reads a request and sends what belongs to it.
-/
theorem proceeds_processRequest (horderly : w.Orderly) (hidle : w.session.transferState = .idle)
    (henv : env.WritesAll) (hcall : w.processRequest env = (.ok true, w'))
    : ∃ request, w.Reads env request
        ∧ Proceeds (w.transferTarget (parse request).module) w.fs (parse request) [] w w' := by
  have hactive := active_of_processRequest hcall
  have hclosed : w.session.downloadFile = none := by
    have hconsistent := horderly.consistent
    simp only [Session.Consistent, hidle] at hconsistent
    exact hconsistent.2.1
  obtain ⟨ssl, hssl⟩ := readSocket_frame w.session env.recv requestSize
  have hrespond := horderly.canRespond hactive
  unfold processRequest at hcall
  simp only [hactive, hidle, Bool.not_true, Bool.false_eq_true, if_false, ne_eq, not_true_eq_false] at hcall
  split at hcall
  . simp at hcall
  . simp at hcall
  . next request _ hread =>
    refine ⟨request, ⟨hidle, hread⟩, ?_⟩
    rw [hssl] at hcall
    exact proceeds_processMessage (w := { w with session := { w.session with sslConnection := ssl } }) hidle hrespond
      hclosed henv hcall

def Idle (w : World) : Prop := w.session.transferState = .idle

/--
A call of `processRequest` that returns true while the socket takes everything. The other sessions have left the
file system as it is then.
-/
def turn : Transition World (FileSystem × Env) :=
  fun w call w' => call.2.WritesAll ∧ processRequest call.2 { w with fs := call.1 } = (.ok true, w')

/--
The first of these calls reads a request, and from `w` to `w'` this belongs to it.
-/
def Belongs (w : World) (calls : List (FileSystem × Env)) (w' : World)
    (P : Option Module → FileSystem → ProtocolMessage → List Event → Prop)
    : Prop :=
  ∃ fs env rest request events, calls = (fs, env) :: rest ∧ Reads { w with fs } env request
    ∧ w'.said = w.said ++ events ∧ P (w.transferTarget (parse request).module) fs (parse request) events

theorem Orderly.withFs (h : w.Orderly) (fs : FileSystem) : Orderly { w with fs } :=
  ⟨h.consistent, h.connected, h.word⟩

theorem Ongoing.withFs {m : Option Module} {fs : FileSystem} {events : List Event} (h : Ongoing m fs message events w)
    (fs' : FileSystem)
    : Ongoing m fs message events { w with fs := fs' } := by
  cases h with
  | upload hput hhead hreceiving => exact .upload hput hhead hreceiving
  | download hget htarget hholds hne hdownloading =>
    exact .download hget htarget hholds hne
      ⟨hdownloading.respond, hdownloading.sending, hdownloading.file, hdownloading.remaining⟩

namespace Belongs

variable {calls : List (FileSystem × Env)} {call : FileSystem × Env} {w'' : World}
  {P Q : Option Module → FileSystem → ProtocolMessage → List Event → Prop}

theorem mono (h : Belongs w calls w' P) (hPQ : ∀ m fs message events, P m fs message events → Q m fs message events)
    : Belongs w calls w' Q := by
  obtain ⟨fs, env, rest, request, events, hcalls, hreads, hsaid, hP⟩ := h
  exact ⟨fs, env, rest, request, events, hcalls, hreads, hsaid, hPQ _ _ _ _ hP⟩

/--
The call that reads a request.
-/
theorem first (horderly : w.Orderly) (hidle : w.Idle) (hturn : turn w call w')
    : Belongs w [call] w' fun m fs message events =>
        w'.Idle ∧ Reply m fs message events ∨ Ongoing m fs message events w' := by
  obtain ⟨request, hreads, events, hsaid, hproceeds⟩ :=
    proceeds_processRequest (horderly.withFs call.1) hidle hturn.1 hturn.2
  exact ⟨call.1, call.2, [], request, events, rfl, hreads, hsaid, hproceeds⟩

/--
A call that goes on with its transfer.
-/
theorem next (h : Belongs w calls w' fun m fs message events => Ongoing m fs message events w') (horderly : w'.Orderly)
    (hturn : turn w' call w'')
    : Belongs w (calls ++ [call]) w'' fun m fs message events =>
        w''.Idle ∧ Reply m fs message events ∨ Ongoing m fs message events w'' := by
  obtain ⟨fs, env, rest, request, before, rfl, hreads, hsaid, hongoing⟩ := h
  obtain ⟨events, hmore, hproceeds⟩ :=
    (hongoing.withFs call.1).processRequest (horderly.withFs call.1) hturn.1 hturn.2
  have hsaid' : w''.said = w.said ++ (before ++ events) := by
    rw [hmore, ← List.append_assoc, ← hsaid]
    rfl
  exact ⟨fs, env, rest ++ [call], request, before ++ events, rfl, hreads, hsaid', hproceeds⟩

end Belongs

end World
end SimpleRsyncd
