import SimpleRsyncd.Session.Accounting

/-!
This module contains the delivery of responses and files: as long as no write is short, the client
has been delivered what the session counts as written and a part of the file it is sending.
-/

namespace SimpleRsyncd

/--
Everything that counts as written was delivered, and after it only a part of a file that does not
count as written yet.
-/
def Ledger.Intact (l : Ledger) : Prop :=
  ∃ part, part <+: l.unreported ∧ l.delivered = l.reported ++ part

/--
A write that succeeds delivers all its bytes.
-/
def Env.NoShortWrites (env : Env) : Prop :=
  ∀ i n k, env.send i n = some k → n ≤ k

theorem Ledger.Intact.reported_isPrefix {l : Ledger} (h : l.Intact) : l.reported <+: l.delivered := by
  obtain ⟨part, -, hdelivered⟩ := h
  exact ⟨part, hdelivered.symm⟩

namespace World

/--
What a session that has not failed maintains: outside of downloads the client has everything, and
during a download also the part of the file that was read.
-/
structure Delivered (w : World) : Prop where
  idle : w.session.transferState ≠ .sendingFile →
    (ledger w.trace).delivered = (ledger w.trace).reported
  sending : ∀ rest, w.session.transferState = .sendingFile → w.session.downloadFile = some rest →
    (ledger w.trace).delivered = (ledger w.trace).reported ++ (ledger w.trace).sent
      ∧ (ledger w.trace).unreported = (ledger w.trace).content
      ∧ Transmission.Lossless (ledger w.trace).content { rest, delivered := (ledger w.trace).sent }

variable {w w' : World} {env : Env}

theorem Delivered.intact_of_idle (h : w.Delivered) (hidle : w.session.transferState ≠ .sendingFile)
    : (ledger w.trace).Intact :=
  ⟨[], List.nil_prefix, by simp [h.idle hidle]⟩

theorem Delivered.intact (h : w.Delivered) (haccounting : w.Accounting) : (ledger w.trace).Intact := by
  by_cases hsending : w.session.transferState = .sendingFile
  . obtain ⟨rest, hrest⟩ := haccounting.sending hsending
    obtain ⟨hdelivered, hunreported, hlossless⟩ := h.sending rest hsending hrest.file
    refine ⟨_, ?_, hdelivered⟩
    rw [hunreported]
    exact hlossless.delivered_isPrefix
  . exact h.intact_of_idle hsending

theorem writeSocket_full (henv : env.NoShortWrites) {i : Nat} {buffer : Bytes} {k : Nat}
    (h : w.session.writeSocket (env.send i) buffer = some k)
    : k = buffer.length := by
  obtain ⟨k', hsend, rfl⟩ := writeSocket_eq_some h
  exact Nat.min_eq_left (henv _ _ _ hsend)

/--
Steps outside of downloads that record nothing about bytes.
-/
theorem Delivered.of_silent (h : w.Delivered) (hidle : w.session.transferState ≠ .sendingFile)
    (hidle' : w'.session.transferState ≠ .sendingFile)
    (htrace : ∃ events, w'.trace = w.trace ++ events ∧ ∀ e ∈ events, e.isSilent = true)
    : w'.Delivered := by
  obtain ⟨events, htrace, hsilent⟩ := htrace
  have hledger : ledger w'.trace = ledger w.trace := by
    rw [htrace, ledger_append_of_isSilent hsilent]
  constructor
  . intro
    rw [hledger]
    exact h.idle hidle
  . intro rest hsending
    exact absurd hsending hidle'

theorem Delivered.writeResponse (h : w.Delivered) (hidle : w.session.transferState ≠ .sendingFile)
    (henv : env.NoShortWrites) (i : Nat) (response : Bytes)
    : (w.writeResponse (env.send i) response).2.Delivered := by
  rcases w.writeResponse_cases (env.send i) response with heq | ⟨k, hk, heq⟩
  . rw [heq]
    exact h
  . have hfull := writeSocket_full henv hk
    rw [heq, hfull]
    constructor
    . intro
      simp [log, h.idle hidle]
    . intro rest hsending
      exact absurd hsending hidle

theorem Delivered.beginSending (h : w.Delivered) (hidle : w.session.transferState ≠ .sendingFile)
    (content : Bytes) (size : Nat)
    : (w.beginSending content size).Delivered := by
  constructor
  . intro hne
    exact absurd rfl hne
  . intro rest _ hfile
    obtain rfl : content = rest := by simpa [World.beginSending] using hfile
    simp [World.beginSending, h.idle hidle, Transmission.Lossless]

theorem Delivered.afterChunk (h : w.Delivered) (hsending : w.session.transferState = .sendingFile)
    {rest : Bytes} (hfile : w.session.downloadFile = some rest)
    : (w.afterChunk w.nextChunk.length).Delivered := by
  obtain ⟨hdelivered, hunreported, hlossless⟩ := h.sending rest hsending hfile
  constructor
  . intro hne
    exact absurd hsending hne
  . intro rest' _ hfile'
    have hchunk : w.nextChunk = rest.take (min chunkSize w.session.transferBytesRemaining) := by
      simp [nextChunk, hfile]
    obtain rfl : rest.drop (min chunkSize w.session.transferBytesRemaining) = rest' := by
      simpa [World.afterChunk, hfile] using hfile'
    refine ⟨?_, ?_, ?_⟩
    . simp [World.afterChunk, hdelivered]
    . simpa [World.afterChunk] using hunreported
    . have := hlossless.chunk (n := min chunkSize w.session.transferBytesRemaining) (Nat.le_refl _)
      simpa [World.afterChunk, Transmission.chunk, hchunk] using this

/--
The end of a download: what was sent is the whole file.
-/
theorem Delivered.completed (h : w.Delivered) (haccounting : w.Accounting)
    (hsending : w.session.transferState = .sendingFile)
    (hremaining : w.session.transferBytesRemaining = 0)
    : (w.endFileTransfer.log [.completed]).Delivered := by
  obtain ⟨rest, hrest⟩ := haccounting.sending hsending
  obtain ⟨hdelivered, -, -⟩ := h.sending rest hsending hrest.file
  constructor
  . intro
    simp [log, endFileTransfer, hdelivered, haccounting.sent_eq_content hsending hremaining]
  . simp [log, endFileTransfer, Session.endFileTransfer]

/--
After a call that failed the ledger is intact, after one that succeeded the session can go on.
-/
structure Safe (more : Bool) (w : World) : Prop where
  intact : (ledger w.trace).Intact
  delivered : more = true → w.Delivered

theorem Delivered.safe_of_idle (h : w.Delivered) (hidle : w.session.transferState ≠ .sendingFile)
    (more : Bool)
    : Safe more w :=
  ⟨h.intact_of_idle hidle, fun _ => h⟩

theorem Delivered.sendChunk (h : w.Delivered) (haccounting : w.Accounting) (henv : env.NoShortWrites)
    (hsending : w.session.transferState = .sendingFile)
    : Safe (w.sendChunk env).1 (w.sendChunk env).2 := by
  have hintact := h.intact haccounting
  obtain ⟨rest, hrest⟩ := haccounting.sending hsending
  unfold World.sendChunk
  split
  . exact ⟨hintact, by simp⟩
  . split
    . exact ⟨hintact, by simp⟩
    . next k hk =>
      obtain rfl := writeSocket_full henv hk
      have hchunk := h.afterChunk hsending hrest.file
      have hcounted := haccounting.afterChunk hsending (Nat.le_refl _)
      dsimp only
      split
      . next hremaining =>
        have hdone := hchunk.completed hcounted hsending hremaining
        have hrests := rests_writeResponse
          ((w.afterChunk w.nextChunk.length).endFileTransfer.log [.completed]) (env.send 1) transferComplete
        apply (hdone.writeResponse _ henv 1 transferComplete).safe_of_idle
        . rw [hrests.transferState]
          simp [log, endFileTransfer, Session.endFileTransfer]
        . simp [log, endFileTransfer, Session.endFileTransfer]
      . exact ⟨hchunk.intact hcounted, fun _ => hchunk⟩

theorem Delivered.receiveChunk (h : w.Delivered) (henv : env.NoShortWrites)
    (hreceiving : w.session.transferState = .receivingFile)
    : (w.receiveChunk env).2.Delivered ∧ (w.receiveChunk env).2.session.transferState ≠ .sendingFile := by
  have hidle : w.session.transferState ≠ .sendingFile := by simp [hreceiving]
  obtain ⟨ssl, hssl⟩ := readSocket_frame w.session env.recv chunkSize
  have hend : ∀ fs : FileSystem,
      Delivered { w with fs, session := (w.session.readSocket env.recv chunkSize).2.endFileTransfer } :=
    fun fs => h.of_silent hidle (by simp [Session.endFileTransfer]) ⟨[], by simp, by simp⟩
  unfold World.receiveChunk
  dsimp only
  split
  . exact ⟨hend w.fs, by simp [endFileTransfer, Session.endFileTransfer]⟩
  . split
    . exact ⟨hend w.fs, by simp [endFileTransfer, Session.endFileTransfer]⟩
    . next fs _ =>
      constructor
      . exact (hend fs).writeResponse (by simp [Session.endFileTransfer]) henv 0 uploadComplete
      . rw [(rests_writeResponse _ _ _).transferState]
        simp [endFileTransfer, Session.endFileTransfer]
  . rw [hssl]
    exact ⟨h.of_silent hidle (by simp [storeChunk, hreceiving]) ⟨[], by simp [storeChunk], by simp⟩,
      by simp [storeChunk, hreceiving]⟩

/--
The result of a call that may throw.
-/
def SafeResult (result : Except Errno Bool × World) : Prop :=
  Safe (result.1.toOption.getD false) result.2

theorem Delivered.continueFileTransfer (h : w.Delivered) (haccounting : w.Accounting)
    (henv : env.NoShortWrites)
    : SafeResult (w.continueFileTransfer env) := by
  unfold World.continueFileTransfer
  split
  . next hsending => exact h.sendChunk haccounting henv hsending
  . next hreceiving =>
    obtain ⟨hdelivered, hidle⟩ := h.receiveChunk henv hreceiving
    exact hdelivered.safe_of_idle hidle _
  . next hidle => exact h.safe_of_idle (by simp [hidle]) _

theorem Delivered.respond (h : w.Delivered) (hidle : w.session.transferState ≠ .sendingFile)
    (henv : env.NoShortWrites) (i : Nat) (response : Bytes)
    : SafeResult (w.respond (env.send i) response) := by
  apply (h.writeResponse hidle henv i response).safe_of_idle
  rwa [(w.rests_writeResponse (env.send i) response).transferState]

theorem Delivered.of_attempted (h : w.Delivered) (hidle : w.session.transferState ≠ .sendingFile)
    (hattempted : Attempted w w')
    : w'.Delivered := by
  obtain ⟨made, htrace⟩ := hattempted.trace
  apply h.of_silent hidle
  . rwa [hattempted.rests.transferState]
  . exact ⟨_, htrace, by simp [Event.isSilent]⟩

theorem Delivered.startFileDownload (h : w.Delivered) (hidle : w.session.transferState ≠ .sendingFile)
    {moduleName path : Bytes} (hstart : w.startFileDownload env moduleName path = (.ok true, w'))
    : w'.Delivered := by
  rcases w.startFileDownload_cases env moduleName path with
    ⟨m, content, size, -, -, heq⟩ | ⟨hne, -⟩
  . rw [hstart] at heq
    obtain rfl := (Prod.mk.inj heq).2
    have hname := h.of_attempted hidle (w.attempted_nameTransfer moduleName path)
    exact hname.beginSending hidle content size
  . simp [hstart] at hne

theorem Delivered.announceUpload (h : w.Delivered) (hreceiving : w.session.transferState = .receivingFile)
    (henv : env.NoShortWrites) (response : Bytes)
    : SafeResult (w.announceUpload env response) := by
  have hidle : w.session.transferState ≠ .sendingFile := by simp [hreceiving]
  have hwrite := h.writeResponse hidle henv 0 response
  have hrests := w.rests_writeResponse (env.send 0) response
  unfold World.announceUpload
  split
  . next w' heq =>
    rw [heq] at hwrite hrests
    have hidle' : w'.session.transferState ≠ .sendingFile := by rwa [hrests.transferState]
    refine safe_of_idle ?_ (by simp) _
    exact hwrite.of_silent hidle' (by simp) ⟨[], by simp, by simp⟩
  . next w' heq =>
    rw [heq] at hwrite hrests
    apply hwrite.respond _ henv
    rwa [hrests.transferState]

theorem Delivered.finishRequest (h : w.Delivered) (haccounting : w.Accounting)
    (hidle : w.session.transferState = .idle) (henv : env.NoShortWrites) (message : ProtocolMessage)
    (response : Bytes)
    : SafeResult (w.finishRequest env message response) := by
  have hne : w.session.transferState ≠ .sendingFile := by simp [hidle]
  have hcases := w.finishRequest_cases env message response
  generalize w.finishRequest env message response = result at hcases ⊢
  cases hcases with
  | throws hattempted =>
    exact (h.of_attempted hne hattempted).safe_of_idle (by rwa [hattempted.rests.transferState]) _
  | responds hattempted =>
    exact (h.of_attempted hne hattempted).respond (by rwa [hattempted.rests.transferState]) henv 0 _
  | downloads _ hstart =>
    exact (h.startFileDownload hne hstart).continueFileTransfer
      (haccounting.startFileDownload hidle hstart) henv
  | uploads _ hstart =>
    obtain ⟨hreceiving, -, htrace⟩ := startFileUpload_silent hstart
    have hupload := h.of_silent hne (by simp [hreceiving]) htrace
    exact hupload.announceUpload hreceiving henv response

theorem Delivered.handleProtocolMessage (h : w.Delivered) (env : Env)
    (hidle : w.session.transferState ≠ .sendingFile) (message : ProtocolMessage)
    : (w.handleProtocolMessage env message).2.Delivered := by
  obtain ⟨events, htrace, hevents⟩ := w.trace_handleProtocolMessage env message
  apply h.of_silent hidle
  . rwa [(w.rests_handleProtocolMessage env message).transferState]
  . refine ⟨_, htrace, ?_⟩
    rintro e (_ | ⟨_, hmem⟩)
    . rfl
    . rcases hevents e hmem with rfl | rfl <;> rfl

theorem Delivered.processMessage (h : w.Delivered) (haccounting : w.Accounting)
    (hidle : w.session.transferState = .idle) (henv : env.NoShortWrites) (request : Bytes)
    : SafeResult (w.processMessage env request) := by
  have hne : w.session.transferState ≠ .sendingFile := by simp [hidle]
  have hhandled := h.handleProtocolMessage env hne (ProtocolParser.parse request)
  have hcounted := haccounting.handleProtocolMessage env (ProtocolParser.parse request)
  have hrests := w.rests_handleProtocolMessage env (ProtocolParser.parse request)
  unfold World.processMessage
  dsimp only
  split
  . exact h.respond hne henv 0 _
  . split
    . next heq =>
      rw [heq] at hhandled hrests
      exact hhandled.safe_of_idle (by rwa [hrests.transferState]) _
    . next heq =>
      rw [heq] at hhandled hcounted hrests
      exact hhandled.finishRequest hcounted (by rw [hrests.transferState, hidle]) henv _ _

theorem Delivered.processRequest (h : w.Delivered) (haccounting : w.Accounting)
    (henv : env.NoShortWrites)
    : SafeResult (w.processRequest env) := by
  unfold World.processRequest
  split
  . exact ⟨h.intact haccounting, by simp [Except.toOption]⟩
  . split
    . exact h.continueFileTransfer haccounting henv
    . next hidle =>
      simp only [ne_eq, Decidable.not_not] at hidle
      have hne : w.session.transferState ≠ .sendingFile := by simp [hidle]
      have hcounted := haccounting.readSocket env.recv requestSize
      obtain ⟨ssl, hssl⟩ := readSocket_frame w.session env.recv requestSize
      dsimp only
      rw [hssl] at hcounted ⊢
      have hread : Delivered { w with session := { w.session with sslConnection := ssl } } :=
        h.of_silent hne hne ⟨[], by simp, by simp⟩
      split
      . exact ⟨hread.intact_of_idle hne, by simp [Except.toOption]⟩
      . exact ⟨hread.intact_of_idle hne, by simp [Except.toOption]⟩
      . exact hread.processMessage hcounted hidle henv _

/--
What a session maintains whose writes are never short, also after a request that failed.
-/
structure Sound (w : World) : Prop where
  accounting : w.Accounting
  connected : w.session.active = true → 0 ≤ w.session.clientSocket
  intact : (ledger w.trace).Intact

/--
What it maintains between the calls of the daemon.
-/
structure Flawless (w : World) : Prop extends w.Sound where
  delivered : w.session.active = true → w.Delivered

theorem Sound.close (h : w.Sound) : w.close.Flawless := by
  have hinactive : w.close.session.active = false := by
    unfold World.close
    split
    . rfl
    . split
      . rfl
      . have := h.connected
        by_contra hactive
        simp_all
  obtain ⟨events, htrace, hevents⟩ := w.trace_close
  refine ⟨⟨h.accounting.close, by simp [hinactive], ?_⟩, by simp [hinactive]⟩
  rw [htrace, ledger_append_of_isSilent]
  . exact h.intact
  . intro e hmem
    obtain ⟨fd, rfl⟩ := hevents e hmem
    rfl

theorem Flawless.serve (h : w.Flawless) (henv : env.NoShortWrites) : (w.serve env).Flawless := by
  unfold World.serve
  split
  . next hactive =>
    have hsafe := (h.delivered hactive).processRequest h.accounting henv
    have hcounted := h.accounting.processRequest env
    have hconnected := h.connected hactive
    rw [← w.clientSocket_processRequest env] at hconnected
    have hsound : (w.processRequest env).2.Sound := ⟨hcounted, fun _ => hconnected, hsafe.intact⟩
    split
    . next w' heq =>
      rw [heq] at hsafe hsound
      exact ⟨hsound, fun _ => hsafe.delivered rfl⟩
    . next w' _ heq =>
      rw [heq] at hsound
      exact hsound.close
  . exact h

theorem Flawless.of_fresh (hfresh : w.Fresh) : w.Flawless where
  accounting := .of_fresh hfresh
  connected := fun _ => hfresh.socket
  intact := by
    rw [hfresh.noTrace]
    exact ⟨[], List.nil_prefix, rfl⟩
  delivered := by
    intro
    constructor
    . intro
      rw [hfresh.noTrace]
      rfl
    . intro rest hsending
      simp [hfresh.idle] at hsending

/--
In the runs whose writes are never short the client has been delivered exactly the responses and
files that count as written, and a part of the file that is being sent.
-/
theorem ledger_intact {actions : List Action} (hfresh : w.Fresh)
    (hrun : (workerStep.restrict fun _ action => ∀ env, action = .request env → env.NoShortWrites).Run w
      actions w')
    : (ledger w'.trace).Intact := by
  have hflawless : w'.Flawless := by
    refine hrun.invariant (.of_fresh hfresh) ?_
    rintro s action s' h ⟨henv, hstep⟩
    cases hstep
    cases action with
    | request env => exact h.serve (henv env rfl)
    | close => exact h.close
  exact hflawless.intact

/--
A session that answers a request and is closed.
-/
theorem ledger_intact_stat
    : (ledger (workerAct .close (workerAct (.request { recv := some (bytes "STAT m f\n") })
        (single none [(fileName, .file (bytes "abc"))]))).trace).Intact := by
  refine ledger_intact (fresh_single _ _) (.snoc (.single ⟨?_, rfl⟩) ⟨by simp, rfl⟩)
  rintro env h i n k hk
  obtain rfl := Action.request.inj h
  exact (Option.some.inj hk).le

/--
A response of which one byte was delivered counts as written.
-/
theorem not_intact_stat
    : ∃ w, workerStep.Run (single none [(fileName, .file (bytes "abc"))])
          [.request { recv := some (bytes "STAT m f\n"), send := fun _ _ => some 1 }] w
        ∧ ¬(ledger w.trace).Intact := by
  refine ⟨_, .single rfl, fun hintact => ?_⟩
  exact absurd hintact.reported_isPrefix (by decide +kernel)

end World
end SimpleRsyncd
