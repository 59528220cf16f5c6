import SimpleRsyncd.Session.Ledger

/-!
This module contains the accounting of downloads: whatever the socket does, the two counters of a
session add up to the size of the file, and a download counts as complete only if it is. A short
write loses data, and then the counters never reach the end.
-/

namespace SimpleRsyncd

/--
The end of a download is claimed only after exactly the content of its file.
-/
def CompletesHonestly : List Event → Prop :=
  Along fun before e =>
    ∀ k, e = .response transferComplete k → (ledger before).sent = (ledger before).content

namespace World

/--
What holds while a file is sent: `rest` is what can still be read from it.
-/
structure Sending (w : World) (rest : Bytes) : Prop where
  file : w.session.downloadFile = some rest
  honest : Transmission.Honest (ledger w.trace).content { rest, delivered := (ledger w.trace).sent }
  sent : w.session.transferBytesSent = (ledger w.trace).sent.length
  sum : w.session.transferBytesSent + w.session.transferBytesRemaining = (ledger w.trace).size
  size : (ledger w.trace).size = (ledger w.trace).content.length

structure Accounting (w : World) : Prop where
  closed : w.session.transferState ≠ .sendingFile → w.session.downloadFile = none
  sending : w.session.transferState = .sendingFile → ∃ rest, w.Sending rest
  complete : CompletesHonestly w.trace

namespace Accounting

variable {w w' : World} {env : Env}

/--
Steps that neither touch the download nor record anything about it.
-/
theorem of_same (h : w.Accounting) (hstate : w'.session.transferState = w.session.transferState)
    (hfile : w'.session.downloadFile = w.session.downloadFile)
    (hsent : w'.session.transferBytesSent = w.session.transferBytesSent)
    (hremaining : w'.session.transferBytesRemaining = w.session.transferBytesRemaining)
    (htrace : ∃ events, w'.trace = w.trace ++ events ∧ ∀ e ∈ events, e.isSilent = true)
    : w'.Accounting := by
  obtain ⟨events, htrace, hsilent⟩ := htrace
  have hledger : ledger w'.trace = ledger w.trace := by
    rw [htrace, ledger_append_of_isSilent hsilent]
  constructor
  . rw [hstate, hfile]
    exact h.closed
  . rw [hstate]
    intro hsending
    obtain ⟨rest, hrest⟩ := h.sending hsending
    refine ⟨rest, ?_, ?_, ?_, ?_, ?_⟩
    . rw [hfile, hrest.file]
    . rw [hledger]
      exact hrest.honest
    . rw [hsent, hledger, hrest.sent]
    . rw [hsent, hremaining, hledger, hrest.sum]
    . rw [hledger, hrest.size]
  . rw [htrace]
    apply h.complete.append
    rintro _ hmem before k rfl
    simpa [Event.isSilent] using hsilent _ hmem

theorem of_rests (h : w.Accounting) (hrests : Rests w w')
    (htrace : ∃ events, w'.trace = w.trace ++ events ∧ ∀ e ∈ events, e.isSilent = true)
    : w'.Accounting :=
  h.of_same hrests.transferState hrests.downloadFile hrests.transferBytesSent
    hrests.transferBytesRemaining htrace

theorem of_attempted (h : w.Accounting) (hattempted : Attempted w w') : w'.Accounting := by
  obtain ⟨made, htrace⟩ := hattempted.trace
  exact h.of_rests hattempted.rests ⟨_, htrace, by simp [Event.isSilent]⟩

theorem handleProtocolMessage (h : w.Accounting) (env : Env) (message : ProtocolMessage)
    : (w.handleProtocolMessage env message).2.Accounting := by
  obtain ⟨events, htrace, hevents⟩ := w.trace_handleProtocolMessage env message
  refine h.of_rests (w.rests_handleProtocolMessage env message) ⟨_, htrace, ?_⟩
  rintro e (_ | ⟨_, hmem⟩)
  . rfl
  . rcases hevents e hmem with rfl | rfl <;> rfl

/--
A response that claims the end of a download needs a download that was sent in full.
-/
theorem writeResponse (h : w.Accounting) {send : Nat → Option Nat} {response : Bytes}
    (hresponse : response = transferComplete → (ledger w.trace).sent = (ledger w.trace).content)
    : (w.writeResponse send response).2.Accounting := by
  rcases w.writeResponse_cases send response with heq | ⟨k, -, heq⟩
  . rw [heq]
    exact h
  . rw [heq]
    refine ⟨h.closed, ?_, ?_⟩
    . intro hsending
      obtain ⟨rest, hrest⟩ := h.sending hsending
      exact ⟨rest, hrest.file, by simpa [log] using hrest.honest, by simpa [log] using hrest.sent,
        by simpa [log] using hrest.sum, by simpa [log] using hrest.size⟩
    . apply h.complete.concat
      intro k' hk'
      simp only [Event.response.injEq] at hk'
      exact hresponse hk'.1

theorem respond (h : w.Accounting) {send : Nat → Option Nat} {response : Bytes}
    (hresponse : response ≠ transferComplete)
    : (w.respond send response).2.Accounting :=
  h.writeResponse fun heq => absurd heq hresponse

theorem endFileTransfer (h : w.Accounting) : w.endFileTransfer.Accounting :=
  ⟨fun _ => rfl, by simp [World.endFileTransfer, Session.endFileTransfer], h.complete⟩

theorem beginSending (h : w.Accounting) {content : Bytes} {size : Nat} (hsize : size = content.length)
    : (w.beginSending content size).Accounting := by
  refine ⟨by simp [World.beginSending], ?_, ?_⟩
  . intro
    refine ⟨content, rfl, ?_, ?_, ?_, ?_⟩
    all_goals simp [World.beginSending, Ledger.record, hsize]
    exact .inl Transmission.lossless_start
  . apply h.complete.concat
    simp

/--
One chunk: the position in the file moves by the whole chunk, the counters by what was delivered.
-/
theorem afterChunk (h : w.Accounting) (hsending : w.session.transferState = .sendingFile) {k : Nat}
    (hk : k ≤ w.nextChunk.length)
    : (w.afterChunk k).Accounting := by
  obtain ⟨rest, hrest⟩ := h.sending hsending
  have hchunk : w.nextChunk = rest.take (min chunkSize w.session.transferBytesRemaining) := by
    simp [nextChunk, hrest.file]
  have hremaining : k ≤ w.session.transferBytesRemaining := by
    rw [hchunk, List.length_take] at hk
    omega
  refine ⟨?_, ?_, ?_⟩
  . intro hne
    exact absurd hsending hne
  . intro
    refine ⟨rest.drop (min chunkSize w.session.transferBytesRemaining), ?_, ?_, ?_, ?_, ?_⟩
    . simp [World.afterChunk, hrest.file]
    . have := hrest.honest.chunk (n := min chunkSize w.session.transferBytesRemaining) (k := k)
      simpa [World.afterChunk, Ledger.record, Transmission.chunk, hchunk] using this
    . have := hrest.sent
      simp only [World.afterChunk, ledger_concat, Ledger.record, List.length_append, List.length_take]
      omega
    . have := hrest.sum
      simp only [World.afterChunk, ledger_concat, Ledger.record, sizeSub_of_le hremaining]
      omega
    . simpa [World.afterChunk, Ledger.record] using hrest.size
  . apply h.complete.concat
    simp

/--
If nothing remains to be sent, then everything has been delivered.
-/
theorem sent_eq_content (h : w.Accounting) (hsending : w.session.transferState = .sendingFile)
    (hremaining : w.session.transferBytesRemaining = 0)
    : (ledger w.trace).sent = (ledger w.trace).content := by
  obtain ⟨rest, hrest⟩ := h.sending hsending
  apply hrest.honest.eq_of_length
  have hsum := hrest.sum
  rw [hremaining, hrest.sent, hrest.size] at hsum
  simpa using hsum

theorem sendChunk (h : w.Accounting) (hsending : w.session.transferState = .sendingFile)
    : (w.sendChunk env).2.Accounting := by
  unfold World.sendChunk
  split
  . exact h.endFileTransfer
  . split
    . exact h.endFileTransfer
    . next k hk =>
      have hchunk := h.afterChunk hsending (writeSocket_le hk)
      dsimp only
      split
      . next hremaining =>
        have hsent := hchunk.sent_eq_content hsending hremaining
        have hdone : ((w.afterChunk k).endFileTransfer.log [.completed]).Accounting := by
          refine ⟨fun _ => rfl, by simp [log, World.endFileTransfer, Session.endFileTransfer], ?_⟩
          apply hchunk.complete.concat
          simp
        apply hdone.writeResponse
        intro
        simpa [log, World.endFileTransfer, Ledger.record] using hsent
      . exact hchunk

theorem readSocket (h : w.Accounting) (recv : Option Bytes) (length : Nat)
    : Accounting { w with session := (w.session.readSocket recv length).2 } := by
  obtain ⟨ssl, hssl⟩ := readSocket_frame w.session recv length
  rw [hssl]
  exact h.of_same rfl rfl rfl rfl ⟨[], by simp, by simp⟩

/--
Outside of downloads only the trace counts.
-/
theorem of_not_sending (hstate : w.session.transferState ≠ .sendingFile)
    (hfile : w.session.downloadFile = none) (hcomplete : CompletesHonestly w.trace)
    : w.Accounting :=
  ⟨fun _ => hfile, fun hsending => absurd hsending hstate, hcomplete⟩

theorem receiveChunk (h : w.Accounting) (hreceiving : w.session.transferState = .receivingFile)
    : (w.receiveChunk env).2.Accounting := by
  obtain ⟨ssl, hssl⟩ := readSocket_frame w.session env.recv chunkSize
  have hfile := h.closed (by simp [hreceiving])
  unfold World.receiveChunk
  dsimp only
  split
  . exact .of_not_sending (by simp [World.endFileTransfer, Session.endFileTransfer]) rfl h.complete
  . split
    . exact .of_not_sending (by simp [World.endFileTransfer, Session.endFileTransfer]) rfl h.complete
    . apply writeResponse
      . exact .of_not_sending (by simp [World.endFileTransfer, Session.endFileTransfer]) rfl h.complete
      . intro heq
        exact absurd heq (by decide)
  . rw [hssl]
    exact .of_not_sending (by simp [storeChunk, hreceiving]) hfile h.complete

theorem continueFileTransfer (h : w.Accounting) : (w.continueFileTransfer env).2.Accounting := by
  unfold World.continueFileTransfer
  split
  . next hsending => exact h.sendChunk hsending
  . next hreceiving => exact h.receiveChunk hreceiving
  . exact h

theorem startFileDownload (h : w.Accounting) (hidle : w.session.transferState = .idle)
    {moduleName path : Bytes} {w' : World}
    (hstart : w.startFileDownload env moduleName path = (.ok true, w'))
    : w'.Accounting := by
  rcases w.startFileDownload_cases env moduleName path with
    ⟨m, content, size, -, hopen, heq⟩ | ⟨hne, -⟩
  . rw [hstart] at heq
    obtain rfl := (Prod.mk.inj heq).2
    have hfile := h.closed (by simp [hidle])
    have hname := h.of_attempted (w.attempted_nameTransfer moduleName path)
    exact hname.beginSending (Module.size_of_openFile (read_of_openDownloadFile hfile) hopen)
  . simp [hstart] at hne

theorem append_silent {trace events : List Event} (h : CompletesHonestly trace)
    (hsilent : ∀ e ∈ events, e.isSilent = true)
    : CompletesHonestly (trace ++ events) := by
  apply h.append
  rintro _ hmem before k rfl
  simpa [Event.isSilent] using hsilent _ hmem

theorem startFileUpload (h : w.Accounting) (hidle : w.session.transferState = .idle)
    {moduleName path : Bytes} {w' : World}
    (hstart : w.startFileUpload env moduleName path = (.ok true, w'))
    : w'.Accounting := by
  obtain ⟨hstate, hfile, events, htrace, hsilent⟩ := startFileUpload_silent hstart
  apply of_not_sending
  . simp [hstate]
  . rw [hfile]
    exact h.closed (by simp [hidle])
  . rw [htrace]
    exact append_silent h.complete hsilent

theorem announceUpload (h : w.Accounting) (hreceiving : w.session.transferState = .receivingFile)
    {response : Bytes} (hresponse : response ≠ transferComplete)
    : (w.announceUpload env response).2.Accounting := by
  have hwrite : (w.respond (env.send 0) response).2.Accounting := h.respond hresponse
  have hrests := w.rests_writeResponse (env.send 0) response
  unfold World.announceUpload
  split
  . next w' heq =>
    simp only [World.respond, heq] at hwrite hrests
    apply of_not_sending
    . simp
    . exact hwrite.closed (by simp [hrests.transferState, hreceiving])
    . exact hwrite.complete
  . next w' heq =>
    simp only [World.respond, heq] at hwrite
    exact hwrite.respond hresponse

theorem finishRequest (h : w.Accounting) (hidle : w.session.transferState = .idle)
    {message : ProtocolMessage} {response : Bytes} (hresponse : response ≠ transferComplete)
    : (w.finishRequest env message response).2.Accounting := by
  have hcases := w.finishRequest_cases env message response
  generalize w.finishRequest env message response = result at hcases ⊢
  cases hcases with
  | throws hattempted => exact h.of_attempted hattempted
  | responds hattempted => exact (h.of_attempted hattempted).respond hresponse
  | downloads _ hstart => exact (h.startFileDownload hidle hstart).continueFileTransfer
  | uploads _ hstart =>
    exact (h.startFileUpload hidle hstart).announceUpload (startFileUpload_silent hstart).1 hresponse

theorem processMessage (h : w.Accounting) (hidle : w.session.transferState = .idle) (request : Bytes)
    : (w.processMessage env request).2.Accounting := by
  have hhandled := h.handleProtocolMessage env (ProtocolParser.parse request)
  have hrests := w.rests_handleProtocolMessage env (ProtocolParser.parse request)
  unfold World.processMessage
  dsimp only
  split
  . exact h.respond (hasHead_ne_transferComplete (ProtocolHandler.hasHead_error _ _))
  . split
    . next heq => simpa [heq] using hhandled
    . next response w' heq =>
      rw [heq] at hhandled hrests
      apply hhandled.finishRequest
      . rw [hrests.transferState, hidle]
      . apply hasHead_ne_transferComplete
        exact hasHead_handleProtocolMessage (by rw [heq])

theorem processRequest (h : w.Accounting) (env : Env) : (w.processRequest env).2.Accounting := by
  unfold World.processRequest
  split
  . exact h
  . split
    . exact h.continueFileTransfer
    . next hidle =>
      have hread := h.readSocket env.recv requestSize
      obtain ⟨ssl, hssl⟩ := readSocket_frame w.session env.recv requestSize
      dsimp only
      split
      . exact hread.of_same rfl rfl rfl rfl ⟨[], by simp, by simp⟩
      . exact hread.of_same rfl rfl rfl rfl ⟨[], by simp, by simp⟩
      . apply hread.processMessage
        rw [hssl]
        simpa using hidle

theorem close (h : w.Accounting) : w.close.Accounting := by
  unfold World.close
  split
  . refine h.of_same rfl rfl rfl rfl ⟨_, rfl, ?_⟩
    split <;> simp [Event.isSilent]
  . split
    . exact h.of_same rfl rfl rfl rfl ⟨_, rfl, by simp [Event.isSilent]⟩
    . exact h

theorem step {action : Action} (h : w.Accounting) (hstep : World.step w action w') : w'.Accounting := by
  cases hstep
  cases action with
  | request env => exact h.processRequest env
  | close => exact h.close

theorem of_fresh (hfresh : w.Fresh) : w.Accounting := by
  apply of_not_sending
  . simp [hfresh.idle]
  . exact hfresh.noDownload
  . rw [hfresh.noTrace]
    exact .nil

end Accounting

/--
In every state that sends a file the counters add up to the size recorded for it, so the remaining
count is at most that size. The end of a download is claimed only after exactly its file.
-/
theorem download_accounting {w w' : World} {actions : List Action} (hfresh : w.Fresh)
    (hrun : step.Run w actions w')
    : (w'.session.transferState = .sendingFile →
        w'.session.transferBytesSent + w'.session.transferBytesRemaining = (ledger w'.trace).size
          ∧ w'.session.transferBytesRemaining ≤ (ledger w'.trace).size)
      ∧ ∀ before k after, w'.trace = before ++ .response transferComplete k :: after →
        (ledger before).sent = (ledger before).content := by
  have haccounting : w'.Accounting := hrun.invariant (.of_fresh hfresh) fun _ _ _ h hstep => h.step hstep
  constructor
  . intro hsending
    obtain ⟨rest, hrest⟩ := haccounting.sending hsending
    have hsum := hrest.sum
    omega
  . intro before k after htrace
    exact haccounting.complete before _ after htrace k rfl

/--
A write delivers one of the three bytes of a file.
-/
theorem download_accounting_short
    : let w := act (.request { recv := some (bytes "GET m f\n"), send := fun _ _ => some 1 })
        (single none [(fileName, .file (bytes "abc"))])
      w.session.transferState = .sendingFile
        ∧ w.session.transferBytesSent + w.session.transferBytesRemaining = (ledger w.trace).size := by
  have hsending : (act (.request { recv := some (bytes "GET m f\n"), send := fun _ _ => some 1 })
      (single none [(fileName, .file (bytes "abc"))])).session.transferState = .sendingFile := by
    decide +kernel
  exact ⟨hsending, ((download_accounting (fresh_single _ _) (.single rfl)).1 hsending).1⟩

end World
end SimpleRsyncd
