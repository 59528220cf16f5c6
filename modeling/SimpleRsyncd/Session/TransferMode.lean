import SimpleRsyncd.Session.Framing
import SimpleRsyncd.Session.Invariant

/-!
This module relates the transfer state of a session to its two file streams: which of them is open
tells the state, and the other way round. A transfer starts only while both are closed.
-/

namespace SimpleRsyncd

/--
The transfer state and the streams tell the same, and an idle session has counted nothing.
-/
structure Session.ModeFits (s : Session) : Prop where
  sending : s.transferState = .sendingFile ↔ s.downloadFile.isSome = true ∧ s.uploadFile = none
  receiving : s.transferState = .receivingFile ↔ s.uploadFile.isSome = true ∧ s.downloadFile = none
  idle : s.transferState = .idle ↔ s.uploadFile = none ∧ s.downloadFile = none
  counters : s.transferState = .idle → s.transferBytesRemaining = 0 ∧ s.transferBytesSent = 0

theorem Session.Consistent.modeFits {s : Session} (h : s.Consistent) : s.ModeFits := by
  unfold Session.Consistent at h
  cases hstate : s.transferState with
  | idle =>
    simp only [hstate] at h
    obtain ⟨hupload, hdownload, hcounters⟩ := h
    constructor <;> simp [hstate, hupload, hdownload, hcounters]
  | receivingFile =>
    simp only [hstate] at h
    obtain ⟨hupload, hdownload⟩ := h
    have hopen : s.uploadFile ≠ none := Option.isSome_iff_ne_none.mp hupload
    constructor <;> simp [hstate, hupload, hdownload, hopen]
  | sendingFile =>
    simp only [hstate] at h
    obtain ⟨hupload, hdownload⟩ := h
    have hopen : s.downloadFile ≠ none := Option.isSome_iff_ne_none.mp hdownload
    constructor <;> simp [hstate, hupload, hdownload, hopen]

namespace World

variable (env : Env) (w : World)

/--
What is added to a trace starts no transfer.
-/
def Continues (w w' : World) : Prop :=
  ∃ events, w'.trace = w.trace ++ events ∧ ∀ e ∈ events, e.startsTransfer = false

namespace Continues

variable {w w' w'' : World}

theorem of_trace_eq (h : w'.trace = w.trace) : Continues w w' :=
  ⟨[], by simp [h], by simp⟩

theorem trans (h : Continues w w') (h' : Continues w' w'') : Continues w w'' := by
  obtain ⟨events, htrace, hevents⟩ := h
  obtain ⟨events', htrace', hevents'⟩ := h'
  refine ⟨events ++ events', by rw [htrace', htrace, List.append_assoc], ?_⟩
  intro e hmem
  cases List.mem_append.mp hmem with
  | inl hmem => exact hevents e hmem
  | inr hmem => exact hevents' e hmem

end Continues

theorem continues_writeResponse (send : Nat → Option Nat) (response : Bytes)
    : Continues w (w.writeResponse send response).2 := by
  rcases w.writeResponse_cases send response with h | ⟨k, -, h⟩
  . exact .of_trace_eq (by rw [h])
  . rw [h]
    exact ⟨[.response response (k + 1)], rfl, by simp [Event.startsTransfer]⟩

theorem continues_sendChunk : Continues w (w.sendChunk env).2 := by
  unfold sendChunk
  split
  . exact .of_trace_eq rfl
  . split
    . exact .of_trace_eq rfl
    . next k _ =>
      have hchunk : Continues w (w.afterChunk k) :=
        ⟨[.data w.nextChunk k], rfl, by simp [Event.startsTransfer]⟩
      dsimp only
      split
      . have hcompleted : Continues (w.afterChunk k) ((w.afterChunk k).endFileTransfer.log [.completed]) :=
          ⟨[.completed], rfl, by simp [Event.startsTransfer]⟩
        exact (hchunk.trans hcompleted).trans (continues_writeResponse _ _ _)
      . exact hchunk

theorem continues_receiveChunk : Continues w (w.receiveChunk env).2 := by
  unfold receiveChunk
  dsimp only
  split
  . exact .of_trace_eq rfl
  . split
    . exact .of_trace_eq rfl
    . exact (Continues.of_trace_eq rfl).trans (continues_writeResponse _ _ _)
  . exact .of_trace_eq rfl

theorem continues_continueFileTransfer : Continues w (w.continueFileTransfer env).2 := by
  unfold continueFileTransfer
  split
  . exact w.continues_sendChunk env
  . exact w.continues_receiveChunk env
  . exact .of_trace_eq rfl

/--
A request that comes in during a transfer starts no other one.
-/
theorem continues_processRequest (h : w.session.transferState ≠ .idle)
    : Continues w (w.processRequest env).2 := by
  unfold processRequest
  split
  . exact .of_trace_eq rfl
  . exact w.continues_continueFileTransfer env

/--
In every state of every run the transfer state fits the open files, and the next request can start a
transfer only if the session is idle.
-/
theorem modeFits_of_run {w w' : World} {actions : List Action} (hfresh : w.Fresh)
    (hrun : step.Run w actions w')
    : w'.session.ModeFits
        ∧ ∀ env, (∃ e ∈ (w'.processRequest env).2.trace.drop w'.trace.length, e.startsTransfer = true) →
          w'.session.transferState = .idle := by
  refine ⟨(Orderly.of_run hfresh hrun).consistent.modeFits, ?_⟩
  rintro env ⟨e, hmem, hstarts⟩
  by_contra hbusy
  obtain ⟨events, htrace, hevents⟩ := w'.continues_processRequest env hbusy
  rw [htrace, List.drop_left] at hmem
  rw [hevents e hmem] at hstarts
  contradiction

theorem step_read (segment : Bytes) (w : World) : step w (.request { recv := some segment }) (w.read segment) :=
  rfl

/--
A session that waits for the data of an upload.
-/
theorem modeFits_single_put
    : ((single none []).read (bytes "PUT m f\n")).session.transferState = .receivingFile
      ∧ ((single none []).read (bytes "PUT m f\n")).session.ModeFits :=
  ⟨by decide, (modeFits_of_run (fresh_single none _) (.single (step_read _ _))).1⟩

end World
end SimpleRsyncd
