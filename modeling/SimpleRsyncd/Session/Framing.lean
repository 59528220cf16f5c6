import SimpleRsyncd.Session.Lemmas

/-!
This module determines which messages a session receives. The bytes of one `recv` are taken as one
message and nothing is kept for the next one, so the messages depend on how a stream of requests is
cut into segments.
-/

namespace SimpleRsyncd

open ProtocolParser

/--
The messages handed to `handleProtocolMessage`, in order.
-/
def receivedMessages (trace : List Event) : List ProtocolMessage :=
  trace.filterMap fun
    | .received message => some message
    | _ => none

@[simp]
theorem receivedMessages_append (trace events : List Event)
    : receivedMessages (trace ++ events) = receivedMessages trace ++ receivedMessages events := by
  simp [receivedMessages]

theorem receivedMessages_eq_nil {events : List Event} (h : ∀ message, .received message ∉ events)
    : receivedMessages events = [] := by
  simp only [receivedMessages, List.filterMap_eq_nil_iff]
  intro e he
  cases e with
  | received message => exact absurd he (h message)
  | _ => rfl

theorem receivedMessages_of_isTransfer {events : List Event} (h : ∀ e ∈ events, e.isTransfer = true)
    : receivedMessages events = [] := by
  apply receivedMessages_eq_nil
  intro message hmem
  have := h _ hmem
  simp [Event.isTransfer] at this

/--
Events that put a session into one of the two transfer states.
-/
def Event.startsTransfer : Event → Bool
  | .receiving | .sending _ _ => true
  | _ => false

/--
What one segment contributes: its message, unless that is invalid.
-/
def segmentMessages (segment : Bytes) : List ProtocolMessage :=
  [parse segment].filter (·.valid)

namespace World

variable (env : Env) (w : World)

theorem receivedMessages_of_quiet {w w' : World} (h : Quiet w w')
    : receivedMessages w'.trace = receivedMessages w.trace := by
  obtain ⟨events, htrace, hevents⟩ := h.trace
  rw [htrace, receivedMessages_append, receivedMessages_of_isTransfer hevents, List.append_nil]

theorem receivedMessages_handleProtocolMessage (message : ProtocolMessage)
    : receivedMessages (w.handleProtocolMessage env message).2.trace
        =
      receivedMessages w.trace ++ [message] := by
  obtain ⟨events, htrace, hevents⟩ := w.trace_handleProtocolMessage env message
  have hnone : receivedMessages events = [] := by
    apply receivedMessages_eq_nil
    intro message' hmem
    simpa using hevents _ hmem
  rw [htrace, receivedMessages_append]
  change _ ++ message :: receivedMessages events = _
  rw [hnone]

theorem receivedMessages_processMessage (request : Bytes)
    : receivedMessages (w.processMessage env request).2.trace
        =
      receivedMessages w.trace ++ segmentMessages request := by
  cases hvalid : (parse request).valid with
  | true =>
    rw [receivedMessages_of_quiet (w.quiet_processMessage env hvalid),
      receivedMessages_handleProtocolMessage]
    simp [segmentMessages, hvalid]
  | false =>
    obtain ⟨response, hrespond⟩ := w.processMessage_of_not_valid env hvalid
    rw [hrespond, receivedMessages_of_quiet (w.quiet_respond _ _)]
    simp [segmentMessages, hvalid]

theorem startsTransfer_startFileDownload {moduleName path : Bytes} {w' : World}
    (h : w.startFileDownload env moduleName path = (.ok true, w'))
    : ∃ e ∈ w'.trace, e.startsTransfer = true := by
  rcases w.startFileDownload_cases env moduleName path with ⟨_, content, size, -, -, heq⟩ | ⟨hne, -⟩
  . rw [h] at heq
    obtain rfl := (Prod.mk.inj heq).2
    exact ⟨.sending content size, by simp [beginSending], rfl⟩
  . simp [h] at hne

theorem startsTransfer_startFileUpload {moduleName path : Bytes} {w' : World}
    (h : w.startFileUpload env moduleName path = (.ok true, w'))
    : ∃ e ∈ w'.trace, e.startsTransfer = true := by
  rcases w.startFileUpload_cases env moduleName path with ⟨_, _, _, _, -, -, -, heq⟩ | ⟨hne, -⟩
  . rw [h] at heq
    obtain rfl := (Prod.mk.inj heq).2
    exact ⟨.receiving, by simp [beginReceiving], rfl⟩
  . simp [h] at hne

theorem startsTransfer_of_quiet {w w' : World} (hquiet : Quiet w w')
    (h : ∃ e ∈ w.trace, e.startsTransfer = true)
    : ∃ e ∈ w'.trace, e.startsTransfer = true := by
  obtain ⟨events, htrace, -⟩ := hquiet.trace
  obtain ⟨e, hmem, he⟩ := h
  exact ⟨e, by rw [htrace]; exact List.mem_append_left _ hmem, he⟩

/--
A request leaves the session as ready as it was or starts a transfer.
-/
theorem finishRequest_rests_or_starts (message : ProtocolMessage) (response : Bytes)
    : Rests w (w.finishRequest env message response).2
        ∨ ∃ e ∈ (w.finishRequest env message response).2.trace, e.startsTransfer = true := by
  have hcases := w.finishRequest_cases env message response
  generalize w.finishRequest env message response = result at hcases ⊢
  cases hcases with
  | throws h => exact .inl h.rests
  | responds h => exact .inl (h.rests.trans (rests_respond _ _ _))
  | downloads _ h =>
    have hstarts := w.startsTransfer_startFileDownload env h
    exact .inr (startsTransfer_of_quiet (quiet_continueFileTransfer _ _) hstarts)
  | uploads _ h =>
    have hstarts := w.startsTransfer_startFileUpload env h
    exact .inr (startsTransfer_of_quiet (quiet_announceUpload _ _ _) hstarts)

theorem processMessage_rests_or_starts (request : Bytes)
    : Rests w (w.processMessage env request).2
        ∨ ∃ e ∈ (w.processMessage env request).2.trace, e.startsTransfer = true := by
  have hhandled := w.rests_handleProtocolMessage env (parse request)
  unfold processMessage
  dsimp only
  split
  . exact .inl (w.rests_respond _ _)
  . split
    . next heq =>
      rw [heq] at hhandled
      exact .inl hhandled
    . next w' heq =>
      rw [heq] at hhandled
      cases w'.finishRequest_rests_or_starts env (parse request) _ with
      | inl hrests => exact .inl (hhandled.trans hrests)
      | inr hstarts => exact .inr hstarts

/--
One `recv` of a waiting session.
-/
theorem Waiting.processRequest {w : World} (h : w.Waiting) {env : Env} {segment : Bytes}
    (hrecv : env.recv = some segment) (hne : segment ≠ []) (hlength : segment.length ≤ requestSize)
    (hstarts : ∀ e ∈ (w.processRequest env).2.trace, e.startsTransfer = false)
    : (w.processRequest env).2.Waiting
        ∧ receivedMessages (w.processRequest env).2.trace
          =
        receivedMessages w.trace ++ segmentMessages segment := by
  have hread : w.session.readSocket env.recv requestSize = (some segment, w.session) := by
    rw [hrecv]
    exact h.readSocket hne hlength
  have hprocess : w.processRequest env = w.processMessage env segment :=
    w.processRequest_of_read env h.active h.idle hread hne
  rw [hprocess] at hstarts ⊢
  refine ⟨?_, w.receivedMessages_processMessage env segment⟩
  cases w.processMessage_rests_or_starts env segment with
  | inl hrests => exact h.of_rests hrests
  | inr hsome =>
    obtain ⟨e, hmem, he⟩ := hsome
    simp [hstarts e hmem] at he

/--
One call of `processRequest` whose `recv` returns the given segment of the stream.
-/
def segmentStep : Transition World Bytes :=
  fun w segment w' =>
    segment ≠ [] ∧ segment.length ≤ requestSize
      ∧ ∃ env : Env, env.recv = some segment ∧ (w.processRequest env).2 = w'

theorem Waiting.run {w w' : World} (h : w.Waiting) {segments : List Bytes}
    (hrun : segmentStep.Run w segments w') (hstarts : ∀ e ∈ w'.trace, e.startsTransfer = false)
    : w'.Waiting
        ∧ receivedMessages w'.trace
          =
        receivedMessages w.trace ++ segments.flatMap segmentMessages := by
  induction hrun with
  | nil => exact ⟨h, by simp⟩
  | snoc _ hstep ih =>
    obtain ⟨hne, hlength, env, hrecv, rfl⟩ := hstep
    obtain ⟨hwaiting, hmessages⟩ :=
      ih fun e hmem => hstarts e ((trace_processRequest env _).subset hmem)
    obtain ⟨hwaiting', hmessages'⟩ := hwaiting.processRequest hrecv hne hlength hstarts
    exact ⟨hwaiting', by simp [hmessages', hmessages]⟩

theorem flatMap_segmentMessages {segments : List Bytes}
    (h : ∀ segment ∈ segments, (parse segment).valid = true)
    : segments.flatMap segmentMessages = segments.map parse := by
  rw [List.map_eq_flatMap]
  apply List.flatMap_congr
  intro segment hmem
  simp [segmentMessages, h segment hmem]

/--
Every segment is one message: the messages received are those of the valid segments, in order. If
every segment is one request, then every request is received exactly once.
-/
theorem receivedMessages_eq_segments {w w' : World} {segments : List Bytes} (hfresh : w.Fresh)
    (hrun : segmentStep.Run w segments w') (hstarts : ∀ e ∈ w'.trace, e.startsTransfer = false)
    : receivedMessages w'.trace = segments.flatMap segmentMessages
        ∧ ((∀ segment ∈ segments, (parse segment).valid = true) →
          receivedMessages w'.trace = segments.map parse) := by
  obtain ⟨-, hmessages⟩ := (Waiting.of_fresh hfresh).run hrun hstarts
  rw [hmessages, hfresh.noTrace]
  exact ⟨rfl, flatMap_segmentMessages⟩

/--
A call of `processRequest` with nothing unusual but the segment read.
-/
def read (segment : Bytes) (w : World) : World :=
  (w.processRequest { recv := some segment }).2

theorem segmentStep_read {segment : Bytes} (hne : segment ≠ []) (hlength : segment.length ≤ requestSize)
    (w : World)
    : segmentStep w segment (w.read segment) :=
  ⟨hne, hlength, _, rfl, rfl⟩

theorem receivedMessages_single_lines
    : receivedMessages (((single none []).read (bytes "STAT m f\n")).read (bytes "LIST m\n")).trace
        =
      [parse (bytes "STAT m f\n"), parse (bytes "LIST m\n")] :=
  (receivedMessages_eq_segments (fresh_single _ _)
    (.snoc (.single (segmentStep_read (by decide) (by decide) _))
      (segmentStep_read (by decide) (by decide) _))
    (by decide +kernel)).2 (by decide)

/--
Two requests in one segment: the second one is lost.
-/
theorem receivedMessages_single_segment
    : ∃ w w', segmentStep.Run (single none []) [bytes "STAT m f\nLIST m\n"] w
        ∧ segmentStep.Run (single none []) [bytes "STAT m f\n", bytes "LIST m\n"] w'
        ∧ (∀ e ∈ w.trace ++ w'.trace, e.startsTransfer = false)
        ∧ receivedMessages w.trace ≠ receivedMessages w'.trace :=
  ⟨_, _, .single (segmentStep_read (by decide) (by decide) _),
    .snoc (.single (segmentStep_read (by decide) (by decide) _))
      (segmentStep_read (by decide) (by decide) _),
    by decide +kernel, by decide +kernel⟩

end World
end SimpleRsyncd
