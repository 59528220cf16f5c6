import SimpleRsyncd.Session.Lemmas

/-!
This module contains the authentication gate: whether a request can reach `ProtocolHandler::handle`
before the `AuthenticationManager` accepted a user. Only the method `public_key` has such a gate.
-/

namespace SimpleRsyncd

/--
The requests that touch a module.
-/
def ProtocolCommand.needsModule : ProtocolCommand → Bool
  | .list | .get | .put | .delete | .stat => true
  | .auth | .unknown => false

/--
Every request that touches a module was handled after some user had been accepted.
-/
def Gated : List Event → Prop :=
  Along fun before e =>
    ∀ message, e = .handled message → message.command.needsModule → ∃ user, .accepted user ∈ before

theorem gated_append {trace events : List Event} (h : Gated trace)
    (hevents : ∀ e ∈ events, e.isTransfer = true)
    : Gated (trace ++ events) := by
  apply h.append
  rintro _ hmem before message rfl
  simpa [Event.isTransfer] using hevents _ hmem

namespace World

/--
What the gate of the method `public_key` maintains.
-/
structure KeyGate (w : World) : Prop where
  config : ∃ config, w.session.config = some config ∧ config.enabled = true
    ∧ config.method = bytes "public_key"
  user : w.session.authenticatedUser ≠ [] → ∃ user, .accepted user ∈ w.trace
  gated : Gated w.trace

theorem KeyGate.append {w w' : World} (h : w.KeyGate) (hconfig : w'.session.config = w.session.config)
    (huser : w'.session.authenticatedUser = w.session.authenticatedUser)
    (htrace : ∃ events, w'.trace = w.trace ++ events ∧ ∀ e ∈ events, e.isTransfer = true)
    : w'.KeyGate := by
  obtain ⟨events, htrace, hevents⟩ := htrace
  constructor
  . rw [hconfig]
    exact h.config
  . intro hne
    obtain ⟨user, hmem⟩ := h.user (by rwa [huser] at hne)
    exact ⟨user, by rw [htrace]; exact List.mem_append_left _ hmem⟩
  . rw [htrace]
    exact gated_append h.gated hevents

theorem KeyGate.of_quiet {w w' : World} (h : w.KeyGate) (hquiet : Quiet w w') : w'.KeyGate :=
  h.append hquiet.config hquiet.user hquiet.trace

theorem KeyGate.close {w : World} (h : w.KeyGate) : w.close.KeyGate := by
  have hsame : w.close.session.config = w.session.config
      ∧ w.close.session.authenticatedUser = w.session.authenticatedUser := by
    unfold World.close
    repeat' split
    all_goals exact ⟨rfl, rfl⟩
  obtain ⟨events, htrace, hevents⟩ := w.trace_close
  refine h.append hsame.1 hsame.2 ⟨events, htrace, ?_⟩
  intro e hmem
  obtain ⟨fd, rfl⟩ := hevents e hmem
  rfl

theorem KeyGate.acceptUser {w : World} (h : w.KeyGate) (user : Bytes) : (w.acceptUser user).KeyGate where
  config := h.config
  user := fun _ => ⟨user, by simp [World.acceptUser]⟩
  gated := h.gated.concat (by simp)

theorem KeyGate.handlePublicKey {w : World} (h : w.KeyGate) (env : Env) (message : ProtocolMessage)
    : (w.handlePublicKey env message).2.KeyGate := by
  unfold World.handlePublicKey
  repeat' split
  all_goals first | exact h | exact h.acceptUser _

theorem KeyGate.handleAuthMessage {w : World} (h : w.KeyGate) (env : Env) (message : ProtocolMessage)
    : (w.handleAuthMessage env message).2.KeyGate := by
  obtain ⟨config, hconfig, henabled, hmethod⟩ := h.config
  simp only [World.handleAuthMessage, hconfig, henabled, hmethod, Bool.not_true, Bool.false_eq_true,
    ↓reduceIte]
  exact h.handlePublicKey env message

theorem KeyGate.setModule {w : World} (h : w.KeyGate) (message : ProtocolMessage)
    : (w.setModule message).KeyGate := by
  unfold World.setModule
  split
  . exact h
  . exact ⟨h.config, h.user, h.gated⟩

theorem KeyGate.received {w : World} (h : w.KeyGate) (message : ProtocolMessage)
    : (w.log [.received message]).KeyGate := by
  refine ⟨h.config, ?_, h.gated.concat (by simp)⟩
  intro hne
  obtain ⟨user, hmem⟩ := h.user hne
  exact ⟨user, List.mem_append_left _ hmem⟩

theorem KeyGate.handleProtocolMessage {w : World} (h : w.KeyGate) (env : Env)
    (message : ProtocolMessage)
    : (w.handleProtocolMessage env message).2.KeyGate := by
  have hset := (h.received message).setModule message
  unfold World.handleProtocolMessage
  generalize (w.log [.received message]).setModule message = w' at hset ⊢
  dsimp only
  split
  . exact hset
  . next hwaits =>
    split
    . exact hset.handleAuthMessage env message
    . next hauth =>
      -- past the gate somebody is logged in
      obtain ⟨config, hconfig, henabled, hmethod⟩ := hset.config
      have hne : w'.session.authenticatedUser ≠ [] := by
        simpa [Session.awaitsKey, hconfig, henabled, hmethod, hauth] using hwaits
      obtain ⟨user, hmem⟩ := hset.user hne
      refine ⟨hset.config, ?_, ?_⟩
      . intro
        exact ⟨user, List.mem_append_left _ hmem⟩
      . exact hset.gated.concat fun _ _ _ => ⟨user, hmem⟩

theorem KeyGate.processMessage {w : World} (h : w.KeyGate) (env : Env) (request : Bytes)
    : (w.processMessage env request).2.KeyGate := by
  cases hvalid : (ProtocolParser.parse request).valid with
  | true => exact (h.handleProtocolMessage env _).of_quiet (w.quiet_processMessage env hvalid)
  | false =>
    obtain ⟨response, hrespond⟩ := w.processMessage_of_not_valid env hvalid
    rw [hrespond]
    exact h.of_quiet (w.quiet_respond _ _)

theorem KeyGate.processRequest {w : World} (h : w.KeyGate) (env : Env)
    : (w.processRequest env).2.KeyGate := by
  unfold World.processRequest
  split
  . exact h
  . split
    . exact h.of_quiet (w.quiet_continueFileTransfer env)
    . have hread := h.of_quiet (w.quiet_readSocket env.recv requestSize)
      dsimp only
      split
      . exact ⟨hread.config, hread.user, hread.gated⟩
      . exact ⟨hread.config, hread.user, hread.gated⟩
      . exact hread.processMessage env _

theorem KeyGate.step {w w' : World} {action : Action} (h : w.KeyGate) (hstep : step w action w')
    : w'.KeyGate := by
  cases hstep
  cases action with
  | request env => exact h.processRequest env
  | close => exact h.close

/--
The request that shows that another method has no gate.
-/
def listRequest : Env := { recv := some (bytes "LIST m\n") }

theorem trace_listRequest {w : World} (hfresh : w.Fresh) {config : AuthConfig}
    (hconfig : w.session.config = some config) (hmethod : config.method ≠ bytes "public_key")
    : ∃ events, (w.processRequest listRequest).2.trace
        =
      [.received (ProtocolParser.parse (bytes "LIST m\n"))]
        ++ .handled (ProtocolParser.parse (bytes "LIST m\n")) :: events := by
  have hread : w.session.readSocket listRequest.recv requestSize
      = (some (bytes "LIST m\n"), w.session) := by
    have hsocket : ¬w.session.clientSocket < 0 := by
      have := hfresh.socket
      omega
    have htake : (bytes "LIST m\n").take requestSize = bytes "LIST m\n" := by decide
    have hne : bytes "LIST m\n" ≠ [] := by decide
    simp [Session.readSocket, listRequest, hsocket, htake, hne]
  have hstart : w.processRequest listRequest = w.processMessage listRequest (bytes "LIST m\n") :=
    processRequest_of_read _ _ hfresh.active hfresh.idle hread (by decide)
  have hvalid : (ProtocolParser.parse (bytes "LIST m\n")).valid = true := by decide
  have hopen : ((w.log [.received (ProtocolParser.parse (bytes "LIST m\n"))]).setModule
      (ProtocolParser.parse (bytes "LIST m\n"))).session.awaitsKey = false := by
    unfold setModule
    split <;> simp [Session.awaitsKey, log, hconfig, hmethod]
  obtain ⟨events, htrace, -⟩ := (w.quiet_processMessage listRequest hvalid).trace
  refine ⟨events, ?_⟩
  rw [hstart, htrace, w.trace_handleProtocolMessage_of_not_awaitsKey _ hopen (by decide), hfresh.noTrace]
  simp

theorem not_gated_listRequest {w : World} (hfresh : w.Fresh) {config : AuthConfig}
    (hconfig : w.session.config = some config) (hmethod : config.method ≠ bytes "public_key")
    : ¬Gated (w.processRequest listRequest).2.trace := by
  obtain ⟨events, htrace⟩ := trace_listRequest hfresh hconfig hmethod
  intro hgated
  obtain ⟨user, hmem⟩ := hgated _ _ _ htrace _ rfl (by decide)
  simp at hmem

theorem KeyGate.of_fresh {w : World} (hfresh : w.Fresh) {config : AuthConfig}
    (hconfig : w.session.config = some config) (henabled : config.enabled = true)
    (hmethod : config.method = bytes "public_key")
    : w.KeyGate where
  config := ⟨config, hconfig, henabled, hmethod⟩
  user := fun hne => absurd hfresh.noUser hne
  gated := by
    rw [hfresh.noTrace]
    exact .nil

/--
With authentication enabled, exactly the method `public_key` keeps every request of every run away
from the modules until a user was accepted.
-/
theorem gated_iff_method {w : World} {config : AuthConfig} (hfresh : w.Fresh)
    (hconfig : w.session.config = some config) (henabled : config.enabled = true)
    (_hanonymous : config.anonymousAccess = false)
    : (∀ actions w', step.Run w actions w' → Gated w'.trace) ↔ config.method = bytes "public_key" := by
  constructor
  . intro hgated
    by_contra hmethod
    have hrun : step.Run w [.request listRequest] (w.processRequest listRequest).2 := .single rfl
    exact not_gated_listRequest hfresh hconfig hmethod (hgated _ _ hrun)
  . intro hmethod actions w' hrun
    have hgate : w'.KeyGate :=
      hrun.invariant (.of_fresh hfresh hconfig henabled hmethod) fun _ _ _ h hstep => h.step hstep
    exact hgate.gated

theorem gated_single_public_key
    : Gated ((single (some { enabled := true, method := bytes "public_key" }) []).processRequest
        listRequest).2.trace :=
  (gated_iff_method (fresh_single _ _) rfl rfl rfl).mpr rfl [.request listRequest] _ (.single rfl)

/--
With the default method `password` the first message of a session is handled as it is.
-/
theorem not_gated_single_password
    : ∃ actions w', step.Run (single (some { enabled := true, method := bytes "password" }) []) actions w'
      ∧ ¬Gated w'.trace :=
  ⟨[.request listRequest], _, .single rfl, not_gated_listRequest (fresh_single _ _) rfl (by decide)⟩

end World
end SimpleRsyncd
