import SimpleRsyncd.Session.Lemmas

/-!
This module determines when the socket of a session is closed exactly once. A request closes nothing,
and a plain session that has lost its client is no longer closed by anyone.
-/

namespace SimpleRsyncd

def Event.isClosed : Event → Bool
  | .closed _ => true
  | _ => false

namespace World

open ProtocolParser

/--
The destructor of the session, and after it that of its TLS connection.
-/
def destroy (w : World) : World :=
  let w := w.endFileTransfer.close
  match w.session.sslConnection with
  | some c =>
    {
      w with
      session := { w.session with sslConnection := none }
      trace := w.trace ++ if 0 ≤ c.fd then [.closed c.fd] else []
    }
  | none => w

/--
`w'` comes from `w` without closing a descriptor and without giving one up.
-/
structure KeepsOpen (w w' : World) : Prop where
  active : w'.session.active = w.session.active
  clientSocket : w'.session.clientSocket = w.session.clientSocket
  fd : w'.session.sslConnection.map SSLConnection.fd = w.session.sslConnection.map SSLConnection.fd
  trace : ∃ events, w'.trace = w.trace ++ events ∧ ∀ e ∈ events, e.isClosed = false

namespace KeepsOpen

theorem refl (w : World) : KeepsOpen w w := ⟨rfl, rfl, rfl, [], by simp, by simp⟩

theorem trans {w w' w'' : World} (h : KeepsOpen w w') (h' : KeepsOpen w' w'') : KeepsOpen w w'' := by
  obtain ⟨events, htrace, hevents⟩ := h.trace
  obtain ⟨events', htrace', hevents'⟩ := h'.trace
  refine ⟨h'.active.trans h.active, h'.clientSocket.trans h.clientSocket, h'.fd.trans h.fd,
    events ++ events', ?_, ?_⟩
  . rw [htrace', htrace, List.append_assoc]
  . intro e he
    cases List.mem_append.mp he with
    | inl he => exact hevents e he
    | inr he => exact hevents' e he

end KeepsOpen

variable (env : Env) (w : World)

theorem keepsOpen_endFileTransfer : KeepsOpen w w.endFileTransfer :=
  ⟨rfl, rfl, rfl, [], by simp [endFileTransfer], by simp⟩

theorem keepsOpen_writeResponse (send : Nat → Option Nat) (response : Bytes)
    : KeepsOpen w (w.writeResponse send response).2 := by
  rcases w.writeResponse_cases send response with h | ⟨k, -, h⟩
  . rw [h]
    exact .refl w
  . rw [h]
    exact ⟨rfl, rfl, rfl, [.response response (k + 1)], rfl, by simp [Event.isClosed]⟩

theorem keepsOpen_respond (send : Nat → Option Nat) (response : Bytes)
    : KeepsOpen w (w.respond send response).2 :=
  w.keepsOpen_writeResponse send response

theorem keepsOpen_sendChunk : KeepsOpen w (w.sendChunk env).2 := by
  have hchunk : ∀ k, KeepsOpen w (w.afterChunk k) := fun k =>
    ⟨rfl, rfl, rfl, [.data w.nextChunk k], rfl, by simp [Event.isClosed]⟩
  unfold sendChunk
  split
  . exact w.keepsOpen_endFileTransfer
  . split
    . exact w.keepsOpen_endFileTransfer
    . next k _ =>
      dsimp only
      split
      . have hdone : KeepsOpen w ((w.afterChunk k).endFileTransfer.log [.completed]) :=
          (hchunk k).trans ⟨rfl, rfl, rfl, [.completed], rfl, by simp [Event.isClosed]⟩
        exact hdone.trans (keepsOpen_writeResponse _ _ _)
      . exact hchunk k

theorem keepsOpen_readSocket (recv : Option Bytes) (length : Nat)
    : KeepsOpen w { w with session := (w.session.readSocket recv length).2 } := by
  unfold Session.readSocket
  split
  . split
    . refine ⟨rfl, rfl, ?_, [], by simp, by simp⟩
      cases w.session.sslConnection <;> rfl
    . exact .refl w
  . split
    . exact .refl w
    . exact .refl w

theorem keepsOpen_receiveChunk : KeepsOpen w (w.receiveChunk env).2 := by
  have hread := w.keepsOpen_readSocket env.recv chunkSize
  unfold receiveChunk
  dsimp only
  split
  . exact hread.trans (keepsOpen_endFileTransfer _)
  . have hend := hread.trans (keepsOpen_endFileTransfer _)
    split
    . exact hend
    . have hfs : ∀ (w : World) (fs : FileSystem), KeepsOpen w { w with fs } := fun _ _ =>
        ⟨rfl, rfl, rfl, [], by simp, by simp⟩
      exact (hend.trans (hfs _ _)).trans (keepsOpen_writeResponse _ _ _)
  . exact hread.trans ⟨rfl, rfl, rfl, [], by simp [storeChunk], by simp⟩

theorem keepsOpen_continueFileTransfer : KeepsOpen w (w.continueFileTransfer env).2 := by
  unfold continueFileTransfer
  split
  . exact w.keepsOpen_sendChunk env
  . exact w.keepsOpen_receiveChunk env
  . exact .refl w

theorem Attempted.keepsOpen {w w' : World} (h : Attempted w w') : KeepsOpen w w' := by
  obtain ⟨⟨moduleName, path, hsession⟩, made, htrace⟩ := h
  refine ⟨by rw [hsession], by rw [hsession], by rw [hsession], made.map .made, htrace, ?_⟩
  simp [Event.isClosed]

theorem keepsOpen_startFileDownload (moduleName path : Bytes)
    : KeepsOpen w (w.startFileDownload env moduleName path).2 := by
  rcases w.startFileDownload_cases env moduleName path with ⟨_, content, size, -, -, h⟩ | ⟨-, h⟩
  . rw [h]
    exact ⟨rfl, rfl, rfl, [.sending content size], rfl, by simp [Event.isClosed]⟩
  . exact h.keepsOpen

theorem keepsOpen_startFileUpload (moduleName path : Bytes)
    : KeepsOpen w (w.startFileUpload env moduleName path).2 := by
  rcases w.startFileUpload_cases env moduleName path with ⟨_, fs, made, opened, -, -, -, h⟩ | ⟨-, h⟩
  . rw [h]
    refine ⟨rfl, rfl, rfl, made.map .made ++ opened.toList.map .opened ++ [.receiving], ?_, ?_⟩
    . simp [beginReceiving, setUploadFile, nameTransfer]
    . intro e he
      simp only [List.mem_append, List.mem_map, List.mem_singleton] at he
      rcases he with (⟨l, -, rfl⟩ | ⟨l, -, rfl⟩) | rfl <;> rfl
  . exact h.keepsOpen

theorem keepsOpen_announceUpload (response : Bytes)
    : KeepsOpen w (w.announceUpload env response).2 := by
  have hwrite := w.keepsOpen_writeResponse (env.send 0) response
  unfold announceUpload
  split
  . next w' h =>
    rw [h] at hwrite
    exact hwrite.trans ⟨rfl, rfl, rfl, [], by simp, by simp⟩
  . next w' h =>
    rw [h] at hwrite
    exact hwrite.trans (w'.keepsOpen_respond _ _)

theorem keepsOpen_finishRequest (message : ProtocolMessage) (response : Bytes)
    : KeepsOpen w (w.finishRequest env message response).2 := by
  have hcases := w.finishRequest_cases env message response
  generalize w.finishRequest env message response = result at hcases ⊢
  cases hcases with
  | throws h => exact h.keepsOpen
  | responds h => exact h.keepsOpen.trans (keepsOpen_respond _ _ _)
  | downloads _ h =>
    have hstart := w.keepsOpen_startFileDownload env message.module message.path
    rw [h] at hstart
    exact hstart.trans (keepsOpen_continueFileTransfer _ _)
  | uploads _ h =>
    have hstart := w.keepsOpen_startFileUpload env message.module message.path
    rw [h] at hstart
    exact hstart.trans (keepsOpen_announceUpload _ _ _)

theorem keepsOpen_handleProtocolMessage (message : ProtocolMessage)
    : KeepsOpen w (w.handleProtocolMessage env message).2 := by
  have hrests := w.rests_handleProtocolMessage env message
  obtain ⟨events, htrace, hevents⟩ := w.trace_handleProtocolMessage env message
  refine ⟨hrests.active, hrests.clientSocket, by rw [hrests.sslConnection], _, htrace, ?_⟩
  intro e he
  rcases List.mem_cons.mp he with rfl | he
  . rfl
  . rcases hevents e he with rfl | rfl <;> rfl

theorem keepsOpen_processMessage (request : Bytes)
    : KeepsOpen w (w.processMessage env request).2 := by
  have hhandle := w.keepsOpen_handleProtocolMessage env (parse request)
  unfold processMessage
  dsimp only
  split
  . exact w.keepsOpen_respond _ _
  . split
    . next heq =>
      rw [heq] at hhandle
      exact hhandle
    . next heq =>
      rw [heq] at hhandle
      exact hhandle.trans (keepsOpen_finishRequest _ _ _ _)

/--
The client of a plain session is gone, and the session notices when it waits for a request.
-/
def LosesClient (w : World) (env : Env) : Prop :=
  w.session.active = true ∧ w.session.transferState = .idle ∧ w.session.sslConnection = none
    ∧ (env.recv = none ∨ env.recv = some [])

/--
Either the request leaves the session open, or it found no client to read from.
-/
theorem processRequest_cases
    : KeepsOpen w (w.processRequest env).2
        ∨ ∃ w', KeepsOpen w w'
          ∧ w.processRequest env = (.ok false, { w' with session := { w'.session with active := false } })
          ∧ (w.session.sslConnection = none → 0 ≤ w.session.clientSocket → w.LosesClient env) := by
  have hread := w.keepsOpen_readSocket env.recv requestSize
  unfold processRequest
  split
  . exact .inl (.refl w)
  . next hactive =>
    split
    . exact .inl (w.keepsOpen_continueFileTransfer env)
    . next hidle =>
      have hlost : w.session.sslConnection = none → 0 ≤ w.session.clientSocket →
          ((w.session.readSocket env.recv requestSize).1 = none
            ∨ (w.session.readSocket env.recv requestSize).1 = some []) →
          w.LosesClient env := by
        intro hssl hsocket hreceived
        have hsecure : w.session.isSecure = false := by simp [Session.isSecure, hssl]
        have hopen : ¬w.session.clientSocket < 0 := by omega
        refine ⟨by simpa using hactive, by simpa using hidle, hssl, ?_⟩
        cases hrecv : env.recv with
        | none => exact .inl rfl
        | some received =>
          simpa [Session.readSocket, hsecure, hopen, hrecv, requestSize] using hreceived
      dsimp only
      split
      . next hreceived =>
        exact .inr ⟨_, hread, rfl, fun hssl hsocket => hlost hssl hsocket (.inl hreceived)⟩
      . next hreceived =>
        exact .inr ⟨_, hread, rfl, fun hssl hsocket => hlost hssl hsocket (.inr hreceived)⟩
      . exact .inl (hread.trans (keepsOpen_processMessage _ _ _))

variable {fd : Int} {w}

/--
Descriptor `fd` is open, and closing the session will close it.
-/
structure Holds (fd : Int) (w : World) : Prop where
  valid : 0 ≤ fd
  unclosed : w.trace.count (.closed fd) = 0
  owner : (∃ c, w.session.sslConnection = some c ∧ c.fd = fd)
    ∨ w.session.sslConnection = none ∧ w.session.active = true ∧ w.session.clientSocket = fd

/--
Descriptor `fd` has been closed, and the session has nothing left to close.
-/
structure Released (fd : Int) (w : World) : Prop where
  once : w.trace.count (.closed fd) = 1
  inactive : w.session.active = false
  nothing : ∀ c, w.session.sslConnection = some c → c.fd = -1

/--
Descriptor `fd` is open, but the session does not close it any more.
-/
structure Leaked (fd : Int) (w : World) : Prop where
  unclosed : w.trace.count (.closed fd) = 0
  inactive : w.session.active = false
  plain : w.session.sslConnection = none

theorem KeepsOpen.count {w' : World} (h : KeepsOpen w w')
    : w'.trace.count (.closed fd) = w.trace.count (.closed fd) := by
  obtain ⟨events, htrace, hevents⟩ := h.trace
  have hnone : events.count (.closed fd) = 0 := by
    rw [List.count_eq_zero]
    intro hmem
    have := hevents _ hmem
    simp [Event.isClosed] at this
  rw [htrace, List.count_append, hnone, Nat.add_zero]

theorem KeepsOpen.sslConnection_eq_none {w' : World} (h : KeepsOpen w w')
    (hssl : w.session.sslConnection = none)
    : w'.session.sslConnection = none := by
  have hfd := h.fd
  rw [hssl] at hfd
  simpa using hfd

theorem Holds.of_keepsOpen {w' : World} (h : Holds fd w) (hkeeps : KeepsOpen w w') : Holds fd w' where
  valid := h.valid
  unclosed := hkeeps.count.trans h.unclosed
  owner := by
    rcases h.owner with ⟨c, hssl, hc⟩ | ⟨hssl, hactive, hsocket⟩
    . have hfd := hkeeps.fd
      rw [hssl, Option.map_some, Option.map_eq_some_iff] at hfd
      obtain ⟨c', hssl', hc'⟩ := hfd
      exact .inl ⟨c', hssl', hc'.trans hc⟩
    . exact .inr ⟨hkeeps.sslConnection_eq_none hssl, hkeeps.active.trans hactive,
        hkeeps.clientSocket.trans hsocket⟩

theorem Holds.close (h : Holds fd w) : Released fd w.close := by
  have hvalid := h.valid
  rcases h.owner with ⟨c, hssl, rfl⟩ | ⟨hssl, hactive, rfl⟩
  . have hclose : w.close.trace = w.trace ++ [.closed c.fd] := by simp [World.close, hssl, hvalid]
    refine ⟨?_, by simp [World.close, hssl], ?_⟩
    . rw [hclose, List.count_append, h.unclosed, List.count_singleton_self]
    . simp [World.close, hssl]
  . have hclose : w.close.trace = w.trace ++ [.closed w.session.clientSocket] := by
      simp [World.close, hssl, hactive, hvalid]
    refine ⟨?_, by simp [World.close, hssl, hactive, hvalid], ?_⟩
    . rw [hclose, List.count_append, h.unclosed, List.count_singleton_self]
    . simp [World.close, hssl, hactive, hvalid]

theorem Released.close (h : Released fd w) : Released fd w.close := by
  cases hssl : w.session.sslConnection with
  | none =>
    have hclose : w.close = w := by simp [World.close, hssl, h.inactive]
    rwa [hclose]
  | some c =>
    have hfd := h.nothing c hssl
    have hclose : w.close.trace = w.trace := by simp [World.close, hssl, hfd]
    exact ⟨by rw [hclose, h.once], by simp [World.close, hssl], by simp [World.close, hssl]⟩

theorem Leaked.close_eq (h : Leaked fd w) : w.close = w := by
  simp [World.close, h.plain, h.inactive]

theorem serve_of_inactive (h : w.session.active = false) : w.serve env = w := by
  simp [serve, h]

theorem Holds.serve (h : Holds fd w) (hkeeps : ¬w.LosesClient env)
    : Holds fd (w.serve env) ∨ Released fd (w.serve env) := by
  have hvalid := h.valid
  unfold World.serve
  split
  . rcases w.processRequest_cases env with hopen | ⟨w', hopen, heq, hlost⟩
    . have hafter := h.of_keepsOpen hopen
      split
      . next heq =>
        rw [heq] at hafter
        exact .inl hafter
      . next heq =>
        rw [heq] at hafter
        exact .inr hafter.close
    . have hafter := h.of_keepsOpen hopen
      rw [heq]
      rcases h.owner with ⟨c, hssl, hc⟩ | ⟨hssl, hactive, hsocket⟩
      . right
        refine Holds.close ⟨hvalid, hafter.unclosed, .inl ?_⟩
        rcases hafter.owner with htls | ⟨hnone, -, -⟩
        . exact htls
        . have hfd := hopen.fd
          simp [hssl, hnone] at hfd
      . exact absurd (hlost hssl (hsocket ▸ hvalid)) hkeeps
  . exact .inl h

theorem Holds.serve_of_losesClient (h : Holds fd w) (hlost : w.LosesClient env)
    : Leaked fd (w.serve env) := by
  obtain ⟨hactive, hidle, hssl, hrecv⟩ := hlost
  have hsecure : w.session.isSecure = false := by simp [Session.isSecure, hssl]
  have hread : (w.session.readSocket env.recv requestSize).2 = w.session := by
    unfold Session.readSocket
    simp only [hsecure, Bool.false_eq_true, ↓reduceIte]
    split <;> rfl
  have hreceived : (w.session.readSocket env.recv requestSize).1 = none
      ∨ (w.session.readSocket env.recv requestSize).1 = some [] := by
    unfold Session.readSocket
    simp only [hsecure, Bool.false_eq_true, ↓reduceIte]
    rcases hrecv with hrecv | hrecv <;> rw [hrecv] <;> split <;> simp
  have hrequest : w.processRequest env
      = (.ok false, { w with session := { w.session with active := false } }) := by
    unfold processRequest
    rcases hreceived with hreceived | hreceived <;> simp [hactive, hidle, hread, hreceived]
  have hserve : w.serve env = { w with session := { w.session with active := false } } := by
    simp [World.serve, hactive, hrequest, World.close, hssl]
  rw [hserve]
  exact ⟨h.unclosed, rfl, hssl⟩

theorem Holds.destroy (h : Holds fd w) : w.destroy.trace.count (.closed fd) = 1 := by
  have hclosed := (h.of_keepsOpen w.keepsOpen_endFileTransfer).close
  unfold World.destroy
  dsimp only
  split
  . next c hssl =>
    simp [hclosed.nothing c hssl, hclosed.once]
  . exact hclosed.once

theorem Released.destroy (h : Released fd w) : w.destroy.trace.count (.closed fd) = 1 := by
  have hclosed : Released fd w.endFileTransfer.close :=
    Released.close ⟨h.once, h.inactive, h.nothing⟩
  unfold World.destroy
  dsimp only
  split
  . next c hssl =>
    simp [hclosed.nothing c hssl, hclosed.once]
  . exact hclosed.once

theorem Leaked.destroy (h : Leaked fd w) : w.destroy.trace.count (.closed fd) = 0 := by
  have hleaked : Leaked fd w.endFileTransfer := ⟨h.unclosed, h.inactive, h.plain⟩
  unfold World.destroy
  rw [hleaked.close_eq]
  simp [hleaked.plain, hleaked.unclosed]

/--
A session as the accept thread creates it: its TLS connection, if any, is on the accepted socket.
-/
structure Accepted (w : World) : Prop extends Fresh w where
  tls : ∀ c, w.session.sslConnection = some c → c.fd = w.session.clientSocket

theorem Holds.of_accepted (h : w.Accepted) : Holds w.session.clientSocket w where
  valid := h.socket
  unclosed := by simp [h.noTrace]
  owner := by
    cases hssl : w.session.sslConnection with
    | none => exact .inr ⟨rfl, h.active, rfl⟩
    | some c => exact .inl ⟨c, rfl, h.tls c hssl⟩

/--
The worker does not serve a plain session that has just lost its client.
-/
def KeepsClient (w : World) (action : Action) : Prop :=
  ∀ env, action = .request env → ¬w.LosesClient env

theorem holds_or_released_step {w w' : World} {action : Action} (h : Holds fd w ∨ Released fd w)
    (hstep : (workerStep.restrict KeepsClient) w action w')
    : Holds fd w' ∨ Released fd w' := by
  obtain ⟨hkeeps, rfl⟩ := hstep
  cases action with
  | request env =>
    rcases h with h | h
    . exact h.serve env (hkeeps env rfl)
    . rw [workerAct, serve_of_inactive env h.inactive]
      exact .inr h
  | close =>
    rcases h with h | h
    . exact .inr h.close
    . exact .inr h.close

theorem leaked_step {w w' : World} {action : Action} (h : Leaked fd w) (hstep : workerStep w action w')
    : Leaked fd w' := by
  obtain rfl := hstep
  cases action with
  | request env =>
    rw [workerAct, serve_of_inactive env h.inactive]
    exact h
  | close =>
    rw [workerAct, h.close_eq]
    exact h

/--
Either every step of a run keeps its client, or the descriptor has leaked.
-/
theorem keepsClient_or_leaked {w w' : World} {actions : List Action} (h : Holds fd w)
    (hrun : workerStep.Run w actions w')
    : (workerStep.restrict KeepsClient).Run w actions w' ∧ (Holds fd w' ∨ Released fd w')
        ∨ Leaked fd w' := by
  induction hrun with
  | nil => exact .inl ⟨.nil, .inl h⟩
  | @snoc actions action s s' hrun hstep ih =>
    rcases ih with ⟨hkept, hstate⟩ | hleaked
    . by_cases hkeeps : s.KeepsClient action
      . exact .inl ⟨.snoc hkept ⟨hkeeps, hstep⟩, holds_or_released_step hstate ⟨hkeeps, hstep⟩⟩
      . simp only [KeepsClient, not_forall, not_not] at hkeeps
        obtain ⟨env, rfl, hlost⟩ := hkeeps
        obtain rfl := hstep
        rcases hstate with hholds | hreleased
        . exact .inr (hholds.serve_of_losesClient env hlost)
        . exact absurd (hlost.1.symm.trans hreleased.inactive) (by decide)
    . exact .inr (leaked_step hleaked hstep)

/--
The accepted socket is closed exactly once by the time the session is destroyed, if and only if no
request found a plain session without its client.
-/
theorem closed_once_iff {w w' : World} {actions : List Action} (haccepted : w.Accepted)
    (hrun : workerStep.Run w actions w')
    : w'.destroy.trace.count (.closed w.session.clientSocket) = 1
        ↔
      (workerStep.restrict KeepsClient).Run w actions w' := by
  have hholds := Holds.of_accepted haccepted
  constructor
  . intro honce
    rcases keepsClient_or_leaked hholds hrun with ⟨hkept, -⟩ | hleaked
    . exact hkept
    . rw [hleaked.destroy] at honce
      contradiction
  . intro hkept
    have hstate := hkept.invariant (I := fun w' => Holds w.session.clientSocket w'
      ∨ Released w.session.clientSocket w') (.inl hholds) fun _ _ _ h hstep => holds_or_released_step h hstep
    rcases hstate with h | h
    . exact h.destroy
    . exact h.destroy

/--
A new session over TLS.
-/
def secure : World :=
  {
    single none [] with
    session := { (single none []).session with sslConnection := some { fd := 4, isOpen := true } }
  }

theorem accepted_secure : secure.Accepted where
  toFresh := {
    socket := by simp [secure, single]
    active := rfl
    noUser := rfl
    noModule := rfl
    idle := rfl
    noUpload := rfl
    noDownload := rfl
    noRemaining := rfl
    noSent := rfl
    noTrace := rfl
  }
  tls := by
    intro c hc
    obtain rfl := Option.some.inj hc
    rfl

/--
Over TLS the socket is closed also when the client closes the connection first.
-/
theorem closed_once_secure
    : (workerAct (.request { recv := some [] }) secure).destroy.trace.count (.closed 4) = 1 := by
  have hrun : workerStep.Run secure [.request { recv := some [] }]
      (workerAct (.request { recv := some [] }) secure) := .single rfl
  refine (closed_once_iff accepted_secure hrun).mpr (.single ⟨?_, rfl⟩)
  rintro env - ⟨-, -, hssl, -⟩
  exact absurd hssl (by simp [secure])

/--
A client that closes a plain connection leaves its descriptor behind.
-/
theorem not_closed_single
    : (single none []).Accepted
        ∧ ∃ w, workerStep.Run (single none []) [.request { recv := some [] }] w
          ∧ w.destroy.trace.count (.closed 4) ≠ 1 :=
  ⟨⟨fresh_single _ _, by simp [single]⟩, _, .single rfl, by decide⟩

end World
end SimpleRsyncd
