import SimpleRsyncd.Session.Invariant

/-!
This module contains what it means that a client is told the truth about a transfer, and the ways a
request is answered before any transfer starts.
-/

namespace SimpleRsyncd

open ProtocolParser

def okHeader : Bytes := bytes "@RSYNCD: OK\n"

/--
A response that announces a transfer by the given phrase.
-/
def Event.announces (phrase : Bytes) : Event → Bool
  | .response text _ => Bytes.startsWith text okHeader && Bytes.contains text phrase
  | _ => false

/--
The client is told that its transfer starts.
-/
def Event.isAnnouncement (command : ProtocolCommand) (e : Event) : Bool :=
  match command with
  | .get => e.announces World.readyForTransfer
  | .put => e.announces World.readyToReceive
  | _ => false

/--
The session enters the transfer state of a request.
-/
def Event.isStart : ProtocolCommand → Event → Bool
  | .get, .sending _ _ => true
  | .put, .receiving => true
  | _, _ => false

def Event.isError : Event → Bool
  | .response text _ => Bytes.startsWith text (bytes "@RSYNCD: ERROR ")
  | _ => false

/--
Among these events a transfer is announced if and only if it starts.
-/
def Agree (command : ProtocolCommand) (events : List Event) : Prop :=
  events.any (·.isAnnouncement command) = events.any (·.isStart command)
  deriving Decidable

theorem startsWith_buildErrorResponse (code : Int) (text : Bytes)
    : Bytes.startsWith (buildErrorResponse code text) okHeader = false := by
  simp only [Bytes.startsWith, decide_eq_false_iff_not]
  intro hok
  have herror : bytes "@RSYNCD: ERROR " <+: buildErrorResponse code text := by
    simp only [buildErrorResponse, formatError, List.append_assoc]
    apply List.prefix_append
  exact absurd (List.prefix_of_prefix_length_le hok herror (by decide)) (by decide)

theorem isAnnouncement_error (command : ProtocolCommand) (code : Int) (text : Bytes) (k : Nat)
    : Event.isAnnouncement command (.response (buildErrorResponse code text) k) = false := by
  cases command <;> simp [Event.isAnnouncement, Event.announces, startsWith_buildErrorResponse]

/--
A single word at the end of a text brings no phrase into it.
-/
theorem not_contains_of_word {phrase pre start word : Bytes} (hword : ∀ c ∈ word, Bytes.isspace c = false)
    (hphrase : start ++ [32] <:+: phrase) (hpre : ¬start ++ [32] <:+: pre)
    : Bytes.contains (pre ++ (word ++ bytes "\n")) phrase = false := by
  simp only [Bytes.contains, decide_eq_false_iff_not]
  intro h
  have hspace : (32 : UInt8) ∉ word ++ bytes "\n" := by
    intro hmem
    rcases List.mem_append.mp hmem with hmem | hmem
    . have := hword 32 hmem
      contradiction
    . revert hmem
      decide
  exact hpre (Bytes.infix_of_infix_append_of_notMem (hphrase.trans h) hspace)

/--
An error response with a single word at its end announces nothing.
-/
theorem not_contains_error {code : Int} {text word : Bytes} (hword : ∀ c ∈ word, Bytes.isspace c = false)
    (hpre : ∀ start ∈ [bytes "Ready for", bytes "Ready to"],
      ¬start ++ [32] <:+: bytes "@RSYNCD: ERROR " ++ Bytes.ofInt code ++ bytes "\n" ++ text)
    : Bytes.contains (buildErrorResponse code (text ++ word)) World.readyForTransfer = false
        ∧ Bytes.contains (buildErrorResponse code (text ++ word)) World.readyToReceive = false := by
  simp only [List.forall_mem_cons, List.not_mem_nil, false_implies, implies_true, and_true] at hpre
  have hshape : buildErrorResponse code (text ++ word)
      = (bytes "@RSYNCD: ERROR " ++ Bytes.ofInt code ++ bytes "\n" ++ text) ++ (word ++ bytes "\n") := by
    simp only [buildErrorResponse, formatError, List.append_assoc]
  rw [hshape]
  exact ⟨not_contains_of_word hword (by decide) hpre.1,
    not_contains_of_word hword (by decide) hpre.2⟩

namespace World

variable {w w' : World} {env : Env} {message : ProtocolMessage}

/--
The next response reaches the client, at least in part.
-/
def Delivers (w : World) (send : Nat → Option Nat) (response : Bytes) : Prop :=
  (w.writeResponse send response).1 = true
  deriving Decidable

theorem delivers_congr (hactive : w'.session.active = w.session.active)
    (hsocket : w'.session.clientSocket = w.session.clientSocket)
    (hssl : w'.session.sslConnection = w.session.sslConnection) (send : Nat → Option Nat)
    (response : Bytes)
    : w'.Delivers send response ↔ w.Delivers send response := by
  have hrespond : w'.session.canRespond = w.session.canRespond := by
    simp [Session.canRespond, hactive, hsocket]
  have hwrite : w'.session.writeSocket send response = w.session.writeSocket send response := by
    simp [Session.writeSocket, Session.isSecure, hssl, hsocket]
  simp only [Delivers, writeResponse, hrespond, hwrite]
  split
  . split <;> rfl
  . rfl

/--
The world in which the response to a message is acted upon.
-/
def answering (w : World) (message : ProtocolMessage) (events : List Event) : World :=
  {
    w with
    session := {
      w.session with
      handler := w.session.handler.setModule (w.session.handler.moduleName message.module)
    }
    trace := w.trace ++ .received message :: events
  }

theorem trace_answering (message : ProtocolMessage) (events : List Event)
    : (w.answering message events).trace = w.trace ++ .received message :: events := rfl

theorem setModule_eq_answering (message : ProtocolMessage)
    : (w.log [.received message]).setModule message = w.answering message [] := by
  unfold setModule answering ProtocolHandler.moduleName
  split <;> rfl

theorem moduleName_setModule (h : ProtocolHandler) (name : Bytes)
    : (h.setModule (h.moduleName name)).moduleName name = h.moduleName name := by
  unfold ProtocolHandler.setModule ProtocolHandler.moduleName
  split <;> rfl

theorem transferTarget_answering (message : ProtocolMessage) (events : List Event)
    : (w.answering message events).transferTarget message.module = w.transferTarget message.module := by
  simp only [transferTarget, answering, moduleName_setModule]
  rfl

def unauthenticated : Bytes :=
  buildErrorResponse 401 (bytes "Authentication required: send AUTH command")

/--
The gate, and then the handler.
-/
theorem handleProtocolMessage_of_not_auth (h : message.command ≠ .auth)
    : w.handleProtocolMessage env message
        =
      if w.session.awaitsKey then
        (.ok unauthenticated, w.answering message [])
      else
        let handler := w.session.handler.setModule (w.session.handler.moduleName message.module)
        (
          (handler.handle env.host message w.fs).1,
          { w.answering message [.handled message] with fs := (handler.handle env.host message w.fs).2 }
        ) := by
  have hwaits : (w.answering message []).session.awaitsKey = w.session.awaitsKey := rfl
  unfold handleProtocolMessage
  rw [setModule_eq_answering]
  simp only [hwaits, h, ne_eq, not_false_eq_true, decide_true, Bool.and_true, ↓reduceIte]
  split
  . rfl
  . simp [log, answering]

/--
None of these events is about the start of a transfer.
-/
def Unrelated (command : ProtocolCommand) (events : List Event) : Prop :=
  ∀ e ∈ events, e.isAnnouncement command = false ∧ e.isStart command = false

theorem unrelated_singleton {command : ProtocolCommand} {e : Event}
    (h : e.isAnnouncement command = false) (h' : e.isStart command = false)
    : Unrelated command [e] := by
  intro e' hmem
  rw [List.mem_singleton] at hmem
  subst hmem
  exact ⟨h, h'⟩

theorem unrelated_append {command : ProtocolCommand} {events events' : List Event}
    (h : Unrelated command events) (h' : Unrelated command events')
    : Unrelated command (events ++ events') := by
  intro e hmem
  cases List.mem_append.mp hmem with
  | inl hmem => exact h e hmem
  | inr hmem => exact h' e hmem

theorem unrelated_any {command : ProtocolCommand} {events : List Event} (h : Unrelated command events)
    : events.any (·.isAnnouncement command) = false ∧ events.any (·.isStart command) = false := by
  simp only [List.any_eq_false, Bool.not_eq_true]
  exact ⟨fun e hmem => (h e hmem).1, fun e hmem => (h e hmem).2⟩

theorem agree_of_unrelated {command : ProtocolCommand} {events : List Event}
    (h : Unrelated command events)
    : Agree command events := by
  rw [Agree, (unrelated_any h).1, (unrelated_any h).2]

theorem agree_append_iff {command : ProtocolCommand} {events events' : List Event}
    (h : Unrelated command events)
    : Agree command (events ++ events') ↔ Agree command events' := by
  simp [Agree, List.any_append, unrelated_any h]

theorem unrelated_received (command : ProtocolCommand) (message : ProtocolMessage)
    : Unrelated command [.received message] := by
  cases command <;> exact unrelated_singleton rfl rfl

theorem unrelated_handled (command : ProtocolCommand) (message : ProtocolMessage)
    : Unrelated command [.received message, .handled message] := by
  apply unrelated_append (unrelated_received command message)
  cases command <;> exact unrelated_singleton rfl rfl

theorem unrelated_made (command : ProtocolCommand) (made : List Loc)
    : Unrelated command (made.map .made) := by
  intro e hmem
  obtain ⟨l, -, rfl⟩ := List.mem_map.mp hmem
  cases command <;> exact ⟨rfl, rfl⟩

theorem unrelated_respond_error (send : Nat → Option Nat) (code : Int) (text : Bytes)
    : ∃ events, (w.respond send (buildErrorResponse code text)).2.trace = w.trace ++ events
        ∧ Unrelated message.command events := by
  rcases w.writeResponse_cases send (buildErrorResponse code text) with h | ⟨k, -, h⟩
  . exact ⟨[], by simp [respond, h], by simp [Unrelated]⟩
  . refine ⟨[.response (buildErrorResponse code text) (k + 1)], by simp [respond, h, log], ?_⟩
    apply unrelated_singleton (isAnnouncement_error _ _ _ _)
    cases message.command <;> rfl

/--
An error response announces nothing, and nothing starts after it.
-/
theorem unrelated_finishRequest_error (env : Env) (w : World) (message : ProtocolMessage) (code : Int)
    (text : Bytes)
    (hdownload : message.command = .get →
      Bytes.contains (buildErrorResponse code text) readyForTransfer = true →
      ∀ w', w.startFileDownload env message.module message.path ≠ (.ok true, w'))
    (hupload : message.command = .put →
      Bytes.contains (buildErrorResponse code text) readyToReceive = false)
    : ∃ events, (w.finishRequest env message (buildErrorResponse code text)).2.trace = w.trace ++ events
        ∧ Unrelated message.command events := by
  have hcases := w.finishRequest_cases env message (buildErrorResponse code text)
  generalize w.finishRequest env message (buildErrorResponse code text) = result at hcases ⊢
  cases hcases with
  | throws hattempted =>
    obtain ⟨made, htrace⟩ := hattempted.trace
    exact ⟨_, htrace, unrelated_made _ made⟩
  | @responds w' hattempted =>
    obtain ⟨made, htrace⟩ := hattempted.trace
    obtain ⟨events, htrace', hevents⟩ := w'.unrelated_respond_error (env.send 0) code text
    refine ⟨made.map .made ++ events, ?_, unrelated_append (unrelated_made _ made) hevents⟩
    rw [htrace', htrace, List.append_assoc]
  | downloads hget hstart =>
    simp only [Bool.and_eq_true, decide_eq_true_eq] at hget
    exact absurd hstart (hdownload hget.2 hget.1 _)
  | uploads hput hstart =>
    simp only [Bool.and_eq_true, decide_eq_true_eq] at hput
    rw [hupload hput.2] at hput
    simp at hput

theorem trace_respond (w : World) (send : Nat → Option Nat) (response : Bytes)
    : (w.respond send response).2.trace = w.trace
        ∨ ∃ k, (w.respond send response).2.trace = w.trace ++ [.response response k] := by
  rcases w.writeResponse_cases send response with h | ⟨k, -, h⟩
  . exact .inl (by simp [respond, h])
  . exact .inr ⟨k + 1, by simp [respond, h, log]⟩

theorem agree_single_iff {command : ProtocolCommand} {e : Event}
    : Agree command [e] ↔ e.isAnnouncement command = e.isStart command := by
  simp [Agree]

theorem word_moduleName (hword : w.HasWord) (hmodule : ∀ c ∈ message.module, Bytes.isspace c = false)
    : ∀ c ∈ w.session.handler.moduleName message.module, Bytes.isspace c = false := by
  unfold ProtocolHandler.moduleName
  split
  . exact hword
  . exact hmodule

/--
The response to a request announces a transfer, which then does not start.
-/
def StartFails (w : World) (env : Env) (message : ProtocolMessage) : Prop :=
  ∃ response w', w.handleProtocolMessage env message = (.ok response, w') ∧
    ((Bytes.contains response readyForTransfer = true ∧ message.command = .get
        ∧ (w'.startFileDownload env message.module message.path).1 = .ok false)
      ∨
      (Bytes.contains response readyToReceive = true ∧ message.command = .put
        ∧ (w'.startFileUpload env message.module message.path).1 = .ok false))

/--
A transfer is announced if and only if it starts, and the client gets an error if it does not.
-/
def Tells (w : World) (env : Env) (message : ProtocolMessage) (events : List Event) : Prop :=
  Agree message.command events ∧ (w.StartFails env message → events.any Event.isError = true)

/--
The events of a message that passed the gate.
-/
theorem processMessage_handled {request : Bytes} (hvalid : (parse request).valid = true)
    (hauth : (parse request).command ≠ .auth) (hgate : w.session.awaitsKey = false)
    : w.processMessage env request
        =
      let handler := w.session.handler.setModule (w.session.handler.moduleName (parse request).module)
      let w' := {
        w.answering (parse request) [.handled (parse request)] with
        fs := (handler.handle env.host (parse request) w.fs).2
      }
      match (handler.handle env.host (parse request) w.fs).1 with
      | .error e => (.error e, w')
      | .ok response => w'.finishRequest env (parse request) response := by
  unfold processMessage
  simp only [hvalid, handleProtocolMessage_of_not_auth hauth, hgate, Bool.not_true,
    Bool.false_eq_true, ↓reduceIte]
  split <;> simp_all

theorem processMessage_refused {request : Bytes} (hvalid : (parse request).valid = true)
    (hauth : (parse request).command ≠ .auth) (hgate : w.session.awaitsKey = true)
    : w.processMessage env request
        =
      (w.answering (parse request) []).finishRequest env (parse request) unauthenticated := by
  unfold processMessage
  simp [hvalid, handleProtocolMessage_of_not_auth hauth, hgate]

theorem contains_unauthenticated
    : Bytes.contains unauthenticated readyForTransfer = false
        ∧ Bytes.contains unauthenticated readyToReceive = false := by
  decide

/--
A refused message announces nothing, and nothing starts.
-/
theorem tells_refused (env : Env) {request : Bytes} (hvalid : (parse request).valid = true)
    (hauth : (parse request).command ≠ .auth) (hgate : w.session.awaitsKey = true)
    : ∃ events, (w.processMessage env request).2.trace = w.trace ++ events
        ∧ w.Tells env (parse request) events := by
  rw [processMessage_refused hvalid hauth hgate]
  obtain ⟨events, htrace, hevents⟩
      : ∃ events, ((w.answering (parse request) []).finishRequest env (parse request)
            unauthenticated).2.trace = (w.answering (parse request) []).trace ++ events
          ∧ Unrelated (parse request).command events := by
    apply unrelated_finishRequest_error
    . intro _ h
      exact absurd (contains_unauthenticated.1.symm.trans h) (by simp)
    . exact fun _ => contains_unauthenticated.2
  refine ⟨[.received (parse request)] ++ events, by rw [htrace, trace_answering, List.append_assoc],
    (agree_append_iff (unrelated_received _ _)).mpr (agree_of_unrelated hevents), ?_⟩
  rintro ⟨response, w', hhandle, h⟩
  rw [handleProtocolMessage_of_not_auth hauth, if_pos hgate] at hhandle
  obtain rfl := Except.ok.inj (Prod.mk.inj hhandle).1
  simp [contains_unauthenticated] at h

end World
end SimpleRsyncd
