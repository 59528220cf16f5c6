import SimpleRsyncd.Session.Announcement.Basic

/-!
This module contains the answer to a PUT request: the client is invited to send its file, also if the
file could not be opened.
-/

namespace SimpleRsyncd
namespace World

open ProtocolParser

variable {w : World} {env : Env} {message : ProtocolMessage}

/--
What a PUT request needs to be answered by the invitation to send its file.
-/
structure PutReady (w : World) (message : ProtocolMessage) (m : Module) : Prop where
  gate : w.session.awaitsKey = false
  target : w.transferTarget message.module = some m
  writable : m.isReadOnly = false

/--
An upload that can be asked for is opened, and one of the two attempts to say so is delivered.
-/
def Invites (w : World) (env : Env) (message : ProtocolMessage) : Prop :=
  ∀ m, w.PutReady message m → ∀ fs made opened,
    m.openTemp env.openUpload w.fs message.path = .ok (fs, made, opened) →
    opened.isSome = true
      ∧ (w.Delivers (env.send 0) (ProtocolHandler.readyToReceive message.path)
        ∨ w.Delivers (env.send 1) (ProtocolHandler.readyToReceive message.path))

theorem startFileUpload_of_closed {moduleName path : Bytes} {m : Module}
    (h : w.transferTarget moduleName = some m) (hclosed : w.session.uploadFile = none)
    : w.startFileUpload env moduleName path
        =
      match m.openTemp env.openUpload w.fs path with
      | .error e => (.error e, w.nameTransfer moduleName path)
      | .ok (fs, made, opened) =>
        if opened.isSome then
          (.ok true, ((w.nameTransfer moduleName path).setUploadFile fs made opened).beginReceiving)
        else
          (.ok false, (w.nameTransfer moduleName path).setUploadFile fs made opened) := by
  have hfile : ∀ fs made opened,
      ((w.nameTransfer moduleName path).setUploadFile fs made opened).session.uploadFile = opened := by
    intro fs made opened
    simp [setUploadFile, nameTransfer, hclosed]
  rw [startFileUpload_of_target env w h, hclosed, Option.isNone_none, Bool.and_true]
  cases m.openTemp env.openUpload w.fs path with
  | error e => rfl
  | ok r => simp only [hfile]

theorem handlePut_of_ready {m : Module} (h : w.PutReady message m)
    : (w.session.handler.setModule (w.session.handler.moduleName message.module)).handlePut message
        =
      ProtocolHandler.readyToReceive message.path := by
  have htarget : (w.session.handler.setModule (w.session.handler.moduleName message.module)).getModule
      (w.session.handler.moduleName message.module) = some m := h.target
  simp [ProtocolHandler.handlePut, moduleName_setModule, htarget, h.writable]

theorem handlePut_of_not_ready (hgate : w.session.awaitsKey = false)
    (hmodule : ∀ c ∈ w.session.handler.moduleName message.module, Bytes.isspace c = false)
    (h : ∀ m, ¬w.PutReady message m)
    : ∃ code text,
        (w.session.handler.setModule (w.session.handler.moduleName message.module)).handlePut message
          = buildErrorResponse code text
        ∧ Bytes.contains (buildErrorResponse code text) readyForTransfer = false
        ∧ Bytes.contains (buildErrorResponse code text) readyToReceive = false := by
  unfold ProtocolHandler.handlePut
  rw [moduleName_setModule]
  dsimp only
  split
  . exact ⟨_, _, rfl, not_contains_error hmodule (by decide)⟩
  . next m htarget =>
    split
    . exact ⟨_, _, rfl, not_contains_error hmodule (by decide)⟩
    . next hwritable => exact absurd ⟨hgate, htarget, by simpa using hwritable⟩ (h m)

theorem contains_readyToReceive (path : Bytes)
    : Bytes.contains (ProtocolHandler.readyToReceive path) readyToReceive = true := by
  have hphrase : readyToReceive <:+: bytes "@RSYNCD: OK\n" ++ bytes "Ready to receive file: " := by
    decide
  rw [Bytes.contains_iff]
  simp only [ProtocolHandler.readyToReceive]
  exact (hphrase.trans (List.prefix_append _ path).isInfix).trans
    ((List.prefix_append _ _).trans (List.prefix_append _ _)).isInfix

theorem isAnnouncement_readyToReceive (path : Bytes) (k : Nat)
    : Event.isAnnouncement .put (.response (ProtocolHandler.readyToReceive path) k) = true := by
  have hheader : okHeader <+: ProtocolHandler.readyToReceive path := by
    simp only [ProtocolHandler.readyToReceive, List.append_assoc]
    apply List.prefix_append
  simp only [Event.isAnnouncement, Event.announces, contains_readyToReceive, Bool.and_true]
  exact (Bytes.startsWith_iff _ _).mpr hheader

theorem isError_readyToReceive (path : Bytes) (k : Nat)
    : Event.isError (.response (ProtocolHandler.readyToReceive path) k) = false := by
  have hheader : okHeader <+: ProtocolHandler.readyToReceive path := by
    simp only [ProtocolHandler.readyToReceive, List.append_assoc]
    apply List.prefix_append
  simp only [Event.isError, Bytes.startsWith, decide_eq_false_iff_not]
  intro herror
  exact absurd (List.prefix_of_prefix_length_le hheader herror (by decide)) (by decide)

theorem handleProtocolMessage_put (hvalid : message.valid = true) (hput : message.command = .put)
    (hgate : w.session.awaitsKey = false)
    : w.handleProtocolMessage env message
        =
      (
        .ok ((w.session.handler.setModule (w.session.handler.moduleName message.module)).handlePut message),
        w.answering message [.handled message]
      ) := by
  rw [handleProtocolMessage_of_not_auth (by simp [hput]), if_neg (by simp [hgate])]
  simp only [ProtocolHandler.handle, hvalid, hput, Bool.not_true, Bool.false_eq_true, ↓reduceIte]
  rfl

/--
An upload fails to start if it was ready and its file cannot be opened.
-/
theorem startFails_put_iff (env : Env) (hvalid : message.valid = true) (hput : message.command = .put)
    (hgate : w.session.awaitsKey = false) (hclosed : w.session.uploadFile = none)
    (hmodule : ∀ c ∈ w.session.handler.moduleName message.module, Bytes.isspace c = false)
    : w.StartFails env message
        ↔
      ∃ m, w.PutReady message m
        ∧ ∃ fs made, m.openTemp env.openUpload w.fs message.path = .ok (fs, made, none) := by
  have hclosed' : (w.answering message [.handled message]).session.uploadFile = none := hclosed
  simp only [StartFails, handleProtocolMessage_put hvalid hput hgate, Prod.mk.injEq, Except.ok.injEq,
    hput, reduceCtorEq, false_and, and_false, true_and, false_or]
  constructor
  . rintro ⟨response, w', ⟨hresponse, rfl⟩, hcontains, hfalse⟩
    by_cases hready : ∃ m, w.PutReady message m
    . obtain ⟨m, hready⟩ := hready
      rw [startFileUpload_of_closed ((transferTarget_answering _ _).trans hready.target) hclosed'] at hfalse
      refine ⟨m, hready, ?_⟩
      rcases hopen : m.openTemp env.openUpload w.fs message.path with e | ⟨fs, made, opened⟩
      . simp [answering, hopen] at hfalse
      . cases opened with
        | none => exact ⟨fs, made, rfl⟩
        | some l => simp [answering, hopen] at hfalse
    . obtain ⟨code, text, herror, -, hnone⟩ := handlePut_of_not_ready hgate hmodule (not_exists.mp hready)
      rw [← hresponse, herror, hnone] at hcontains
      contradiction
  . rintro ⟨m, hready, fs, made, hopen⟩
    refine ⟨_, _, ⟨rfl, rfl⟩, ?_, ?_⟩
    . rw [handlePut_of_ready hready]
      apply contains_readyToReceive
    . change m.openTemp env.openUpload (w.answering message [.handled message]).fs message.path = _ at hopen
      rw [startFileUpload_of_closed ((transferTarget_answering _ _).trans hready.target) hclosed', hopen]
      rfl

/--
What `announceUpload` records.
-/
theorem trace_announceUpload (w : World) (env : Env) (response : Bytes)
    : (¬(w.Delivers (env.send 0) response ∨ w.Delivers (env.send 1) response)
          ∧ (w.announceUpload env response).2.trace = w.trace)
        ∨ (w.Delivers (env.send 0) response ∨ w.Delivers (env.send 1) response)
          ∧ ∃ k, (w.announceUpload env response).2.trace = w.trace ++ [.response response k] := by
  unfold announceUpload Delivers
  rcases w.writeResponse_cases (env.send 0) response with h | ⟨k, -, h⟩
  . rw [h]
    rcases w.writeResponse_cases (env.send 1) response with h' | ⟨k, -, h'⟩
    . exact .inl ⟨by simp [h'], by simp [respond, h']⟩
    . exact .inr ⟨by simp [h'], k + 1, by simp [respond, h', log]⟩
  . rw [h]
    exact .inr ⟨by simp, k + 1, rfl⟩

theorem finishRequest_put {m : Module} (hput : message.command = .put)
    (htarget : w.transferTarget message.module = some m) (hclosed : w.session.uploadFile = none)
    : w.finishRequest env message (ProtocolHandler.readyToReceive message.path)
        =
      match m.openTemp env.openUpload w.fs message.path with
      | .error e => (.error e, w.nameTransfer message.module message.path)
      | .ok (fs, made, opened) =>
        let w' := (w.nameTransfer message.module message.path).setUploadFile fs made opened
        if opened.isSome then
          w'.beginReceiving.announceUpload env (ProtocolHandler.readyToReceive message.path)
        else
          w'.respond (env.send 0) (ProtocolHandler.readyToReceive message.path) := by
  simp only [finishRequest, hput, reduceCtorEq, decide_false, Bool.and_false, Bool.false_eq_true,
    ↓reduceIte, decide_true, Bool.and_true, contains_readyToReceive,
    startFileUpload_of_closed htarget hclosed]
  rcases m.openTemp env.openUpload w.fs message.path with e | ⟨fs, made, opened⟩
  . rfl
  . cases opened <;> rfl

/--
The file is open: only the announcement is left to agree.
-/
theorem agree_put_opened {m : Module} {fs : FileSystem} {made : List Loc} {l : Loc}
    (hput : message.command = .put) (htarget : w.transferTarget message.module = some m)
    (hclosed : w.session.uploadFile = none)
    (hopen : m.openTemp env.openUpload w.fs message.path = .ok (fs, made, some l))
    : ∃ events,
        (w.finishRequest env message (ProtocolHandler.readyToReceive message.path)).2.trace
          = w.trace ++ events
        ∧ (Agree .put events
            ↔
          (w.Delivers (env.send 0) (ProtocolHandler.readyToReceive message.path)
            ∨ w.Delivers (env.send 1) (ProtocolHandler.readyToReceive message.path))) := by
  rw [finishRequest_put hput htarget hclosed, hopen]
  dsimp only [Option.isSome_some]
  rw [if_pos rfl]
  have hbegins : Unrelated .put (made.map .made ++ [.opened l]) :=
    unrelated_append (unrelated_made _ made) (unrelated_singleton rfl rfl)
  have htrace : ((w.nameTransfer message.module message.path).setUploadFile fs made
      (some l)).beginReceiving.trace = w.trace ++ (made.map .made ++ [.opened l] ++ [.receiving]) := by
    simp [beginReceiving, setUploadFile, nameTransfer]
  have hdelivers : ∀ send, ((w.nameTransfer message.module message.path).setUploadFile fs made
      (some l)).beginReceiving.Delivers send (ProtocolHandler.readyToReceive message.path)
      ↔ w.Delivers send (ProtocolHandler.readyToReceive message.path) := by
    intro send
    apply delivers_congr <;> rfl
  generalize ((w.nameTransfer message.module message.path).setUploadFile fs made
    (some l)).beginReceiving = w' at htrace hdelivers ⊢
  rcases w'.trace_announceUpload env (ProtocolHandler.readyToReceive message.path) with
    ⟨hnot, hannounce⟩ | ⟨hdelivered, k, hannounce⟩
  . refine ⟨_, hannounce.trans htrace, ?_⟩
    rw [agree_append_iff hbegins, agree_single_iff, ← hdelivers, ← hdelivers]
    exact iff_of_false (by simp [Event.isAnnouncement, Event.announces, Event.isStart]) hnot
  . refine ⟨made.map .made ++ [.opened l] ++ ([.receiving] ++ [_]),
      by rw [hannounce, htrace, List.append_assoc, List.append_assoc _ [Event.receiving]], ?_⟩
    rw [agree_append_iff hbegins, ← hdelivers, ← hdelivers]
    refine iff_of_true ?_ hdelivered
    simp [Agree, isAnnouncement_readyToReceive, Event.isStart]

/--
The file cannot be opened, and the client gets no error.
-/
theorem no_error_put_fails {m : Module} {fs : FileSystem} {made : List Loc}
    (hput : message.command = .put) (htarget : w.transferTarget message.module = some m)
    (hclosed : w.session.uploadFile = none)
    (hopen : m.openTemp env.openUpload w.fs message.path = .ok (fs, made, none))
    : ∃ events,
        (w.finishRequest env message (ProtocolHandler.readyToReceive message.path)).2.trace
          = w.trace ++ events
        ∧ events.any Event.isError = false := by
  rw [finishRequest_put hput htarget hclosed, hopen]
  dsimp only [Option.isSome_none]
  rw [if_neg (by simp)]
  have hmade : (made.map Event.made).any Event.isError = false := by
    simp [List.any_map, Function.comp_def, Event.isError]
  have htrace : ((w.nameTransfer message.module message.path).setUploadFile fs made none).trace
      = w.trace ++ made.map .made := by
    simp [setUploadFile, nameTransfer]
  rcases ((w.nameTransfer message.module message.path).setUploadFile fs made none).trace_respond
    (env.send 0) (ProtocolHandler.readyToReceive message.path) with hrespond | ⟨k, hrespond⟩
  . exact ⟨_, hrespond.trans htrace, hmade⟩
  . refine ⟨made.map .made ++ [_], by rw [hrespond, htrace, List.append_assoc], ?_⟩
    rw [List.any_append, hmade]
    simp [isError_readyToReceive]

theorem processMessage_put_ready {request : Bytes} {m : Module} (hvalid : (parse request).valid = true)
    (hput : (parse request).command = .put) (hready : w.PutReady (parse request) m)
    : w.processMessage env request
        =
      (w.answering (parse request) [.handled (parse request)]).finishRequest env (parse request)
        (ProtocolHandler.readyToReceive (parse request).path) := by
  rw [processMessage_handled hvalid (by simp [hput]) hready.gate]
  simp only [ProtocolHandler.handle, hvalid, hput, Bool.not_true, Bool.false_eq_true, ↓reduceIte,
    handlePut_of_ready hready]
  rfl

section ready

variable {m : Module}

theorem PutReady.unique {m' : Module} (h : w.PutReady message m) (h' : w.PutReady message m') : m' = m :=
  Option.some.inj (h'.target.symm.trans h.target)

theorem PutReady.startFails_iff (h : w.PutReady message m) (env : Env) (hvalid : message.valid = true)
    (hput : message.command = .put) (hclosed : w.session.uploadFile = none)
    (hmodule : ∀ c ∈ w.session.handler.moduleName message.module, Bytes.isspace c = false)
    : w.StartFails env message
        ↔
      ∃ fs made, m.openTemp env.openUpload w.fs message.path = .ok (fs, made, none) := by
  rw [startFails_put_iff env hvalid hput h.gate hclosed hmodule]
  constructor
  . rintro ⟨m', h', hopen⟩
    obtain rfl := h.unique h'
    exact hopen
  . exact fun hopen => ⟨m, h, hopen⟩

theorem PutReady.invites_of_error {e : Errno} (h : w.PutReady message m)
    (hopen : m.openTemp env.openUpload w.fs message.path = .error e)
    : w.Invites env message := by
  intro m' h' fs made opened hopen'
  obtain rfl := h.unique h'
  simp [hopen] at hopen'

theorem PutReady.invites_iff {fs : FileSystem} {made : List Loc} {opened : Option Loc} (h : w.PutReady message m)
    (hopen : m.openTemp env.openUpload w.fs message.path = .ok (fs, made, opened))
    : w.Invites env message
        ↔
      opened.isSome = true
        ∧ (w.Delivers (env.send 0) (ProtocolHandler.readyToReceive message.path)
          ∨ w.Delivers (env.send 1) (ProtocolHandler.readyToReceive message.path)) := by
  constructor
  . exact fun hinvites => hinvites m h fs made opened hopen
  . intro hopened m' h' fs' made' opened' hopen'
    obtain rfl := h.unique h'
    rw [hopen, Except.ok.injEq, Prod.mk.injEq, Prod.mk.injEq] at hopen'
    obtain ⟨-, -, rfl⟩ := hopen'
    exact hopened

end ready

theorem tells_put_ready {request : Bytes} {m : Module} (hword : w.HasWord) (hclosed : w.session.uploadFile = none)
    (hvalid : (parse request).valid = true) (hput : (parse request).command = .put)
    (hready : w.PutReady (parse request) m)
    : ∃ events, (w.processMessage env request).2.trace = w.trace ++ events
        ∧ (w.Tells env (parse request) events ↔ w.Invites env (parse request)) := by
  have hmodule := word_moduleName hword (parse_no_space request).1
  have hunrelated := unrelated_handled .put (parse request)
  have htarget : (w.answering (parse request) [.handled (parse request)]).transferTarget
      (parse request).module = some m := (transferTarget_answering _ _).trans hready.target
  simp only [Tells, hready.startFails_iff env hvalid hput hclosed hmodule, hput]
  rw [processMessage_put_ready hvalid hput hready]
  -- the invitation is sent only where the temporary file was opened
  rcases hopen : m.openTemp env.openUpload w.fs (parse request).path with e | ⟨fs, made, opened⟩
  . refine ⟨[.received (parse request), .handled (parse request)], ?_,
      iff_of_true ⟨agree_of_unrelated hunrelated, by simp⟩ (hready.invites_of_error hopen)⟩
    rw [finishRequest_put hput htarget hclosed]
    simp [hopen, answering, nameTransfer]
  . rw [hready.invites_iff hopen]
    cases opened with
    | none =>
      obtain ⟨events, htrace, hnone⟩ := no_error_put_fails hput htarget hclosed hopen
      refine ⟨[.received (parse request), .handled (parse request)] ++ events, ?_, ?_⟩
      . rw [← List.append_assoc]
        exact htrace
      . refine iff_of_false (fun h => ?_) (by simp)
        have herror := h.2 ⟨fs, made, rfl⟩
        rw [List.any_append, hnone] at herror
        simp [Event.isError] at herror
    | some l =>
      obtain ⟨events, htrace, hagree⟩ := agree_put_opened hput htarget hclosed hopen
      have hdelivers : ∀ send response, (w.answering (parse request)
          [.handled (parse request)]).Delivers send response ↔ w.Delivers send response := by
        intro send response
        apply delivers_congr <;> rfl
      refine ⟨[.received (parse request), .handled (parse request)] ++ events, ?_, ?_⟩
      . rw [← List.append_assoc]
        exact htrace
      . rw [agree_append_iff hunrelated, hagree, hdelivers, hdelivers]
        simp

theorem tells_put_not_ready {request : Bytes} (hword : w.HasWord) (hclosed : w.session.uploadFile = none)
    (hvalid : (parse request).valid = true) (hput : (parse request).command = .put)
    (hgate : w.session.awaitsKey = false) (hready : ∀ m, ¬w.PutReady (parse request) m)
    : ∃ events, (w.processMessage env request).2.trace = w.trace ++ events ∧ w.Tells env (parse request) events := by
  have hmodule := word_moduleName hword (parse_no_space request).1
  have hunrelated := unrelated_handled .put (parse request)
  obtain ⟨code, text, hresponse, -, hnone⟩ := handlePut_of_not_ready hgate hmodule hready
  rw [processMessage_handled hvalid (by simp [hput]) hgate]
  simp only [ProtocolHandler.handle, hvalid, hput, Bool.not_true, Bool.false_eq_true, ↓reduceIte,
    hresponse]
  obtain ⟨events, htrace, hevents⟩ := unrelated_finishRequest_error env
    (w.answering (parse request) [.handled (parse request)]) (parse request) code text
    (fun hget => by simp [hput] at hget) (fun _ => hnone)
  refine ⟨[.received (parse request), .handled (parse request)] ++ events, ?_, ?_⟩
  . rw [← List.append_assoc]
    exact htrace
  . rw [hput] at hevents
    simp only [Tells, startFails_put_iff env hvalid hput hgate hclosed hmodule, hput]
    refine ⟨(agree_append_iff hunrelated).mpr (agree_of_unrelated hevents), ?_⟩
    rintro ⟨m, h, -⟩
    exact absurd h (hready m)

theorem tells_put {request : Bytes} (hword : w.HasWord) (hclosed : w.session.uploadFile = none)
    (hvalid : (parse request).valid = true) (hput : (parse request).command = .put)
    : ∃ events, (w.processMessage env request).2.trace = w.trace ++ events
        ∧ (w.Tells env (parse request) events ↔ w.Invites env (parse request)) := by
  by_cases hready : ∃ m, w.PutReady (parse request) m
  . obtain ⟨m, hready⟩ := hready
    exact tells_put_ready hword hclosed hvalid hput hready
  . have hinvites : w.Invites env (parse request) := fun m h => absurd ⟨m, h⟩ hready
    have htells : ∃ events, (w.processMessage env request).2.trace = w.trace ++ events
        ∧ w.Tells env (parse request) events := by
      cases hgate : w.session.awaitsKey with
      | true => exact tells_refused env hvalid (by simp [hput]) hgate
      | false => exact tells_put_not_ready hword hclosed hvalid hput hgate (not_exists.mp hready)
    obtain ⟨events, htrace, htells⟩ := htells
    exact ⟨events, htrace, iff_of_true htells hinvites⟩

end World
end SimpleRsyncd
