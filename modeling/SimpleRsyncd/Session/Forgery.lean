import SimpleRsyncd.Bytes.Decimal
import SimpleRsyncd.Session.Announcement

/-!
This module determines which responses contain the phrases that start a transfer. A client chooses words that become
part of a response, but none of them brings a phrase into it.
-/

namespace SimpleRsyncd

open ProtocolParser

/--
A text within a line that has none of the phrases in it.
-/
structure Harmless (text : Bytes) : Prop where
  newline_notMem : newline ∉ text
  readyForTransfer : ¬World.readyForTransfer <:+: text
  readyToReceive : ¬World.readyToReceive <:+: text

instance (text : Bytes) : Decidable (Harmless text) :=
  decidable_of_iff (newline ∉ text ∧ ¬World.readyForTransfer <:+: text ∧ ¬World.readyToReceive <:+: text)
    ⟨fun h => ⟨h.1, h.2.1, h.2.2⟩, fun h => ⟨h.newline_notMem, h.readyForTransfer, h.readyToReceive⟩⟩

/--
A text that ends in a colon and a space.
-/
def IsLabel (label : Bytes) : Prop :=
  Harmless (label.take (label.length - 2)) ∧ label.drop (label.length - 2) = bytes ": "

instance (label : Bytes) : Decidable (IsLabel label) :=
  inferInstanceAs (Decidable (_ ∧ _))

section harmless

variable {text : Bytes}

theorem harmless_of_word (h : ∀ c ∈ text, Bytes.isspace c = false) : Harmless text := by
  have hspace : ∀ c ∈ text, c ≠ 32 ∧ c ≠ newline := by
    intro c hc
    refine ⟨?_, ?_⟩ <;> rintro rfl <;> exact absurd (h _ hc) (by decide)
  have hphrase : ∀ {phrase : Bytes}, 32 ∈ phrase → ¬phrase <:+: text :=
    fun hmem hin => (hspace 32 (hin.subset hmem)).1 rfl
  exact ⟨fun hmem => (hspace newline hmem).2 rfl, hphrase (by decide), hphrase (by decide)⟩

theorem harmless_of_notMem (hnewline : newline ∉ text) (hletter : 82 ∉ text) : Harmless text :=
  ⟨hnewline, fun hin => hletter (hin.subset (by decide)), fun hin => hletter (hin.subset (by decide))⟩

/--
No phrase reaches over a colon, and none starts with a space.
-/
theorem not_infix_label {phrase pre : Bytes} (hcolon : 58 ∉ phrase) (hhead : phrase.head? = some 82)
    (hpre : ¬phrase <:+: pre) (htext : ¬phrase <:+: text)
    : ¬phrase <:+: pre ++ 58 :: 32 :: text := by
  intro hin
  rcases Bytes.infix_or_infix_of_infix_append_cons hcolon hin with hin | hin
  . exact hpre hin
  . rcases List.infix_cons_iff.mp hin with hstart | hin
    . cases phrase with
      | nil => contradiction
      | cons c phrase =>
        obtain rfl : c = 82 := by simpa using hhead
        exact absurd (List.cons_prefix_cons.mp hstart).1 (by decide)
    . exact htext hin

theorem IsLabel.harmless {label : Bytes} (h : IsLabel label) (htext : Harmless text) : Harmless (label ++ text) := by
  obtain ⟨hpre, hcolon⟩ := h
  rw [← List.take_append_drop (label.length - 2) label, hcolon]
  generalize label.take (label.length - 2) = pre at hpre
  rw [List.append_assoc]
  have hnewline : newline ∉ pre ++ 58 :: 32 :: text := by
    simp only [List.mem_append, List.mem_cons, not_or]
    exact ⟨hpre.newline_notMem, by decide, by decide, htext.newline_notMem⟩
  exact ⟨hnewline,
    not_infix_label (by decide) (by decide) hpre.readyForTransfer htext.readyForTransfer,
    not_infix_label (by decide) (by decide) hpre.readyToReceive htext.readyToReceive⟩

/--
A response of two harmless lines.
-/
theorem not_contains_lines {header : Bytes} (hheader : Harmless header) (htext : Harmless text)
    : Bytes.contains (header ++ bytes "\n" ++ text ++ bytes "\n") World.readyForTransfer = false
        ∧ Bytes.contains (header ++ bytes "\n" ++ text ++ bytes "\n") World.readyToReceive = false := by
  have hlines : header ++ bytes "\n" ++ text ++ bytes "\n" = header ++ newline :: (text ++ newline :: []) := by
    simp [show bytes "\n" = [newline] from rfl]
  have hphrase : ∀ phrase : Bytes, newline ∉ phrase → phrase ≠ [] → ¬phrase <:+: header → ¬phrase <:+: text →
      Bytes.contains (header ++ newline :: (text ++ newline :: [])) phrase = false := by
    intro phrase hnewline hne hheader htext
    rw [Bytes.contains, decide_eq_false_iff_not]
    intro hin
    rcases Bytes.infix_or_infix_of_infix_append_cons hnewline hin with hin | hin
    . exact hheader hin
    . rcases Bytes.infix_or_infix_of_infix_append_cons hnewline hin with hin | hin
      . exact htext hin
      . exact hne (List.infix_nil.mp hin)
  rw [hlines]
  exact ⟨hphrase _ (by decide) (by decide) hheader.readyForTransfer htext.readyForTransfer,
    hphrase _ (by decide) (by decide) hheader.readyToReceive htext.readyToReceive⟩

theorem mem_ofInt {n : Int} {c : UInt8} (h : c ∈ Bytes.ofInt n) : c = 45 ∨ 48 ≤ c ∧ c ≤ 57 := by
  cases n with
  | ofNat n => exact .inr (Bytes.range_of_mem_ofNat h)
  | negSucc n =>
    have hsign : Bytes.ofInt (.negSucc n) = bytes "-" ++ Bytes.ofNat (n + 1) := by
      simp [Bytes.ofInt, Bytes.ofNat, bytes, toString, Int.repr]
    have hminus : ∀ c ∈ bytes "-", c = 45 := by decide
    rw [hsign, List.mem_append] at h
    exact h.imp (hminus c) Bytes.range_of_mem_ofNat

theorem harmless_header (code : Int) : Harmless (bytes "@RSYNCD: ERROR " ++ Bytes.ofInt code) := by
  have hcode : ∀ c ∈ Bytes.ofInt code, c ≠ newline ∧ c ≠ 121 := by
    intro c hc
    refine ⟨?_, ?_⟩ <;> rintro rfl <;> exact absurd (mem_ofInt hc) (by decide)
  have hletter : 121 ∉ bytes "@RSYNCD: ERROR " ++ Bytes.ofInt code := by
    rw [List.mem_append, not_or]
    exact ⟨by decide, fun hmem => (hcode 121 hmem).2 rfl⟩
  refine ⟨?_, fun hin => hletter (hin.subset (by decide)), fun hin => hletter (hin.subset (by decide))⟩
  rw [List.mem_append, not_or]
  exact ⟨by decide, fun hmem => (hcode newline hmem).1 rfl⟩

end harmless

section tame

/--
Whether a response tells about an error.
-/
def isError (response : Bytes) : Bool :=
  Bytes.startsWith response (bytes "@RSYNCD: ERROR ")

/--
A response that tells about an error in one harmless line, or about none.
-/
def Tame (response : Bytes) : Prop :=
  (∃ code text, response = buildErrorResponse code text ∧ Harmless text) ∨ okHeader <+: response

variable {text response : Bytes}

theorem isError_buildErrorResponse (code : Int) (text : Bytes) : isError (buildErrorResponse code text) = true := by
  rw [isError, Bytes.startsWith_iff, buildErrorResponse, formatError]
  simp only [List.append_assoc]
  exact List.prefix_append _ _

theorem tame_error (code : Int) (h : Harmless text) : Tame (buildErrorResponse code text) :=
  .inl ⟨code, text, rfl, h⟩

theorem tame_ok (rest : Bytes) : Tame (bytes "@RSYNCD: OK\n" ++ rest) :=
  .inr (List.prefix_append _ rest)

theorem not_contains_buildErrorResponse (code : Int) (h : Harmless text)
    : Bytes.contains (buildErrorResponse code text) World.readyForTransfer = false
        ∧ Bytes.contains (buildErrorResponse code text) World.readyToReceive = false :=
  not_contains_lines (harmless_header code) h

/--
An error that is told of in one line.
-/
theorem Tame.exists_error (h : Tame response) (herror : isError response = true)
    : ∃ code text, response = buildErrorResponse code text ∧ Harmless text := by
  refine h.resolve_right fun hok => ?_
  have hheader := (Bytes.startsWith_iff _ _).mp herror
  exact absurd (List.prefix_of_prefix_length_le hok hheader (by decide)) (by decide)

theorem Tame.not_contains (h : Tame response) (herror : isError response = true)
    : Bytes.contains response World.readyForTransfer = false
        ∧ Bytes.contains response World.readyToReceive = false := by
  obtain ⟨code, text, rfl, htext⟩ := h.exists_error herror
  exact not_contains_buildErrorResponse code htext

theorem getlines_buildErrorResponse (code : Int) (h : newline ∉ text)
    : Bytes.getlines newline (buildErrorResponse code text) = [bytes "@RSYNCD: ERROR " ++ Bytes.ofInt code, text] := by
  have hlines : ∀ line ∈ [bytes "@RSYNCD: ERROR " ++ Bytes.ofInt code, text], newline ∉ line := by
    intro line hline
    simp only [List.mem_cons, List.not_mem_nil, or_false] at hline
    rcases hline with rfl | rfl
    . exact (harmless_header code).newline_notMem
    . exact h
  rw [← Bytes.getlines_flatMap hlines]
  simp [buildErrorResponse, formatError, show bytes "\n" = [newline] from rfl]

/--
All labels are harmless, so that an error is if the rest of its line is.
-/
theorem ProtocolHandler.Reply.tame {host : Host} {moduleName path : Bytes}
    (h : ProtocolHandler.Reply host moduleName path response) (hmodule : ∀ c ∈ moduleName, Bytes.isspace c = false)
    (hpath : ∀ c ∈ path, Bytes.isspace c = false) (hwhat : ∀ e, Harmless (host.what e))
    : Tame response := by
  have hmoduleLabels : ∀ label ∈ ProtocolHandler.moduleLabels, IsLabel label := by decide
  have hpathLabels : ∀ label ∈ ProtocolHandler.pathLabels, IsLabel label := by decide
  have hcaughtLabels : ∀ label ∈ ProtocolHandler.caughtLabels, IsLabel label := by decide
  have hrefusals : ∀ text ∈ [bytes "Invalid protocol message", bytes "Unknown command"], Harmless text := by decide
  cases h with
  | ofModule code hlabel => exact tame_error code ((hmoduleLabels _ hlabel).harmless (harmless_of_word hmodule))
  | ofPath code hlabel => exact tame_error code ((hpathLabels _ hlabel).harmless (harmless_of_word hpath))
  | caught hlabel e => exact tame_error 3 ((hcaughtLabels _ hlabel).harmless (hwhat e))
  | refused htext => exact tame_error (-1) (hrefusals _ htext)
  | ok => exact tame_ok _

end tame

namespace World

variable {w w' : World} {env : Env} {message : ProtocolMessage}

/--
One harmless line below the header of an error or of a success.
-/
def IsPlainAnswer (response : Bytes) : Prop :=
  ∃ text, Harmless text ∧ ((∃ code, response = buildErrorResponse code text) ∨ response = buildResponse true text)

theorem isPlainAnswer_error (code : Int) {text : Bytes} (h : Harmless text)
    : IsPlainAnswer (buildErrorResponse code text) :=
  ⟨text, h, .inl ⟨code, rfl⟩⟩

theorem isPlainAnswer_authenticated {user : Bytes} (huser : ∀ c ∈ user, Bytes.isspace c = false)
    : IsPlainAnswer (authenticated user) :=
  ⟨_, IsLabel.harmless (by decide) (harmless_of_word huser), .inr rfl⟩

theorem IsPlainAnswer.tame {response : Bytes} (h : IsPlainAnswer response) : Tame response := by
  obtain ⟨text, htext, ⟨code, rfl⟩ | rfl⟩ := h
  . exact tame_error code htext
  . simp only [buildResponse, formatSuccess, if_true, List.append_assoc]
    exact tame_ok _

theorem IsPlainAnswer.not_contains {response : Bytes} (h : IsPlainAnswer response)
    : Bytes.contains response readyForTransfer = false ∧ Bytes.contains response readyToReceive = false := by
  obtain ⟨text, htext, ⟨code, rfl⟩ | rfl⟩ := h
  . exact not_contains_buildErrorResponse code htext
  . exact not_contains_lines (show Harmless (bytes "@RSYNCD: OK") by decide) htext

section auth

variable (env : Env) (w : World) (hmodule : ∀ c ∈ message.module, Bytes.isspace c = false)

include hmodule

theorem isPlainAnswer_handlePublicKey : IsPlainAnswer (w.handlePublicKey env message).1 := by
  have hrequires : Harmless (bytes "AUTH requires: AUTH <user> <challenge> signature=<base64_ssh_sig>") :=
    harmless_of_notMem (by decide) (by decide)
  unfold handlePublicKey
  split
  . exact isPlainAnswer_error 500 (harmless_of_notMem (by decide) (by decide))
  . split
    . exact isPlainAnswer_error 400 hrequires
    . split
      . exact isPlainAnswer_error 400 hrequires
      . split
        . exact isPlainAnswer_authenticated hmodule
        . exact isPlainAnswer_error 403 (harmless_of_notMem (by decide) (by decide))

theorem isPlainAnswer_handlePassword : IsPlainAnswer (w.handlePassword env message).1 := by
  have hrequires : Harmless (bytes "AUTH requires: AUTH <user> _ password=<secret>") :=
    harmless_of_notMem (by decide) (by decide)
  unfold handlePassword
  split
  . exact isPlainAnswer_error 400 hrequires
  . split
    . exact isPlainAnswer_error 400 hrequires
    . split
      . exact isPlainAnswer_authenticated hmodule
      . exact isPlainAnswer_error 403 (harmless_of_notMem (by decide) (by decide))

theorem isPlainAnswer_handleAuthMessage : IsPlainAnswer (w.handleAuthMessage env message).1 := by
  have hdisabled : IsPlainAnswer (handleAuthMessage.disabled w).1 :=
    ⟨_, harmless_of_notMem (by decide) (by decide), .inr rfl⟩
  unfold handleAuthMessage
  split
  . exact hdisabled
  . split
    . exact hdisabled
    . split
      . exact isPlainAnswer_handlePublicKey env w hmodule
      . split
        . exact isPlainAnswer_handlePassword env w hmodule
        . exact isPlainAnswer_error 501 (harmless_of_notMem (by decide) (by decide))

end auth

/--
The response to the bytes of one `recv`, and the world in which it is acted upon.
-/
def answer (w : World) (env : Env) (request : Bytes) : Except Errno Bytes × World :=
  if (parse request).valid then
    w.handleProtocolMessage env (parse request)
  else
    (.ok (buildErrorResponse (-1) (bytes "Invalid protocol message: " ++ (parse request).errorMessage)), w)

theorem harmless_errorMessage (request : Bytes)
    : Harmless (bytes "Invalid protocol message: " ++ (parse request).errorMessage) := by
  have hempty : (parse request).errorMessage = [] ∨ (parse request).errorMessage = bytes "Empty data" := by
    unfold parse
    split
    . exact .inr rfl
    . split
      . split <;> exact .inl rfl
      . unfold parseBareLine
        dsimp only
        split <;> exact .inl rfl
  rcases hempty with h | h <;> rw [h] <;> decide

theorem isPlainAnswer_of_auth {request response : Bytes} (h : (w.answer env request).1 = .ok response)
    (hauth : (parse request).command = .auth)
    : IsPlainAnswer response := by
  unfold answer at h
  split at h
  . have hresponse : ((w.answering (parse request) []).handleAuthMessage env (parse request)).1 = response := by
      unfold handleProtocolMessage at h
      rw [setModule_eq_answering] at h
      simpa [hauth] using h
    rw [← hresponse]
    exact isPlainAnswer_handleAuthMessage env _ (parse_no_space request).1
  . obtain rfl := Except.ok.inj h
    exact isPlainAnswer_error (-1) (harmless_errorMessage request)

theorem tame_answer {request response : Bytes} (hword : w.HasWord) (hwhat : ∀ e, Harmless (env.host.what e))
    (h : (w.answer env request).1 = .ok response)
    : Tame response := by
  by_cases hauth : (parse request).command = .auth
  . exact (isPlainAnswer_of_auth h hauth).tame
  . obtain ⟨hmodule, hpath⟩ := parse_no_space request
    unfold answer at h
    split at h
    . rw [handleProtocolMessage_of_not_auth hauth] at h
      split at h
      . obtain rfl := Except.ok.inj h
        exact tame_error 401 (harmless_of_notMem (by decide) (by decide))
      . refine (ProtocolHandler.reply_handle _ _ _ _ h).tame ?_ hpath hwhat
        rw [moduleName_setModule]
        exact word_moduleName hword hmodule
    . obtain rfl := Except.ok.inj h
      exact tame_error (-1) (harmless_errorMessage request)

/--
A message is answered by its handler only if it is valid and the gate is open.
-/
theorem answer_cases {request response : Bytes} (h : (w.answer env request).1 = .ok response)
    (hauth : (parse request).command ≠ .auth)
    : (parse request).valid = true ∧ w.session.awaitsKey = false
        ∧ ((w.session.handler.setModule (w.session.handler.moduleName (parse request).module)).handle env.host
          (parse request) w.fs).1 = .ok response
      ∨ ¬((parse request).valid = true ∧ w.session.awaitsKey = false) ∧ isError response = true := by
  unfold answer at h
  split at h
  . next hvalid =>
    rw [handleProtocolMessage_of_not_auth hauth] at h
    split at h
    . next hgate =>
      obtain rfl := Except.ok.inj h
      exact .inr ⟨by simp [hgate], isError_buildErrorResponse _ _⟩
    . next hgate => exact .inl ⟨hvalid, by simpa using hgate, h⟩
  . next hvalid =>
    obtain rfl := Except.ok.inj h
    exact .inr ⟨by simp [hvalid], isError_buildErrorResponse _ _⟩

theorem readyForTransfer_iff {request response : Bytes} (htame : Tame response)
    (h : (w.answer env request).1 = .ok response) (hget : (parse request).command = .get)
    : Bytes.contains response readyForTransfer = true
        ↔
      (parse request).valid = true ∧ ∃ m info, w.GetReady env (parse request) m info := by
  rcases answer_cases h (by simp [hget]) with ⟨hvalid, hgate, hhandle⟩ | ⟨hrefused, herror⟩
  . have hhandleGet : (w.session.handler.setModule (w.session.handler.moduleName (parse request).module)).handleGet
        env.host (parse request) w.fs = .ok response := by
      simpa [ProtocolHandler.handle, hvalid, hget] using hhandle
    by_cases hready : ∃ m info, w.GetReady env (parse request) m info
    . obtain ⟨m, info, hready⟩ := hready
      obtain rfl := Except.ok.inj ((handleGet_of_ready hready).symm.trans hhandleGet)
      exact iff_of_true (contains_formatFile info) ⟨hvalid, m, info, hready⟩
    . refine iff_of_false ?_ (fun h => hready h.2)
      have hnot : ∀ m info, ¬w.GetReady env (parse request) m info := fun m info h => hready ⟨m, info, h⟩
      rcases handleGet_of_not_ready hgate hnot with ⟨e, hthrow⟩ | ⟨code, text, hresponse⟩
      . rw [hthrow] at hhandleGet
        contradiction
      . obtain rfl := Except.ok.inj (hresponse.symm.trans hhandleGet)
        simp [(htame.not_contains (isError_buildErrorResponse _ _)).1]
  . refine iff_of_false (by simp [(htame.not_contains herror).1]) ?_
    rintro ⟨hvalid, m, info, hready⟩
    exact hrefused ⟨hvalid, hready.gate⟩

theorem readyToReceive_iff {request response : Bytes} (hword : w.HasWord) (htame : Tame response)
    (h : (w.answer env request).1 = .ok response) (hput : (parse request).command = .put)
    : Bytes.contains response readyToReceive = true
        ↔
      (parse request).valid = true ∧ ∃ m, w.PutReady (parse request) m := by
  rcases answer_cases h (by simp [hput]) with ⟨hvalid, hgate, hhandle⟩ | ⟨hrefused, herror⟩
  . have hhandlePut : (w.session.handler.setModule (w.session.handler.moduleName (parse request).module)).handlePut
        (parse request) = response := by
      simpa [ProtocolHandler.handle, hvalid, hput] using hhandle
    by_cases hready : ∃ m, w.PutReady (parse request) m
    . obtain ⟨m, hready⟩ := hready
      rw [← hhandlePut, handlePut_of_ready hready]
      exact iff_of_true (contains_readyToReceive _) ⟨hvalid, m, hready⟩
    . obtain ⟨code, text, hresponse, -, hnone⟩ := handlePut_of_not_ready hgate
        (word_moduleName hword (parse_no_space request).1) (not_exists.mp hready)
      rw [← hhandlePut, hresponse, hnone]
      exact iff_of_false (by simp) (fun h => hready h.2)
  . refine iff_of_false (by simp [(htame.not_contains herror).2]) ?_
    rintro ⟨hvalid, m, hready⟩
    exact hrefused ⟨hvalid, hready.gate⟩

/--
In every state a session can reach, the phrases that start a transfer are in a response to a GET or PUT message
if and only if the handler offers the transfer. They are in no error and in no response to an AUTH message, and
an error has one line below its header.
-/
theorem announces_iff_ready {w w' : World} {actions : List Action} {env : Env} {request response : Bytes}
    (hfresh : w.Fresh) (hrun : step.Run w actions w') (hwhat : ∀ e, Harmless (env.host.what e))
    (hanswer : (w'.answer env request).1 = .ok response)
    : ((parse request).command = .get →
          (Bytes.contains response readyForTransfer = true
            ↔ (parse request).valid = true ∧ ∃ m info, w'.GetReady env (parse request) m info))
        ∧ ((parse request).command = .put →
          (Bytes.contains response readyToReceive = true
            ↔ (parse request).valid = true ∧ ∃ m, w'.PutReady (parse request) m))
        ∧ (isError response = true ∨ (parse request).command = .auth →
          Bytes.contains response readyForTransfer = false ∧ Bytes.contains response readyToReceive = false)
        ∧ (isError response = true →
          ∃ code text, response = buildErrorResponse code text
            ∧ Bytes.getlines newline response = [bytes "@RSYNCD: ERROR " ++ Bytes.ofInt code, text]) := by
  have hword : w'.HasWord := (Orderly.of_run hfresh hrun).word
  have htame : Tame response := tame_answer hword hwhat hanswer
  refine ⟨readyForTransfer_iff htame hanswer, readyToReceive_iff hword htame hanswer, ?_, ?_⟩
  . rintro (herror | hauth)
    . exact htame.not_contains herror
    . exact (isPlainAnswer_of_auth hanswer hauth).not_contains
  . intro herror
    obtain ⟨code, text, rfl, htext⟩ := htame.exists_error herror
    exact ⟨code, text, rfl, getlines_buildErrorResponse code htext.newline_notMem⟩

theorem announces_iff_ready_single
    : Bytes.contains (ProtocolHandler.readyToReceive (bytes "f")) readyToReceive = true
        ↔
      (parse (bytes "PUT m f\n")).valid = true ∧ ∃ m, (single none []).PutReady (parse (bytes "PUT m f\n")) m :=
  (announces_iff_ready (fresh_single none []) .nil (fun _ => show Harmless [] by decide)
    (show ((single none []).answer putRequest (bytes "PUT m f\n")).1 = .ok _ by decide)).2.1 (by decide)

end World
end SimpleRsyncd
