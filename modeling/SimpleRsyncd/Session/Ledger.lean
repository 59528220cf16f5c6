import SimpleRsyncd.Session.Lemmas
import SimpleRsyncd.Stream.Transmission

/-!
This module contains the ledger of a session: what the client has been delivered and what the session
counts as delivered, as far as the trace tells.
-/

namespace SimpleRsyncd

/--
`content`, `size` and `sent` are about the last download that was started: its file, the size
recorded for it and the data delivered of it. `reported` are the responses and files that count as
written, `unreported` is the file of a download that does not count as written yet.
-/
structure Ledger where
  delivered : Bytes := []
  reported : Bytes := []
  unreported : Bytes := []
  content : Bytes := []
  size : Nat := 0
  sent : Bytes := []

@[simp]
def Ledger.record (l : Ledger) : Event → Ledger
  | .response text k =>
    { l with delivered := l.delivered ++ text.take k, reported := l.reported ++ text }
  | .data chunk k =>
    { l with delivered := l.delivered ++ chunk.take k, sent := l.sent ++ chunk.take k }
  | .sending content size => { l with unreported := content, content, size, sent := [] }
  | .completed => { l with reported := l.reported ++ l.content, unreported := [] }
  | _ => l

def ledger (trace : List Event) : Ledger :=
  trace.foldl Ledger.record {}

@[simp]
theorem ledger_concat (trace : List Event) (e : Event)
    : ledger (trace ++ [e]) = (ledger trace).record e := by
  simp [ledger]

/--
Events that are not about bytes for the client.
-/
def Event.isSilent : Event → Bool
  | .response _ _ | .data _ _ | .sending _ _ | .completed => false
  | _ => true

theorem ledger_append_of_isSilent {trace events : List Event}
    (h : ∀ e ∈ events, e.isSilent = true)
    : ledger (trace ++ events) = ledger trace := by
  induction events using List.reverseRecOn with
  | nil => simp
  | append_singleton events e ih =>
    rw [← List.append_assoc, ledger_concat, ih fun e he => h e (List.mem_append_left _ he)]
    have := h e (by simp)
    cases e <;> simp_all [Event.isSilent, Ledger.record]

namespace Module

theorem describe_of_path_ne_nil {host : Host} {fs : FileSystem} {fullPath : Bytes}
    (h : (describe host fs fullPath).path ≠ [])
    : ∃ l, fs.resolve fullPath = .ok l
        ∧ (describe host fs fullPath).path = fullPath
        ∧ (describe host fs fullPath).size = ((fs.data l).map List.length).getD 0 := by
  unfold describe at h ⊢
  split
  . next l _ hl => exact ⟨l, hl, rfl, rfl⟩
  . simp_all

theorem getFileInfo_of_path_ne_nil {m : Module} {host : Host} {fs : FileSystem} {path : Bytes}
    {info : FileInfo} (hinfo : m.getFileInfo host fs path = .ok info) (h : info.path ≠ [])
    : ∃ l, fs.resolve info.path = .ok l ∧ info.size = ((fs.data l).map List.length).getD 0 := by
  unfold getFileInfo at hinfo
  simp only [bind, Except.bind] at hinfo
  repeat' split at hinfo
  all_goals try contradiction
  all_goals
    obtain rfl := Except.ok.inj hinfo
  . obtain ⟨l, hl, hpath, hsize⟩ := describe_of_path_ne_nil h
    exact ⟨l, by rw [hpath, hl], hsize⟩
  . simp at h
  . simp at h

/--
The size recorded for a download is that of what there is to read.
-/
theorem size_of_openFile {m : Module} {host : Host} {read : Bytes → Option Bytes} {fs : FileSystem}
    {path content : Bytes} {size : Nat}
    (hread : ∀ p content, read p = some content → fs.read p = some content)
    (h : m.openFile host read fs path = .ok (some (content, size)))
    : size = content.length := by
  unfold openFile at h
  simp only [bind, Except.bind] at h
  split at h
  . contradiction
  . next info hinfo =>
    split at h
    . simp at h
    . next hpath =>
      split at h
      . contradiction
      . split at h
        . simp only [Except.ok.injEq, Option.map_eq_some_iff, Prod.mk.injEq] at h
          obtain ⟨_, hcontent, rfl, rfl⟩ := h
          obtain ⟨l, hl, hsize⟩ := getFileInfo_of_path_ne_nil hinfo (by simpa using hpath)
          have hdata := hread _ _ hcontent
          rw [FileSystem.read, hl] at hdata
          simp [hsize, hdata]
        . simp at h

end Module

namespace World

variable {w w' : World} {env : Env}

theorem read_of_openDownloadFile (h : w.session.downloadFile = none) (p content : Bytes)
    (hopen : w.openDownloadFile env p = some content)
    : w.fs.read p = some content := by
  simp only [openDownloadFile, h, Option.isSome_none, Bool.false_eq_true, ↓reduceIte] at hopen
  split at hopen
  . exact hopen
  . contradiction

theorem writeSocket_eq_some {s : Session} {send : Nat → Option Nat} {buffer : Bytes} {k : Nat}
    (h : s.writeSocket send buffer = some k)
    : ∃ k', send buffer.length = some k' ∧ k = min buffer.length k' := by
  unfold Session.writeSocket at h
  cases hsend : send buffer.length with
  | none => simp [hsend] at h
  | some k' =>
    simp only [hsend, Option.map_some] at h
    exact ⟨k', rfl, by grind⟩

theorem writeSocket_le {s : Session} {send : Nat → Option Nat} {buffer : Bytes} {k : Nat}
    (h : s.writeSocket send buffer = some k)
    : k ≤ buffer.length := by
  obtain ⟨k', -, rfl⟩ := writeSocket_eq_some h
  apply Nat.min_le_left

theorem sizeSub_of_le {a b : Nat} (h : b ≤ a) : sizeSub a b = a - b := by
  simp [sizeSub, h]

/--
Responses a session writes that do not claim the end of a download.
-/
theorem hasHead_ne_transferComplete {response : Bytes} (h : ProtocolHandler.HasHead response)
    : response ≠ transferComplete := by
  rintro rfl
  have : ∀ head ∈ ProtocolHandler.heads, ¬head <+: transferComplete := by decide
  obtain ⟨head, hmem, hbelow⟩ := h
  exact this head hmem hbelow

theorem hasHead_authenticated (user : Bytes) : ProtocolHandler.HasHead (authenticated user) := by
  apply ProtocolHandler.hasHead_success (bytes "Authenticat") (by decide)
  exact List.IsPrefix.trans (by decide) (List.prefix_append _ _)

theorem hasHead_handleAuthMessage (message : ProtocolMessage)
    : ProtocolHandler.HasHead (w.handleAuthMessage env message).1 := by
  unfold handleAuthMessage handleAuthMessage.disabled handlePublicKey handlePassword
  repeat' split
  all_goals first
    | apply ProtocolHandler.hasHead_error
    | apply hasHead_authenticated
    | exact ProtocolHandler.hasHead_success (bytes "Authenticat") (by decide) (by decide)

theorem hasHead_handleProtocolMessage {message : ProtocolMessage} {response : Bytes}
    (h : (w.handleProtocolMessage env message).1 = .ok response)
    : ProtocolHandler.HasHead response := by
  unfold handleProtocolMessage at h
  dsimp only at h
  split at h
  . obtain rfl := Except.ok.inj h
    apply ProtocolHandler.hasHead_error
  . split at h
    . obtain rfl := Except.ok.inj h
      apply hasHead_handleAuthMessage
    . exact (ProtocolHandler.reply_handle _ _ _ _ h).hasHead

/--
An upload that starts leaves the download alone and sends nothing.
-/
theorem startFileUpload_silent {moduleName path : Bytes}
    (h : w.startFileUpload env moduleName path = (.ok true, w'))
    : w'.session.transferState = .receivingFile
        ∧ w'.session.downloadFile = w.session.downloadFile
        ∧ ∃ events, w'.trace = w.trace ++ events ∧ ∀ e ∈ events, e.isSilent = true := by
  rcases w.startFileUpload_cases env moduleName path with
    ⟨m, fs, made, opened, -, -, -, heq⟩ | ⟨hne, -⟩
  . rw [h] at heq
    obtain rfl := (Prod.mk.inj heq).2
    refine ⟨rfl, rfl, made.map .made ++ opened.toList.map .opened ++ [.receiving], ?_, ?_⟩
    . simp [beginReceiving, setUploadFile, nameTransfer]
    . simp only [List.mem_append, List.mem_map, List.mem_singleton]
      rintro e ((⟨l, -, rfl⟩ | ⟨l, -, rfl⟩) | rfl) <;> rfl
  . simp [h] at hne

end World
end SimpleRsyncd
