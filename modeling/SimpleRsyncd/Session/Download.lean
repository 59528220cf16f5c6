import SimpleRsyncd.Session.Ledger

/-!
This module determines which downloads complete if every write delivers all its bytes. Completion is
noticed only after a chunk was sent, so the download of an empty file fails.
-/

namespace SimpleRsyncd

/--
Every write succeeds and delivers all its bytes.
-/
def Env.WritesAll (env : Env) : Prop :=
  ∀ i n, ∃ k, env.send i n = some k ∧ n ≤ k

namespace World

/--
A call of `continueFileTransfer` that returns true.
-/
def continueStep : Transition World Env :=
  fun w env w' => w.continueFileTransfer env = (.ok true, w')

/--
After some number of calls that all return true the session is idle, and these calls have written
`content` and the message that it is complete.
-/
def Completes (w : World) (content : Bytes) : Prop :=
  ∃ n, ∀ envs : List Env, envs.length = n → (∀ env ∈ envs, env.WritesAll) →
    ∃ w', continueStep.Run w envs w'
      ∧ w'.session.transferState = .idle
      ∧ (ledger w'.trace).delivered = (ledger w.trace).delivered ++ content ++ transferComplete

variable {w w' : World} {env : Env}

theorem writeSocket_of_writesAll (hrespond : w.session.canRespond = true) (henv : env.WritesAll)
    {i : Nat} {buffer : Bytes} (hne : buffer ≠ [])
    : w.session.writeSocket (env.send i) buffer = some buffer.length := by
  obtain ⟨k, hsend, hk⟩ := henv i buffer.length
  have hsocket : ¬w.session.clientSocket < 0 := by
    simp only [Session.canRespond, Bool.and_eq_true, decide_eq_true_eq] at hrespond
    omega
  have hlength : buffer.length ≠ 0 := by simpa using hne
  simp [Session.writeSocket, hsend, hsocket, Nat.min_eq_left hk, hlength]

theorem writeResponse_of_writesAll (hrespond : w.session.canRespond = true) (henv : env.WritesAll)
    {i : Nat} {response : Bytes} (hne : response ≠ [])
    : w.writeResponse (env.send i) response
        =
      (true, w.log [.response response response.length]) := by
  have hwrite := writeSocket_of_writesAll (i := i) hrespond henv hne
  cases response with
  | nil => contradiction
  | cons c response => simp [writeResponse, hrespond, hwrite]

/--
A session that sends the rest of a file and has as much left to send as there is to read.
-/
structure Downloading (w : World) (rest : Bytes) : Prop where
  respond : w.session.canRespond = true
  sending : w.session.transferState = .sendingFile
  file : w.session.downloadFile = some rest
  remaining : w.session.transferBytesRemaining = rest.length

theorem Downloading.nextChunk {rest : Bytes} (h : w.Downloading rest)
    : w.nextChunk = rest.take chunkSize := by
  simp [World.nextChunk, h.file, h.remaining, ← List.take_eq_take_min]

theorem Downloading.nextChunk_ne_nil {rest : Bytes} (h : w.Downloading rest) (hne : rest ≠ [])
    : w.nextChunk ≠ [] := by
  rw [h.nextChunk]
  simp [chunkSize, hne]

theorem Downloading.remaining_afterChunk {rest : Bytes} (h : w.Downloading rest)
    : (w.afterChunk w.nextChunk.length).session.transferBytesRemaining = rest.length - chunkSize := by
  have hlength : w.nextChunk.length = min chunkSize rest.length := by
    rw [h.nextChunk, List.length_take]
  have hle : w.nextChunk.length ≤ w.session.transferBytesRemaining := by
    rw [h.remaining]
    omega
  have hsub : (w.afterChunk w.nextChunk.length).session.transferBytesRemaining
      = w.session.transferBytesRemaining - w.nextChunk.length := sizeSub_of_le hle
  rw [hsub, hlength, h.remaining]
  omega

theorem Downloading.delivered_afterChunk {rest : Bytes} (h : w.Downloading rest)
    : (ledger (w.afterChunk w.nextChunk.length).trace).delivered
        =
      (ledger w.trace).delivered ++ rest.take chunkSize := by
  rw [← h.nextChunk]
  simp [afterChunk]

theorem Downloading.afterChunk {rest : Bytes} (h : w.Downloading rest)
    (hlength : chunkSize < rest.length)
    : (w.afterChunk w.nextChunk.length).Downloading (rest.drop chunkSize) := by
  refine ⟨h.respond, h.sending, ?_, ?_⟩
  . simp [World.afterChunk, h.file, h.remaining, Nat.min_eq_left hlength.le]
  . rw [h.remaining_afterChunk, List.length_drop]

/--
A chunk that is not the last one.
-/
theorem Downloading.continueStep_more {rest : Bytes} (h : w.Downloading rest)
    (hlength : chunkSize < rest.length) (henv : env.WritesAll)
    : continueStep w env (w.afterChunk w.nextChunk.length) := by
  have hne : rest ≠ [] := List.ne_nil_of_length_pos (by omega)
  have hremaining := h.remaining_afterChunk
  have hwrite := writeSocket_of_writesAll (i := 0) h.respond henv (h.nextChunk_ne_nil hne)
  have hmore : (w.afterChunk w.nextChunk.length).session.transferBytesRemaining ≠ 0 := by omega
  simp [continueStep, continueFileTransfer, h.sending, World.sendChunk, h.nextChunk_ne_nil hne, hwrite,
    hmore]

/--
The last chunk, and the message after it.
-/
theorem Downloading.continueStep_last {rest : Bytes} (h : w.Downloading rest) (hne : rest ≠ [])
    (hlength : rest.length ≤ chunkSize) (henv : env.WritesAll)
    : continueStep w env
        (((w.afterChunk w.nextChunk.length).endFileTransfer.log [.completed]).log
          [.response transferComplete transferComplete.length]) := by
  have hremaining := h.remaining_afterChunk
  have hwrite := writeSocket_of_writesAll (i := 0) h.respond henv (h.nextChunk_ne_nil hne)
  have hdone : (w.afterChunk w.nextChunk.length).session.transferBytesRemaining = 0 := by omega
  have hrespond : ((w.afterChunk w.nextChunk.length).endFileTransfer.log [.completed]).session.canRespond
      = true := h.respond
  have hne' : transferComplete ≠ [] := by decide
  have hresponse := writeResponse_of_writesAll (i := 1) hrespond henv hne'
  simp [continueStep, continueFileTransfer, h.sending, World.sendChunk, h.nextChunk_ne_nil hne, hwrite,
    hdone, hresponse]

theorem Downloading.completes {rest : Bytes} (h : w.Downloading rest) (hne : rest ≠ [])
    : w.Completes rest := by
  induction hlength : rest.length using Nat.strongRecOn generalizing w rest with
  | ind length ih =>
    by_cases hlast : rest.length ≤ chunkSize
    . refine ⟨1, ?_⟩
      intro envs hone hall
      obtain ⟨env, rfl⟩ := List.length_eq_one_iff.mp hone
      refine ⟨_, .single (h.continueStep_last hne hlast (hall env (by simp))), rfl, ?_⟩
      have hdelivered := h.delivered_afterChunk
      rw [List.take_of_length_le hlast] at hdelivered
      simp only [log, endFileTransfer, ledger_concat, Ledger.record, hdelivered, List.take_length]
    . have hpos : chunkSize = 8192 := rfl
      have hdrop : rest.drop chunkSize ≠ [] := by
        simp only [ne_eq, List.drop_eq_nil_iff]
        omega
      have hlt : chunkSize < rest.length := by omega
      have hdelivered := h.delivered_afterChunk
      obtain ⟨n, hn⟩ := ih _ (by rw [List.length_drop]; omega) (h.afterChunk hlt) hdrop rfl
      refine ⟨n + 1, ?_⟩
      intro envs hcount hall
      cases envs with
      | nil => simp at hcount
      | cons env envs =>
        simp only [List.length_cons, Nat.add_right_cancel_iff, List.forall_mem_cons] at hcount hall
        obtain ⟨w', hrun, hidle, hrest⟩ := hn envs hcount hall.2
        refine ⟨w', .cons (h.continueStep_more hlt hall.1) hrun, hidle, ?_⟩
        rw [hrest, hdelivered, List.append_assoc (ledger w.trace).delivered, List.take_append_drop]

theorem not_completes_nil (h : w.Downloading []) : ¬w.Completes [] := by
  rintro ⟨n, hn⟩
  have hall : ∀ env ∈ List.replicate n ({} : Env), env.WritesAll := by
    intro env hmem
    rw [List.eq_of_mem_replicate hmem]
    exact fun _ k => ⟨k, rfl, Nat.le_refl _⟩
  obtain ⟨w', hrun, hidle, -⟩ := hn _ List.length_replicate hall
  cases n with
  | zero =>
    rw [List.replicate_zero, Transition.run_nil_iff] at hrun
    subst hrun
    simp [h.sending] at hidle
  | succ n =>
    rw [List.replicate_succ, Transition.run_cons_iff] at hrun
    obtain ⟨w'', hstep, -⟩ := hrun
    have hchunk : w.nextChunk = [] := by
      rw [h.nextChunk]
      rfl
    simp [continueStep, continueFileTransfer, h.sending, sendChunk, hchunk] at hstep

theorem downloading_of_start {moduleName path content : Bytes} (hclosed : w.session.downloadFile = none)
    (hrespond : w.session.canRespond = true)
    (hstart : w.startFileDownload env moduleName path = (.ok true, w'))
    (hcontent : w'.session.downloadFile = some content)
    : w'.Downloading content := by
  rcases w.startFileDownload_cases env moduleName path with
    ⟨m, content', size, -, hopen, heq⟩ | ⟨hne, -⟩
  . rw [hstart] at heq
    obtain rfl := (Prod.mk.inj heq).2
    obtain rfl : content' = content := by simpa [beginSending] using hcontent
    have hsize := Module.size_of_openFile (read_of_openDownloadFile hclosed) hopen
    exact ⟨hrespond, rfl, rfl, hsize⟩
  . simp [hstart] at hne

/--
A download that started completes exactly if its file is not empty.
-/
theorem download_completes_iff {moduleName path content : Bytes}
    (hclosed : w.session.downloadFile = none) (hrespond : w.session.canRespond = true)
    (hstart : w.startFileDownload env moduleName path = (.ok true, w'))
    (hcontent : w'.session.downloadFile = some content)
    : w'.Completes content ↔ content ≠ [] := by
  have hdownloading := downloading_of_start hclosed hrespond hstart hcontent
  constructor
  . rintro hcompletes rfl
    exact not_completes_nil hdownloading hcompletes
  . exact hdownloading.completes

theorem download_completes_single
    : ((single none [(fileName, .file (bytes "abc"))]).startFileDownload {} moduleRoot.toBytes
        fileName.toBytes).2.Completes (bytes "abc") :=
  (download_completes_iff rfl (by decide) (Prod.ext (by decide) rfl)
    (by decide)).mpr (by decide)

/--
The download of an empty file starts and does not complete.
-/
theorem not_completes_single_empty
    : ∃ w, (single none [(fileName, .file [])]).startFileDownload {} moduleRoot.toBytes fileName.toBytes
          = (.ok true, w)
        ∧ ¬w.Completes [] :=
  ⟨_, Prod.ext (by decide) rfl,
    not_completes_nil ⟨by decide, by decide, by decide, by decide⟩⟩

end World
end SimpleRsyncd
