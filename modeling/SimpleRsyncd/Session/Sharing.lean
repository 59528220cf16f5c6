import SimpleRsyncd.Session.Overwrite

/-!
This module contains several sessions that upload to the same path of a module at the same time. They
share the temporary file, but each has a stream with an offset of its own.
-/

namespace SimpleRsyncd

namespace World

variable (env : Env) (offset : Nat) (w : World)

/--
`storeChunk` of a stream that is at this offset of its file.
-/
def storeChunkAt (chunk : Bytes) : World :=
  {
    w with
    session := { w.session with transferBytesSent := w.session.transferBytesSent + chunk.length }
    fs :=
      match w.session.uploadFile with
      | some l => w.fs.writeAt l offset chunk
      | none => w.fs
  }

/--
`continueFileTransfer` in state `RECEIVING_FILE`, with a stream that is at this offset of its file.
-/
def receiveChunkAt : World :=
  let (received, session) := w.session.readSocket env.recv chunkSize
  match received with
  | none | some [] => (w.receiveChunk env).2
  | some chunk => { w with session }.storeChunkAt offset chunk

variable {env offset w} {m : Module} {path content : Bytes} {fs : FileSystem} {l : Loc}

/--
For a session that is alone with its file it makes no difference that the stream has an offset.
-/
theorem Receiving.receiveChunkAt (h : w.Receiving m path fs l content)
    : w.receiveChunkAt env content.length = (w.receiveChunk env).2 := by
  obtain ⟨ssl, hssl⟩ := readSocket_frame w.session env.recv chunkSize
  unfold World.receiveChunkAt World.receiveChunk
  rcases hread : w.session.readSocket env.recv chunkSize with ⟨_ | _ | ⟨b, bs⟩, session⟩
  . rfl
  . rfl
  . simp only [hread] at hssl
    subst hssl
    simp [storeChunk, storeChunkAt, h.file, FileSystem.writeAt_length _ h.writes.content]

/--
At the end of the stream or after an error the session forgets the file, which stays as it is.
-/
theorem receiveChunkAt_of_ending (w : World) (offset : Nat)
    (hending : (w.session.readSocket env.recv chunkSize).1 = none
      ∨ (w.session.readSocket env.recv chunkSize).1 = some [])
    : (w.receiveChunkAt env offset).fs = w.fs
        ∧ (w.receiveChunkAt env offset).session.transferState = .idle
        ∧ (w.receiveChunkAt env offset).session.uploadFile = none
        ∧ (w.receiveChunkAt env offset).session.handler = w.session.handler := by
  obtain ⟨ssl, hssl⟩ := readSocket_frame w.session env.recv chunkSize
  -- without the name of its module the upload has nothing to move
  have hnothing : ∀ w : World, w.endFileTransfer.finishUpload = .ok w.fs := fun _ => rfl
  unfold World.receiveChunkAt World.receiveChunk
  rcases hread : w.session.readSocket env.recv chunkSize with ⟨_ | _ | ⟨b, bs⟩, session⟩
  . obtain rfl : session = _ := (congrArg Prod.snd hread).symm.trans hssl
    exact ⟨rfl, rfl, rfl, rfl⟩
  . obtain rfl : session = _ := (congrArg Prod.snd hread).symm.trans hssl
    simp only [hnothing]
    generalize hw : endFileTransfer _ = w'
    have hsession : ∀ w : World, (w.writeResponse (env.send 0) uploadComplete).2.session = w.session := by
      intro w
      rcases w.writeResponse_cases (env.send 0) uploadComplete with heq | ⟨k, -, heq⟩ <;> rw [heq]
      rfl
    rw [fs_writeResponse, hsession]
    subst hw
    exact ⟨rfl, rfl, rfl, rfl⟩
  . simp [hread] at hending

/--
A chunk changes nothing about the session but how much it has received.
-/
theorem receiveChunkAt_of_chunk (w : World) (offset : Nat) {b : UInt8} {bs : Bytes}
    (hread : (w.session.readSocket env.recv chunkSize).1 = some (b :: bs)) (hfile : w.session.uploadFile = some l)
    : (w.receiveChunkAt env offset).fs = w.fs.writeAt l offset (b :: bs)
        ∧ (w.receiveChunkAt env offset).session.transferState = w.session.transferState
        ∧ (w.receiveChunkAt env offset).session.uploadFile = w.session.uploadFile
        ∧ (w.receiveChunkAt env offset).session.handler = w.session.handler := by
  obtain ⟨ssl, hssl⟩ := readSocket_frame w.session env.recv chunkSize
  unfold World.receiveChunkAt
  rcases heq : w.session.readSocket env.recv chunkSize with ⟨received, session⟩
  obtain rfl : session = _ := (congrArg Prod.snd heq).symm.trans hssl
  rw [heq] at hread
  obtain rfl : received = some (b :: bs) := hread
  simp [storeChunkAt, hfile]

end World

/--
Sessions with the same file system, and the offsets of their streams.
-/
structure Sharing (ι : Type) where
  fs : FileSystem
  sessions : ι → Session
  offsets : ι → Nat := fun _ => 0

/--
A session starts its upload, or it receives these bytes: nothing at the end of the stream, and `none` if
there is an error.
-/
inductive SharingStep (ι : Type) where
  | start (i : ι)
  | receive (i : ι) (received : Option Bytes)

namespace Sharing

variable {ι : Type} [DecidableEq ι]

/--
What one of the sessions sees.
-/
def world (s : Sharing ι) (i : ι) : World :=
  { session := s.sessions i, fs := s.fs }

def update (s : Sharing ι) (i : ι) (w : World) (offset : Nat) : Sharing ι where
  fs := w.fs
  sessions := Function.update s.sessions i w.session
  offsets := Function.update s.offsets i offset

/--
Uploads to a path of a module, with the steps of all sessions in any order.
-/
def step (moduleName path : Bytes) : Transition (Sharing ι) (SharingStep ι) := fun s a s' =>
  match a with
  | .start i => (s.sessions i).transferState = .idle
    ∧ ∃ env w, (s.world i).startFileUpload env moduleName path = (.ok true, w) ∧ s' = s.update i w 0
  | .receive i received => (s.sessions i).transferState = .receivingFile
    ∧ ∃ env : Env, ((s.sessions i).readSocket env.recv chunkSize).1 = received
      ∧ s' = s.update i ((s.world i).receiveChunkAt env (s.offsets i))
        (s.offsets i + (received.getD []).length)

/--
The session that has started its upload last.
-/
def lastStarted (steps : List (SharingStep ι)) : Option ι :=
  steps.foldl (fun last a => match a with
    | .start i => some i
    | .receive _ _ => last) none

/--
All that a session has received since it started its upload.
-/
def received (i : ι) (steps : List (SharingStep ι)) : Bytes :=
  steps.foldl (fun bytes a => match a with
    | .start j => if j = i then [] else bytes
    | .receive j chunk => if j = i then bytes ++ chunk.getD [] else bytes) []

/--
The temporary file holds what one of the sessions has received, without anything of the others.
-/
def Unmixed (m : Module) (path : Bytes) (steps : List (SharingStep ι)) (s : Sharing ι) : Prop :=
  ∃ i l, .start i ∈ steps ∧ m.locate s.fs (tempPath path) = .ok l ∧ s.fs.data l = some (received i steps)

/--
A session receives data only as long as no other session has started its upload after it.
-/
def InTurn : List (SharingStep ι) → Prop :=
  Along fun before a => ∀ i b chunk, a = .receive i (some (b :: chunk)) → lastStarted before = some i

/--
Sessions that have not started an upload, and know the module under its name.
-/
structure Ready (moduleName : Bytes) (m : Module) (s : Sharing ι) : Prop where
  idle : ∀ i, (s.sessions i).transferState = .idle
  closed : ∀ i, (s.sessions i).uploadFile = none
  target : ∀ i, (s.world i).transferTarget moduleName = some m

variable {moduleName path : Bytes} {m : Module} {steps : List (SharingStep ι)} {s s' : Sharing ι} {i j : ι}

omit [DecidableEq ι] in
@[simp]
theorem lastStarted_start : lastStarted (steps ++ [.start i]) = some i := by
  simp [lastStarted]

omit [DecidableEq ι] in
@[simp]
theorem lastStarted_receive (chunk : Option Bytes) : lastStarted (steps ++ [.receive i chunk]) = lastStarted steps := by
  simp [lastStarted]

omit [DecidableEq ι] in
theorem start_mem_of_lastStarted (h : lastStarted steps = some i) : .start i ∈ steps := by
  induction steps using List.reverseRecOn with
  | nil => simp [lastStarted] at h
  | append_singleton steps a ih =>
    cases a with
    | start j => simp_all
    | receive j chunk => simp_all

@[simp]
theorem received_start : received j (steps ++ [.start i]) = if i = j then [] else received j steps := by
  simp [received]

@[simp]
theorem received_receive (chunk : Option Bytes)
    : received j (steps ++ [.receive i chunk])
      = if i = j then received j steps ++ chunk.getD [] else received j steps := by
  simp [received]

/--
What the sessions have to do with the temporary file: the one that has started last has written all
that is in it, and the streams of the others lead to the same file.
-/
structure Invariant (moduleName path : Bytes) (m : Module) (steps : List (SharingStep ι)) (s : Sharing ι)
    : Prop where
  closed : ∀ i, (s.sessions i).transferState ≠ .receivingFile → (s.sessions i).uploadFile = none
  target : ∀ i, (s.world i).transferTarget moduleName = some m
  quiet : lastStarted steps = none → ∀ i, (s.sessions i).transferState ≠ .receivingFile
  held : ∀ i, lastStarted steps = some i → ∃ l, m.locate s.fs (tempPath path) = .ok l
    ∧ s.fs.data l = some (received i steps)
    ∧ (∀ j, (s.sessions j).transferState = .receivingFile → (s.sessions j).uploadFile = some l)
    ∧ ((s.sessions i).transferState = .receivingFile → s.offsets i = (received i steps).length)

theorem invariant_of_ready (h : Ready moduleName m s) : Invariant moduleName path m [] s where
  closed := fun i _ => h.closed i
  target := h.target
  quiet := fun _ i => by simp [h.idle i]
  held := by simp [lastStarted]

@[simp]
theorem fs_update {w : World} {offset : Nat} : (s.update i w offset).fs = w.fs := rfl

/--
Only the session that takes a step changes.
-/
theorem sessions_update_of_ne {w : World} {offset : Nat} (h : j ≠ i)
    : (s.update i w offset).sessions j = s.sessions j ∧ (s.update i w offset).offsets j = s.offsets j := by
  simp [update, h]

theorem target_update {w : World} {offset : Nat} (htarget : ∀ i, (s.world i).transferTarget moduleName = some m)
    (hhandler : w.session.handler = (s.sessions i).handler)
    : ∀ j, ((s.update i w offset).world j).transferTarget moduleName = some m := by
  intro j
  have hsame : ((s.update i w offset).sessions j).handler = (s.sessions j).handler := by
    by_cases hj : j = i
    . subst hj
      simpa [update] using hhandler
    . rw [(sessions_update_of_ne hj).1]
  rw [← htarget j]
  simp only [World.transferTarget, world, hsame]

theorem Invariant.start (h : Invariant moduleName path m steps s)
    (hstep : step moduleName path s (.start i) s')
    : Invariant moduleName path m (steps ++ [.start i]) s' := by
  obtain ⟨hidle, env, w, hstart, rfl⟩ := hstep
  have hclosed : (s.world i).session.uploadFile = none := h.closed i (by simp [hidle])
  have hstart' := hstart
  rw [World.startFileUpload_of_closed (h.target i) hclosed] at hstart'
  rcases hopen : m.openTemp env.openUpload (s.world i).fs path with e | ⟨fs', made, _ | l⟩
  . simp [hopen] at hstart'
  . simp [hopen] at hstart'
  . simp only [hopen, Option.isSome_some, if_true, Prod.mk.injEq, true_and] at hstart'
    have hfile : w.session.uploadFile = some l := by
      simp [← hstart', World.beginReceiving, World.setUploadFile]
    have hreceiving := World.receiving_of_start (h.target i) hclosed hstart hfile
    have hhandler : w.session.handler = (s.sessions i).handler := by
      simp [← hstart', World.beginReceiving, World.setUploadFile, World.nameTransfer, world]
    obtain ⟨_, _, -, -, hopened⟩ := Module.openTemp_eq_ok hopen
    rw [(hopened l rfl).1] at hopen
    have hsame : ∀ j, j ≠ i → (s.sessions j).transferState = .receivingFile →
        (s.sessions j).uploadFile = some l := by
      intro j hj hbusy
      cases hlast : lastStarted steps with
      | none => exact absurd hbusy (h.quiet hlast j)
      | some k =>
        obtain ⟨l₀, hlocate, hdata, hfiles, -⟩ := h.held k hlast
        have hl := (Module.openTemp_of_locate hlocate hdata).symm.trans hopen
        obtain rfl : l₀ = l := by simp_all
        exact hfiles j hbusy
    refine ⟨?_, target_update h.target hhandler, by simp, ?_⟩
    . intro j hj
      by_cases hij : j = i
      . subst hij
        simp [update, hreceiving.state] at hj
      . rw [(sessions_update_of_ne hij).1] at hj ⊢
        exact h.closed j hj
    . intro k hk
      obtain rfl : i = k := by simpa using hk
      refine ⟨l, hreceiving.temp, ?_, ?_, ?_⟩
      . simpa using hreceiving.writes.content
      . intro j hj
        by_cases hij : j = i
        . subst hij
          simpa [update] using hfile
        . rw [(sessions_update_of_ne hij).1] at hj ⊢
          exact hsame j hij hj
      . simp [update]

/--
A session that stops receiving has nothing to do with the file any more.
-/
theorem Invariant.ending {chunk : Option Bytes} (h : Invariant moduleName path m steps s)
    (hending : chunk = none ∨ chunk = some []) (hstep : step moduleName path s (.receive i chunk) s')
    : Invariant moduleName path m (steps ++ [.receive i chunk]) s' := by
  obtain ⟨hbusy, env, hread, rfl⟩ := hstep
  rw [← hread] at hending
  obtain ⟨hfs, hidle, hfile, hhandler⟩ :=
    (s.world i).receiveChunkAt_of_ending (s.offsets i) hending
  rw [hread] at hending
  have hnothing : chunk.getD [] = [] := by rcases hending with rfl | rfl <;> rfl
  have hsame : ∀ k, received k (steps ++ [.receive i chunk]) = received k steps := by
    simp [hnothing]
  refine ⟨?_, target_update h.target hhandler, ?_, ?_⟩
  . intro j hj
    by_cases hij : j = i
    . subst hij
      simpa [update] using hfile
    . rw [(sessions_update_of_ne hij).1] at hj ⊢
      exact h.closed j hj
  . intro hnone
    rw [lastStarted_receive] at hnone
    exact absurd hbusy (h.quiet hnone i)
  . intro k hk
    rw [lastStarted_receive] at hk
    obtain ⟨l, hlocate, hdata, hfiles, hoffset⟩ := h.held k hk
    simp only [fs_update, hfs, hsame]
    refine ⟨l, hlocate, hdata, ?_, ?_⟩
    . intro j hj
      by_cases hij : j = i
      . subst hij
        simp [update, hidle] at hj
      . rw [(sessions_update_of_ne hij).1] at hj ⊢
        exact hfiles j hj
    . intro hj
      by_cases hij : k = i
      . subst hij
        simp [update, hidle] at hj
      . rw [(sessions_update_of_ne hij).1] at hj
        rw [(sessions_update_of_ne hij).2]
        exact hoffset hj

/--
The session that has started last writes at the end of the file.
-/
theorem Invariant.chunk {b : UInt8} {bs : Bytes} (h : Invariant moduleName path m steps s)
    (hlast : lastStarted steps = some i) (hstep : step moduleName path s (.receive i (some (b :: bs))) s')
    : Invariant moduleName path m (steps ++ [.receive i (some (b :: bs))]) s' := by
  obtain ⟨hbusy, env, hread, rfl⟩ := hstep
  obtain ⟨l, hlocate, hdata, hfiles, hoffset⟩ := h.held i hlast
  have hfile := hfiles i hbusy
  obtain ⟨hfs, hstate, hfile', hhandler⟩ :=
    (s.world i).receiveChunkAt_of_chunk (s.offsets i) hread hfile
  have hwrites := FileSystem.writes_appendData (b :: bs) hdata
  rw [hoffset hbusy] at hfs hstate hfile' hhandler ⊢
  rw [show (s.world i).fs = s.fs from rfl, FileSystem.writeAt_length _ hdata] at hfs
  generalize (s.world i).receiveChunkAt env (received i steps).length = w at hfs hstate hfile' hhandler ⊢
  have hsame : ∀ n j, ((s.update i w n).sessions j).transferState = (s.sessions j).transferState
      ∧ ((s.update i w n).sessions j).uploadFile = (s.sessions j).uploadFile := by
    intro n j
    by_cases hij : j = i
    . subst hij
      simpa [update] using ⟨hstate, hfile'⟩
    . simp [sessions_update_of_ne hij]
  refine ⟨?_, target_update h.target hhandler, ?_, ?_⟩
  . intro j hj
    rw [(hsame _ j).1] at hj
    rw [(hsame _ j).2]
    exact h.closed j hj
  . simp [hlast]
  . intro k hk
    obtain rfl : i = k := by simpa [hlast] using hk
    simp only [fs_update, hfs]
    refine ⟨l, Module.locate_of_writes hwrites hlocate, ?_, ?_, ?_⟩
    . simpa using hwrites.content
    . intro j hj
      rw [(hsame _ j).1] at hj
      rw [(hsame _ j).2]
      exact hfiles j hj
    . simp [update]

/--
What a run preserves in which every session receives in turn.
-/
theorem invariant_of_run (hready : Ready moduleName m s) (hrun : (step moduleName path).Run s steps s')
    (hturn : InTurn steps)
    : Invariant moduleName path m steps s' := by
  induction hrun with
  | nil => exact invariant_of_ready hready
  | @snoc steps a s₁ s₂ hrun hstep ih =>
    have hbefore : InTurn steps := by
      rintro before e after rfl
      exact hturn before e (after ++ [a]) (by simp)
    have hinvariant := ih hbefore
    cases a with
    | start i => exact hinvariant.start hstep
    | receive i chunk =>
      match chunk with
      | none => exact hinvariant.ending (.inl rfl) hstep
      | some [] => exact hinvariant.ending (.inr rfl) hstep
      | some (b :: bs) => exact hinvariant.chunk (hturn steps _ [] rfl i b bs rfl) hstep

/--
However the steps of several uploads to one path are interleaved: as long as a session receives no data
after another one has started, the temporary file holds what one of them has received.
-/
theorem unmixed_of_run (hready : Ready moduleName m s) (hrun : (step moduleName path).Run s steps s')
    (hturn : InTurn steps) (hstarted : lastStarted steps ≠ none)
    : Unmixed m path steps s' := by
  obtain ⟨i, hlast⟩ := Option.ne_none_iff_exists'.mp hstarted
  obtain ⟨l, hlocate, hdata, -⟩ := (invariant_of_run hready hrun hturn).held i hlast
  exact ⟨i, l, start_mem_of_lastStarted hlast, hlocate, hdata⟩

open World in
/--
Two new sessions.
-/
def pair : Sharing Bool where
  fs := (single none []).fs
  sessions := fun _ => (single none []).session

def started (i : ι) (s : Sharing ι) : Sharing ι :=
  s.update i ((s.world i).startFileUpload {} World.moduleRoot.toBytes World.fileName.toBytes).2 0

def receives (i : ι) (chunk : Option Bytes) (s : Sharing ι) : Sharing ι :=
  s.update i ((s.world i).receiveChunkAt { recv := chunk } (s.offsets i))
    (s.offsets i + (chunk.getD []).length)

theorem step_started (hidle : (s.sessions i).transferState = .idle)
    (hstart : ((s.world i).startFileUpload {} World.moduleRoot.toBytes World.fileName.toBytes).1 = .ok true)
    : step World.moduleRoot.toBytes World.fileName.toBytes s (.start i) (started i s) :=
  ⟨hidle, {}, _, Prod.ext hstart rfl, rfl⟩

theorem step_receives {chunk : Option Bytes} (hbusy : (s.sessions i).transferState = .receivingFile)
    (hread : ((s.sessions i).readSocket chunk chunkSize).1 = chunk)
    : step moduleName path s (.receive i chunk) (receives i chunk s) :=
  ⟨hbusy, { recv := chunk }, hread, rfl⟩

/--
One upload after the other.
-/
def apart : List (SharingStep Bool) :=
  [.start false, .receive false (some (bytes "aaaa")), .receive false (some []),
    .start true, .receive true (some (bytes "bb")), .receive true (some [])]

theorem unmixed_single
    : ∃ s, (step World.moduleRoot.toBytes World.fileName.toBytes).Run pair apart s
        ∧ Unmixed { config := { path := bytes "/m" } } World.fileName.toBytes apart s := by
  have hready : Ready World.moduleRoot.toBytes { config := { path := bytes "/m" } } pair :=
    ⟨fun _ => rfl, fun _ => rfl, by decide⟩
  have hrun : (step World.moduleRoot.toBytes World.fileName.toBytes).Run pair apart _ :=
    .cons (step_started (by decide) (by decide))
      (.cons (step_receives (by decide) (by decide))
      (.cons (step_receives (by decide) (by decide))
      (.cons (step_started (by decide) (by decide))
      (.cons (step_receives (by decide) (by decide))
      (.cons (step_receives (by decide) (by decide)) .nil)))))
  have hturn : InTurn apart :=
    Along.nil.concat (by simp) |>.concat (by rintro i b chunk ⟨⟩; rfl) |>.concat (by simp)
      |>.concat (by simp) |>.concat (by rintro i b chunk ⟨⟩; rfl) |>.concat (by simp)
  exact ⟨_, hrun, unmixed_of_run hready hrun hturn (by decide)⟩

/--
The second session starts while the first one is still uploading.
-/
def crossed : List (SharingStep Bool) :=
  [.start false, .receive false (some (bytes "aa")), .start true, .receive true (some (bytes "bb")),
    .receive false (some (bytes "aa")), .receive false (some []), .receive true (some [])]

/--
The rest of the first file ends up behind the second one.
-/
theorem not_unmixed_single
    : ∃ s, (step World.moduleRoot.toBytes World.fileName.toBytes).Run pair crossed s
        ∧ (∀ i, (s.sessions i).transferState = .idle)
        ∧ ¬Unmixed { config := { path := bytes "/m" } } World.fileName.toBytes crossed s := by
  have hrun : (step World.moduleRoot.toBytes World.fileName.toBytes).Run pair crossed _ :=
    .cons (step_started (by decide) (by decide))
      (.cons (step_receives (by decide) (by decide))
      (.cons (step_started (by decide) (by decide))
      (.cons (step_receives (by decide) (by decide))
      (.cons (step_receives (by decide) (by decide))
      (.cons (step_receives (by decide) (by decide))
      (.cons (step_receives (by decide) (by decide)) .nil))))))
  refine ⟨_, hrun, by decide, ?_⟩
  rintro ⟨i, l, -, hlocate, hdata⟩
  have hl : l = [World.moduleRoot, ⟨bytes "f.tmp", by decide⟩] := by
    refine (Except.ok.inj (hlocate.symm.trans ?_))
    decide
  subst hl
  revert hdata
  cases i <;> decide

end Sharing
end SimpleRsyncd
