import SimpleRsyncd.Session.Upload

/-!
This module contains the run of an upload, from the start over the chunks to the end of the stream or
a receive error. At the end of the stream the session forgets which file it has received before it
would move it to its place.
-/

namespace SimpleRsyncd

namespace FileSystem

variable {fs fs' : FileSystem} {p : Bytes} {l l' : Loc} {content : Bytes}

theorem Writes.absolute {q : Bytes} (h : fs.Writes fs' l content) (habs : fs.absolute p = .ok q)
    : fs'.absolute p = .ok q := by
  unfold FileSystem.absolute at habs ⊢
  rw [h.cwd]
  split at habs
  . contradiction
  . next hempty =>
    rw [if_neg hempty]
    split at habs
    . next habsolute =>
      rw [if_pos habsolute]
      exact habs
    . next habsolute =>
      rw [if_neg habsolute]
      split at habs
      . next hcwd =>
        rw [if_pos (h.mono _ _ hcwd)]
        exact habs
      . contradiction

theorem Writes.resolve (h : fs.Writes fs' l content) (hresolve : fs.resolve p = .ok l')
    : fs'.resolve p = .ok l' :=
  resolve_mono h.cwd h.mono hresolve

end FileSystem

namespace Module

variable {m : Module} {fs fs' : FileSystem} {path content : Bytes} {l l' : Loc}

/--
Where `<root>/<path>` leads.
-/
def locate (m : Module) (fs : FileSystem) (path : Bytes) : Except Errno Loc := do
  fs.resolve (← fs.absolute (m.joinPath path))

/--
The file at `<root>/<path>` has this content.
-/
def Holds (m : Module) (fs : FileSystem) (path content : Bytes) : Prop :=
  ∃ l, m.locate fs path = .ok l ∧ fs.data l = some content

theorem locate_eq_ok_iff
    : m.locate fs path = .ok l
        ↔
      ∃ fullPath, fs.absolute (m.joinPath path) = .ok fullPath ∧ fs.resolve fullPath = .ok l := by
  unfold locate
  cases fs.absolute (m.joinPath path) <;> simp [bind, Except.bind]

theorem locate_of_writes (h : fs.Writes fs' l' content) (hlocate : m.locate fs path = .ok l)
    : m.locate fs' path = .ok l := by
  rw [locate_eq_ok_iff] at hlocate ⊢
  obtain ⟨fullPath, hfull, hresolve⟩ := hlocate
  exact ⟨fullPath, h.absolute hfull, h.resolve hresolve⟩

/--
The temporary file is empty when it is opened, and found again where it was opened.
-/
theorem writes_openTemp {canOpen : Bool} {made : List Loc}
    (h : m.openTemp canOpen fs path = .ok (fs', made, some l))
    : fs.Writes fs' l [] ∧ m.locate fs' (tempPath path) = .ok l := by
  obtain ⟨fullPath, fs₁, hfull, hparent, hopened⟩ := openTemp_eq_ok h
  obtain ⟨parent, n, hfile⟩ := isFilePath_tempPath hfull
  obtain ⟨hwrites, hresolve⟩ := FileSystem.writes_opened hfile hparent (hopened l rfl).2
  exact ⟨hwrites, locate_eq_ok_iff.mpr ⟨fullPath, hwrites.absolute hfull, hresolve⟩⟩

end Module

namespace World

variable {w w' : World} {env : Env} {moduleName path content : Bytes} {m : Module} {l : Loc}
  {fs : FileSystem}

/--
A session that has received `content` into the file at `l`, since an upload was started in `fs`.
-/
structure Receiving (w : World) (m : Module) (path : Bytes) (fs : FileSystem) (l : Loc) (content : Bytes)
    : Prop where
  state : w.session.transferState = .receivingFile
  file : w.session.uploadFile = some l
  writes : fs.Writes w.fs l content
  temp : m.locate w.fs (tempPath path) = .ok l

/--
A call of `continueFileTransfer` that receives these bytes, nothing at the end of the stream and
`none` if there is an error.
-/
def receiveStep : Transition World (Option Bytes) := fun w received w' =>
  ∃ env : Env, (w.session.readSocket env.recv chunkSize).1 = received
    ∧ (w.continueFileTransfer env).2 = w'

theorem receiving_of_start (htarget : w.transferTarget moduleName = some m)
    (hclosed : w.session.uploadFile = none)
    (hstart : w.startFileUpload env moduleName path = (.ok true, w'))
    (hfile : w'.session.uploadFile = some l)
    : w'.Receiving m path w.fs l [] := by
  rw [startFileUpload_of_target env w htarget] at hstart
  rcases hopen : m.openTemp (env.openUpload && w.session.uploadFile.isNone) w.fs path with
    e | ⟨fs', made, opened⟩
  . simp [hopen] at hstart
  . simp only [hopen] at hstart
    split at hstart
    . obtain rfl := (Prod.mk.inj hstart).2
      obtain rfl : opened = some l := by
        simpa [beginReceiving, setUploadFile, nameTransfer, hclosed] using hfile
      obtain ⟨hwrites, htemp⟩ := Module.writes_openTemp hopen
      exact ⟨rfl, hfile, hwrites, htemp⟩
    . simp at hstart

theorem Receiving.chunk {chunk : Bytes} (h : w.Receiving m path fs l content) (hchunk : chunk ≠ [])
    (hstep : receiveStep w (some chunk) w')
    : w'.Receiving m path fs l (content ++ chunk) ∧ w'.trace = w.trace := by
  obtain ⟨env, hread, rfl⟩ := hstep
  obtain ⟨ssl, hssl⟩ := readSocket_frame w.session env.recv chunkSize
  have hresult : (w.continueFileTransfer env).2
      = { w with session := { w.session with sslConnection := ssl } }.storeChunk chunk := by
    simp only [continueFileTransfer, h.state, receiveChunk, hread, hssl]
  rw [hresult]
  have hwrites : w.fs.Writes (w.fs.appendData l chunk) l (content ++ chunk) :=
    FileSystem.writes_appendData chunk h.writes.content
  have hfs : ({ w with session := { w.session with sslConnection := ssl } }.storeChunk chunk).fs
      = w.fs.appendData l chunk := by
    simp [storeChunk, h.file]
  refine ⟨⟨h.state, h.file, ?_, ?_⟩, rfl⟩
  . rw [hfs]
    exact h.writes.trans hwrites
  . rw [hfs]
    exact Module.locate_of_writes hwrites h.temp

theorem Receiving.chunks {chunks : List Bytes} (h : w.Receiving m path fs l content)
    (hchunks : ∀ chunk ∈ chunks, chunk ≠ []) (hrun : receiveStep.Run w (chunks.map some) w')
    : w'.Receiving m path fs l (content ++ chunks.flatten) ∧ w'.trace = w.trace := by
  induction chunks generalizing w content with
  | nil =>
    rw [List.map_nil, Transition.run_nil_iff] at hrun
    subst hrun
    simpa using h
  | cons chunk chunks ih =>
    rw [List.map_cons, Transition.run_cons_iff] at hrun
    obtain ⟨w'', hstep, hrest⟩ := hrun
    obtain ⟨hreceiving, htrace⟩ := h.chunk (hchunks chunk (by simp)) hstep
    obtain ⟨hreceiving', htrace'⟩ := ih hreceiving (fun c hmem => hchunks c (by simp [hmem])) hrest
    rw [List.append_assoc] at hreceiving'
    exact ⟨by simpa using hreceiving', htrace'.trans htrace⟩

/--
The end of the stream or an error leaves the file system as it is.
-/
theorem Receiving.ending {ending : Option Bytes} (h : w.Receiving m path fs l content)
    (hending : ending = none ∨ ending = some []) (hstep : receiveStep w ending w')
    : w'.fs = w.fs ∧ (ending = none → w'.trace = w.trace) := by
  obtain ⟨env, hread, rfl⟩ := hstep
  rcases hending with rfl | rfl
  . simp only [continueFileTransfer, h.state, receiveChunk, hread]
    exact ⟨rfl, fun _ => rfl⟩
  . -- without the name of its module the upload has nothing to move
    have hnothing : ∀ w : World, w.endFileTransfer.finishUpload = .ok w.fs := fun _ => rfl
    simp only [continueFileTransfer, h.state, receiveChunk, hread, hnothing]
    exact ⟨fs_writeResponse _ _ _, by simp⟩

/--
What an upload of these chunks should come to: at the end of the stream the file is complete at its
place and the temporary file is gone, after an error the file is as before, and the client is not told
of a success that there was not.
-/
structure Outcome (m : Module) (path content : Bytes) (ending : Option Bytes) (fs fs' : FileSystem)
    (events : List Event) : Prop where
  completed : ending = some [] → m.Holds fs' path content ∧ ∀ l, m.locate fs' (tempPath path) ≠ .ok l
  aborted : ending = none → ∀ old, m.Holds fs path old → m.Holds fs' path old
  told : ∀ k, .response uploadComplete k ∈ events →
    m.Holds fs' path content ∧ ∀ l, m.locate fs' (tempPath path) ≠ .ok l

def receive (recv : Option Bytes) (w : World) : World :=
  (w.continueFileTransfer { recv }).2

end World
end SimpleRsyncd
