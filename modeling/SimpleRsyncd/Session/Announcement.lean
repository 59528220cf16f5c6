import SimpleRsyncd.Session.Announcement.Get
import SimpleRsyncd.Session.Announcement.Put

/-!
This module determines when the announcement of a transfer and its start agree, in every state a
session can reach.
-/

namespace SimpleRsyncd
namespace World

open ProtocolParser

/--
What the next call of `processRequest` adds to the trace.
-/
def nextEvents (w : World) (env : Env) : List Event :=
  (w.processRequest env).2.trace.drop w.trace.length

/--
A GET request is refused, a PUT request is refused or its file is opened and the client gets to know.
-/
def Reliable (w : World) (env : Env) (message : ProtocolMessage) : Prop :=
  match message.command with
  | .get => ∀ m info, ¬w.GetReady env message m info
  | .put => w.Invites env message
  | _ => True

/--
In an idle session a GET or PUT request is answered truthfully if and only if it is refused, or is an
upload that starts and can be announced.
-/
theorem tells_iff_reliable {w w' : World} {actions : List Action} {env : Env} {request : Bytes}
    (hfresh : w.Fresh) (hrun : step.Run w actions w') (hactive : w'.session.active = true)
    (hidle : w'.session.transferState = .idle) (hrecv : env.recv = some request) (hne : request ≠ [])
    (hlength : request.length ≤ requestSize) (hvalid : (parse request).valid = true)
    (hcommand : (parse request).command = .get ∨ (parse request).command = .put)
    : w'.Tells env (parse request) (w'.nextEvents env) ↔ w'.Reliable env (parse request) := by
  have horderly : w'.Orderly := .of_run hfresh hrun
  have hclosed : w'.session.uploadFile = none := by
    have := horderly.consistent
    simp only [Session.Consistent, hidle] at this
    exact this.1
  have hwaiting : w'.Waiting := ⟨hactive, hidle, .inr (horderly.connected hactive)⟩
  have hread : w'.session.readSocket env.recv requestSize = (some request, w'.session) := by
    rw [hrecv]
    exact hwaiting.readSocket hne hlength
  rw [nextEvents, processRequest_of_read env w' hactive hidle hread hne]
  change w'.Tells env (parse request) ((w'.processMessage env request).2.trace.drop w'.trace.length) ↔ _
  rcases hcommand with hget | hput
  . obtain ⟨events, htrace, htells⟩ := tells_get horderly.word hvalid hget
    rw [htrace, List.drop_left, htells, Reliable, hget]
  . obtain ⟨events, htrace, htells⟩ := tells_put horderly.word hclosed hvalid hput
    rw [htrace, List.drop_left, htells, Reliable, hput]

def getRequest : Env := { recv := some (bytes "GET m f\n") }

def putRequest : Env := { recv := some (bytes "PUT m f\n") }

theorem tells_single_put
    : (single none []).Tells putRequest (parse (bytes "PUT m f\n"))
        ((single none []).nextEvents putRequest) := by
  refine (tells_iff_reliable (fresh_single none []) .nil rfl rfl rfl (by decide)
    (by decide) (by decide) (.inr (by decide))).mpr ?_
  have htarget : (single none []).transferTarget (parse (bytes "PUT m f\n")).module
      = some { config := { path := bytes "/m" } } := by decide
  have hopens : (Module.openTemp { config := { path := bytes "/m" } } true (single none []).fs
      (parse (bytes "PUT m f\n")).path).map (·.2.2.isSome) = .ok true := by decide
  intro m hready fs made opened hopen
  obtain rfl := Option.some.inj (hready.target.symm.trans htarget)
  refine ⟨?_, .inl (by decide)⟩
  simp only [putRequest] at hopen
  simpa [hopen, Except.map] using hopens

/--
The download starts and its header is not sent.
-/
theorem not_tells_single_get
    : ¬(single none [(fileName, .file (bytes "abc"))]).Tells getRequest (parse (bytes "GET m f\n"))
        ((single none [(fileName, .file (bytes "abc"))]).nextEvents getRequest) := by
  intro htells
  exact absurd htells.1 (by decide +kernel)

end World
end SimpleRsyncd
