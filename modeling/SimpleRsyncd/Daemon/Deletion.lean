import SimpleRsyncd.Daemon.Interleaving
import SimpleRsyncd.Session.Deletion

/-!
This module contains what clients find of a path that one of them has deleted. The others may do anything in
between but create something, and it does not matter how the path is spelled or which way it is resolved.
-/

namespace SimpleRsyncd
namespace Client

open ProtocolParser

variable {authConfig : Option AuthConfig} {modules : Bytes → Option Module} {c c' : Client} {fs fs' : FileSystem}
  {action : Action}

/--
How many files and directories were created or opened for the uploads of a client.
-/
def creations (c : Client) : Nat :=
  c.trace.countP Event.creates

theorem Sound.diminishes (h : c.Sound modules) (hstep : Client.step (c, fs) action (c', fs'))
    : World.Diminishes (c.world fs) (c'.world fs') := by
  have hdiminishes := World.covers_diminishes.workerAct (w := c.world fs) (h.orderly fs).word h.sameModules action
  rwa [world_of_step hstep] at hdiminishes

/--
While no client creates anything, the file system shrinks.
-/
theorem shrinks_of_run {t t' : Shared Client FileSystem} {actions : List (SharedAction Client Action)}
    (hsound : ∀ c ∈ t.components, c.Sound modules) (hrun : (table authConfig modules).Run t actions t')
    (hnothing : ∀ k, t'.counter creations k = t.counter creations k)
    : t.shared.Shrinks t'.shared := by
  refine (Shared.run_of_counter (R := FileSystem.Shrinks) stable_sound .refl .trans ?_ hsound hrun).2 hnothing
  intro c fs action c' fs' h hstep
  have hdiminishes := h.diminishes hstep
  exact ⟨hdiminishes.trace.sublist.countP_le, hdiminishes.fs⟩

theorem fs_serve {w : World} {env : Env} (hactive : w.session.active = true)
    : (w.serve env).fs = (w.processRequest env).2.fs := by
  unfold World.serve
  rw [if_pos hactive]
  split
  . next heq => rw [heq]
  . next _ w' _ heq => rw [heq, w'.keeps_close.fs]

/--
What a client has deleted is gone for every client, however the requests of the others come in between, until
something is created again.
-/
theorem deleted_until_created {t u t' : Shared Client FileSystem} {before after : List (SharedAction Client Action)}
    {k : Nat} {env : Env} {request : Bytes} {m : Module} (hbefore : (table authConfig modules).Run ⟨[], fs⟩ before t)
    (hk : t.components[k]? = some c) (hdeletes : (c.world t.shared).Deletes env request m)
    (hdelete : table authConfig modules t (.act k (.request env)) u)
    (hafter : (table authConfig modules).Run u after t')
    (hnothing : ∀ k, t'.counter creations k = u.counter creations k)
    : ∀ d ∈ t'.components, ∀ env' request', (d.world t'.shared).Asks env' request' m →
        (parse request').path = (parse request).path →
        (parse request').command = .get ∨ (parse request').command = .stat ∨ (parse request').command = .delete →
        World.Refuses (d.world t'.shared) ((d.world t'.shared).processRequest env').2 := by
  have hrun : (table authConfig modules).Run ⟨[], fs⟩ (before ++ [.act k (.request env)]) u := .snoc hbefore hdelete
  have hsound : ∀ c ∈ u.components, c.Sound modules := stable_sound.run (by simp) hrun
  obtain ⟨hpath, hgone⟩ := hdeletes.gone
  have hshared : u.shared = ((c.world t.shared).processRequest env).2.fs := by
    cases hdelete with
    | @act _ _ c₀ c' fs' hk' hstep =>
      obtain rfl : c = c₀ := Option.some.inj (hk.symm.trans hk')
      rw [← fs_serve hdeletes.active]
      exact (congrArg World.fs hstep).symm
  rw [← hshared] at hgone
  have hstill := hgone.of_shrinks (shrinks_of_run hsound hafter hnothing)
  intro d _ env' request' hasks hsame hcommand
  rw [← hsame] at hpath hstill
  exact hasks.refuses hcommand hpath hstill

/--
A client that has just been accepted.
-/
def newcomer (modules : Bytes → Option Module) : Client :=
  { session := { clientSocket := 4, config := none, handler := { modules } } }

theorem joins_newcomer (modules : Bytes → Option Module) : Joins none modules (newcomer modules) where
  socket := by simp [newcomer]
  tls := by simp [newcomer]
  new := rfl

def deleteRequest : Env := { recv := some (bytes "DELETE m f\n") }

/--
The module `m` with a file `f`.
-/
def sampleFile : FileSystem :=
  { entries := [(World.moduleRoot, .dir [(World.fileName, .file (bytes "x"))])] }

theorem deletes_sampleFile
    : ((newcomer ProtocolHandler.deleting.modules).world sampleFile).Deletes deleteRequest (bytes "DELETE m f\n")
        ProtocolHandler.deletable where
  active := rfl
  reads := ⟨rfl, by decide +kernel⟩
  gate := rfl
  target := by decide +kernel
  valid := by decide +kernel
  delete := by decide +kernel
  answer := ⟨buildResponse true (bytes "Deleted: f"), by decide +kernel, by decide +kernel⟩

/--
The first client deletes a file, the second one asks for it.
-/
theorem deleted_until_created_single
    : ∃ actions t', (table none ProtocolHandler.deleting.modules).Run ⟨[], sampleFile⟩ actions t'
        ∧ ∃ d ∈ t'.components,
          World.Refuses (d.world t'.shared) ((d.world t'.shared).processRequest World.getRequest).2 := by
  let first := newcomer ProtocolHandler.deleting.modules
  obtain ⟨c, fs, hstep⟩ : ∃ c fs, Client.step (first, sampleFile) (.request deleteRequest) (c, fs) :=
    ⟨_, _, step_act first sampleFile (.request deleteRequest)⟩
  have hbefore : (table none ProtocolHandler.deleting.modules).Run ⟨[], sampleFile⟩ [.join first] ⟨[first], sampleFile⟩ :=
    .single (.join (joins_newcomer _))
  have hdelete : table none ProtocolHandler.deleting.modules ⟨[first], sampleFile⟩ (.act 0 (.request deleteRequest))
      ⟨[c], fs⟩ :=
    .act (k := 0) rfl hstep
  have hjoin : table none ProtocolHandler.deleting.modules ⟨[c], fs⟩ (.join first) ⟨[c, first], fs⟩ :=
    .join (joins_newcomer _)
  have hnothing : ∀ k, Shared.counter creations ⟨[c, first], fs⟩ k = Shared.counter creations ⟨[c], fs⟩ k := by
    rintro (_ | _ | k) <;> rfl
  have hasks : (first.world fs).Asks World.getRequest (bytes "GET m f\n") ProtocolHandler.deletable := by
    have hreceived : (first.session.readSocket World.getRequest.recv World.requestSize).1 = some (bytes "GET m f\n") := by
      decide +kernel
    have htarget : (first.world sampleFile).transferTarget (parse (bytes "GET m f\n")).module
        = some ProtocolHandler.deletable := by
      decide +kernel
    exact ⟨rfl, ⟨rfl, hreceived⟩, rfl, htarget, by decide +kernel⟩
  refine ⟨_, _, (hbefore.snoc hdelete).snoc hjoin, first, by simp, ?_⟩
  exact deleted_until_created hbefore (k := 0) rfl deletes_sampleFile hdelete (.single hjoin) hnothing first (by simp)
    World.getRequest (bytes "GET m f\n") hasks (by decide +kernel) (by decide +kernel)

end Client
end SimpleRsyncd
