import SimpleRsyncd.Program.PidFile

/-!
This module determines whom a daemon acts for once it runs. The program changes its user up to two times,
before the daemon binds its port and after it, and only root is ever changed away from.
-/

namespace SimpleRsyncd
namespace Program

namespace Credentials

/--
A process that becomes a user and a group. The other groups go with the user, and the group stays if none is
named.
-/
def become (host : StartHost) (c : Credentials) (user group : Bytes) : Credentials :=
  if c.euid ≠ 0 then
    c
  else
    {
      euid := if user.isEmpty then c.euid else (host.getpwnam user).getD c.euid
      gid := if group.isEmpty then c.gid else (host.getgrnam group).getD c.gid
      groups := if user.isEmpty then c.groups else []
    }

variable {host : StartHost} {c : Credentials} {user group : Bytes}

theorem joinGroup_fst (host : StartHost) (c : Credentials) (group : Bytes)
    : (dropProcessPrivileges.joinGroup host group c).1 = (group.isEmpty || (host.getgrnam group).any host.setgid) := by
  unfold dropProcessPrivileges.joinGroup
  split
  . next hempty => simp [hempty]
  . next hempty =>
    cases hgid : host.getgrnam group with
    | none => simp [hempty]
    | some gid => cases hset : host.setgid gid <;> simp [hempty, hset]

theorem joinGroup_snd (host : StartHost) (c : Credentials) (group : Bytes)
    (h : (dropProcessPrivileges.joinGroup host group c).1 = true)
    : (dropProcessPrivileges.joinGroup host group c).2
        = { c with gid := if group.isEmpty then c.gid else (host.getgrnam group).getD c.gid } := by
  unfold dropProcessPrivileges.joinGroup at h ⊢
  split at h
  . next hempty => simp [hempty]
  . next hempty =>
    cases hgid : host.getgrnam group with
    | none => simp [hgid] at h
    | some gid => cases hset : host.setgid gid <;> simp_all

theorem becomeUser_fst
    : (dropProcessPrivileges.becomeUser host user c).1
        = (user.isEmpty || (host.getpwnam user).any fun uid => host.setgroups && host.setuid uid) := by
  unfold dropProcessPrivileges.becomeUser
  split
  . next hempty => simp [hempty]
  . next hempty =>
    cases huid : host.getpwnam user with
    | none => simp [hempty]
    | some uid => cases hgroups : host.setgroups <;> cases hset : host.setuid uid <;> simp [hempty, hset]

theorem becomeUser_snd (h : (dropProcessPrivileges.becomeUser host user c).1 = true)
    : (dropProcessPrivileges.becomeUser host user c).2
        = {
          c with
          euid := if user.isEmpty then c.euid else (host.getpwnam user).getD c.euid
          groups := if user.isEmpty then c.groups else []
        } := by
  unfold dropProcessPrivileges.becomeUser at h ⊢
  split at h
  . next hempty => simp [hempty]
  . next hempty =>
    cases huid : host.getpwnam user with
    | none => simp [huid] at h
    | some uid => cases hgroups : host.setgroups <;> cases hset : host.setuid uid <;> simp_all

/--
Whether the change succeeds is what the start of a daemon asks.
-/
theorem dropProcessPrivileges_fst
    : (c.dropProcessPrivileges host user group).1
        = StartHost.dropProcessPrivileges { host with isRoot := c.euid = 0 } user group := by
  unfold dropProcessPrivileges StartHost.dropProcessPrivileges
  split
  . rfl
  . by_cases hroot : c.euid = 0
    . have hgroup := joinGroup_fst host c group
      simp only [hroot, ne_eq, not_true_eq_false, if_false, decide_true, Bool.not_true, Bool.false_eq_true]
      generalize dropProcessPrivileges.joinGroup host group c = joined at hgroup ⊢
      obtain ⟨_ | _, c'⟩ := joined
      . simp [← hgroup]
      . simp [← hgroup, becomeUser_fst]
    . simp [hroot]

theorem dropProcessPrivileges_snd (h : (c.dropProcessPrivileges host user group).1 = true)
    : (c.dropProcessPrivileges host user group).2 = c.become host user group := by
  unfold dropProcessPrivileges at h ⊢
  unfold become
  split at h
  . next hempty =>
    simp only [Bool.and_eq_true] at hempty
    simp [hempty]
  . next hempty =>
    rw [if_neg hempty]
    split at h
    . next hroot => simp [hroot]
    . next hroot =>
      rw [if_neg hroot, if_neg hroot]
      have hsnd := joinGroup_snd host c group
      generalize dropProcessPrivileges.joinGroup host group c = joined at h hsnd ⊢
      obtain ⟨_ | _, c'⟩ := joined
      . simp at h
      . obtain rfl := hsnd rfl
        exact becomeUser_snd h

/--
A process stays root exactly if it is root and no other user is named.
-/
theorem euid_become_iff (h : (c.dropProcessPrivileges host user group).1 = true)
    : (c.become host user group).euid = 0
        ↔
      c.euid = 0 ∧ (user ≠ [] → host.getpwnam user = some 0) := by
  rw [dropProcessPrivileges_fst] at h
  unfold become
  by_cases hroot : c.euid = 0
  . by_cases huser : user = []
    . simp [hroot, huser]
    . have hsome : (host.getpwnam user).any fun uid => host.setgroups && host.setuid uid := by
        simp only [StartHost.dropProcessPrivileges, hroot, decide_true] at h
        simp_all
      cases huid : host.getpwnam user with
      | none => simp [huid] at hsome
      | some uid => simp [hroot, huser]
  . simp [hroot]

end Credentials

variable {kernel : Kernel} {args : Arguments} {argv : List Bytes} {file : Bytes} {p p' : Process} {c : Configuration}

/--
A daemon that has started has bound its port as the user of the process and become the user of its
configuration.
-/
theorem startDaemon_running (h : startDaemon kernel p c = (.ok true, p'))
    : kernel.bind p.credentials.euid c.network.bindAddress c.network.bindPort = true
        ∧ (p.credentials.dropProcessPrivileges kernel.host c.security.user c.security.group).1 = true
        ∧ p'.credentials
          = (p.credentials.dropProcessPrivileges kernel.host c.security.user c.security.group).2 := by
  have hstopped : DaemonProcess.Stopped { daemon := .new p.machine (some c) } := ⟨rfl, rfl, rfl, rfl, rfl⟩
  have hend : DaemonProcess.StartEnd p.machine (kernel.hostFor p.credentials) { daemon := .new p.machine (some c) }
      (DaemonProcess.start p.machine (kernel.hostFor p.credentials) { daemon := .new p.machine (some c) }) :=
    (DaemonProcess.start_of_stopped hstopped).1
  unfold startDaemon at h
  dsimp only at h
  generalize DaemonProcess.start p.machine (kernel.hostFor p.credentials) { daemon := .new p.machine (some c) }
    = result at h hend
  obtain ⟨started, daemon⟩ := result
  obtain ⟨rfl, rfl⟩ := Prod.mk.inj h
  have hrunning : DaemonProcess.CanListen p.machine (kernel.hostFor p.credentials) { daemon := .new p.machine (some c) }
      ∧ DaemonProcess.changesUser (kernel.hostFor p.credentials) { daemon := .new p.machine (some c) } = true := by
    cases hend with
    | early _ hfails => exact absurd rfl hfails
    | started hcan hprivileges =>
      rw [Bool.and_eq_true] at hprivileges
      exact ⟨hcan, hprivileges.2⟩
  obtain ⟨hcan, hchanges⟩ := hrunning
  refine ⟨?_, ?_, ?_⟩
  . obtain ⟨-, -, -, hlistens⟩ := (DaemonProcess.canListen_iff (c := c) _ _ rfl).mp hcan
    have hlistens' : (kernel.hostFor p.credentials).bind c.network.bindAddress c.network.bindPort = true := by
      simp only [DaemonProcess.listens, RSyncDaemon.new, Option.any_some, Bool.and_eq_true] at hlistens
      exact hlistens.1.2
    exact hlistens'
  . rw [Credentials.dropProcessPrivileges_fst]
    exact hchanges
  . simp only [true_or, if_true]
    rfl

/--
What a program that has reached its main loop has done before.
-/
theorem handleStart_running (h : handleStart kernel args file p = (none, p'))
    : ∃ c q, loadConfiguration file p = .ok c
        ∧ (p.credentials.dropProcessPrivileges kernel.host args.user args.group).1 = true
        ∧ q.credentials = (p.credentials.dropProcessPrivileges kernel.host args.user args.group).2
        ∧ startDaemon kernel q c = (.ok true, p') := by
  unfold handleStart at h
  split at h
  . simp at h
  . next c hload =>
    split at h
    . simp at h
    . next credentials hdrop =>
      have hdrop' : p.credentials.dropProcessPrivileges kernel.host args.user args.group = (true, credentials) := hdrop
      dsimp only at h
      split at h
      . next q hstart =>
        obtain ⟨-, rfl⟩ := Prod.mk.inj h
        exact ⟨c, _, hload, by rw [hdrop'], by rw [hdrop'], hstart⟩
      . exact absurd h (endProcess_ne_none _ _ _)

/--
A daemon that runs acts for the user and the group of the command line as far as it was started by root, and
for those of its configuration as far as it was root after that. It is still root exactly if no other user is
named in one of these places. Where only root may bind a port below 1024, such a port and another user on
the command line exclude each other.
-/
theorem runs_as (hport : ∀ uid address port, uid ≠ 0 → port < 1024 → kernel.bind uid address port = false)
    (h : main kernel p argv = (none, p'))
    : ∃ args file c, parseArguments argv = .ok args
        ∧ getDefaultConfigFile p.machine.fs args.configFile = .ok file
        ∧ loadConfiguration file p = .ok c
        ∧ p'.credentials
          = (p.credentials.become kernel.host args.user args.group).become kernel.host c.security.user c.security.group
        ∧ (p'.credentials.euid = 0
          ↔
            p.credentials.euid = 0
              ∧ ∀ user ∈ [args.user, c.security.user], user ≠ [] → kernel.host.getpwnam user = some 0)
        ∧ (c.network.bindPort < 1024 →
            p.credentials.euid = 0 ∧ (args.user ≠ [] → kernel.host.getpwnam args.user = some 0)) := by
  rcases main_cases kernel argv p with ⟨args, file, hargs, hfile, hmain⟩ | ⟨ending, hmain⟩
  . rw [hmain] at h
    obtain ⟨c, q, hload, hdrop, hq, hstart⟩ := handleStart_running h
    obtain ⟨hbind, hdrop', hp'⟩ := startDaemon_running hstart
    rw [Credentials.dropProcessPrivileges_snd hdrop] at hq
    rw [Credentials.dropProcessPrivileges_snd hdrop'] at hp'
    have hroot := Credentials.euid_become_iff hdrop
    have hroot' := Credentials.euid_become_iff hdrop'
    rw [hq] at hroot' hp' hbind
    refine ⟨args, file, c, hargs, hfile, hload, hp', ?_, ?_⟩
    . rw [hp', hroot', hroot, and_assoc]
      simp
    . intro hlow
      by_contra hnot
      have hother := mt hroot.mp hnot
      rw [hport _ _ _ hother hlow] at hbind
      contradiction
  . simp [hmain] at h

/--
Only root may bind a port below 1024.
-/
def portKernel : Kernel :=
  { bind := fun uid _ port => uid = 0 || 1024 ≤ port }

/--
Started by root on the port of rsync, and nobody named.
-/
theorem runs_as_root
    : ∃ c, loadConfiguration (bytes "/c") rootProcess = .ok c
        ∧ (main portKernel rootProcess startLine).2.credentials
          = (rootProcess.credentials.become {} [] []).become {} c.security.user c.security.group := by
  have hloop : (main portKernel rootProcess startLine).1 = none := by decide +kernel
  have hport : ∀ uid address port, uid ≠ 0 → port < 1024 → portKernel.bind uid address port = false := by
    intro uid address port huid hlow
    simpa [portKernel, huid] using hlow
  have hruns : ∀ p', main portKernel rootProcess startLine = (none, p') → _ := fun p' => runs_as hport
  -- nothing may evaluate the start on its own
  generalize main portKernel rootProcess startLine = result at hloop hruns ⊢
  obtain ⟨args, file, c, hargs, hfile, hload, hcredentials, -⟩ := hruns _ (Prod.ext hloop rfl)
  have hline : parseArguments startLine
      = .ok { configFile := bytes "/c", command := bytes "start", pidFile := bytes "/p" } := by decide +kernel
  obtain rfl := Except.ok.inj (hline.symm.trans hargs)
  obtain rfl := Except.ok.inj hfile
  exact ⟨c, hload, hcredentials⟩

end Program
end SimpleRsyncd
