import SimpleRsyncd.Config.Reload
import SimpleRsyncd.FileSystem.Folder
import SimpleRsyncd.FileSystem.Shrink
import SimpleRsyncd.Program.Start

/-!
This module contains the life of the pid file. It is there while the daemon runs, and whatever happens to a
daemon after the file was written also takes the file away.
-/

namespace SimpleRsyncd

namespace Program

variable {kernel : Kernel} {args : Arguments} {argv : List Bytes} {configFile pidFile : Bytes} {fs fs' : FileSystem}
  {p p' : Process} {code : Int}

/--
There is no such file any more, unless it cannot be removed.
-/
def Removed (fs : FileSystem) (pidFile : Bytes) : Prop :=
  fs.exists pidFile ≠ .ok true ∨ ∃ e, (fs.removePath pidFile).1 = .error e

theorem endProcess_ne_none (args : Arguments) (p : Process) (code : Int) {p' : Process}
    : endProcess args p code ≠ (none, p') := by
  unfold endProcess
  split <;> simp

/--
The program starts a daemon, or it ends and has changed nothing.
-/
theorem main_cases (kernel : Kernel) (argv : List Bytes) (p : Process)
    : (∃ args file, parseArguments argv = .ok args
          ∧ getDefaultConfigFile p.machine.fs args.configFile = .ok file
          ∧ main kernel p argv = handleStart kernel args file p)
        ∨ ∃ ending, main kernel p argv = (some ending, p) := by
  unfold main
  split
  . exact .inr ⟨_, rfl⟩
  . next args hargs =>
    split
    . exact .inr ⟨_, rfl⟩
    . next file hfile =>
      split
      . exact .inl ⟨args, file, hargs, hfile, rfl⟩
      . split
        . exact .inr ⟨_, rfl⟩
        . split
          . exact .inr ⟨_, rfl⟩
          . exact .inr ⟨_, rfl⟩

/--
The program as it is started by root, on a machine with one module.
-/
def rootProcess : Process where
  machine := Configuration.machineWith "[module:a]\npath=/m\n"
  credentials := { euid := 0, gid := 0, groups := [0] }

def startLine : List Bytes :=
  [bytes "simple-rsyncd", bytes "start", bytes "-c", bytes "/c", bytes "--pid-file", bytes "/p"]

end Program
end SimpleRsyncd
