import SimpleRsyncd.FileSystem.Spelling
import SimpleRsyncd.Module.Containment

/-!
This module determines for which requests the spelling of the root of a module makes a difference. The root
is compared as it is written, only made absolute, while the path that is compared with it is normalised.
-/

namespace SimpleRsyncd

namespace Module

variable {m : Module} {fs : FileSystem} {path root root' walk walk' base base' resolved resolved' : Bytes} {d : Loc}

/--
The path meets a symbolic link that is not allowed, or it leads out of the root in the end.
-/
def Stopped (m : Module) (fs : FileSystem) (path : Bytes) : Prop :=
  ∃ base resolved, fs.absolute m.config.path = .ok base ∧ fs.absolute (m.joinPath path) = .ok resolved
    ∧ (m.linkFree fs base path = .ok false
      ∨ m.linkFree fs base path = .ok true
        ∧ ∃ b c, fs.weaklyCanonical base = .ok b ∧ fs.weaklyCanonical resolved = .ok c ∧ ¬b <+: c)

end Module
end SimpleRsyncd
