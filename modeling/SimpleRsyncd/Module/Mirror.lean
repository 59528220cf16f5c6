import SimpleRsyncd.FileSystem.Spelling
import SimpleRsyncd.Module.Listing
import SimpleRsyncd.Module.RootSpelling

/-!
This module contains what lies below the root of a module under the paths that requests use for it. As long as no
symbolic link is in the way, a path leads where its names say, and a listing shows the files that are found by
their paths.
-/

namespace SimpleRsyncd

namespace Resolve

variable {K : Loc → Option Kind}

end Resolve

namespace Node

end Node

namespace Path

/--
The names of a location below another one, as a relative path.
-/
def relative (names : Loc) : Bytes :=
  [slash].intercalate (names.map Name.toBytes)

section relative

variable {names : Loc} (hnames : names ≠ [])

include hnames

end relative
end Path

namespace FileSystem

variable {fs : FileSystem} {root names seen : Loc}

/--
There is no symbolic link on the way from `root` to `names` below it.
-/
def Direct (fs : FileSystem) (root names : Loc) : Prop :=
  ∀ l, l <+: names → ∀ target, fs.kind (root ++ l) ≠ some (.symlink target)

theorem Direct.of_isPrefix {names' : Loc} (h : fs.Direct root names') (hpre : names <+: names') : fs.Direct root names :=
  fun l hl => h l (hl.trans hpre)

section direct

variable (hroot : fs.kind root = some .dir) (hdirect : fs.Direct root names)

include hroot hdirect

end direct
end FileSystem

namespace Module

variable {m : Module} {host : Host} {fs : FileSystem} {root names dir rel : Loc}

open FileSystem

/--
What a client can ask for below a root: there are no two dots in a path, and no symbolic link in the way.
-/
structure Plain (fs : FileSystem) (root names : Loc) : Prop where
  noDots : ¬dotDot <:+: Path.ofLoc (root ++ names)
  direct : fs.Direct root names

section root

variable (hpath : m.config.path = Path.ofLoc root)

include hpath

variable (hroot : fs.kind root = some .dir)

include hroot

end root

end Module
end SimpleRsyncd
