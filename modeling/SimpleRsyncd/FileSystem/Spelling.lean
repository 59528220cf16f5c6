import SimpleRsyncd.FileSystem.Canonical
import SimpleRsyncd.Path.Join

/-!
This module contains where a path leads whose first part can be written in several ways.
-/

namespace SimpleRsyncd

namespace Resolve

variable {K : Loc → Option Kind} {create : Bool}

end Resolve

namespace FileSystem

open Resolve

variable {fs : FileSystem} {p p' r r' a path resolved base base' walk : Bytes} {es es' seen seen' : List Elem}
  {n : Name} {d : Loc}

/--
Elements behind a directory lead on from there.
-/
theorem resolveElems_append_of_ok (h : fs.resolveElems p es = .ok d)
    : ∃ left, ∀ es', fs.resolveElems p (es ++ es') = (SimpleRsyncd.resolve fs.kind false left d es').map Prod.fst := by
  obtain ⟨left, hleft⟩ := fs.resolveElems_eq_ok_iff.mp h
  refine ⟨left, ?_⟩
  intro es'
  rw [resolveElems, resolve_append _ _ _ _ (.inl rfl), hleft]
  rfl

/--
The elements behind two paths lead to the same places.
-/
def SameBehind (fs : FileSystem) (base base' : Bytes) (es : List Elem) : Prop :=
  ∀ xs, xs <+: es →
    fs.resolveElems base (Path.elems base ++ xs) = fs.resolveElems base' (Path.elems base' ++ xs)

theorem SameBehind.of_isPrefix (h : fs.SameBehind base base' es) (hpre : es' <+: es) : fs.SameBehind base base' es' :=
  fun xs hxs => h xs (hxs.trans hpre)

section behind

variable (habs : Path.isAbsolute base = true) (habs' : Path.isAbsolute base' = true)

include habs habs'

end behind

end FileSystem
end SimpleRsyncd
