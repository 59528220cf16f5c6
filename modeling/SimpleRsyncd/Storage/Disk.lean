import Mathlib.Logic.Function.Basic
import SimpleRsyncd.Bytes.Basic

/-!
This module contains the files that the daemon keeps its databases in, as `std::ifstream` and
`std::ofstream` see them. What is written to a file that could be opened is not lost.
-/

namespace SimpleRsyncd

structure Disk where
  content : Bytes → Option Bytes
  readable : Bytes → Bool
  writable : Bytes → Bool

namespace Disk

/--
A disk without files, on which all names can be written.
-/
def empty : Disk where
  content := fun _ => none
  readable := fun _ => true
  writable := fun _ => true

variable (disk : Disk)

/--
What an input stream on a file reads, `none` if the file cannot be opened.
-/
def read (name : Bytes) : Option Bytes :=
  if disk.readable name then disk.content name else none

/--
Replace the content of a file by what goes through an output stream, `none` if the file cannot be
opened.
-/
def write (name text : Bytes) : Option Disk :=
  if disk.writable name then
    some { disk with content := Function.update disk.content name (some text) }
  else
    none

omit disk in
theorem read_write {disk disk' : Disk} {name text text' : Bytes} (hwrite : disk.write name text = some disk')
    (hread : disk'.read name = some text')
    : text' = text := by
  simp only [write, Option.ite_none_right_eq_some, Option.some.injEq] at hwrite
  obtain ⟨-, rfl⟩ := hwrite
  simp only [read, Option.ite_none_right_eq_some, Function.update_self, Option.some.injEq] at hread
  exact hread.2.symm

end Disk
end SimpleRsyncd
