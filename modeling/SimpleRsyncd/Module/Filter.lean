import SimpleRsyncd.Bytes.Text
import SimpleRsyncd.Module.Listing
import SimpleRsyncd.Module.Operation

/-!
This module contains the exclude and include patterns of a module. `validatePath` is the only function
that looks at them, and nothing calls it: no operation depends on the patterns, and a listing counts
every file below the root.
-/

namespace SimpleRsyncd

namespace ModuleConfig

/--
A pattern matches itself, and a star in it matches anything. Only the first star counts.
-/
def matchesPattern (filename pattern : Bytes) : Bool :=
  if pattern = bytes "*" || pattern = filename then
    true
  else
    match Bytes.cut 42 pattern with
    | none => false
    | some (before, after) =>
      if filename.length < before.length + after.length then
        false
      else
        Bytes.startsWith filename before && filename.drop (filename.length - after.length) = after

variable (config : ModuleConfig)

def isExcluded (filename : Bytes) : Bool :=
  config.excludePatterns.any fun pattern => matchesPattern filename pattern

def isIncluded (filename : Bytes) : Bool :=
  config.includePatterns.isEmpty || config.includePatterns.any fun pattern => matchesPattern filename pattern

/--
The patterns keep files of that name out of the module.
-/
def filters (filename : Bytes) : Bool :=
  config.isExcluded filename || !config.isIncluded filename

end ModuleConfig

namespace Module

variable (m : Module) (host : Host) (fs : FileSystem)

def validatePath (path : Bytes) : Except Errno Bool :=
  if path.isEmpty then
    .ok false
  else do
    let resolved ← m.resolvePath fs path
    if resolved.isEmpty then
      .ok false
    else if !(← fs.exists resolved) then
      .ok false
    else if m.config.isExcluded (Path.filename path) then
      .ok false
    else
      .ok (m.config.isIncluded (Path.filename path))

def isPathAllowed (path : Bytes) : Except Errno Bool :=
  m.validatePath fs path

theorem isPathAllowed_of_filters {path : Bytes} (h : m.config.filters (Path.filename path) = true)
    : m.isPathAllowed fs path ≠ .ok true := by
  unfold isPathAllowed validatePath
  split
  . simp
  . cases m.resolvePath fs path with
    | error e => simp [bind, Except.bind]
    | ok resolved =>
      simp only [bind, Except.bind]
      split
      . simp
      . cases fs.exists resolved with
        | error e => simp
        | ok there =>
          cases hexcluded : m.config.isExcluded (Path.filename path) <;>
            simp_all [ModuleConfig.filters]

/--
The operations are those of a module without patterns.
-/
theorem run_without_patterns (op : Operation)
    : op.run { config := { m.config with excludePatterns := [], includePatterns := [] } } host fs
      = op.run m host fs := by
  cases op <;> rfl

/--
A directory below the root with room for a file of that name: nothing is there, or a file.
-/
structure HasPlace (m : Module) (fs : FileSystem) (dir : Loc) (n : Name) : Prop where
  below : ∃ root names, fs.resolve m.config.path = .ok root ∧ dir = root ++ names
  isDirectory : fs.kind dir = some .dir
  free : fs.IsFree (dir ++ [n])

/--
If the patterns keep the file out, the operations have nothing to do with it.
-/
def OperationsEnforce (m : Module) (fs : FileSystem) (dir : Loc) (n : Name) : Prop :=
  m.config.filters n.toBytes = true →
    ∀ (host : Host) (op : Operation), FileSystem.Ignores (fun fs => op.run m host fs) fs (dir ++ [n])

theorem not_ignores_listDirectory {m : Module} {fs : FileSystem} {dir : Loc} {n : Name} (h : m.HasPlace fs dir n)
    (host : Host)
    : ¬FileSystem.Ignores (fun fs => (Operation.listDirectory [] true).run m host fs) fs (dir ++ [n]) := by
  intro hignores
  obtain ⟨root, names, hroot, rfl⟩ := h.below
  obtain ⟨listing, listing', hlisting, hlisting', -, hlt⟩ :=
    totalFiles_lt host true [] hroot h.isDirectory h.free (.inl rfl)
  have heq := hignores.outcome none (some [])
  simp only [Operation.run, hlisting, hlisting', Except.map] at heq
  obtain rfl := Outcome.listing.inj (Except.ok.inj heq)
  exact Nat.lt_irrefl _ hlt

end Module
end SimpleRsyncd
