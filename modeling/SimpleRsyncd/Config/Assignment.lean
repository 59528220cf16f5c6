import SimpleRsyncd.Config.Settings
import SimpleRsyncd.Container.Cell

/-!
This module contains what a loader does to a `Configuration`. It never reads the settings, so that a
configuration file amounts to a list of assignments that are made one after the other.
-/

namespace SimpleRsyncd

/--
The settings with a single value of a module.
-/
inductive ModuleSetting where
  | name
  | path
  | comment
  | readOnly
  | list
  | allowDelete
  | overwrite
  | preTransferScript
  | postTransferScript
  | preDeleteScript
  | postDeleteScript
  | preListScript
  | postListScript
  | allowSymlinks
  | allowHardlinks
  deriving DecidableEq

namespace ModuleSetting

def Value : ModuleSetting → Type
  | .name | .path | .comment => Bytes
  | .preTransferScript | .postTransferScript | .preDeleteScript | .postDeleteScript => Bytes
  | .preListScript | .postListScript => Bytes
  | .readOnly | .list | .allowDelete | .overwrite | .allowSymlinks | .allowHardlinks => Bool

def get (m : ModuleConfig) : (s : ModuleSetting) → s.Value
  | .name => m.name
  | .path => m.path
  | .comment => m.comment
  | .readOnly => m.readOnly
  | .list => m.list
  | .allowDelete => m.allowDelete
  | .overwrite => m.overwrite
  | .preTransferScript => m.preTransferScript
  | .postTransferScript => m.postTransferScript
  | .preDeleteScript => m.preDeleteScript
  | .postDeleteScript => m.postDeleteScript
  | .preListScript => m.preListScript
  | .postListScript => m.postListScript
  | .allowSymlinks => m.allowSymlinks
  | .allowHardlinks => m.allowHardlinks

def set (m : ModuleConfig) : (s : ModuleSetting) → s.Value → ModuleConfig
  | .name, v => { m with name := v }
  | .path, v => { m with path := v }
  | .comment, v => { m with comment := v }
  | .readOnly, v => { m with readOnly := v }
  | .list, v => { m with list := v }
  | .allowDelete, v => { m with allowDelete := v }
  | .overwrite, v => { m with overwrite := v }
  | .preTransferScript, v => { m with preTransferScript := v }
  | .postTransferScript, v => { m with postTransferScript := v }
  | .preDeleteScript, v => { m with preDeleteScript := v }
  | .postDeleteScript, v => { m with postDeleteScript := v }
  | .preListScript, v => { m with preListScript := v }
  | .postListScript, v => { m with postListScript := v }
  | .allowSymlinks, v => { m with allowSymlinks := v }
  | .allowHardlinks, v => { m with allowHardlinks := v }

variable (m : ModuleConfig) (s : ModuleSetting)

@[simp]
theorem get_set_self (v : s.Value) : s.get (s.set m v) = v := by
  cases s <;> rfl

theorem set_get : s.set m (s.get m) = m := by
  cases s <;> rfl

theorem get_set_of_ne {s s' : ModuleSetting} (h : s ≠ s') (v : s'.Value) : s.get (s'.set m v) = s.get m := by
  cases s' <;> cases s <;> first | rfl | exact absurd rfl h

end ModuleSetting

/--
What a loader does to a module it has found in the file.
-/
inductive ModuleAssignment where
  /-- The module is created unless there is one of its name. -/
  | declare
  | set (s : ModuleSetting) (v : s.Value)
  | exclude (pattern : Bytes)
  | includes (pattern : Bytes)
  | option (key value : Bytes)

namespace ModuleAssignment

def apply (m : ModuleConfig) : ModuleAssignment → ModuleConfig
  | .declare => m
  | .set s v => s.set m v
  | .exclude pattern => { m with excludePatterns := m.excludePatterns ++ [pattern] }
  | .includes pattern => { m with includePatterns := m.includePatterns ++ [pattern] }
  | .option key value => { m with customOptions := m.customOptions.insert key value }

end ModuleAssignment

inductive Assignment where
  | set (s : Setting) (v : s.Value)
  | allowUser (name : Bytes)
  | denyUser (name : Bytes)
  | inModule (name : Bytes) (a : ModuleAssignment)
  | error (message : Bytes)

namespace Assignment

def apply (c : Configuration) : Assignment → Configuration
  | .set s v => s.set c v
  | .allowUser name => { c with auth.allowedUsers := c.auth.allowedUsers ++ [name] }
  | .denyUser name => { c with auth.deniedUsers := c.auth.deniedUsers ++ [name] }
  | .inModule name a =>
    { c with modules := c.modules.insert name (a.apply ((c.modules.lookup name).getD {})) }
  | .error message => { c with errors := c.errors ++ [message] }

end Assignment

namespace Configuration

/--
Make all assignments, in order.
-/
def assign (c : Configuration) (assignments : List Assignment) : Configuration :=
  assignments.foldl Assignment.apply c

end Configuration
end SimpleRsyncd
