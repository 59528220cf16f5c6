import SimpleRsyncd.Config.Assignment

/-!
This module determines what a list of assignments makes of each single setting. The settings are
independent of each other, what counts for one of them is a run of updates on its own cell.
-/

namespace SimpleRsyncd
namespace ModuleAssignment

def value? (s : ModuleSetting) : ModuleAssignment → Option s.Value
  | .set s' v => if h : s' = s then some (h ▸ v) else none
  | _ => none

def excluded : ModuleAssignment → List Bytes
  | .exclude pattern => [pattern]
  | _ => []

def included : ModuleAssignment → List Bytes
  | .includes pattern => [pattern]
  | _ => []

def option? (key : Bytes) : ModuleAssignment → Option (Option Bytes)
  | .option key' value => if key = key' then some (some value) else none
  | _ => none

variable (a : ModuleAssignment) (m : ModuleConfig)

theorem get_apply (s : ModuleSetting) : s.get (a.apply m) = (a.value? s).getD (s.get m) := by
  cases a with
  | set s' v =>
    by_cases h : s' = s
    . subst h
      simp [apply, value?]
    . simp [apply, value?, h, ModuleSetting.get_set_of_ne _ (Ne.symm h)]
  | declare | exclude | includes | option => cases s <;> rfl

theorem excludePatterns_apply : (a.apply m).excludePatterns = m.excludePatterns ++ a.excluded := by
  cases a with
  | set s v => cases s <;> simp [apply, ModuleSetting.set, excluded]
  | declare | exclude | includes | option => simp [apply, excluded]

theorem includePatterns_apply : (a.apply m).includePatterns = m.includePatterns ++ a.included := by
  cases a with
  | set s v => cases s <;> simp [apply, ModuleSetting.set, included]
  | declare | exclude | includes | option => simp [apply, included]

theorem lookup_customOptions_apply (key : Bytes)
    : (a.apply m).customOptions.lookup key = (a.option? key).getD (m.customOptions.lookup key) := by
  cases a with
  | set s v => cases s <;> rfl
  | option key' value =>
    rw [apply, OrderedMap.lookup_insert, option?]
    split <;> rfl
  | declare | exclude | includes => rfl

end ModuleAssignment

namespace ModuleConfig

def assign (m : ModuleConfig) (assignments : List ModuleAssignment) : ModuleConfig :=
  assignments.foldl ModuleAssignment.apply m

/--
Module configurations with the same settings are the same.
-/
theorem ext_settings {m m' : ModuleConfig} (hget : ∀ s : ModuleSetting, s.get m = s.get m')
    (hexclude : m.excludePatterns = m'.excludePatterns) (hinclude : m.includePatterns = m'.includePatterns)
    (hoption : ∀ key, m.customOptions.lookup key = m'.customOptions.lookup key)
    : m = m' :=
  ModuleConfig.ext (hget .name) (hget .path) (hget .comment) (hget .readOnly) (hget .list)
    (hget .allowDelete) (hget .overwrite) hexclude hinclude (hget .preTransferScript)
    (hget .postTransferScript) (hget .preDeleteScript) (hget .postDeleteScript) (hget .preListScript)
    (hget .postListScript) (hget .allowSymlinks) (hget .allowHardlinks) (OrderedMap.ext_lookup hoption)

/--
What the assignments leave of an earlier module configuration: nothing, if each of its settings is
assigned anew or agrees with that of `m'`.
-/
structure Forgotten (m m' : ModuleConfig) (assignments : List ModuleAssignment) : Prop where
  settings : ∀ s : ModuleSetting, (∃ a ∈ assignments, (a.value? s).isSome) ∨ s.get m = s.get m'
  excludePatterns : m.excludePatterns = m'.excludePatterns
  includePatterns : m.includePatterns = m'.includePatterns
  customOptions : ∀ key,
    (∃ a ∈ assignments, (a.option? key).isSome) ∨ m.customOptions.lookup key = m'.customOptions.lookup key

section assign

variable (m : ModuleConfig) (assignments : List ModuleAssignment)

theorem get_assign (s : ModuleSetting)
    : s.get (m.assign assignments) = Cell.overwrite (·.value? s) (s.get m) assignments :=
  (List.foldl_hom s.get fun m a => (a.get_apply m s).symm).symm

theorem excludePatterns_assign
    : (m.assign assignments).excludePatterns
      = Cell.extend ModuleAssignment.excluded m.excludePatterns assignments :=
  (List.foldl_hom excludePatterns fun m a => (a.excludePatterns_apply m).symm).symm

theorem includePatterns_assign
    : (m.assign assignments).includePatterns
      = Cell.extend ModuleAssignment.included m.includePatterns assignments :=
  (List.foldl_hom includePatterns fun m a => (a.includePatterns_apply m).symm).symm

theorem lookup_customOptions_assign (key : Bytes)
    : (m.assign assignments).customOptions.lookup key
      = Cell.overwrite (·.option? key) (m.customOptions.lookup key) assignments :=
  (List.foldl_hom (fun m : ModuleConfig => m.customOptions.lookup key)
    fun m a => (ModuleAssignment.lookup_customOptions_apply a m key).symm).symm

end assign

theorem assign_eq_assign_iff {m m' : ModuleConfig} {assignments : List ModuleAssignment}
    : m.assign assignments = m'.assign assignments ↔ m.Forgotten m' assignments := by
  constructor
  . intro heq
    refine ⟨?_, ?_, ?_, ?_⟩
    . intro s
      have := congrArg s.get heq
      rwa [get_assign, get_assign, Cell.overwrite_eq_overwrite_iff] at this
    . have := congrArg excludePatterns heq
      rwa [excludePatterns_assign, excludePatterns_assign, Cell.extend_eq_extend_iff] at this
    . have := congrArg includePatterns heq
      rwa [includePatterns_assign, includePatterns_assign, Cell.extend_eq_extend_iff] at this
    . intro key
      have : (m.assign assignments).customOptions.lookup key
          = (m'.assign assignments).customOptions.lookup key := by rw [heq]
      rwa [lookup_customOptions_assign, lookup_customOptions_assign,
        Cell.overwrite_eq_overwrite_iff] at this
  . intro h
    apply ext_settings
    . intro s
      rw [get_assign, get_assign, Cell.overwrite_eq_overwrite_iff]
      exact h.settings s
    . rw [excludePatterns_assign, excludePatterns_assign, h.excludePatterns]
    . rw [includePatterns_assign, includePatterns_assign, h.includePatterns]
    . intro key
      rw [lookup_customOptions_assign, lookup_customOptions_assign, Cell.overwrite_eq_overwrite_iff]
      exact h.customOptions key

/--
No assignment changes anything, since it assigns the value there is.
-/
structure Unaffected (m : ModuleConfig) (assignments : List ModuleAssignment) : Prop where
  settings : ∀ (s : ModuleSetting) (v : s.Value), Cell.last (·.value? s) assignments = some v → v = s.get m
  excludePatterns : assignments.flatMap ModuleAssignment.excluded = []
  includePatterns : assignments.flatMap ModuleAssignment.included = []
  customOptions : ∀ key v, Cell.last (·.option? key) assignments = some v → v = m.customOptions.lookup key

theorem assign_eq_self_iff {m : ModuleConfig} {assignments : List ModuleAssignment}
    : m.assign assignments = m ↔ m.Unaffected assignments := by
  constructor
  . intro heq
    refine ⟨?_, ?_, ?_, ?_⟩
    . intro s
      have := congrArg s.get heq
      rwa [get_assign, Cell.overwrite_eq_self_iff] at this
    . have := congrArg excludePatterns heq
      rwa [excludePatterns_assign, Cell.extend_eq_self_iff] at this
    . have := congrArg includePatterns heq
      rwa [includePatterns_assign, Cell.extend_eq_self_iff] at this
    . intro key
      have : (m.assign assignments).customOptions.lookup key = m.customOptions.lookup key := by rw [heq]
      rwa [lookup_customOptions_assign, Cell.overwrite_eq_self_iff] at this
  . intro h
    apply ext_settings
    . intro s
      rw [get_assign, Cell.overwrite_eq_self_iff]
      exact h.settings s
    . rw [excludePatterns_assign, Cell.extend_eq_self_iff]
      exact h.excludePatterns
    . rw [includePatterns_assign, Cell.extend_eq_self_iff]
      exact h.includePatterns
    . intro key
      rw [lookup_customOptions_assign, Cell.overwrite_eq_self_iff]
      exact h.customOptions key

end ModuleConfig

namespace Assignment

def value? (s : Setting) : Assignment → Option s.Value
  | .set s' v => if h : s' = s then some (h ▸ v) else none
  | _ => none

def allowed : Assignment → List Bytes
  | .allowUser name => [name]
  | _ => []

def denied : Assignment → List Bytes
  | .denyUser name => [name]
  | _ => []

/--
What an assignment does to the module of that name.
-/
def inside (name : Bytes) : Assignment → Option ModuleAssignment
  | .inModule name' a => if name = name' then some a else none
  | _ => none

variable (a : Assignment) (c : Configuration)

theorem get_apply (s : Setting) : s.get (a.apply c) = (a.value? s).getD (s.get c) := by
  cases a with
  | set s' v =>
    by_cases h : s' = s
    . subst h
      simp [apply, value?]
    . simp [apply, value?, h, Setting.get_set_of_ne _ (Ne.symm h)]
  | allowUser | denyUser | inModule | error =>
    cases s <;> rfl

theorem rateLimit_apply : (a.apply c).rateLimit = c.rateLimit := by
  cases a with
  | set s v => cases s <;> rfl
  | allowUser | denyUser | inModule | error => rfl

theorem allowedUsers_apply : (a.apply c).auth.allowedUsers = c.auth.allowedUsers ++ a.allowed := by
  cases a with
  | set s v => cases s <;> simp [apply, Setting.set, allowed]
  | allowUser | denyUser | inModule | error =>
    simp [apply, allowed]

theorem deniedUsers_apply : (a.apply c).auth.deniedUsers = c.auth.deniedUsers ++ a.denied := by
  cases a with
  | set s v => cases s <;> simp [apply, Setting.set, denied]
  | allowUser | denyUser | inModule | error =>
    simp [apply, denied]

theorem lookup_modules_apply (name : Bytes)
    : (a.apply c).modules.lookup name
      = (a.inside name).elim (c.modules.lookup name) fun a =>
          some (a.apply ((c.modules.lookup name).getD {})) := by
  cases a with
  | set s v => cases s <;> rfl
  | inModule name' a =>
    rw [apply, OrderedMap.lookup_insert, inside]
    split
    . next h => subst h; rfl
    . rfl
  | allowUser | denyUser | error => rfl

end Assignment

namespace Configuration

/--
The same settings in all sections, whatever else the two keep.
-/
structure SameSettings (c c' : Configuration) : Prop where
  network : c.network = c'.network
  ssl : c.ssl = c'.ssl
  auth : c.auth = c'.auth
  log : c.log = c'.log
  security : c.security = c'.security
  modules : c.modules = c'.modules

/--
All settings are the same, also those that belong to no section and those no file can assign.
-/
structure Same (c c' : Configuration) : Prop extends SameSettings c c' where
  rateLimit : c.rateLimit = c'.rateLimit
  pidFile : c.pidFile = c'.pidFile
  user : c.user = c'.user
  group : c.group = c'.group
  autoReload : c.autoReload = c'.autoReload
  reloadInterval : c.reloadInterval = c'.reloadInterval

theorem SameSettings.symm {c c' : Configuration} (h : c.SameSettings c') : c'.SameSettings c :=
  ⟨h.network.symm, h.ssl.symm, h.auth.symm, h.log.symm, h.security.symm, h.modules.symm⟩

theorem SameSettings.trans {c c' c'' : Configuration} (h : c.SameSettings c') (h' : c'.SameSettings c'')
    : c.SameSettings c'' :=
  ⟨h.network.trans h'.network, h.ssl.trans h'.ssl, h.auth.trans h'.auth, h.log.trans h'.log,
    h.security.trans h'.security, h.modules.trans h'.modules⟩

theorem Same.symm {c c' : Configuration} (h : c.Same c') : c'.Same c where
  toSameSettings := h.toSameSettings.symm
  rateLimit := h.rateLimit.symm
  pidFile := h.pidFile.symm
  user := h.user.symm
  group := h.group.symm
  autoReload := h.autoReload.symm
  reloadInterval := h.reloadInterval.symm

theorem Same.trans {c c' c'' : Configuration} (h : c.Same c') (h' : c'.Same c'') : c.Same c'' where
  toSameSettings := h.toSameSettings.trans h'.toSameSettings
  rateLimit := h.rateLimit.trans h'.rateLimit
  pidFile := h.pidFile.trans h'.pidFile
  user := h.user.trans h'.user
  group := h.group.trans h'.group
  autoReload := h.autoReload.trans h'.autoReload
  reloadInterval := h.reloadInterval.trans h'.reloadInterval

theorem SameSettings.get {c c' : Configuration} (h : c.SameSettings c') (s : Setting) (hs : s.isGlobal = false)
    : s.get c = s.get c' := by
  obtain ⟨hnetwork, hssl, hauth, hlog, hsecurity, -⟩ := h
  cases c
  cases c'
  simp only at hnetwork hssl hauth hlog hsecurity
  subst hnetwork hssl hauth hlog hsecurity
  cases s <;> first | rfl | simp [Setting.isGlobal] at hs

theorem Same.get {c c' : Configuration} (h : c.Same c') (s : Setting) : s.get c = s.get c' := by
  cases hs : s.isGlobal with
  | false => exact h.toSameSettings.get s hs
  | true =>
    cases s with
    | pidFile => exact h.pidFile
    | user => exact h.user
    | group => exact h.group
    | autoReload => exact h.autoReload
    | reloadInterval => exact h.reloadInterval
    | _ => simp [Setting.isGlobal] at hs

theorem sameSettings_of_get {c c' : Configuration}
    (hget : ∀ s : Setting, s.isGlobal = false → s.get c = s.get c')
    (hallowed : c.auth.allowedUsers = c'.auth.allowedUsers)
    (hdenied : c.auth.deniedUsers = c'.auth.deniedUsers)
    (hmodules : ∀ name, c.modules.lookup name = c'.modules.lookup name)
    : c.SameSettings c' where
  network := NetworkConfig.ext (hget .bindAddress rfl) (hget .bindPort rfl) (hget .maxConnections rfl)
    (hget .backlog rfl) (hget .workerThreads rfl)
  ssl := SSLConfig.ext (hget .sslEnabled rfl) (hget .certificateFile rfl) (hget .privateKeyFile rfl)
    (hget .caFile rfl) (hget .cipherSuite rfl) (hget .tlsVersion rfl)
  auth :=
    have policy : c.auth.passwordPolicy = c'.auth.passwordPolicy :=
      PasswordPolicy.ext (hget .minLength rfl) (hget .requireUppercase rfl) (hget .requireLowercase rfl)
        (hget .requireDigits rfl) (hget .requireSpecial rfl) (hget .expirationHours rfl)
    AuthConfig.ext (hget .authEnabled rfl) (hget .method rfl) (hget .realm rfl) (hget .passwordFile rfl)
      (hget .publicKeyFile rfl) (hget .anonymousAccess rfl) hallowed hdenied
      (hget .rejectPlaintextPasswords rfl) policy (hget .sessionTimeout rfl)
  log := LogConfig.ext (hget .logLevel rfl) (hget .logFile rfl) (hget .logFormat rfl)
    (hget .fileOutput rfl) (hget .maxFileSize rfl) (hget .maxFiles rfl) (hget .compressOldLogs rfl)
  security := SecurityConfig.ext (hget .securityUser rfl) (hget .securityGroup rfl)
    (hget .securitySymlinks rfl) (hget .securityHardlinks rfl)
  modules := OrderedMap.ext_lookup hmodules

theorem same_of_get {c c' : Configuration} (hrateLimit : c.rateLimit = c'.rateLimit)
    (hget : ∀ s : Setting, s.get c = s.get c')
    (hallowed : c.auth.allowedUsers = c'.auth.allowedUsers)
    (hdenied : c.auth.deniedUsers = c'.auth.deniedUsers)
    (hmodules : ∀ name, c.modules.lookup name = c'.modules.lookup name)
    : c.Same c' where
  toSameSettings := sameSettings_of_get (fun s _ => hget s) hallowed hdenied hmodules
  rateLimit := hrateLimit
  pidFile := hget .pidFile
  user := hget .user
  group := hget .group
  autoReload := hget .autoReload
  reloadInterval := hget .reloadInterval

section assign

variable (c : Configuration) (assignments : List Assignment)

theorem get_assign (s : Setting)
    : s.get (c.assign assignments) = Cell.overwrite (·.value? s) (s.get c) assignments :=
  (List.foldl_hom s.get fun c a => (a.get_apply c s).symm).symm

/--
No file can assign a rate limit.
-/
theorem rateLimit_assign : (c.assign assignments).rateLimit = c.rateLimit := by
  unfold assign
  induction assignments generalizing c with
  | nil => rfl
  | cons a assignments ih => rw [List.foldl_cons, ih, a.rateLimit_apply]

theorem allowedUsers_assign
    : (c.assign assignments).auth.allowedUsers
      = Cell.extend Assignment.allowed c.auth.allowedUsers assignments :=
  (List.foldl_hom (·.auth.allowedUsers) fun c a => (Assignment.allowedUsers_apply a c).symm).symm

theorem deniedUsers_assign
    : (c.assign assignments).auth.deniedUsers
      = Cell.extend Assignment.denied c.auth.deniedUsers assignments :=
  (List.foldl_hom (·.auth.deniedUsers) fun c a => (Assignment.deniedUsers_apply a c).symm).symm

theorem lookup_modules_assign (name : Bytes)
    : (c.assign assignments).modules.lookup name
      = if assignments.filterMap (·.inside name) = [] then
          c.modules.lookup name
        else
          some (((c.modules.lookup name).getD {}).assign (assignments.filterMap (·.inside name))) := by
  have htouch : (c.assign assignments).modules.lookup name
      = Cell.touch (·.inside name) (fun m a => ModuleAssignment.apply m a) {} (c.modules.lookup name)
        assignments :=
    (List.foldl_hom (fun c : Configuration => c.modules.lookup name)
      fun c a => (Assignment.lookup_modules_apply a c name).symm).symm
  rw [htouch, Cell.touch_eq]
  rfl

end assign

/--
Assignments have the same outcome on the same settings.
-/
theorem Same.assign {c c' : Configuration} (h : c.Same c') (assignments : List Assignment)
    : (c.assign assignments).Same (c'.assign assignments) := by
  apply same_of_get
  . rw [rateLimit_assign, rateLimit_assign, h.rateLimit]
  . intro s
    rw [get_assign, get_assign, h.get]
  . rw [allowedUsers_assign, allowedUsers_assign, h.auth]
  . rw [deniedUsers_assign, deniedUsers_assign, h.auth]
  . intro name
    rw [lookup_modules_assign, lookup_modules_assign, h.modules]

/--
What the assignments leave of earlier settings: nothing, if each of them is assigned anew or agrees
with that of `c'`.
-/
structure Forgotten (c c' : Configuration) (assignments : List Assignment) : Prop where
  settings : ∀ s : Setting, s.isGlobal = false →
    (∃ a ∈ assignments, (a.value? s).isSome) ∨ s.get c = s.get c'
  allowedUsers : c.auth.allowedUsers = c'.auth.allowedUsers
  deniedUsers : c.auth.deniedUsers = c'.auth.deniedUsers
  modules : ∀ name,
    if assignments.filterMap (·.inside name) = [] then
      c.modules.lookup name = c'.modules.lookup name
    else
      ((c.modules.lookup name).getD {}).Forgotten ((c'.modules.lookup name).getD {})
        (assignments.filterMap (·.inside name))

theorem sameSettings_assign_iff {c c' : Configuration} {assignments : List Assignment}
    : (c.assign assignments).SameSettings (c'.assign assignments) ↔ c.Forgotten c' assignments := by
  -- the condition on a module is the same in both directions
  have hmodule : ∀ name, (c.assign assignments).modules.lookup name = (c'.assign assignments).modules.lookup name
      ↔ if assignments.filterMap (·.inside name) = [] then
          c.modules.lookup name = c'.modules.lookup name
        else
          ((c.modules.lookup name).getD {}).Forgotten ((c'.modules.lookup name).getD {})
            (assignments.filterMap (·.inside name)) := by
    intro name
    rw [lookup_modules_assign, lookup_modules_assign]
    split
    . rfl
    . rw [Option.some.injEq, ModuleConfig.assign_eq_assign_iff]
  constructor
  . intro h
    refine ⟨?_, ?_, ?_, ?_⟩
    . intro s hs
      have := h.get s hs
      rwa [get_assign, get_assign, Cell.overwrite_eq_overwrite_iff] at this
    . have := congrArg AuthConfig.allowedUsers h.auth
      rwa [allowedUsers_assign, allowedUsers_assign, Cell.extend_eq_extend_iff] at this
    . have := congrArg AuthConfig.deniedUsers h.auth
      rwa [deniedUsers_assign, deniedUsers_assign, Cell.extend_eq_extend_iff] at this
    . intro name
      rw [← hmodule, h.modules]
  . intro h
    apply sameSettings_of_get
    . intro s hs
      rw [get_assign, get_assign, Cell.overwrite_eq_overwrite_iff]
      exact h.settings s hs
    . rw [allowedUsers_assign, allowedUsers_assign, h.allowedUsers]
    . rw [deniedUsers_assign, deniedUsers_assign, h.deniedUsers]
    . intro name
      rw [hmodule]
      exact h.modules name

/--
No assignment changes anything, since it assigns the value there is.
-/
structure Unaffected (c : Configuration) (assignments : List Assignment) : Prop where
  settings : ∀ (s : Setting) (v : s.Value), Cell.last (·.value? s) assignments = some v → v = s.get c
  allowedUsers : assignments.flatMap Assignment.allowed = []
  deniedUsers : assignments.flatMap Assignment.denied = []
  modules : ∀ name, assignments.filterMap (·.inside name) ≠ [] →
    ∃ m, c.modules.lookup name = some m ∧ m.Unaffected (assignments.filterMap (·.inside name))

theorem same_assign_self_iff {c : Configuration} {assignments : List Assignment}
    : (c.assign assignments).Same c ↔ c.Unaffected assignments := by
  -- likewise for the modules that are assigned to
  have hmodule : ∀ name, (c.assign assignments).modules.lookup name = c.modules.lookup name
      ↔ (assignments.filterMap (·.inside name) ≠ [] →
        ∃ m, c.modules.lookup name = some m ∧ m.Unaffected (assignments.filterMap (·.inside name))) := by
    intro name
    rw [lookup_modules_assign]
    split
    . next hnone => simp [hnone]
    . next hsome =>
      cases c.modules.lookup name with
      | none => simp [hsome]
      | some m => simp [hsome, ModuleConfig.assign_eq_self_iff]
  constructor
  . intro h
    refine ⟨?_, ?_, ?_, ?_⟩
    . intro s
      have := h.get s
      rwa [get_assign, Cell.overwrite_eq_self_iff] at this
    . have := congrArg AuthConfig.allowedUsers h.auth
      rwa [allowedUsers_assign, Cell.extend_eq_self_iff] at this
    . have := congrArg AuthConfig.deniedUsers h.auth
      rwa [deniedUsers_assign, Cell.extend_eq_self_iff] at this
    . intro name
      rw [← hmodule, h.modules]
  . intro h
    apply same_of_get
    . exact c.rateLimit_assign assignments
    . intro s
      rw [get_assign, Cell.overwrite_eq_self_iff]
      exact h.settings s
    . rw [allowedUsers_assign, Cell.extend_eq_self_iff]
      exact h.allowedUsers
    . rw [deniedUsers_assign, Cell.extend_eq_self_iff]
      exact h.deniedUsers
    . intro name
      rw [hmodule]
      exact h.modules name

end Configuration
end SimpleRsyncd
