import SimpleRsyncd.Auth.PasswordFile

/-!
This module determines when the two maps of a password file agree after it was read again. A load clears
the credentials only, so what is known about a user outlives the line the user came from.
-/

namespace SimpleRsyncd
namespace PasswordFile

/--
The calls that read the file, each one finds its own state of the disk.
-/
inductive LoadCall where
  | load (disk : Disk)
  | reload (disk : Disk)

def LoadCall.disk : LoadCall → Disk
  | .load disk => disk
  | .reload disk => disk

def perform : LoadCall → PasswordFile → PasswordFile
  | .load disk, file => (file.load disk).2
  | .reload disk, file => (file.reload disk).2

def step : Transition PasswordFile LoadCall :=
  .ofFun perform

/--
A user has information if and only if it exists, and the information contains its credential.
-/
def Agrees (file : PasswordFile) (username : Bytes) : Prop :=
  ((file.getUserInfo username).isSome = true ↔ file.userExists username = true)
    ∧ ∀ userInfo, file.getUserInfo username = some userInfo → file.credential username = some userInfo.passwordHash

/--
The user has an entry in a text.
-/
def Listed (rejectPlaintext : Bool) (username text : Bytes) : Prop :=
  username ∈ (entries rejectPlaintext text).map Prod.fst

instance {rejectPlaintext : Bool} {username text : Bytes} : Decidable (Listed rejectPlaintext username text) :=
  inferInstanceAs (Decidable (_ ∈ _))

/--
The last load has read a text without the user, and an earlier one a text with the user.
-/
def Removed (filename : Bytes) (rejectPlaintext : Bool) (disks : List Disk) (username : Bytes) : Prop :=
  ∃ earlier disk text, disks = earlier ++ [disk] ∧ opened filename disk = some text
    ∧ ¬Listed rejectPlaintext username text
    ∧ ∃ text' ∈ earlier.filterMap (opened filename), Listed rejectPlaintext username text'

/--
The credentials come from the last text, the information comes from all of them.
-/
structure Recalls (filename : Bytes) (rejectPlaintext : Bool) (disks : List Disk) (file : PasswordFile) : Prop where
  filename_eq : file.filename = filename
  rejectPlaintext_eq : file.rejectPlaintext = rejectPlaintext
  loaded_eq : file.loaded = (disks.getLast?.bind (opened filename)).isSome
  users_eq : ∀ username, file.users.lookup username
    = (disks.getLast?.bind (opened filename)).bind fun text => lastEntry (entries rejectPlaintext text) username
  userInfo_eq : ∀ username, file.userInfo.lookup username
    = (lastEntry ((disks.filterMap (opened filename)).flatMap (entries rejectPlaintext)) username).map
      fun c => infoOf (username, c)

theorem lastEntry_append (es es' : List (Bytes × Bytes)) (username : Bytes)
    : lastEntry (es ++ es') username = (lastEntry es' username).or (lastEntry es username) := by
  simp only [lastEntry, List.reverse_append, List.find?_append, Option.map_or]

theorem isSome_lastEntry_iff {es : List (Bytes × Bytes)} {username : Bytes}
    : (lastEntry es username).isSome = true ↔ username ∈ es.map Prod.fst := by
  simp [lastEntry, List.find?_isSome]

section history

variable {filename : Bytes} {rejectPlaintext : Bool} {disks : List Disk} {file : PasswordFile}

theorem recalls_load (h : Recalls filename rejectPlaintext disks file) (disk : Disk)
    : Recalls filename rejectPlaintext (disks ++ [disk]) (file.load disk).2 := by
  have hspec := fun username => load_spec file disk username
  simp only [h.filename_eq, h.rejectPlaintext_eq] at hspec
  constructor
  . exact (hspec []).1
  . exact (hspec []).2.1
  . rw [(hspec []).2.2.1, List.getLast?_concat, Option.bind_some]
  . intro username
    rw [(hspec username).2.2.2.1, List.getLast?_concat, Option.bind_some]
  . intro username
    rw [(hspec username).2.2.2.2, h.userInfo_eq, List.filterMap_append, List.flatMap_append, lastEntry_append,
      Option.map_or]
    cases hopened : opened filename disk with
    | none => simp [hopened, lastEntry]
    | some text => simp [hopened]

theorem recalls_run {disk : Disk} {calls : List LoadCall}
    (h : Transition.Run step (new filename rejectPlaintext disk) calls file)
    : Recalls filename rejectPlaintext (disk :: calls.map LoadCall.disk) file := by
  induction h with
  | nil =>
    have hfresh : Recalls filename rejectPlaintext [] { filename, rejectPlaintext } :=
      ⟨rfl, rfl, rfl, fun _ => rfl, fun _ => rfl⟩
    exact recalls_load hfresh disk
  | @snoc calls call file file' _ hstep ih =>
    obtain rfl : perform call file = file' := hstep
    rw [List.map_append, ← List.cons_append]
    cases call with
    | load disk' => exact recalls_load ih disk'
    | reload disk' => exact recalls_load ih disk'

theorem isSome_lastEntry_flatMap_iff {texts : List Bytes} {username : Bytes}
    : (lastEntry (texts.flatMap (entries rejectPlaintext)) username).isSome = true
      ↔ ∃ text ∈ texts, Listed rejectPlaintext username text := by
  rw [isSome_lastEntry_iff, List.map_flatMap, List.mem_flatMap]
  rfl

theorem agrees_of_notOpened {disk : Disk} (h : Recalls filename rejectPlaintext (disks ++ [disk]) file)
    (hopened : opened filename disk = none) (username : Bytes)
    : file.Agrees username := by
  have hloaded := h.loaded_eq
  rw [List.getLast?_concat, Option.bind_some, hopened] at hloaded
  simp [Agrees, getUserInfo, userExists, hloaded]

theorem agrees_iff_of_opened {disk : Disk} {text : Bytes} (h : Recalls filename rejectPlaintext (disks ++ [disk]) file)
    (hopened : opened filename disk = some text) (username : Bytes)
    : file.Agrees username
        ↔
      (Listed rejectPlaintext username text
        ∨ ¬∃ text' ∈ disks.filterMap (opened filename), Listed rejectPlaintext username text') := by
  have hloaded := h.loaded_eq
  have husers := h.users_eq username
  have huserInfo := h.userInfo_eq username
  rw [List.getLast?_concat, Option.bind_some, hopened] at hloaded husers
  rw [List.filterMap_append, List.flatMap_append, lastEntry_append, List.filterMap_cons_some hopened, List.filterMap_nil,
    List.flatMap_singleton] at huserInfo
  rw [Option.bind_some] at husers
  rw [Option.isSome_some] at hloaded
  rw [← isSome_lastEntry_flatMap_iff, Listed, ← isSome_lastEntry_iff]
  simp only [Agrees, getUserInfo, userExists, credential, hloaded, husers, huserInfo, Bool.not_true, Bool.false_eq_true,
    if_false, Bool.true_and]
  -- the information is from the last text if the user is there, and from an earlier one otherwise
  cases lastEntry (entries rejectPlaintext text) username with
  | some c => simp [infoOf]
  | none =>
    cases lastEntry ((disks.filterMap (opened filename)).flatMap (entries rejectPlaintext)) username <;> simp

end history

/--
After any calls, the maps agree about a user if and only if the last call has not removed it.
-/
theorem agrees_iff (filename : Bytes) (rejectPlaintext : Bool) (disk : Disk) (calls : List LoadCall) (file : PasswordFile)
    (hrun : Transition.Run step (new filename rejectPlaintext disk) calls file) (username : Bytes)
    : file.Agrees username
        ↔
      ¬Removed filename rejectPlaintext (disk :: calls.map LoadCall.disk) username := by
  have hrecalls := recalls_run hrun
  obtain ⟨earlier, last, hdisks⟩ : ∃ earlier last, disk :: calls.map LoadCall.disk = earlier ++ [last] :=
    ⟨_, _, (List.dropLast_append_getLast (List.cons_ne_nil _ _)).symm⟩
  rw [hdisks] at hrecalls ⊢
  cases hopened : opened filename last with
  | none =>
    refine iff_of_true (agrees_of_notOpened hrecalls hopened username) ?_
    rintro ⟨_, _, text, heq, hsome, -⟩
    obtain ⟨-, hlast⟩ := List.append_inj' heq rfl
    simp_all
  | some text =>
    rw [agrees_iff_of_opened hrecalls hopened, Removed]
    constructor
    . rintro hkept ⟨earlier', last', text', heq, hsome, hnot, hbefore⟩
      obtain ⟨rfl, hlast⟩ := List.append_inj' heq rfl
      obtain rfl := List.cons.inj hlast |>.1
      obtain rfl : text = text' := by simpa [hopened] using hsome
      rcases hkept with hlisted | hnever
      . exact hnot hlisted
      . exact hnever hbefore
    . intro hkept
      by_contra hneither
      rw [not_or, not_not] at hneither
      exact hkept ⟨earlier, last, text, rfl, hopened, hneither⟩

section removed

/--
A disk with a password file.
-/
def passwd (text : Bytes) : Disk :=
  { Disk.empty with content := fun _ => some text }

theorem agrees_iff_kept
    : ((new (bytes "passwd") false (passwd (bytes "u:p\n"))).load (passwd (bytes "u:q\n"))).2.Agrees (bytes "u") := by
  refine (agrees_iff (bytes "passwd") false (passwd (bytes "u:p\n")) [.load (passwd (bytes "u:q\n"))] _ (.single rfl)
    (bytes "u")).mpr ?_
  rintro ⟨_, _, text, heq, hopened, hnot, -⟩
  have hlast := List.append_inj_right' (show [passwd (bytes "u:p\n")] ++ [passwd (bytes "u:q\n")] = _ ++ [_] from heq) rfl
  obtain rfl := (List.cons.inj hlast).1
  obtain rfl : bytes "u:q\n" = text := Option.some.inj hopened
  exact hnot (by decide)

/--
A user that was removed from the file is still known after the reload.
-/
theorem not_agrees_removed
    : ¬((new (bytes "passwd") false (passwd (bytes "u:p\n"))).reload (passwd [])).2.Agrees (bytes "u") := by
  intro hagrees
  exact absurd hagrees.1 (by decide)

end removed
end PasswordFile
end SimpleRsyncd
