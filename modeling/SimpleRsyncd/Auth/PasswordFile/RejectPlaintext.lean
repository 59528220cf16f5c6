import SimpleRsyncd.Auth.PasswordFile.Reload
import SimpleRsyncd.Auth.PasswordHasher.Verify

/-!
This module contains what rejecting passwords in plain text means: the lines with such a password are read
as if they were not there, and only a digest of a salt and the password logs in.
-/

namespace SimpleRsyncd

namespace PasswordHasher

variable {sha256 : Bytes → Bytes} {outcome : CryptoOutcome} {password hash : Bytes}

/--
A credential with a salt and the digest of that salt and the password, where an empty salt stands for the
one that is made up.
-/
def IsDigestOf (sha256 : Bytes → Bytes) (outcome : CryptoOutcome) (password hash : Bytes) : Prop :=
  ∃ salt digest, hash = stored salt digest ∧ colon ∉ salt
    ∧ digest = Bytes.hex (sha256 (usedSalt outcome salt ++ password))

theorem startsWith_stored_iff : isHashed hash = true ↔ ∃ rest, hash = bytes "sha256" ++ colon :: rest := by
  rw [isHashed, Bytes.startsWith_iff]
  constructor
  . rintro ⟨rest, rfl⟩
    exact ⟨rest, rfl⟩
  . rintro ⟨rest, rfl⟩
    exact ⟨rest, rfl⟩

/--
Without the branch for plain text there is one way to be accepted.
-/
theorem verifyPassword_iff_of_isHashed (hhashed : isHashed hash = true) (hdigest : outcome.digestFails = false)
    : verifyPassword sha256 outcome password hash = true ↔ IsDigestOf sha256 outcome password hash := by
  obtain ⟨rest, rfl⟩ := startsWith_stored_iff.mp hhashed
  constructor
  . intro haccept
    cases hcut : Bytes.cut colon rest with
    | none =>
      rw [verifyPassword, hhashed, Bytes.cut_append (by decide)] at haccept
      simp [hcut] at haccept
    | some parts =>
      obtain ⟨salt, digest⟩ := parts
      obtain ⟨hsalt, rfl⟩ := Bytes.cut_eq_some_iff.mp hcut
      exact ⟨salt, digest, rfl, hsalt, (verifyPassword_stored hsalt hdigest).mp haccept⟩
  . rintro ⟨salt, digest, heq, hsalt, hcomputed⟩
    rw [heq]
    exact (verifyPassword_stored hsalt hdigest).mpr hcomputed

end PasswordHasher

namespace PasswordFile

/--
The line has an entry whose credential is not a hash.
-/
def isPlaintext (line : Bytes) : Bool :=
  (parseLine false line).any fun e => !PasswordHasher.isHashed e.2

/--
The text without the lines that have a password in plain text.
-/
def removePlaintext (text : Bytes) : Bytes :=
  ((Bytes.getlines newline text).filter (!isPlaintext ·)).flatMap (· ++ [newline])

theorem parseLine_true (line : Bytes)
    : parseLine true line = (parseLine false line).filter fun e => PasswordHasher.isHashed e.2 := by
  unfold parseLine
  dsimp only
  split
  . rfl
  . split
    . rfl
    . rfl
    . next password _ _ => cases hhashed : PasswordHasher.isHashed password <;> simp [hhashed, Option.filter_some]

theorem filterMap_parseLine_true (lines : List Bytes)
    : lines.filterMap (parseLine true) = (lines.filter (!isPlaintext ·)).filterMap (parseLine false) := by
  rw [List.filterMap_filter]
  refine List.filterMap_congr fun line _ => ?_
  rw [parseLine_true, isPlaintext]
  cases parseLine false line with
  | none => rfl
  | some e => simp [Option.filter_some]

theorem getlines_removePlaintext (text : Bytes)
    : Bytes.getlines newline (removePlaintext text) = (Bytes.getlines newline text).filter (!isPlaintext ·) := by
  refine Bytes.getlines_flatMap fun line hline => ?_
  exact Bytes.notMem_of_mem_getlines (List.mem_of_mem_filter hline)

/--
Rejecting the passwords while the file is read or removing them from it is the same.
-/
theorem entries_true (text : Bytes) : entries true text = entries false (removePlaintext text) := by
  rw [entries, entries, getlines_removePlaintext, filterMap_parseLine_true]

theorem entries_true_removePlaintext (text : Bytes) : entries true (removePlaintext text) = entries true text := by
  rw [entries, entries, getlines_removePlaintext, filterMap_parseLine_true, filterMap_parseLine_true, List.filter_filter]
  simp only [Bool.and_self]

theorem isHashed_of_lastEntry {text username credential : Bytes}
    (h : lastEntry (entries true text) username = some credential)
    : PasswordHasher.isHashed credential = true := by
  simp only [lastEntry, Option.map_eq_some_iff] at h
  obtain ⟨e, hfind, rfl⟩ := h
  have hmem := List.mem_of_find?_eq_some hfind
  rw [List.mem_reverse, entries, List.mem_filterMap] at hmem
  obtain ⟨line, -, hline⟩ := hmem
  rw [parseLine_true] at hline
  exact (Option.filter_eq_some_iff.mp hline).2

theorem opened_of_removed {filename : Bytes} {disk disk' : Disk}
    (h : disk'.read filename = (disk.read filename).map removePlaintext)
    : opened filename disk' = (opened filename disk).map removePlaintext := by
  unfold opened
  split
  . rfl
  . exact h

/--
A file that rejects plain text answers as if the lines with plain text had been removed, and accepts a
password if and only if the last entry that is left has a digest of it.
-/
theorem authenticate_rejectPlaintext (sha256 : Bytes → Bytes) (outcome : CryptoOutcome) (file : PasswordFile)
    (disk disk' : Disk) (username password : Bytes) (hreject : file.rejectPlaintext = true)
    (hremoved : disk'.read file.filename = (disk.read file.filename).map removePlaintext)
    (hdigest : outcome.digestFails = false)
    : (file.load disk).2.authenticate sha256 outcome username password
        = (file.load disk').2.authenticate sha256 outcome username password
      ∧ ((file.load disk).2.authenticate sha256 outcome username password = true
        ↔ ∃ text credential, opened file.filename disk = some text
          ∧ lastEntry (entries false (removePlaintext text)) username = some credential
          ∧ PasswordHasher.IsDigestOf sha256 outcome password credential) := by
  have hcredential : (file.load disk').2.credential username = (file.load disk).2.credential username := by
    rw [credential_load, credential_load, hreject, opened_of_removed hremoved, Option.bind_map]
    refine congrArg _ (funext fun text => ?_)
    rw [Function.comp_apply, entries_true_removePlaintext]
  refine ⟨by rw [authenticate_eq, authenticate_eq, hcredential], ?_⟩
  rw [authenticate_eq, credential_load, hreject, Option.any_eq_true]
  constructor
  . rintro ⟨credential, hfound, haccept⟩
    obtain ⟨text, hopened, hlast⟩ := Option.bind_eq_some_iff.mp hfound
    rw [PasswordHasher.verifyPassword_iff_of_isHashed (isHashed_of_lastEntry hlast) hdigest] at haccept
    exact ⟨text, credential, hopened, entries_true text ▸ hlast, haccept⟩
  . rintro ⟨text, credential, hopened, hlast, hdigestOf⟩
    rw [← entries_true] at hlast
    refine ⟨credential, Option.bind_eq_some_iff.mpr ⟨text, hopened, hlast⟩, ?_⟩
    exact (PasswordHasher.verifyPassword_iff_of_isHashed (isHashed_of_lastEntry hlast) hdigest).mpr hdigestOf

section sample

def hashedLine : Bytes :=
  bytes "u:" ++ PasswordHasher.stored (bytes "s") (Bytes.hex (PasswordHasher.sampleSha256 (bytes "spw")))

/--
A hash between two passwords in plain text.
-/
def mixedText : Bytes :=
  bytes "u:pw\n" ++ hashedLine ++ bytes "\nu: other\n"

theorem removePlaintext_mixedText : removePlaintext mixedText = hashedLine ++ bytes "\n" := by
  decide +kernel

theorem authenticate_rejectPlaintext_mixed
    : (new (bytes "passwd") true (passwd mixedText)).authenticate PasswordHasher.sampleSha256 PasswordHasher.sampleOutcome
        (bytes "u") (bytes "pw") = true := by
  refine (authenticate_rejectPlaintext _ _ { filename := bytes "passwd", rejectPlaintext := true } (passwd mixedText)
    (passwd (removePlaintext mixedText)) _ _ rfl rfl rfl).2.mpr ?_
  refine ⟨mixedText, PasswordHasher.stored (bytes "s") (Bytes.hex (PasswordHasher.sampleSha256 (bytes "spw"))), rfl, ?_,
    bytes "s", _, rfl, by decide, rfl⟩
  rw [removePlaintext_mixedText]
  decide +kernel

end sample
end PasswordFile
end SimpleRsyncd
