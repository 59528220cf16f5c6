import SimpleRsyncd.Auth.PublicKeyDatabase.RoundTrip

/-!
This module determines which commented lines of a file of public keys make a difference. A line is only
skipped as a comment if its first character is a `#`, while blanks in front of it are removed later.
-/

namespace SimpleRsyncd
namespace PublicKeyDatabase

/--
The first character of a line that is not a blank is a `#`.
-/
def isComment (line : Bytes) : Bool :=
  (Bytes.trimLeft line).head? = some 35

def withoutComments (text : Bytes) : Bytes :=
  ((Bytes.getlines newline text).filter (!isComment ·)).flatMap (· ++ [newline])

/--
There is a supported key on a line and a user that it belongs to.
-/
def HoldsKey (line : Bytes) : Prop :=
  ∃ keyInfo, PublicKey.parse (PublicKey.extractKeyLine (splitUser line).2) = some keyInfo
    ∧ ((splitUser line).1 ≠ [] ∨ PublicKey.usernameFromComment keyInfo.comment ≠ [])

section line

variable {line : Bytes}

theorem parseTrimmed_eq_none_iff : parseTrimmed line = none ↔ ¬HoldsKey line := by
  unfold parseTrimmed HoldsKey
  simp only
  cases PublicKey.parse (PublicKey.extractKeyLine (splitUser line).2) with
  | none => simp
  | some keyInfo => by_cases huser : (splitUser line).1 = [] <;> simp [huser]

theorem parseLine_eq_none_iff_of_isComment (hcomment : isComment line = true)
    : parseLine line = none
        ↔
      line.head? = some 35 ∨ ¬HoldsKey (Bytes.trimRight (Bytes.trimLeft line)) := by
  have hhead : (Bytes.trimLeft line).head? = some 35 := by simpa [isComment] using hcomment
  obtain ⟨rest, htrimmed⟩ := List.head?_eq_some_iff.mp hhead
  have hempty : line.isEmpty = false := by
    rw [List.isEmpty_eq_false_iff]
    rintro rfl
    simp [Bytes.trimLeft] at hhead
  have htrimmed' : (Bytes.trimRight (Bytes.trimLeft line)).isEmpty = false := by
    rw [List.isEmpty_eq_false_iff, Bytes.trimRight, htrimmed, Ne, List.rdropWhile_eq_nil_iff]
    intro hblank
    exact absurd (hblank 35 (by simp)) (by decide)
  rw [parseLine, hempty]
  by_cases hfirst : line.head? = some 35
  . simp [hfirst]
  . simp [hfirst, htrimmed', parseTrimmed_eq_none_iff]

end line

/--
Some lines can be left out if and only if there is no key on any of them.
-/
theorem foldl_addLine_filter_eq_iff (keep : Bytes → Bool) (lines : List Bytes)
    : lines.foldl addLine .empty = (lines.filter keep).foldl addLine .empty
        ↔
      ∀ line ∈ lines, keep line = false → parseLine line = none := by
  constructor
  . intro hsame line hline hleft
    cases hparse : parseLine line with
    | none => rfl
    | some keyInfo =>
      exfalso
      let ofUser := fun line => ((parseLine line).map fun k => decide (k.username = keyInfo.username)).getD false
      have hcount : lines.countP ofUser = (lines.filter keep).countP ofUser := by
        have hkeys := congrArg (fun keys => ((keys.lookup keyInfo.username).getD []).length) hsame
        simpa only [lookup_foldl_addLine, OrderedMap.lookup_empty, Option.getD_none, List.nil_append,
          ← List.countP_eq_length_filter, List.countP_filterMap] using hkeys
      have hnone : (lines.filter (!keep ·)).countP ofUser = 0 := by
        have := List.countP_eq_countP_filter_add lines ofUser keep
        omega
      have hmem : line ∈ lines.filter (!keep ·) := List.mem_filter.mpr ⟨hline, by simp [hleft]⟩
      exact List.countP_eq_zero.mp hnone line hmem (by simp [ofUser, hparse])
  . intro hnone
    rw [List.foldl_filter]
    refine List.foldl_ext _ _ _ ?_
    intro keys line hline
    by_cases hkeep : keep line = true
    . rw [if_pos hkeep]
    . rw [if_neg hkeep, addLine, hnone line hline (by simpa using hkeep)]

theorem getlines_withoutComments (text : Bytes)
    : Bytes.getlines newline (withoutComments text)
      = (Bytes.getlines newline text).filter (!isComment ·) := by
  refine Bytes.getlines_flatMap ?_
  intro line hline
  exact Bytes.notMem_of_mem_getlines (List.mem_of_mem_filter hline)

/--
A file without its comments makes the same keys if and only if no comment with blanks in front of it holds
a key.
-/
theorem load_withoutComments_iff {db : PublicKeyDatabase} {disk disk' : Disk} {text : Bytes} (hfile : db.keyFile ≠ [])
    (hread : disk.read db.keyFile = some text) (hread' : disk'.read db.keyFile = some (withoutComments text))
    : (db.load disk).2.keys = (db.load disk').2.keys
        ↔
      ∀ line ∈ Bytes.getlines newline text, isComment line = true →
        line.head? = some 35 ∨ ¬HoldsKey (Bytes.trimRight (Bytes.trimLeft line)) := by
  have hempty : db.keyFile.isEmpty = false := by simpa using hfile
  have hload : (db.load disk).2.keys = (Bytes.getlines newline text).foldl addLine .empty := by
    simp [load, hempty, hread]
  have hload' : (db.load disk').2.keys
      = ((Bytes.getlines newline text).filter (!isComment ·)).foldl addLine .empty := by
    simp [load, hempty, hread', getlines_withoutComments]
  rw [hload, hload', foldl_addLine_filter_eq_iff]
  refine forall₂_congr ?_
  intro line _
  cases hcomment : isComment line with
  | false => simp
  | true => simpa using parseLine_eq_none_iff_of_isComment hcomment

/--
A disk with one file.
-/
def oneFile (name text : Bytes) : Disk :=
  { Disk.empty with content := fun other => if other = name then some text else none }

/--
A revoked key and one that is used.
-/
def revokedText : Bytes :=
  bytes "# ssh-ed25519 AAAAC3 alice@host\nbob: ssh-ed25519 AAAAC4\n"

theorem load_withoutComments_single
    : ((new (bytes "keys")).load (oneFile (bytes "keys") revokedText)).2.keys
      = ((new (bytes "keys")).load (oneFile (bytes "keys") (withoutComments revokedText))).2.keys := by
  refine (load_withoutComments_iff (by decide) rfl rfl).mpr ?_
  intro line hline hcomment
  have hlines : ∀ line ∈ Bytes.getlines newline revokedText, isComment line = true → line.head? = some 35 := by
    decide
  exact .inl (hlines line hline hcomment)

/--
A revoked key with blanks in front of the comment.
-/
def indentedText : Bytes :=
  bytes "  # ssh-ed25519 AAAAC3 alice@host\nbob: ssh-ed25519 AAAAC4\n"

/--
The revoked key is alive.
-/
theorem not_load_withoutComments_single
    : ((new (bytes "keys")).load (oneFile (bytes "keys") indentedText)).2.getUserKeys (bytes "alice")
      = [{
          keyType := bytes "ssh-ed25519", keyData := bytes "AAAAC3", comment := bytes "alice@host",
          username := bytes "alice"
        }]
        ∧ ((new (bytes "keys")).load (oneFile (bytes "keys") (withoutComments indentedText))).2.getUserKeys
          (bytes "alice") = []
        ∧ ((new (bytes "keys")).load (oneFile (bytes "keys") indentedText)).2.keys
          ≠ ((new (bytes "keys")).load (oneFile (bytes "keys") (withoutComments indentedText))).2.keys := by
  have halice : ((new (bytes "keys")).load (oneFile (bytes "keys") indentedText)).2.getUserKeys (bytes "alice")
      ≠ ((new (bytes "keys")).load (oneFile (bytes "keys") (withoutComments indentedText))).2.getUserKeys
        (bytes "alice") := by
    decide
  refine ⟨by decide, by decide, ?_⟩
  intro hkeys
  exact halice (by rw [getUserKeys, hkeys, getUserKeys])

end PublicKeyDatabase
end SimpleRsyncd
