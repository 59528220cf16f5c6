import SimpleRsyncd.Bytes.Words
import SimpleRsyncd.Protocol.Parser

/-!
This module determines what `ProtocolParser::parse` makes of a request that has been written down in one of the
possible ways.
-/

namespace SimpleRsyncd
namespace ProtocolParser

/--
The words for a command, in upper case.
-/
def commandWords : List (String × ProtocolCommand) :=
  [
    ("LIST", .list), ("LS", .list),
    ("GET", .get), ("DOWNLOAD", .get),
    ("PUT", .put), ("UPLOAD", .put), ("SEND", .put),
    ("DELETE", .delete), ("DEL", .delete), ("RM", .delete),
    ("STAT", .stat), ("STATUS", .stat), ("INFO", .stat),
    ("AUTH", .auth), ("LOGIN", .auth)
  ]

/--
A request that can be written down as a line. The word for the command may be in any letter case.
-/
structure Request where
  word : Bytes
  command : ProtocolCommand
  module : Bytes
  path : Bytes
  arguments : List (Bytes × Bytes)
  known : ∃ e ∈ commandWords, word.map Bytes.toupper = bytes e.1 ∧ command = e.2
  isWord_module : Bytes.IsWord module
  isWord_path : Bytes.IsWord path
  not_isspace : ∀ e ∈ arguments, ∀ c ∈ e.1 ++ e.2, Bytes.isspace c = false
  equals_notMem : ∀ e ∈ arguments, equals ∉ e.1
  nodup : (arguments.map Prod.fst).Nodup

/--
`key=value`.
-/
def argumentText (e : Bytes × Bytes) : Bytes :=
  e.1 ++ equals :: e.2

namespace Request

variable (r : Request)

def words : List Bytes :=
  r.word :: r.module :: r.path :: r.arguments.map argumentText

/--
The line of a request, and whatever comes after it.
-/
def IsLine (data : Bytes) : Prop :=
  ∃ line after, data = line ++ after ∧ Bytes.Joined r.words line ∧ ∀ c ∈ after.head?, c = newline

/--
A text with the request in its first line, or below a header.
-/
def IsText (data : Bytes) : Prop :=
  r.IsLine data ∨ ∃ version data', newline ∉ version ∧ r.IsLine data'
    ∧ data = bytes "@RSYNCD:" ++ version ++ newline :: data'

end Request

section parse

variable {r : Request} {line : Bytes}

theorem parseCommand_congr {line' : Bytes}
    (h : ((Bytes.words line).head?.getD []).map Bytes.toupper = ((Bytes.words line').head?.getD []).map Bytes.toupper)
    : parseCommand line = parseCommand line' := by
  simp only [parseCommand]
  rw [h]

theorem parseCommand_commandWords
    : ∀ e ∈ commandWords, parseCommand (bytes e.1) = e.2 ∧ (bytes e.1).map Bytes.toupper = bytes e.1
      ∧ Bytes.IsWord (bytes e.1) ∧ (bytes e.1).head? ≠ some 64 ∧ e.2 ≠ .unknown := by
  decide

theorem toupper_eq_of_isspace {c : UInt8} (h : Bytes.isspace c = true) : Bytes.toupper c = c := by
  simp only [Bytes.isspace, Bool.or_eq_true, beq_iff_eq, Bool.and_eq_true, decide_eq_true_eq] at h
  have hsmall : ¬97 ≤ c := by
    rcases h with rfl | ⟨-, h⟩
    . decide
    . intro hle
      exact absurd (UInt8.le_trans hle h) (by decide)
  simp [Bytes.toupper, hsmall]

theorem Request.isWord_word : Bytes.IsWord r.word := by
  obtain ⟨e, he, hword, -⟩ := r.known
  obtain ⟨-, -, hisWord, -⟩ := parseCommand_commandWords e he
  constructor
  . intro hnil
    rw [hnil] at hword
    exact hisWord.1 hword.symm
  . intro c hc
    by_contra hspace
    have hupper := toupper_eq_of_isspace (by simpa using hspace)
    have hmem : c ∈ r.word.map Bytes.toupper := List.mem_map.mpr ⟨c, hc, hupper⟩
    rw [hword] at hmem
    exact hspace (hisWord.2 c hmem)

theorem Request.isWord_of_mem_words : ∀ w ∈ r.words, Bytes.IsWord w := by
  intro w hw
  simp only [words, List.mem_cons, List.mem_map] at hw
  rcases hw with rfl | rfl | rfl | ⟨e, he, rfl⟩
  . exact isWord_word
  . exact r.isWord_module
  . exact r.isWord_path
  . refine ⟨by simp [argumentText], ?_⟩
    intro c hc
    rcases List.mem_append.mp hc with hc | hc
    . exact r.not_isspace e he c (List.mem_append_left _ hc)
    . rcases List.mem_cons.mp hc with rfl | hc
      . decide
      . exact r.not_isspace e he c (List.mem_append_right _ hc)

theorem parseCommand_of_words (h : Bytes.words line = r.words) : parseCommand line = r.command := by
  obtain ⟨e, he, hword, hcommand⟩ := r.known
  obtain ⟨hparse, hupper, hisWord, -⟩ := parseCommand_commandWords e he
  rw [hcommand, ← hparse]
  apply parseCommand_congr
  rw [h, Bytes.words_of_isWord hisWord]
  exact hword.trans hupper.symm

/--
No word for a command is the beginning of a header.
-/
theorem not_header_of_joined (h : Bytes.Joined r.words line) : Bytes.startsWith line (bytes "@RSYNCD:") = false := by
  obtain ⟨e, he, hword, -⟩ := r.known
  obtain ⟨-, -, -, hhead, -⟩ := parseCommand_commandWords e he
  rw [← Bool.not_eq_true, Bytes.startsWith_iff]
  rintro ⟨rest, rfl⟩
  have hfirst : (bytes "@RSYNCD:" ++ rest).head? = r.word.head? := h.head?_eq Request.isWord_word.1
  refine hhead ?_
  rw [← hword, List.head?_map, ← hfirst]
  rfl

theorem foldl_add {arguments : List (Bytes × Bytes)} (hequals : ∀ e ∈ arguments, equals ∉ e.1)
    (hnodup : (arguments.map Prod.fst).Nodup) {args : Arguments}
    (hargs : ∀ e ∈ arguments, e.1 ∉ args.map Prod.fst)
    : (arguments.map argumentText).foldl parseArguments.add args = arguments.reverse ++ args := by
  induction arguments generalizing args with
  | nil => rfl
  | cons e arguments ih =>
    obtain ⟨hnotMem, hnodup⟩ := List.nodup_cons.mp hnodup
    have hkey := hequals e List.mem_cons_self
    have hall : ∀ c ∈ e.1, decide (c ≠ equals) = true := by
      intro c hc
      rw [decide_eq_true_eq]
      rintro rfl
      exact hkey hc
    -- no earlier argument has this key, so nothing is replaced
    have hfilter : args.filter (·.1 ≠ e.1) = args := by
      rw [List.filter_eq_self]
      intro e' he'
      rw [decide_eq_true_eq]
      intro heq
      exact hargs e List.mem_cons_self (heq ▸ List.mem_map_of_mem he')
    have hkeyText : (argumentText e).takeWhile (· ≠ equals) = e.1 := by
      rw [argumentText, List.takeWhile_append_of_pos hall]
      simp
    have hvalueText : ((argumentText e).dropWhile (· ≠ equals)).tail = e.2 := by
      rw [argumentText, List.dropWhile_append_of_pos hall]
      simp
    have hadd : parseArguments.add args (argumentText e) = e :: args := by
      rw [parseArguments.add, if_pos (by simp [argumentText]), hkeyText, hvalueText, Arguments.insert, hfilter]
    rw [List.map_cons, List.foldl_cons, hadd, ih (fun e he => hequals e (List.mem_cons_of_mem _ he)) hnodup]
    . simp
    . intro e' he'
      rw [List.map_cons, List.mem_cons, not_or]
      refine ⟨?_, hargs e' (List.mem_cons_of_mem _ he')⟩
      intro heq
      exact hnotMem (heq ▸ List.mem_map_of_mem he')

theorem parseArguments_of_words (h : Bytes.words line = r.words)
    : parseArguments line = r.arguments.reverse := by
  rw [parseArguments, h]
  have hfold : (r.arguments.map argumentText).foldl parseArguments.add [] = r.arguments.reverse ++ [] :=
    foldl_add r.equals_notMem r.nodup (by simp)
  rw [List.append_nil] at hfold
  exact hfold

theorem Request.command_ne_unknown : r.command ≠ .unknown := by
  obtain ⟨e, he, -, hcommand⟩ := r.known
  rw [hcommand]
  exact (parseCommand_commandWords e he).2.2.2.2

/--
What the request means, with the arguments in the order in which the map has them.
-/
def Request.message (r : Request) : ProtocolMessage where
  command := r.command
  module := r.module
  path := r.path
  arguments := r.arguments.reverse
  valid := true

theorem parseBareLine_of_words (h : Bytes.words line = r.words) : parseBareLine line = r.message := by
  have hmodule : r.module.isEmpty = false := by simpa using r.isWord_module.1
  simp only [parseBareLine, parseCommand_of_words h, parseArguments_of_words h, parseModule, parsePath, h,
    ne_eq, r.command_ne_unknown, not_false_eq_true, if_true]
  simp [Request.words, Request.message, hmodule]

theorem parseHeadedLine_of_words (h : Bytes.words line = r.words) : parseHeadedLine line = r.message := by
  simp only [parseHeadedLine, parseCommand_of_words h, parseArguments_of_words h, parseModule, parsePath, h]
  simp [Request.words, Request.message, r.command_ne_unknown]

theorem Request.IsLine.getline {data : Bytes} (h : r.IsLine data)
    : ∃ line rest, Bytes.getline data = some (line, rest) ∧ Bytes.Joined r.words line := by
  obtain ⟨line, after, rfl, hjoined, hafter⟩ := h
  have hne : line ≠ [] := by
    rintro rfl
    have hhead := hjoined.head?_eq isWord_word.1
    rw [List.head?_nil, eq_comm, List.head?_eq_none_iff] at hhead
    exact isWord_word.1 hhead
  exact ⟨line, after.tail, Bytes.getline_append hne (hjoined.newline_notMem r.isWord_of_mem_words) hafter, hjoined⟩

theorem parse_eq_message {data : Bytes} (h : r.IsText data) : parse data = r.message := by
  rcases h with h | ⟨version, data', hversion, h, rfl⟩
  . obtain ⟨line, rest, hgetline, hjoined⟩ := h.getline
    rw [parse, hgetline]
    simp only [not_header_of_joined hjoined]
    exact parseBareLine_of_words (hjoined.words_eq r.isWord_of_mem_words)
  . obtain ⟨line, rest, hgetline, hjoined⟩ := h.getline
    have hheader : newline ∉ bytes "@RSYNCD:" ++ version := by
      rw [List.mem_append, not_or]
      exact ⟨by decide, hversion⟩
    have hfirst : Bytes.getline (bytes "@RSYNCD:" ++ version ++ newline :: data')
        = some (bytes "@RSYNCD:" ++ version, data') :=
      Bytes.getline_append (by simp [bytes]) hheader (by simp)
    have hheaded : Bytes.startsWith (bytes "@RSYNCD:" ++ version) (bytes "@RSYNCD:") = true := by simp
    rw [parse, hfirst]
    simp only [hheaded, if_true, hgetline]
    exact parseHeadedLine_of_words (hjoined.words_eq r.isWord_of_mem_words)

end parse

/--
Parsing undoes any of the ways to write down a request, in particular with and without a header.
-/
theorem parse_isText {r : Request} {data : Bytes} (h : r.IsText data)
    : (parse data).valid = true
        ∧ (parse data).command = r.command
        ∧ (parse data).module = r.module
        ∧ (parse data).path = r.path
        ∧ (parse data).arguments.Perm r.arguments
        ∧ ∀ data', r.IsText data' → parse data' = parse data := by
  rw [parse_eq_message h]
  exact ⟨rfl, rfl, rfl, rfl, List.reverse_perm r.arguments, fun data' h' => parse_eq_message h'⟩

/--
An upload with two arguments, one of which has padding at the end of its value.
-/
def upload : Request where
  word := bytes "Put"
  command := .put
  module := bytes "m"
  path := bytes "/f"
  arguments := [(bytes "key", bytes "QQ=="), (bytes "mode", bytes "a")]
  known := ⟨("PUT", .put), by decide, by decide, rfl⟩
  isWord_module := by decide
  isWord_path := by decide
  not_isspace := by decide
  equals_notMem := by decide
  nodup := by decide

theorem isText_upload : upload.IsText (bytes "@RSYNCD: 30\nPut  m\t/f key=QQ== \r mode=a\nmore\n") := by
  have hjoined : Bytes.Joined upload.words
      (bytes "Put" ++ (bytes "  " ++ (bytes "m" ++ (bytes "\t" ++ (bytes "/f" ++ (bytes " " ++ (bytes "key=QQ=="
        ++ (bytes " \r " ++ bytes "mode=a")))))))) :=
    .cons _ (by decide) (by decide) <| .cons _ (by decide) (by decide) <| .cons _ (by decide) (by decide) <|
      .cons _ (by decide) (by decide) <| .single _
  refine .inr ⟨bytes " 30", _, by decide, ⟨_, bytes "\nmore\n", rfl, hjoined, by simp [bytes, newline]⟩, ?_⟩
  decide

theorem parse_isText_single
    : (parse (bytes "@RSYNCD: 30\nPut  m\t/f key=QQ== \r mode=a\nmore\n")).arguments.Perm upload.arguments :=
  (parse_isText isText_upload).2.2.2.2.1

end ProtocolParser
end SimpleRsyncd
