import SimpleRsyncd.Security.SshKey
import SimpleRsyncd.Transition.Loop

/-!
This module determines what `normalizeSignatureInput` makes of a signature in armor. Its result has no newline
unless it is the signature itself, so that there is nothing to strip a second time.
-/

namespace SimpleRsyncd

namespace SshSignatureVerify

def beginMarker : Bytes :=
  bytes "-----BEGIN SSH SIGNATURE-----"

def endMarker : Bytes :=
  bytes "-----END SSH SIGNATURE-----"

variable {signature : Bytes} {stop pos : Nat}

/--
The position of the second marker and that of the first line of the body, `none` if the signature is returned
as it is.
-/
def armorStart (signature : Bytes) : Option (Nat × Nat) := do
  let start ← Bytes.find beginMarker signature
  let stop ← Bytes.find endMarker signature
  let n ← Bytes.find [newline] (signature.drop start)
  some (stop, start + n + 1)

theorem normalizeSignatureInput_eq (signature : Bytes)
    : normalizeSignatureInput signature
      = match armorStart signature with
        | none => signature
        | some (stop, pos) => armorBody signature stop signature.length pos := by
  unfold normalizeSignatureInput armorStart beginMarker endMarker
  cases Bytes.find (bytes "-----BEGIN SSH SIGNATURE-----") signature with
  | none => rfl
  | some start =>
    cases Bytes.find (bytes "-----END SSH SIGNATURE-----") signature with
    | none => rfl
    | some stop =>
      simp only [Option.bind_eq_bind, Option.bind_some]
      cases Bytes.find [newline] (signature.drop start) <;> rfl

/--
The loop of `normalizeSignatureInput`, with the position that it has come to and the body so far.
-/
def armorLoop (signature : Bytes) (stop : Nat) : Loop (Nat × Bytes) Bytes :=
  fun (pos, body) =>
    if pos < stop then
      match Bytes.find [newline] (signature.drop pos) with
      | none => .leave (body ++ (signature.drop pos).take (stop - pos))
      | some n =>
        let lineEnd := pos + n
        let chunkEnd := if lineEnd > stop then stop else lineEnd
        let body := body ++ (signature.drop pos).take (chunkEnd - pos)
        if lineEnd ≥ stop then .leave body else .next (lineEnd + 1, body)
    else
      .exit body

theorem decreases_armorLoop (signature : Bytes) (stop : Nat)
    : (armorLoop signature stop).Decreases fun (pos, _) => stop - pos := by
  constructor
  . rintro ⟨pos, body⟩ r hleave
    by_cases hpos : pos < stop
    . dsimp only
      omega
    . simp [armorLoop, hpos] at hleave
  . rintro ⟨pos, body⟩ s' hnext
    by_cases hpos : pos < stop
    . simp only [armorLoop, if_pos hpos] at hnext
      split at hnext
      . contradiction
      . split at hnext
        . contradiction
        . obtain rfl := Turn.next.inj hnext
          dsimp only
          omega
    . simp [armorLoop, hpos] at hnext

theorem follows_armorBody (signature : Bytes) (stop : Nat)
    : (armorLoop signature stop).Follows fun left (pos, body) => body ++ armorBody signature stop left pos := by
  constructor
  . rintro ⟨pos, body⟩ r hexit
    by_cases hpos : pos < stop
    . simp only [armorLoop, if_pos hpos] at hexit
      split at hexit
      . contradiction
      . split at hexit <;> contradiction
    . simp only [armorLoop, if_neg hpos] at hexit
      simp [armorBody, Turn.exit.inj hexit]
  . rintro left ⟨pos, body⟩
    by_cases hpos : pos < stop
    . simp only [armorLoop, armorBody, if_pos hpos]
      cases Bytes.find [newline] (signature.drop pos) with
      | none => rfl
      | some n =>
        simp only
        by_cases hend : pos + n ≥ stop
        . rw [if_pos hend, if_pos hend]
        . rw [if_neg hend, if_neg hend]
          simp only [List.append_assoc]
    . simp [armorLoop, armorBody, if_neg hpos]

theorem newline_notMem_armorBody (fuel : Nat) : newline ∉ armorBody signature stop fuel pos := by
  induction fuel generalizing pos with
  | zero => simp [armorBody]
  | succ fuel ih =>
    rw [armorBody]
    split
    . split
      . next hnone =>
        rw [Bytes.find_singleton_eq_none_iff] at hnone
        exact fun hmem => hnone (List.mem_of_mem_take hmem)
      . next n hn =>
        -- the chunk ends in front of the newline, or earlier at the marker
        have hchunk : newline ∉ (signature.drop pos).take ((if pos + n > stop then stop else pos + n) - pos) := by
          intro hmem
          refine Bytes.notMem_take_of_find hn (List.take_subset_take_left _ ?_ hmem)
          split <;> omega
        dsimp only
        split
        . exact hchunk
        . rw [List.mem_append, not_or]
          exact ⟨hchunk, ih⟩
    . simp

/--
Without a newline there is no armor.
-/
theorem normalizeSignatureInput_of_notMem (h : newline ∉ signature) : normalizeSignatureInput signature = signature := by
  rw [normalizeSignatureInput_eq]
  cases hstart : armorStart signature with
  | none => rfl
  | some positions =>
    simp only [armorStart, Option.bind_eq_bind, Option.bind_eq_some_iff] at hstart
    obtain ⟨start, -, stop, -, n, hn, -⟩ := hstart
    have hnone : Bytes.find [newline] (signature.drop start) = none :=
      Bytes.find_singleton_eq_none_iff.mpr fun hmem => h (List.mem_of_mem_drop hmem)
    rw [hnone] at hn
    contradiction

theorem normalizeSignatureInput_idem (signature : Bytes)
    : normalizeSignatureInput (normalizeSignatureInput signature) = normalizeSignatureInput signature := by
  rw [normalizeSignatureInput_eq signature]
  cases hstart : armorStart signature with
  | none =>
    simp only
    rw [normalizeSignatureInput_eq, hstart]
  -- joining the lines cannot make another armor, since the line of its first marker would have to end
  | some positions => exact normalizeSignatureInput_of_notMem (newline_notMem_armorBody _)

/--
Between the two positions every line is put behind the ones before it.
-/
theorem armorBody_lines {lines : List Bytes} {rest : Bytes} {fuel : Nat} (hlines : ∀ line ∈ lines, newline ∉ line)
    (hdrop : signature.drop pos = lines.flatMap (· ++ [newline]) ++ rest) (hfuel : lines.length ≤ fuel)
    : armorBody signature (pos + (lines.flatMap (· ++ [newline])).length) fuel pos = lines.flatten := by
  induction lines generalizing fuel pos with
  | nil => cases fuel <;> simp [armorBody]
  | cons line lines ih =>
    obtain ⟨fuel, rfl⟩ := Nat.exists_eq_succ_of_ne_zero (Nat.ne_zero_of_lt hfuel)
    obtain ⟨hline, hlines⟩ := List.forall_mem_cons.mp hlines
    rw [List.flatMap_cons, List.append_assoc, List.append_assoc, List.singleton_append] at hdrop
    have hfind : Bytes.find [newline] (signature.drop pos) = some line.length := by
      rw [hdrop, Bytes.find_singleton_append _ hline]
    have hnext : signature.drop (pos + line.length + 1) = lines.flatMap (· ++ [newline]) ++ rest := by
      rw [← List.drop_drop, ← List.drop_drop, hdrop, List.drop_left]
      rfl
    have hlength : pos + ((line :: lines).flatMap (· ++ [newline])).length
        = pos + line.length + 1 + (lines.flatMap (· ++ [newline])).length := by
      rw [List.flatMap_cons, List.length_append, List.length_append, List.length_singleton]
      omega
    have ih := ih hlines hnext (Nat.le_of_succ_le_succ hfuel)
    rw [hlength, armorBody, if_pos (by omega), hfind]
    dsimp only
    rw [if_neg (by omega), if_neg (by omega), ih, Nat.add_sub_cancel_left, hdrop, List.take_left, List.flatten_cons]

/--
What may stand in front of an armor: nothing, or whole lines without a marker.
-/
structure Leads (before : Bytes) : Prop where
  ends : before = [] ∨ before.getLast? = some newline
  noBegin : ¬beginMarker <:+: before
  noEnd : ¬endMarker <:+: before

/--
A body in armor, with what stands before and behind it.
-/
def armored (before : Bytes) (lines : List Bytes) (after : Bytes) : Bytes :=
  before ++ (beginMarker ++ newline :: (lines.flatMap (· ++ [newline]) ++ (endMarker ++ after)))

theorem armorStart_armored {before after : Bytes} {lines : List Bytes} (hbefore : Leads before)
    (hlines : ¬endMarker <:+: lines.flatMap (· ++ [newline]))
    : armorStart (armored before lines after)
      = some (before.length + beginMarker.length + 1 + (lines.flatMap (· ++ [newline])).length,
          before.length + beginMarker.length + 1) := by
  have hbeginLine : newline ∉ beginMarker := by decide
  have hendLine : newline ∉ endMarker := by decide
  have hbegin : Bytes.find beginMarker (armored before lines after) = some before.length := by
    rw [armored, Bytes.find_append_of_lines _ hbefore.ends hbeginLine hbefore.noBegin,
      Bytes.find_eq_zero (List.prefix_append _ _)]
    rfl
  have hend : Bytes.find endMarker (armored before lines after)
      = some (before.length + beginMarker.length + 1 + (lines.flatMap (· ++ [newline])).length) := by
    rw [armored, Bytes.find_append_of_lines _ hbefore.ends hendLine hbefore.noEnd,
      Bytes.find_append_cons hendLine (by decide),
      Bytes.find_append_of_lines _ (Bytes.getLast?_flatMap_lines lines) hendLine hlines,
      Bytes.find_eq_zero (List.prefix_append _ _)]
    simp [Nat.add_assoc]
  have hnewline : Bytes.find [newline] ((armored before lines after).drop before.length) = some beginMarker.length := by
    rw [armored, List.drop_left, Bytes.find_singleton_append _ hbeginLine]
  simp only [armorStart, hbegin, hend, hnewline, Option.bind_eq_bind, Option.bind_some]

theorem length_le_flatMap_lines (lines : List Bytes) : lines.length ≤ (lines.flatMap (· ++ [newline])).length := by
  induction lines with
  | nil => exact Nat.le_refl _
  | cons line lines ih =>
    rw [List.flatMap_cons, List.length_append, List.length_append, List.length_singleton, List.length_cons]
    omega

theorem normalizeSignatureInput_armored {before after : Bytes} {lines : List Bytes} (hbefore : Leads before)
    (hnewline : ∀ line ∈ lines, newline ∉ line) (hlines : ¬endMarker <:+: lines.flatMap (· ++ [newline]))
    : normalizeSignatureInput (armored before lines after) = lines.flatten := by
  have hdrop : (armored before lines after).drop (before.length + beginMarker.length + 1)
      = lines.flatMap (· ++ [newline]) ++ (endMarker ++ after) := by
    rw [armored, ← List.drop_drop, ← List.drop_drop, List.drop_left, List.drop_left]
    rfl
  have hfuel : lines.length ≤ (armored before lines after).length := by
    have := length_le_flatMap_lines lines
    simp only [armored, List.length_append, List.length_cons]
    omega
  rw [normalizeSignatureInput_eq, armorStart_armored hbefore hlines]
  exact armorBody_lines hnewline hdrop hfuel

theorem stop_le_length (h : armorStart signature = some (stop, pos)) : stop ≤ signature.length := by
  simp only [armorStart, Option.bind_eq_bind, Option.bind_eq_some_iff, Option.some.injEq, Prod.mk.injEq] at h
  obtain ⟨-, -, stop, hstop, -, -, rfl, -⟩ := h
  have hlength := (Bytes.prefix_drop_of_find hstop).length_le
  have hmarker : endMarker.length = 27 := by decide
  rw [List.length_drop, hmarker] at hlength
  omega

/--
The armor around lines is stripped whatever is behind it, the loop comes to an end on every text, and there is
never a second armor to strip.
-/
theorem normalizeSignatureInput_strips
    : (∀ before lines after, Leads before → (∀ line ∈ lines, newline ∉ line) →
        ¬endMarker <:+: lines.flatMap (· ++ [newline]) →
        normalizeSignatureInput (armored before lines after) = lines.flatten)
      ∧ (∀ signature stop pos, armorStart signature = some (stop, pos) →
        ∃ n, (armorLoop signature stop).Ends (pos, []) n (normalizeSignatureInput signature) ∧ n ≤ signature.length)
      ∧ ∀ signature, normalizeSignatureInput (normalizeSignatureInput signature) = normalizeSignatureInput signature := by
  refine ⟨?_, ?_, normalizeSignatureInput_idem⟩
  . intro before lines after hbefore hnewline hlines
    exact normalizeSignatureInput_armored hbefore hnewline hlines
  . intro signature stop pos hstart
    have hstop := stop_le_length hstart
    obtain ⟨n, hends, hn⟩ := (follows_armorBody signature stop).ends (s := (pos, []))
      (decreases_armorLoop signature stop) signature.length (by dsimp only; omega)
    refine ⟨n, ?_, by dsimp only at hn; omega⟩
    rw [normalizeSignatureInput_eq, hstart]
    exact hends

/--
Two lines of a signature behind a greeting.
-/
def armoredMail : Bytes :=
  armored (bytes "Hi,\n") [bytes "U1NI", bytes "U0lH"] (bytes "\n")

theorem normalizeSignatureInput_strips_mail
    : normalizeSignatureInput armoredMail = bytes "U1NIU0lH"
      ∧ ∃ n, (armorLoop armoredMail 44).Ends (34, []) n (normalizeSignatureInput armoredMail) ∧ n ≤ armoredMail.length := by
  have hbefore : Leads (bytes "Hi,\n") := by
    constructor <;> decide +kernel
  constructor
  . exact normalizeSignatureInput_strips.1 _ [bytes "U1NI", bytes "U0lH"] _ hbefore (by decide +kernel) (by decide +kernel)
  . exact normalizeSignatureInput_strips.2.1 _ 44 34 (by decide +kernel)

end SshSignatureVerify
end SimpleRsyncd
