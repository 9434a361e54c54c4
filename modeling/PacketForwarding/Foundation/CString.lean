import Mathlib

/-! # Strings of C

A string is the list of its bytes before the NUL. `strtok_r` cuts it into tokens, which
are the pieces between delimiters that are not empty.
-/

namespace PacketForwarding.CString

abbrev Bytes := List (BitVec 8)

/-- The string that starts in a buffer. -/
def cString (buffer : Bytes) : Bytes :=
  buffer.takeWhile fun byte => byte != 0#8

/-! ## Tokens -/

section Tokens

variable (isDelim : BitVec 8 → Bool)

/-- `strtok_r`: the next token, and where the one after it is looked for. -/
def strtok (s : Bytes) : Option (Bytes × Bytes) :=
  match s.dropWhile isDelim with
  | [] => none
  | byte :: rest =>
      some ((byte :: rest).takeWhile fun byte => !isDelim byte,
        ((byte :: rest).dropWhile fun byte => !isDelim byte).tail)

/-- The next so many tokens. -/
def strtoks : Nat → Bytes → Option (List Bytes)
  | 0, _ => some []
  | count + 1, s => do
      let (token, rest) ← strtok isDelim s
      let tokens ← strtoks count rest
      return token :: tokens

/-- The pieces between delimiters that are not empty. -/
def words (s : Bytes) : List Bytes :=
  (s.splitOnP isDelim).filter fun word => !word.isEmpty

variable {isDelim}

theorem words_dropWhile (s : Bytes) : words isDelim (s.dropWhile isDelim) = words isDelim s := by
  induction s with
  | nil => rfl
  | cons byte rest induction =>
      cases delim : isDelim byte with
      | false => rw [List.dropWhile_cons_of_neg (by simp [delim])]
      | true =>
          have cut : (byte :: rest).splitOnP isDelim = [] :: rest.splitOnP isDelim :=
            List.splitOnP_append_cons_of_forall_mem
              (fun _ impossible => absurd impossible List.not_mem_nil) byte delim rest
          rw [List.dropWhile_cons_of_pos delim, induction, words, words, cut]
          rfl

theorem words_append_delim {word : Bytes} {delim : BitVec 8} (rest : Bytes) (nonempty : word ≠ [])
    (inWord : ∀ byte ∈ word, isDelim byte = false) (isDelimiter : isDelim delim = true) :
    words isDelim (word ++ delim :: rest) = word :: words isDelim rest := by
  have cut := List.splitOnP_append_cons_of_forall_mem inWord delim isDelimiter rest
  rw [words, cut, List.filter_cons_of_pos (by simpa using nonempty)]
  rfl

theorem words_single {word : Bytes} (nonempty : word ≠ [])
    (inWord : ∀ byte ∈ word, isDelim byte = false) : words isDelim word = [word] := by
  rw [words, List.splitOnP_eq_singleton inWord]
  simpa using nonempty

/-- The tokens are the words. -/
theorem words_eq (s : Bytes) :
    words isDelim s =
      match strtok isDelim s with
      | none => []
      | some (token, rest) => token :: words isDelim rest := by
  rw [← words_dropWhile, strtok]
  cases start : s.dropWhile isDelim with
  | nil => rfl
  | cons byte rest =>
      have first : isDelim byte = false := by
        have head := List.head?_dropWhile_not isDelim s
        rw [start] at head
        simpa using head
      have inToken : ∀ other ∈ (byte :: rest).takeWhile fun byte => !isDelim byte,
          isDelim other = false := by
        intro other member
        simpa using List.mem_takeWhile_imp member
      have nonempty : ((byte :: rest).takeWhile fun byte => !isDelim byte) ≠ [] := by
        rw [List.takeWhile_cons_of_pos (by simp [first])]
        exact List.cons_ne_nil _ _
      have whole := List.takeWhile_append_dropWhile (p := fun byte => !isDelim byte)
        (l := byte :: rest)
      dsimp only
      cases behind : (byte :: rest).dropWhile fun byte => !isDelim byte with
      | nil =>
          rw [behind, List.append_nil] at whole
          rw [whole] at inToken nonempty ⊢
          exact words_single nonempty inToken
      | cons delim after =>
          have isDelimiter : isDelim delim = true := by
            have head := List.head?_dropWhile_not (fun byte => !isDelim byte) (byte :: rest)
            rw [behind] at head
            simpa using head
          rw [behind] at whole
          have cut := words_append_delim after nonempty inToken isDelimiter
          rw [whole] at cut
          exact cut

/-- A token is not empty, and what is left is shorter. -/
theorem strtok_cases {s token rest : Bytes} (next : strtok isDelim s = some (token, rest)) :
    token ≠ [] ∧ (∀ byte ∈ token, byte ∈ s ∧ isDelim byte = false) ∧
      rest.length < s.length ∧ ∀ byte ∈ rest, byte ∈ s := by
  rw [strtok] at next
  have suffix : s.dropWhile isDelim <:+ s := List.dropWhile_suffix _
  cases start : s.dropWhile isDelim with
  | nil =>
      rw [start] at next
      cases next
  | cons first behind =>
      rw [start] at next suffix
      cases next
      have notDelim : isDelim first = false := by
        have head := List.head?_dropWhile_not isDelim s
        rw [start] at head
        simpa using head
      have tail : ((first :: behind).dropWhile fun byte => !isDelim byte).tail <:+ behind := by
        rw [List.dropWhile_cons_of_pos (by simp [notDelim])]
        exact (List.tail_suffix _).trans (List.dropWhile_suffix _)
      refine ⟨?_, ?_, ?_, ?_⟩
      · rw [List.takeWhile_cons_of_pos (by simp [notDelim])]
        exact List.cons_ne_nil _ _
      · intro byte member
        have front := (List.takeWhile_prefix fun byte => !isDelim byte).subset member
        exact ⟨suffix.subset front, by simpa using List.mem_takeWhile_imp member⟩
      · exact (Nat.lt_succ_of_le tail.length_le).trans_le suffix.length_le
      · intro byte member
        exact suffix.subset (List.mem_cons_of_mem _ (tail.subset member))

theorem mem_words : ∀ (s : Bytes), ∀ word ∈ words isDelim s,
    word ≠ [] ∧ ∀ byte ∈ word, byte ∈ s ∧ isDelim byte = false := by
  intro s
  induction length : s.length using Nat.strong_induction_on generalizing s with
  | _ count induction =>
      intro word member
      rw [words_eq] at member
      cases next : strtok isDelim s with
      | none =>
          rw [next] at member
          cases member
      | some found =>
          rcases found with ⟨token, rest⟩
          rcases strtok_cases next with ⟨nonempty, inToken, shorter, inRest⟩
          rw [next] at member
          rcases List.mem_cons.mp member with same | later
          · rw [same]
            exact ⟨nonempty, inToken⟩
          · rcases induction _ (length ▸ shorter) rest rfl word later with ⟨wordNonempty, inWord⟩
            refine ⟨wordNonempty, ?_⟩
            intro byte inside
            exact ⟨inRest byte (inWord byte inside).1, (inWord byte inside).2⟩

/-- So many tokens are found if there are so many words. -/
theorem strtoks_eq : ∀ (count : Nat) (s : Bytes),
    strtoks isDelim count s =
      if count ≤ (words isDelim s).length then some ((words isDelim s).take count) else none := by
  intro count
  induction count with
  | zero =>
      intro s
      simp [strtoks]
  | succ count induction =>
      intro s
      rw [strtoks, words_eq s]
      cases next : strtok isDelim s with
      | none => rfl
      | some found =>
          rcases found with ⟨token, rest⟩
          change (strtoks isDelim count rest).bind _ = _
          rw [induction rest]
          by_cases enough : count ≤ (words isDelim rest).length
          · simp [enough]
          · simp [enough]

end Tokens

end PacketForwarding.CString
