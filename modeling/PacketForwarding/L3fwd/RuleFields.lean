import PacketForwarding.L3fwd.RuleFile

/-! # Fields of a rule line

A rule line is cut into tokens at blanks, and the numbers in the tokens are read by one
macro. It looks only at what stops the number and at an upper limit, so what it accepts is
more than what a field should be.
-/

namespace PacketForwarding.L3fwd

open CString

/-- `" \t\n"` -/
def isBlankDelim (byte : BitVec 8) : Bool :=
  byte == 32#8 || byte == 9#8 || byte == 10#8

/-- `GET_CB_FIELD`: the number, and the text behind its delimiter. Without a result the
function that uses it returns `-EINVAL`. -/
def getCbField (input : Text) (base limit : Nat) (dlm : BitVec 8) : Option (Nat × Text) :=
  let result := strtoul base input
  if result.erange = true ∨ result.stop.headD 0#8 ≠ dlm ∨ limit < result.value then none
  else some (result.value, result.stop.tail)

/-- The tokens of a line. -/
def lineTokens (line : Text) : List Text :=
  words isBlankDelim (cString line)

/-- The number in a text of which all is read. -/
def readLimited (base limit : Nat) (text : Text) : Option Nat :=
  (readNumeral base text).filter fun value => decide (value ≤ limit)

/-- What makes up a token. -/
theorem mem_lineTokens {line token : Text} (member : token ∈ lineTokens line) :
    token ≠ [] ∧ ∀ byte ∈ token, byte ≠ 0#8 ∧ isBlankDelim byte = false := by
  rcases mem_words _ token member with ⟨nonempty, bytes⟩
  refine ⟨nonempty, ?_⟩
  intro byte inside
  obtain ⟨inString, notBlank⟩ := bytes byte inside
  exact ⟨by simpa using List.mem_takeWhile_imp inString, notBlank⟩

section Field

variable {base limit : Nat}

theorem readLimited_eq (input : Text) :
    readLimited base limit input =
      if (strtoul base input).erange = true ∨ (strtoul base input).stop ≠ [] ∨
        limit < (strtoul base input).value then none
      else some (strtoul base input).value := by
  rw [readLimited, readNumeral]
  generalize strtoul base input = result
  rcases result with ⟨value, stop, erange⟩
  cases erange with
  | true => simp
  | false =>
      cases stop with
      | nil =>
          by_cases small : value ≤ limit
          · simp [Option.filter, small, Nat.not_lt.mpr small]
          · simp [Nat.lt_of_not_le small]
      | cons byte rest => simp

/-- Up to the end of a string all is read. -/
theorem getCbField_nul {input : Text} (noNul : ∀ byte ∈ input, byte ≠ 0#8) :
    getCbField input base limit 0#8 =
      (readLimited base limit input).map fun value => (value, []) := by
  have part := strtoul_stop_suffix base input
  have ends : (strtoul base input).stop.headD 0#8 ≠ 0#8 ↔ (strtoul base input).stop ≠ [] := by
    cases stop : (strtoul base input).stop with
    | nil => simp
    | cons byte rest =>
        rw [stop] at part
        have notNul := noNul byte (part.subset List.mem_cons_self)
        simpa using notNul
  rw [getCbField, readLimited_eq]
  simp only [ends]
  split
  · rfl
  · rename_i reads
    have stop : (strtoul base input).stop = [] := by
      by_contra rest
      exact reads (.inr (.inl rest))
    rw [stop]
    rfl

/-- Up to a delimiter all is read. -/
theorem getCbField_delim {dlm : BitVec 8} (delimits : Delimits dlm) {input : Text}
    (before : dlm ∉ input) (behind : Text) :
    getCbField (input ++ dlm :: behind) base limit dlm =
      (readLimited base limit input).map fun value => (value, behind) := by
  have part := strtoul_stop_suffix base input
  have ends : ((strtoul base input).stop ++ dlm :: behind).headD 0#8 ≠ dlm ↔
      (strtoul base input).stop ≠ [] := by
    cases stop : (strtoul base input).stop with
    | nil => simp
    | cons byte rest =>
        rw [stop] at part
        have different : byte ≠ dlm := by
          rintro rfl
          exact before (part.subset List.mem_cons_self)
        simpa using different
  rw [getCbField, readLimited_eq, strtoul_append delimits]
  simp only [ends]
  split
  · rfl
  · rename_i reads
    have stop : (strtoul base input).stop = [] := by
      by_contra rest
      exact reads (.inr (.inl rest))
    rw [stop]
    rfl

theorem getCbField_noDelim {dlm : BitVec 8} (notNul : dlm ≠ 0#8) {input : Text}
    (none : dlm ∉ input) : getCbField input base limit dlm = .none := by
  have part := strtoul_stop_suffix base input
  have ends : (strtoul base input).stop.headD 0#8 ≠ dlm := by
    cases stop : (strtoul base input).stop with
    | nil => exact notNul.symm
    | cons byte rest =>
        rw [stop] at part
        rintro rfl
        exact none (part.subset List.mem_cons_self)
  rw [getCbField]
  exact if_pos (.inr (.inl ends))

end Field

/-! ## Cutting a text at delimiters -/

/-- What is before the first delimiter, and what is behind it. -/
def cutAt (dlm : BitVec 8) (text : Text) : Option (Text × Text) :=
  if dlm ∈ text then
    some (text.takeWhile fun byte => byte != dlm, (text.dropWhile fun byte => byte != dlm).tail)
  else
    none

theorem cutAt_eq_some {dlm : BitVec 8} {text piece behind : Text} :
    cutAt dlm text = some (piece, behind) ↔ text = piece ++ dlm :: behind ∧ dlm ∉ piece := by
  rw [cutAt]
  constructor
  · intro cut
    split at cut
    · rename_i member
      have parts := Prod.ext_iff.mp (Option.some.inj cut)
      have whole := List.takeWhile_append_dropWhile (p := fun byte => byte != dlm) (l := text)
      cases rest : text.dropWhile fun byte => byte != dlm with
      | nil =>
          have all := List.dropWhile_eq_nil_iff.mp rest dlm member
          simp at all
      | cons first others =>
          have head := List.head?_dropWhile_not (fun byte => byte != dlm) text
          rw [rest] at head whole parts
          have isDelim : first = dlm := by simpa using head
          dsimp only at parts
          rw [List.tail_cons] at parts
          rw [parts.1, parts.2, isDelim] at whole
          refine ⟨whole.symm, ?_⟩
          rw [← parts.1]
          intro inside
          have different := List.mem_takeWhile_imp inside
          simp at different
    · cases cut
  · rintro ⟨rfl, before⟩
    have different : ∀ byte ∈ piece, (byte != dlm) = true := by
      intro byte member
      rw [bne_iff_ne]
      rintro rfl
      exact before member
    rw [if_pos (by simp), List.takeWhile_append_of_pos different,
      List.dropWhile_append_of_pos different, List.takeWhile_cons_of_neg (by simp),
      List.dropWhile_cons_of_neg (by simp), List.append_nil, List.tail_cons]

/-- `GET_CB_FIELD` reads what is before its delimiter. -/
theorem getCbField_cut {base limit value : Nat} {dlm : BitVec 8} (delimits : Delimits dlm)
    (notNul : dlm ≠ 0#8) {input behind : Text} :
    getCbField input base limit dlm = some (value, behind) ↔
      ∃ piece, cutAt dlm input = some (piece, behind) ∧ readLimited base limit piece = some value := by
  constructor
  · intro read
    by_cases member : dlm ∈ input
    · have cut : ∃ piece rest, cutAt dlm input = some (piece, rest) := by
        rw [cutAt, if_pos member]
        exact ⟨_, _, rfl⟩
      rcases cut with ⟨piece, rest, cut⟩
      rcases cutAt_eq_some.mp cut with ⟨whole, before⟩
      rw [whole, getCbField_delim delimits before] at read
      rcases Option.map_eq_some_iff.mp read with ⟨number, numeral, same⟩
      cases same
      exact ⟨piece, cut, numeral⟩
    · rw [getCbField_noDelim notNul member] at read
      cases read
  · rintro ⟨piece, cut, numeral⟩
    rcases cutAt_eq_some.mp cut with ⟨rfl, before⟩
    rw [getCbField_delim delimits before, numeral]
    rfl

theorem getCbField_whole {base limit value : Nat} {input behind : Text}
    (noNul : ∀ byte ∈ input, byte ≠ 0#8) :
    getCbField input base limit 0#8 = some (value, behind) ↔
      readLimited base limit input = some value ∧ behind = [] := by
  rw [getCbField_nul noNul, Option.map_eq_some_iff]
  constructor
  · rintro ⟨number, numeral, same⟩
    cases same
    exact ⟨numeral, rfl⟩
  · rintro ⟨numeral, rfl⟩
    exact ⟨value, numeral, rfl⟩

/-! ## What a numeral should be -/

/-- The text is a number without white space or sign, and in its range. -/
def PlainNumber (base limit : Nat) (text : Text) (value : Nat) : Prop :=
  unsignedNumeral base text = some value ∧ value ≤ limit

/-- The text does not start with white space or a sign, and it is not empty. -/
def StartsPlain (text : Text) : Prop :=
  ∃ byte rest, text = byte :: rest ∧ isSpace byte = false ∧ byte ≠ 45#8 ∧ byte ≠ 43#8

theorem startsPlain_of_plain {base limit value : Nat} {text : Text}
    (plain : PlainNumber base limit text value) : StartsPlain text := by
  rcases unsignedNumeral_head plain.1 with ⟨radix, byte, rest, whole, digit⟩
  exact ⟨byte, rest, whole, isDigit_notBefore digit⟩

theorem readLimited_of_plain {base limit value : Nat} {text : Text}
    (plain : PlainNumber base limit text value) (small : limit < ulongRange) :
    readLimited base limit text = some value := by
  rw [readLimited, readNumeral_of_unsigned plain.1 (plain.2.trans_lt small)]
  exact if_pos (decide_eq_true plain.2)

/-- What is read is a plain number if it starts like one. -/
theorem plain_of_startsPlain {base limit value : Nat} {text : Text}
    (read : readLimited base limit text = some value) (starts : StartsPlain text) :
    PlainNumber base limit text value := by
  rcases starts with ⟨byte, rest, rfl, notSpace, notMinus, notPlus⟩
  rcases Option.filter_eq_some_iff.mp read with ⟨whole, small⟩
  have skipped : (byte :: rest).dropWhile CString.isSpace = byte :: rest :=
    List.dropWhile_cons_of_neg (by simpa using notSpace)
  have sign : splitSign (byte :: rest) = (false, byte :: rest) := by
    rw [splitSign, if_neg notMinus, if_neg notPlus]
  rw [readNumeral_eq base (List.cons_ne_nil _ _), signedNumeral, skipped, sign] at whole
  rcases Option.bind_eq_some_iff.mp whole with ⟨number, numeral, reduced⟩
  rcases Option.map_eq_some_iff.mp numeral with ⟨digits, unsigned, same⟩
  rw [if_neg Bool.false_ne_true] at same
  subst same
  split at reduced
  · rename_i inRange
    rw [Int.emod_eq_of_lt (Int.natCast_nonneg digits) (by omega)] at reduced
    have equal : digits = value := Option.some.inj reduced
    exact ⟨equal ▸ unsigned, of_decide_eq_true small⟩
  · cases reduced

end PacketForwarding.L3fwd
