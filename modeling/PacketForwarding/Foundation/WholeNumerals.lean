import PacketForwarding.Foundation.Numerals

/-! # Numerals up to the end of a string

A number that is written from the first to the last byte of a string, and what a function of
C makes of it: an `unsigned long` takes it modulo its range, a `long` as it is, and what is
out of range becomes the largest or smallest number there is. An assignment to a shorter
type takes it modulo the range of that type.
-/

namespace PacketForwarding.CString

/-! ## Out of range -/

/-- The `unsigned long` for a number. -/
def ulongOf (value : Int) : Nat :=
  if ulongRange ≤ value.natAbs then ulongRange - 1 else (value % ulongRange).toNat

/-- The numbers of a `long` are those below this one and from its negation on. -/
def longRange : Nat := 2 ^ 63

/-- The `long` for a number. -/
def longOf (value : Int) : Int :=
  max (-longRange) (min value (longRange - 1))

/-! ## Reading a string -/

/-- What `strtol` returns, and where it stops. -/
structure Strtol where
  value : Int
  stop : Bytes
  deriving DecidableEq

def strtol (base : Nat) (s : Bytes) : Strtol :=
  let subject := subject base s
  let value : Int := digitsValue subject.radix subject.digits
  if subject.digits = [] then
    ⟨0, s⟩
  else
    ⟨longOf (if subject.negative then -value else value), subject.stop⟩

/-- The number of a string that is read to its end, whether there was an error or not. -/
def wholeUlong (base : Nat) (s : Bytes) : Option Nat :=
  let result := strtoul base s
  if s = [] ∨ result.stop ≠ [] then none else some result.value

def wholeLong (base : Nat) (s : Bytes) : Option Int :=
  let result := strtol base s
  if s = [] ∨ result.stop ≠ [] then none else some result.value

/-- The number that a string starts with, whatever is behind it. -/
def leadingNumeral (base : Nat) (s : Bytes) : Option Int :=
  let subject := subject base s
  let value : Int := digitsValue subject.radix subject.digits
  if subject.digits = [] then none else some (if subject.negative then -value else value)

theorem strtoul_of_leading {base : Nat} {s : Bytes} {value : Int}
    (leading : leadingNumeral base s = some value) :
    strtoul base s =
      ⟨ulongOf value, (subject base s).stop, decide (ulongRange ≤ value.natAbs)⟩ := by
  rw [leadingNumeral] at leading
  rw [strtoul]
  generalize subject base s = found at leading ⊢
  rcases found with ⟨negative, radix, digits, stop⟩
  dsimp only at leading ⊢
  generalize digitsValue radix digits = magnitude at leading ⊢
  split at leading
  · cases leading
  · next nonempty =>
      rw [if_neg nonempty]
      have signed := Option.some.inj leading
      have absolute : value.natAbs = magnitude := by
        rw [← signed]
        split
        · rw [Int.natAbs_neg, Int.natAbs_natCast]
        · rw [Int.natAbs_natCast]
      by_cases large : ulongRange ≤ magnitude
      · have absoluteLarge : ulongRange ≤ value.natAbs := by rwa [absolute]
        rw [if_pos large, ulongOf, if_pos absoluteLarge, decide_eq_true absoluteLarge]
      · have absoluteSmall : ¬ ulongRange ≤ value.natAbs := by rwa [absolute]
        rw [if_neg large, ulongOf, if_neg absoluteSmall, decide_eq_false absoluteSmall]
        cases negative with
        | true =>
            rw [if_pos rfl] at signed
            have wrapped : (ulongRange - magnitude) % ulongRange = (value % ulongRange).toNat := by
              rw [← signed]
              simp only [ulongRange] at large ⊢
              omega
            rw [if_pos rfl, wrapped]
        | false =>
            rw [if_neg Bool.false_ne_true] at signed
            have kept : magnitude = (value % ulongRange).toNat := by
              rw [← signed]
              simp only [ulongRange] at large ⊢
              omega
            rw [if_neg Bool.false_ne_true, ← kept]

theorem strtoul_of_noLeading {base : Nat} {s : Bytes} (noNumeral : leadingNumeral base s = none) :
    strtoul base s = ⟨0, s, false⟩ := by
  rw [leadingNumeral] at noNumeral
  split at noNumeral
  · next noDigits => exact if_pos noDigits
  · cases noNumeral

/-- A numeral is the whole string if nothing is behind it. -/
theorem signedNumeral_eq_some {base : Nat} {s : Bytes} {value : Int} :
    signedNumeral base s = some value ↔
      leadingNumeral base s = some value ∧ (subject base s).stop = [] := by
  rw [signedNumeral_eq, leadingNumeral]
  by_cases noDigits : (subject base s).digits = []
  · rw [if_pos noDigits, if_neg fun found => found.1 noDigits]
    exact ⟨(nomatch ·), fun found => nomatch found.1⟩
  · rw [if_neg noDigits]
    by_cases whole : (subject base s).stop = []
    · rw [if_pos ⟨noDigits, whole⟩]
      exact ⟨fun same => ⟨same, whole⟩, And.left⟩
    · rw [if_neg fun found => whole found.2]
      exact ⟨(nomatch ·), fun found => absurd found.2 whole⟩

theorem strtoul_of_numeral {base : Nat} {s : Bytes} {value : Int}
    (numeral : signedNumeral base s = some value) :
    strtoul base s = ⟨ulongOf value, [], decide (ulongRange ≤ value.natAbs)⟩ := by
  rcases signedNumeral_eq_some.mp numeral with ⟨leading, whole⟩
  rw [strtoul_of_leading leading, whole]

/-- Where a numeral stops, something was read. -/
theorem stop_length_lt {base : Nat} {s : Bytes} {value : Int}
    (leading : leadingNumeral base s = some value) : (subject base s).stop.length < s.length := by
  rw [leadingNumeral] at leading
  split at leading
  · cases leading
  · next someDigits =>
      have suffix := (radixOf_suffix base (splitSign (s.dropWhile isSpace)).2).trans
        ((splitSign_suffix _).trans (List.dropWhile_suffix _))
      have whole : (subject base s).digits ++ (subject base s).stop =
          (radixOf base (splitSign (s.dropWhile isSpace)).2).2 :=
        List.takeWhile_append_dropWhile
      have digits := List.length_pos_iff.mpr someDigits
      have lengths := congrArg List.length whole
      rw [List.length_append] at lengths
      have shorter := suffix.length_le
      omega

theorem strtol_of_numeral {base : Nat} {s : Bytes} {value : Int}
    (numeral : signedNumeral base s = some value) : strtol base s = ⟨longOf value, []⟩ := by
  rw [signedNumeral_eq] at numeral
  rw [strtol]
  generalize subject base s = found at numeral ⊢
  split at numeral
  · next whole =>
      rw [if_neg whole.1, whole.2, ← Option.some.inj numeral]
  · cases numeral

/-- Without a numeral, the end of the string is not reached. -/
theorem strtoul_of_noNumeral {base : Nat} {s : Bytes} (noNumeral : signedNumeral base s = none) :
    s = [] ∨ (strtoul base s).stop ≠ [] := by
  by_cases empty : s = []
  · exact .inl empty
  · right
    rw [signedNumeral_eq] at noNumeral
    rw [strtoul]
    generalize subject base s = found at noNumeral ⊢
    split at noNumeral
    · cases noNumeral
    · next notWhole =>
        split
        · exact empty
        · next nonempty =>
            have stops : found.stop ≠ [] := fun whole => notWhole ⟨nonempty, whole⟩
            split
            · exact stops
            · split
              · exact stops
              · exact stops

theorem strtol_of_noNumeral {base : Nat} {s : Bytes} (noNumeral : signedNumeral base s = none) :
    s = [] ∨ (strtol base s).stop ≠ [] := by
  by_cases empty : s = []
  · exact .inl empty
  · right
    rw [signedNumeral_eq] at noNumeral
    rw [strtol]
    generalize subject base s = found at noNumeral ⊢
    split at noNumeral
    · cases noNumeral
    · next notWhole =>
        split
        · exact empty
        · next nonempty => exact fun whole => notWhole ⟨nonempty, whole⟩

/-- A string and a longer one have the same sign. -/
theorem subject_negative_append {base : Nat} {front : Bytes} {value : Int}
    (leading : leadingNumeral base front = some value) (behind : Bytes) :
    (subject base (front ++ behind)).negative = (subject base front).negative := by
  have unread := stop_length_lt leading
  rw [leadingNumeral] at leading
  split at leading
  · cases leading
  · next someDigits =>
      change (splitSign ((front ++ behind).dropWhile isSpace)).1 =
        (splitSign (front.dropWhile isSpace)).1
      rw [List.dropWhile_append]
      cases start : front.dropWhile isSpace with
      | nil =>
          have digits : (subject base front).digits <+: (radixOf base (splitSign []).2).2 := by
            rw [← start]
            exact List.takeWhile_prefix _
          have suffix := (radixOf_suffix base (splitSign []).2).trans (splitSign_suffix [])
          rw [List.suffix_nil.mp suffix] at digits
          exact absurd (List.prefix_nil.mp digits) someDigits
      | cons byte rest =>
          rw [List.isEmpty_cons, if_neg Bool.false_ne_true, List.cons_append, splitSign, splitSign]
          split
          · rfl
          · split
            · rfl
            · rfl

/-- A numeral that is read in part is only read as the same number if it is that number. -/
theorem eq_of_emod_eq {base : Nat} {front behind : Bytes} {value whole : Int}
    (leading : leadingNumeral base front = some value) (inRange : value.natAbs < ulongRange)
    (numeral : signedNumeral base (front ++ behind) = some whole)
    (same : whole = value % ulongRange) : value = whole := by
  by_cases nonnegative : 0 ≤ value
  · rw [same, Int.emod_eq_of_lt nonnegative (by omega)]
  · have minus : (subject base front).negative = true := by
      rw [leadingNumeral] at leading
      split at leading
      · cases leading
      · by_contra plus
        rw [if_neg plus] at leading
        have magnitude := Option.some.inj leading
        omega
    have notPositive : whole ≤ 0 := by
      rw [signedNumeral_eq, subject_negative_append leading, minus, if_pos rfl] at numeral
      split at numeral
      · have magnitude := Option.some.inj numeral
        omega
      · cases numeral
    simp only [ulongRange] at inRange same
    omega

theorem signedNumeral_nil (base : Nat) : signedNumeral base [] = none := by
  have noDigits : (subject base []).digits = [] := by
    have suffix := (radixOf_suffix base (splitSign []).2).trans (splitSign_suffix [])
    have noText : (radixOf base (splitSign []).2).2 = [] := List.suffix_nil.mp suffix
    rw [subject]
    change List.takeWhile _ (radixOf base (splitSign []).2).2 = []
    rw [noText]
    rfl
  rw [signedNumeral_eq]
  exact if_neg fun found => found.1 noDigits

/-- Exactly the strings with a numeral are read. -/
theorem wholeUlong_eq (base : Nat) (s : Bytes) :
    wholeUlong base s = (signedNumeral base s).map ulongOf := by
  rw [wholeUlong]
  cases numeral : signedNumeral base s with
  | none => exact if_pos (strtoul_of_noNumeral numeral)
  | some value =>
      rw [strtoul_of_numeral numeral, if_neg ?_]
      · rfl
      · rintro (empty | stopped)
        · rw [empty, signedNumeral_nil] at numeral
          cases numeral
        · exact stopped rfl

theorem wholeLong_eq (base : Nat) (s : Bytes) :
    wholeLong base s = (signedNumeral base s).map longOf := by
  rw [wholeLong]
  cases numeral : signedNumeral base s with
  | none => exact if_pos (strtol_of_noNumeral numeral)
  | some value =>
      rw [strtol_of_numeral numeral, if_neg ?_]
      · rfl
      · rintro (empty | stopped)
        · rw [empty, signedNumeral_nil] at numeral
          cases numeral
        · exact stopped rfl

/-! ## Shorter types -/

/-- What a shorter type keeps of a number in range. -/
theorem ulongOf_mod {value : Int} (inRange : value.natAbs < ulongRange) {range : Nat}
    (shorter : range ∣ ulongRange) : ((ulongOf value % range : Nat) : Int) = value % range := by
  rw [ulongOf, if_neg (Nat.not_le.mpr inRange)]
  have positive : (0 : Int) < ulongRange := by decide
  rw [Int.natCast_emod, Int.toNat_of_nonneg (Int.emod_nonneg value positive.ne')]
  exact Int.emod_emod_of_dvd value (Int.natCast_dvd_natCast.mpr shorter)

/-- A number that is too large is the largest there is. -/
theorem ulongOf_large {value : Int} (large : ulongRange ≤ value.natAbs) :
    ulongOf value = ulongRange - 1 :=
  if_pos large

end PacketForwarding.CString
