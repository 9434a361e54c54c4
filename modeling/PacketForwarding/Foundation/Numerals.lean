import PacketForwarding.Foundation.CString

/-! # Numerals of C

`strtoul` reads a numeral at the start of a string. More is read without an error than is
well formed: white space, a sign and, where nothing else follows, no digit at all are let
pass. What `printf` writes is read back as it was.
-/

namespace PacketForwarding.CString

/-! ## Digits -/

/-- `isspace` in the C locale. -/
def isSpace (byte : BitVec 8) : Bool :=
  byte == 32#8 || (decide (9 ≤ byte.toNat) && decide (byte.toNat ≤ 13))

/-- The value of a digit, or of a letter as a digit. -/
def digitValue (byte : BitVec 8) : Option Nat :=
  if 48 ≤ byte.toNat ∧ byte.toNat ≤ 57 then some (byte.toNat - 48)
  else if 97 ≤ byte.toNat ∧ byte.toNat ≤ 122 then some (byte.toNat - 87)
  else if 65 ≤ byte.toNat ∧ byte.toNat ≤ 90 then some (byte.toNat - 55)
  else none

def isDigit (radix : Nat) (byte : BitVec 8) : Bool :=
  match digitValue byte with
  | some value => decide (value < radix)
  | none => false

def digitsValue (radix : Nat) (digits : Bytes) : Nat :=
  digits.foldl (fun value byte => value * radix + (digitValue byte).getD 0) 0

/-! ## Numerals -/

/-- Whether there is a minus sign, and what follows the sign. -/
def splitSign : Bytes → Bool × Bytes
  | [] => (false, [])
  | byte :: rest =>
      if byte = 45#8 then (true, rest)
      else if byte = 43#8 then (false, rest)
      else (false, byte :: rest)

/-- What follows `0x`, if it is a digit. -/
def hexPrefix : Bytes → Option Bytes
  | zero :: x :: digit :: rest =>
      if zero = 48#8 ∧ (x = 120#8 ∨ x = 88#8) ∧ isDigit 16 digit then some (digit :: rest)
      else none
  | _ => none

/-- The radix, and where the digits start. -/
def radixOf (base : Nat) (s : Bytes) : Nat × Bytes :=
  if base = 0 ∨ base = 16 then
    match hexPrefix s with
    | some digits => (16, digits)
    | none =>
        if base = 16 then (16, s)
        else if s.head? = some 48#8 then (8, s)
        else (10, s)
  else
    (base, s)

/-- What `strtoul` looks at: the sign, the radix, the digits and what follows them. -/
structure Subject where
  negative : Bool
  radix : Nat
  digits : Bytes
  stop : Bytes

def subject (base : Nat) (s : Bytes) : Subject :=
  let (negative, unsigned) := splitSign (s.dropWhile isSpace)
  let (radix, numeral) := radixOf base unsigned
  { negative
    radix
    digits := numeral.takeWhile (isDigit radix)
    stop := numeral.dropWhile (isDigit radix) }

/-- The numbers of an `unsigned long`. -/
def ulongRange : Nat := 2 ^ 64

/-- What `strtoul` returns, where it stops, and whether it sets `errno`. -/
structure Strtoul where
  value : Nat
  stop : Bytes
  erange : Bool
  deriving DecidableEq

/-- Without a digit `strtoul` stops where it started. -/
def strtoul (base : Nat) (s : Bytes) : Strtoul :=
  let subject := subject base s
  let value := digitsValue subject.radix subject.digits
  if subject.digits = [] then
    ⟨0, s, false⟩
  else if ulongRange ≤ value then
    ⟨ulongRange - 1, subject.stop, true⟩
  else if subject.negative then
    ⟨(ulongRange - value) % ulongRange, subject.stop, false⟩
  else
    ⟨value, subject.stop, false⟩

/-- The value of a text that is a numeral from its first to its last byte. -/
def unsignedNumeral (base : Nat) (text : Bytes) : Option Nat :=
  let (radix, digits) := radixOf base text
  if digits ≠ [] ∧ digits.all (isDigit radix) then some (digitsValue radix digits) else none

/-- The same with white space and a sign before it. -/
def signedNumeral (base : Nat) (text : Bytes) : Option Int :=
  let (negative, unsigned) := splitSign (text.dropWhile isSpace)
  (unsignedNumeral base unsigned).map fun value : Nat =>
    if negative then -(value : Int) else (value : Int)

/-- What `strtoul` makes of a text if it reads all of it without an error. -/
def readNumeral (base : Nat) (text : Bytes) : Option Nat :=
  let result := strtoul base text
  if result.stop = [] ∧ result.erange = false then some result.value else none

/-! ## Where a numeral ends -/

section Delimiters

/-- No numeral goes on with this byte. -/
structure Delimits (delim : BitVec 8) : Prop where
  space : isSpace delim = false
  minus : delim ≠ 45#8
  plus : delim ≠ 43#8
  digit : digitValue delim = none

theorem takeWhile_append_stop {p : BitVec 8 → Bool} {stop : BitVec 8} (stops : p stop = false)
    (front behind : Bytes) : (front ++ stop :: behind).takeWhile p = front.takeWhile p := by
  induction front with
  | nil => exact List.takeWhile_cons_of_neg (by simp [stops])
  | cons byte front induction =>
      rw [List.cons_append, List.takeWhile_cons, List.takeWhile_cons, induction]

theorem dropWhile_append_stop {p : BitVec 8 → Bool} {stop : BitVec 8} (stops : p stop = false)
    (front behind : Bytes) :
    (front ++ stop :: behind).dropWhile p = front.dropWhile p ++ stop :: behind := by
  induction front with
  | nil => exact List.dropWhile_cons_of_neg (by simp [stops])
  | cons byte front induction =>
      rw [List.cons_append, List.dropWhile_cons, List.dropWhile_cons, induction]
      split
      · rfl
      · rfl

variable {delim : BitVec 8} (delimits : Delimits delim)

include delimits

theorem Delimits.isDigit (radix : Nat) : isDigit radix delim = false := by
  rw [CString.isDigit, delimits.digit]

theorem splitSign_append (front behind : Bytes) :
    splitSign (front ++ delim :: behind) =
      ((splitSign front).1, (splitSign front).2 ++ delim :: behind) := by
  cases front with
  | nil => simp [splitSign, delimits.minus, delimits.plus]
  | cons byte front =>
      rw [List.cons_append, splitSign, splitSign]
      split
      · rfl
      · split
        · rfl
        · rfl

theorem hexPrefix_append (front behind : Bytes) :
    hexPrefix (front ++ delim :: behind) =
      (hexPrefix front).map fun digits => digits ++ delim :: behind := by
  have notZero : delim ≠ 48#8 := by
    rintro rfl
    exact absurd delimits.digit (by decide)
  have notX : ¬ (delim = 120#8 ∨ delim = 88#8) := by
    rintro (rfl | rfl)
    · exact absurd delimits.digit (by decide)
    · exact absurd delimits.digit (by decide)
  have notDigit := delimits.isDigit 16
  match front with
  | [] =>
      cases behind with
      | nil => rfl
      | cons x behind =>
          cases behind with
          | nil => rfl
          | cons digit behind => simp [hexPrefix, notZero]
  | [zero] =>
      cases behind with
      | nil => rfl
      | cons digit behind => simp [hexPrefix, notX]
  | [zero, x] => simp [hexPrefix, notDigit]
  | zero :: x :: digit :: front =>
      simp only [List.cons_append, hexPrefix]
      split
      · rfl
      · rfl

theorem radixOf_append (base : Nat) (front behind : Bytes) :
    radixOf base (front ++ delim :: behind) =
      ((radixOf base front).1, (radixOf base front).2 ++ delim :: behind) := by
  have head : (front ++ delim :: behind).head? = some 48#8 ↔ front.head? = some 48#8 := by
    cases front with
    | nil =>
        have notZero : delim ≠ 48#8 := by
          rintro rfl
          exact absurd delimits.digit (by decide)
        simp [notZero]
    | cons byte front => simp
  rw [radixOf, radixOf, hexPrefix_append delimits]
  split
  · cases hexPrefix front with
    | some digits => rfl
    | none =>
        simp only [Option.map_none, head]
        split
        · rfl
        · split
          · rfl
          · rfl
  · rfl

/-- Before a delimiter, a numeral is read as if it stood alone. -/
theorem subject_append (base : Nat) (front behind : Bytes) :
    subject base (front ++ delim :: behind) =
      { subject base front with stop := (subject base front).stop ++ delim :: behind } := by
  simp only [subject, dropWhile_append_stop delimits.space, splitSign_append delimits,
    radixOf_append delimits, takeWhile_append_stop (delimits.isDigit _),
    dropWhile_append_stop (delimits.isDigit _)]

theorem strtoul_append (base : Nat) (front behind : Bytes) :
    strtoul base (front ++ delim :: behind) =
      { strtoul base front with stop := (strtoul base front).stop ++ delim :: behind } := by
  rw [strtoul, strtoul, subject_append delimits]
  dsimp only
  split
  · rfl
  · split
    · rfl
    · split
      · rfl
      · rfl

end Delimiters

theorem splitSign_suffix (s : Bytes) : (splitSign s).2 <:+ s := by
  cases s with
  | nil => exact List.suffix_refl _
  | cons byte rest =>
      rw [splitSign]
      split
      · exact List.suffix_cons _ _
      · split
        · exact List.suffix_cons _ _
        · exact List.suffix_refl _

theorem hexPrefix_suffix {s digits : Bytes} (hex : hexPrefix s = some digits) : digits <:+ s := by
  match s, hex with
  | zero :: x :: digit :: rest, hex =>
      rw [hexPrefix] at hex
      split at hex
      · cases hex
        exact ⟨[zero, x], rfl⟩
      · cases hex

theorem radixOf_suffix (base : Nat) (s : Bytes) : (radixOf base s).2 <:+ s := by
  rw [radixOf]
  split
  · cases hex : hexPrefix s with
    | some digits => exact hexPrefix_suffix hex
    | none =>
        dsimp only
        split
        · exact List.suffix_refl _
        · split
          · exact List.suffix_refl _
          · exact List.suffix_refl _
  · exact List.suffix_refl _

/-- What is not read is at the end. -/
theorem strtoul_stop_suffix (base : Nat) (s : Bytes) : (strtoul base s).stop <:+ s := by
  have stop : (subject base s).stop <:+ s :=
    (List.dropWhile_suffix _).trans ((radixOf_suffix base _).trans
      ((splitSign_suffix _).trans (List.dropWhile_suffix _)))
  rw [strtoul]
  split
  · exact List.suffix_refl _
  · split
    · exact stop
    · split
      · exact stop
      · exact stop

/-! ## What is read -/

theorem signedNumeral_eq (base : Nat) (text : Bytes) :
    signedNumeral base text =
      if (subject base text).digits ≠ [] ∧ (subject base text).stop = [] then
        some (if (subject base text).negative then
            -(digitsValue (subject base text).radix (subject base text).digits : Int)
          else (digitsValue (subject base text).radix (subject base text).digits : Int))
      else none := by
  rcases signed : splitSign (text.dropWhile isSpace) with ⟨negative, unsigned⟩
  rcases found : radixOf base unsigned with ⟨radix, numeral⟩
  simp only [signedNumeral, subject, unsignedNumeral, signed, found]
  have stops : numeral.dropWhile (isDigit radix) = [] ↔ numeral.all (isDigit radix) = true := by
    rw [List.dropWhile_eq_nil_iff, List.all_eq_true]
  by_cases all : numeral.all (isDigit radix) = true
  · have rest := stops.mpr all
    have whole := List.takeWhile_append_dropWhile (p := isDigit radix) (l := numeral)
    rw [rest, List.append_nil] at whole
    rw [rest, whole]
    by_cases empty : numeral = []
    · rw [if_neg fun found => found.1 empty, if_neg fun found => found.1 empty]
      rfl
    · rw [if_pos ⟨empty, all⟩, if_pos ⟨empty, rfl⟩]
      rfl
  · rw [if_neg fun found => all found.2, if_neg fun found => all (stops.mp found.2)]
    rfl

/-- A number is read modulo the range, a sign included, as long as its digits are in the
range. -/
theorem readNumeral_eq (base : Nat) {text : Bytes} (nonempty : text ≠ []) :
    readNumeral base text = (signedNumeral base text).bind fun value =>
      if value.natAbs < ulongRange then some (value % ulongRange).toNat else none := by
  rw [signedNumeral_eq, readNumeral, strtoul]
  generalize subject base text = found
  rcases found with ⟨negative, radix, digits, stop⟩
  dsimp only
  generalize digitsValue radix digits = value
  by_cases empty : digits = []
  · rw [if_pos empty, if_neg fun result => nonempty result.1, if_neg fun found => found.1 empty]
    rfl
  · rw [if_neg empty]
    by_cases ends : stop = []
    · rw [@if_pos (digits ≠ [] ∧ stop = []) _ ⟨empty, ends⟩, Option.bind_some]
      by_cases large : ulongRange ≤ value
      · rw [if_pos large, if_neg fun result => Bool.noConfusion result.2, if_neg ?_]
        split
        · rw [Int.natAbs_neg, Int.natAbs_natCast]
          exact Nat.not_lt.mpr large
        · rw [Int.natAbs_natCast]
          exact Nat.not_lt.mpr large
      · rw [if_neg large]
        cases negative with
        | true =>
            rw [if_pos rfl, if_pos rfl, if_pos ⟨ends, rfl⟩, if_pos (by omega)]
            simp only [ulongRange] at large ⊢
            exact congrArg some (by omega)
        | false =>
            rw [if_neg Bool.false_ne_true, if_neg Bool.false_ne_true, if_pos ⟨ends, rfl⟩,
              if_pos (by omega)]
            simp only [ulongRange] at large ⊢
            exact congrArg some (by omega)
    · rw [@if_neg (digits ≠ [] ∧ stop = []) _ fun found => ends found.2, if_neg ?_]
      · rfl
      · rintro ⟨stopped, _⟩
        revert stopped
        split
        · exact ends
        · split
          · exact ends
          · exact ends

theorem digitValue_some {byte : BitVec 8} {value : Nat} (digit : digitValue byte = some value) :
    48 ≤ byte.toNat := by
  unfold digitValue at digit
  split at digit
  · omega
  · split at digit
    · omega
    · split at digit
      · omega
      · cases digit

/-- No white space and no sign is a digit. -/
theorem isDigit_notBefore {radix : Nat} {byte : BitVec 8} (digit : isDigit radix byte = true) :
    isSpace byte = false ∧ byte ≠ 45#8 ∧ byte ≠ 43#8 := by
  have large : 48 ≤ byte.toNat := by
    unfold isDigit at digit
    split at digit
    · exact digitValue_some ‹_›
    · cases digit
  refine ⟨?_, ?_, ?_⟩
  · have notBlank : byte ≠ 32#8 := by
      rintro rfl
      exact absurd large (by decide)
    simp [isSpace, notBlank]
    omega
  · rintro rfl
    exact absurd large (by decide)
  · rintro rfl
    exact absurd large (by decide)

theorem unsignedNumeral_head {base value : Nat} {text : Bytes}
    (numeral : unsignedNumeral base text = some value) :
    ∃ radix byte rest, text = byte :: rest ∧ isDigit radix byte = true := by
  unfold unsignedNumeral at numeral
  rcases found : radixOf base text with ⟨radix, digits⟩
  simp only [found] at numeral
  split at numeral
  · rename_i whole
    by_cases same : digits = text
    · rw [same] at whole
      cases text with
      | nil => exact absurd rfl whole.1
      | cons byte rest =>
          exact ⟨radix, byte, rest, rfl, List.all_eq_true.mp whole.2 _ List.mem_cons_self⟩
    · unfold radixOf at found
      split at found
      · cases hex : hexPrefix text with
        | none =>
            rw [hex] at found
            dsimp only at found
            split at found
            · exact absurd (congrArg Prod.snd found).symm same
            · split at found
              · exact absurd (congrArg Prod.snd found).symm same
              · exact absurd (congrArg Prod.snd found).symm same
        | some rest =>
            match text, hex with
            | zero :: x :: digit :: rest, hex =>
                simp only [hexPrefix] at hex
                split at hex
                · rename_i start
                  refine ⟨10, zero, _, rfl, ?_⟩
                  rw [start.1]
                  decide
                · cases hex
      · exact absurd (congrArg Prod.snd found).symm same
  · cases numeral

/-- A numeral without white space or sign is one with. -/
theorem signedNumeral_of_unsigned {base value : Nat} {text : Bytes}
    (numeral : unsignedNumeral base text = some value) :
    signedNumeral base text = some (value : Int) := by
  rcases unsignedNumeral_head numeral with ⟨radix, byte, rest, rfl, digit⟩
  rcases isDigit_notBefore digit with ⟨notSpace, notMinus, notPlus⟩
  have skipped : (byte :: rest).dropWhile isSpace = byte :: rest :=
    List.dropWhile_cons_of_neg (by simp [notSpace])
  have sign : splitSign (byte :: rest) = (false, byte :: rest) := by
    rw [splitSign, if_neg notMinus, if_neg notPlus]
  rw [signedNumeral, skipped, sign]
  simp [numeral]

theorem readNumeral_of_unsigned {base value : Nat} {text : Bytes}
    (numeral : unsignedNumeral base text = some value) (small : value < ulongRange) :
    readNumeral base text = some value := by
  rcases unsignedNumeral_head numeral with ⟨_, byte, rest, rfl, _⟩
  rw [readNumeral_eq base (List.cons_ne_nil _ _), signedNumeral_of_unsigned numeral,
    Option.bind_some, Int.natAbs_natCast, if_pos small,
    Int.emod_eq_of_lt (Int.natCast_nonneg value) (Int.ofNat_lt.mpr small)]
  rfl

/-! ## Printing -/

def digitChar (value : Nat) : BitVec 8 :=
  if value < 10 then BitVec.ofNat 8 (48 + value) else BitVec.ofNat 8 (87 + value)

/-- `%u` with radix 10, `%x` with radix 16. -/
def printNat (radix value : Nat) : Bytes :=
  if value = 0 then [digitChar 0] else (Nat.digits radix value).reverse.map digitChar

theorem digitValue_digitChar {value : Nat} (small : value < 36) :
    digitValue (digitChar value) = some value := by
  unfold digitChar
  split
  · have byte : (BitVec.ofNat 8 (48 + value)).toNat = 48 + value := by
      rw [BitVec.toNat_ofNat]
      omega
    rw [digitValue, byte, if_pos (by omega)]
    exact congrArg some (by omega)
  · have byte : (BitVec.ofNat 8 (87 + value)).toNat = 87 + value := by
      rw [BitVec.toNat_ofNat]
      omega
    rw [digitValue, byte, if_neg (by omega), if_pos (by omega)]
    exact congrArg some (by omega)

theorem isDigit_digitChar {radix value : Nat} (below : value < radix) (small : radix ≤ 36) :
    isDigit radix (digitChar value) = true := by
  rw [isDigit, digitValue_digitChar (by omega)]
  exact decide_eq_true below

/-- The value of digits, the most significant first. -/
theorem digitsValue_digitChar {radix : Nat} {digits : List Nat}
    (small : ∀ digit ∈ digits, digit < 36) :
    digitsValue radix (digits.reverse.map digitChar) = Nat.ofDigits radix digits := by
  induction digits with
  | nil => rfl
  | cons digit digits induction =>
      have rest := induction fun other member => small other (List.mem_cons_of_mem _ member)
      rw [digitsValue] at rest ⊢
      rw [List.reverse_cons, List.map_append, List.foldl_append, rest, Nat.ofDigits_cons,
        List.map_singleton, List.foldl_cons, List.foldl_nil,
        digitValue_digitChar (small digit List.mem_cons_self), Option.getD_some]
      ring

section Printed

variable {radix : Nat} (two : 2 ≤ radix) (small : radix ≤ 36) (value : Nat)

include two small

theorem digitsValue_printNat : digitsValue radix (printNat radix value) = value := by
  unfold printNat
  split
  · rename_i zero
    rw [zero]
    exact Nat.zero_mul radix
  · rw [digitsValue_digitChar fun digit member =>
      (Nat.digits_lt_base (by omega) member).trans_le small, Nat.ofDigits_digits]

theorem printNat_digits : ∀ byte ∈ printNat radix value, isDigit radix byte = true := by
  intro byte member
  unfold printNat at member
  split at member
  · rw [List.mem_singleton.mp member]
    exact isDigit_digitChar (by omega) small
  · rcases List.mem_map.mp member with ⟨digit, inside, rfl⟩
    exact isDigit_digitChar (Nat.digits_lt_base (by omega) (List.mem_reverse.mp inside)) small

omit two small in
theorem printNat_ne_nil : printNat radix value ≠ [] := by
  unfold printNat
  split
  · exact List.cons_ne_nil _ _
  · rename_i positive
    intro empty
    rw [List.map_eq_nil_iff, List.reverse_eq_nil_iff, Nat.digits_eq_nil_iff_eq_zero] at empty
    exact positive empty

/-- Only zero starts with the digit zero. -/
theorem printNat_head (positive : value ≠ 0) : (printNat radix value).head? ≠ some 48#8 := by
  intro head
  rw [printNat, if_neg positive, List.head?_map, List.head?_reverse] at head
  have last : (Nat.digits radix value).getLast? =
      some ((Nat.digits radix value).getLast (Nat.digits_ne_nil_iff_ne_zero.mpr positive)) :=
    List.getLast?_eq_some_getLast _
  have notZero := Nat.getLast_digit_ne_zero radix positive
  have below := Nat.digits_lt_base (b := radix) (by omega)
    (List.getLast_mem (Nat.digits_ne_nil_iff_ne_zero.mpr positive))
  rw [last, Option.map_some] at head
  have same := congrArg digitValue (Option.some.inj head)
  rw [digitValue_digitChar (below.trans_le small)] at same
  exact notZero (Option.some.inj same)

end Printed

theorem hexPrefix_digits {text : Bytes} (digits : ∀ byte ∈ text, isDigit 16 byte = true) :
    hexPrefix text = none := by
  match text with
  | [] => rfl
  | [_] => rfl
  | [_, _] => rfl
  | zero :: x :: digit :: rest =>
      have xDigit := digits x (by simp)
      rw [hexPrefix, if_neg ?_]
      rintro ⟨_, rfl | rfl, _⟩
      · exact absurd xDigit (by decide)
      · exact absurd xDigit (by decide)

/-- Hexadecimal digits are read as what they are. -/
theorem unsignedNumeral_hexDigits {text : Bytes} (nonempty : text ≠ [])
    (digits : ∀ byte ∈ text, isDigit 16 byte = true) :
    unsignedNumeral 16 text = some (digitsValue 16 text) := by
  have radix : radixOf 16 text = (16, text) := by
    rw [radixOf, hexPrefix_digits digits]
    rfl
  rw [unsignedNumeral, radix]
  exact if_pos ⟨nonempty, List.all_eq_true.mpr digits⟩

/-- A number in decimal is read back with base 0. -/
theorem unsignedNumeral_decimal (value : Nat) :
    unsignedNumeral 0 (printNat 10 value) = some value := by
  by_cases zero : value = 0
  · subst zero
    rfl
  · have digits : ∀ byte ∈ printNat 10 value, isDigit 10 byte = true :=
      printNat_digits (by decide) (by decide) value
    have hex : ∀ byte ∈ printNat 10 value, isDigit 16 byte = true := by
      intro byte member
      have decimal := digits byte member
      unfold isDigit at decimal ⊢
      split at decimal
      · have below := of_decide_eq_true decimal
        exact decide_eq_true (by omega)
      · cases decimal
    have radix : radixOf 0 (printNat 10 value) = (10, printNat 10 value) := by
      rw [radixOf, hexPrefix_digits hex]
      exact if_neg (printNat_head (by decide) (by decide) value zero)
    rw [unsignedNumeral, radix]
    dsimp only
    rw [if_pos ⟨printNat_ne_nil value, List.all_eq_true.mpr digits⟩,
      digitsValue_printNat (by decide) (by decide)]

/-- So is one in hexadecimal with its prefix. -/
theorem unsignedNumeral_hexadecimal (value : Nat) :
    unsignedNumeral 0 (48#8 :: 120#8 :: printNat 16 value) = some value := by
  have digits : ∀ byte ∈ printNat 16 value, isDigit 16 byte = true :=
    printNat_digits (by decide) (by decide) value
  have nonempty : printNat 16 value ≠ [] := printNat_ne_nil value
  have same : digitsValue 16 (printNat 16 value) = value :=
    digitsValue_printNat (by decide) (by decide) value
  generalize printNat 16 value = text at digits nonempty same
  cases text with
  | nil => exact absurd rfl nonempty
  | cons byte rest =>
      have radix : radixOf 0 (48#8 :: 120#8 :: byte :: rest) = (16, byte :: rest) := by
        simp [radixOf, hexPrefix, digits byte List.mem_cons_self]
      rw [unsignedNumeral, radix]
      dsimp only
      rw [if_pos ⟨nonempty, List.all_eq_true.mpr digits⟩, same]

end PacketForwarding.CString
