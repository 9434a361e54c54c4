import PacketForwarding.Foundation.Numerals

/-! # Rule files

The loaders read a rule file line by line into a buffer of fixed size. The first
character of what was read tells what it is.
-/

namespace PacketForwarding.L3fwd

/-- The bytes of a file or of a string. -/
abbrev Text := List (BitVec 8)

def ascii (text : String) : Text :=
  text.toList.map fun char => BitVec.ofNat 8 char.toNat

def lineMax : Nat := 2048

def newline : BitVec 8 := 10#8

def commentLeadChar : BitVec 8 := 35#8

def routeLeadChar : BitVec 8 := 82#8

def aclLeadChar : BitVec 8 := 64#8

/-! ## Reading -/

/-- `fgets` with room for so many bytes: what is read, and the rest of the file. -/
def fgets : Nat → Text → Text × Text
  | 0, file => ([], file)
  | _ + 1, [] => ([], [])
  | room + 1, byte :: file =>
      if byte = newline then
        ([byte], file)
      else
        let (buff, rest) := fgets room file
        (byte :: buff, rest)

/-- `while (fgets(buff, LINE_MAX, fh) != NULL)`, with the last byte of the buffer kept
for the NUL. Every round reads a byte, so the length of the file bounds the rounds. -/
def readLoop : Nat → Text → List Text
  | 0, _ => []
  | _ + 1, [] => []
  | fuel + 1, byte :: file =>
      let (buff, rest) := fgets (lineMax - 1) (byte :: file)
      buff :: readLoop fuel rest

/-- What the calls of `fgets` read, one after the other. -/
def readLines (file : Text) : List Text :=
  readLoop file.length file

/-- Nothing is lost or read twice. -/
theorem fgets_append : ∀ room file, (fgets room file).1 ++ (fgets room file).2 = file := by
  intro room
  induction room with
  | zero => exact fun _ => rfl
  | succ room induction =>
      intro file
      cases file with
      | nil => rfl
      | cons byte file =>
          rw [fgets]
          split
          · rfl
          · exact congrArg (byte :: ·) (induction file)

theorem fgets_progress (room : Nat) (byte : BitVec 8) (file : Text) :
    (fgets (room + 1) (byte :: file)).2.length ≤ file.length := by
  have whole := congrArg List.length (fgets_append room file)
  rw [List.length_append] at whole
  rw [fgets]
  split
  · exact Nat.le_refl _
  · exact Nat.le.intro ((Nat.add_comm _ _).trans whole)

/-! ## Lines that fit the buffer -/

/-- A line of a text, with its newline. -/
structure IsLine (line : Text) : Prop where
  ends : ∃ front, line = front ++ [newline] ∧ newline ∉ front
  fits : line.length ≤ lineMax - 1

theorem fgets_line {room : Nat} {front : Text} (inner : newline ∉ front) (fits : front.length < room)
    (file : Text) : fgets room (front ++ newline :: file) = (front ++ [newline], file) := by
  induction front generalizing room with
  | nil =>
      cases room with
      | zero => cases fits
      | succ room => rfl
  | cons byte front induction =>
      cases room with
      | zero => cases fits
      | succ room =>
          rcases not_or.mp (mt List.mem_cons.mpr inner) with ⟨notFirst, notLater⟩
          rw [List.cons_append, fgets, if_neg fun same => notFirst same.symm,
            induction notLater (Nat.lt_of_succ_lt_succ fits)]
          rfl

theorem readLoop_lines : ∀ fuel (lines : List Text), (∀ line ∈ lines, IsLine line) →
    lines.flatten.length ≤ fuel → readLoop fuel lines.flatten = lines := by
  intro fuel
  induction fuel with
  | zero =>
      intro lines each short
      cases lines with
      | nil => rfl
      | cons line lines =>
          rcases (each line List.mem_cons_self).ends with ⟨front, rfl, _⟩
          rw [List.flatten_cons, List.length_append, List.length_append, List.length_singleton] at short
          omega
  | succ fuel induction =>
      intro lines each short
      cases lines with
      | nil => rfl
      | cons line lines =>
          rcases List.forall_mem_cons.mp each with ⟨first, others⟩
          rcases first with ⟨⟨front, rfl, inner⟩, fits⟩
          rw [List.length_append, List.length_singleton] at fits
          have short' : front.length < lineMax - 1 := by omega
          have read := fgets_line inner short' lines.flatten
          rw [List.flatten_cons, List.length_append, List.length_append, List.length_singleton] at short
          have rest := induction lines others (by omega)
          rw [List.flatten_cons, List.append_assoc, List.singleton_append]
          cases start : front ++ newline :: lines.flatten with
          | nil => simp at start
          | cons byte file =>
              rw [start] at read
              rw [readLoop, read]
              exact congrArg _ rest

/-- The lines of a text are read as they are. -/
theorem readLines_lines {lines : List Text} (each : ∀ line ∈ lines, IsLine line) :
    readLines lines.flatten = lines :=
  readLoop_lines _ lines each (Nat.le_refl _)

/-! ## Kinds of lines -/

abbrev isSpace (byte : BitVec 8) : Bool :=
  CString.isSpace byte

/-- Only white space up to the end of the string. -/
def isBlank : Text → Bool
  | [] => true
  | byte :: rest => byte == 0#8 || (isSpace byte && isBlank rest)

/-- The first character of the buffer, where an empty string has its NUL. -/
def leadChar (buff : Text) : BitVec 8 :=
  buff.headD 0#8

/-- Bypass comment and empty lines. -/
def isBypassLine (buff : Text) : Bool :=
  leadChar buff == commentLeadChar || isBlank buff

/-- A line with the lead character of a rule is looked at. -/
theorem isBypassLine_rule {buff : Text} (lead : leadChar buff = routeLeadChar ∨
    leadChar buff = aclLeadChar) : isBypassLine buff = false := by
  cases buff with
  | nil =>
      rcases lead with route | acl
      · exact absurd route (by decide)
      · exact absurd acl (by decide)
  | cons byte rest =>
      rw [leadChar, List.headD_cons] at lead
      rcases lead with route | acl
      · subst route
        rfl
      · subst acl
        rfl

end PacketForwarding.L3fwd
