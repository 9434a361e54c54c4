import PacketForwarding.Foundation.Groups
import PacketForwarding.Foundation.WholeNumerals
import PacketForwarding.L2fwd.PortMap
import PacketForwarding.L3fwd.PollSetup
import PacketForwarding.L3fwd.RuleFields

/-! # The configuration of the lcores

The argument of `--config` has groups `(port,queue,lcore)`, and one entry is stored for each.
A number may be as large as its limit, which no index may be, and what is behind it is not
looked at. The parser of port pairs stops below the limit.
-/

namespace PacketForwarding.L3fwd

open CString Groups
open L2fwd (Strsplit openParen closeParen comma copiedText delimits_comma)

/-- `MAX_LCORE_PARAMS` -/
def maxLcoreParams : Nat := 1024

/-- `RTE_MAX_QUEUES_PER_PORT` -/
def rteMaxQueuesPerPort : Nat := 1024

/-! ## The parser -/

def parseField (maxFld : Nat) (field : Bytes) : Option Nat :=
  let result := strtoul 0 field
  if result.erange = true ∨ result.stop = field ∨ maxFld < result.value then none
  else some result.value

/-- What is between two parentheses. -/
def parseLcoreParams (rteStrsplit : Strsplit) (text : Bytes) : Option LcoreParams :=
  if 256 ≤ text.length % 2 ^ 32 then none
  else
    match rteStrsplit (copiedText text) 3 comma with
    | [fldPort, fldQueue, fldLcore] => do
        let port ← parseField rteMaxEthports fldPort
        let queue ← parseField rteMaxQueuesPerPort fldQueue
        let lcore ← parseField rteMaxLcore fldLcore
        return ⟨BitVec.ofNat 16 port, BitVec.ofNat 16 queue, BitVec.ofNat 32 lcore⟩
    | _ => none

def parseConfig (rteStrsplit : Strsplit) (qArg : Bytes) : Option (List LcoreParams) :=
  scan openParen closeParen maxLcoreParams (parseLcoreParams rteStrsplit) qArg.length qArg []

/-! ## Splitting a text -/

/-- A text cut at the first delimiters, into so many pieces at most. -/
def cutPieces (delim : BitVec 8) : Nat → Bytes → List Bytes
  | 0, _ => []
  | 1, s => [s]
  | count + 2, s =>
      match cutAt delim s with
      | none => [s]
      | some (piece, behind) => piece :: cutPieces delim (count + 1) behind

/-- There is something in front of the next delimiter. -/
def Begins (delim : BitVec 8) (piece : Bytes) : Prop :=
  ∃ byte rest, piece = byte :: rest ∧ byte ≠ delim

/-- The string is split at the delimiter, one time less than there may be tokens. Where
nothing is in front of a delimiter, it is only known where the tokens start. -/
structure Splits (rteStrsplit : Strsplit) : Prop where
  pieces : ∀ s count delim, (∀ piece ∈ cutPieces delim count s, Begins delim piece) →
    rteStrsplit s count delim = cutPieces delim count s
  tokens : ∀ s count delim, (rteStrsplit s count delim).length = count →
    List.Forall₂ (· <+: ·) (rteStrsplit s count delim) (cutPieces delim count s)

/-- `a,b,c`, where the last piece is all that is left. -/
structure ThreePieces (text a b c : Bytes) : Prop where
  whole : text = a ++ comma :: (b ++ comma :: c)
  first : comma ∉ a
  second : comma ∉ b

theorem ThreePieces.unique {text a b c a' b' c' : Bytes} (pieces : ThreePieces text a b c)
    (others : ThreePieces text a' b' c') : a = a' ∧ b = b' ∧ c = c' := by
  rcases cut_unique pieces.first others.first
    (pieces.whole.symm.trans others.whole) with ⟨sameA, rest⟩
  rcases cut_unique pieces.second others.second rest with ⟨sameB, sameC⟩
  exact ⟨sameA, sameB, sameC⟩

theorem cutPieces_cut {delim : BitVec 8} {count : Nat} {s piece behind : Bytes}
    (cut : cutAt delim s = some (piece, behind)) :
    cutPieces delim (count + 2) s = piece :: cutPieces delim (count + 1) behind := by
  rw [cutPieces, cut]

theorem cutPieces_uncut {delim : BitVec 8} {count : Nat} {s : Bytes}
    (uncut : cutAt delim s = none) : cutPieces delim (count + 2) s = [s] := by
  rw [cutPieces, uncut]

theorem cutPieces_three {text a b c : Bytes} :
    cutPieces comma 3 text = [a, b, c] ↔ ThreePieces text a b c := by
  constructor
  · intro pieces
    cases first : cutAt comma text with
    | none =>
        have uncut : cutPieces comma 3 text = [text] := cutPieces_uncut first
        rw [uncut] at pieces
        cases pieces
    | some parts =>
        have cut : cutPieces comma 3 text = parts.1 :: cutPieces comma 2 parts.2 :=
          cutPieces_cut first
        cases second : cutAt comma parts.2 with
        | none =>
            have uncut : cutPieces comma 2 parts.2 = [parts.2] := cutPieces_uncut second
            rw [cut, uncut] at pieces
            cases pieces
        | some others =>
            have again : cutPieces comma 2 parts.2 = [others.1, others.2] := cutPieces_cut second
            rw [cut, again] at pieces
            cases pieces
            rcases cutAt_eq_some.mp first with ⟨whole, notA⟩
            rcases cutAt_eq_some.mp second with ⟨rest, notB⟩
            exact ⟨by rw [whole, rest], notA, notB⟩
  · rintro ⟨rfl, notA, notB⟩
    have cut : cutPieces comma 3 (a ++ comma :: (b ++ comma :: c)) =
        a :: cutPieces comma 2 (b ++ comma :: c) := cutPieces_cut (cutAt_eq_some.mpr ⟨rfl, notA⟩)
    have again : cutPieces comma 2 (b ++ comma :: c) = [b, c] :=
      cutPieces_cut (cutAt_eq_some.mpr ⟨rfl, notB⟩)
    rw [cut, again]

/-! ## One number -/

/-- The field starts with a number that is accepted. -/
def FieldPasses (maxFld : Nat) (field : Bytes) : Prop :=
  ∃ value, leadingNumeral 0 field = some value ∧ value.natAbs < ulongRange ∧
    value % ulongRange ≤ maxFld

/-- The field, with what was not copied of it, is a number below the limit. -/
def FieldWhole (maxFld : Nat) (field behind : Bytes) : Prop :=
  ∃ value, leadingNumeral 0 field = some value ∧
    signedNumeral 0 (field ++ behind) = some value ∧ 0 ≤ value ∧ value < maxFld

theorem parseField_some {maxFld number : Nat} {field : Bytes} :
    parseField maxFld field = some number ↔
      ∃ value, leadingNumeral 0 field = some value ∧ value.natAbs < ulongRange ∧
        value % ulongRange ≤ maxFld ∧ (number : Int) = value % ulongRange := by
  rw [parseField]
  cases leading : leadingNumeral 0 field with
  | none =>
      rw [strtoul_of_noLeading leading, if_pos (.inr (.inl rfl))]
      constructor
      · intro impossible
        cases impossible
      · rintro ⟨value, impossible, _⟩
        cases impossible
  | some value =>
      have moved : (subject 0 field).stop ≠ field := by
        intro same
        have shorter := stop_length_lt leading
        rw [same] at shorter
        exact Nat.lt_irrefl _ shorter
      rw [strtoul_of_leading leading]
      dsimp only
      by_cases inRange : value.natAbs < ulongRange
      · have kept := ulongOf_mod inRange dvd_rfl
        have small : ulongOf value < ulongRange := by
          rw [ulongOf, if_neg (Nat.not_le.mpr inRange)]
          simp only [ulongRange]
          omega
        rw [Nat.mod_eq_of_lt small] at kept
        have noError : ¬ (decide (ulongRange ≤ value.natAbs) = true) := by
          rw [decide_eq_true_eq]
          exact Nat.not_le.mpr inRange
        constructor
        · intro parsed
          split at parsed
          · cases parsed
          · next fits =>
              cases parsed
              refine ⟨value, rfl, inRange, ?_, kept⟩
              rw [← kept]
              exact Nat.cast_le.mpr (Nat.not_lt.mp fun large => fits (.inr (.inr large)))
        · rintro ⟨other, isOther, _, fits, same⟩
          cases isOther
          rw [← kept] at fits same
          have bound : ulongOf value ≤ maxFld := Nat.cast_le.mp fits
          rw [if_neg, Nat.cast_inj.mp same]
          rintro (error | stuck | large)
          · exact noError error
          · exact moved stuck
          · exact absurd bound (Nat.not_le.mpr large)
      · rw [if_pos (.inl (decide_eq_true (Nat.not_lt.mp inRange)))]
        constructor
        · intro impossible
          cases impossible
        · rintro ⟨other, isOther, small, _⟩
          cases isOther
          exact absurd small inRange

theorem fieldPasses_iff {maxFld : Nat} {field : Bytes} :
    FieldPasses maxFld field ↔ ∃ number, parseField maxFld field = some number := by
  constructor
  · rintro ⟨value, leading, inRange, fits⟩
    have nonnegative := Int.emod_nonneg value (by decide : (ulongRange : Int) ≠ 0)
    exact ⟨(value % ulongRange).toNat, parseField_some.mpr
      ⟨value, leading, inRange, fits, Int.toNat_of_nonneg nonnegative⟩⟩
  · rintro ⟨number, parsed⟩
    rcases parseField_some.mp parsed with ⟨value, leading, inRange, fits, _⟩
    exact ⟨value, leading, inRange, fits⟩

theorem parseField_le {maxFld number : Nat} {field : Bytes}
    (parsed : parseField maxFld field = some number) : number ≤ maxFld := by
  rcases parseField_some.mp parsed with ⟨value, _, _, fits, same⟩
  rw [← same] at fits
  exact Nat.cast_le.mp fits

/-- A token with a number is not empty and does not start with a comma. -/
theorem begins_of_parseField {maxFld number : Nat} {field : Bytes}
    (parsed : parseField maxFld field = some number) : Begins comma field := by
  rcases parseField_some.mp parsed with ⟨value, leading, _⟩
  cases field with
  | nil =>
      have shorter := stop_length_lt leading
      exact absurd shorter (Nat.not_lt_zero _)
  | cons byte rest =>
      refine ⟨byte, rest, rfl, ?_⟩
      rintro rfl
      have stops := strtoul_append delimits_comma 0 [] rest
      rw [List.nil_append, strtoul_of_leading leading] at stops
      have stuck := congrArg Strtoul.stop stops
      have shorter := stop_length_lt leading
      have atStart : (strtoul 0 []).stop = [] := rfl
      dsimp only at stuck
      rw [stuck, atStart, List.nil_append] at shorter
      exact Nat.lt_irrefl _ shorter

theorem Begins.of_token {delim : BitVec 8} {token piece : Bytes} (begins : Begins delim token)
    (start : token <+: piece) : Begins delim piece := by
  rcases begins with ⟨byte, rest, rfl, different⟩
  rcases start with ⟨behind, rfl⟩
  exact ⟨byte, rest ++ behind, rfl, different⟩

theorem begins_of_tokens {delim : BitVec 8} {tokens pieces : List Bytes}
    (starts : List.Forall₂ (· <+: ·) tokens pieces) (begins : ∀ token ∈ tokens, Begins delim token) :
    ∀ piece ∈ pieces, Begins delim piece := by
  induction starts with
  | nil => exact List.forall_mem_nil _
  | cons start _ induction =>
      rcases List.forall_mem_cons.mp begins with ⟨first, others⟩
      exact List.forall_mem_cons.mpr ⟨first.of_token start, induction others⟩

/-! ## One group -/

def LcoreParams.ofNumbers (port queue lcore : Nat) : LcoreParams :=
  ⟨BitVec.ofNat 16 port, BitVec.ofNat 16 queue, BitVec.ofNat 32 lcore⟩

theorem begins_of_fields {a b c : Bytes} {maxPort maxQueue maxLcore port queue lcore : Nat}
    (isPort : parseField maxPort a = some port) (isQueue : parseField maxQueue b = some queue)
    (isLcore : parseField maxLcore c = some lcore) : ∀ piece ∈ [a, b, c], Begins comma piece := by
  intro piece member
  simp only [List.mem_cons, List.not_mem_nil, or_false] at member
  rcases member with rfl | rfl | rfl
  · exact begins_of_parseField isPort
  · exact begins_of_parseField isQueue
  · exact begins_of_parseField isLcore

theorem parseLcoreParams_some {rteStrsplit : Strsplit} (splits : Splits rteStrsplit)
    {text : Bytes} {param : LcoreParams} :
    parseLcoreParams rteStrsplit text = some param ↔
      text.length % 2 ^ 32 < 256 ∧ ∃ a b c port queue lcore, ThreePieces (copiedText text) a b c ∧
        parseField rteMaxEthports a = some port ∧
        parseField rteMaxQueuesPerPort b = some queue ∧
        parseField rteMaxLcore c = some lcore ∧ param = .ofNumbers port queue lcore := by
  rw [parseLcoreParams]
  by_cases large : 256 ≤ text.length % 2 ^ 32
  · rw [if_pos large]
    constructor
    · intro impossible
      cases impossible
    · rintro ⟨small, _⟩
      exact absurd large (Nat.not_le.mpr small)
  · rw [if_neg large]
    constructor
    · intro parsed
      refine ⟨Nat.not_le.mp large, ?_⟩
      split at parsed
      · next a b c tokens =>
          rcases Option.bind_eq_some_iff.mp parsed with ⟨port, isPort, parsed⟩
          rcases Option.bind_eq_some_iff.mp parsed with ⟨queue, isQueue, parsed⟩
          rcases Option.bind_eq_some_iff.mp parsed with ⟨lcore, isLcore, parsed⟩
          have starts := splits.tokens (copiedText text) 3 comma (by rw [tokens]; rfl)
          rw [tokens] at starts
          have begins := begins_of_tokens starts (begins_of_fields isPort isQueue isLcore)
          have pieces := splits.pieces (copiedText text) 3 comma begins
          rw [tokens] at pieces
          exact ⟨a, b, c, port, queue, lcore, cutPieces_three.mp pieces.symm, isPort, isQueue,
            isLcore, (Option.some.inj parsed).symm⟩
      · cases parsed
    · rintro ⟨_, a, b, c, port, queue, lcore, pieces, isPort, isQueue, isLcore, rfl⟩
      have cut := cutPieces_three.mpr pieces
      have tokens : rteStrsplit (copiedText text) 3 comma = [a, b, c] := by
        rw [← cut]
        apply splits.pieces
        rw [cut]
        exact begins_of_fields isPort isQueue isLcore
      rw [tokens]
      simp only [isPort, isQueue, isLcore, Option.bind_eq_bind, Option.bind_some]
      rfl

/-- The numbers that are written in a group. -/
def Numbers (text : Bytes) (port queue lcore : Int) : Prop :=
  ∃ a b c, ThreePieces text a b c ∧ signedNumeral 0 a = some port ∧
    signedNumeral 0 b = some queue ∧ signedNumeral 0 c = some lcore

/-- An entry holds what is written, and each of its numbers is an index. -/
structure Exact (text : Bytes) (param : LcoreParams) : Prop where
  numbers : Numbers text param.portId.toNat param.queueId.toNat param.lcoreId.toNat
  port : param.portId.toNat < rteMaxEthports
  queue : param.queueId.toNat < rteMaxQueuesPerPort
  lcore : param.lcoreId.toNat < rteMaxLcore

/-- The group is accepted. -/
def GroupPasses (text : Bytes) : Prop :=
  text.length % 2 ^ 32 < 256 ∧ ∃ a b c, ThreePieces (copiedText text) a b c ∧
    FieldPasses rteMaxEthports a ∧ FieldPasses rteMaxQueuesPerPort b ∧ FieldPasses rteMaxLcore c

/-- The group is made of three numbers below their limits. -/
def GroupWhole (text : Bytes) : Prop :=
  ∃ a b c, ThreePieces (copiedText text) a b c ∧ FieldWhole rteMaxEthports a [] ∧
    FieldWhole rteMaxQueuesPerPort b [] ∧
    FieldWhole rteMaxLcore c (text.drop (text.length % 2 ^ 32))

theorem groupPasses_iff {rteStrsplit : Strsplit} (splits : Splits rteStrsplit) {text : Bytes} :
    GroupPasses text ↔ ∃ param, parseLcoreParams rteStrsplit text = some param := by
  constructor
  · rintro ⟨small, a, b, c, pieces, portPasses, queuePasses, lcorePasses⟩
    rcases fieldPasses_iff.mp portPasses with ⟨port, isPort⟩
    rcases fieldPasses_iff.mp queuePasses with ⟨queue, isQueue⟩
    rcases fieldPasses_iff.mp lcorePasses with ⟨lcore, isLcore⟩
    exact ⟨_, (parseLcoreParams_some splits).mpr
      ⟨small, a, b, c, port, queue, lcore, pieces, isPort, isQueue, isLcore, rfl⟩⟩
  · rintro ⟨param, parsed⟩
    rcases (parseLcoreParams_some splits).mp parsed with
      ⟨small, a, b, c, port, queue, lcore, pieces, isPort, isQueue, isLcore, _⟩
    exact ⟨small, a, b, c, pieces, fieldPasses_iff.mpr ⟨port, isPort⟩,
      fieldPasses_iff.mpr ⟨queue, isQueue⟩, fieldPasses_iff.mpr ⟨lcore, isLcore⟩⟩

/-- What is stored for a field is what is written exactly if the field is a number below the
limit. -/
theorem fieldWhole_iff {maxFld number : Nat} {field behind : Bytes}
    (parsed : parseField maxFld field = some number) :
    FieldWhole maxFld field behind ↔
      signedNumeral 0 (field ++ behind) = some (number : Int) ∧ number < maxFld := by
  rcases parseField_some.mp parsed with ⟨value, leading, inRange, _, same⟩
  constructor
  · rintro ⟨other, isOther, whole, nonnegative, below⟩
    rw [leading] at isOther
    cases isOther
    rw [Int.emod_eq_of_lt nonnegative (by omega)] at same
    rw [same]
    exact ⟨whole, by omega⟩
  · rintro ⟨whole, below⟩
    have isNumber := eq_of_emod_eq leading inRange whole same
    rw [isNumber] at leading
    exact ⟨number, leading, whole, by omega, by omega⟩

theorem exact_iff {rteStrsplit : Strsplit} (splits : Splits rteStrsplit) {text : Bytes}
    {param : LcoreParams} (parsed : parseLcoreParams rteStrsplit text = some param) :
    Exact text param ↔ GroupWhole text := by
  rcases (parseLcoreParams_some splits).mp parsed with
    ⟨small, a, b, c, port, queue, lcore, pieces, isPort, isQueue, isLcore, rfl⟩
  have portLimit := parseField_le isPort
  have queueLimit := parseField_le isQueue
  have lcoreLimit := parseField_le isLcore
  simp only [rteMaxEthports, rteMaxQueuesPerPort, rteMaxLcore] at portLimit queueLimit lcoreLimit
  have storedPort : (LcoreParams.ofNumbers port queue lcore).portId.toNat = port :=
    Nat.mod_eq_of_lt (by omega)
  have storedQueue : (LcoreParams.ofNumbers port queue lcore).queueId.toNat = queue :=
    Nat.mod_eq_of_lt (by omega)
  have storedLcore : (LcoreParams.ofNumbers port queue lcore).lcoreId.toNat = lcore :=
    Nat.mod_eq_of_lt (by omega)
  have whole : ThreePieces text a b (c ++ text.drop (text.length % 2 ^ 32)) := by
    refine ⟨?_, pieces.first, pieces.second⟩
    have split := List.take_append_drop (text.length % 2 ^ 32) text
    rw [← copiedText, pieces.whole] at split
    refine split.symm.trans ?_
    simp only [List.append_assoc, List.cons_append]
  constructor
  · rintro ⟨⟨a', b', c', pieces', numeralPort, numeralQueue, numeralLcore⟩, portBelow, queueBelow,
      lcoreBelow⟩
    rcases whole.unique pieces' with ⟨rfl, rfl, rfl⟩
    rw [storedPort] at numeralPort portBelow
    rw [storedQueue] at numeralQueue queueBelow
    rw [storedLcore] at numeralLcore lcoreBelow
    refine ⟨a, b, c, pieces, (fieldWhole_iff isPort).mpr ⟨?_, portBelow⟩,
      (fieldWhole_iff isQueue).mpr ⟨?_, queueBelow⟩,
      (fieldWhole_iff isLcore).mpr ⟨numeralLcore, lcoreBelow⟩⟩
    · rwa [List.append_nil]
    · rwa [List.append_nil]
  · rintro ⟨a', b', c', pieces', wholePort, wholeQueue, wholeLcore⟩
    rcases pieces.unique pieces' with ⟨rfl, rfl, rfl⟩
    rcases (fieldWhole_iff isPort).mp wholePort with ⟨numeralPort, portBelow⟩
    rcases (fieldWhole_iff isQueue).mp wholeQueue with ⟨numeralQueue, queueBelow⟩
    rcases (fieldWhole_iff isLcore).mp wholeLcore with ⟨numeralLcore, lcoreBelow⟩
    rw [List.append_nil] at numeralPort numeralQueue
    refine ⟨⟨a, b, _, whole, ?_, ?_, ?_⟩, ?_, ?_, ?_⟩
    · rw [storedPort, numeralPort]
    · rw [storedQueue, numeralQueue]
    · rw [storedLcore, numeralLcore]
    · rwa [storedPort]
    · rwa [storedQueue]
    · rwa [storedLcore]

/-! ## All groups -/

theorem parseConfig_some {rteStrsplit : Strsplit} {qArg : Bytes} {params : List LcoreParams} :
    parseConfig rteStrsplit qArg = some params ↔
      ∃ texts, Grouped openParen closeParen qArg texts ∧
        List.Forall₂ (Reads (parseLcoreParams rteStrsplit)) texts params ∧
        params.length ≤ maxLcoreParams := by
  rw [parseConfig, scan_eq_some (by decide) le_rfl (Nat.zero_le _)]
  constructor
  · rintro ⟨texts, added, grouped, entryOf, rfl, few⟩
    exact ⟨texts, grouped, entryOf, few⟩
  · rintro ⟨texts, grouped, entryOf, few⟩
    exact ⟨texts, params, grouped, entryOf, rfl, few⟩

/-- What is stored for a string that is accepted: one entry for each group, with the numbers
of the group. -/
def ConfigExact (rteStrsplit : Strsplit) (qArg : Bytes) : Prop :=
  ∀ params, parseConfig rteStrsplit qArg = some params →
    ∃ texts, Grouped openParen closeParen qArg texts ∧ params.length = texts.length ∧
      params.length ≤ maxLcoreParams ∧ List.Forall₂ Exact texts params

/-- The stored entries are exact if and only if, in a string whose groups are all accepted,
each group is made of three numbers below their limits. -/
theorem configExact_iff {rteStrsplit : Strsplit} (splits : Splits rteStrsplit) (qArg : Bytes) :
    ConfigExact rteStrsplit qArg ↔
      ∀ texts, Grouped openParen closeParen qArg texts → texts.length ≤ maxLcoreParams →
        (∀ text ∈ texts, GroupPasses text) → ∀ text ∈ texts, GroupWhole text := by
  constructor
  · intro exact texts grouped few passes
    obtain ⟨params, entryOf⟩ : ∃ params, List.Forall₂ (Reads (parseLcoreParams rteStrsplit))
        texts params := by
      apply exists_forall₂
      intro text member
      exact (groupPasses_iff splits).mp (passes text member)
    have counts := entryOf.length_eq
    have parsed := parseConfig_some.mpr ⟨texts, grouped, entryOf, counts ▸ few⟩
    rcases exact params parsed with ⟨others, again, _, _, areExact⟩
    rcases grouped.unique again with rfl
    intro text member
    rcases forall₂_and_of_mem entryOf areExact member with ⟨param, isRead, isExact⟩
    exact (exact_iff splits isRead).mp isExact
  · intro whole params parsed
    rcases parseConfig_some.mp parsed with ⟨texts, grouped, entryOf, few⟩
    have counts := entryOf.length_eq
    have passes : ∀ text ∈ texts, GroupPasses text := by
      intro text member
      rcases forall₂_and_of_mem entryOf entryOf member with ⟨param, isRead, _⟩
      exact (groupPasses_iff splits).mpr ⟨param, isRead⟩
    have all := whole texts grouped (counts ▸ few) passes
    refine ⟨texts, grouped, counts.symm, few, ?_⟩
    have both := (List.forall₂_and_left _ _).mpr ⟨all, entryOf⟩
    exact both.imp fun _ _ found => (exact_iff splits found.2).mpr found.1

/-! ## The parser of port pairs -/

theorem strchr_eq (byte : BitVec 8) (s : Bytes) : L2fwd.strchr byte s = startingAt byte s := by
  rw [L2fwd.strchr, startingAt]
  cases s.dropWhile fun other => other != byte with
  | nil => rfl
  | cons first rest => rfl

/-- Both parsers look for groups in the same way. -/
theorem parsePortPairs_eq_scan (rteStrsplit : Strsplit) :
    ∀ fuel s pairs, L2fwd.parsePortPairs rteStrsplit fuel s pairs =
      scan openParen closeParen (rteMaxEthports / 2)
        (fun text => if 256 ≤ text.length % 2 ^ 32 then none
          else L2fwd.parsePortPair rteStrsplit (copiedText text))
        fuel s pairs := by
  intro fuel
  induction fuel with
  | zero =>
      intro s pairs
      rfl
  | succ fuel induction =>
      intro s pairs
      rw [L2fwd.parsePortPairs, scan, strchr_eq]
      cases startingAt openParen s with
      | none => rfl
      | some found =>
          dsimp only
          rw [strchr_eq]
          cases startingAt closeParen found.tail with
          | none => rfl
          | some rest =>
              dsimp only
              split
              · rfl
              · simp only [induction]

theorem parsePortPair_below {rteStrsplit : Strsplit} {s : Bytes} {pair : L2fwd.PortPairParams}
    (parsed : L2fwd.parsePortPair rteStrsplit s = some pair) :
    pair.port0 < rteMaxEthports ∧ pair.port1 < rteMaxEthports := by
  have below {field : Bytes} {port : Nat} (isPort : L2fwd.parsePortField field = some port) :
      port < rteMaxEthports := by
    rw [L2fwd.parsePortField] at isPort
    split at isPort
    · cases isPort
    · next fits =>
        cases isPort
        exact Nat.not_le.mp fun large => fits (.inr (.inr large))
  rw [L2fwd.parsePortPair] at parsed
  split at parsed
  · rcases Option.bind_eq_some_iff.mp parsed with ⟨port0, isPort0, parsed⟩
    rcases Option.bind_eq_some_iff.mp parsed with ⟨port1, isPort1, parsed⟩
    cases parsed
    exact ⟨below isPort0, below isPort1⟩
  · cases parsed

/-- The ports of a pair are indices. -/
theorem parsePortPairConfig_below {rteStrsplit : Strsplit} {qArg : Bytes}
    {pairs : List L2fwd.PortPairParams}
    (parsed : L2fwd.parsePortPairConfig rteStrsplit qArg = some pairs) :
    ∀ pair ∈ pairs, pair.port0 < rteMaxEthports ∧ pair.port1 < rteMaxEthports := by
  rw [L2fwd.parsePortPairConfig, parsePortPairs_eq_scan] at parsed
  rcases (scan_eq_some (by decide) le_rfl (Nat.zero_le _)).mp parsed with
    ⟨texts, added, _, entryOf, rfl, _⟩
  intro pair member
  rcases forall₂_and_of_mem entryOf.flip entryOf.flip member with ⟨text, isRead, _⟩
  have isRead : (if 256 ≤ text.length % 2 ^ 32 then none
      else L2fwd.parsePortPair rteStrsplit (copiedText text)) = some pair := isRead
  split at isRead
  · cases isRead
  · exact parsePortPair_below isRead

/-! ## What each parser guarantees -/

/-- The configuration is exact if and only if every group of a string that is accepted is made
of numbers below their limits. The ports of the pairs always are indices. -/
theorem parseConfig_exact_iff {rteStrsplit : Strsplit} (splits : Splits rteStrsplit)
    (qArg : Bytes) :
    (ConfigExact rteStrsplit qArg ↔
      ∀ texts, Grouped openParen closeParen qArg texts → texts.length ≤ maxLcoreParams →
        (∀ text ∈ texts, GroupPasses text) → ∀ text ∈ texts, GroupWhole text) ∧
    ∀ pairs, L2fwd.parsePortPairConfig rteStrsplit qArg = some pairs →
      ∀ pair ∈ pairs, pair.port0 < rteMaxEthports ∧ pair.port1 < rteMaxEthports :=
  ⟨configExact_iff splits qArg, fun _ => parsePortPairConfig_below⟩

/-- A splitter: a token starts where a piece starts, if there is anything there. The last one
goes to the end of the string, unless it starts with a delimiter. -/
def splitTokens (delim : BitVec 8) : Nat → Bytes → List Bytes
  | 0, _ => []
  | _, [] => []
  | 1, byte :: rest => if byte = delim then [[]] else [byte :: rest]
  | count + 2, byte :: rest =>
      match cutAt delim (byte :: rest) with
      | none => [byte :: rest]
      | some (piece, behind) => piece :: splitTokens delim (count + 1) behind

theorem splits_splitTokens : Splits fun s count delim => splitTokens delim count s where
  pieces := by
    intro s count delim
    induction count generalizing s with
    | zero =>
        intro begins
        rw [cutPieces, splitTokens]
    | succ count induction =>
        intro begins
        cases count with
        | zero =>
            rcases begins s List.mem_cons_self with ⟨byte, rest, rfl, different⟩
            exact if_neg different
        | succ count =>
            cases cut : cutAt delim s with
            | none =>
                rw [cutPieces_uncut cut] at begins ⊢
                rcases begins s List.mem_cons_self with ⟨byte, rest, rfl, _⟩
                rw [splitTokens, cut]
            | some parts =>
                rcases parts with ⟨piece, behind⟩
                rw [cutPieces_cut cut] at begins ⊢
                rcases begins piece List.mem_cons_self with ⟨byte, rest, rfl, _⟩
                rcases cutAt_eq_some.mp cut with ⟨rfl, _⟩
                have others := induction behind fun piece member =>
                  begins piece (List.mem_cons_of_mem _ member)
                rw [List.cons_append] at cut ⊢
                rw [splitTokens, cut]
                exact congrArg _ others
  tokens := by
    intro s count delim
    induction count generalizing s with
    | zero =>
        intro _
        rw [cutPieces, splitTokens]
        exact .nil
    | succ count induction =>
        intro counts
        cases s with
        | nil => cases counts
        | cons byte rest =>
            cases count with
            | zero =>
                change List.Forall₂ _ (if byte = delim then [[]] else [byte :: rest])
                  [byte :: rest]
                split
                · exact .cons List.nil_prefix .nil
                · exact .cons (List.prefix_refl _) .nil
            | succ count =>
                rw [splitTokens] at counts ⊢
                cases cut : cutAt delim (byte :: rest) with
                | none =>
                    rw [cut] at counts
                    exact absurd (Nat.succ.inj counts) (Nat.succ_ne_zero count).symm
                | some parts =>
                    rcases parts with ⟨piece, behind⟩
                    rw [cut] at counts
                    rw [cutPieces_cut cut]
                    exact .cons (List.prefix_refl _) (induction behind (Nat.succ.inj counts))

deriving instance DecidableEq for LcoreParams

/-- Two groups with numbers below their limits. -/
theorem parseConfig_exact_twoGroups :
    parseConfig (fun s count delim => splitTokens delim count s) (ascii "(0,1,2)(0x1f,010,127)") =
      some [.ofNumbers 0 1 2, .ofNumbers 31 8 127] ∧
    ConfigExact (fun s count delim => splitTokens delim count s)
      (ascii "(0,1,2)(0x1f,010,127)") := by
  refine ⟨by decide, (parseConfig_exact_iff splits_splitTokens _).1.mpr ?_⟩
  intro texts grouped _ _
  have groups : Grouped openParen closeParen (ascii "(0,1,2)(0x1f,010,127)")
      [ascii "0,1,2", ascii "0x1f,010,127"] :=
    grouped_next (ascii "0,1,2") (ascii "(0x1f,010,127)") (by decide)
      (grouped_next (ascii "0x1f,010,127") [] (by decide) (.done List.not_mem_nil))
  rcases grouped.unique groups with rfl
  intro text member
  simp only [List.mem_cons, List.not_mem_nil, or_false] at member
  rcases member with rfl | rfl
  · exact ⟨ascii "0", ascii "1", ascii "2", ⟨by decide, by decide, by decide⟩,
      ⟨0, by decide⟩, ⟨1, by decide⟩, ⟨2, by decide⟩⟩
  · exact ⟨ascii "0x1f", ascii "010", ascii "127", ⟨by decide, by decide, by decide⟩,
      ⟨31, by decide⟩, ⟨8, by decide⟩, ⟨127, by decide⟩⟩

/-- A port, a queue and an lcore that are no indices, and numbers with something behind them. -/
theorem parseConfig_notExact :
    parseConfig (fun s count delim => splitTokens delim count s) (ascii "(32,1024,128)") =
      some [.ofNumbers 32 1024 128] ∧
    ¬ ConfigExact (fun s count delim => splitTokens delim count s) (ascii "(32,1024,128)") ∧
    parseConfig (fun s count delim => splitTokens delim count s) (ascii "(1x,2y,3,4)") =
      some [.ofNumbers 1 2 3] ∧
    ¬ ConfigExact (fun s count delim => splitTokens delim count s) (ascii "(1x,2y,3,4)") := by
  refine ⟨by decide, ?_, by decide, ?_⟩
  · intro exact
    rcases exact [.ofNumbers 32 1024 128] (by decide) with ⟨texts, _, _, _, areExact⟩
    cases areExact with
    | cons isExact _ => exact absurd isExact.port (by decide)
  · intro exact
    rcases exact [.ofNumbers 1 2 3] (by decide) with ⟨texts, grouped, _, _, areExact⟩
    have groups : Grouped openParen closeParen (ascii "(1x,2y,3,4)") [ascii "1x,2y,3,4"] :=
      grouped_next (ascii "1x,2y,3,4") [] (by decide) (.done List.not_mem_nil)
    rcases grouped.unique groups with rfl
    cases areExact with
    | cons isExact _ =>
        rcases isExact.numbers with ⟨a, b, c, pieces, port, _⟩
        have written : ThreePieces (ascii "1x,2y,3,4") (ascii "1x") (ascii "2y") (ascii "3,4") :=
          ⟨by decide, by decide, by decide⟩
        rcases pieces.unique written with ⟨rfl, _⟩
        exact absurd port (by decide)

end PacketForwarding.L3fwd
