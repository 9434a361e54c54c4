import PacketForwarding.Foundation.WholeNumerals
import PacketForwarding.L2fwd.PortMap
import PacketForwarding.L3fwd.EthRewrite
import PacketForwarding.L3fwd.RuleFields

/-! # Numeric options

Masks of ports, the destination address of a port and the timer period. Each number is read
with 64 bits and then assigned to a shorter type, before its range is checked or without
that. A number is safe if it is in range or does not pass in the shorter type either.
-/

namespace PacketForwarding

open CString

/-- Parse hexadecimal string. The `int` that is returned is stored as an unsigned number. -/
def parseHexMask (portmask : Bytes) : BitVec 32 :=
  match wholeUlong 16 portmask with
  | none => 0#32
  | some pm => BitVec.ofNat 32 pm

namespace L3fwd

def parsePortmask (portmask : Bytes) : BitVec 32 := parseHexMask portmask

/-- What is read from the argument. `rte_exit` is `none`. -/
def readEthDest (cmdlineParseEtheraddr : Bytes → Option (BitVec 48)) (optarg : Bytes) :
    Option EthDest :=
  let result := strtoul 10 optarg
  if result.erange = true ∨ result.stop = optarg ∨ result.stop.head? ≠ some L2fwd.comma then
    none
  else do
    let peerAddr ← cmdlineParseEtheraddr result.stop.tail
    return ⟨BitVec.ofNat 16 result.value, peerAddr⟩

/-- The port of an `--eth-dest` option with the addresses behind it. -/
def ethDestOption (cmdlineParseEtheraddr : Bytes → Option (BitVec 48)) (addrs : EthAddrs)
    (optarg : Bytes) : Option (BitVec 16 × EthAddrs) := do
  let option ← readEthDest cmdlineParseEtheraddr optarg
  let after ← parseEthDest addrs option
  return (option.portid, after)

end L3fwd

namespace L2fwd

def l2fwdParsePortmask (portmask : Bytes) : BitVec 32 := parseHexMask portmask

/-- `MAX_TIMER_PERIOD`, 1 day max -/
def maxTimerPeriod : Nat := 86400

/-- The number is an `int` from the start. -/
def l2fwdParseTimerPeriod (qArg : Bytes) : Int :=
  match wholeLong 10 qArg with
  | none => -1
  | some value =>
      let n := (BitVec.ofInt 32 value).toInt
      if (maxTimerPeriod : Int) ≤ n then -1 else n

end L2fwd

/-! ## Exact numbers -/

/-- A mask that is accepted is the number that is written. -/
def MaskExact (parse : Bytes → BitVec 32) (portmask : Bytes) : Prop :=
  parse portmask ≠ 0#32 → signedNumeral 16 portmask = some ((parse portmask).toNat : Int)

/-- A port that is stored is the number in front of the comma. -/
def EthDestExact (cmdlineParseEtheraddr : Bytes → Option (BitVec 48)) (optarg : Bytes) : Prop :=
  ∀ addrs portid after,
    L3fwd.ethDestOption cmdlineParseEtheraddr addrs optarg = some (portid, after) →
      ∃ numeral address, L3fwd.cutAt L2fwd.comma optarg = some (numeral, address) ∧
        signedNumeral 10 numeral = some (portid.toNat : Int)

/-- A period that is accepted is the number that is written. -/
def TimerPeriodExact (qArg : Bytes) : Prop :=
  0 ≤ L2fwd.l2fwdParseTimerPeriod qArg →
    signedNumeral 10 qArg = some (L2fwd.l2fwdParseTimerPeriod qArg)

/-- A number that is a mask in 32 bits. One that is too large for 64 bits is all ones. -/
def PassesForMask (value : Int) : Prop :=
  (ulongRange : Int) ≤ value.natAbs ∨ value % 2 ^ 32 ≠ 0

/-- A number that is a port in sixteen bits. -/
def PassesForPort (value : Int) : Prop :=
  value.natAbs < ulongRange ∧ value % 2 ^ 16 < rteMaxEthports

/-- A number that is a period in 32 bits. One that is too small for 64 bits is zero there. -/
def PassesForPeriod (value : Int) : Prop :=
  value < -longRange ∨ value < longRange ∧ value % 2 ^ 32 < L2fwd.maxTimerPeriod

/-! ## Masks -/

theorem toNat_parseHexMask {portmask : Bytes} {value : Int}
    (numeral : signedNumeral 16 portmask = some value) :
    (parseHexMask portmask).toNat = ulongOf value % 2 ^ 32 := by
  rw [parseHexMask, wholeUlong_eq, numeral]
  exact BitVec.toNat_ofNat _ _

theorem parseHexMask_ne_zero_iff {portmask : Bytes} {value : Int}
    (numeral : signedNumeral 16 portmask = some value) :
    parseHexMask portmask ≠ 0#32 ↔ PassesForMask value := by
  have mask := toNat_parseHexMask numeral
  have isZero : parseHexMask portmask = 0#32 ↔ ulongOf value % 2 ^ 32 = 0 := by
    rw [← mask, ← BitVec.toNat_inj]
    rfl
  rw [Ne, isZero, PassesForMask]
  by_cases inRange : value.natAbs < ulongRange
  · have kept := ulongOf_mod inRange (by decide : 2 ^ 32 ∣ ulongRange)
    omega
  · rw [ulongOf_large (Nat.not_lt.mp inRange)]
    simp only [ulongRange] at inRange ⊢
    omega

theorem parseHexMask_exact_iff (portmask : Bytes) :
    MaskExact parseHexMask portmask ↔
      ∀ value, signedNumeral 16 portmask = some value → PassesForMask value →
        0 ≤ value ∧ value < 2 ^ 32 := by
  constructor
  · intro exact value numeral passes
    have same := exact ((parseHexMask_ne_zero_iff numeral).mpr passes)
    rw [numeral] at same
    have bound := (parseHexMask portmask).isLt
    have isMask := Option.some.inj same
    omega
  · intro fits nonzero
    cases numeral : signedNumeral 16 portmask with
    | none =>
        rw [parseHexMask, wholeUlong_eq, numeral] at nonzero
        exact absurd rfl nonzero
    | some value =>
        rcases fits value numeral ((parseHexMask_ne_zero_iff numeral).mp nonzero) with
          ⟨nonnegative, short⟩
        have inRange : value.natAbs < ulongRange := by
          simp only [ulongRange]
          omega
        have kept := ulongOf_mod inRange (by decide : 2 ^ 32 ∣ ulongRange)
        rw [Nat.cast_pow, Nat.cast_ofNat, Int.emod_eq_of_lt nonnegative short] at kept
        rw [toNat_parseHexMask numeral, kept]

/-! ## Ports -/

/-- If a number ends at a comma, it is all that is in front of the first comma. -/
theorem strtoul_comma {optarg : Bytes}
    (ends : (strtoul 10 optarg).stop.head? = some L2fwd.comma) :
    ∃ numeral address, L3fwd.cutAt L2fwd.comma optarg = some (numeral, address) ∧
      (strtoul 10 numeral).stop = [] := by
  have member : L2fwd.comma ∈ optarg :=
    (strtoul_stop_suffix 10 optarg).subset (List.mem_of_head? ends)
  have cut : ∃ numeral address, L3fwd.cutAt L2fwd.comma optarg = some (numeral, address) := by
    rw [L3fwd.cutAt, if_pos member]
    exact ⟨_, _, rfl⟩
  rcases cut with ⟨numeral, address, cut⟩
  refine ⟨numeral, address, cut, ?_⟩
  rcases L3fwd.cutAt_eq_some.mp cut with ⟨rfl, before⟩
  rw [strtoul_append L2fwd.delimits_comma] at ends
  cases stop : (strtoul 10 numeral).stop with
  | nil => rfl
  | cons byte rest =>
      have suffix := strtoul_stop_suffix 10 numeral
      rw [stop] at ends suffix
      cases ends
      exact absurd (suffix.subset List.mem_cons_self) before

/-- A port is stored for a number before a comma that passes, and an address behind it. -/
theorem readEthDest_some {cmdlineParseEtheraddr : Bytes → Option (BitVec 48)} {optarg : Bytes}
    {dest : L3fwd.EthDest} :
    L3fwd.readEthDest cmdlineParseEtheraddr optarg = some dest ↔
      ∃ numeral address value,
        L3fwd.cutAt L2fwd.comma optarg = some (numeral, address) ∧
        signedNumeral 10 numeral = some value ∧ value.natAbs < ulongRange ∧
        cmdlineParseEtheraddr address = some dest.peerAddr ∧
        dest.portid = BitVec.ofNat 16 (ulongOf value) := by
  constructor
  · intro parsed
    rw [L3fwd.readEthDest] at parsed
    split at parsed
    · cases parsed
    · next reads =>
        rw [not_or, not_or, not_not] at reads
        rcases reads with ⟨noError, moved, ends⟩
        rcases strtoul_comma ends with ⟨numeral, address, cut, whole⟩
        rcases L3fwd.cutAt_eq_some.mp cut with ⟨rfl, _⟩
        rw [strtoul_append L2fwd.delimits_comma] at parsed noError moved
        have nonempty : numeral ≠ [] := by
          rintro rfl
          rw [whole] at moved
          exact moved rfl
        cases isNumeral : signedNumeral 10 numeral with
        | none =>
            rcases strtoul_of_noNumeral isNumeral with empty | stopped
            · exact absurd empty nonempty
            · exact absurd whole stopped
        | some value =>
            rw [strtoul_of_numeral isNumeral] at parsed noError
            have inRange : value.natAbs < ulongRange := by
              by_contra large
              exact noError (decide_eq_true (Nat.not_lt.mp large))
            rcases Option.bind_eq_some_iff.mp parsed with ⟨peerAddr, read, stored⟩
            cases stored
            exact ⟨numeral, address, value, cut, isNumeral, inRange, read, rfl⟩
  · rintro ⟨numeral, address, value, cut, isNumeral, inRange, read, port⟩
    rcases L3fwd.cutAt_eq_some.mp cut with ⟨rfl, _⟩
    have nonempty : numeral ≠ [] := by
      rintro rfl
      rw [signedNumeral_nil] at isNumeral
      cases isNumeral
    rw [L3fwd.readEthDest, strtoul_append L2fwd.delimits_comma, strtoul_of_numeral isNumeral,
      if_neg ?_]
    · change (cmdlineParseEtheraddr address).bind _ = _
      rw [read]
      exact congrArg (fun portid => some (L3fwd.EthDest.mk portid dest.peerAddr)) port.symm
    · rintro (error | same | other)
      · exact Nat.not_le.mpr inRange (of_decide_eq_true error)
      · have lengths := congrArg List.length same
        simp only [List.nil_append, List.length_append, List.length_cons] at lengths
        exact nonempty (List.eq_nil_of_length_eq_zero (by omega))
      · exact other rfl

theorem ethDestOption_some {cmdlineParseEtheraddr : Bytes → Option (BitVec 48)}
    {addrs after : L3fwd.EthAddrs} {optarg : Bytes} {portid : BitVec 16} :
    L3fwd.ethDestOption cmdlineParseEtheraddr addrs optarg = some (portid, after) ↔
      ∃ dest, L3fwd.readEthDest cmdlineParseEtheraddr optarg = some dest ∧
        L3fwd.parseEthDest addrs dest = some after ∧ portid = dest.portid := by
  simp only [L3fwd.ethDestOption, Option.bind_eq_bind, Option.bind_eq_some_iff]
  constructor
  · rintro ⟨dest, read, _, stored, same⟩
    cases same
    exact ⟨dest, read, stored, rfl⟩
  · rintro ⟨dest, read, stored, rfl⟩
    exact ⟨dest, read, after, stored, rfl⟩

theorem passesForPort_iff {value : Int} (inRange : value.natAbs < ulongRange) :
    PassesForPort value ↔ (BitVec.ofNat 16 (ulongOf value)).toNat < rteMaxEthports := by
  have kept := ulongOf_mod inRange (by decide : 2 ^ 16 ∣ ulongRange)
  rw [PassesForPort, BitVec.toNat_ofNat]
  omega

theorem parseEthDest_exact_iff (cmdlineParseEtheraddr : Bytes → Option (BitVec 48))
    (optarg : Bytes) :
    EthDestExact cmdlineParseEtheraddr optarg ↔
      ∀ numeral address value, L3fwd.cutAt L2fwd.comma optarg = some (numeral, address) →
        signedNumeral 10 numeral = some value → (cmdlineParseEtheraddr address).isSome →
        PassesForPort value → 0 ≤ value ∧ value < rteMaxEthports := by
  constructor
  · intro exact numeral address value cut isNumeral isAddress passes
    rcases Option.isSome_iff_exists.mp isAddress with ⟨peerAddr, read⟩
    have portFits := (passesForPort_iff passes.1).mp passes
    have isRead : L3fwd.readEthDest cmdlineParseEtheraddr optarg =
        some ⟨BitVec.ofNat 16 (ulongOf value), peerAddr⟩ :=
      readEthDest_some.mpr ⟨numeral, address, value, cut, isNumeral, passes.1, read, rfl⟩
    have stored := @ethDestOption_some _ L3fwd.EthAddrs.zero _ _ _ |>.mpr
      ⟨_, isRead, if_neg (Nat.not_le.mpr portFits), rfl⟩
    rcases exact _ _ _ stored with ⟨other, rest, sameCut, isPort⟩
    rw [cut] at sameCut
    cases sameCut
    rw [isNumeral] at isPort
    have same : value = ((BitVec.ofNat 16 (ulongOf value)).toNat : Int) := Option.some.inj isPort
    omega
  · intro fits addrs portid after parsed
    rcases ethDestOption_some.mp parsed with ⟨dest, isRead, stored, rfl⟩
    rcases readEthDest_some.mp isRead with
      ⟨numeral, address, value, cut, isNumeral, inRange, read, port⟩
    have portFits : dest.portid.toNat < rteMaxEthports := by
      by_contra large
      rw [L3fwd.parseEthDest, if_pos (Nat.not_lt.mp large)] at stored
      cases stored
    rw [port] at portFits ⊢
    rcases fits numeral address value cut isNumeral
      (Option.isSome_iff_exists.mpr ⟨_, read⟩) ((passesForPort_iff inRange).mpr portFits) with
      ⟨nonnegative, small⟩
    have kept := ulongOf_mod inRange (by decide : 2 ^ 16 ∣ ulongRange)
    have short : value < 2 ^ 16 := small.trans (by decide)
    rw [Nat.cast_pow, Nat.cast_ofNat, Int.emod_eq_of_lt nonnegative short] at kept
    exact ⟨numeral, address, cut, by rw [isNumeral, BitVec.toNat_ofNat, kept]⟩

/-! ## Timer periods -/

theorem l2fwdParseTimerPeriod_noNumeral {qArg : Bytes} (none : signedNumeral 10 qArg = .none) :
    L2fwd.l2fwdParseTimerPeriod qArg = -1 := by
  rw [L2fwd.l2fwdParseTimerPeriod, wholeLong_eq, none]
  rfl

/-- The `int` for a number. -/
theorem toInt_longOf (value : Int) :
    (BitVec.ofInt 32 (longOf value)).toInt =
      if value < -longRange then 0
      else if (longRange : Int) ≤ value then -1
      else value.bmod (2 ^ 32) := by
  rw [BitVec.toInt_ofInt, longOf]
  split
  · next small =>
      have clamped : max (-(longRange : Int)) (min value (longRange - 1)) = -longRange := by
        simp only [longRange] at small ⊢
        omega
      rw [clamped]
      decide
  · next notSmall =>
      split
      · next large =>
          have clamped : max (-(longRange : Int)) (min value (longRange - 1)) = longRange - 1 := by
            simp only [longRange] at large ⊢
            omega
          rw [clamped]
          decide
      · next notLarge =>
          have kept : max (-(longRange : Int)) (min value (longRange - 1)) = value := by
            simp only [longRange] at notSmall notLarge ⊢
            omega
          rw [kept]

/-- What becomes of a number, by its range. -/
theorem l2fwdParseTimerPeriod_numeral {qArg : Bytes} {value : Int}
    (numeral : signedNumeral 10 qArg = some value) :
    (0 ≤ L2fwd.l2fwdParseTimerPeriod qArg ↔ PassesForPeriod value) ∧
      (0 ≤ value → value < L2fwd.maxTimerPeriod → L2fwd.l2fwdParseTimerPeriod qArg = value) ∧
      L2fwd.l2fwdParseTimerPeriod qArg < L2fwd.maxTimerPeriod := by
  have period : L2fwd.l2fwdParseTimerPeriod qArg =
      if (L2fwd.maxTimerPeriod : Int) ≤ (BitVec.ofInt 32 (longOf value)).toInt then -1
      else (BitVec.ofInt 32 (longOf value)).toInt := by
    rw [L2fwd.l2fwdParseTimerPeriod, wholeLong_eq, numeral]
    rfl
  rw [period, toInt_longOf, PassesForPeriod]
  by_cases small : value < -longRange
  · rw [if_pos small]
    simp only [longRange, L2fwd.maxTimerPeriod] at small ⊢
    omega
  · rw [if_neg small]
    by_cases large : (longRange : Int) ≤ value
    · rw [if_pos large]
      simp only [longRange, L2fwd.maxTimerPeriod] at large ⊢
      omega
    · rw [if_neg large, Int.bmod_def]
      simp only [longRange, L2fwd.maxTimerPeriod] at small large ⊢
      split
      · omega
      · omega

theorem l2fwdParseTimerPeriod_exact_iff (qArg : Bytes) :
    TimerPeriodExact qArg ↔
      ∀ value, signedNumeral 10 qArg = some value → PassesForPeriod value →
        0 ≤ value ∧ value < L2fwd.maxTimerPeriod := by
  constructor
  · intro exact value numeral passes
    rcases l2fwdParseTimerPeriod_numeral numeral with ⟨accepted, _, short⟩
    have nonnegative := accepted.mpr passes
    have same := exact nonnegative
    rw [numeral] at same
    have isPeriod := Option.some.inj same
    omega
  · intro fits nonnegative
    cases numeral : signedNumeral 10 qArg with
    | none =>
        rw [l2fwdParseTimerPeriod_noNumeral numeral] at nonnegative
        omega
    | some value =>
        rcases l2fwdParseTimerPeriod_numeral numeral with ⟨accepted, kept, _⟩
        rcases fits value numeral (accepted.mp nonnegative) with ⟨positive, short⟩
        rw [kept positive short]

/-! ## All of them -/

/-- Each parser is exact for the strings whose number is in range, or does not pass. -/
theorem numericOptions_exact_iff (cmdlineParseEtheraddr : Bytes → Option (BitVec 48))
    (argument : Bytes) :
    (MaskExact L3fwd.parsePortmask argument ↔
      ∀ value, signedNumeral 16 argument = some value → PassesForMask value →
        0 ≤ value ∧ value < 2 ^ 32) ∧
    (MaskExact L2fwd.l2fwdParsePortmask argument ↔
      ∀ value, signedNumeral 16 argument = some value → PassesForMask value →
        0 ≤ value ∧ value < 2 ^ 32) ∧
    (EthDestExact cmdlineParseEtheraddr argument ↔
      ∀ numeral address value, L3fwd.cutAt L2fwd.comma argument = some (numeral, address) →
        signedNumeral 10 numeral = some value → (cmdlineParseEtheraddr address).isSome →
        PassesForPort value → 0 ≤ value ∧ value < rteMaxEthports) ∧
    (TimerPeriodExact argument ↔
      ∀ value, signedNumeral 10 argument = some value → PassesForPeriod value →
        0 ≤ value ∧ value < L2fwd.maxTimerPeriod) :=
  ⟨parseHexMask_exact_iff argument, parseHexMask_exact_iff argument,
    parseEthDest_exact_iff cmdlineParseEtheraddr argument,
    l2fwdParseTimerPeriod_exact_iff argument⟩

/-- Numbers that are one range too large are taken for small ones, and a minus sign for all
ports. -/
theorem numericOptions_truncated :
    L3fwd.parsePortmask (L3fwd.ascii "100000001") = 1#32 ∧
    ¬ MaskExact L3fwd.parsePortmask (L3fwd.ascii "100000001") ∧
    L2fwd.l2fwdParsePortmask (L3fwd.ascii "-1") = 0xffffffff#32 ∧
    ¬ MaskExact L2fwd.l2fwdParsePortmask (L3fwd.ascii "-1") ∧
    ¬ EthDestExact (fun _ => some 0x020000000001#48) (L3fwd.ascii "65537,02:00:00:00:00:01") ∧
    L2fwd.l2fwdParseTimerPeriod (L3fwd.ascii "4294967297") = 1 ∧
    ¬ TimerPeriodExact (L3fwd.ascii "4294967297") := by
  refine ⟨by decide, ?_, by decide, ?_, ?_, by decide, ?_⟩
  · intro exact
    exact absurd (exact (by decide)) (by decide)
  · intro exact
    exact absurd (exact (by decide)) (by decide)
  · intro exact
    rcases exact .zero 1#16 _ rfl with ⟨numeral, address, cut, isPort⟩
    have isCut : L3fwd.cutAt L2fwd.comma (L3fwd.ascii "65537,02:00:00:00:00:01") =
        some (L3fwd.ascii "65537", L3fwd.ascii "02:00:00:00:00:01") := by decide
    rw [isCut] at cut
    cases cut
    exact absurd isPort (by decide)
  · intro exact
    exact absurd (exact (by decide)) (by decide)

end PacketForwarding
