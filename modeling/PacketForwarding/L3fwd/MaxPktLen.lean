import PacketForwarding.Foundation.WholeNumerals
import PacketForwarding.L3fwd.RuleFile

/-! # The longest packet

The option gives the length of the longest packet, which is checked when a port is
configured. The MTU of the port is that length without what the device adds to a packet.
-/

namespace PacketForwarding.L3fwd

open CString

def rteEtherMinLen : Nat := 64

def maxJumboPktLen : Nat := 9600

/-- `RTE_ETHER_HDR_LEN + RTE_ETHER_CRC_LEN` -/
def rteEtherOverhead : BitVec 32 := 18#32

def rteEtherMtu : BitVec 32 := 1500#32

def rteEthTxOffloadMultiSegs : BitVec 64 := 0x8000#64

/-- The fields of `struct rte_eth_conf` that depend on the option. -/
structure RteEthConf where
  rxmodeMtu : BitVec 32
  txmodeOffloads : BitVec 64
  deriving DecidableEq

/-- `port_conf` -/
def portConf : RteEthConf := ⟨0#32, 0#64⟩

/-- What a device reports about the length of packets. -/
structure RteEthDevInfo where
  maxRxPktlen : BitVec 32
  maxMtu : BitVec 16
  deriving DecidableEq

/-- The result is an `int`, and `max_pkt_len` takes it as an unsigned number. -/
def parseMaxPktLen (pktlen : Bytes) : BitVec 32 :=
  match wholeUlong 10 pktlen with
  | none => -1#32
  | some len => if len = 0 then -1#32 else BitVec.ofNat 32 len

def ethDevGetOverheadLen (info : RteEthDevInfo) : BitVec 32 :=
  if info.maxMtu ≠ 0xffff#16 ∧ info.maxMtu.setWidth 32 < info.maxRxPktlen then
    info.maxRxPktlen - info.maxMtu.setWidth 32
  else
    rteEtherOverhead

def configPortMaxPktLen (maxPktLen : BitVec 32) (conf : RteEthConf) (info : RteEthDevInfo) :
    Option RteEthConf :=
  if maxPktLen = 0#32 then
    some conf
  else if maxPktLen.toNat < rteEtherMinLen ∨ maxJumboPktLen < maxPktLen.toNat then
    none
  else
    let mtu := maxPktLen - ethDevGetOverheadLen info
    some {
      rxmodeMtu := mtu
      txmodeOffloads :=
        if rteEtherMtu < mtu then conf.txmodeOffloads ||| rteEthTxOffloadMultiSegs
        else conf.txmodeOffloads }

/-- A port from the option to its configuration, which the device may refuse. -/
def startPort (rteEthDevConfigure : RteEthConf → Bool) (optarg : Bytes) (info : RteEthDevInfo) :
    Option RteEthConf := do
  let conf ← configPortMaxPktLen (parseMaxPktLen optarg) portConf info
  guard (rteEthDevConfigure conf)
  return conf

/-! ## What is accepted -/

/-- Whatever the device takes, a port that is started has the length of the option. -/
def MaxPktLenSound (optarg : Bytes) (info : RteEthDevInfo) : Prop :=
  ∀ rteEthDevConfigure conf, startPort rteEthDevConfigure optarg info = some conf →
    ∃ len : Nat, signedNumeral 10 optarg = some (len : Int) ∧
      rteEtherMinLen ≤ len ∧ len ≤ maxJumboPktLen ∧
      conf.rxmodeMtu.toNat + (ethDevGetOverheadLen info).toNat = len

/-- A number that is an allowed length, or no length at all, once it has 32 bits. -/
def PassesForLen (value : Int) : Prop :=
  value ≠ 0 ∧ value.natAbs < ulongRange ∧
    (value % 2 ^ 32 = 0 ∨
      (rteEtherMinLen : Int) ≤ value % 2 ^ 32 ∧ value % 2 ^ 32 ≤ maxJumboPktLen)

theorem startPort_some {rteEthDevConfigure : RteEthConf → Bool} {optarg : Bytes}
    {info : RteEthDevInfo} {conf : RteEthConf} :
    startPort rteEthDevConfigure optarg info = some conf ↔
      configPortMaxPktLen (parseMaxPktLen optarg) portConf info = some conf ∧
        rteEthDevConfigure conf = true := by
  simp only [startPort, Option.bind_eq_bind, Option.bind_eq_some_iff, Option.guard_eq_some',
    exists_const, Option.pure_def, Option.some.injEq]
  constructor
  · rintro ⟨found, configured, accepted, rfl⟩
    exact ⟨configured, accepted⟩
  · rintro ⟨configured, accepted⟩
    exact ⟨conf, configured, accepted, rfl⟩

theorem parseMaxPktLen_noNumeral {optarg : Bytes} (none : signedNumeral 10 optarg = .none) :
    parseMaxPktLen optarg = -1#32 := by
  rw [parseMaxPktLen, wholeUlong_eq, none]
  rfl

theorem parseMaxPktLen_zero {optarg : Bytes} (zero : signedNumeral 10 optarg = some 0) :
    parseMaxPktLen optarg = -1#32 := by
  rw [parseMaxPktLen, wholeUlong_eq, zero]
  rfl

theorem parseMaxPktLen_large {optarg : Bytes} {value : Int}
    (numeral : signedNumeral 10 optarg = some value) (large : ulongRange ≤ value.natAbs) :
    parseMaxPktLen optarg = -1#32 := by
  rw [parseMaxPktLen, wholeUlong_eq, numeral, Option.map_some, ulongOf_large large]
  rfl

theorem toNat_parseMaxPktLen {optarg : Bytes} {value : Int}
    (numeral : signedNumeral 10 optarg = some value) (nonzero : value ≠ 0)
    (inRange : value.natAbs < ulongRange) :
    ((parseMaxPktLen optarg).toNat : Int) = value % 2 ^ 32 := by
  have positive : ulongOf value ≠ 0 := by
    have whole := ulongOf_mod inRange (Nat.dvd_refl ulongRange)
    simp only [ulongRange] at inRange whole
    omega
  rw [parseMaxPktLen, wholeUlong_eq, numeral, Option.map_some]
  dsimp only
  rw [if_neg positive, BitVec.toNat_ofNat]
  exact ulongOf_mod inRange (by decide)

theorem configPortMaxPktLen_isSome_iff (maxPktLen : BitVec 32) (conf : RteEthConf)
    (info : RteEthDevInfo) :
    (configPortMaxPktLen maxPktLen conf info).isSome ↔
      maxPktLen.toNat = 0 ∨
        rteEtherMinLen ≤ maxPktLen.toNat ∧ maxPktLen.toNat ≤ maxJumboPktLen := by
  rw [configPortMaxPktLen]
  split
  · next zero => exact iff_of_true rfl (.inl (congrArg BitVec.toNat zero))
  · next nonzero =>
      have positive : maxPktLen.toNat ≠ 0 := fun zero => nonzero (BitVec.eq_of_toNat_eq zero)
      split
      · next outside =>
          refine iff_of_false Bool.false_ne_true ?_
          omega
      · next inside =>
          refine iff_of_true rfl (.inr ?_)
          omega

theorem configPortMaxPktLen_mtu {maxPktLen : BitVec 32} (positive : maxPktLen.toNat ≠ 0)
    {before conf : RteEthConf} {info : RteEthDevInfo}
    (configured : configPortMaxPktLen maxPktLen before info = some conf) :
    conf.rxmodeMtu = maxPktLen - ethDevGetOverheadLen info := by
  have nonzero : maxPktLen ≠ 0#32 := fun zero => positive (congrArg BitVec.toNat zero)
  rw [configPortMaxPktLen, if_neg nonzero] at configured
  split at configured
  · cases configured
  · cases configured
    rfl

/-- A string is accepted if its number passes. -/
theorem parse_config_isSome_iff {optarg : Bytes} {conf : RteEthConf} {info : RteEthDevInfo} :
    (configPortMaxPktLen (parseMaxPktLen optarg) conf info).isSome ↔
      ∃ value, signedNumeral 10 optarg = some value ∧ PassesForLen value := by
  have refused (same : parseMaxPktLen optarg = -1#32) :
      ¬ (configPortMaxPktLen (parseMaxPktLen optarg) conf info).isSome := by
    rw [same]
    exact Bool.false_ne_true
  cases numeral : signedNumeral 10 optarg with
  | none =>
      refine iff_of_false (refused (parseMaxPktLen_noNumeral numeral)) ?_
      rintro ⟨_, impossible, _⟩
      cases impossible
  | some value =>
      simp only [Option.some.injEq, exists_eq_left']
      by_cases zero : value = 0
      · subst zero
        exact iff_of_false (refused (parseMaxPktLen_zero numeral)) fun passes => passes.1 rfl
      · by_cases inRange : value.natAbs < ulongRange
        · have number := toNat_parseMaxPktLen numeral zero inRange
          rw [configPortMaxPktLen_isSome_iff, PassesForLen, ← number]
          simp only [zero, inRange, ne_eq, not_false_iff, true_and]
          omega
        · refine iff_of_false (refused (parseMaxPktLen_large numeral (Nat.not_lt.mp inRange))) ?_
          exact fun passes => inRange passes.2.1

/-! ## Which options are sound -/

/-- The option is sound if its number has at most 32 bits and no sign, and is not shorter
than what the device adds, unless it does not pass at all. -/
theorem maxPktLen_sound_iff (optarg : Bytes) (info : RteEthDevInfo) :
    MaxPktLenSound optarg info ↔
      ∀ value, signedNumeral 10 optarg = some value → PassesForLen value →
        0 ≤ value ∧ value < 2 ^ 32 ∧ (ethDevGetOverheadLen info).toNat ≤ value := by
  constructor
  · intro sound value numeral passes
    have accepted : (configPortMaxPktLen (parseMaxPktLen optarg) portConf info).isSome :=
      parse_config_isSome_iff.mpr ⟨value, numeral, passes⟩
    rcases Option.isSome_iff_exists.mp accepted with ⟨conf, configured⟩
    rcases sound (fun _ => true) conf (startPort_some.mpr ⟨configured, rfl⟩) with
      ⟨len, isLen, _, small, total⟩
    rw [numeral] at isLen
    have same := Option.some.inj isLen
    simp only [maxJumboPktLen] at small
    omega
  · intro fits rteEthDevConfigure conf started
    have configured := (startPort_some.mp started).1
    rcases parse_config_isSome_iff.mp (Option.isSome_iff_exists.mpr ⟨conf, configured⟩) with
      ⟨value, numeral, passes⟩
    rcases fits value numeral passes with ⟨nonnegative, short, overhead⟩
    rcases passes with ⟨nonzero, inRange, length⟩
    have number := toNat_parseMaxPktLen numeral nonzero inRange
    rw [Int.emod_eq_of_lt nonnegative short] at number length
    have positive : (parseMaxPktLen optarg).toNat ≠ 0 := by omega
    have mtu := configPortMaxPktLen_mtu positive configured
    have within : ethDevGetOverheadLen info ≤ parseMaxPktLen optarg := by
      rw [BitVec.le_def]
      omega
    refine ⟨value.toNat, ?_, ?_, ?_, ?_⟩
    · rw [numeral, Int.toNat_of_nonneg nonnegative]
    · omega
    · omega
    · rw [mtu, BitVec.toNat_sub_of_le within]
      omega

/-- A length of 1500 with a device that adds 18 bytes. -/
theorem maxPktLen_sound_iff_ethernet :
    MaxPktLenSound (ascii "1500") ⟨9728#32, 9710#16⟩ := by
  refine (maxPktLen_sound_iff _ _).mpr ?_
  intro value numeral _
  have isValue : signedNumeral 10 (ascii "1500") = some 1500 := by decide
  rw [isValue] at numeral
  cases numeral
  decide

/-- A number of more than 32 bits is taken for 1500, 2 ^ 32 for no length at all, and a length
that is shorter than what the device adds wraps around. -/
theorem maxPktLen_truncated :
    ¬ MaxPktLenSound (ascii "4294968796") ⟨9728#32, 9710#16⟩ ∧
      ¬ MaxPktLenSound (ascii "4294967296") ⟨9728#32, 9710#16⟩ ∧
      ¬ MaxPktLenSound (ascii "1500") ⟨70000#32, 51000#16⟩ := by
  refine ⟨?_, ?_, ?_⟩
  · intro sound
    rcases sound (fun _ => true) ⟨1482#32, 0#64⟩ (by decide) with ⟨len, isLen, _, small, _⟩
    have isValue : signedNumeral 10 (ascii "4294968796") = some 4294968796 := by decide
    rw [isValue] at isLen
    have same := Option.some.inj isLen
    simp only [maxJumboPktLen] at small
    omega
  · intro sound
    rcases sound (fun _ => true) portConf (by decide) with ⟨len, isLen, _, small, _⟩
    have isValue : signedNumeral 10 (ascii "4294967296") = some 4294967296 := by decide
    rw [isValue] at isLen
    have same := Option.some.inj isLen
    simp only [maxJumboPktLen] at small
    omega
  · intro sound
    rcases sound (fun _ => true) ⟨1500#32 - 19000#32, 0x8000#64⟩ (by decide) with
      ⟨len, _, _, small, total⟩
    have large : (1500#32 - 19000#32).toNat = 4294949796 := by decide
    simp only [maxJumboPktLen] at small
    dsimp only at total
    omega

end PacketForwarding.L3fwd
