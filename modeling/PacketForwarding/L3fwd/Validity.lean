import PacketForwarding.L3fwd.Checksum

/-! # What the two validators refuse

Both compare the first byte and the total length of a header with their bounds: one by
subtraction and on the length as the host reads it, the other by shifts and a byte swap.
They refuse the same headers. The validator of the generic paths also looks at the length
of the packet and, unless the device has checked it, at the checksum.
-/

namespace PacketForwarding.L3fwd

open Lanes

/-- The total length field in network byte order. -/
def networkLength (data : Nat → BitVec 8) : Nat :=
  256 * (data Ipv4Hdr.totalLength).toNat + (data (Ipv4Hdr.totalLength + 1)).toNat

/-- The header is not of version 4, or one of its lengths is shorter than a header without
options. -/
def Malformed (data : Nat → BitVec 8) : Prop :=
  data Ipv4Hdr.versionIhl >>> 4 ≠ 4#8 ∨ data Ipv4Hdr.versionIhl &&& 0xf#8 < 5#8 ∨
    networkLength data < rteIpv4HdrLen

/-- The checksum was left to the program. -/
def Unchecked (olFlags : BitVec 64) : Prop :=
  olFlags &&& rxIpCksumMask = rxIpCksumNone

/-- The checksum is not the one of the header with a zero in its place. -/
def WrongChecksum (env : Env) (data : Nat → BitVec 8) : Prop :=
  load16 data Ipv4Hdr.hdrChecksum ≠
    env.rteIpv4Cksum (store16 data Ipv4Hdr.hdrChecksum 0) rteEtherHdrLen

instance (data : Nat → BitVec 8) : Decidable (Malformed data) :=
  inferInstanceAs (Decidable (_ ∨ _ ∨ _))

instance (olFlags : BitVec 64) : Decidable (Unchecked olFlags) :=
  inferInstanceAs (Decidable (_ = _))

instance (env : Env) (data : Nat → BitVec 8) : Decidable (WrongChecksum env data) :=
  inferInstanceAs (Decidable (_ ≠ _))

/-! ## One comparison for version and header length -/

theorem versionIhl_iff (first : BitVec 8) :
    ipv4MaxVerIhlDiff < first - ipv4MinVerIhl ↔ first >>> 4 ≠ 4#8 ∨ first &&& 0xf#8 < 5#8 := by
  have all : ∀ first : BitVec 8, ipv4MaxVerIhlDiff < first - ipv4MinVerIhl ↔
      first >>> 4 ≠ 4#8 ∨ first &&& 0xf#8 < 5#8 := by
    decide +kernel
  exact all first

/-! ## One comparison for the total length -/

theorem toNat_bswap16_load16 (data : Nat → BitVec 8) (address : Nat) :
    (bswap16 (load16 data address)).toNat =
      256 * (data address).toNat + (data (address + 1)).toNat := by
  have low : lane 8 (load16 data address) 0 = data address :=
    lane_load 2 data address 0 (by decide)
  have high : lane 8 (load16 data address) 1 = data (address + 1) :=
    lane_load 2 data address 1 (by decide)
  rw [toNat_bswap16, low, high]
  exact Nat.add_comm _ _

/-- The first byte is the low one of the host. It has to be zero, and then the host sees
the second byte times 256. -/
theorem totalLength_iff (data : Nat → BitVec 8) :
    ((load16 data Ipv4Hdr.totalLength).setWidth 8 = 0#8 ∧
        load16 data Ipv4Hdr.totalLength < ipv4MinLenBe) ↔
      networkLength data < rteIpv4HdrLen := by
  have host := toNat_load16 data Ipv4Hdr.totalLength
  have firstLt := (data Ipv4Hdr.totalLength).isLt
  have bound : ipv4MinLenBe.toNat = 256 * rteIpv4HdrLen := by decide
  have lowByte : (load16 data Ipv4Hdr.totalLength).setWidth 8 = 0#8 ↔
      (data Ipv4Hdr.totalLength).toNat = 0 := by
    rw [← BitVec.toNat_inj, BitVec.toNat_setWidth, host, Nat.add_mul_mod_self_left,
      Nat.mod_eq_of_lt firstLt]
    rfl
  rw [lowByte, BitVec.lt_def, host, bound, networkLength, rteIpv4HdrLen]
  omega

/-! ## The validators -/

theorem rfc1812Bad_iff (data : Nat → BitVec 8) (ptype : BitVec 32) :
    rfc1812Bad data ptype ↔ rteEthIsIpv4Hdr ptype = true ∧ Malformed data := by
  rw [rfc1812Bad, versionIhl_iff, totalLength_iff, or_assoc]
  rfl

/-- The fields that the validators compare are not those that processing changes. -/
theorem malformed_congr {data data' : Nat → BitVec 8}
    (same : ∀ address, address < Ipv4Hdr.timeToLive → data' address = data address) :
    Malformed data' ↔ Malformed data := by
  have first := same Ipv4Hdr.versionIhl (by decide)
  have high := same Ipv4Hdr.totalLength (by decide)
  have low := same (Ipv4Hdr.totalLength + 1) (by decide)
  rw [Malformed, Malformed, networkLength, networkLength, first, high, low]

/-- The validator of the generic paths refuses malformed headers, short packets, and
checksums that it has to check and that are wrong. -/
theorem isValidIpv4Pkt_refused_iff (env : Env) (data : Nat → BitVec 8) (linkLen : BitVec 32)
    (olFlags : BitVec 64) :
    (isValidIpv4Pkt env data linkLen olFlags).2 < 0 ↔
      Malformed data ∨ linkLen.toNat < rteIpv4HdrLen ∨
        (Unchecked olFlags ∧ WrongChecksum env data) := by
  let zeroed := if Unchecked olFlags then store16 data Ipv4Hdr.hdrChecksum 0 else data
  have sameFields : Malformed zeroed ↔ Malformed data := by
    apply malformed_congr
    intro address before
    by_cases unchecked : Unchecked olFlags
    · have outside : address < Ipv4Hdr.hdrChecksum := before.trans (by decide)
      simp only [zeroed, if_pos unchecked]
      exact store_of_outside 2 data _ _ _ (Or.inl outside)
    · simp only [zeroed, if_neg unchecked]
  have length : networkLength zeroed < rteIpv4HdrLen ↔
      (bswap16 (load16 zeroed Ipv4Hdr.totalLength)).toNat < rteIpv4HdrLen := by
    rw [toNat_bswap16_load16, networkLength]
  rw [← sameFields, Malformed, length]
  by_cases short : linkLen.toNat < rteIpv4HdrLen
  · have refused : (isValidIpv4Pkt env data linkLen olFlags).2 = -1 := by
      rw [isValidIpv4Pkt, if_pos short]
    rw [refused]
    exact iff_of_true (by decide) (Or.inr (Or.inl short))
  · have wrong : (Unchecked olFlags ∧
        load16 data Ipv4Hdr.hdrChecksum ≠ env.rteIpv4Cksum zeroed rteEtherHdrLen) ↔
        Unchecked olFlags ∧ WrongChecksum env data := by
      apply and_congr_right
      intro unchecked
      simp only [zeroed, if_pos unchecked, WrongChecksum]
    have verdict : (isValidIpv4Pkt env data linkLen olFlags).2 =
        if Unchecked olFlags ∧
            load16 data Ipv4Hdr.hdrChecksum ≠ env.rteIpv4Cksum zeroed rteEtherHdrLen then -2
        else if zeroed Ipv4Hdr.versionIhl >>> 4 ≠ 4#8 then -3
        else if zeroed Ipv4Hdr.versionIhl &&& 0xf#8 < 5#8 then -4
        else if (bswap16 (load16 zeroed Ipv4Hdr.totalLength)).toNat < rteIpv4HdrLen then -5
        else 0 := by
      rw [isValidIpv4Pkt, if_neg short, apply_ite Prod.snd, apply_ite Prod.snd,
        apply_ite Prod.snd, apply_ite Prod.snd]
      rfl
    rw [verdict, ← wrong]
    split_ifs with isWrong version headerLength tooShort
    · exact iff_of_true (by decide) (Or.inr (Or.inr isWrong))
    · exact iff_of_true (by decide) (Or.inl (Or.inl version))
    · exact iff_of_true (by decide) (Or.inl (Or.inr (Or.inl headerLength)))
    · exact iff_of_true (by decide) (Or.inl (Or.inr (Or.inr tooShort)))
    · apply iff_of_false (by decide)
      rintro ((isVersion | isHeaderLength | isTooShort) | isShort | isBad)
      · exact version isVersion
      · exact headerLength isHeaderLength
      · exact tooShort isTooShort
      · exact short isShort
      · exact isWrong isBad

/-! ## What the comments ask for -/

/-- The version is not 4, the header length is below five words, or the total length does
not hold the header whose length it is. -/
def Rfc1812Refused (data : Nat → BitVec 8) : Prop :=
  data Ipv4Hdr.versionIhl >>> 4 ≠ 4#8 ∨ ihl data < 5 ∨ networkLength data < 4 * ihl data

/-- The total length holds a header without options, but not this one with its options. -/
structure OptionsCut (data : Nat → BitVec 8) : Prop where
  version : data Ipv4Hdr.versionIhl >>> 4 = 4#8
  length : 5 ≤ ihl data
  total : rteIpv4HdrLen ≤ networkLength data
  cut : networkLength data < 4 * ihl data

/-- Both validators refuse what the comments say: one by a bad port, the other, where link
length and checksum leave it to the header, by a negative result. -/
structure ValidatorsFollow (env : Env) (data : Nat → BitVec 8) : Prop where
  vector : ∀ ptype dp, rteEthIsIpv4Hdr ptype = true → dp ≠ badPort →
    ((rfc1812Process data dp ptype).2 = badPort ↔ Rfc1812Refused data)
  generic : ∀ linkLen olFlags, rteIpv4HdrLen ≤ linkLen.toNat →
    (Unchecked olFlags → ¬ WrongChecksum env data) →
    ((isValidIpv4Pkt env data linkLen olFlags).2 < 0 ↔ Rfc1812Refused data)

theorem malformed_iff (data : Nat → BitVec 8) :
    Malformed data ↔
      data Ipv4Hdr.versionIhl >>> 4 ≠ 4#8 ∨ ihl data < 5 ∨ networkLength data < rteIpv4HdrLen :=
  Iff.rfl

/-- What both refuse is too little by the headers whose options are cut. -/
theorem malformed_iff_refused (data : Nat → BitVec 8) :
    (Malformed data ↔ Rfc1812Refused data) ↔ ¬ OptionsCut data := by
  rw [malformed_iff, Rfc1812Refused]
  constructor
  · intro same cut
    have total := cut.total
    have length := cut.length
    rcases same.mpr (Or.inr (Or.inr cut.cut)) with version | short | tooShort
    · exact version cut.version
    · omega
    · omega
  · intro notCut
    refine or_congr_right' fun version => or_congr_right' fun length => ?_
    have isVersion := not_not.mp version
    have isLength := Nat.le_of_not_lt length
    constructor
    · intro short
      rw [rteIpv4HdrLen] at short
      omega
    · intro short
      by_contra total
      exact notCut ⟨isVersion, isLength, Nat.le_of_not_lt total, short⟩

theorem rfc1812Process_bad_iff (data : Nat → BitVec 8) {dp : BitVec 16} {ptype : BitVec 32}
    (isIpv4 : rteEthIsIpv4Hdr ptype = true) (notBad : dp ≠ badPort) :
    (rfc1812Process data dp ptype).2 = badPort ↔ Malformed data := by
  have bad := rfc1812Bad_iff data ptype
  rw [rfc1812Process_port]
  split
  · rename_i isBad
    exact iff_of_true rfl (bad.mp isBad).2
  · rename_i isGood
    exact iff_of_false notBad fun malformed => isGood (bad.mpr ⟨isIpv4, malformed⟩)

theorem isValidIpv4Pkt_malformed_iff (env : Env) (data : Nat → BitVec 8) {linkLen : BitVec 32}
    {olFlags : BitVec 64} (long : rteIpv4HdrLen ≤ linkLen.toNat)
    (right : Unchecked olFlags → ¬ WrongChecksum env data) :
    (isValidIpv4Pkt env data linkLen olFlags).2 < 0 ↔ Malformed data := by
  have notShort : ¬ linkLen.toNat < rteIpv4HdrLen := Nat.not_lt.mpr long
  have notWrong : ¬ (Unchecked olFlags ∧ WrongChecksum env data) :=
    fun wrong => right wrong.1 wrong.2
  rw [isValidIpv4Pkt_refused_iff, or_iff_left (not_or.mpr ⟨notShort, notWrong⟩)]

/-- The validators refuse the same headers, and they refuse those that the comments ask for
unless the options of the header are cut. -/
theorem validators_follow_iff (env : Env) (data : Nat → BitVec 8) :
    (∀ ptype dp linkLen olFlags, rteEthIsIpv4Hdr ptype = true → dp ≠ badPort →
      rteIpv4HdrLen ≤ linkLen.toNat → (Unchecked olFlags → ¬ WrongChecksum env data) →
      ((rfc1812Process data dp ptype).2 = badPort ↔
        (isValidIpv4Pkt env data linkLen olFlags).2 < 0)) ∧
    (ValidatorsFollow env data ↔ ¬ OptionsCut data) := by
  refine ⟨?_, ?_⟩
  · intro ptype dp linkLen olFlags isIpv4 notBad long right
    rw [rfc1812Process_bad_iff data isIpv4 notBad,
      isValidIpv4Pkt_malformed_iff env data long right]
  · rw [← malformed_iff_refused]
    constructor
    · intro follow
      have vector := follow.vector rtePtypeL3Ipv4 0#16 (by decide) (by decide)
      rwa [rfc1812Process_bad_iff data (by decide) (by decide)] at vector
    · intro same
      constructor
      · intro ptype dp isIpv4 notBad
        rw [rfc1812Process_bad_iff data isIpv4 notBad, same]
      · intro linkLen olFlags long right
        rw [isValidIpv4Pkt_malformed_iff env data long right, same]

/-- A header of six words in a packet of 20 bytes. -/
def cutHeader : Nat → BitVec 8 := fun address =>
  if address = Ipv4Hdr.versionIhl then 0x46#8
  else if address = Ipv4Hdr.totalLength + 1 then 20#8
  else 0#8

/-- Both validators let it pass. -/
theorem validators_follow_cut :
    Rfc1812Refused cutHeader ∧
      (rfc1812Process cutHeader 0#16 rtePtypeL3Ipv4).2 = 0#16 ∧
      (isValidIpv4Pkt default cutHeader 20#32 0#64).2 = 0 ∧
      ¬ ValidatorsFollow default cutHeader := by
  have cut : OptionsCut cutHeader := ⟨by decide, by decide, by decide, by decide⟩
  refine ⟨Or.inr (Or.inr cut.cut), by decide +kernel, by decide +kernel, ?_⟩
  intro follow
  have refused := (follow.vector rtePtypeL3Ipv4 0#16 (by decide) (by decide)).mpr
    (Or.inr (Or.inr cut.cut))
  revert refused
  decide +kernel

end PacketForwarding.L3fwd
