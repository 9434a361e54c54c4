import PacketForwarding.Foundation.OnesComplement
import PacketForwarding.L3fwd.Rfc1812

/-! # The header checksum along a path of forwarders

Every forwarder decrements the time to live and increments the checksum field as its
little-endian host reads it. In the byte order of the host the two changes cancel,
until the increment wraps around: it then loses the carry that one's complement would
add back in.
-/

namespace PacketForwarding.L3fwd

open Lanes

/-! ## The checksum -/

/-- The header length in 32-bit words. -/
def ihl (data : Nat → BitVec 8) : Nat :=
  (data Ipv4Hdr.versionIhl &&& 0xf#8).toNat

/-- The 16-bit words of the header as the host reads them. -/
def hostWords (data : Nat → BitVec 8) : List (BitVec 16) :=
  (List.range (2 * ihl data)).map fun word => load16 data (rteEtherHdrLen + 2 * word)

/-- The header with its checksum sums up to all ones, in network byte order. -/
def ChecksumVerifies (data : Nat → BitVec 8) : Prop :=
  onesSum ((hostWords data).map bswap16) = 0xffff#16

instance (data : Nat → BitVec 8) : Decidable (ChecksumVerifies data) :=
  inferInstanceAs (Decidable (_ = _))

/-- The packet data behind `n` forwarders, whatever destination ports they choose. -/
def crossForwarders (ptype : BitVec 32) (dp : Nat → BitVec 16) :
    Nat → (Nat → BitVec 8) → (Nat → BitVec 8)
  | 0, data => data
  | n + 1, data => (rfc1812Process (crossForwarders ptype dp n data) (dp n) ptype).1

/-! ## The sum of a header -/

def hostSum (data : Nat → BitVec 8) : Nat :=
  ((hostWords data).map BitVec.toNat).sum

/-- A header with a header length verifies if the host's sum is divisible. -/
theorem checksumVerifies_iff {data : Nat → BitVec 8} (long : 5 ≤ ihl data) :
    ChecksumVerifies data ↔ 2 ^ 16 - 1 ∣ hostSum data := by
  have someWord : ∃ word ∈ hostWords data, word ≠ 0#16 := by
    refine ⟨load16 data rteEtherHdrLen, ?_, ?_⟩
    · exact List.mem_map.mpr ⟨0, List.mem_range.mpr (by omega), rfl⟩
    · intro isZero
      have firstByte := lane_load 2 data rteEtherHdrLen 0 (by decide)
      have zeroByte : lane 8 (load16 data rteEtherHdrLen) 0 = 0#8 := by
        rw [isZero]
        decide
      have noLength : ihl data = 0 := by
        rw [ihl, Ipv4Hdr.versionIhl, ← Nat.add_zero rteEtherHdrLen, ← firstByte]
        change ((lane 8 (load16 data rteEtherHdrLen) 0) &&& 0xf#8).toNat = 0
        rw [zeroByte]
        decide
      omega
  have ones : (0xffff#16 : BitVec 16) = BitVec.allOnes 16 := by decide
  rw [ChecksumVerifies, ones, onesSum_bswap16_iff, onesSum_eq_allOnes_iff (by decide)]
  exact and_iff_left someWord

/-! ## One forwarder -/

theorem toNat_load16 (data : Nat → BitVec 8) (address : Nat) :
    (load16 data address).toNat = (data address).toNat + 256 * (data (address + 1)).toNat := by
  have bytes := toNat_eq_bytes (load16 data address)
  rw [load16, lane_load 2 data address 0 (by decide), lane_load 2 data address 1 (by decide)]
    at bytes
  exact bytes

theorem ihl_countHop (data : Nat → BitVec 8) : ihl (countHop data) = ihl data := by
  have kept : countHop data Ipv4Hdr.versionIhl = data Ipv4Hdr.versionIhl :=
    countHop_of_ne data (by decide) (Or.inl (by decide))
  rw [ihl, ihl, kept]

theorem countHop_timeToLive (data : Nat → BitVec 8) :
    countHop data Ipv4Hdr.timeToLive = data Ipv4Hdr.timeToLive - 1 := by
  have before : Ipv4Hdr.timeToLive < Ipv4Hdr.hdrChecksum := by decide
  rw [countHop, store16, store_of_outside 2 _ _ _ _ (Or.inl before), Function.update_self]

theorem countHop_hdrChecksum (data : Nat → BitVec 8) :
    load16 (countHop data) Ipv4Hdr.hdrChecksum = load16 data Ipv4Hdr.hdrChecksum + 1 := by
  have otherBytes : load16
      (Function.update data Ipv4Hdr.timeToLive (data Ipv4Hdr.timeToLive - 1))
      Ipv4Hdr.hdrChecksum = load16 data Ipv4Hdr.hdrChecksum := by
    apply load_congr 2
    intro index _
    apply Function.update_of_ne
    simp only [Ipv4Hdr.hdrChecksum, Ipv4Hdr.timeToLive]
    omega
  have stored := load_store_same 2
    (Function.update data Ipv4Hdr.timeToLive (data Ipv4Hdr.timeToLive - 1)) Ipv4Hdr.hdrChecksum
    (load16 (Function.update data Ipv4Hdr.timeToLive (data Ipv4Hdr.timeToLive - 1))
      Ipv4Hdr.hdrChecksum + 1)
  rw [otherBytes] at stored
  rw [countHop, otherBytes]
  exact stored

/-- While the time to live lasts, a hop changes the sum by the two fields only. -/
theorem hostSum_countHop {data : Nat → BitVec 8} (long : 5 ≤ ihl data)
    (alive : data Ipv4Hdr.timeToLive ≠ 0#8) :
    hostSum (countHop data) + 1 + (load16 data Ipv4Hdr.hdrChecksum).toNat =
      hostSum data + (load16 (countHop data) Ipv4Hdr.hdrChecksum).toNat := by
  let before := fun word => (load16 data (rteEtherHdrLen + 2 * word)).toNat
  let after := fun word => (load16 (countHop data) (rteEtherHdrLen + 2 * word)).toNat
  let middle := Function.update before 4 (after 4)
  have words := @List.nodup_range (2 * ihl data)
  have ttlWord : 4 < 2 * ihl data := by omega
  have checksumWord : 5 < 2 * ihl data := by omega
  have ttlStep := sum_map_replace before middle words (List.mem_range.mpr ttlWord)
    (fun other different => Function.update_of_ne different _ _)
  have checksumStep := sum_map_replace middle after words (List.mem_range.mpr checksumWord) (by
      intro other different
      by_cases isTtl : other = 4
      · subst isTtl
        exact (Function.update_self 4 (after 4) before).symm
      · have untouched : after other = before other := by
          refine congrArg BitVec.toNat (load_congr 2 ?_)
          intro index inside
          apply countHop_of_ne
          · simp only [Ipv4Hdr.timeToLive, rteEtherHdrLen]
            omega
          · simp only [Ipv4Hdr.hdrChecksum, rteEtherHdrLen]
            omega
        rw [untouched]
        exact (Function.update_of_ne isTtl _ _).symm)
  have ttlWord : after 4 + 1 = before 4 := by
    have protocol : countHop data (Ipv4Hdr.timeToLive + 1) = data (Ipv4Hdr.timeToLive + 1) :=
      countHop_of_ne data (by decide) (Or.inl (by decide))
    have afterWord := toNat_load16 (countHop data) Ipv4Hdr.timeToLive
    have beforeWord := toNat_load16 data Ipv4Hdr.timeToLive
    rw [countHop_timeToLive, protocol] at afterWord
    have positive : 1 ≤ (data Ipv4Hdr.timeToLive).toNat := by
      refine Nat.one_le_iff_ne_zero.mpr fun isZero => alive ?_
      exact BitVec.eq_of_toNat_eq isZero
    have decremented : (data Ipv4Hdr.timeToLive - 1).toNat =
        (data Ipv4Hdr.timeToLive).toNat - 1 :=
      BitVec.toNat_sub_of_le positive
    change (load16 (countHop data) Ipv4Hdr.timeToLive).toNat + 1 =
      (load16 data Ipv4Hdr.timeToLive).toNat
    omega
  have middleTtl : middle 4 = after 4 := Function.update_self 4 (after 4) before
  have middleChecksum : middle 5 = before 5 := Function.update_of_ne (by decide) _ _
  have sumAfter : hostSum (countHop data) =
      ((List.range (2 * ihl data)).map after).sum := by
    rw [hostSum, hostWords, ihl_countHop, List.map_map]
    rfl
  have sumBefore : hostSum data = ((List.range (2 * ihl data)).map before).sum := by
    rw [hostSum, hostWords, List.map_map]
    rfl
  have isBefore : (load16 data Ipv4Hdr.hdrChecksum).toNat = before 5 := rfl
  have isAfter : (load16 (countHop data) Ipv4Hdr.hdrChecksum).toNat = after 5 := rfl
  rw [sumAfter, sumBefore, isBefore, isAfter]
  omega

/-! ## A path of forwarders -/

/-- What `n` forwarders that count the hop make of a header: the checksum field has
wrapped around or not, and the sum knows. -/
structure Crossed (start : Nat → BitVec 8) (n : Nat) (data : Nat → BitVec 8) : Prop where
  ihl : ihl data = ihl start
  timeToLive : (data Ipv4Hdr.timeToLive).toNat + n = (start Ipv4Hdr.timeToLive).toNat
  checksum : (load16 data Ipv4Hdr.hdrChecksum).toNat =
    ((load16 start Ipv4Hdr.hdrChecksum).toNat + n) % 2 ^ 16
  sum : hostSum data + (if (load16 start Ipv4Hdr.hdrChecksum).toNat + n < 2 ^ 16 then 0
    else 2 ^ 16) = hostSum start

theorem Crossed.start (data : Nat → BitVec 8) : Crossed data 0 data where
  ihl := rfl
  timeToLive := rfl
  checksum := (Nat.mod_eq_of_lt (load16 data Ipv4Hdr.hdrChecksum).isLt).symm
  sum := by
    rw [Nat.add_zero, if_pos (load16 data Ipv4Hdr.hdrChecksum).isLt, Nat.add_zero]

theorem Crossed.next {start data : Nat → BitVec 8} {n : Nat} (crossed : Crossed start n data)
    (long : 5 ≤ L3fwd.ihl start) (alive : n < (start Ipv4Hdr.timeToLive).toNat) :
    Crossed start (n + 1) (countHop data) := by
  have ttl := crossed.timeToLive
  have positive : 1 ≤ (data Ipv4Hdr.timeToLive).toNat := by omega
  have notZero : data Ipv4Hdr.timeToLive ≠ 0#8 := by
    intro isZero
    rw [isZero] at positive
    exact absurd positive (by decide)
  have hop := hostSum_countHop (crossed.ihl.symm ▸ long) notZero
  have decremented : (data Ipv4Hdr.timeToLive - 1).toNat =
      (data Ipv4Hdr.timeToLive).toNat - 1 := BitVec.toNat_sub_of_le positive
  have incremented : (load16 data Ipv4Hdr.hdrChecksum + 1).toNat =
      ((load16 data Ipv4Hdr.hdrChecksum).toNat + 1) % 2 ^ 16 :=
    BitVec.toNat_add _ _
  have checksum := crossed.checksum
  have sum := crossed.sum
  have ttlLt := (start Ipv4Hdr.timeToLive).isLt
  have checksumLt := (load16 start Ipv4Hdr.hdrChecksum).isLt
  rw [countHop_hdrChecksum, incremented] at hop
  refine ⟨(ihl_countHop data).trans crossed.ihl, ?_, ?_, ?_⟩
  · rw [countHop_timeToLive, decremented]
    omega
  · rw [countHop_hdrChecksum, incremented, checksum]
    omega
  · split at sum
    · split
      · omega
      · omega
    · split
      · omega
      · omega

/-- The header verifies behind the forwarders if and only if its checksum field has
not wrapped around. -/
theorem Crossed.verifies_iff {start data : Nat → BitVec 8} {n : Nat}
    (crossed : Crossed start n data) (long : 5 ≤ L3fwd.ihl start)
    (verifies : ChecksumVerifies start) :
    ChecksumVerifies data ↔ (load16 start Ipv4Hdr.hdrChecksum).toNat + n < 2 ^ 16 := by
  have divides := (checksumVerifies_iff long).mp verifies
  have sum := crossed.sum
  rw [checksumVerifies_iff (crossed.ihl.symm ▸ long)]
  split at sum
  · rename_i noWrap
    rw [Nat.add_zero] at sum
    exact ⟨fun _ => noWrap, fun _ => sum ▸ divides⟩
  · rename_i wrapped
    refine ⟨fun still => absurd ?_ wrapped, fun noWrap => absurd noWrap wrapped⟩
    rw [← sum] at divides
    have leftover := (Nat.dvd_add_right still).mp divides
    exact absurd leftover (by decide)

theorem crossForwarders_crossed (ptype : BitVec 32) (dp : Nat → BitVec 16)
    {data : Nat → BitVec 8} (isIpv4 : rteEthIsIpv4Hdr ptype = true) (long : 5 ≤ ihl data) :
    ∀ n, n ≤ (data Ipv4Hdr.timeToLive).toNat →
      Crossed data n (crossForwarders ptype dp n data) := by
  intro n
  induction n with
  | zero =>
      intro _
      exact Crossed.start data
  | succ n induction =>
      intro alive
      rw [crossForwarders, rfc1812Process_data, if_pos isIpv4]
      exact (induction (Nat.le_of_succ_le alive)).next long alive

theorem crossForwarders_notIpv4 (ptype : BitVec 32) (dp : Nat → BitVec 16)
    (data : Nat → BitVec 8) (notIpv4 : ¬ rteEthIsIpv4Hdr ptype = true) (n : Nat) :
    crossForwarders ptype dp n data = data := by
  induction n with
  | zero => rfl
  | succ n induction =>
      rw [crossForwarders, rfc1812Process_data, if_neg notIpv4, induction]

/-- A verifying header still verifies after every hop, for as many hops as its time to
live allows, if and only if no increment of the checksum field wraps around. -/
theorem crossForwarders_verifies_iff (ptype : BitVec 32) (dp : Nat → BitVec 16)
    (data : Nat → BitVec 8) (long : 5 ≤ ihl data) (verifies : ChecksumVerifies data)
    (n : Nat) (alive : n ≤ (data Ipv4Hdr.timeToLive).toNat) :
    (∀ k, k ≤ n → ChecksumVerifies (crossForwarders ptype dp k data)) ↔
      (rteEthIsIpv4Hdr ptype = true →
        (load16 data Ipv4Hdr.hdrChecksum).toNat + n < 2 ^ 16) := by
  constructor
  · intro all isIpv4
    have last := crossForwarders_crossed ptype dp isIpv4 long n alive
    exact (last.verifies_iff long verifies).mp (all n (Nat.le_refl n))
  · intro noWrap k inside
    by_cases isIpv4 : rteEthIsIpv4Hdr ptype = true
    · have crossed := crossForwarders_crossed ptype dp isIpv4 long k (Nat.le_trans inside alive)
      exact (crossed.verifies_iff long verifies).mpr
        (Nat.lt_of_le_of_lt (Nat.add_le_add_left inside _) (noWrap isIpv4))
    · rw [crossForwarders_notIpv4 ptype dp data isIpv4 k]
      exact verifies

/-- A header of 20 bytes from 10.0.0.1 to 10.0.103.217, with its checksum. -/
def sampleHeader : Nat → BitVec 8 := fun address =>
  ([0x45, 0x00, 0x00, 0x14, 0x00, 0x00, 0x00, 0x00, 0x40, 0x11, 0xfe, 0xff,
    0x0a, 0x00, 0x00, 0x01, 0x0a, 0x00, 0x67, 0xd9] : List (BitVec 8)).getD
      (address - rteEtherHdrLen) 0#8

theorem crossForwarders_verifies_iff_oneHop :
    ChecksumVerifies (crossForwarders rtePtypeL3Ipv4 (fun _ => 0#16) 1 sampleHeader) :=
  (crossForwarders_verifies_iff rtePtypeL3Ipv4 (fun _ => 0#16) sampleHeader
    (by decide) (by decide +kernel) 1 (by decide)).mpr (fun _ => by decide +kernel) 1
    (Nat.le_refl 1)

/-- Its second hop loses the carry. -/
theorem crossForwarders_twoHops :
    5 ≤ ihl sampleHeader ∧ ChecksumVerifies sampleHeader ∧
      2 ≤ (sampleHeader Ipv4Hdr.timeToLive).toNat ∧
      ¬ ChecksumVerifies (crossForwarders rtePtypeL3Ipv4 (fun _ => 0#16) 2 sampleHeader) := by
  decide +kernel

end PacketForwarding.L3fwd
