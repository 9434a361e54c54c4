import PacketForwarding.L3fwd.Forwarders
import PacketForwarding.L3fwd.Validity

/-! # The checksum of a packet that is checked before it is updated

The generic paths first check a header and then count the hop in it. Where the program
computes the checksum itself, the check leaves a zero in the field, and the update starts
from there.
-/

namespace PacketForwarding.L3fwd

open Lanes

/-! ## The field is cleared -/

theorem ihl_cleared (data : Nat → BitVec 8) :
    ihl (store16 data Ipv4Hdr.hdrChecksum 0) = ihl data := by
  have before : Ipv4Hdr.versionIhl < Ipv4Hdr.hdrChecksum := by decide
  rw [ihl, ihl, store16, store_of_outside 2 data _ _ _ (Or.inl before)]

/-- Clearing the field takes it out of the sum. -/
theorem hostSum_cleared {data : Nat → BitVec 8} (long : 5 ≤ ihl data) :
    hostSum (store16 data Ipv4Hdr.hdrChecksum 0) + (load16 data Ipv4Hdr.hdrChecksum).toNat =
      hostSum data := by
  let cleared := store16 data Ipv4Hdr.hdrChecksum 0
  let before := fun word => (load16 data (rteEtherHdrLen + 2 * word)).toNat
  let after := fun word => (load16 cleared (rteEtherHdrLen + 2 * word)).toNat
  have inside : 5 < 2 * ihl data := by omega
  have others : ∀ word, word ≠ 5 → after word = before word := by
    intro word different
    refine congrArg BitVec.toNat (load_congr 2 ?_)
    intro index below
    apply store_of_outside 2 data
    simp only [Ipv4Hdr.hdrChecksum, rteEtherHdrLen]
    omega
  have step := sum_map_replace before after (@List.nodup_range (2 * ihl data))
    (List.mem_range.mpr inside) others
  have isZero : after 5 = 0 :=
    congrArg BitVec.toNat (load_store_same 2 data Ipv4Hdr.hdrChecksum 0)
  have sumAfter : hostSum cleared = ((List.range (2 * ihl data)).map after).sum := by
    rw [hostSum, hostWords, ihl_cleared, List.map_map]
    rfl
  have sumBefore : hostSum data = ((List.range (2 * ihl data)).map before).sum := by
    rw [hostSum, hostWords, List.map_map]
    rfl
  have isField : (load16 data Ipv4Hdr.hdrChecksum).toNat = before 5 := rfl
  change hostSum cleared + _ = _
  rw [sumAfter, sumBefore, isField]
  omega

theorem timeToLive_cleared (data : Nat → BitVec 8) :
    store16 data Ipv4Hdr.hdrChecksum 0 Ipv4Hdr.timeToLive = data Ipv4Hdr.timeToLive := by
  have before : Ipv4Hdr.timeToLive < Ipv4Hdr.hdrChecksum := by decide
  exact store_of_outside 2 data _ _ _ (Or.inl before)

/-! ## The hop is counted -/

section Counted

variable {data : Nat → BitVec 8} (long : 5 ≤ ihl data) (alive : data Ipv4Hdr.timeToLive ≠ 0#8)
  (verifies : ChecksumVerifies data) (field : load16 data Ipv4Hdr.hdrChecksum ≠ 0xffff#16)

include long alive verifies field

/-- A field that the check did not touch is updated without a wrap. -/
theorem countHop_verifies : ChecksumVerifies (countHop data) := by
  have positive : 0 < (data Ipv4Hdr.timeToLive).toNat := by
    refine Nat.pos_of_ne_zero fun isZero => alive ?_
    exact BitVec.eq_of_toNat_eq isZero
  have crossed := (Crossed.start data).next long positive
  refine (crossed.verifies_iff long verifies).mpr ?_
  have bound := (load16 data Ipv4Hdr.hdrChecksum).isLt
  have notLast : (load16 data Ipv4Hdr.hdrChecksum).toNat ≠ 0xffff :=
    fun isLast => field (BitVec.eq_of_toNat_eq isLast)
  omega

/-- A field that was cleared is lost, unless it was zero before. -/
theorem countHop_cleared_verifies_iff :
    ChecksumVerifies (countHop (store16 data Ipv4Hdr.hdrChecksum 0)) ↔
      load16 data Ipv4Hdr.hdrChecksum = 0#16 := by
  let cleared := store16 data Ipv4Hdr.hdrChecksum 0
  have longToo : 5 ≤ ihl cleared := (ihl_cleared data).symm ▸ long
  have aliveToo : cleared Ipv4Hdr.timeToLive ≠ 0#8 := by
    change store16 data Ipv4Hdr.hdrChecksum 0 Ipv4Hdr.timeToLive ≠ 0#8
    rw [timeToLive_cleared]
    exact alive
  have isZero : load16 cleared Ipv4Hdr.hdrChecksum = 0#16 :=
    load_store_same 2 data Ipv4Hdr.hdrChecksum 0
  have hop := hostSum_countHop longToo aliveToo
  rw [countHop_hdrChecksum, isZero] at hop
  have sum := hostSum_cleared long
  have divides := (checksumVerifies_iff long).mp verifies
  have bound := (load16 data Ipv4Hdr.hdrChecksum).isLt
  have notLast : (load16 data Ipv4Hdr.hdrChecksum).toNat ≠ 0xffff :=
    fun isLast => field (BitVec.eq_of_toNat_eq isLast)
  have sameSum : hostSum (countHop cleared) + (load16 data Ipv4Hdr.hdrChecksum).toNat =
      hostSum data := by
    have one : (0#16 + 1 : BitVec 16).toNat = 1 := rfl
    have none : (0#16 : BitVec 16).toNat = 0 := rfl
    rw [one, none] at hop
    change hostSum cleared + _ = _ at sum
    omega
  rw [checksumVerifies_iff ((ihl_countHop cleared).symm ▸ longToo)]
  rw [← sameSum] at divides
  constructor
  · intro still
    have leftover := (Nat.dvd_add_right still).mp divides
    have isMultiple := Nat.eq_zero_of_dvd_of_lt leftover (by omega)
    exact BitVec.eq_of_toNat_eq isMultiple
  · intro noField
    rw [noField] at divides
    exact divides

end Counted

/-! ## What is sent -/

/-- A header behind the Ethernet header is all that the checksum depends on. -/
theorem checksumVerifies_congr {data data' : Nat → BitVec 8}
    (same : ∀ address, rteEtherHdrLen ≤ address → data' address = data address) :
    ChecksumVerifies data' ↔ ChecksumVerifies data := by
  have sameLength : ihl data' = ihl data := by
    rw [ihl, ihl, same Ipv4Hdr.versionIhl (Nat.le_refl _)]
  have sameWords : hostWords data' = hostWords data := by
    rw [hostWords, hostWords, sameLength]
    apply List.map_congr_left
    intro word _
    apply load_congr 2
    intro index _
    exact same _ (by omega)
  rw [ChecksumVerifies, ChecksumVerifies, sameWords]

/-- Whatever is sent of a packet has a header that verifies. -/
def Fate.Verifies (fate : Fate) : Prop :=
  ∀ sent, fate = some sent → ChecksumVerifies sent.1.data

theorem Fate.verifies_none : Fate.Verifies none :=
  fun _ impossible => nomatch impossible

theorem Fate.verifies_some (sent : RteMbuf × BitVec 16) :
    Fate.Verifies (some sent) ↔ ChecksumVerifies sent.1.data := by
  constructor
  · intro all
    exact all sent rfl
  · rintro holds _ ⟨rfl⟩
    exact holds

/-- A handled packet is sent unless it was freed. -/
def Handled.fate (result : Handled) : Fate :=
  if result.freed then none else some (result.pkt, result.dstPort)

/-- The validator refuses the header, whatever is wrong with it. -/
def Refused (env : Env) (pkt : RteMbuf) : Prop :=
  Malformed pkt.data ∨ pkt.pktLen.toNat < rteIpv4HdrLen ∨
    (Unchecked pkt.olFlags ∧ WrongChecksum env pkt.data)

instance (env : Env) (pkt : RteMbuf) : Decidable (Refused env pkt) :=
  inferInstanceAs (Decidable (_ ∨ _ ∨ _))

/-- The checksum was left to the program and there was one. -/
def Cleared (pkt : RteMbuf) : Prop :=
  Unchecked pkt.olFlags ∧ load16 pkt.data Ipv4Hdr.hdrChecksum ≠ 0#16

instance (pkt : RteMbuf) : Decidable (Cleared pkt) := inferInstanceAs (Decidable (_ ∧ _))

/-- The packet behind check and update. -/
def RteMbuf.updated (env : Env) (pkt : RteMbuf) (dstPort : BitVec 16) : RteMbuf :=
  let checked := (isValidIpv4Pkt env pkt.data pkt.pktLen pkt.olFlags).1
  { pkt with data := setEthAddrs env (countHop checked) dstPort }

/-- A packet that is not refused is sent with its header updated. -/
def Updates (env : Env) (pkt : RteMbuf) (fate : Fate) : Prop :=
  ∃ dstPort, fate = if Refused env pkt then none else some (pkt.updated env dstPort, dstPort)

theorem updates_of_validated {env : Env} {pkt : RteMbuf} {fate : Fate} (dstPort : BitVec 16)
    (validated : fate = if (isValidIpv4Pkt env pkt.data pkt.pktLen pkt.olFlags).2 < 0 then none
      else some (pkt.updated env dstPort, dstPort)) : Updates env pkt fate := by
  have refused := isValidIpv4Pkt_refused_iff env pkt.data pkt.pktLen pkt.olFlags
  refine ⟨dstPort, validated.trans ?_⟩
  exact if_congr refused rfl rfl

theorem l3fwdEmHandleIpv4_updates (env : Env) (tables : EmTables) (pkt : RteMbuf)
    (portid : BitVec 16) : Updates env pkt (l3fwdEmHandleIpv4 env tables pkt portid).fate := by
  apply updates_of_validated
  rw [l3fwdEmHandleIpv4]
  exact apply_ite Handled.fate _ _ _

theorem lpmSimpleFate_updates (env : Env) (tables : LpmTables) {pkt : RteMbuf}
    (isIpv4 : rteEthIsIpv4Hdr pkt.packetType = true) (portid : BitVec 16) :
    Updates env pkt (lpmSimpleFate env tables pkt portid) := by
  apply updates_of_validated
  rw [lpmSimpleFate, if_pos isIpv4]
  rfl

/-- The header that is sent verifies if the check did not clear its checksum. -/
theorem Updates.verifies_iff {env : Env} {pkt : RteMbuf} {fate : Fate}
    (updates : Updates env pkt fate) (alive : pkt.timeToLive ≠ 0#8)
    (verifies : ChecksumVerifies pkt.data)
    (field : load16 pkt.data Ipv4Hdr.hdrChecksum ≠ 0xffff#16) :
    fate.Verifies ↔ (Cleared pkt → Refused env pkt) := by
  rcases updates with ⟨dstPort, rfl⟩
  by_cases refused : Refused env pkt
  · rw [if_pos refused]
    exact iff_of_true Fate.verifies_none fun _ => refused
  · have long : 5 ≤ ihl pkt.data := by
      by_contra short
      exact refused (Or.inl (Or.inr (Or.inl (Nat.lt_of_not_le short))))
    have notShort : ¬ pkt.pktLen.toNat < rteIpv4HdrLen := fun short =>
      refused (Or.inr (Or.inl short))
    have sent : ChecksumVerifies (pkt.updated env dstPort).data ↔
        ChecksumVerifies (countHop (isValidIpv4Pkt env pkt.data pkt.pktLen pkt.olFlags).1) := by
      apply checksumVerifies_congr
      intro address behind
      exact setEthAddrs_outside env _ dstPort (by rw [rteEtherHdrLen] at behind; omega)
    rw [if_neg refused, Fate.verifies_some, sent, isValidIpv4Pkt_data]
    by_cases unchecked : Unchecked pkt.olFlags
    · rw [if_pos ⟨notShort, unchecked⟩, countHop_cleared_verifies_iff long alive verifies field]
      constructor
      · intro isZero cleared
        exact absurd isZero cleared.2
      · intro condition
        by_contra notZero
        exact refused (condition ⟨unchecked, notZero⟩)
    · rw [if_neg fun both => unchecked both.2]
      exact iff_of_true (countHop_verifies long alive verifies field)
        fun cleared => absurd cleared.1 unchecked

/-- A header that verifies still verifies when it is sent, on both generic paths, if and only
if its checksum was not left to the program, or was zero, or the packet is not sent at all. -/
theorem genericPaths_verify_iff (env : Env) (lpm : LpmTables) (em : EmTables) (pkt : RteMbuf)
    (portid : BitVec 16) (alive : 1 ≤ pkt.timeToLive.toNat)
    (verifies : ChecksumVerifies pkt.data)
    (field : load16 pkt.data Ipv4Hdr.hdrChecksum ≠ 0xffff#16) :
    (rteEthIsIpv4Hdr pkt.packetType = true →
      ((lpmSimpleFate env lpm pkt portid).Verifies ↔ (Cleared pkt → Refused env pkt))) ∧
    ((l3fwdEmHandleIpv4 env em pkt portid).fate.Verifies ↔ (Cleared pkt → Refused env pkt)) := by
  have notZero : pkt.timeToLive ≠ 0#8 := by
    intro isZero
    rw [isZero] at alive
    exact absurd alive (by decide)
  constructor
  · intro isIpv4
    exact (lpmSimpleFate_updates env lpm isIpv4 portid).verifies_iff notZero verifies field
  · exact (l3fwdEmHandleIpv4_updates env em pkt portid).verifies_iff notZero verifies field

/-- The checksum routine of the library: the complement of the sum of the header. -/
def summing : Env :=
  { (default : Env) with rteIpv4Cksum := fun data _ => ~~~ onesSum (hostWords data) }

/-- The sample header in a packet that the device has marked in one way or another. -/
def samplePacket (olFlags : BitVec 64) : RteMbuf :=
  { (default : RteMbuf) with
    packetType := rtePtypeL3Ipv4
    pktLen := 34#32
    olFlags := olFlags
    data := sampleHeader }

/-- The device has found the checksum to be good. -/
theorem genericPaths_verify_iff_good :
    (lpmSimpleFate summing (singleRouteTables 0#32) (samplePacket (1#64 <<< 7)) 0#16).Verifies ∧
      (l3fwdEmHandleIpv4 summing (oneInterfaceTables 0#8) (samplePacket (1#64 <<< 7))
        0#16).fate.Verifies := by
  have notCleared : ¬ Cleared (samplePacket (1#64 <<< 7)) := fun cleared => by
    revert cleared
    decide +kernel
  have both := genericPaths_verify_iff summing (singleRouteTables 0#32) (oneInterfaceTables 0#8)
    (samplePacket (1#64 <<< 7)) 0#16 (by decide) (by decide +kernel) (by decide +kernel)
  exact ⟨(both.1 (by decide)).mpr fun cleared => absurd cleared notCleared,
    both.2.mpr fun cleared => absurd cleared notCleared⟩

/-- The checksum was left to the program, which finds it to be right and loses it. -/
theorem genericPaths_clear :
    let pkt := samplePacket rxIpCksumNone
    pkt.timeToLive = 64#8 ∧ ChecksumVerifies pkt.data ∧
      load16 pkt.data Ipv4Hdr.hdrChecksum = 0xfffe#16 ∧ ¬ Refused summing pkt ∧
      ¬ (lpmSimpleFate summing (singleRouteTables 0#32) pkt 0#16).Verifies ∧
      ¬ (l3fwdEmHandleIpv4 summing (oneInterfaceTables 0#8) pkt 0#16).fate.Verifies := by
  intro pkt
  have verifies : ChecksumVerifies pkt.data := by decide +kernel
  have isField : load16 pkt.data Ipv4Hdr.hdrChecksum = 0xfffe#16 := by decide +kernel
  have field : load16 pkt.data Ipv4Hdr.hdrChecksum ≠ 0xffff#16 := by
    rw [isField]
    decide
  have alive : pkt.timeToLive ≠ 0#8 := by decide
  have cleared : Cleared pkt := ⟨by decide, by rw [isField]; decide⟩
  have accepted : ¬ Refused summing pkt := by decide +kernel
  have lpm := (lpmSimpleFate_updates summing (singleRouteTables 0#32) (by decide)
    0#16).verifies_iff alive verifies field
  have em := (l3fwdEmHandleIpv4_updates summing (oneInterfaceTables 0#8) pkt 0#16).verifies_iff
    alive verifies field
  exact ⟨rfl, verifies, isField, accepted, fun still => accepted (lpm.mp still cleared),
    fun still => accepted (em.mp still cleared)⟩

end PacketForwarding.L3fwd
