import PacketForwarding.L3fwd.EmKeys

/-! # Keys of several packets at once

Bulk lookups take the keys of packets by extractors of their own, one pair for each vector
engine. They are compared with the keys that single lookups take.
-/

namespace PacketForwarding.L3fwd

open Lanes Layout

/-! ## SSE -/

namespace Sse

/-- `get_ipv4_5tuple` -/
def getIpv45tuple (m0 : RteMbuf) (mask0 : Register) : Register :=
  let tmpdata0 := load 16 m0.data Ipv4Hdr.timeToLive
  tmpdata0 &&& mask0

/-- `get_ipv6_5tuple` -/
def getIpv65tuple (m0 : RteMbuf) (mask0 mask1 : Register) : Register × Register × Register :=
  let tmpdata0 := load 16 m0.data ipv6PayloadLen
  let tmpdata1 := load 16 m0.data (ipv6PayloadLen + 16)
  let tmpdata2 := load 16 m0.data (ipv6PayloadLen + 16 + 16)
  (tmpdata0 &&& mask0, tmpdata1, tmpdata2 &&& mask1)

end Sse

/-! ## NEON -/

namespace Neon

/-- `vld1q_s32` -/
def vld1qS32 (memory : Nat → BitVec 8) (offset : Nat) : Register :=
  ofLanes 32 4 fun index => load32 memory (offset + 4 * index)

/-- `vandq_s32` -/
def vandqS32 (left right : Register) : Register :=
  ofLanes 32 4 fun index => lane 32 left index &&& lane 32 right index

def emMaskKey (data : Nat → BitVec 8) (key : Nat) (mask : Register) : Register :=
  vandqS32 (vld1qS32 data key) mask

/-- The key in `em_get_ipv4_dst_port` -/
def emIpv4Key (tables : EmTables) (pkt : RteMbuf) : Register :=
  emMaskKey pkt.data Ipv4Hdr.timeToLive tables.mask0

/-- The key in `em_get_ipv6_dst_port` -/
def emIpv6Key (tables : EmTables) (pkt : RteMbuf) : Register × Register × Register :=
  (emMaskKey pkt.data ipv6PayloadLen tables.mask1,
    load 16 pkt.data (ipv6PayloadLen + 16),
    emMaskKey pkt.data (ipv6PayloadLen + 16 + 16) tables.mask2)

/-- `get_ipv4_5tuple` -/
def getIpv45tuple (m0 : RteMbuf) (mask0 : Register) : Register :=
  let tmpdata0 := vld1qS32 m0.data Ipv4Hdr.timeToLive
  vandqS32 tmpdata0 mask0

/-- `get_ipv6_5tuple`. The offsets are half of those in the other version. -/
def getIpv65tuple (m0 : RteMbuf) (mask0 mask1 : Register) : Register × Register × Register :=
  let tmpdata0 := vld1qS32 m0.data ipv6PayloadLen
  let tmpdata1 := vld1qS32 m0.data (ipv6PayloadLen + 8)
  let tmpdata2 := vld1qS32 m0.data (ipv6PayloadLen + 16)
  (vandqS32 tmpdata0 mask0, tmpdata1, vandqS32 tmpdata2 mask1)

theorem vld1qS32_eq (memory : Nat → BitVec 8) (offset : Nat) :
    vld1qS32 memory offset = load 16 memory offset := by
  apply ext_lanes 8 16
  intro index inside
  have split : 4 * (index / 4) + index % 4 = index := Nat.div_add_mod index 4
  have word := lane_ofLanes_narrow 8 4 4 (fun index => load32 memory (offset + 4 * index))
    (index / 4) (index % 4) (Nat.mod_lt index (by decide)) (by omega)
  rw [split] at word
  rw [lane_load 16 memory offset index inside]
  refine word.trans ?_
  rw [load32, lane_load 4 memory _ _ (Nat.mod_lt index (by decide)), Nat.add_assoc, split]

theorem vandqS32_eq (left right : Register) : vandqS32 left right = left &&& right := by
  apply ext_lanes 32 4
  intro index inside
  rw [vandqS32, lane_ofLanes 32 4 _ index inside, lane_and]

theorem emMaskKey_eq (data : Nat → BitVec 8) (key : Nat) (mask : Register) :
    emMaskKey data key mask = L3fwd.emMaskKey data key mask := by
  rw [emMaskKey, vld1qS32_eq, vandqS32_eq, L3fwd.emMaskKey]

/-- Single lookups take the same keys with both vector engines. -/
theorem emIpv4Key_eq (tables : EmTables) (pkt : RteMbuf) :
    emIpv4Key tables pkt = L3fwd.getIpv45tuple tables pkt :=
  emMaskKey_eq pkt.data _ tables.mask0

theorem emIpv6Key_eq (tables : EmTables) (pkt : RteMbuf) :
    emIpv6Key tables pkt = L3fwd.getIpv65tuple tables pkt := by
  rw [emIpv6Key, emMaskKey_eq, emMaskKey_eq]
  rfl

end Neon

/-! ## The comparison -/

/-- The extractors take the keys that single lookups take of the same packet. -/
structure SameKeys (tables : EmTables) (pkt : RteMbuf) : Prop where
  sseIpv4 : Sse.getIpv45tuple pkt tables.mask0 = getIpv45tuple tables pkt
  sseIpv6 : Sse.getIpv65tuple pkt tables.mask1 tables.mask2 = getIpv65tuple tables pkt
  neonIpv4 : Neon.getIpv45tuple pkt tables.mask0 = Neon.emIpv4Key tables pkt
  neonIpv6 : Neon.getIpv65tuple pkt tables.mask1 tables.mask2 = Neon.emIpv6Key tables pkt

/-- The bytes of a packet that are read eight or sixteen bytes too early are those that
should have been read. -/
structure EarlyBytesAgree (pkt : RteMbuf) (mask2 : Register) : Prop where
  second : ∀ i, i < 16 →
    pkt.data (ipv6PayloadLen + 8 + i) = pkt.data (ipv6PayloadLen + 16 + i)
  third : ∀ i, i < 16 →
    pkt.data (ipv6PayloadLen + 16 + i) &&& lane 8 mask2 i =
      pkt.data (ipv6PayloadLen + 32 + i) &&& lane 8 mask2 i

theorem load_and_eq_iff (data : Nat → BitVec 8) (offset offset' : Nat) (mask : Register) :
    load 16 data offset &&& mask = load 16 data offset' &&& mask ↔
      ∀ i, i < 16 → data (offset + i) &&& lane 8 mask i = data (offset' + i) &&& lane 8 mask i := by
  rw [load_and 16 data offset mask, load_and 16 data offset' mask, load_eq_load_iff]
  apply forall_congr'
  intro i
  rw [Nat.zero_add, masked, masked]

theorem neonIpv6_iff (tables : EmTables) (pkt : RteMbuf) :
    Neon.getIpv65tuple pkt tables.mask1 tables.mask2 = Neon.emIpv6Key tables pkt ↔
      EarlyBytesAgree pkt tables.mask2 := by
  have second := load_eq_load_iff 16 pkt.data pkt.data (ipv6PayloadLen + 8) (ipv6PayloadLen + 16)
  have third := load_and_eq_iff pkt.data (ipv6PayloadLen + 16) (ipv6PayloadLen + 32) tables.mask2
  simp only [Neon.getIpv65tuple, Neon.emIpv6Key, Neon.emMaskKey, Neon.vandqS32_eq,
    Neon.vld1qS32_eq, Prod.mk.injEq, true_and]
  rw [second, Nat.add_assoc, third]
  exact ⟨fun both => ⟨both.1, both.2⟩, fun early => ⟨early.second, early.third⟩⟩

/-- The keys are the same if and only if the bytes read too early do not matter. Only the
NEON version for IPv6 reads any. -/
theorem sameKeys_iff (tables : EmTables) (pkt : RteMbuf) :
    SameKeys tables pkt ↔ EarlyBytesAgree pkt tables.mask2 := by
  rw [← neonIpv6_iff]
  constructor
  · exact fun same => same.neonIpv6
  · exact fun neonIpv6 => ⟨rfl, rfl, rfl, neonIpv6⟩

/-- An IPv6 packet of TCP whose source address is 2001:0:1::. -/
theorem sameKeys_early :
    let pkt : RteMbuf := { (default : RteMbuf) with
      packetType := rtePtypeL3Ipv6 ||| 0x100#32
      data := fun address =>
        if address = rteEtherHdrLen then 0x60#8
        else if address = rteEtherHdrLen + 5 then 0x14#8
        else if address = rteEtherHdrLen + 6 then 0x06#8
        else if address = rteEtherHdrLen + 8 then 0x20#8
        else if address = rteEtherHdrLen + 9 then 0x01#8
        else if address = rteEtherHdrLen + 13 then 0x01#8
        else 0#8 }
    ¬ SameKeys (oneInterfaceTables 5#8).setMasks pkt := by
  intro pkt same
  have early := (neonIpv6_iff _ pkt).mp same.neonIpv6
  exact absurd (early.second 1 (by decide)) (by decide)

end PacketForwarding.L3fwd
