import PacketForwarding.Foundation.Layout
import PacketForwarding.L3fwd.Em

/-! # Keys of the exact match tables

The key of a rule is written field by field in network byte order. The key of a packet is
taken from its bytes as they are, with a mask over what is no part of the five tuple. Both
are the same bytes exactly when the five tuples are the same.
-/

namespace PacketForwarding.L3fwd

open Lanes Layout

/-! ## Five tuples -/

/-- `struct ipv4_5tuple`, in host byte order. -/
structure Ipv45tuple where
  ipDst : BitVec 32
  ipSrc : BitVec 32
  portDst : BitVec 16
  portSrc : BitVec 16
  proto : BitVec 8
  deriving DecidableEq, Inhabited

/-- `struct ipv6_5tuple`. The addresses are the bytes of the source, the first one least
significant, the ports are in host byte order. -/
structure Ipv65tuple where
  ipDst : BitVec 128
  ipSrc : BitVec 128
  portDst : BitVec 16
  portSrc : BitVec 16
  proto : BitVec 8
  deriving DecidableEq, Inhabited

/-! ## The key of a rule -/

/-- `union ipv4_5tuple_host`, seen as its fields. -/
structure Ipv45tupleHost where
  pad0 : BitVec 8
  proto : BitVec 8
  pad1 : BitVec 16
  ipSrc : BitVec 32
  ipDst : BitVec 32
  portSrc : BitVec 16
  portDst : BitVec 16

/-- `union ipv6_5tuple_host`, seen as its fields. -/
structure Ipv65tupleHost where
  pad0 : BitVec 16
  proto : BitVec 8
  pad1 : BitVec 8
  ipSrc : BitVec 128
  ipDst : BitVec 128
  portSrc : BitVec 16
  portDst : BitVec 16
  reserve : BitVec 64

def Ipv45tupleHost.fields (key : Ipv45tupleHost) : List Field :=
  [⟨1, key.pad0⟩, ⟨1, key.proto⟩, ⟨2, key.pad1⟩, ⟨4, key.ipSrc⟩, ⟨4, key.ipDst⟩,
    ⟨2, key.portSrc⟩, ⟨2, key.portDst⟩]

def Ipv65tupleHost.fields (key : Ipv65tupleHost) : List Field :=
  [⟨2, key.pad0⟩, ⟨1, key.proto⟩, ⟨1, key.pad1⟩, ⟨16, key.ipSrc⟩, ⟨16, key.ipDst⟩,
    ⟨2, key.portSrc⟩, ⟨2, key.portDst⟩, ⟨8, key.reserve⟩]

/-- The same union, seen as a register. -/
def Ipv45tupleHost.xmm (key : Ipv45tupleHost) : Register :=
  load 16 (bytes key.fields) 0

/-- The same union, seen as three registers. -/
def Ipv65tupleHost.xmm (key : Ipv65tupleHost) : Register × Register × Register :=
  (load 16 (bytes key.fields) 0, load 16 (bytes key.fields) 16, load 16 (bytes key.fields) 32)

def convertIpv45tuple (key1 : Ipv45tuple) : Ipv45tupleHost where
  ipDst := bswap32 key1.ipDst
  ipSrc := bswap32 key1.ipSrc
  portDst := bswap16 key1.portDst
  portSrc := bswap16 key1.portSrc
  proto := key1.proto
  pad0 := 0
  pad1 := 0

def convertIpv65tuple (key1 : Ipv65tuple) : Ipv65tupleHost where
  ipDst := key1.ipDst
  ipSrc := key1.ipSrc
  portDst := bswap16 key1.portDst
  portSrc := bswap16 key1.portSrc
  proto := key1.proto
  pad0 := 0
  pad1 := 0
  reserve := 0

/-! ## Masks -/

def all32Bits : BitVec 32 := 0xffffffff#32

def bit8To15 : BitVec 32 := 0x0000ff00#32

def bit16To23 : BitVec 32 := 0x00ff0000#32

/-- `(rte_xmm_t){.u32 = {...}}`, least significant lane first. -/
def rteXmm (u32 : List (BitVec 32)) : Register :=
  ofLanes 32 4 fun index => u32.getD index 0#32

def emMask0 : Register := rteXmm [bit8To15, all32Bits, all32Bits, all32Bits]

def emMask1 : Register := rteXmm [bit16To23, all32Bits, all32Bits, all32Bits]

def emMask2 : Register := rteXmm [all32Bits, all32Bits, 0, 0]

/-- Set the masks as `populate_ipv4_flow_into_table` and `populate_ipv6_flow_into_table`
do. -/
def EmTables.setMasks (tables : EmTables) : EmTables :=
  { tables with mask0 := emMask0, mask1 := emMask1, mask2 := emMask2 }

/-! ## The five tuple of a packet -/

/-- The length of an IPv4 header in words. -/
def RteMbuf.ihl (pkt : RteMbuf) : Nat :=
  (pkt.data Ipv4Hdr.versionIhl).toNat % 16

/-- The ports stand behind the header and its options. -/
def RteMbuf.ipv45tuple (pkt : RteMbuf) : Ipv45tuple where
  ipDst := bswap32 (load32 pkt.data Ipv4Hdr.dstAddr)
  ipSrc := bswap32 (load32 pkt.data Ipv4Hdr.srcAddr)
  portSrc := bswap16 (load16 pkt.data (rteEtherHdrLen + 4 * pkt.ihl))
  portDst := bswap16 (load16 pkt.data (rteEtherHdrLen + 4 * pkt.ihl + 2))
  proto := pkt.data Ipv4Hdr.nextProtoId

/-- The length of an IPv6 header. -/
def rteIpv6HdrLen : Nat := 40

/-- The five tuple of a packet without extension headers. -/
def RteMbuf.ipv65tuple (pkt : RteMbuf) : Ipv65tuple where
  ipDst := load 16 pkt.data (rteEtherHdrLen + 24)
  ipSrc := load 16 pkt.data (rteEtherHdrLen + 8)
  portSrc := bswap16 (load16 pkt.data (rteEtherHdrLen + rteIpv6HdrLen))
  portDst := bswap16 (load16 pkt.data (rteEtherHdrLen + rteIpv6HdrLen + 2))
  proto := pkt.data (rteEtherHdrLen + 6)

/-! ## Equal keys -/

theorem bswap32_bswap32 (value : BitVec 32) : bswap32 (bswap32 value) = value := by
  apply ext_lanes 8 4
  intro index inside
  rw [bswap32, lane_ofLanes 8 4 _ index inside, bswap32, lane_ofLanes 8 4 _ _ (by omega)]
  congr 1
  omega

theorem bswap16_bswap16 (value : BitVec 16) : bswap16 (bswap16 value) = value := by
  apply ext_lanes 8 2
  intro index inside
  rw [bswap16, lane_ofLanes 8 2 _ index inside, bswap16, lane_ofLanes 8 2 _ _ (by omega)]
  congr 1
  omega

theorem bswap32_eq_iff (left right : BitVec 32) : left = bswap32 right ↔ bswap32 left = right := by
  constructor
  · intro equal
    rw [equal, bswap32_bswap32]
  · intro equal
    rw [← equal, bswap32_bswap32]

theorem bswap16_eq_iff (left right : BitVec 16) : left = bswap16 right ↔ bswap16 left = right := by
  constructor
  · intro equal
    rw [equal, bswap16_bswap16]
  · intro equal
    rw [← equal, bswap16_bswap16]

theorem load_one (memory : Nat → BitVec 8) (offset : Nat) :
    load 1 memory offset = memory offset := by
  rw [load_eq_iff]
  intro index inside
  rw [Nat.lt_one_iff.mp inside]
  exact (BitVec.extractLsb'_eq_self).symm

/-- The bytes of an IPv4 key that are let through: the protocol, then everything behind
the checksum. -/
def ipv4KeyMask (index : Nat) : BitVec 8 :=
  if index = 1 ∨ 4 ≤ index then 0xff#8 else 0#8

/-- The bytes of an IPv6 key that are let through: the protocol, then everything from the
addresses to the ports. -/
def ipv6KeyMask (index : Nat) : BitVec 8 :=
  if index = 2 ∨ (4 ≤ index ∧ index < 40) then 0xff#8 else 0#8

theorem lane_emMask0 : ∀ index, index < 16 → lane 8 emMask0 index = ipv4KeyMask index := by
  decide +kernel

theorem lane_emMask1 : ∀ index, index < 16 → lane 8 emMask1 index = ipv6KeyMask index := by
  decide +kernel

theorem lane_emMask2 :
    ∀ index, index < 16 → lane 8 emMask2 index = ipv6KeyMask (32 + index) := by
  decide +kernel

section Keys

variable (tables : EmTables) (pkt : RteMbuf)

/-- The bytes of a packet from its time to live on, as an IPv4 key takes them. -/
def ipv4KeyBytes : Nat → BitVec 8 :=
  masked (fun index => pkt.data (Ipv4Hdr.timeToLive + index)) ipv4KeyMask

theorem ipv4KeyBytes_load (count offset : Nat)
    (ones : ∀ index, index < count → ipv4KeyMask (offset + index) = 0xff#8) :
    load count (ipv4KeyBytes pkt) offset = load count pkt.data (Ipv4Hdr.timeToLive + offset) := by
  rw [ipv4KeyBytes, load_masked_ones count _ _ _ ones, load_shift]

theorem getIpv45tuple_eq_load :
    getIpv45tuple tables.setMasks pkt = load 16 (ipv4KeyBytes pkt) 0 := by
  change emMaskKey pkt.data Ipv4Hdr.timeToLive emMask0 = _
  rw [emMaskKey, load_and, load_eq_load_iff]
  intro index inside
  rw [Nat.zero_add, masked, lane_emMask0 index inside]
  rfl

/-- The keys are equal if the packet has the fields of the rule where the mask lets them
through. -/
theorem getIpv45tuple_eq_iff (key1 : Ipv45tuple) :
    getIpv45tuple tables.setMasks pkt = (convertIpv45tuple key1).xmm ↔
      pkt.data Ipv4Hdr.nextProtoId = key1.proto ∧
      load32 pkt.data Ipv4Hdr.srcAddr = bswap32 key1.ipSrc ∧
      load32 pkt.data Ipv4Hdr.dstAddr = bswap32 key1.ipDst ∧
      load16 pkt.data (rteEtherHdrLen + 20) = bswap16 key1.portSrc ∧
      load16 pkt.data (rteEtherHdrLen + 22) = bswap16 key1.portDst := by
  have bytewise : getIpv45tuple tables.setMasks pkt = (convertIpv45tuple key1).xmm ↔
      Holds (ipv4KeyBytes pkt) 0 (convertIpv45tuple key1).fields := by
    rw [holds_iff, getIpv45tuple_eq_load, Ipv45tupleHost.xmm, load_eq_load_iff]
    simp only [Nat.zero_add]
    rfl
  have pad0 : load 1 (ipv4KeyBytes pkt) 0 = 0#8 := load_masked_zeros 1 _ _ 0 (by decide)
  have pad1 : load 2 (ipv4KeyBytes pkt) 2 = 0#16 := load_masked_zeros 2 _ _ 2 (by decide)
  have proto := ipv4KeyBytes_load pkt 1 1 (by decide)
  have ipSrc := ipv4KeyBytes_load pkt 4 4 (by decide)
  have ipDst := ipv4KeyBytes_load pkt 4 8 (by decide)
  have portSrc := ipv4KeyBytes_load pkt 2 12 (by decide)
  have portDst := ipv4KeyBytes_load pkt 2 14 (by decide)
  rw [bytewise]
  simp only [Ipv45tupleHost.fields, convertIpv45tuple, Holds, Nat.zero_add, Nat.reduceAdd,
    pad0, pad1, proto, ipSrc, ipDst, portSrc, portDst, load_one, and_true]
  constructor
  · rintro ⟨_, sameProto, _, others⟩
    exact ⟨sameProto, others⟩
  · rintro ⟨sameProto, others⟩
    exact ⟨rfl, sameProto, rfl, others⟩

/-- The bytes of a packet from its payload length on, as an IPv6 key takes them. -/
def ipv6KeyBytes : Nat → BitVec 8 :=
  masked (fun index => pkt.data (ipv6PayloadLen + index)) ipv6KeyMask

theorem ipv6KeyBytes_load (count offset : Nat)
    (ones : ∀ index, index < count → ipv6KeyMask (offset + index) = 0xff#8) :
    load count (ipv6KeyBytes pkt) offset = load count pkt.data (ipv6PayloadLen + offset) := by
  rw [ipv6KeyBytes, load_masked_ones count _ _ _ ones, load_shift]

theorem getIpv65tuple_eq_load :
    getIpv65tuple tables.setMasks pkt =
      (load 16 (ipv6KeyBytes pkt) 0, load 16 (ipv6KeyBytes pkt) 16,
        load 16 (ipv6KeyBytes pkt) 32) := by
  have first : emMaskKey pkt.data ipv6PayloadLen emMask1 = load 16 (ipv6KeyBytes pkt) 0 := by
    rw [emMaskKey, load_and, load_eq_load_iff]
    intro index inside
    rw [Nat.zero_add, masked, lane_emMask1 index inside]
    rfl
  have second : load 16 pkt.data (ipv6PayloadLen + 16) = load 16 (ipv6KeyBytes pkt) 16 :=
    (ipv6KeyBytes_load pkt 16 16 (by decide)).symm
  have third : emMaskKey pkt.data (ipv6PayloadLen + 32) emMask2 =
      load 16 (ipv6KeyBytes pkt) 32 := by
    rw [emMaskKey, load_and, load_eq_load_iff]
    intro index inside
    rw [Nat.zero_add, masked, lane_emMask2 index inside, Nat.add_assoc]
    rfl
  rw [← first, ← second, ← third]
  rfl

theorem getIpv65tuple_eq_iff (key1 : Ipv65tuple) :
    getIpv65tuple tables.setMasks pkt = (convertIpv65tuple key1).xmm ↔
      pkt.data (rteEtherHdrLen + 6) = key1.proto ∧
      load 16 pkt.data (rteEtherHdrLen + 8) = key1.ipSrc ∧
      load 16 pkt.data (rteEtherHdrLen + 24) = key1.ipDst ∧
      load16 pkt.data (rteEtherHdrLen + rteIpv6HdrLen) = bswap16 key1.portSrc ∧
      load16 pkt.data (rteEtherHdrLen + rteIpv6HdrLen + 2) = bswap16 key1.portDst := by
  have bytewise : getIpv65tuple tables.setMasks pkt = (convertIpv65tuple key1).xmm ↔
      Holds (ipv6KeyBytes pkt) 0 (convertIpv65tuple key1).fields := by
    rw [holds_iff, getIpv65tuple_eq_load, Ipv65tupleHost.xmm, Prod.mk.injEq, Prod.mk.injEq,
      load_eq_load_iff, load_eq_load_iff, load_eq_load_iff]
    constructor
    · rintro ⟨first, second, third⟩ index inside
      change index < 48 at inside
      rw [Nat.zero_add]
      rcases Nat.lt_or_ge index 16 with low | notLow
      · have here := first index low
        rwa [Nat.zero_add] at here
      · rcases Nat.lt_or_ge index 32 with middle | high
        · have here := second (index - 16) (by omega)
          rwa [Nat.add_sub_of_le notLow] at here
        · have here := third (index - 32) (by omega)
          rwa [Nat.add_sub_of_le high] at here
    · intro all
      simp only [Nat.zero_add] at all ⊢
      have whole : size (convertIpv65tuple key1).fields = 48 := rfl
      refine ⟨fun index inside => all index ?_, fun index inside => all (16 + index) ?_,
        fun index inside => all (32 + index) ?_⟩
      all_goals omega
  have pad0 : load 2 (ipv6KeyBytes pkt) 0 = 0#16 := load_masked_zeros 2 _ _ 0 (by decide)
  have pad1 : load 1 (ipv6KeyBytes pkt) 3 = 0#8 := load_masked_zeros 1 _ _ 3 (by decide)
  have reserve : load 8 (ipv6KeyBytes pkt) 40 = 0#64 := load_masked_zeros 8 _ _ 40 (by decide)
  have proto := ipv6KeyBytes_load pkt 1 2 (by decide)
  have ipSrc := ipv6KeyBytes_load pkt 16 4 (by decide)
  have ipDst := ipv6KeyBytes_load pkt 16 20 (by decide)
  have portSrc := ipv6KeyBytes_load pkt 2 36 (by decide)
  have portDst := ipv6KeyBytes_load pkt 2 38 (by decide)
  rw [bytewise]
  simp only [Ipv65tupleHost.fields, convertIpv65tuple, Holds, Nat.zero_add, Nat.reduceAdd,
    pad0, pad1, reserve, proto, ipSrc, ipDst, portSrc, portDst, load_one, and_true]
  constructor
  · rintro ⟨_, sameProto, _, src, dst, ports, ports', _⟩
    exact ⟨sameProto, src, dst, ports, ports'⟩
  · rintro ⟨sameProto, src, dst, ports, ports'⟩
    exact ⟨rfl, sameProto, rfl, src, dst, ports, ports', rfl⟩

theorem ipv45tuple_eq_iff (noOptions : pkt.ihl = 5) (rule : Ipv45tuple) :
    pkt.ipv45tuple = rule ↔
      pkt.data Ipv4Hdr.nextProtoId = rule.proto ∧
      load32 pkt.data Ipv4Hdr.srcAddr = bswap32 rule.ipSrc ∧
      load32 pkt.data Ipv4Hdr.dstAddr = bswap32 rule.ipDst ∧
      load16 pkt.data (rteEtherHdrLen + 20) = bswap16 rule.portSrc ∧
      load16 pkt.data (rteEtherHdrLen + 22) = bswap16 rule.portDst := by
  rw [bswap32_eq_iff, bswap32_eq_iff, bswap16_eq_iff, bswap16_eq_iff]
  constructor
  · intro equal
    subst equal
    simp only [RteMbuf.ipv45tuple, noOptions, Nat.reduceMul, Nat.add_assoc, Nat.reduceAdd,
      and_self]
  · rintro ⟨proto, ipSrc, ipDst, portSrc, portDst⟩
    simp only [RteMbuf.ipv45tuple, noOptions, Nat.reduceMul, Nat.add_assoc, Nat.reduceAdd,
      proto, ipSrc, ipDst, portSrc, portDst]

theorem ipv65tuple_eq_iff (rule : Ipv65tuple) :
    pkt.ipv65tuple = rule ↔
      pkt.data (rteEtherHdrLen + 6) = rule.proto ∧
      load 16 pkt.data (rteEtherHdrLen + 8) = rule.ipSrc ∧
      load 16 pkt.data (rteEtherHdrLen + 24) = rule.ipDst ∧
      load16 pkt.data (rteEtherHdrLen + rteIpv6HdrLen) = bswap16 rule.portSrc ∧
      load16 pkt.data (rteEtherHdrLen + rteIpv6HdrLen + 2) = bswap16 rule.portDst := by
  rw [bswap16_eq_iff, bswap16_eq_iff]
  constructor
  · intro equal
    subst equal
    simp only [RteMbuf.ipv65tuple, and_self]
  · rintro ⟨proto, ipSrc, ipDst, portSrc, portDst⟩
    simp only [RteMbuf.ipv65tuple, proto, ipSrc, ipDst, portSrc, portDst]

theorem getIpv45tuple_eq_iff_tuple (noOptions : pkt.ihl = 5) (rule : Ipv45tuple) :
    getIpv45tuple tables.setMasks pkt = (convertIpv45tuple rule).xmm ↔ pkt.ipv45tuple = rule :=
  (getIpv45tuple_eq_iff tables pkt rule).trans (ipv45tuple_eq_iff pkt noOptions rule).symm

theorem getIpv65tuple_eq_iff_tuple (rule : Ipv65tuple) :
    getIpv65tuple tables.setMasks pkt = (convertIpv65tuple rule).xmm ↔ pkt.ipv65tuple = rule :=
  (getIpv65tuple_eq_iff tables pkt rule).trans (ipv65tuple_eq_iff pkt rule).symm

end Keys

/-- The key of a packet is the key of a rule if and only if the five tuples are the same,
so nothing else in the packet matters. -/
theorem emKeys_eq_iff (tables : EmTables) :
    (∀ (pkt : RteMbuf) (rule : Ipv45tuple), pkt.ihl = 5 →
      (getIpv45tuple tables.setMasks pkt = (convertIpv45tuple rule).xmm ↔
        pkt.ipv45tuple = rule)) ∧
    (∀ (pkt : RteMbuf) (rule : Ipv65tuple),
      getIpv65tuple tables.setMasks pkt = (convertIpv65tuple rule).xmm ↔
        pkt.ipv65tuple = rule) ∧
    (∀ pkt pkt' : RteMbuf, pkt.ihl = 5 → pkt'.ihl = 5 → pkt.ipv45tuple = pkt'.ipv45tuple →
      getIpv45tuple tables.setMasks pkt = getIpv45tuple tables.setMasks pkt') ∧
    (∀ pkt pkt' : RteMbuf, pkt.ipv65tuple = pkt'.ipv65tuple →
      getIpv65tuple tables.setMasks pkt = getIpv65tuple tables.setMasks pkt') := by
  refine ⟨fun pkt rule noOptions => getIpv45tuple_eq_iff_tuple tables pkt noOptions rule,
    fun pkt rule => getIpv65tuple_eq_iff_tuple tables pkt rule, ?_, ?_⟩
  · intro pkt pkt' noOptions noOptions' equal
    have own := (getIpv45tuple_eq_iff_tuple tables pkt noOptions _).mpr equal
    have other := (getIpv45tuple_eq_iff_tuple tables pkt' noOptions' _).mpr rfl
    exact own.trans other.symm
  · intro pkt pkt' equal
    have own := (getIpv65tuple_eq_iff_tuple tables pkt _).mpr equal
    have other := (getIpv65tuple_eq_iff_tuple tables pkt' _).mpr rfl
    exact own.trans other.symm

/-- A packet of 20 bytes of IPv4 header, protocol 17, and everything else zero. -/
def bareUdp : RteMbuf :=
  { (default : RteMbuf) with
    data := fun address =>
      if address = Ipv4Hdr.versionIhl then 0x45#8
      else if address = Ipv4Hdr.nextProtoId then 17#8
      else 0#8 }

theorem emKeys_eq_iff_bareUdp :
    getIpv45tuple (oneInterfaceTables 0#8).setMasks bareUdp =
      (convertIpv45tuple { (default : Ipv45tuple) with proto := 17#8 }).xmm := by
  refine ((emKeys_eq_iff (oneInterfaceTables 0#8)).1 bareUdp _ (by decide)).mpr ?_
  decide +kernel

end PacketForwarding.L3fwd
