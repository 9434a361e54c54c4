import PacketForwarding.Foundation.Cells
import PacketForwarding.L3fwd.Lcore

/-! # RFC 1812 processing and the new Ethernet addresses

Packet data is addressed from the start of the Ethernet header. Multi-byte fields
are read as a little-endian machine reads them, without a byte swap.
-/

namespace PacketForwarding.L3fwd

open Lanes Cells

/-! ## Packet types and header layout -/

def rtePtypeL3Ipv4 : BitVec 32 := 0x10#32

def rtePtypeL3Ipv6 : BitVec 32 := 0x40#32

/-- `RTE_ETH_IS_IPV4_HDR` -/
def rteEthIsIpv4Hdr (ptype : BitVec 32) : Bool :=
  ptype &&& rtePtypeL3Ipv4 != 0#32

/-- `RTE_ETH_IS_IPV6_HDR` -/
def rteEthIsIpv6Hdr (ptype : BitVec 32) : Bool :=
  ptype &&& rtePtypeL3Ipv6 != 0#32

/-- `sizeof(struct rte_ether_hdr)` -/
def rteEtherHdrLen : Nat := 14

/-- `sizeof(struct rte_ipv4_hdr)` -/
def rteIpv4HdrLen : Nat := 20

namespace Ipv4Hdr

def versionIhl : Nat := rteEtherHdrLen

def totalLength : Nat := rteEtherHdrLen + 2

def timeToLive : Nat := rteEtherHdrLen + 8

def nextProtoId : Nat := rteEtherHdrLen + 9

def hdrChecksum : Nat := rteEtherHdrLen + 10

def srcAddr : Nat := rteEtherHdrLen + 12

def dstAddr : Nat := rteEtherHdrLen + 16

end Ipv4Hdr

/-! ## The checks -/

def ipv4MinVerIhl : BitVec 8 := 0x45#8

def ipv4MaxVerIhl : BitVec 8 := 0x4f#8

def ipv4MaxVerIhlDiff : BitVec 8 := ipv4MaxVerIhl - ipv4MinVerIhl

/-- Minimum value of IPv4 total length in network byte order. -/
def ipv4MinLenBe : BitVec 16 := BitVec.ofNat 16 (rteIpv4HdrLen <<< 8)

/-- Update time to live and header checksum: both fields change by one. -/
def countHop (data : Nat → BitVec 8) : Nat → BitVec 8 :=
  let data := Function.update data Ipv4Hdr.timeToLive (data Ipv4Hdr.timeToLive - 1)
  store16 data Ipv4Hdr.hdrChecksum (load16 data Ipv4Hdr.hdrChecksum + 1)

/-- Count the hop and, if the header is malformed, make the destination port bad. -/
def rfc1812Process (data : Nat → BitVec 8) (dp : BitVec 16) (ptype : BitVec 32) :
    (Nat → BitVec 8) × BitVec 16 :=
  if rteEthIsIpv4Hdr ptype then
    let ihl := data Ipv4Hdr.versionIhl - ipv4MinVerIhl
    let data := countHop data
    let totalLength := load16 data Ipv4Hdr.totalLength
    if ipv4MaxVerIhlDiff < ihl ∨
        (totalLength.setWidth 8 = 0#8 ∧ totalLength < ipv4MinLenBe) then
      (data, badPort)
    else
      (data, dp)
  else
    (data, dp)

/-! ## The checks of the generic path -/

/-- `RTE_MBUF_F_RX_IP_CKSUM_MASK` -/
def rxIpCksumMask : BitVec 64 := (1#64 <<< 4) ||| (1#64 <<< 7)

/-- `RTE_MBUF_F_RX_IP_CKSUM_NONE` -/
def rxIpCksumNone : BitVec 64 := (1#64 <<< 4) ||| (1#64 <<< 7)

/-- A negative result is the number of the check that failed. The checksum field is
left at zero when the checksum had to be computed. -/
def isValidIpv4Pkt (env : Env) (data : Nat → BitVec 8) (linkLen : BitVec 32)
    (olFlags : BitVec 64) : (Nat → BitVec 8) × Int :=
  if linkLen.toNat < rteIpv4HdrLen then
    (data, -1)
  else
    let actualCksum := load16 data Ipv4Hdr.hdrChecksum
    let unchecked := olFlags &&& rxIpCksumMask = rxIpCksumNone
    let data := if unchecked then store16 data Ipv4Hdr.hdrChecksum 0 else data
    if unchecked ∧ actualCksum ≠ env.rteIpv4Cksum data rteEtherHdrLen then
      (data, -2)
    else if data Ipv4Hdr.versionIhl >>> 4 ≠ 4#8 then
      (data, -3)
    else if data Ipv4Hdr.versionIhl &&& 0xf#8 < 5#8 then
      (data, -4)
    else if (bswap16 (load16 data Ipv4Hdr.totalLength)).toNat < rteIpv4HdrLen then
      (data, -5)
    else
      (data, 0)

/-- Write new destination and source addresses for a port. The eight bytes of the
first write reach into the source address. -/
def setEthAddrs (env : Env) (data : Nat → BitVec 8) (port : BitVec 16) : Nat → BitVec 8 :=
  let data := store 8 data 0 (env.destEthAddr port.toNat)
  store 6 data 6 (env.portsEthAddr port.toNat)

/-! ## The processing of the vector path -/

/-- Update first 12 bytes, keep rest bytes intact. -/
def maskEth : BitVec 8 := 0x3f#8

def RteMbuf.storeEth (mbuf : RteMbuf) (te : Register) : RteMbuf :=
  { mbuf with data := store 16 mbuf.data 0 te }

/-- Process one packet: update its MAC addresses, perform RFC1812 checks and
updates. -/
def processPacket (env : Env) (pkt : RteMbuf) (dstPort : BitVec 16) : RteMbuf × BitVec 16 :=
  let te := load 16 pkt.data 0
  let ve := env.valEth dstPort.toNat
  let (data, dstPort) := rfc1812Process pkt.data dstPort pkt.packetType
  let te := blendEpi16 te ve maskEth
  (RteMbuf.storeEth { pkt with data := data } te, dstPort)

/-- The same for the four packets from `pkt[j]` and `dst_port[j]` on: all loads
come first, then all stores, then the checks. -/
def processx4Step3 (env : Env) (pkt : Nat → MbufPtr) (j : Nat)
    (packets : MbufHeap × (Nat → BitVec 16)) : MbufHeap × (Nat → BitVec 16) :=
  let te := fun i => blendEpi16 (load 16 (packets.1 (pkt i)).data 0)
    (env.valEth (packets.2 i).toNat) maskEth
  let stored := visit pkt (fun mbuf te => (mbuf.storeEth te, te)) fwdStep j (packets.1, te)
  visit pkt (fun mbuf dp =>
    let (data, dp) := rfc1812Process mbuf.data dp mbuf.packetType
    ({ mbuf with data := data }, dp)) fwdStep j (stored.1, packets.2)

/-- A loop over `j` in steps of four. -/
def forFours (body : Nat → σ → σ) : Nat → Nat → σ → σ
  | 0, _, state => state
  | rounds + 1, j, state => forFours body rounds (j + fwdStep) (body j state)

/-! ## Which packets are bad -/

/-- The header is one that the checks refuse. -/
def rfc1812Bad (data : Nat → BitVec 8) (ptype : BitVec 32) : Prop :=
  rteEthIsIpv4Hdr ptype ∧
    (ipv4MaxVerIhlDiff < data Ipv4Hdr.versionIhl - ipv4MinVerIhl ∨
      ((load16 data Ipv4Hdr.totalLength).setWidth 8 = 0#8 ∧
        load16 data Ipv4Hdr.totalLength < ipv4MinLenBe))

instance (data : Nat → BitVec 8) (ptype : BitVec 32) : Decidable (rfc1812Bad data ptype) :=
  inferInstanceAs (Decidable (_ ∧ (_ ∨ (_ ∧ _))))

def RteMbuf.Bad (mbuf : RteMbuf) : Prop :=
  rfc1812Bad mbuf.data mbuf.packetType

instance (mbuf : RteMbuf) : Decidable mbuf.Bad :=
  inferInstanceAs (Decidable (rfc1812Bad _ _))

/-- The destination port of a packet after the checks. -/
def RteMbuf.checkedPort (mbuf : RteMbuf) (port : BitVec 16) : BitVec 16 :=
  if mbuf.Bad then badPort else port

/-- An IPv4 packet for 10.1.0.0 with a header that passes the checks. -/
def routedPacket : RteMbuf :=
  { (default : RteMbuf) with
    packetType := 0x210#32
    pktLen := 42#32
    data := fun address => [2, 0, 0, 0, 0, 1, 2, 0, 0, 0, 0, 2, 8, 0, 0x45, 0, 0, 28, 0, 0, 0, 0,
      64, 17, 0, 0, 0, 0, 0, 0, 10, 1, 0, 0].getD address 0 }

/-- Two states of an mbuf on which the checks agree. -/
structure SameVerdict (before after : RteMbuf) : Prop where
  packetType : after.packetType = before.packetType
  versionIhl : after.data Ipv4Hdr.versionIhl = before.data Ipv4Hdr.versionIhl
  totalLength : load16 after.data Ipv4Hdr.totalLength = load16 before.data Ipv4Hdr.totalLength

namespace SameVerdict

theorem refl (mbuf : RteMbuf) : SameVerdict mbuf mbuf := ⟨rfl, rfl, rfl⟩

theorem trans (before middle after : RteMbuf) (first : SameVerdict before middle)
    (second : SameVerdict middle after) : SameVerdict before after where
  packetType := second.packetType.trans first.packetType
  versionIhl := second.versionIhl.trans first.versionIhl
  totalLength := second.totalLength.trans first.totalLength

theorem bad_iff {before after : RteMbuf} (same : SameVerdict before after) :
    after.Bad ↔ before.Bad := by
  simp only [RteMbuf.Bad, rfc1812Bad, same.packetType, same.versionIhl, same.totalLength]

theorem checkedPort {before after : RteMbuf} (same : SameVerdict before after)
    (port : BitVec 16) : after.checkedPort port = before.checkedPort port :=
  if_congr same.bad_iff rfl rfl

end SameVerdict

/-! ## What the processing does -/

theorem countHop_of_ne (data : Nat → BitVec 8) {address : Nat}
    (notTtl : address ≠ Ipv4Hdr.timeToLive)
    (notChecksum : address < Ipv4Hdr.hdrChecksum ∨ Ipv4Hdr.hdrChecksum + 2 ≤ address) :
    countHop data address = data address := by
  rw [countHop, store16, store_of_outside 2 _ _ _ _ notChecksum, Function.update_of_ne notTtl]

theorem countHop_totalLength (data : Nat → BitVec 8) :
    load16 (countHop data) Ipv4Hdr.totalLength = load16 data Ipv4Hdr.totalLength := by
  apply load_congr 2
  intro index inside
  apply countHop_of_ne
  · simp only [Ipv4Hdr.totalLength, Ipv4Hdr.timeToLive]
    omega
  · simp only [Ipv4Hdr.totalLength, Ipv4Hdr.hdrChecksum]
    omega

/-- Behind the Ethernet header, `countHop` sees nothing of it. -/
theorem countHop_agree {data data' : Nat → BitVec 8}
    (agree : ∀ address, 16 ≤ address → data address = data' address) {address : Nat}
    (behind : 16 ≤ address) : countHop data address = countHop data' address := by
  have ttl : ∀ address, 16 ≤ address →
      Function.update data Ipv4Hdr.timeToLive (data Ipv4Hdr.timeToLive - 1) address =
        Function.update data' Ipv4Hdr.timeToLive (data' Ipv4Hdr.timeToLive - 1) address := by
    intro address behind
    simp only [Function.update_apply]
    rw [agree address behind, agree Ipv4Hdr.timeToLive (by decide)]
  have checksum : load16
        (Function.update data Ipv4Hdr.timeToLive (data Ipv4Hdr.timeToLive - 1))
        Ipv4Hdr.hdrChecksum =
      load16 (Function.update data' Ipv4Hdr.timeToLive (data' Ipv4Hdr.timeToLive - 1))
        Ipv4Hdr.hdrChecksum := by
    apply load_congr 2
    intro index _
    exact ttl _ (by simp only [Ipv4Hdr.hdrChecksum, rteEtherHdrLen]; omega)
  simp only [countHop, checksum, store16, store]
  split
  · rfl
  · exact ttl address behind

theorem rfc1812Process_data (data : Nat → BitVec 8) (dp : BitVec 16) (ptype : BitVec 32) :
    (rfc1812Process data dp ptype).1 =
      if rteEthIsIpv4Hdr ptype then countHop data else data := by
  unfold rfc1812Process
  split
  · dsimp only
    split <;> rfl
  · rfl

theorem rfc1812Process_port (data : Nat → BitVec 8) (dp : BitVec 16) (ptype : BitVec 32) :
    (rfc1812Process data dp ptype).2 = if rfc1812Bad data ptype then badPort else dp := by
  by_cases isIpv4 : rteEthIsIpv4Hdr ptype = true
  · simp only [rfc1812Process, if_pos isIpv4, countHop_totalLength]
    have onlyHeader : rfc1812Bad data ptype ↔
        (ipv4MaxVerIhlDiff < data Ipv4Hdr.versionIhl - ipv4MinVerIhl ∨
          ((load16 data Ipv4Hdr.totalLength).setWidth 8 = 0#8 ∧
            load16 data Ipv4Hdr.totalLength < ipv4MinLenBe)) :=
      ⟨fun bad => bad.2, fun header => ⟨isIpv4, header⟩⟩
    by_cases bad : rfc1812Bad data ptype
    · rw [if_pos bad, if_pos (onlyHeader.mp bad)]
    · rw [if_neg bad, if_neg fun header => bad (onlyHeader.mpr header)]
  · have notBad : ¬ rfc1812Bad data ptype := fun bad => isIpv4 bad.1
    rw [rfc1812Process, if_neg isIpv4, if_neg notBad]

/-- Storing rewritten Ethernet addresses keeps every byte behind them. -/
theorem storeEth_data (mbuf before : RteMbuf) (ve : Register) {address : Nat}
    (behind : 12 ≤ address)
    (same : address < 16 → mbuf.data address = before.data address) :
    (mbuf.storeEth (blendEpi16 (load 16 before.data 0) ve maskEth)).data address =
      mbuf.data address := by
  rcases Nat.lt_or_ge address 16 with inside | outside
  · have control : maskEth.getLsbD (address / 2) = false := by
      have position : address / 2 = 6 ∨ address / 2 = 7 := by omega
      rcases position with six | seven
      · rw [six]
        decide
      · rw [seven]
        decide
    have kept := store_of_lt 16 mbuf.data 0
      (blendEpi16 (load 16 before.data 0) ve maskEth) address inside
    have loaded := lane_load 16 before.data 0 address inside
    rw [lane8_blendEpi16 _ _ _ _ inside, control] at kept
    simp only [Nat.zero_add] at kept loaded
    rw [RteMbuf.storeEth]
    exact (kept.trans loaded).trans (same inside).symm
  · exact store_of_outside 16 mbuf.data 0 _ address (by omega)

theorem sameVerdict_storeEth (mbuf before : RteMbuf) (ve : Register)
    (same : mbuf.data Ipv4Hdr.versionIhl = before.data Ipv4Hdr.versionIhl) :
    SameVerdict mbuf (mbuf.storeEth (blendEpi16 (load 16 before.data 0) ve maskEth)) where
  packetType := rfl
  versionIhl := storeEth_data mbuf before ve (by decide) fun _ => same
  totalLength := by
    apply load_congr 2
    intro index inside
    exact storeEth_data mbuf before ve (by simp only [Ipv4Hdr.totalLength, rteEtherHdrLen]; omega)
      (by simp only [Ipv4Hdr.totalLength, rteEtherHdrLen]; omega)

/-- New Ethernet addresses end in front of the IPv4 header. -/
theorem setEthAddrs_outside (env : Env) (data : Nat → BitVec 8) (port : BitVec 16)
    {address : Nat} (behind : 12 ≤ address) : setEthAddrs env data port address = data address := by
  rw [setEthAddrs, store_of_outside 6 _ _ _ _ (by omega), store_of_outside 8 _ _ _ _ (by omega)]

theorem sameVerdict_setEthAddrs (env : Env) (pkt : RteMbuf) (port : BitVec 16) :
    SameVerdict pkt { pkt with data := setEthAddrs env pkt.data port } := by
  have ihl : 12 ≤ Ipv4Hdr.versionIhl := by decide
  refine ⟨rfl, setEthAddrs_outside env pkt.data port ihl, ?_⟩
  apply load_congr 2
  intro index _
  have behind : 12 ≤ Ipv4Hdr.totalLength + index := by
    simp only [Ipv4Hdr.totalLength, rteEtherHdrLen]
    omega
  exact setEthAddrs_outside env pkt.data port behind

theorem sameVerdict_rfc1812 (mbuf : RteMbuf) (dp : BitVec 16) :
    SameVerdict mbuf
      { mbuf with data := (rfc1812Process mbuf.data dp mbuf.packetType).1 } := by
  rw [rfc1812Process_data]
  split
  · refine ⟨rfl, ?_, countHop_totalLength _⟩
    have notTtl : Ipv4Hdr.versionIhl ≠ Ipv4Hdr.timeToLive := by decide
    have before : Ipv4Hdr.versionIhl < Ipv4Hdr.hdrChecksum := by decide
    exact countHop_of_ne mbuf.data notTtl (Or.inl before)
  · exact SameVerdict.refl mbuf

/-- The Ethernet rewrite and the hop count are done to different bytes. -/
theorem countHop_storeEth (mbuf : RteMbuf) (te : Register) :
    countHop (mbuf.storeEth te).data =
      (RteMbuf.storeEth { mbuf with data := countHop mbuf.data } te).data := by
  funext address
  rcases Nat.lt_or_ge address 16 with inside | outside
  · have notTtl : address ≠ 22 := by omega
    have before : address < 24 := by omega
    have untouched := countHop_of_ne (mbuf.storeEth te).data notTtl (Or.inl before)
    have stored := store_of_lt 16 mbuf.data 0 te address inside
    have stored' := store_of_lt 16 (countHop mbuf.data) 0 te address inside
    rw [Nat.zero_add] at stored stored'
    exact untouched.trans (stored.trans stored'.symm)
  · have same : countHop (mbuf.storeEth te).data address = countHop mbuf.data address :=
      countHop_agree (fun other behind => store_of_outside 16 mbuf.data 0 te other (by omega))
        outside
    have kept := store_of_outside 16 (countHop mbuf.data) 0 te address (by omega)
    exact same.trans kept.symm

/-- Storing first and checking afterwards is what `processPacket` does the other
way round. -/
theorem rfc1812Process_storeEth (env : Env) (mbuf : RteMbuf) (port : BitVec 16) :
    let te := blendEpi16 (load 16 mbuf.data 0) (env.valEth port.toNat) maskEth
    let stored := mbuf.storeEth te
    ({ stored with data := (rfc1812Process stored.data port stored.packetType).1 },
      (rfc1812Process stored.data port stored.packetType).2) = processPacket env mbuf port := by
  intro te stored
  have verdict : SameVerdict mbuf stored := sameVerdict_storeEth mbuf mbuf _ rfl
  have samePort : (rfc1812Process stored.data port stored.packetType).2 =
      (rfc1812Process mbuf.data port mbuf.packetType).2 := by
    rw [rfc1812Process_port, rfc1812Process_port]
    exact if_congr verdict.bad_iff rfl rfl
  have sameData : (rfc1812Process stored.data port stored.packetType).1 =
      (RteMbuf.storeEth { mbuf with
        data := (rfc1812Process mbuf.data port mbuf.packetType).1 } te).data := by
    rw [rfc1812Process_data, rfc1812Process_data, verdict.packetType]
    split
    · exact countHop_storeEth mbuf te
    · rfl
  rw [samePort, sameData]
  rfl

theorem getLsbD_maskEth {half : Nat} (inside : half < 8) :
    maskEth.getLsbD half = decide (half < 6) := by
  have all : ∀ index : Fin 8, maskEth.getLsbD index = decide (index.val < 6) := by decide
  exact all ⟨half, inside⟩

/-- The checks change nothing in front of the time to live. -/
theorem rfc1812Process_front (data : Nat → BitVec 8) (dp : BitVec 16) (ptype : BitVec 32)
    {address : Nat} (front : address < 16) :
    (rfc1812Process data dp ptype).1 address = data address := by
  rw [rfc1812Process_data]
  split
  · apply countHop_of_ne
    · simp only [Ipv4Hdr.timeToLive, rteEtherHdrLen]
      omega
    · simp only [Ipv4Hdr.hdrChecksum, rteEtherHdrLen]
      omega
  · rfl

/-- A processed packet has the addresses of its port, and is otherwise as the checks
leave it. -/
theorem processPacket_data (env : Env) (pkt : RteMbuf) (port : BitVec 16) (address : Nat) :
    (processPacket env pkt port).1.data address =
      if address < 12 then lane 8 (env.valEth port.toNat) address
      else (rfc1812Process pkt.data port pkt.packetType).1 address := by
  let data := (rfc1812Process pkt.data port pkt.packetType).1
  let te := blendEpi16 (load 16 pkt.data 0) (env.valEth port.toNat) maskEth
  change store 16 data 0 te address = _
  rcases Nat.lt_or_ge address 16 with front | behind
  · have stored := store_of_lt 16 data 0 te address front
    rw [Nat.zero_add] at stored
    rw [stored, lane8_blendEpi16 _ _ _ _ front, getLsbD_maskEth (by omega)]
    by_cases inAddresses : address < 12
    · have inMask : address / 2 < 6 := by omega
      rw [if_pos inAddresses, decide_eq_true inMask, if_pos rfl]
    · have notInMask : ¬ address / 2 < 6 := by omega
      have loaded := lane_load 16 pkt.data 0 address front
      rw [Nat.zero_add] at loaded
      rw [if_neg inAddresses, decide_eq_false notInMask, if_neg Bool.false_ne_true, loaded,
        rfc1812Process_front _ _ _ front]
  · rw [store_of_outside 16 data 0 te address (by omega), if_neg (by omega)]

theorem processPacket_port (env : Env) (pkt : RteMbuf) (port : BitVec 16) :
    (processPacket env pkt port).2 = pkt.checkedPort port :=
  rfc1812Process_port pkt.data port pkt.packetType

theorem sameVerdict_processPacket (env : Env) (pkt : RteMbuf) (port : BitVec 16) :
    SameVerdict pkt (processPacket env pkt port).1 := by
  have checked := sameVerdict_rfc1812 pkt port
  exact checked.trans _ _ _ (sameVerdict_storeEth _ pkt _ checked.versionIhl)

/-! ## What processing does to a burst -/

/-- Packets `first, ..., first + count - 1` of a burst have been checked: their
destination ports say so, the other ports are as before, and all packets would be
checked alike again. -/
structure Checked (pkt : Nat → MbufPtr) (first count : Nat)
    (before after : MbufHeap × (Nat → BitVec 16)) : Prop where
  verdict : ∀ name, SameVerdict (before.1 name) (after.1 name)
  inside : ∀ i, first ≤ i → i < first + count →
    after.2 i = (before.1 (pkt i)).checkedPort (before.2 i)
  outside : ∀ i, i < first ∨ first + count ≤ i → after.2 i = before.2 i

namespace Checked

theorem nil (pkt : Nat → MbufPtr) (first : Nat) (packets : MbufHeap × (Nat → BitVec 16)) :
    Checked pkt first 0 packets packets where
  verdict := fun name => SameVerdict.refl _
  inside := fun i _ _ => by omega
  outside := fun _ _ => rfl

theorem trans {pkt : Nat → MbufPtr} {start middle last : MbufHeap × (Nat → BitVec 16)}
    (before : Checked pkt first count start middle)
    (after : Checked pkt (first + count) more middle last) :
    Checked pkt first (count + more) start last where
  verdict := fun name => (before.verdict name).trans _ _ _ (after.verdict name)
  inside := by
    intro i afterFirst beforeEnd
    rcases Nat.lt_or_ge i (first + count) with early | late
    · rw [after.outside i (by omega), before.inside i afterFirst early]
    · rw [after.inside i late (by omega), (before.verdict _).checkedPort,
        before.outside i (by omega)]
  outside := by
    intro i beyond
    rw [after.outside i (by omega), before.outside i (by omega)]

theorem visit (pkt : Nat → MbufPtr) (step : RteMbuf → BitVec 16 → RteMbuf × BitVec 16)
    (verdict : ∀ mbuf port, SameVerdict mbuf (step mbuf port).1)
    (port : ∀ mbuf port, (step mbuf port).2 = mbuf.checkedPort port)
    (count first : Nat) (packets : MbufHeap × (Nat → BitVec 16)) :
    Checked pkt first count packets (visit pkt step count first packets) := by
  rcases visit_keeps pkt step SameVerdict.refl SameVerdict.trans count first packets
    (fun index _ _ current _ => verdict current _) with ⟨cells, slots⟩
  refine ⟨cells, ?_, fun i beyond => slot_outside pkt step count first packets beyond⟩
  intro i after before
  rcases slots i after before with ⟨current, kept, stepped⟩
  rw [stepped, port, kept.checkedPort]

end Checked

theorem checked_processx4Step3 (env : Env) (pkt : Nat → MbufPtr) (j : Nat)
    (packets : MbufHeap × (Nat → BitVec 16)) :
    Checked pkt j fwdStep packets (processx4Step3 env pkt j packets) := by
  let te := fun i => blendEpi16 (load 16 (packets.1 (pkt i)).data 0)
    (env.valEth (packets.2 i).toNat) maskEth
  let stored := Cells.visit pkt
    (fun mbuf te => (RteMbuf.storeEth mbuf te, te)) fwdStep j (packets.1, te)
  rcases visit_keeps pkt (fun mbuf te => (RteMbuf.storeEth mbuf te, te)) SameVerdict.refl
    SameVerdict.trans fwdStep j (packets.1, te)
    (fun i _ _ current kept => sameVerdict_storeEth current (packets.1 (pkt i))
      (env.valEth (packets.2 i).toNat) kept.versionIhl) with ⟨cells, _⟩
  have checked := Checked.visit pkt
    (fun mbuf dp =>
      ({ mbuf with data := (rfc1812Process mbuf.data dp mbuf.packetType).1 },
        (rfc1812Process mbuf.data dp mbuf.packetType).2))
    sameVerdict_rfc1812
    (fun mbuf dp => rfc1812Process_port mbuf.data dp mbuf.packetType)
    fwdStep j (stored.1, packets.2)
  refine ⟨fun name => (cells name).trans _ _ _ (checked.verdict name), ?_, checked.outside⟩
  intro i after before
  exact (checked.inside i after before).trans ((cells (pkt i)).checkedPort _)

/-- On different packets, four at once is the same as one after the other. -/
theorem processx4Step3_eq (env : Env) (pkt : Nat → MbufPtr) (j : Nat)
    (packets : MbufHeap × (Nat → BitVec 16)) (distinct : Distinct pkt j fwdStep) :
    processx4Step3 env pkt j packets = visit pkt (processPacket env) fwdStep j packets := by
  let te := fun i => blendEpi16 (load 16 (packets.1 (pkt i)).data 0)
    (env.valEth (packets.2 i).toNat) maskEth
  let storeStep := fun (mbuf : RteMbuf) (te : Register) => (mbuf.storeEth te, te)
  let checkStep := fun (mbuf : RteMbuf) (dp : BitVec 16) =>
    ({ mbuf with data := (rfc1812Process mbuf.data dp mbuf.packetType).1 },
      (rfc1812Process mbuf.data dp mbuf.packetType).2)
  let stored := visit pkt storeStep fwdStep j (packets.1, te)
  have both : ∀ i, j ≤ i → i < j + fwdStep →
      checkStep (stored.1 (pkt i)) (packets.2 i) =
        processPacket env (packets.1 (pkt i)) (packets.2 i) := by
    intro i after before
    have storedOnce := (visit_inside pkt storeStep fwdStep j (packets.1, te) distinct i
      after before).1
    have isStored : stored.1 (pkt i) = (packets.1 (pkt i)).storeEth (te i) := storedOnce
    rw [isStored]
    exact rfc1812Process_storeEth env (packets.1 (pkt i)) (packets.2 i)
  have checked := visit_inside pkt checkStep fwdStep j (stored.1, packets.2) distinct
  have processed := visit_inside pkt (processPacket env) fwdStep j packets distinct
  apply Prod.ext
  · funext name
    by_cases visited : ∃ i, j ≤ i ∧ i < j + fwdStep ∧ pkt i = name
    · rcases visited with ⟨i, after, before, rfl⟩
      rw [(processed i after before).1, ← both i after before]
      exact (checked i after before).1
    · have outside : ∀ i, j ≤ i → i < j + fwdStep → pkt i ≠ name :=
        fun i after before same => visited ⟨i, after, before, same⟩
      rw [cell_outside pkt (processPacket env) fwdStep j packets outside]
      exact (cell_outside pkt checkStep fwdStep j (stored.1, packets.2) outside).trans
        (cell_outside pkt storeStep fwdStep j (packets.1, te) outside)
  · funext i
    by_cases visited : j ≤ i ∧ i < j + fwdStep
    · rw [(processed i visited.1 visited.2).2, ← both i visited.1 visited.2]
      exact (checked i visited.1 visited.2).2
    · have outside : i < j ∨ j + fwdStep ≤ i := by omega
      rw [slot_outside pkt (processPacket env) fwdStep j packets outside]
      exact slot_outside pkt checkStep fwdStep j (stored.1, packets.2) outside

end PacketForwarding.L3fwd
