import PacketForwarding.Foundation.Gather
import PacketForwarding.L3fwd.Rfc1812

/-! # Destination ports by access control lists

A burst is split by packet type, each part is classified at once, and the results
are put together again. That is shown to be the classification of each packet on
its own.
-/

namespace PacketForwarding.L3fwd

/-! ## Classification results -/

/-- `rte_acl_classify` with the contexts of the lcore, for the bytes from the
protocol field of a packet on. -/
structure AclTables where
  classifyIpv4 : (Nat → BitVec 8) → BitVec 32
  classifyIpv6 : (Nat → BitVec 8) → BitVec 32

def aclDenySignature : BitVec 32 := 0xf0000000#32

def fwdPortShift : BitVec 32 := 1#32

/-- The result is one of a route. -/
def Forwards (res : BitVec 32) : Prop :=
  res &&& aclDenySignature = 0#32 ∧ res ≠ 0#32

instance (res : BitVec 32) : Decidable (Forwards res) :=
  inferInstanceAs (Decidable (_ ∧ _))

/-- What the setup checks of every route: its port exists. -/
structure AclTables.PortsExist (tables : AclTables) : Prop where
  classifyIpv4 : ∀ data, Forwards (tables.classifyIpv4 data) →
    (tables.classifyIpv4 data - fwdPortShift).toNat < rteMaxEthports
  classifyIpv6 : ∀ data, Forwards (tables.classifyIpv6 data) →
    (tables.classifyIpv6 data - fwdPortShift).toNat < rteMaxEthports

/-! ## A burst -/

/-- `TYPE_NONE`, `TYPE_IPV4` and `TYPE_IPV6` -/
inductive AclType
  | none
  | ipv4
  | ipv6
  deriving DecidableEq, Inhabited

/-- `struct acl_search_t` -/
structure AclSearch where
  numIpv4 : Nat
  numIpv6 : Nat
  types : Nat → AclType
  dataIpv4 : Nat → Nat → BitVec 8
  resIpv4 : Nat → BitVec 32
  dataIpv6 : Nat → Nat → BitVec 8
  resIpv6 : Nat → BitVec 32
  deriving Inhabited

/-- `MBUF_IPV4_2PROTO` -/
def mbufIpv42Proto (pkt : RteMbuf) : Nat → BitVec 8 :=
  fun offset => pkt.data (Ipv4Hdr.nextProtoId + offset)

/-- `MBUF_IPV6_2PROTO` -/
def mbufIpv62Proto (pkt : RteMbuf) : Nat → BitVec 8 :=
  fun offset => pkt.data (rteEtherHdrLen + 6 + offset)

def l3fwdAclPrepareOnePacket (mbufs : MbufHeap) (pktsIn : Nat → MbufPtr) (acl : AclSearch)
    (index : Nat) : AclSearch :=
  let pkt := mbufs (pktsIn index)
  if rteEthIsIpv4Hdr pkt.packetType then
    { acl with
      dataIpv4 := Function.update acl.dataIpv4 acl.numIpv4 (mbufIpv42Proto pkt)
      numIpv4 := acl.numIpv4 + 1
      types := Function.update acl.types index .ipv4 }
  else if rteEthIsIpv6Hdr pkt.packetType then
    { acl with
      dataIpv6 := Function.update acl.dataIpv6 acl.numIpv6 (mbufIpv62Proto pkt)
      numIpv6 := acl.numIpv6 + 1
      types := Function.update acl.types index .ipv6 }
  else
    -- unknown type, will drop the packet
    { acl with types := Function.update acl.types index .none }

def l3fwdAclPrepareAclParameter (mbufs : MbufHeap) (pktsIn : Nat → MbufPtr) (acl : AclSearch)
    (nbRx : Nat) : AclSearch :=
  let acl := { acl with numIpv4 := 0, numIpv6 := 0 }
  let i := nbRx - prefetchOffset
  let acl := (List.range' 0 i).foldl (l3fwdAclPrepareOnePacket mbufs pktsIn) acl
  -- process left packets
  (List.range' i (nbRx - i)).foldl (l3fwdAclPrepareOnePacket mbufs pktsIn) acl

/-- Classify the first `num` entries of `data`. -/
def rteAclClassify (classify : (Nat → BitVec 8) → BitVec 32) (data : Nat → Nat → BitVec 8)
    (results : Nat → BitVec 32) (num : Nat) : Nat → BitVec 32 :=
  fun i => if i < num then classify (data i) else results i

/-- Classify each part of the burst that is not empty. -/
def AclSearch.classify (tables : AclTables) (acl : AclSearch) : AclSearch :=
  { acl with
    resIpv4 :=
      if acl.numIpv4 ≠ 0 then
        rteAclClassify tables.classifyIpv4 acl.dataIpv4 acl.resIpv4 acl.numIpv4
      else
        acl.resIpv4
    resIpv6 :=
      if acl.numIpv6 ≠ 0 then
        rteAclClassify tables.classifyIpv6 acl.dataIpv6 acl.resIpv6 acl.numIpv6
      else
        acl.resIpv6 }

/-- What the loop that combines the results has read and written. -/
structure AclCombine where
  n4 : Nat
  n6 : Nat
  k : Nat
  hops : Nat → BitVec 16

namespace AclCombine

/-- The result of packet `i`. -/
def next (acl : AclSearch) (combine : AclCombine) (i : Nat) : BitVec 32 × AclCombine :=
  match acl.types i with
  | .ipv4 => (acl.resIpv4 combine.n4, { combine with n4 := combine.n4 + 1 })
  | .ipv6 => (acl.resIpv6 combine.n6, { combine with n6 := combine.n6 + 1 })
  | .none => (0#32, combine)

def step (acl : AclSearch) (combine : AclCombine) (i : Nat) : AclCombine :=
  let (res, combine) := combine.next acl i
  if Forwards res then
    { combine with
      hops := Function.update combine.hops i ((res - fwdPortShift).setWidth 16) }
  else
    -- bad or denied by ACL rule packets
    { combine with
      hops := Function.update combine.hops i badPort
      k := combine.k + 1 }

end AclCombine

/-- Run packets through ACL classify. Returns the hops and the number of packets to
be dropped. What `acl_search` holds before it is filled is an argument. -/
def aclProcessPkts (tables : AclTables) (mbufs : MbufHeap) (pkts : Nat → MbufPtr)
    (hops : Nat → BitVec 16) (num : Nat) (aclSearch : AclSearch) : (Nat → BitVec 16) × Nat :=
  -- split packets burst depending on packet type (IPv4/IPv6)
  let acl := l3fwdAclPrepareAclParameter mbufs pkts aclSearch num
  let acl := acl.classify tables
  -- combine lookup results back, into one array of next hops
  let combined := (List.range num).foldl (AclCombine.step acl) ⟨0, 0, 0, hops⟩
  (combined.hops, combined.k)

/-! ## One packet -/

def RteMbuf.aclType (pkt : RteMbuf) : AclType :=
  if rteEthIsIpv4Hdr pkt.packetType then .ipv4
  else if rteEthIsIpv6Hdr pkt.packetType then .ipv6
  else .none

/-- The classification of a packet on its own. -/
def aclResult (tables : AclTables) (pkt : RteMbuf) : BitVec 32 :=
  match pkt.aclType with
  | .ipv4 => tables.classifyIpv4 (mbufIpv42Proto pkt)
  | .ipv6 => tables.classifyIpv6 (mbufIpv62Proto pkt)
  | .none => 0#32

def aclHop (tables : AclTables) (pkt : RteMbuf) : BitVec 16 :=
  if Forwards (aclResult tables pkt) then (aclResult tables pkt - fwdPortShift).setWidth 16
  else badPort

theorem aclHop_lt {tables : AclTables} (exist : tables.PortsExist) (pkt : RteMbuf)
    (forwards : Forwards (aclResult tables pkt)) :
    (aclHop tables pkt).toNat < rteMaxEthports := by
  have small : (aclResult tables pkt - fwdPortShift).toNat < rteMaxEthports := by
    unfold aclResult at forwards ⊢
    cases kind : pkt.aclType with
    | ipv4 =>
        rw [kind] at forwards
        exact exist.classifyIpv4 _ forwards
    | ipv6 =>
        rw [kind] at forwards
        exact exist.classifyIpv6 _ forwards
    | none =>
        rw [kind] at forwards
        exact absurd rfl forwards.2
  rw [aclHop, if_pos forwards, BitVec.toNat_setWidth]
  exact Nat.lt_of_le_of_lt (Nat.mod_le _ _) small

/-! ## The burst is split by packet type -/

/-- The first `count` packets are in the arrays of their types. -/
structure Prepared (pkt : Nat → RteMbuf) (count : Nat) (acl : AclSearch) : Prop where
  types : ∀ i, i < count → acl.types i = (pkt i).aclType
  ipv4 : Gathered (fun i => (pkt i).aclType = .ipv4) (fun i => mbufIpv42Proto (pkt i)) count
    acl.numIpv4 acl.dataIpv4
  ipv6 : Gathered (fun i => (pkt i).aclType = .ipv6) (fun i => mbufIpv62Proto (pkt i)) count
    acl.numIpv6 acl.dataIpv6

theorem types_update {types : Nat → AclType} {kind : Nat → AclType} {count : Nat}
    (before : ∀ i, i < count → types i = kind i) {new : AclType} (last : kind count = new) :
    ∀ i, i < count + 1 → Function.update types count new i = kind i := by
  intro i inside
  rcases Nat.lt_succ_iff_lt_or_eq.mp inside with earlier | same
  · rw [Function.update_of_ne (Nat.ne_of_lt earlier)]
    exact before i earlier
  · rw [same, Function.update_self, last]

theorem prepareOnePacket_spec (mbufs : MbufHeap) (pktsIn : Nat → MbufPtr) {acl : AclSearch}
    {count : Nat} (prepared : Prepared (fun i => mbufs (pktsIn i)) count acl) :
    Prepared (fun i => mbufs (pktsIn i)) (count + 1)
      (l3fwdAclPrepareOnePacket mbufs pktsIn acl count) := by
  unfold l3fwdAclPrepareOnePacket
  dsimp only
  split
  · rename_i isIpv4
    have kind : (mbufs (pktsIn count)).aclType = .ipv4 := if_pos isIpv4
    refine ⟨types_update prepared.types kind, prepared.ipv4.take kind, prepared.ipv6.skip ?_⟩
    rw [kind]
    decide
  · rename_i notIpv4
    split
    · rename_i isIpv6
      have kind : (mbufs (pktsIn count)).aclType = .ipv6 := by
        rw [RteMbuf.aclType, if_neg notIpv4, if_pos isIpv6]
      refine ⟨types_update prepared.types kind, prepared.ipv4.skip ?_, prepared.ipv6.take kind⟩
      rw [kind]
      decide
    · rename_i notIpv6
      have kind : (mbufs (pktsIn count)).aclType = .none := by
        rw [RteMbuf.aclType, if_neg notIpv4, if_neg notIpv6]
      refine ⟨types_update prepared.types kind, prepared.ipv4.skip ?_, prepared.ipv6.skip ?_⟩
      · rw [kind]
        decide
      · rw [kind]
        decide

theorem prepareAclParameter_spec (mbufs : MbufHeap) (pktsIn : Nat → MbufPtr)
    (acl : AclSearch) (nbRx : Nat) :
    Prepared (fun i => mbufs (pktsIn i)) nbRx
      (l3fwdAclPrepareAclParameter mbufs pktsIn acl nbRx) := by
  have loop : ∀ count first acl, Prepared (fun i => mbufs (pktsIn i)) first acl →
      Prepared (fun i => mbufs (pktsIn i)) (first + count)
        ((List.range' first count).foldl (l3fwdAclPrepareOnePacket mbufs pktsIn) acl) := by
    intro count
    induction count with
    | zero =>
        intro first acl prepared
        exact prepared
    | succ count induction =>
        intro first acl prepared
        rw [List.range'_succ, List.foldl_cons, Nat.add_comm count 1, ← Nat.add_assoc]
        exact induction (first + 1) _ (prepareOnePacket_spec mbufs pktsIn prepared)
  have started : Prepared (fun i => mbufs (pktsIn i)) 0
      { acl with numIpv4 := 0, numIpv6 := 0 } :=
    ⟨fun _ impossible => absurd impossible (Nat.not_lt_zero _), .nil _ _, .nil _ _⟩
  have early := loop (nbRx - prefetchOffset) 0 _ started
  rw [Nat.zero_add] at early
  have all := loop (nbRx - (nbRx - prefetchOffset)) _ _ early
  rw [Nat.add_sub_of_le (Nat.sub_le nbRx prefetchOffset)] at all
  exact all

/-! ## The results are put together again -/

/-- Classifying what was gathered classifies every packet with the property. -/
theorem rteAclClassify_gathered {p : Nat → Prop} [DecidablePred p]
    {source target : Nat → Nat → BitVec 8} {count num : Nat}
    (gathered : Gathered p source count num target)
    (classify : (Nat → BitVec 8) → BitVec 32) (results : Nat → BitVec 32) :
    ∀ i, i < count → p i →
      (if num ≠ 0 then rteAclClassify classify target results num else results)
        (Nat.count p i) = classify (source i) := by
  intro i inside holds
  have place := gathered.place_lt inside holds
  have some : num ≠ 0 := Nat.ne_of_gt (Nat.zero_lt_of_lt place)
  rw [if_pos some, rteAclClassify, if_pos place, gathered.entries i inside holds]

/-- The first `count` results have been combined. -/
structure Combined (tables : AclTables) (pkt : Nat → RteMbuf) (hops : Nat → BitVec 16)
    (count : Nat) (combine : AclCombine) : Prop where
  n4 : combine.n4 = Nat.count (fun i => (pkt i).aclType = .ipv4) count
  n6 : combine.n6 = Nat.count (fun i => (pkt i).aclType = .ipv6) count
  k : combine.k = Nat.count (fun i => ¬ Forwards (aclResult tables (pkt i))) count
  inside : ∀ i, i < count → combine.hops i = aclHop tables (pkt i)
  outside : ∀ i, count ≤ i → combine.hops i = hops i

theorem AclCombine.next_spec {tables : AclTables} {pkt : Nat → RteMbuf} {num : Nat}
    {acl : AclSearch} (types : ∀ i, i < num → acl.types i = (pkt i).aclType)
    (ipv4 : ∀ i, i < num → (pkt i).aclType = .ipv4 →
      acl.resIpv4 (Nat.count (fun i => (pkt i).aclType = .ipv4) i) =
        tables.classifyIpv4 (mbufIpv42Proto (pkt i)))
    (ipv6 : ∀ i, i < num → (pkt i).aclType = .ipv6 →
      acl.resIpv6 (Nat.count (fun i => (pkt i).aclType = .ipv6) i) =
        tables.classifyIpv6 (mbufIpv62Proto (pkt i)))
    {hops : Nat → BitVec 16} {count : Nat} (inside : count < num) {combine : AclCombine}
    (combined : Combined tables pkt hops count combine) :
    combine.next acl count = (aclResult tables (pkt count),
      { combine with
        n4 := Nat.count (fun i => (pkt i).aclType = .ipv4) (count + 1)
        n6 := Nat.count (fun i => (pkt i).aclType = .ipv6) (count + 1) }) := by
  have n4 := combined.n4
  have n6 := combined.n6
  simp only [AclCombine.next, types count inside, aclResult, Nat.count_succ, ← n4, ← n6]
  cases kind : (pkt count).aclType with
  | ipv4 =>
      have result := ipv4 count inside kind
      rw [← n4] at result
      simp [result]
  | ipv6 =>
      have result := ipv6 count inside kind
      rw [← n6] at result
      simp [result]
  | none => simp

theorem AclCombine.step_spec {tables : AclTables} {pkt : Nat → RteMbuf} {acl : AclSearch}
    {hops : Nat → BitVec 16} {count : Nat} {combine : AclCombine}
    (result : combine.next acl count = (aclResult tables (pkt count),
      { combine with
        n4 := Nat.count (fun i => (pkt i).aclType = .ipv4) (count + 1)
        n6 := Nat.count (fun i => (pkt i).aclType = .ipv6) (count + 1) }))
    (combined : Combined tables pkt hops count combine) :
    Combined tables pkt hops (count + 1) (combine.step acl count) := by
  have written : ∀ hop, hop = aclHop tables (pkt count) →
      (∀ i, i < count + 1 → Function.update combine.hops count hop i = aclHop tables (pkt i)) ∧
      ∀ i, count + 1 ≤ i → Function.update combine.hops count hop i = hops i := by
    intro hop isHop
    refine ⟨?_, ?_⟩
    · intro i inside
      rcases Nat.lt_succ_iff_lt_or_eq.mp inside with earlier | same
      · rw [Function.update_of_ne (Nat.ne_of_lt earlier)]
        exact combined.inside i earlier
      · rw [same, Function.update_self, isHop]
    · intro i behind
      rw [Function.update_of_ne (Nat.ne_of_gt behind)]
      exact combined.outside i (Nat.le_of_succ_le behind)
  unfold AclCombine.step
  rw [result]
  dsimp only
  split
  · rename_i forwards
    rcases written _ (if_pos forwards).symm with ⟨inside, outside⟩
    refine ⟨rfl, rfl, combined.k.trans ?_, inside, outside⟩
    rw [Nat.count_succ, if_neg (not_not_intro forwards), Nat.add_zero]
  · rename_i dropped
    rcases written _ (if_neg dropped).symm with ⟨inside, outside⟩
    refine ⟨rfl, rfl, (congrArg (· + 1) combined.k).trans ?_, inside, outside⟩
    rw [Nat.count_succ, if_pos dropped]

/-- Every packet gets the hop it would get on its own, and the packets to be dropped
are counted. -/
theorem aclProcessPkts_spec (tables : AclTables) (mbufs : MbufHeap) (pkts : Nat → MbufPtr)
    (hops : Nat → BitVec 16) (num : Nat) (aclSearch : AclSearch) :
    (∀ i, i < num →
      (aclProcessPkts tables mbufs pkts hops num aclSearch).1 i =
        aclHop tables (mbufs (pkts i))) ∧
    (∀ i, num ≤ i → (aclProcessPkts tables mbufs pkts hops num aclSearch).1 i = hops i) ∧
    (aclProcessPkts tables mbufs pkts hops num aclSearch).2 =
      Nat.count (fun i => ¬ Forwards (aclResult tables (mbufs (pkts i)))) num := by
  have prepared := prepareAclParameter_spec mbufs pkts aclSearch num
  let acl := l3fwdAclPrepareAclParameter mbufs pkts aclSearch num
  have ipv4 := rteAclClassify_gathered prepared.ipv4 tables.classifyIpv4 acl.resIpv4
  have ipv6 := rteAclClassify_gathered prepared.ipv6 tables.classifyIpv6 acl.resIpv6
  have loop : ∀ count, count ≤ num →
      Combined tables (fun i => mbufs (pkts i)) hops count
        ((List.range count).foldl (AclCombine.step (acl.classify tables)) ⟨0, 0, 0, hops⟩) := by
    intro count
    induction count with
    | zero =>
        intro _
        refine ⟨?_, ?_, ?_, fun _ impossible => absurd impossible (Nat.not_lt_zero _),
          fun _ _ => rfl⟩
        · exact (Nat.count_zero _).symm
        · exact (Nat.count_zero _).symm
        · exact (Nat.count_zero _).symm
    | succ count induction =>
        intro inside
        have combined := induction (Nat.le_of_succ_le inside)
        rw [List.range_succ, List.foldl_append, List.foldl_cons, List.foldl_nil]
        exact AclCombine.step_spec
          (@AclCombine.next_spec tables _ num (acl.classify tables) prepared.types ipv4 ipv6
            hops count inside _ combined) combined
  have combined := loop num (Nat.le_refl num)
  exact ⟨combined.inside, combined.outside, combined.k⟩

end PacketForwarding.L3fwd
