import PacketForwarding.Foundation.Positions
import PacketForwarding.L3fwd.EmRuleFiles

/-! # From flows to the ports

The rules for enabled ports are added to a hash table, under the keys that packets are looked up
with. Only one of the two tables is filled, so packets of the other family go back. Of several
rules for one five tuple, the last one counts.
-/

namespace PacketForwarding.L3fwd

open CString Lanes Layout

/-! ## Populating the tables -/

/-- `rte_hash` with keys of one kind. A table is known by the keys that were added to it. -/
structure RteHash (κ : Type) where
  rteHashCreate : Bool
  rteHashAddKey : List κ → κ → Option Nat
  rteHashLookup : List κ → κ → Option Nat
  rteHashLookupBulk : List κ → (Nat → κ) → Nat → Nat → Option Nat

namespace RteHash

variable {κ : Type}

def positions (hash : RteHash κ) : PositionHash κ := ⟨hash.rteHashAddKey, hash.rteHashLookup⟩

/-- What the library documents: a key keeps a position that no other key has, and a bulk lookup
looks up every key. -/
structure Lawful (hash : RteHash κ) : Prop where
  positions : hash.positions.Lawful
  bulk : ∀ keys key count i, i < count →
    hash.rteHashLookupBulk keys key count i = hash.rteHashLookup keys (key i)

/-- A table as it is looked up, with the array of its interfaces. -/
def table (hash : RteHash κ) (flows : Keyed κ (BitVec 8)) : EmTable κ where
  rteHashLookup := hash.rteHashLookup flows.keys
  rteHashLookupBulk := hash.rteHashLookupBulk flows.keys
  outIf := flows.values

end RteHash

section Populate

variable {α κ : Type}

/-- Add one more rule. -/
def addFlow (eal : Eal) (mask : BitVec 32) (hash : RteHash κ) (convert : α → κ)
    (flows : Keyed κ (BitVec 8)) (entry : EmRule α) : Option (Keyed κ (BitVec 8)) :=
  -- skip unused ports
  if portInMask mask entry.ifOut.toNat = false then
    some flows
  else
    match flows.insert hash.positions (convert entry.key) entry.ifOut with
    | none => none
    | some flows =>
        if eal.rteEthDevInfoGet (entry.ifOut.setWidth 16) = false then none else some flows

/-- An empty table. The array of interfaces is static. -/
def noFlows : Keyed κ (BitVec 8) := ⟨[], fun _ => 0#8⟩

def populateIpv4FlowIntoTable (eal : Eal) (mask : BitVec 32) (hash : RteHash Register)
    (routes : List (EmRule Ipv45tuple)) : Option (Keyed Register (BitVec 8)) :=
  routes.foldlM (addFlow eal mask hash fun key => (convertIpv45tuple key).xmm) noFlows

def populateIpv6FlowIntoTable (eal : Eal) (mask : BitVec 32)
    (hash : RteHash (Register × Register × Register)) (routes : List (EmRule Ipv65tuple)) :
    Option (Keyed (Register × Register × Register) (BitVec 8)) :=
  routes.foldlM (addFlow eal mask hash fun key => (convertIpv65tuple key).xmm) noFlows

/-- The masks are static, and set along with the table that they are for. -/
def setupHash (eal : Eal) (mask : BitVec 32) (ipv6 : Bool) (hash4 : RteHash Register)
    (hash6 : RteHash (Register × Register × Register)) (routes : EmRoutes) : Option EmTables := do
  guard hash4.rteHashCreate
  guard hash6.rteHashCreate
  if ipv6 = false then
    let flows ← populateIpv4FlowIntoTable eal mask hash4 routes.ipv4
    return ⟨hash4.table flows, hash6.table noFlows, emMask0, 0, 0⟩
  else
    let flows ← populateIpv6FlowIntoTable eal mask hash6 routes.ipv6
    return ⟨hash4.table noFlows, hash6.table flows, 0, emMask1, emMask2⟩

/-- The rules for ports that are used. -/
def usedFlows (mask : BitVec 32) (routes : List (EmRule α)) : List (EmRule α) :=
  routes.filter fun entry => portInMask mask entry.ifOut.toNat

def EmRoutes.used (mask : BitVec 32) (routes : EmRoutes) : EmRoutes :=
  ⟨usedFlows mask routes.ipv4, usedFlows mask routes.ipv6⟩

def flowPairs (convert : α → κ) (routes : List (EmRule α)) : List (κ × BitVec 8) :=
  routes.map fun entry => (convert entry.key, entry.ifOut)

/-- The interface of the last rule for a key. -/
def lastFlow [DecidableEq α] (routes : List (EmRule α)) (key : α) : Option (BitVec 8) :=
  lastValue (flowPairs id routes) key

/-- Keys may be converted if that tells the wanted key from the others. -/
theorem lastValue_flowPairs [DecidableEq α] [DecidableEq κ] {convert : α → κ}
    (routes : List (EmRule α)) {key : α} {key' : κ}
    (same : ∀ rule, key' = convert rule ↔ key = rule) :
    lastValue (flowPairs convert routes) key' = lastFlow routes key := by
  have converted : flowPairs convert routes =
      (flowPairs id routes).map fun pair => (convert pair.1, pair.2) := by
    rw [flowPairs, flowPairs, List.map_map]
    rfl
  rw [converted]
  apply lastValue_map
  intro pair _
  exact eq_comm.trans ((same pair.1).trans eq_comm)

/-- A rule leads to a port that is set up. -/
def EmRule.Enabled (eal : Eal) (mask : BitVec 32) (entry : EmRule α) : Prop :=
  entry.ifOut.setWidth 16 ∈ enabledPorts eal mask

variable [DecidableEq κ] {eal : Eal} {mask : BitVec 32} {hash : RteHash κ} (lawful : hash.Lawful)
  {convert : α → κ}

include lawful

theorem addFlow_holds {flows next : Keyed κ (BitVec 8)} {pairs : List (κ × BitVec 8)}
    {entry : EmRule α} (added : addFlow eal mask hash convert flows entry = some next)
    (holds : flows.Holds hash.positions pairs) :
    next.Holds hash.positions (pairs ++ flowPairs convert (usedFlows mask [entry])) ∧
      ∀ used ∈ usedFlows mask [entry], used.Enabled eal mask := by
  unfold addFlow at added
  by_cases unused : portInMask mask entry.ifOut.toNat = false
  · have noneUsed : usedFlows mask [entry] = [] := by simp [usedFlows, unused]
    rw [if_pos unused] at added
    cases added
    rw [noneUsed]
    refine ⟨?_, fun _ impossible => absurd impossible List.not_mem_nil⟩
    rwa [flowPairs, List.map_nil, List.append_nil]
  · have isSet := Bool.eq_true_of_not_eq_false unused
    have isUsed : usedFlows mask [entry] = [entry] := by simp [usedFlows, isSet]
    rw [if_neg unused] at added
    cases inserted : flows.insert hash.positions (convert entry.key) entry.ifOut with
    | none =>
        rw [inserted] at added
        cases added
    | some flows' =>
        rw [inserted] at added
        dsimp only at added
        by_cases noDevice : eal.rteEthDevInfoGet (entry.ifOut.setWidth 16) = false
        · rw [if_pos noDevice] at added
          cases added
        · rw [if_neg noDevice] at added
          cases added
          rw [isUsed]
          refine ⟨holds.snoc lawful.positions inserted, ?_⟩
          intro used member
          rw [List.mem_singleton.mp member]
          have present := eal.present _ (Bool.eq_true_of_not_eq_false noDevice)
          have same : (entry.ifOut.setWidth 16).toNat = entry.ifOut.toNat := by
            have small := entry.ifOut.isLt
            rw [BitVec.toNat_setWidth]
            exact Nat.mod_eq_of_lt (by omega)
          exact mem_enabledPorts.mpr ⟨present, same ▸ isSet⟩

/-- In a populated table the last used rule for each key is found. -/
theorem addFlows_holds :
    ∀ (routes : List (EmRule α)) (flows next : Keyed κ (BitVec 8)) (pairs : List (κ × BitVec 8)),
      routes.foldlM (addFlow eal mask hash convert) flows = some next →
      flows.Holds hash.positions pairs →
      next.Holds hash.positions (pairs ++ flowPairs convert (usedFlows mask routes)) ∧
        ∀ used ∈ usedFlows mask routes, used.Enabled eal mask := by
  intro routes
  induction routes with
  | nil =>
      intro flows next pairs ended holds
      cases ended
      refine ⟨?_, fun _ impossible => absurd impossible List.not_mem_nil⟩
      rwa [usedFlows, List.filter_nil, flowPairs, List.map_nil, List.append_nil]
  | cons entry routes induction =>
      intro flows next pairs ended holds
      rw [List.foldlM_cons] at ended
      rcases Option.bind_eq_some_iff.mp ended with ⟨middle, added, rest⟩
      rcases addFlow_holds lawful added holds with ⟨middleHolds, entryEnabled⟩
      rcases induction middle next _ rest middleHolds with ⟨nextHolds, restEnabled⟩
      have split : usedFlows mask (entry :: routes) =
          usedFlows mask [entry] ++ usedFlows mask routes :=
        List.filter_append (p := fun entry : EmRule α => portInMask mask entry.ifOut.toNat)
          [entry] routes
      rw [split, flowPairs, List.map_append, ← List.append_assoc]
      refine ⟨nextHolds, ?_⟩
      intro used member
      rcases List.mem_append.mp member with first | later
      · exact entryEnabled used first
      · exact restEnabled used later

end Populate

/-! ## The port of a flow -/

/-- The port of an interface that was found, or else the incoming port. -/
def outPort (portid : BitVec 16) : Option (BitVec 8) → BitVec 16
  | none => portid
  | some ifOut => ifOut.setWidth 16

/-- The interface of the last rule for the five tuple of a packet. Only one of the tables is
filled. -/
def EmRoutes.ipv4Flow (flows : EmRoutes) (ipv6 : Bool) (pkt : RteMbuf) : Option (BitVec 8) :=
  if ipv6 = false then lastFlow flows.ipv4 pkt.ipv45tuple else none

def EmRoutes.ipv6Flow (flows : EmRoutes) (ipv6 : Bool) (pkt : RteMbuf) : Option (BitVec 8) :=
  if ipv6 = true then lastFlow flows.ipv6 pkt.ipv65tuple else none

def flowOut (ipv6 : Bool) (flows : EmRoutes) (pkt : RteMbuf) : Option (BitVec 8) :=
  if IsEmIpv4 pkt then flows.ipv4Flow ipv6 pkt
  else if IsEmIpv6 pkt then flows.ipv6Flow ipv6 pkt
  else none

def flowPort (ipv6 : Bool) (flows : EmRoutes) (pkt : RteMbuf) (portid : BitVec 16) : BitVec 16 :=
  outPort portid (flowOut ipv6 flows pkt)

/-- A type for TCP or UDP that has the bits of an IP type without extension is of that type. -/
def KeepsPromise (ptype : BitVec 32) : Prop :=
  (tcpOrUdp ptype ≠ 0#32 → ptype &&& rtePtypeL3Ipv4 ≠ 0#32 → l3Type ptype = rtePtypeL3Ipv4) ∧
    (tcpOrUdp ptype ≠ 0#32 → ptype &&& rtePtypeL3Ipv6 ≠ 0#32 → l3Type ptype = rtePtypeL3Ipv6)

instance (ptype : BitVec 32) : Decidable (KeepsPromise ptype) :=
  inferInstanceAs (Decidable (_ ∧ _))

/-- What the source requires of packets: no extension and no options. -/
structure RteMbuf.Plain (pkt : RteMbuf) : Prop where
  promise : KeepsPromise pkt.packetType
  noOptions : IsEmIpv4 pkt → pkt.ihl = 5

/-- Tables in which the last flow for each five tuple is found. -/
structure EmTables.Finds (tables : EmTables) (ipv6 : Bool) (flows : EmRoutes) : Prop where
  ipv4 : ∀ (pkt : RteMbuf) (portid : BitVec 16), pkt.ihl = 5 →
    emGetIpv4DstPort tables pkt portid = outPort portid (flows.ipv4Flow ipv6 pkt)
  ipv6 : ∀ (pkt : RteMbuf) (portid : BitVec 16),
    emGetIpv6DstPort tables pkt portid = outPort portid (flows.ipv6Flow ipv6 pkt)

theorem RteHash.table_dstPort {κ : Type} (hash : RteHash κ) (flows : Keyed κ (BitVec 8)) (key : κ)
    (portid : BitVec 16) :
    (hash.table flows).dstPort portid ((hash.table flows).rteHashLookup key) =
      outPort portid (flows.find hash.positions key) := by
  unfold RteHash.table Keyed.find RteHash.positions
  dsimp only
  cases hash.rteHashLookup flows.keys key with
  | none => rfl
  | some pos => rfl

theorem RteHash.noFlows_dstPort {κ : Type} {hash : RteHash κ} (lawful : hash.Lawful) (key : κ)
    (portid : BitVec 16) :
    (hash.table noFlows).dstPort portid ((hash.table noFlows).rteHashLookup key) = portid := by
  have absent : hash.rteHashLookup [] key = none := lawful.positions.empty key
  unfold RteHash.table noFlows
  dsimp only
  rw [absent]
  rfl

theorem RteHash.Lawful.table {κ : Type} {hash : RteHash κ} (lawful : hash.Lawful)
    (flows : Keyed κ (BitVec 8)) : (hash.table flows).Lawful := by
  intro key count i inside
  exact lawful.bulk flows.keys key count i inside

theorem emGetIpv4DstPort_flows {tables : EmTables} {hash : RteHash Register}
    {flows : Keyed Register (BitVec 8)} {routes : List (EmRule Ipv45tuple)}
    (filled : tables.ipv4 = hash.table flows) (masked : tables.mask0 = emMask0)
    (holds : flows.Holds hash.positions
      (flowPairs (fun key => (convertIpv45tuple key).xmm) routes))
    {pkt : RteMbuf} (noOptions : pkt.ihl = 5) (portid : BitVec 16) :
    emGetIpv4DstPort tables pkt portid = outPort portid (lastFlow routes pkt.ipv45tuple) := by
  have key : getIpv45tuple tables pkt = getIpv45tuple tables.setMasks pkt := by
    unfold getIpv45tuple
    rw [masked]
    rfl
  unfold emGetIpv4DstPort
  rw [filled, hash.table_dstPort, holds.found, key]
  apply congrArg (outPort portid)
  apply lastValue_flowPairs
  intro rule
  exact getIpv45tuple_eq_iff_tuple tables pkt noOptions rule

theorem emGetIpv6DstPort_flows {tables : EmTables} {hash : RteHash (Register × Register × Register)}
    {flows : Keyed (Register × Register × Register) (BitVec 8)} {routes : List (EmRule Ipv65tuple)}
    (filled : tables.ipv6 = hash.table flows) (masked1 : tables.mask1 = emMask1)
    (masked2 : tables.mask2 = emMask2)
    (holds : flows.Holds hash.positions
      (flowPairs (fun key => (convertIpv65tuple key).xmm) routes))
    (pkt : RteMbuf) (portid : BitVec 16) :
    emGetIpv6DstPort tables pkt portid = outPort portid (lastFlow routes pkt.ipv65tuple) := by
  have key : getIpv65tuple tables pkt = getIpv65tuple tables.setMasks pkt := by
    unfold getIpv65tuple
    rw [masked1, masked2]
    rfl
  unfold emGetIpv6DstPort
  rw [filled, hash.table_dstPort, holds.found, key]
  apply congrArg (outPort portid)
  apply lastValue_flowPairs
  intro rule
  exact getIpv65tuple_eq_iff_tuple tables pkt rule

/-- The rules of both tables lead to ports that are set up. -/
structure EmRoutes.Enabled (eal : Eal) (mask : BitVec 32) (ipv6 : Bool) (flows : EmRoutes) :
    Prop where
  ipv4 : ipv6 = false → ∀ entry ∈ flows.ipv4, entry.Enabled eal mask
  ipv6 : ipv6 = true → ∀ entry ∈ flows.ipv6, entry.Enabled eal mask

section SetUp

variable {eal : Eal} {mask : BitVec 32} {ipv6 : Bool} {hash4 : RteHash Register}
  {hash6 : RteHash (Register × Register × Register)} (lawful4 : hash4.Lawful)
  (lawful6 : hash6.Lawful) {routes : EmRoutes} {tables : EmTables}

include lawful4 lawful6

theorem setupHash_finds
    (setUp : setupHash eal mask ipv6 hash4 hash6 routes = some tables) :
    tables.Finds ipv6 (routes.used mask) ∧ (routes.used mask).Enabled eal mask ipv6 ∧
      tables.ipv4.Lawful ∧ tables.ipv6.Lawful := by
  unfold setupHash at setUp
  rcases Option.bind_eq_some_iff.mp setUp with ⟨_, _, setUp⟩
  rcases Option.bind_eq_some_iff.mp setUp with ⟨_, _, setUp⟩
  cases ipv6 with
  | false =>
      rcases Option.bind_eq_some_iff.mp setUp with ⟨flows, populated, returned⟩
      have isTables := Option.some.inj returned
      have filled4 : tables.ipv4 = hash4.table flows := by rw [← isTables]
      have filled6 : tables.ipv6 = hash6.table noFlows := by rw [← isTables]
      have masked : tables.mask0 = emMask0 := by rw [← isTables]
      rcases addFlows_holds lawful4 routes.ipv4 noFlows flows [] populated
        (Keyed.Holds.nil lawful4.positions _) with ⟨holds, enabled⟩
      rw [List.nil_append] at holds
      refine ⟨⟨?_, ?_⟩, ⟨fun _ => enabled, nofun⟩, ?_, ?_⟩
      · intro pkt portid noOptions
        exact emGetIpv4DstPort_flows filled4 masked holds noOptions portid
      · intro pkt portid
        unfold emGetIpv6DstPort
        rw [filled6]
        exact RteHash.noFlows_dstPort lawful6 _ portid
      · rw [filled4]
        exact lawful4.table flows
      · rw [filled6]
        exact lawful6.table noFlows
  | true =>
      rcases Option.bind_eq_some_iff.mp setUp with ⟨flows, populated, returned⟩
      have isTables := Option.some.inj returned
      have filled4 : tables.ipv4 = hash4.table noFlows := by rw [← isTables]
      have filled6 : tables.ipv6 = hash6.table flows := by rw [← isTables]
      have masked1 : tables.mask1 = emMask1 := by rw [← isTables]
      have masked2 : tables.mask2 = emMask2 := by rw [← isTables]
      rcases addFlows_holds lawful6 routes.ipv6 noFlows flows [] populated
        (Keyed.Holds.nil lawful6.positions _) with ⟨holds, enabled⟩
      rw [List.nil_append] at holds
      refine ⟨⟨?_, ?_⟩, ⟨nofun, fun _ => enabled⟩, ?_, ?_⟩
      · intro pkt portid _
        unfold emGetIpv4DstPort
        rw [filled4]
        exact RteHash.noFlows_dstPort lawful4 _ portid
      · intro pkt portid
        exact emGetIpv6DstPort_flows filled6 masked1 masked2 holds pkt portid
      · rw [filled4]
        exact lawful4.table noFlows
      · rw [filled6]
        exact lawful6.table flows

end SetUp

/-! ## The port that is looked up -/

theorem lastFlow_mem {α : Type} [DecidableEq α] {routes : List (EmRule α)} {key : α}
    {ifOut : BitVec 8} (found : lastFlow routes key = some ifOut) :
    ∃ entry ∈ routes, entry.ifOut = ifOut := by
  rcases List.mem_map.mp (lastValue_mem found) with ⟨entry, member, same⟩
  exact ⟨entry, member, congrArg Prod.snd same⟩

/-- An interface that may have been found belongs to a port that is set up. -/
def OutEnabled (eal : Eal) (mask : BitVec 32) (found : Option (BitVec 8)) : Prop :=
  ∀ ifOut, found = some ifOut → ifOut.setWidth 16 ∈ enabledPorts eal mask

section Enabled

variable {eal : Eal} {mask : BitVec 32} {ipv6 : Bool} {flows : EmRoutes}
  (enabled : flows.Enabled eal mask ipv6)

include enabled

theorem EmRoutes.Enabled.ipv4Flow (pkt : RteMbuf) :
    OutEnabled eal mask (flows.ipv4Flow ipv6 pkt) := by
  intro ifOut found
  unfold EmRoutes.ipv4Flow at found
  split at found
  · rename_i isIpv4
    rcases lastFlow_mem found with ⟨entry, member, rfl⟩
    exact enabled.ipv4 isIpv4 entry member
  · cases found

theorem EmRoutes.Enabled.ipv6Flow (pkt : RteMbuf) :
    OutEnabled eal mask (flows.ipv6Flow ipv6 pkt) := by
  intro ifOut found
  unfold EmRoutes.ipv6Flow at found
  split at found
  · rename_i isIpv6
    rcases lastFlow_mem found with ⟨entry, member, rfl⟩
    exact enabled.ipv6 isIpv6 entry member
  · cases found

end Enabled

theorem enabledPort_outPort {eal : Eal} {env : Env} {found : Option (BitVec 8)}
    (enabled : OutEnabled eal env.enabledPortMask found) (portid : BitVec 16) :
    enabledPort env (outPort portid found) portid = outPort portid found := by
  cases found with
  | none => exact ite_self _
  | some ifOut =>
      rcases enabledPorts_enabled (enabled ifOut rfl) with ⟨valid, isSet⟩
      apply if_neg
      rintro (outside | notSet)
      · exact absurd valid (Nat.not_lt.mpr outside)
      · exact absurd (isSet.symm.trans notSet) (by decide)

/-- A port number has room in eight bits. -/
theorem outPort_byte {portid : BitVec 16} (inRange : portid.toNat < rteMaxEthports)
    (found : Option (BitVec 8)) :
    ((outPort portid found).setWidth 8).setWidth 16 = outPort portid found := by
  have small : (outPort portid found).toNat < 256 := by
    cases found with
    | none => exact Nat.lt_trans inRange (by decide)
    | some ifOut =>
        have inByte := ifOut.isLt
        change (ifOut.setWidth 16).toNat < 256
        rw [BitVec.toNat_setWidth]
        omega
  apply BitVec.eq_of_toNat_eq
  rw [BitVec.toNat_setWidth, BitVec.toNat_setWidth]
  omega

section Lookup

variable {eal : Eal} {env : Env} {ipv6 : Bool} {flows : EmRoutes} {tables : EmTables}
  (finds : tables.Finds ipv6 flows) (enabled : flows.Enabled eal env.enabledPortMask ipv6)
  {pkt : RteMbuf} (plain : pkt.Plain)

include finds enabled plain

theorem emGetDstPort_flow (portid : BitVec 16) :
    emGetDstPort env tables pkt portid = flowPort ipv6 flows pkt portid := by
  have ports : emGetDstPort env tables pkt portid =
      if IsEmIpv4 pkt then enabledPort env (emGetIpv4DstPort tables pkt portid) portid
      else if IsEmIpv6 pkt then enabledPort env (emGetIpv6DstPort tables pkt portid) portid
      else portid :=
    rfl
  rw [ports, flowPort, flowOut]
  by_cases isIpv4 : IsEmIpv4 pkt
  · rw [if_pos isIpv4, if_pos isIpv4, finds.ipv4 pkt portid (plain.noOptions isIpv4)]
    exact enabledPort_outPort (enabled.ipv4Flow pkt) portid
  · rw [if_neg isIpv4, if_neg isIpv4]
    by_cases isIpv6 : IsEmIpv6 pkt
    · rw [if_pos isIpv6, if_pos isIpv6, finds.ipv6]
      exact enabledPort_outPort (enabled.ipv6Flow pkt) portid
    · rw [if_neg isIpv6, if_neg isIpv6]
      rfl

theorem Sequential.emGetDstPort_flow {portid : BitVec 16}
    (inRange : portid.toNat < rteMaxEthports) :
    Sequential.emGetDstPort env tables pkt portid = flowPort ipv6 flows pkt portid := by
  rw [← L3fwd.emGetDstPort_flow finds enabled plain portid]
  unfold Sequential.emGetDstPort L3fwd.emGetDstPort
  dsimp only
  rw [finds.ipv6, outPort_byte inRange]
  by_cases isIpv4 : tcpOrUdp pkt.packetType ≠ 0#32 ∧ l3Type pkt.packetType = rtePtypeL3Ipv4
  · rw [finds.ipv4 pkt portid (plain.noOptions isIpv4), outPort_byte inRange]
  · rw [if_neg isIpv4, if_neg isIpv4]

omit finds enabled in
/-- A plain packet that shares its type with a group is of that type. -/
theorem emGroupPort_plain {pktType : BitVec 32} (common : pktType &&& pkt.packetType = pktType)
    (portid : BitVec 16) :
    emGroupPort env tables pktType pkt portid = emGetDstPort env tables pkt portid := by
  unfold emGroupPort
  by_cases isIpv4 : tcpOrUdp pktType ≠ 0#32 ∧ l3Type pktType = rtePtypeL3Ipv4
  · have bits := l3Type_hasBits isIpv4.2 (by decide) (by decide)
    have isL4 : tcpOrUdp pkt.packetType ≠ 0#32 := and_ne_zero_of_common common isIpv4.1
    have own : tcpOrUdp pkt.packetType ≠ 0#32 ∧ l3Type pkt.packetType = rtePtypeL3Ipv4 :=
      ⟨isL4, plain.promise.1 isL4 (and_ne_zero_of_common common bits)⟩
    rw [if_pos isIpv4, emGetDstPort, if_pos own]
  · rw [if_neg isIpv4]
    by_cases isIpv6 : tcpOrUdp pktType ≠ 0#32 ∧ l3Type pktType = rtePtypeL3Ipv6
    · have bits := l3Type_hasBits isIpv6.2 (by decide) (by decide)
      have isL4 : tcpOrUdp pkt.packetType ≠ 0#32 := and_ne_zero_of_common common isIpv6.1
      have own : tcpOrUdp pkt.packetType ≠ 0#32 ∧ l3Type pkt.packetType = rtePtypeL3Ipv6 :=
        ⟨isL4, plain.promise.2 isL4 (and_ne_zero_of_common common bits)⟩
      have different : rtePtypeL3Ipv6 ≠ rtePtypeL3Ipv4 := by decide
      rw [if_pos isIpv6, emGetDstPort, if_neg fun both => different (own.2.symm.trans both.2),
        if_pos own]
    · rw [if_neg isIpv6]

end Lookup

/-! ## The port of a burst -/

/-- The five tuple does not depend on the header checksum. -/
theorem RteMbuf.ipv45tuple_congr {pkt : RteMbuf} {data : Nat → BitVec 8}
    (same : ∀ address, address < Ipv4Hdr.hdrChecksum ∨ Ipv4Hdr.hdrChecksum + 2 ≤ address →
      data address = pkt.data address) (noOptions : pkt.ihl = 5) :
    RteMbuf.ihl { pkt with data := data } = 5 ∧
      RteMbuf.ipv45tuple { pkt with data := data } = pkt.ipv45tuple := by
  have isIhl : RteMbuf.ihl { pkt with data := data } = 5 := by
    unfold RteMbuf.ihl at noOptions ⊢
    rw [← noOptions]
    dsimp only
    rw [same Ipv4Hdr.versionIhl (by decide)]
  have loads : ∀ count offset, Ipv4Hdr.hdrChecksum + 2 ≤ offset →
      load count data offset = load count pkt.data offset := by
    intro count offset behind
    apply load_congr
    intro index _
    exact same (offset + index) (.inr (Nat.le_trans behind (Nat.le_add_right offset index)))
  refine ⟨isIhl, ?_⟩
  unfold RteMbuf.ipv45tuple load32 load16
  rw [isIhl, noOptions]
  dsimp only
  rw [loads 4 Ipv4Hdr.dstAddr (by decide), loads 4 Ipv4Hdr.srcAddr (by decide),
    loads 2 (rteEtherHdrLen + 4 * 5) (by decide), loads 2 (rteEtherHdrLen + 4 * 5 + 2) (by decide),
    same Ipv4Hdr.nextProtoId (by decide)]

/-- The packets of a burst are plain. -/
def RxBurst.Plain (burst : RxBurst) : Prop :=
  ∀ i, i < burst.nbRx → (burst.packet i).Plain

/-- Where the packets of a burst go: to the ports of their flows. The generic build drops packets
that are neither TCP nor UDP, the other builds drop bad ones. -/
def flowRouted (build : EmBuild) (ipv6 : Bool) (flows : EmRoutes) : BurstPorts :=
  fun burst portid i =>
    let pkt := burst.packet i
    match build with
    | .generic =>
        if IsEmIpv4 pkt ∨ IsEmIpv6 pkt then flowPort ipv6 flows pkt portid else badPort
    | _ => pkt.checkedPort (flowPort ipv6 flows pkt portid)

section Bursts

variable {eal : Eal} {env : Env} {ipv6 : Bool} {flows : EmRoutes} {tables : EmTables}
  (finds : tables.Finds ipv6 flows) (enabled : flows.Enabled eal env.enabledPortMask ipv6)

include finds enabled

theorem emBurstPort_flow {burst : RxBurst} (plain : burst.Plain) (portid : BitVec 16) {i : Nat}
    (inBurst : i < burst.nbRx) :
    emBurstPort env tables burst portid i = flowPort ipv6 flows (burst.packet i) portid := by
  rw [← emGetDstPort_flow finds enabled (plain i inBurst) portid]
  unfold emBurstPort
  dsimp only
  split
  · apply emGroupPort_plain (plain i inBurst)
    have common := groupType_and (burst.fill fun _ => default)
      (fun other => burst.pktsBurst (i / emHashLookupCount * emHashLookupCount + other))
      (Nat.mod_lt i (by decide : 0 < emHashLookupCount))
    rw [Nat.div_add_mod', burst.fill_pktsBurst _ inBurst] at common
    exact common
  · rfl

theorem emSimpleFate_flow {pkt : RteMbuf} (plain : pkt.Plain) (accepted : ¬ EmRefused env pkt)
    (portid : BitVec 16) :
    (emSimpleFate env tables pkt portid).port =
      if IsEmIpv4 pkt ∨ IsEmIpv6 pkt then flowPort ipv6 flows pkt portid else badPort := by
  unfold emSimpleFate flowPort flowOut
  dsimp only
  by_cases isIpv4 : IsEmIpv4 pkt
  · have passed : ¬ (isValidIpv4Pkt env pkt.data pkt.pktLen pkt.olFlags).2 < 0 :=
      fun refused => accepted ⟨isIpv4, refused⟩
    rcases RteMbuf.ipv45tuple_congr
      (fun address => isValidIpv4Pkt_outside env pkt.data pkt.pktLen pkt.olFlags)
      (plain.noOptions isIpv4) with ⟨noOptions, sameTuple⟩
    have sameFlow : flows.ipv4Flow ipv6 { pkt with
        data := (isValidIpv4Pkt env pkt.data pkt.pktLen pkt.olFlags).1 } =
          flows.ipv4Flow ipv6 pkt := by
      rw [EmRoutes.ipv4Flow, EmRoutes.ipv4Flow, sameTuple]
    rw [if_pos isIpv4, if_pos isIpv4,
      if_pos (Or.inl isIpv4 : IsEmIpv4 pkt ∨ IsEmIpv6 pkt)]
    simp only [l3fwdEmHandleIpv4, if_neg passed]
    change enabledPort env (emGetIpv4DstPort tables _ portid) portid = _
    rw [finds.ipv4 _ portid noOptions, sameFlow]
    exact enabledPort_outPort (enabled.ipv4Flow pkt) portid
  · rw [if_neg isIpv4, if_neg isIpv4]
    by_cases isIpv6 : IsEmIpv6 pkt
    · rw [if_pos isIpv6, if_pos isIpv6,
        if_pos (Or.inr isIpv6 : IsEmIpv4 pkt ∨ IsEmIpv6 pkt)]
      change enabledPort env (emGetIpv6DstPort tables pkt portid) portid = _
      rw [finds.ipv6]
      exact enabledPort_outPort (enabled.ipv6Flow pkt) portid
    · rw [if_neg isIpv6, if_neg (not_or.mpr ⟨isIpv4, isIpv6⟩)]
      rfl

/-- What the builds look up for plain packets is where their flows go. -/
theorem emDstPort_flow (build : EmBuild) {burst : RxBurst} (plain : burst.Plain)
    (fine : build.Fine env burst) {portid : BitVec 16} (incoming : PortEnabled env portid) {i : Nat}
    (inBurst : i < burst.nbRx) :
    emDstPort build env tables burst portid i = flowRouted build ipv6 flows burst portid i := by
  unfold emDstPort flowRouted
  cases build with
  | hashLookupMulti =>
      dsimp only
      rw [vectorFate_port, emBurstPort_flow finds enabled plain portid inBurst]
  | hashLookupSingle =>
      dsimp only
      rw [vectorFate_port,
        Sequential.emGetDstPort_flow finds enabled (plain i inBurst) incoming.exist]
  | generic =>
      rcases fine with ⟨distinct, accepted⟩
      rcases List.mem_map.mp (burst.pktsBurst_mem inBurst) with ⟨packet, member, same⟩
      have isPacket : burst.packet i = packet.2 := by
        rw [RxBurst.packet, ← same]
        exact burst.fill_of_mem distinct _ member
      apply emSimpleFate_flow finds enabled (plain i inBurst)
      rw [isPacket]
      exact accepted packet member

theorem emSendPackets_flow (build : EmBuild)
    (sizes : 0 < env.rxBurstSize ∧ env.rxBurstSize ≤ maxPktBurst)
    (lawful4 : tables.ipv4.Lawful) (lawful6 : tables.ipv6.Lawful) :
    Relays env (PortEnabled env) (build.bound env) (fun burst => build.Fine env burst ∧ burst.Plain)
      (flowRouted build ipv6 flows) (emSendPackets build env tables) := by
  have relays := emSendPackets_relays build sizes lawful4 lawful6
  refine ⟨relays.exist, relays.positive, relays.small, ?_⟩
  intro state burst portid below positive inside fine incoming
  have same : burst.handed (flowRouted build ipv6 flows burst portid) =
      burst.handed (emDstPort build env tables burst portid) :=
    burst.handed_congr fun i inBurst =>
      (emDstPort_flow finds enabled build fine.2 fine.1 incoming inBurst).symm
  rw [same]
  exact relays.relays state burst portid below positive inside fine.1 incoming

end Bursts

/-! ## Software parsing of packet types -/

def rtePtypeL3Ipv4Ext : BitVec 32 := 0x30#32

def rtePtypeL3Ipv6ExtUnknown : BitVec 32 := 0xe0#32

def rteEtherTypeIpv4 : BitVec 16 := 0x0800#16

def rteEtherTypeIpv6 : BitVec 16 := 0x86dd#16

/-- `IPPROTO_TCP` -/
def ipprotoTcp : BitVec 8 := 6#8

/-- `hdr_len == sizeof(struct rte_ipv4_hdr)` is a length of five words. -/
def emParsePtype (m : RteMbuf) : RteMbuf :=
  let etherType := load16 m.data 12
  let packetType :=
    if etherType = bswap16 rteEtherTypeIpv4 then
      let nextProtoId := m.data Ipv4Hdr.nextProtoId
      if 4 * m.ihl = 20 then
        if nextProtoId = ipprotoTcp then rtePtypeL3Ipv4 ||| rtePtypeL4Tcp
        else if nextProtoId = ipprotoUdp then rtePtypeL3Ipv4 ||| rtePtypeL4Udp
        else rtePtypeL3Ipv4
      else
        rtePtypeL3Ipv4Ext
    else if etherType = bswap16 rteEtherTypeIpv6 then
      let proto := m.data (rteEtherHdrLen + 6)
      if proto = ipprotoTcp then rtePtypeL3Ipv6 ||| rtePtypeL4Tcp
      else if proto = ipprotoUdp then rtePtypeL3Ipv6 ||| rtePtypeL4Udp
      else rtePtypeL3Ipv6ExtUnknown
    else
      0#32
  { m with packetType := packetType }

/-- The callback that parses the packets of a burst before they are handed over. -/
def emCbParsePtype (burst : RxBurst) : RxBurst :=
  ⟨burst.packets.map fun packet => (packet.1, emParsePtype packet.2)⟩

/-- The callback is added to every queue with `--parse-ptype`. Otherwise the types come from the
devices. -/
def preparePtypeParser (parsePtype : Bool) (round : PollRound) : PollRound :=
  if parsePtype then { round with rx := fun i => emCbParsePtype (round.rx i) } else round

theorem RteMbuf.plain_of_type {m : RteMbuf} {ptype : BitVec 32} (isType : m.packetType = ptype)
    (promise : KeepsPromise ptype) (noOptions : l3Type ptype = rtePtypeL3Ipv4 → m.ihl = 5) :
    m.Plain := by
  subst isType
  exact ⟨promise, fun isIpv4 => noOptions isIpv4.2⟩

/-- Whatever a packet is, the type that is parsed keeps its promise. -/
theorem emParsePtype_plain (m : RteMbuf) : (emParsePtype m).Plain := by
  have other : ∀ {ptype : BitVec 32}, KeepsPromise ptype → l3Type ptype ≠ rtePtypeL3Ipv4 →
      RteMbuf.Plain { m with packetType := ptype } :=
    fun promise notIpv4 => RteMbuf.plain_of_type rfl promise fun isIpv4 => absurd isIpv4 notIpv4
  have ipv4 : ∀ {ptype : BitVec 32}, KeepsPromise ptype → m.ihl = 5 →
      RteMbuf.Plain { m with packetType := ptype } :=
    fun promise fiveWords => RteMbuf.plain_of_type rfl promise fun _ => fiveWords
  unfold emParsePtype
  dsimp only
  split
  · split
    · rename_i length
      have fiveWords : m.ihl = 5 := by omega
      split
      · exact ipv4 (by decide) fiveWords
      · split
        · exact ipv4 (by decide) fiveWords
        · exact ipv4 (by decide) fiveWords
    · exact other (by decide) (by decide)
  · split
    · split
      · exact other (by decide) (by decide)
      · split
        · exact other (by decide) (by decide)
        · exact other (by decide) (by decide)
    · exact other (by decide) (by decide)

theorem emCbParsePtype_plain (burst : RxBurst) : (emCbParsePtype burst).Plain := by
  intro i inBurst
  rcases List.mem_map.mp ((emCbParsePtype burst).fill_mem (fun _ => default)
    ((emCbParsePtype burst).pktsBurst_mem inBurst)) with ⟨parsed, member, same⟩
  rcases List.mem_map.mp member with ⟨packet, _, rfl⟩
  rw [RxBurst.packet, ← same]
  exact emParsePtype_plain packet.2

theorem preparePtypeParser_single (m : MbufPtr) (pkt : RteMbuf) (rteRdtsc : BitVec 64) :
    preparePtypeParser true (PollRound.single m pkt rteRdtsc) =
      PollRound.single m (emParsePtype pkt) rteRdtsc := by
  have bursts : ∀ i, emCbParsePtype ((PollRound.single m pkt rteRdtsc).rx i) =
      (PollRound.single m (emParsePtype pkt) rteRdtsc).rx i := by
    intro i
    unfold PollRound.single
    dsimp only
    split
    · rfl
    · rfl
  exact congrArg (PollRound.mk · rteRdtsc) (funext bursts)

theorem preparePtypeParser_plain {parsePtype : Bool} {round : PollRound}
    (promised : parsePtype = false → ∀ i, (round.rx i).Plain) (i : Nat) :
    ((preparePtypeParser parsePtype round).rx i).Plain := by
  cases parsePtype with
  | false => exact promised rfl i
  | true => exact emCbParsePtype_plain (round.rx i)

/-! ## From the command line and the files to the ports -/

/-- Keys in a list, each at the position where it first stands. -/
def listHash (κ : Type) [DecidableEq κ] : RteHash κ where
  rteHashCreate := true
  rteHashAddKey := fun keys key => some (keys.idxOf key)
  rteHashLookup := fun keys key => if key ∈ keys then some (keys.idxOf key) else none
  rteHashLookupBulk := fun keys key _ i =>
    if key i ∈ keys then some (keys.idxOf (key i)) else none

theorem listHash_lawful (κ : Type) [DecidableEq κ] : (listHash κ).Lawful where
  positions := {
    empty := by
      intro key
      simp [listHash, RteHash.positions]
    found := by
      intro keys key pos _ added
      have isPos : keys.idxOf key = pos := Option.some.inj added
      have member : key ∈ keys ++ [key] := List.mem_append_right keys List.mem_cons_self
      apply (if_pos member).trans
      rw [← isPos, List.idxOf_append]
      split
      · rfl
      · rename_i absent
        rw [List.idxOf_cons_self, List.idxOf_of_notMem absent, Nat.zero_add]
    kept := by
      intro keys key pos other _ _ different
      have notLast : other ∉ [key] := fun last => different (List.mem_singleton.mp last)
      change (if other ∈ keys ++ [key] then _ else _) = if other ∈ keys then _ else _
      by_cases member : other ∈ keys
      · rw [if_pos member, if_pos (List.mem_append_left [key] member), List.idxOf_append,
          if_pos member]
      · have absent : other ∉ keys ++ [key] := fun within =>
          (List.mem_append.mp within).elim member notLast
        rw [if_neg member, if_neg absent]
    apart := by
      intro keys left right pos _ foundLeft foundRight
      change (if left ∈ keys then _ else _) = some pos at foundLeft
      change (if right ∈ keys then _ else _) = some pos at foundRight
      split at foundLeft
      · rename_i member
        split at foundRight
        · apply (List.idxOf_inj member).mp
          exact Option.some.inj (foundLeft.trans foundRight.symm)
        · cases foundRight
      · cases foundLeft }
  bulk := fun _ _ _ _ _ => rfl

/-- `-p 3 --config (0,0,2),(1,0,2) --lookup em --parse-ptype --rule_ipv4 v4 --rule_ipv6 v6` -/
def flowsCommandLine : List Opt :=
  [.portmask (ascii "3"), .config (ascii "(0,0,2),(1,0,2)"), .lookup (ascii "em"),
    .parsePtype, .ruleIpv4 (ascii "v4"), .ruleIpv6 (ascii "v6")]

def goodEmFile6 : Text :=
  ascii "R2001:0200:0000:0000:0000:0000:0000:0000 2001:0200:0000:0000:0000:0000:0000:0001 " ++
    ascii "10 20 17 0\n"

/-- One rule for each family. -/
def flowFiles (name : Bytes) : Text :=
  if name = ascii "v4" then goodEmFile else goodEmFile6

def writtenFlows : EmRoutes where
  ipv4 := [{
    key := {
      ipDst := rteIpv4 1 2 3 4
      ipSrc := rteIpv4 5 6 7 8
      portDst := 10
      portSrc := 20
      proto := ipprotoUdp }
    ifOut := 1 }]
  ipv6 := [{
    key := {
      ipDst := emDefaultAddr 0 0
      ipSrc := emDefaultAddr 0 1
      portDst := 10
      portSrc := 20
      proto := ipprotoUdp }
    ifOut := 0 }]

theorem EmLine.noneNegative {fields : EmLine} (positive : ∀ text ∈ fields.numbers,
    (signedNumeral 0 text).all (fun number => decide (0 ≤ number)) = true) :
    NoneNegative fields := by
  intro _ _ _ _ text member value numeral
  have isPositive := positive text member
  rw [numeral] at isPositive
  exact of_decide_eq_true isPositive

theorem goodEmFile6_fits : ∀ buff ∈ routeLines (readLines goodEmFile6),
    EmV6Fits fullInet buff.tail := by
  have lines : routeLines (readLines goodEmFile6) = [goodEmFile6] := by decide +kernel
  rw [lines]
  intro buff member fields isLine _ _
  rw [List.mem_singleton.mp member] at isLine
  have positive : ∀ fields ∈ emLine goodEmFile6.tail, ∀ text ∈ fields.numbers,
      (signedNumeral 0 text).all (fun number => decide (0 ≤ number)) = true := by
    decide +kernel
  exact EmLine.noneNegative (positive fields isLine)

/-- A packet of the first flow, from behind its Ethernet addresses on. -/
def flowPacket : RteMbuf :=
  { (default : RteMbuf) with
    data := fun address => [8, 0, 0x45, 0, 0, 28, 0, 0, 0, 0, 64, 17, 0, 0, 5, 6, 7, 8, 1, 2, 3, 4,
      0, 20, 0, 10].getD (address - 12) 0 }

end PacketForwarding.L3fwd
