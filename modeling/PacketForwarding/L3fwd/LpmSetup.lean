import PacketForwarding.L3fwd.LpmLoop
import PacketForwarding.L3fwd.PollSetup

/-! # Setting up the LPM tables

Routes to ports that are not enabled are skipped. All others must lead to devices, so no
table ever yields a port that the program has not set up.
-/

namespace PacketForwarding.L3fwd

open Lanes

/-- `struct lpm_route_rule`, for addresses of one kind. -/
structure LpmRouteRule (α : Type) where
  ip : α
  depth : BitVec 8
  ifOut : BitVec 8

/-- The routes for both kinds of addresses, oldest first. -/
structure LpmRoutes where
  ipv4 : List (LpmRouteRule (BitVec 32))
  ipv6 : List (LpmRouteRule (BitVec 128))

/-- The libraries `rte_lpm` and `rte_lpm6`. A table is known by the routes added to it. -/
structure RteLpm where
  rteLpmCreate : Bool
  rteLpm6Create : Bool
  rteLpmAdd : List (LpmRouteRule (BitVec 32)) → LpmRouteRule (BitVec 32) → Bool
  rteLpm6Add : List (LpmRouteRule (BitVec 128)) → LpmRouteRule (BitVec 128) → Bool
  rteLpmLookup : List (LpmRouteRule (BitVec 32)) → BitVec 32 → Option (BitVec 32)
  rteLpm6Lookup : List (LpmRouteRule (BitVec 128)) → BitVec 128 → Option (BitVec 32)
  rteLpmLookupx4 : List (LpmRouteRule (BitVec 32)) → Register → BitVec 32 → Register

/-- What the libraries promise: a lookup yields the next hop of a route that was added,
and four lookups at once are four lookups with a default. -/
structure RteLpm.Lawful (lib : RteLpm) : Prop where
  lookup : ∀ rules ip hop, lib.rteLpmLookup rules ip = some hop →
    ∃ rule ∈ rules, hop = rule.ifOut.setWidth 32
  lookup6 : ∀ rules ip hop, lib.rteLpm6Lookup rules ip = some hop →
    ∃ rule ∈ rules, hop = rule.ifOut.setWidth 32
  lookupx4 : ∀ rules ip defv index, index < 4 →
    lane 32 (lib.rteLpmLookupx4 rules ip defv) index =
      (lib.rteLpmLookup rules (lane 32 ip index)).getD defv

def RteLpm.tables (lib : RteLpm) (rules : LpmRoutes) : LpmTables where
  rteLpmLookup := lib.rteLpmLookup rules.ipv4
  rteLpm6Lookup := lib.rteLpm6Lookup rules.ipv6
  rteLpmLookupx4 := lib.rteLpmLookupx4 rules.ipv4

/-- Populate a table with one more route. -/
def addRoute (eal : Eal) (mask : BitVec 32)
    (add : List (LpmRouteRule α) → LpmRouteRule α → Bool) (rules : List (LpmRouteRule α))
    (route : LpmRouteRule α) : Option (List (LpmRouteRule α)) :=
  -- skip unused ports
  if portInMask mask route.ifOut.toNat = false then
    some rules
  else if eal.rteEthDevInfoGet (route.ifOut.setWidth 16) = false then
    none
  else if add rules route = false then
    none
  else
    some (rules ++ [route])

def setupLpm (eal : Eal) (mask : BitVec 32) (lib : RteLpm) (routes : LpmRoutes) :
    Option LpmRoutes := do
  guard lib.rteLpmCreate
  let ipv4 ← routes.ipv4.foldlM (addRoute eal mask lib.rteLpmAdd) []
  guard lib.rteLpm6Create
  let ipv6 ← routes.ipv6.foldlM (addRoute eal mask lib.rteLpm6Add) []
  return ⟨ipv4, ipv6⟩

/-! ## Next hops are enabled ports -/

/-- A route leads to a port that is set up. -/
def LpmRouteRule.Enabled (eal : Eal) (mask : BitVec 32) (rule : LpmRouteRule α) : Prop :=
  rule.ifOut.setWidth 16 ∈ enabledPorts eal mask

theorem addRoute_spec {eal : Eal} {mask : BitVec 32}
    {add : List (LpmRouteRule α) → LpmRouteRule α → Bool} {rules rules' : List (LpmRouteRule α)}
    {route : LpmRouteRule α} (added : addRoute eal mask add rules route = some rules')
    (enabled : ∀ rule ∈ rules, rule.Enabled eal mask) :
    ∀ rule ∈ rules', rule.Enabled eal mask := by
  unfold addRoute at added
  by_cases unused : portInMask mask route.ifOut.toNat = false
  · rw [if_pos unused] at added
    cases added
    exact enabled
  · rw [if_neg unused] at added
    by_cases noDevice : eal.rteEthDevInfoGet (route.ifOut.setWidth 16) = false
    · rw [if_pos noDevice] at added
      cases added
    · rw [if_neg noDevice] at added
      split at added
      · cases added
      · cases added
        intro rule member
        rcases List.mem_append.mp member with before | isRoute
        · exact enabled rule before
        · rw [List.mem_singleton.mp isRoute]
          have present := eal.present _ (Bool.eq_true_of_not_eq_false noDevice)
          refine mem_enabledPorts.mpr ⟨present, ?_⟩
          have same : (route.ifOut.setWidth 16).toNat = route.ifOut.toNat := by
            have small := route.ifOut.isLt
            rw [BitVec.toNat_setWidth]
            exact Nat.mod_eq_of_lt (by omega)
          rw [same]
          exact Bool.eq_true_of_not_eq_false unused

theorem addRoutes_spec {eal : Eal} {mask : BitVec 32}
    {add : List (LpmRouteRule α) → LpmRouteRule α → Bool} :
    ∀ (routes rules rules' : List (LpmRouteRule α)),
      routes.foldlM (addRoute eal mask add) rules = some rules' →
      (∀ rule ∈ rules, rule.Enabled eal mask) → ∀ rule ∈ rules', rule.Enabled eal mask := by
  intro routes
  induction routes with
  | nil =>
      intro rules rules' ended enabled
      cases ended
      exact enabled
  | cons route routes induction =>
      intro rules rules' ended enabled
      rw [List.foldlM_cons] at ended
      rcases Option.bind_eq_some_iff.mp ended with ⟨middle, added, rest⟩
      exact induction middle rules' rest (addRoute_spec added enabled)

/-- Every route in a table leads to a port that is set up. -/
structure LpmRoutes.Enabled (eal : Eal) (mask : BitVec 32) (rules : LpmRoutes) : Prop where
  ipv4 : ∀ rule ∈ rules.ipv4, rule.Enabled eal mask
  ipv6 : ∀ rule ∈ rules.ipv6, rule.Enabled eal mask

theorem setupLpm_enabled {eal : Eal} {mask : BitVec 32} {lib : RteLpm} {routes rules : LpmRoutes}
    (setUp : setupLpm eal mask lib routes = some rules) : rules.Enabled eal mask := by
  have empty : ∀ {α : Type}, ∀ rule ∈ ([] : List (LpmRouteRule α)), rule.Enabled eal mask :=
    fun _ impossible => absurd impossible List.not_mem_nil
  unfold setupLpm at setUp
  rcases Option.bind_eq_some_iff.mp setUp with ⟨_, _, setUp⟩
  rcases Option.bind_eq_some_iff.mp setUp with ⟨ipv4, added4, setUp⟩
  rcases Option.bind_eq_some_iff.mp setUp with ⟨_, _, setUp⟩
  rcases Option.bind_eq_some_iff.mp setUp with ⟨ipv6, added6, setUp⟩
  cases setUp
  exact ⟨addRoutes_spec _ _ _ added4 empty, addRoutes_spec _ _ _ added6 empty⟩

namespace LpmRoutes.Enabled

variable {eal : Eal} {mask : BitVec 32} {lib : RteLpm} {rules : LpmRoutes}
  (enabled : rules.Enabled eal mask) (lawful : lib.Lawful)

include enabled lawful

theorem nextHop {ip : BitVec 32} {hop : BitVec 32}
    (found : (lib.tables rules).rteLpmLookup ip = some hop) :
    hop.setWidth 16 ∈ enabledPorts eal mask := by
  rcases lawful.lookup _ _ _ found with ⟨rule, member, rfl⟩
  rw [BitVec.setWidth_setWidth_of_le _ (by decide)]
  exact enabled.ipv4 rule member

theorem nextHop6 {ip : BitVec 128} {hop : BitVec 32}
    (found : (lib.tables rules).rteLpm6Lookup ip = some hop) :
    hop.setWidth 16 ∈ enabledPorts eal mask := by
  rcases lawful.lookup6 _ _ _ found with ⟨rule, member, rfl⟩
  rw [BitVec.setWidth_setWidth_of_le _ (by decide)]
  exact enabled.ipv6 rule member

/-- Found or not, the port of a packet is enabled if the one it came from is. -/
theorem lpmGetDstPort (pkt : RteMbuf) {portid : BitVec 16}
    (incoming : portid ∈ enabledPorts eal mask) :
    L3fwd.lpmGetDstPort (lib.tables rules) pkt portid ∈ enabledPorts eal mask :=
  lpmGetDstPort_of (fun _ _ found => enabled.nextHop lawful found)
    (fun _ _ found => enabled.nextHop6 lawful found) pkt incoming

omit enabled in
/-- Next hops are the 8-bit interfaces of routes. -/
theorem tables_lawful : (lib.tables rules).Lawful where
  lookupx4 := lawful.lookupx4 rules.ipv4
  nextHop := by
    intro ip hop found
    rcases lawful.lookup _ _ _ found with ⟨rule, _, rfl⟩
    have small := rule.ifOut.isLt
    rw [BitVec.toNat_setWidth]
    exact Nat.lt_of_le_of_lt (Nat.mod_le _ _) small
  nextHop6 := by
    intro ip hop found
    rcases lawful.lookup6 _ _ _ found with ⟨rule, _, rfl⟩
    have small := rule.ifOut.isLt
    rw [BitVec.toNat_setWidth]
    exact Nat.lt_of_le_of_lt (Nat.mod_le _ _) small

end LpmRoutes.Enabled

end PacketForwarding.L3fwd
