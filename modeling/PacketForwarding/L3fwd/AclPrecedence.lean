import PacketForwarding.L3fwd.AclRules
import PacketForwarding.L3fwd.AclSend

/-! # The first line that matches decides

Priorities fall from line to line, so of all lines that match a packet the first one is
found, whether it is a route or a denial.
-/

namespace PacketForwarding.L3fwd

/-! ## Contexts -/

/-- A rule file that is accepted. -/
structure AclFile (φ : Type) (mask : BitVec 32) where
  parser : RuleParser φ
  file : Text
  rules : AclRules φ
  accepted : aclAddRules mask parser file = some rules

/-- The rule lines of the file. -/
def AclFile.lines {φ : Type} {mask : BitVec 32} (file : AclFile φ mask) : List (AclLine φ) :=
  aclLines file.parser (readLines file.file)

/-- A context built from a rule file by a library that keeps its promises. -/
structure AclContext (φ : Type) [Inhabited φ] (mask : BitVec 32) extends AclFile φ mask where
  lib : RteAcl φ
  context : List (AclRule φ)
  lawful : lib.Lawful
  built : appAclInit lib rules = some context

namespace AclContext

variable {φ : Type} [Inhabited φ] {mask : BitVec 32}

def classify (ctx : AclContext φ mask) (data : Nat → BitVec 8) : BitVec 32 :=
  ctx.lib.classify ctx.context data

/-- What the first line that matches asks for. -/
def firstTarget (ctx : AclContext φ mask) (data : Nat → BitVec 8) : Option AclTarget :=
  (ctx.lines.find? fun line => ctx.lib.fieldsMatch line.field data).map AclLine.target

end AclContext

theorem appAclInit_cases {φ : Type} [Inhabited φ] {lib : RteAcl φ} {load : AclLoad φ}
    {context : List (AclRule φ)} (lawful : lib.Lawful)
    (built : appAclInit lib ⟨load.routeRules, load.routeRules.length, load.aclRules,
      load.aclRules.length⟩ = some context) :
    context = load.routeRules ++ load.aclRules ∧ context.length ≤ maxAclRuleNum := by
  unfold appAclInit at built
  rw [aclEntries_length, aclEntries_length] at built
  rcases Option.bind_eq_some_iff.mp built with ⟨_, _, built⟩
  rcases Option.bind_eq_some_iff.mp built with ⟨_, _, built⟩
  rcases Option.bind_eq_some_iff.mp built with ⟨_, _, built⟩
  rcases Option.bind_eq_some_iff.mp built with ⟨_, added, built⟩
  rcases Option.bind_eq_some_iff.mp built with ⟨_, _, returned⟩
  cases returned
  have fits : lib.addRules maxAclRuleNum load.routeRules load.aclRules = true := by
    simpa [guard] using added
  exact ⟨rfl, lawful.capacity _ _ _ fits⟩

/-- What is known of a context: its rules are those stored for the lines of the file. -/
structure AclContext.Holds {φ : Type} [Inhabited φ] {mask : BitVec 32}
    (ctx : AclContext φ mask) : Prop where
  stored : ∀ rule, rule ∈ ctx.context ↔ StoredFor ctx.lines rule
  capacity : ctx.lines.length ≤ maxAclRuleNum

theorem AclContext.holds {φ : Type} [Inhabited φ] {mask : BitVec 32} (ctx : AclContext φ mask) :
    ctx.Holds := by
  rcases aclAddRules_loaded ctx.accepted with ⟨load, loaded, isLoad⟩
  have built := ctx.built
  rw [isLoad] at built
  rcases appAclInit_cases ctx.lawful built with ⟨context, capacity⟩
  refine ⟨?_, ?_⟩
  · intro rule
    rw [context]
    exact loaded.stored rule
  · rw [context, List.length_append, loaded.whole] at capacity
    exact capacity

/-! ## Priorities -/

/-- No priority wraps within the capacity of a context. -/
theorem storedRule_priority {φ : Type} (before : List (AclLine φ)) (line : AclLine φ)
    (few : before.length ≤ maxAclRuleNum) :
    (storedRule before line).priority.toInt = 0x1fffffff - (before.length : Int) := by
  have small : before.length < 2 ^ 32 := Nat.lt_of_le_of_lt few (by decide)
  have position : (BitVec.ofNat 32 before.length).toNat = before.length := by
    rw [BitVec.toNat_ofNat, Nat.mod_eq_of_lt small]
  have below : before.length ≤ 0x1fffffff := few.trans (by decide)
  have value : (storedRule before line).priority.toNat = 0x1fffffff - before.length := by
    rw [storedRule, BitVec.toNat_sub_of_le]
    · rw [position]
      rfl
    · rw [BitVec.le_def, position]
      exact below
  rw [BitVec.toInt_eq_toNat_of_lt]
  · rw [value]
    omega
  · rw [value]
    omega

/-- No number of a denial clears the signature. -/
theorem not_forwards_deny {number : Nat} (few : number < maxAclRuleNum) :
    ¬ Forwards (aclDenySignature + BitVec.ofNat 32 number) := by
  intro forwards
  have position : (BitVec.ofNat 32 number).toNat = number := by
    have small : number < 2 ^ 32 := Nat.lt_of_lt_of_le few (by decide)
    rw [BitVec.toNat_ofNat, Nat.mod_eq_of_lt small]
  have value : (aclDenySignature + BitVec.ofNat 32 number).toNat = 0xf0000000 + number := by
    rw [BitVec.toNat_add, position, Nat.mod_eq_of_lt]
    · rfl
    · have small : number < 0x10000000 := Nat.lt_of_lt_of_le few (by decide)
      exact Nat.add_lt_add_left small _
  have top : (aclDenySignature + BitVec.ofNat 32 number).getLsbD 31 = true := by
    have msb := BitVec.msb_eq_decide (aclDenySignature + BitVec.ofNat 32 number)
    rw [value] at msb
    rw [BitVec.msb_eq_getLsbD_last] at msb
    rw [msb, decide_eq_true_eq]
    exact Nat.le_trans (by decide) (Nat.le_add_right _ _)
  have cleared := congrArg (fun res => res.getLsbD 31) forwards.1
  rw [BitVec.getLsbD_and, top] at cleared
  exact absurd cleared (by decide)

namespace AclContext

variable {φ : Type} [Inhabited φ] {mask : BitVec 32} (ctx : AclContext φ mask)

/-- Of the rules that match, the library finds that of the first line. -/
theorem classify_first {data : Nat → BitVec 8} {line : AclLine φ}
    (first : ctx.lines.find? (fun line => ctx.lib.fieldsMatch line.field data) = some line) :
    ∃ before, before.length < maxAclRuleNum ∧
      ctx.classify data = (storedRule before line).userdata := by
  rcases List.find?_eq_some_iff_getElem.mp first with ⟨hit, i, inside, isLine, missed⟩
  have found : ctx.lines[i]? = some line := by
    rw [List.getElem?_eq_getElem inside, isLine]
  have length : ∀ j, j < ctx.lines.length → (ctx.lines.take j).length = j := by
    intro j below
    rw [List.length_take, Nat.min_eq_left (Nat.le_of_lt below)]
  have few : ∀ j, j < ctx.lines.length → (ctx.lines.take j).length < maxAclRuleNum := by
    intro j below
    rw [length j below]
    exact Nat.lt_of_lt_of_le below ctx.holds.capacity
  refine ⟨ctx.lines.take i, few i inside, ?_⟩
  apply ctx.lawful.highest
  · exact (ctx.holds.stored _).mpr ⟨i, line, found, rfl⟩
  · exact hit
  · intro other member otherHit different
    rcases (ctx.holds.stored other).mp member with ⟨j, otherLine, otherFound, isOther⟩
    have otherInside := (List.getElem?_eq_some_iff.mp otherFound).1
    subst isOther
    have behind : i < j := by
      rcases Nat.lt_trichotomy j i with earlier | same | later
      · have miss := missed j earlier
        have isEarlier := (List.getElem?_eq_some_iff.mp otherFound).2
        rw [isEarlier] at miss
        rw [storedRule] at otherHit
        rw [otherHit] at miss
        cases miss
      · subst same
        rw [found] at otherFound
        cases otherFound
        exact absurd rfl different
      · exact later
    rw [storedRule_priority _ _ (Nat.le_of_lt (few j otherInside)),
      storedRule_priority _ _ (Nat.le_of_lt (few i inside)), length j otherInside, length i inside]
    omega

theorem classify_forward {data : Nat → BitVec 8} {fwd : BitVec 32}
    (first : ctx.firstTarget data = some (.forward fwd)) :
    ctx.classify data = fwd + fwdPortShift := by
  rcases Option.map_eq_some_iff.mp first with ⟨line, found, target⟩
  rcases ctx.classify_first found with ⟨before, _, result⟩
  rw [result, storedRule, target]

theorem classify_deny {data : Nat → BitVec 8} (first : ctx.firstTarget data = some .deny) :
    ¬ Forwards (ctx.classify data) := by
  rcases Option.map_eq_some_iff.mp first with ⟨line, found, target⟩
  rcases ctx.classify_first found with ⟨before, few, result⟩
  rw [result, storedRule, target]
  exact not_forwards_deny ((List.countP_le_length).trans_lt few)

theorem classify_miss {data : Nat → BitVec 8} (first : ctx.firstTarget data = none) :
    ¬ Forwards (ctx.classify data) := by
  have missed : ctx.classify data = 0#32 := by
    apply ctx.lawful.miss
    intro rule member
    rcases (ctx.holds.stored rule).mp member with ⟨i, line, found, isStored⟩
    have none := List.find?_eq_none.mp (Option.map_eq_none_iff.mp first) line
      (List.mem_of_getElem? found)
    rw [isStored, storedRule]
    exact Bool.of_not_eq_true none
  rw [missed]
  decide

end AclContext

/-! ## Accepted files -/

section Files

variable {φ : Type} {mask : BitVec 32}

/-- Every route of the file has a forward number below the bound. -/
def AclFile.ForwardsBelow (file : AclFile φ mask) (bound : Nat) : Prop :=
  ∀ line ∈ file.lines, ∀ fwd, line.target = .forward fwd → fwd.toNat < bound

/-- The routes of a file lead to enabled ports, and their user data are those of routes. -/
structure AclFile.RoutesEnabled (file : AclFile φ mask) : Prop where
  ports : ∀ line ∈ file.lines, ∀ fwd, line.target = .forward fwd →
    fwd.toNat < 32 ∧ mask.getLsbD fwd.toNat = true
  userdata : ∀ rule ∈ file.rules.routeBase,
    rule.userdata &&& aclDenySignature = 0#32 ∧ rule.userdata ≠ 0#32

/-- A forward number that is a port is read back from the user data. -/
theorem forwards_of_lt {fwd : BitVec 32} (small : fwd.toNat < rteMaxEthports) :
    Forwards (fwd + fwdPortShift) := by
  have cases : ∀ n, n < rteMaxEthports → Forwards (BitVec.ofNat 32 n + fwdPortShift) := by decide
  have all := cases fwd.toNat small
  rw [BitVec.ofNat_toNat, BitVec.setWidth_eq] at all
  exact all

theorem AclFile.loaded (file : AclFile φ mask) :
    ∃ load, Loaded mask file.lines load ∧ file.rules.routeBase = load.routeRules := by
  rcases aclAddRules_loaded file.accepted with ⟨load, loaded, isLoad⟩
  exact ⟨load, loaded, congrArg AclRules.routeBase isLoad⟩

theorem AclFile.routesEnabled {file : AclFile φ mask} (below : file.ForwardsBelow 32) :
    file.RoutesEnabled := by
  rcases file.loaded with ⟨load, loaded, routes⟩
  refine ⟨?_, ?_⟩
  · intro line member fwd target
    have small := below line member fwd target
    have allowed := loaded.inMask line member fwd target
    rw [portInMask_eq, Nat.mod_eq_of_lt small] at allowed
    exact ⟨small, allowed⟩
  · intro rule member
    rw [routes] at member
    rcases loaded.routes rule member with ⟨line, inside, fwd, target, userdata⟩
    rw [userdata]
    exact forwards_of_lt (below line inside fwd target)

end Files

/-! ## Files of wildcards -/

def anyIpv4 : Text :=
  ascii "0.0.0.0/0 0.0.0.0/0 0 : 65535 0 : 65535 0x00/0x00"

def anyIpv6 : Text :=
  ascii "0:0:0:0:0:0:0:0/0 0:0:0:0:0:0:0:0/0 0 : 65535 0 : 65535 0x00/0x00"

/-- What the parsers make of lines on which all fields are wildcards, for two forward
numbers. -/
def parseAny (fields : Text) : RuleParser Unit := fun line hasUserdata =>
  if hasUserdata then
    if line = fields ++ ascii " 1\n" then some ((), 1#32)
    else if line = fields ++ ascii " 33\n" then some ((), 33#32)
    else none
  else if line = fields ++ ascii "\n" then some ((), 0#32)
  else none

def routeLine (fields : Text) (number : String) : Text :=
  ascii "R" ++ fields ++ ascii " " ++ ascii number ++ ascii "\n"

def denyLine (fields : Text) : Text :=
  ascii "@" ++ fields ++ ascii "\n"

def AclFile.ofAccepted {φ : Type} {mask : BitVec 32} (parser : RuleParser φ) (file : Text)
    (accepted : (aclAddRules mask parser file).isSome = true) : AclFile φ mask :=
  ⟨parser, file, _, (Option.some_get accepted).symm⟩

def AclContext.ofBuilt {φ : Type} [Inhabited φ] {mask : BitVec 32} (file : AclFile φ mask)
    (fieldsMatch : φ → (Nat → BitVec 8) → Bool)
    (built : (appAclInit (priorityAcl fieldsMatch) file.rules).isSome = true) :
    AclContext φ mask :=
  { file with
    lib := priorityAcl fieldsMatch
    context := _
    lawful := priorityAcl_lawful fieldsMatch
    built := (Option.some_get built).symm }

def everything (_ : Unit) (_ : Nat → BitVec 8) : Bool := true

/-- Where every line matches, the first one decides. -/
theorem AclContext.firstTarget_everything {mask : BitVec 32} {ctx : AclContext Unit mask}
    (wild : ctx.lib.fieldsMatch = everything) {line : AclLine Unit} {rest : List (AclLine Unit)}
    (lines : ctx.lines = line :: rest) (data : Nat → BitVec 8) :
    ctx.firstTarget data = some line.target := by
  rw [AclContext.firstTarget, lines, wild]
  rfl

/-- A route to port 1 and a denial behind it. -/
def routeFirst : AclContext Unit 0x2#32 :=
  .ofBuilt (.ofAccepted (parseAny anyIpv4) (routeLine anyIpv4 "1" ++ denyLine anyIpv4)
    (by decide +kernel)) everything (by decide +kernel)

/-- A denial and a route to port 1 behind it. -/
def denyFirst : AclContext Unit 0x2#32 :=
  .ofBuilt (.ofAccepted (parseAny anyIpv4) (denyLine anyIpv4 ++ routeLine anyIpv4 "1")
    (by decide +kernel)) everything (by decide +kernel)

/-- A route to port 33, where only port 1 is enabled. -/
def routeTo33 : AclContext Unit 0x2#32 :=
  .ofBuilt (.ofAccepted (parseAny anyIpv4) (routeLine anyIpv4 "33") (by decide +kernel))
    everything (by decide +kernel)

def routeIpv6 : AclContext Unit 0x2#32 :=
  .ofBuilt (.ofAccepted (parseAny anyIpv6) (routeLine anyIpv6 "1") (by decide +kernel))
    everything (by decide +kernel)

theorem routeFirst_lines : routeFirst.lines = [⟨(), .forward 1#32⟩, ⟨(), .deny⟩] := by
  decide +kernel

theorem denyFirst_lines : denyFirst.lines = [⟨(), .deny⟩, ⟨(), .forward 1#32⟩] := by
  decide +kernel

theorem routeTo33_lines : routeTo33.lines = [⟨(), .forward 33#32⟩] := by
  decide +kernel

theorem routeIpv6_lines : routeIpv6.lines = [⟨(), .forward 1#32⟩] := by
  decide +kernel

/-! ## Packets -/

section Packets

variable {φ ψ : Type} [Inhabited φ] [Inhabited ψ] {mask : BitVec 32}

/-- The contexts of an lcore. -/
def aclTables (ipv4 : AclContext φ mask) (ipv6 : AclContext ψ mask) : AclTables where
  classifyIpv4 := ipv4.classify
  classifyIpv6 := ipv6.classify

/-- What the first line that matches a packet asks for, in the file for its type. -/
def firstTarget (ipv4 : AclContext φ mask) (ipv6 : AclContext ψ mask) (pkt : RteMbuf) :
    Option AclTarget :=
  match pkt.aclType with
  | .ipv4 => ipv4.firstTarget (mbufIpv42Proto pkt)
  | .ipv6 => ipv6.firstTarget (mbufIpv62Proto pkt)
  | .none => none

/-- The hop that is read from the user data of a target. -/
def targetHop : Option AclTarget → BitVec 16
  | some (.forward fwd) => if Forwards (fwd + fwdPortShift) then fwd.setWidth 16 else badPort
  | some .deny => badPort
  | none => badPort

theorem AclContext.hop_eq (ctx : AclContext φ mask) (data : Nat → BitVec 8) :
    (if Forwards (ctx.classify data) then (ctx.classify data - fwdPortShift).setWidth 16
      else badPort) = targetHop (ctx.firstTarget data) := by
  cases first : ctx.firstTarget data with
  | none => exact if_neg (ctx.classify_miss first)
  | some target =>
      cases target with
      | forward fwd =>
          rw [ctx.classify_forward first, BitVec.add_sub_cancel]
          rfl
      | deny => exact if_neg (ctx.classify_deny first)

/-- The hop of a packet is that of the first line that matches it. -/
theorem aclHop_first (ipv4 : AclContext φ mask) (ipv6 : AclContext ψ mask) (pkt : RteMbuf) :
    aclHop (aclTables ipv4 ipv6) pkt = targetHop (firstTarget ipv4 ipv6 pkt) := by
  unfold aclHop aclResult firstTarget
  cases pkt.aclType with
  | ipv4 => exact ipv4.hop_eq _
  | ipv6 => exact ipv6.hop_eq _
  | none =>
      have dropped : ¬ Forwards 0#32 := by decide
      exact if_neg dropped

/-- What holds of the forward numbers of all routes holds of that of the first line. -/
theorem firstTarget_forward {ipv4 : AclContext φ mask} {ipv6 : AclContext ψ mask}
    {p : BitVec 32 → Prop}
    (all4 : ∀ line ∈ ipv4.lines, ∀ fwd, line.target = .forward fwd → p fwd)
    (all6 : ∀ line ∈ ipv6.lines, ∀ fwd, line.target = .forward fwd → p fwd) {pkt : RteMbuf}
    {fwd : BitVec 32} (first : firstTarget ipv4 ipv6 pkt = some (.forward fwd)) : p fwd := by
  unfold firstTarget at first
  cases kind : pkt.aclType with
  | ipv4 =>
      rw [kind] at first
      rcases Option.map_eq_some_iff.mp first with ⟨line, found, target⟩
      exact all4 line (List.mem_of_find?_eq_some found) fwd target
  | ipv6 =>
      rw [kind] at first
      rcases Option.map_eq_some_iff.mp first with ⟨line, found, target⟩
      exact all6 line (List.mem_of_find?_eq_some found) fwd target
  | none =>
      rw [kind] at first
      cases first

/-- Packets get the port of the first line of the file that matches them if it is a
route, and are dropped if it is a denial or if there is none. -/
theorem aclProcessPkts_first (ipv4 : AclContext φ mask) (ipv6 : AclContext ψ mask)
    (below4 : ipv4.ForwardsBelow 32) (below6 : ipv6.ForwardsBelow 32) (mbufs : MbufHeap)
    (pkts : Nat → MbufPtr) (hops : Nat → BitVec 16) (num : Nat) (aclSearch : AclSearch) (i : Nat)
    (inside : i < num) :
    let hop := (aclProcessPkts (aclTables ipv4 ipv6) mbufs pkts hops num aclSearch).1 i
    let first := firstTarget ipv4 ipv6 (mbufs (pkts i))
    (∀ port, (hop = port ∧ port ≠ badPort ↔ first = some (.forward (port.setWidth 32)))) ∧
      (hop = badPort ↔ first = some .deny ∨ first = none) := by
  intro hop first
  have isHop : hop = targetHop first :=
    ((aclProcessPkts_spec _ mbufs pkts hops num aclSearch).1 i inside).trans (aclHop_first ..)
  clear_value hop
  subst isHop
  cases isFirst : first with
  | none => simp [targetHop]
  | some target =>
      cases target with
      | deny => simp [targetHop]
      | forward fwd =>
          have small : fwd.toNat < 32 := firstTarget_forward below4 below6 isFirst
          have narrow : (fwd.setWidth 16).setWidth 32 = fwd := by
            apply BitVec.eq_of_toNat_eq
            simp only [BitVec.toNat_setWidth]
            omega
          have notBad : fwd.setWidth 16 ≠ badPort := by
            intro bad
            rw [bad] at narrow
            rw [← narrow] at small
            exact absurd small (by decide)
          rw [targetHop, if_pos (forwards_of_lt small)]
          refine ⟨?_, ?_⟩
          · intro port
            constructor
            · rintro ⟨isPort, _⟩
              rw [← isPort, narrow]
            · intro same
              have number : fwd = port.setWidth 32 := by simpa using same
              have isPort : fwd.setWidth 16 = port := by
                rw [number]
                exact BitVec.setWidth_setWidth_of_le port (by decide)
              exact ⟨isPort, isPort ▸ notBad⟩
          · simp [notBad]

/-- A packet whose type says IPv4. -/
def ipv4Packet : RteMbuf :=
  { (default : RteMbuf) with packetType := 0x10#32 }

theorem aclProcessPkts_first_route :
    (aclProcessPkts (aclTables routeFirst routeIpv6) (fun _ => ipv4Packet) id default 1
      default).1 0 = 1#16 := by
  have below4 : routeFirst.ForwardsBelow 32 := by
    rw [AclFile.ForwardsBelow, routeFirst_lines]
    simp
  have below6 : routeIpv6.ForwardsBelow 32 := by
    rw [AclFile.ForwardsBelow, routeIpv6_lines]
    simp
  have first : firstTarget routeFirst routeIpv6 ipv4Packet = some (.forward 1#32) :=
    AclContext.firstTarget_everything rfl routeFirst_lines _
  exact ((aclProcessPkts_first routeFirst routeIpv6 below4 below6 (fun _ => ipv4Packet) id
    default 1 default 0 (by decide)).1 1#16).mpr first |>.1

/-! ## Denials -/

/-- Some denial of the file matches. -/
def AclContext.MatchesAcl (ctx : AclContext φ mask) (data : Nat → BitVec 8) : Prop :=
  ∃ line ∈ ctx.lines, line.target = .deny ∧ ctx.lib.fieldsMatch line.field data = true

/-- A packet matches a denial in the file for its type. -/
def MatchesAcl (ipv4 : AclContext φ mask) (ipv6 : AclContext ψ mask) (pkt : RteMbuf) : Prop :=
  match pkt.aclType with
  | .ipv4 => ipv4.MatchesAcl (mbufIpv42Proto pkt)
  | .ipv6 => ipv6.MatchesAcl (mbufIpv62Proto pkt)
  | .none => False

/-- The user data of a route to this number is not read back as a port. -/
def Undecodable (fwd : BitVec 32) : Prop :=
  ¬ Forwards (fwd + fwdPortShift) ∨ fwd.setWidth 16 = badPort

theorem AclContext.firstTarget_isSome {ctx : AclContext φ mask} {data : Nat → BitVec 8}
    (matched : ctx.MatchesAcl data) : ∃ target, ctx.firstTarget data = some target := by
  rcases matched with ⟨line, member, _, hit⟩
  cases found : ctx.lines.find? fun line => ctx.lib.fieldsMatch line.field data with
  | none => exact absurd hit (List.find?_eq_none.mp found line member)
  | some first => exact ⟨first.target, by rw [AclContext.firstTarget, found]; rfl⟩

theorem firstTarget_isSome {ipv4 : AclContext φ mask} {ipv6 : AclContext ψ mask} {pkt : RteMbuf}
    (matched : MatchesAcl ipv4 ipv6 pkt) : ∃ target, firstTarget ipv4 ipv6 pkt = some target := by
  unfold MatchesAcl at matched
  unfold firstTarget
  cases kind : pkt.aclType with
  | ipv4 =>
      rw [kind] at matched
      exact AclContext.firstTarget_isSome matched
  | ipv6 =>
      rw [kind] at matched
      exact AclContext.firstTarget_isSome matched
  | none =>
      rw [kind] at matched
      exact absurd matched id

/-- A packet that matches a denial is dropped if and only if the first line that matches
it is a denial, or a route whose number is not read back. -/
theorem aclProcessPkts_denied_iff (ipv4 : AclContext φ mask) (ipv6 : AclContext ψ mask)
    (mbufs : MbufHeap) (pkts : Nat → MbufPtr) (hops : Nat → BitVec 16) (num : Nat)
    (aclSearch : AclSearch) (i : Nat) (inside : i < num)
    (matched : MatchesAcl ipv4 ipv6 (mbufs (pkts i))) :
    (aclProcessPkts (aclTables ipv4 ipv6) mbufs pkts hops num aclSearch).1 i = badPort ↔
      firstTarget ipv4 ipv6 (mbufs (pkts i)) = some .deny ∨
      ∃ fwd, firstTarget ipv4 ipv6 (mbufs (pkts i)) = some (.forward fwd) ∧ Undecodable fwd := by
  rw [(aclProcessPkts_spec _ mbufs pkts hops num aclSearch).1 i inside, aclHop_first]
  rcases firstTarget_isSome matched with ⟨target, first⟩
  rw [first]
  cases target with
  | deny => simp [targetHop]
  | forward fwd =>
      by_cases decoded : Forwards (fwd + fwdPortShift)
      · simp [targetHop, Undecodable, decoded]
      · simp [targetHop, Undecodable, decoded]

theorem aclProcessPkts_denied_iff_first :
    (aclProcessPkts (aclTables denyFirst routeIpv6) (fun _ => ipv4Packet) id default 1
      default).1 0 = badPort := by
  have matched : MatchesAcl denyFirst routeIpv6 ipv4Packet := by
    refine ⟨⟨(), .deny⟩, ?_, rfl, rfl⟩
    rw [denyFirst_lines]
    exact List.mem_cons_self
  have first : firstTarget denyFirst routeIpv6 ipv4Packet = some .deny :=
    AclContext.firstTarget_everything rfl denyFirst_lines _
  exact (aclProcessPkts_denied_iff denyFirst routeIpv6 (fun _ => ipv4Packet) id default 1
    default 0 (by decide) matched).mpr (Or.inl first)

/-- A denial behind a route is not seen. -/
theorem aclProcessPkts_shadowed :
    MatchesAcl routeFirst routeIpv6 ipv4Packet ∧
      (aclProcessPkts (aclTables routeFirst routeIpv6) (fun _ => ipv4Packet) id default 1
        default).1 0 = 1#16 := by
  refine ⟨⟨⟨(), .deny⟩, ?_, rfl, rfl⟩, ?_⟩
  · rw [routeFirst_lines]
    exact List.mem_cons_of_mem _ List.mem_cons_self
  · have first : firstTarget routeFirst routeIpv6 ipv4Packet = some (.forward 1#32) :=
      AclContext.firstTarget_everything rfl routeFirst_lines _
    rw [(aclProcessPkts_spec _ _ id default 1 default).1 0 (by decide), aclHop_first]
    rw [first]
    decide

/-! ## Enabled ports -/

/-- Every hop is an enabled port or bad, all hops that are used as an index are inside
the arrays indexed by port, and sending never leaves the array of transmit buffers. -/
structure HopsEnabled (ipv4 : AclContext φ mask) (ipv6 : AclContext ψ mask) : Prop where
  hops : ∀ mbufs pkts hops num aclSearch i, i < num →
    let hop := (aclProcessPkts (aclTables ipv4 ipv6) mbufs pkts hops num aclSearch).1 i
    hop = badPort ∨ mask.getLsbD hop.toNat = true
  indices : ∀ mbufs pkts hops num aclSearch i, i < num →
    let result := aclProcessPkts (aclTables ipv4 ipv6) mbufs pkts hops num aclSearch
    result.2 = 0 ∨ result.1 i ≠ badPort → (result.1 i).toNat < rteMaxEthports
  sent : ∀ env state (step : AclStep), env.rxBurstSize ≤ maxPktBurst → step.WellFormed env →
    state.WithinTables → ∀ port,
      step.exec env (aclTables ipv4 ipv6) state ≠ .error (.txMbufsIndex port)

/-- A result that is decoded is the forward number of a line. -/
theorem AclContext.forwards_cases {ctx : AclContext φ mask} {data : Nat → BitVec 8}
    (forwards : Forwards (ctx.classify data)) :
    ∃ line ∈ ctx.lines, ∃ fwd, line.target = .forward fwd ∧
      ctx.classify data - fwdPortShift = fwd := by
  cases first : ctx.firstTarget data with
  | none => exact absurd forwards (ctx.classify_miss first)
  | some target =>
      cases target with
      | deny => exact absurd forwards (ctx.classify_deny first)
      | forward fwd =>
          rcases Option.map_eq_some_iff.mp first with ⟨line, found, isTarget⟩
          refine ⟨line, List.mem_of_find?_eq_some found, fwd, isTarget, ?_⟩
          rw [ctx.classify_forward first, BitVec.add_sub_cancel]

theorem aclTables_portsExist {ipv4 : AclContext φ mask} {ipv6 : AclContext ψ mask}
    (below4 : ipv4.ForwardsBelow 32) (below6 : ipv6.ForwardsBelow 32) :
    (aclTables ipv4 ipv6).PortsExist where
  classifyIpv4 := by
    intro data forwards
    rcases AclContext.forwards_cases forwards with ⟨line, member, fwd, target, result⟩
    have small := below4 line member fwd target
    rw [← result] at small
    exact small
  classifyIpv6 := by
    intro data forwards
    rcases AclContext.forwards_cases forwards with ⟨line, member, fwd, target, result⟩
    have small := below6 line member fwd target
    rw [← result] at small
    exact small

theorem targetHop_enabled {ipv4 : AclContext φ mask} {ipv6 : AclContext ψ mask}
    (below4 : ipv4.ForwardsBelow 32) (below6 : ipv6.ForwardsBelow 32) (pkt : RteMbuf) :
    targetHop (firstTarget ipv4 ipv6 pkt) = badPort ∨
      mask.getLsbD (targetHop (firstTarget ipv4 ipv6 pkt)).toNat = true := by
  cases first : firstTarget ipv4 ipv6 pkt with
  | none => exact Or.inl rfl
  | some target =>
      cases target with
      | deny => exact Or.inl rfl
      | forward fwd =>
          have small : fwd.toNat < 32 := firstTarget_forward below4 below6 first
          have enabled : mask.getLsbD fwd.toNat = true :=
            firstTarget_forward
              (fun line member fwd target =>
                ((AclFile.routesEnabled below4).ports line member fwd target).2)
              (fun line member fwd target =>
                ((AclFile.routesEnabled below6).ports line member fwd target).2) first
          have narrow : (fwd.setWidth 16).toNat = fwd.toNat := by
            rw [BitVec.toNat_setWidth]
            exact Nat.mod_eq_of_lt (small.trans (by decide))
          rw [targetHop, if_pos (forwards_of_lt small), narrow]
          exact Or.inr enabled

theorem hopsEnabled {ipv4 : AclContext φ mask} {ipv6 : AclContext ψ mask}
    (below4 : ipv4.ForwardsBelow 32) (below6 : ipv6.ForwardsBelow 32) : HopsEnabled ipv4 ipv6 where
  hops := by
    intro mbufs pkts hops num aclSearch i inside hop
    have isHop : hop = targetHop (firstTarget ipv4 ipv6 (mbufs (pkts i))) :=
      ((aclProcessPkts_spec _ mbufs pkts hops num aclSearch).1 i inside).trans (aclHop_first ..)
    rw [isHop]
    exact targetHop_enabled below4 below6 _
  indices := by
    intro mbufs pkts hops num aclSearch i inside result used
    rcases aclProcessPkts_spec (aclTables ipv4 ipv6) mbufs pkts hops num aclSearch with
      ⟨isHop, _, drops⟩
    have exist := aclTables_portsExist below4 below6
    have forwards : Forwards (aclResult (aclTables ipv4 ipv6) (mbufs (pkts i))) := by
      rcases used with noDrop | notBad
      · have none := drops.symm.trans noDrop
        exact not_not.mp (Nat.count_iff_forall_not.mp none i inside)
      · by_contra dropped
        exact notBad ((isHop i inside).trans (if_neg dropped))
    have small := aclHop_lt exist _ forwards
    rw [← isHop i inside] at small
    exact small
  sent := by
    intro env state step rxBurst wellFormed within port faulted
    have guarded := step.exec_guarded (aclTables_portsExist below4 below6) rxBurst wellFormed within
    by_cases room : step.RoomFor env (aclTables ipv4 ipv6) state
    · rcases guarded.returns room with ⟨last, returned, _⟩
      rw [returned] at faulted
      cases faulted
    · rw [guarded.faults room] at faulted
      cases faulted

/-- The routes of accepted files lead to enabled ports and packets are sent to enabled
ports only, if and only if no forward number is 32 or more. -/
theorem aclForwards_enabled_iff (ipv4 : AclFile φ mask) (ipv6 : AclFile ψ mask) :
    (ipv4.RoutesEnabled ∧ ipv6.RoutesEnabled ∧
      ∀ (ctx4 : AclContext φ mask) (ctx6 : AclContext ψ mask), ctx4.toAclFile = ipv4 →
        ctx6.toAclFile = ipv6 → HopsEnabled ctx4 ctx6) ↔
      ipv4.ForwardsBelow 32 ∧ ipv6.ForwardsBelow 32 := by
  constructor
  · rintro ⟨enabled4, enabled6, _⟩
    refine ⟨?_, ?_⟩
    · intro line member fwd target
      exact (enabled4.ports line member fwd target).1
    · intro line member fwd target
      exact (enabled6.ports line member fwd target).1
  · rintro ⟨below4, below6⟩
    refine ⟨AclFile.routesEnabled below4, AclFile.routesEnabled below6, ?_⟩
    intro ctx4 ctx6 same4 same6
    subst same4
    subst same6
    exact hopsEnabled below4 below6

end Packets

/-- Port 33 passes for port 1, and packets are sent to it. -/
theorem aclForwards_notEnabled :
    ¬ routeTo33.RoutesEnabled ∧
      (aclProcessPkts (aclTables routeTo33 routeIpv6) (fun _ => ipv4Packet) id default 1
        default).1 0 = 33#16 := by
  refine ⟨?_, ?_⟩
  · intro enabled
    have small := enabled.ports ⟨(), .forward 33#32⟩ (by
      rw [routeTo33_lines]
      exact List.mem_cons_self) 33#32 rfl
    exact absurd small.1 (by decide)
  · have first : firstTarget routeTo33 routeIpv6 ipv4Packet = some (.forward 33#32) :=
      AclContext.firstTarget_everything rfl routeTo33_lines _
    rw [(aclProcessPkts_spec _ _ id default 1 default).1 0 (by decide), aclHop_first]
    rw [first]
    decide

end PacketForwarding.L3fwd
