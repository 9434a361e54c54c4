import PacketForwarding.Foundation.Numerals
import PacketForwarding.Foundation.Pairing
import PacketForwarding.Ports

/-! # Destination ports

Every enabled port forwards to one port, and that one forwards back. The pairs are those of
the command line, which are checked, or the enabled ports two by two. `rte_exit` ends the
program and is `none`.
-/

namespace PacketForwarding.L2fwd

open CString Pairing

/-! ## The pairs of the command line -/

/-- `struct port_pair_params` -/
structure PortPairParams where
  port0 : Nat
  port1 : Nat
  deriving DecidableEq

def strchr (byte : BitVec 8) (s : Bytes) : Option Bytes :=
  match s.dropWhile fun other => other != byte with
  | [] => none
  | found => some found

/-- Such a function of the environment cuts a string at a delimiter into so many pieces at
most. -/
abbrev Strsplit := Bytes → Nat → BitVec 8 → List Bytes

def openParen : BitVec 8 := 40#8

def closeParen : BitVec 8 := 41#8

def comma : BitVec 8 := 44#8

theorem delimits_comma : Delimits comma := ⟨by decide, by decide, by decide, by decide⟩

def parsePortField (field : Bytes) : Option Nat :=
  let result := strtoul 0 field
  if result.erange = true ∨ result.stop = field ∨ rteMaxEthports ≤ result.value then none
  else some result.value

/-- What is copied to the buffer. The size is an `unsigned`. -/
def copiedText (text : Bytes) : Bytes :=
  text.take (text.length % 2 ^ 32)

/-- What is between two parentheses. -/
def parsePortPair (rteStrsplit : Strsplit) (s : Bytes) : Option PortPairParams :=
  match rteStrsplit s 2 comma with
  | [field0, field1] => do
      let port0 ← parsePortField field0
      let port1 ← parsePortField field1
      return ⟨port0, port1⟩
  | _ => none

/-- The loop of `l2fwd_parse_port_pair_config`. Every round moves forward, so the length of
the argument bounds the rounds. -/
def parsePortPairs (rteStrsplit : Strsplit) :
    Nat → Bytes → List PortPairParams → Option (List PortPairParams)
  | 0, _, pairs => some pairs
  | fuel + 1, p0, pairs =>
      match strchr openParen p0 with
      | none => some pairs
      | some p =>
          match strchr closeParen p.tail with
          | none => none
          | some p0 =>
              let text := p.tail.takeWhile fun byte => byte != closeParen
              if 256 ≤ text.length % 2 ^ 32 then none
              else do
                let pair ← parsePortPair rteStrsplit (copiedText text)
                if rteMaxEthports / 2 ≤ pairs.length then none
                else parsePortPairs rteStrsplit fuel p0 (pairs ++ [pair])

def parsePortPairConfig (rteStrsplit : Strsplit) (qArg : Bytes) : Option (List PortPairParams) :=
  parsePortPairs rteStrsplit qArg.length qArg []

/-- The pairs, if the option is given. -/
def parsePortmap (rteStrsplit : Strsplit) : Option Bytes → Option (Option (List PortPairParams))
  | none => some none
  | some qArg => (parsePortPairConfig rteStrsplit qArg).map some

/-! ## The check of the pairs -/

/-- Whether a port may be used, and the mask of its pair with it. -/
def checkPort (nbPorts : Nat) (enabledPortMask : BitVec 32) (portid : Nat) (portPairMask : BitVec 32) :
    Option (BitVec 32) :=
  if portInMask enabledPortMask portid = false then none
  else if nbPorts ≤ portid then none
  else some (portPairMask ||| shiftOne portid)

def checkPair (nbPorts : Nat) (enabledPortMask portPairConfigMask : BitVec 32)
    (pair : PortPairParams) : Option (BitVec 32) := do
  let portPairMask ← checkPort nbPorts enabledPortMask pair.port0 0#32
  let portPairMask ← checkPort nbPorts enabledPortMask pair.port1 portPairMask
  if portPairConfigMask &&& portPairMask ≠ 0#32 then none
  else some (portPairConfigMask ||| portPairMask)

/-- The enabled ports that are left. -/
def checkPortPairConfig (nbPorts : Nat) (enabledPortMask : BitVec 32)
    (pairs : List PortPairParams) : Option (BitVec 32) := do
  let portPairConfigMask ← pairs.foldlM (checkPair nbPorts enabledPortMask) 0#32
  return enabledPortMask &&& portPairConfigMask

/-! ## Filling in the destinations -/

def PortPairParams.dst (dstPorts : Nat → Nat) (pair : PortPairParams) : Nat → Nat :=
  Function.update (Function.update dstPorts pair.port0 pair.port1) pair.port1 pair.port0

/-- The destinations, with the port that waits for a partner. -/
structure Alternation where
  dstPorts : Nat → Nat
  lastPort : Nat
  nbPortsInMask : Nat

def Alternation.addPort (enabledPortMask : BitVec 32) (state : Alternation) (portid : Nat) :
    Alternation :=
  -- skip ports that are not enabled
  if portInMask enabledPortMask portid = false then
    state
  else if state.nbPortsInMask % 2 ≠ 0 then
    { state with
      dstPorts := Function.update (Function.update state.dstPorts portid state.lastPort)
        state.lastPort portid
      nbPortsInMask := state.nbPortsInMask + 1 }
  else
    { state with
      lastPort := portid
      nbPortsInMask := state.nbPortsInMask + 1 }

def Alternation.finish (state : Alternation) : Nat → Nat :=
  if state.nbPortsInMask % 2 ≠ 0 then
    Function.update state.dstPorts state.lastPort state.lastPort
  else
    state.dstPorts

/-- The ports that are present are numbered from zero. -/
def rteEthForeachDev (nbPorts : Nat) : List Nat :=
  List.range nbPorts

/-- The mask of the enabled ports and their destinations. -/
structure PortMap where
  enabledPortMask : BitVec 32
  dstPorts : Nat → Nat

/-- The pairs are only checked if there are any. -/
def checkEnabledPorts (nbPorts : Nat) (enabledPortMask : BitVec 32) :
    Option (List PortPairParams) → Option (BitVec 32)
  | none => some enabledPortMask
  | some pairs => checkPortPairConfig nbPorts enabledPortMask pairs

def fillDstPorts (nbPorts : Nat) (enabledPortMask : BitVec 32) :
    Option (List PortPairParams) → Nat → Nat
  | some pairs => pairs.foldl PortPairParams.dst fun _ => 0
  | none =>
      ((rteEthForeachDev nbPorts).foldl (Alternation.addPort enabledPortMask)
        ⟨fun _ => 0, 0, 0⟩).finish

/-- What `main` does until the destinations are filled in. -/
def initPorts (nbPorts : Nat) (enabledPortMask : BitVec 32)
    (portmap : Option (List PortPairParams)) : Option PortMap := do
  guard (nbPorts ≠ 0)
  let enabledPortMask ← checkEnabledPorts nbPorts enabledPortMask portmap
  -- check port mask to possible port mask
  guard (enabledPortMask &&& ~~~(shiftOne nbPorts - 1) = 0#32)
  return ⟨enabledPortMask, fillDstPorts nbPorts enabledPortMask portmap⟩

/-- A port that is enabled and present. -/
def PortMap.Enabled (map : PortMap) (nbPorts portid : Nat) : Prop :=
  portid < nbPorts ∧ portInMask map.enabledPortMask portid = true

/-! ## What the pairs make up -/

def PortPairParams.ports (pair : PortPairParams) : Nat × Nat :=
  (pair.port0, pair.port1)

theorem portInMask_of_lt (mask : BitVec 32) {portid : Nat} (small : portid < 32) :
    portInMask mask portid = mask.getLsbD portid := by
  rw [portInMask_eq, Nat.mod_eq_of_lt small]

theorem checkPort_some {nbPorts portid : Nat} {mask pairMask next : BitVec 32}
    (checked : checkPort nbPorts mask portid pairMask = some next) :
    portid < nbPorts ∧ portInMask mask portid = true ∧ next = pairMask ||| shiftOne portid := by
  rw [checkPort] at checked
  split at checked
  · cases checked
  · rename_i enabled
    split at checked
    · cases checked
    · rename_i present
      exact ⟨Nat.lt_of_not_le present, Bool.of_not_eq_false enabled, (Option.some.inj checked).symm⟩

/-- A pair that passes is made of ports that may be used and are in no pair before it. -/
theorem checkPair_some {nbPorts : Nat} {mask config next : BitVec 32} {pair : PortPairParams}
    (checked : checkPair nbPorts mask config pair = some next) :
    (∀ port, In port pair.ports → port < nbPorts ∧ portInMask mask port = true) ∧
      config &&& (shiftOne pair.port0 ||| shiftOne pair.port1) = 0#32 ∧
      next = config ||| (shiftOne pair.port0 ||| shiftOne pair.port1) := by
  simp only [checkPair, Option.bind_eq_bind, Option.bind_eq_some_iff] at checked
  rcases checked with ⟨first, checked0, second, checked1, joined⟩
  rcases checkPort_some checked0 with ⟨present0, enabled0, rfl⟩
  rcases checkPort_some checked1 with ⟨present1, enabled1, rfl⟩
  rw [BitVec.zero_or] at joined
  split at joined
  · cases joined
  · rename_i apart
    refine ⟨?_, not_not.mp apart, (Option.some.inj joined).symm⟩
    rintro port (rfl | rfl)
    · exact ⟨present0, enabled0⟩
    · exact ⟨present1, enabled1⟩

/-- What the mask of the pairs says after some pairs. -/
structure Checked (nbPorts : Nat) (mask : BitVec 32) (pairs : List PortPairParams)
    (config : BitVec 32) : Prop where
  bits : ∀ port, port < 32 →
    (config.getLsbD port = true ↔ ∃ pair ∈ pairs.map PortPairParams.ports, In port pair)
  apart : (pairs.map PortPairParams.ports).Pairwise Apart
  enabled : ∀ pair ∈ pairs.map PortPairParams.ports, ∀ port, In port pair →
    port < nbPorts ∧ portInMask mask port = true

section Checks

variable {nbPorts : Nat} (few : nbPorts ≤ rteMaxEthports) {mask : BitVec 32}

include few

theorem Checked.snoc {pairs : List PortPairParams} {config next : BitVec 32}
    (sofar : Checked nbPorts mask pairs config) {pair : PortPairParams}
    (checked : checkPair nbPorts mask config pair = some next) :
    Checked nbPorts mask (pairs ++ [pair]) next := by
  rcases checkPair_some checked with ⟨usable, disjoint, rfl⟩
  have small : ∀ port, In port pair.ports → port < 32 := fun port inside =>
    (usable port inside).1.trans_le few
  have pairBits : ∀ port, port < 32 →
      ((shiftOne pair.port0 ||| shiftOne pair.port1).getLsbD port = true ↔ In port pair.ports) := by
    intro port _
    have small0 := small pair.port0 (.inl rfl)
    have small1 := small pair.port1 (.inr rfl)
    rw [BitVec.getLsbD_or, getLsbD_shiftOne, getLsbD_shiftOne, Nat.mod_eq_of_lt small0,
      Nat.mod_eq_of_lt small1, Bool.or_eq_true, decide_eq_true_eq, decide_eq_true_eq]
    rfl
  refine ⟨?_, ?_, ?_⟩
  · intro port inRange
    rw [BitVec.getLsbD_or, Bool.or_eq_true, sofar.bits port inRange, pairBits port inRange,
      List.map_append]
    simp only [List.mem_append, List.map_cons, List.map_nil, List.mem_singleton, or_and_right,
      exists_or, exists_eq_left]
  · rw [List.map_append, List.pairwise_append]
    refine ⟨sofar.apart, List.pairwise_singleton _ _, ?_⟩
    intro earlier member last isLast port inEarlier inLast
    rw [List.map_singleton, List.mem_singleton] at isLast
    rw [isLast] at inLast
    have inRange := small port inLast
    have bit := congrArg (fun both : BitVec 32 => both.getLsbD port) disjoint
    simp only [BitVec.getLsbD_and, (sofar.bits port inRange).mpr ⟨earlier, member, inEarlier⟩,
      (pairBits port inRange).mpr inLast] at bit
    simp at bit
  · intro other member
    rw [List.map_append, List.mem_append] at member
    rcases member with earlier | last
    · exact sofar.enabled other earlier
    · rw [List.map_singleton, List.mem_singleton] at last
      rw [last]
      exact usable

theorem Checked.run : ∀ (rest pairs : List PortPairParams) (config last : BitVec 32),
    Checked nbPorts mask pairs config →
    rest.foldlM (checkPair nbPorts mask) config = some last →
    Checked nbPorts mask (pairs ++ rest) last := by
  intro rest
  induction rest with
  | nil =>
      intro pairs config last sofar ran
      cases ran
      rw [List.append_nil]
      exact sofar
  | cons pair rest induction =>
      intro pairs config last sofar ran
      rw [List.foldlM_cons] at ran
      rcases Option.bind_eq_some_iff.mp ran with ⟨next, checked, ran⟩
      have later := induction (pairs ++ [pair]) next last (sofar.snoc few checked) ran
      rw [List.append_assoc] at later
      exact later

omit few in
theorem Checked.nil : Checked nbPorts mask [] 0#32 where
  bits := by
    intro port _
    simp
  apart := .nil
  enabled := fun _ impossible => absurd impossible List.not_mem_nil

end Checks

/-! ## What the alternation makes up -/

/-- The enabled ports, in the order of the loop. -/
def enabledPorts (nbPorts : Nat) (mask : BitVec 32) : List Nat :=
  (rteEthForeachDev nbPorts).filter (portInMask mask)

theorem nodup_enabledPorts (nbPorts : Nat) (mask : BitVec 32) : (enabledPorts nbPorts mask).Nodup :=
  List.nodup_range.filter _

theorem mem_enabledPorts {nbPorts : Nat} {mask : BitVec 32} {port : Nat} :
    port ∈ enabledPorts nbPorts mask ↔ port < nbPorts ∧ portInMask mask port = true := by
  rw [enabledPorts, List.mem_filter, rteEthForeachDev, List.mem_range]

/-- After some enabled ports all of them are paired, or all but the last. -/
structure Alternation.Holds (seen : List Nat) (state : Alternation) : Prop where
  nbPortsInMask : state.nbPortsInMask = seen.length
  paired : ∃ paired, paired.length % 2 = 0 ∧
    state.dstPorts = links (fun _ => 0) (pairUp paired) ∧
    (seen = paired ∨ seen = paired ++ [state.lastPort])

namespace Alternation

theorem holds_nil : Holds [] ⟨fun _ => 0, 0, 0⟩ where
  nbPortsInMask := rfl
  paired := ⟨[], rfl, rfl, .inl rfl⟩

section Steps

variable {mask : BitVec 32} {seen : List Nat} {state : Alternation} (holds : state.Holds seen)

include holds

theorem Holds.addPort_enabled {port : Nat} (enabled : portInMask mask port = true)
    (fresh : port ∉ seen) : (state.addPort mask port).Holds (seen ++ [port]) := by
  rcases holds with ⟨count, paired, even, filled, pending⟩
  have notSkipped : ¬ portInMask mask port = false := by simp [enabled]
  rw [addPort, if_neg notSkipped]
  rcases pending with whole | waiting
  · have isEven : ¬ state.nbPortsInMask % 2 ≠ 0 := by rw [count, whole]; omega
    rw [if_neg isEven]
    refine ⟨?_, paired, even, filled, .inr (by rw [whole])⟩
    rw [List.length_append, ← count]
    rfl
  · have isOdd : state.nbPortsInMask % 2 ≠ 0 := by
      rw [count, waiting, List.length_append, List.length_singleton]
      omega
    rw [if_pos isOdd]
    have different : state.lastPort ≠ port := by
      rintro rfl
      rw [waiting] at fresh
      exact fresh (List.mem_append_right _ List.mem_cons_self)
    refine ⟨?_, paired ++ [state.lastPort, port], ?_, ?_, .inl ?_⟩
    · rw [List.length_append, ← count]
      rfl
    · rw [List.length_append, List.length_cons, List.length_singleton]
      omega
    · rw [pairUp_append even, links_append, ← filled]
      exact link_swap different
    · rw [waiting, List.append_assoc]
      rfl

theorem Holds.run : ∀ ports : List Nat, (seen ++ ports.filter (portInMask mask)).Nodup →
    (ports.foldl (addPort mask) state).Holds (seen ++ ports.filter (portInMask mask)) := by
  intro ports
  induction ports generalizing seen state with
  | nil =>
      intro _
      rw [List.filter_nil, List.append_nil]
      exact holds
  | cons port ports induction =>
      intro nodup
      rw [List.foldl_cons]
      cases enabled : portInMask mask port with
      | false =>
          have skipped : state.addPort mask port = state := if_pos enabled
          rw [List.filter_cons_of_neg (by simp [enabled])] at nodup ⊢
          rw [skipped]
          exact induction holds nodup
      | true =>
          rw [List.filter_cons_of_pos enabled] at nodup ⊢
          have fresh : port ∉ seen := fun member =>
            (List.nodup_append.mp nodup).2.2 port member port List.mem_cons_self rfl
          have step := holds.addPort_enabled enabled fresh
          have shift : seen ++ port :: ports.filter (portInMask mask) =
              seen ++ [port] ++ ports.filter (portInMask mask) := by simp
          rw [shift] at nodup ⊢
          exact induction step nodup

/-- An odd last port is paired with itself. -/
theorem Holds.finish : state.finish = links (fun _ => 0) (pairUp seen) := by
  rcases holds with ⟨count, paired, even, filled, pending⟩
  rw [Alternation.finish]
  rcases pending with whole | waiting
  · have isEven : ¬ state.nbPortsInMask % 2 ≠ 0 := by rw [count, whole]; omega
    rw [if_neg isEven, filled, whole]
  · have isOdd : state.nbPortsInMask % 2 ≠ 0 := by
      rw [count, waiting, List.length_append, List.length_singleton]
      omega
    rw [if_pos isOdd, waiting, pairUp_append even, links_append, ← filled]
    have single : links state.dstPorts (pairUp [state.lastPort]) =
        Function.update (Function.update state.dstPorts state.lastPort state.lastPort)
          state.lastPort state.lastPort := rfl
    rw [single, Function.update_idem]

end Steps

end Alternation

/-! ## The map -/

/-- The destinations are those of these pairs, which have all enabled ports. -/
structure PortMap.Pairs (map : PortMap) (nbPorts : Nat) (pairs : List (Nat × Nat)) : Prop where
  dstPorts : map.dstPorts = links (fun _ => 0) pairs
  apart : pairs.Pairwise Apart
  covers : ∀ port, map.Enabled nbPorts port ↔ ∃ pair ∈ pairs, In port pair

/-- The pairs of the map, given or made up. -/
def portPairs (nbPorts : Nat) (enabledPortMask : BitVec 32) :
    Option (List PortPairParams) → List (Nat × Nat)
  | some pairs => pairs.map PortPairParams.ports
  | none => pairUp (enabledPorts nbPorts enabledPortMask)

theorem foldl_dst (map : Nat → Nat) (pairs : List PortPairParams) :
    pairs.foldl PortPairParams.dst map = links map (pairs.map PortPairParams.ports) := by
  rw [links, List.foldl_map]
  rfl

/-- What `main` fills in is made up of pairs. -/
theorem initPorts_pairs {nbPorts : Nat} (few : nbPorts ≤ rteMaxEthports) {mask : BitVec 32}
    {portmap : Option (List PortPairParams)} {map : PortMap}
    (init : initPorts nbPorts mask portmap = some map) :
    map.Pairs nbPorts (portPairs nbPorts map.enabledPortMask portmap) := by
  simp only [initPorts, Option.bind_eq_bind, Option.bind_eq_some_iff] at init
  rcases init with ⟨_, _, enabledMask, masked, _, _, same⟩
  cases same
  cases portmap with
  | none =>
      have ran : Alternation.Holds (enabledPorts nbPorts enabledMask)
          ((rteEthForeachDev nbPorts).foldl (Alternation.addPort enabledMask) ⟨fun _ => 0, 0, 0⟩) :=
        Alternation.holds_nil.run (rteEthForeachDev nbPorts) (nodup_enabledPorts nbPorts enabledMask)
      have filled := ran.finish
      refine ⟨filled, apart_pairUp (nodup_enabledPorts nbPorts enabledMask), ?_⟩
      intro port
      exact mem_enabledPorts.symm.trans exists_in_pairUp.symm
  | some pairs =>
      simp only [checkEnabledPorts, checkPortPairConfig, Option.bind_eq_bind,
        Option.bind_eq_some_iff] at masked
      rcases masked with ⟨config, checks, same⟩
      cases same
      have checked := Checked.run few pairs [] 0#32 config .nil checks
      rw [List.nil_append] at checked
      refine ⟨foldl_dst _ pairs, checked.apart, ?_⟩
      intro port
      constructor
      · rintro ⟨present, enabled⟩
        have small : port < 32 := present.trans_le few
        rw [portInMask_of_lt _ small, BitVec.getLsbD_and, Bool.and_eq_true] at enabled
        exact (checked.bits port small).mp enabled.2
      · rintro ⟨pair, member, inside⟩
        rcases checked.enabled pair member port inside with ⟨present, enabled⟩
        have small : port < 32 := present.trans_le few
        refine ⟨present, ?_⟩
        rw [portInMask_of_lt _ small] at enabled ⊢
        rw [BitVec.getLsbD_and, enabled, (checked.bits port small).mpr ⟨pair, member, inside⟩]
        rfl

/-- Every enabled port is forwarded to an enabled port and back. -/
theorem PortMap.Pairs.involution {map : PortMap} {nbPorts : Nat} {pairs : List (Nat × Nat)}
    (made : map.Pairs nbPorts pairs) {port : Nat} (enabled : map.Enabled nbPorts port) :
    map.Enabled nbPorts (map.dstPorts port) ∧ map.dstPorts (map.dstPorts port) = port := by
  rcases (made.covers port).mp enabled with ⟨pair, member, inside⟩
  rcases links_involution made.apart (fun _ => 0) member inside with ⟨dstInside, back⟩
  rw [made.dstPorts]
  exact ⟨(made.covers _).mpr ⟨pair, member, dstInside⟩, back⟩

/-- The port is paired with itself, or it is the odd last one. -/
def SelfPaired (nbPorts : Nat) (enabledPortMask : BitVec 32) (portmap : Option (List PortPairParams))
    (port : Nat) : Prop :=
  match portmap with
  | some pairs => ⟨port, port⟩ ∈ pairs
  | none =>
      (enabledPorts nbPorts enabledPortMask).length % 2 = 1 ∧
        (enabledPorts nbPorts enabledPortMask).getLast? = some port

/-- The destinations are an involution on the enabled ports. -/
theorem dstPorts_involution (rteStrsplit : Strsplit) {nbPorts : Nat}
    (few : nbPorts ≤ rteMaxEthports) (mask : BitVec 32) (qArg : Option Bytes)
    {portmap : Option (List PortPairParams)} (parsed : parsePortmap rteStrsplit qArg = some portmap)
    {map : PortMap} (init : initPorts nbPorts mask portmap = some map) {port : Nat}
    (enabled : map.Enabled nbPorts port) :
    map.Enabled nbPorts (map.dstPorts port) ∧ map.dstPorts (map.dstPorts port) = port ∧
      (map.dstPorts port = port → SelfPaired nbPorts map.enabledPortMask portmap port) := by
  have made := initPorts_pairs few init
  rcases made.involution enabled with ⟨dstEnabled, back⟩
  refine ⟨dstEnabled, back, fun self => ?_⟩
  rcases (made.covers port).mp enabled with ⟨pair, member, inside⟩
  rw [made.dstPorts] at self
  have alone := self_of_links made.apart (fun _ => 0) member inside self
  cases portmap with
  | none => exact last_of_self (nodup_enabledPorts _ _) alone
  | some pairs =>
      rcases List.mem_map.mp alone with ⟨⟨port0, port1⟩, found, same⟩
      cases same
      exact found

/-- The argument `(0,2)`, cut at its comma. -/
def onePair : Bytes := [40#8, 48#8, 44#8, 50#8, 41#8]

def splitAll : Strsplit := fun s _ delim => s.splitOnP fun byte => byte == delim

theorem dstPorts_involution_onePair :
    ∃ portmap map, parsePortmap splitAll (some onePair) = some portmap ∧
      initPorts 4 15#32 portmap = some map ∧ map.Enabled 4 2 ∧
      map.Enabled 4 (map.dstPorts 2) ∧ map.dstPorts (map.dstPorts 2) = 2 ∧
      (map.dstPorts 2 = 2 → SelfPaired 4 map.enabledPortMask portmap 2) := by
  have parsed : parsePortmap splitAll (some onePair) = some (some [⟨0, 2⟩]) := by decide
  have checked : checkPortPairConfig 4 15#32 [⟨0, 2⟩] = some 5#32 := by decide
  have init : initPorts 4 15#32 (some [⟨0, 2⟩]) = some ⟨5#32, fillDstPorts 4 5#32 (some [⟨0, 2⟩])⟩ := by
    simp [initPorts, checkEnabledPorts, checked, shiftOne]
  have enabled : PortMap.Enabled ⟨5#32, fillDstPorts 4 5#32 (some [⟨0, 2⟩])⟩ 4 2 :=
    ⟨by decide, by decide⟩
  exact ⟨_, _, parsed, init, enabled,
    dstPorts_involution splitAll (by decide) 15#32 (some onePair) parsed init enabled⟩

end PacketForwarding.L2fwd
