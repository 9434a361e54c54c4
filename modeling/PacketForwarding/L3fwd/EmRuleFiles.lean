import PacketForwarding.L3fwd.EmRules
import PacketForwarding.L3fwd.RouteFiles

/-! # Exact match rules from two files

The parsers are not exact on every line. On lines with valid addresses and numbers without a
sign they are, and a file of such lines is read as it is written.
-/

namespace PacketForwarding.L3fwd

open CString Lanes

/-! ## Lines that are read as they are written -/

/-- A line with two addresses and four numbers that are written without a sign. -/
def EmV4Form (inet : Inet) (line : Text) (rule : EmRule Ipv45tuple) : Prop :=
  ∃ fields, emLine line = some fields ∧ EmV4Written inet fields rule

def EmV6Form (inet : Inet) (line : Text) (rule : EmRule Ipv65tuple) : Prop :=
  ∃ fields, emLine line = some fields ∧ EmV6Written inet fields rule

theorem readLimited_of_written {limit value : Nat} {text : Text} (nonempty : text ≠ [])
    (small : limit < ulongRange) (written : NumberWritten text limit value) :
    readLimited 0 limit text = some value := by
  rcases written with ⟨numeral, inLimit⟩
  have inRange : value < ulongRange := Nat.lt_of_le_of_lt inLimit small
  have reduced : ((value : Int) % ulongRange).toNat = value := by
    rw [Int.emod_eq_of_lt (Int.natCast_nonneg value) (Int.ofNat_lt.mpr inRange)]
    exact Int.toNat_natCast value
  rw [readLimited, readNumeral_eq 0 nonempty, numeral, Option.bind_some, Int.natAbs_natCast,
    if_pos inRange, reduced]
  exact Option.filter_eq_some_iff.mpr ⟨rfl, decide_eq_true inLimit⟩

section Numbers

variable {κ : Type} (setters : KeyFields κ) {fields : EmLine}

/-- Numbers that are written are stored. -/
theorem emParseNumbers_written
    (tokens : ∀ text ∈ fields.numbers, text ≠ [] ∧ ∀ byte ∈ text, byte ≠ 0#8) (v : EmRule κ)
    {dst src : BitVec 16} {number out : BitVec 8}
    (written : NumbersWritten fields dst src number out) :
    emParseNumbers setters fields.dstPort fields.srcPort fields.proto fields.ifOut v =
      (0, { key := setters.proto number (setters.portDst dst (setters.portSrc src v.key))
            ifOut := out }) := by
  have nonempty : ∀ text ∈ fields.numbers, text ≠ [] := fun text member => (tokens text member).1
  have readDst := readLimited_of_written (nonempty _ (by simp [EmLine.numbers])) (by decide)
    written.portDst
  have readSrc := readLimited_of_written (nonempty _ (by simp [EmLine.numbers])) (by decide)
    written.portSrc
  have readProto := readLimited_of_written (nonempty _ (by simp [EmLine.numbers])) (by decide)
    written.proto
  have readOut := readLimited_of_written (nonempty _ (by simp [EmLine.numbers])) (by decide)
    written.ifOut
  rcases emParseNumbers_cases setters (fun text member => (tokens text member).2) v with
    ⟨_, unread⟩ | ⟨dstPort, srcPort, proto, ifOut, isDst, isSrc, isProto, isOut, stored⟩
  · exact absurd ⟨by rw [readDst]; rfl, by rw [readSrc]; rfl, by rw [readProto]; rfl,
      by rw [readOut]; rfl⟩ unread
  · rw [readDst] at isDst
    rw [readSrc] at isSrc
    rw [readProto] at isProto
    rw [readOut] at isOut
    cases isDst
    cases isSrc
    cases isProto
    cases isOut
    simpa using stored

end Numbers

/-- Lines with valid addresses and without signs are accepted as they are written. -/
theorem accepts_emV4 {inet : Inet} {line : Text} (fits : EmV4Fits inet line)
    (zero : EmRule Ipv45tuple) :
    Accepts (emParseV4Rule inet) zero (EmV4Form inet) line := by
  intro rule
  constructor
  · intro parsed
    have sound := (emV4Sound_iff inet line zero).mpr fits (congrArg Prod.fst parsed)
    rw [parsed] at sound
    exact sound
  · rintro ⟨fields, isLine, written⟩
    rcases emLine_cases line with ⟨others, isOther, found, tokens⟩ | ⟨noLine, _⟩
    · rw [isLine] at isOther
      cases isOther
      rcases written.ipDst with ⟨dstAddr, dst, isDst⟩
      rcases written.ipSrc with ⟨srcAddr, src, isSrc⟩
      have parsed : emParseV4Rule inet line zero =
          emParseNumbers emV4Fields fields.dstPort fields.srcPort fields.proto fields.ifOut
            { zero with key :=
              { zero.key with ipDst := bswap32 dstAddr, ipSrc := bswap32 srcAddr } } := by
        rw [emParseV4Rule, found]
        simp [Inet.inetPton4, dst, src]
      rw [parsed, emParseNumbers_written emV4Fields tokens _ written.numbers, ← isDst, ← isSrc]
      rfl
    · rw [isLine] at noLine
      cases noLine

theorem accepts_emV6 {inet : Inet} {line : Text} (fits : EmV6Fits inet line)
    (zero : EmRule Ipv65tuple) :
    Accepts (emParseV6Rule inet) zero (EmV6Form inet) line := by
  intro rule
  constructor
  · intro parsed
    have sound := (emV6Sound_iff inet line zero).mpr fits (congrArg Prod.fst parsed)
    rw [parsed] at sound
    exact sound
  · rintro ⟨fields, isLine, written⟩
    rcases emLine_cases line with ⟨others, isOther, found, tokens⟩ | ⟨noLine, _⟩
    · rw [isLine] at isOther
      cases isOther
      have parsed : emParseV6Rule inet line zero =
          emParseNumbers emV6Fields fields.dstPort fields.srcPort fields.proto fields.ifOut
            { zero with key :=
              { zero.key with ipDst := rule.key.ipDst, ipSrc := rule.key.ipSrc } } := by
        rw [emParseV6Rule, found]
        simp [emParseV6Net, Inet.inetPton6, written.ipDst, written.ipSrc]
      rw [parsed, emParseNumbers_written emV6Fields tokens _ written.numbers]
      rfl
    · rw [isLine] at noLine
      cases noLine

/-! ## Both files -/

/-- The rules for both kinds of addresses, oldest first. -/
structure EmRoutes where
  ipv4 : List (EmRule Ipv45tuple)
  ipv6 : List (EmRule Ipv65tuple)
  deriving DecidableEq

/-- `IPPROTO_UDP` -/
def ipprotoUdp : BitVec 8 := 17#8

/-- `ipv4_l3fwd_em_route_array`. The sixteen entries differ in one number. -/
def ipv4L3fwdEmRouteArray : List (EmRule Ipv45tuple) :=
  (List.range 16).map fun i =>
    { key := {
        ipDst := rteIpv4 198 18 (BitVec.ofNat 8 i) 0
        ipSrc := rteIpv4 198 18 (BitVec.ofNat 8 i) 1
        portDst := 9
        portSrc := 9
        proto := ipprotoUdp }
      ifOut := BitVec.ofNat 8 i }

/-- `2001:200:0:i::` with a last byte, as it lies in memory. -/
def emDefaultAddr (i last : BitVec 8) : BitVec 128 :=
  ofLanes 8 16 fun index => [32, 1, 2, 0, 0, 0, 0, i, 0, 0, 0, 0, 0, 0, 0, last].getD index 0

/-- `ipv6_l3fwd_em_route_array` -/
def ipv6L3fwdEmRouteArray : List (EmRule Ipv65tuple) :=
  (List.range 16).map fun i =>
    { key := {
        ipDst := emDefaultAddr (BitVec.ofNat 8 i) 0
        ipSrc := emDefaultAddr (BitVec.ofNat 8 i) 1
        portDst := 9
        portSrc := 9
        proto := ipprotoUdp }
      ifOut := BitVec.ofNat 8 i }

def zeroV6Rule : EmRule Ipv65tuple := ⟨default, 0#8⟩

def readConfigFilesEm (inet : Inet) (access : Bytes → FileAccess) (options : Options) :
    Except LoadStop EmRoutes :=
  (readConfigFiles (emAddRules (emParseV4Rule inet) zeroV4Rule)
    (emAddRules (emParseV6Rule inet) zeroV6Rule) (ipv4L3fwdEmRouteArray, ipv6L3fwdEmRouteArray)
    access options).map fun rules => ⟨rules.1, rules.2⟩

/-- The lines of the files that the options name have valid addresses, and numbers without a
sign. -/
structure EmFilesFit (inet : Inet) (files : Bytes → Text) (options : Options) : Prop where
  ipv4 : ∀ name, options.ruleIpv4Name = some name →
    ∀ buff ∈ routeLines (readLines (files name)), EmV4Fits inet buff.tail
  ipv6 : ∀ name, options.ruleIpv6Name = some name →
    ∀ buff ∈ routeLines (readLines (files name)), EmV6Fits inet buff.tail

/-- These rules are written in the files that the options name, or they are the default
ones. -/
def FlowsGiven (inet : Inet) (files : Bytes → Text) (options : Options) (routes : EmRoutes) :
    Prop :=
  RulesGiven (WrittenFile (EmV4Form inet)) (WrittenFile (EmV6Form inet))
    (ipv4L3fwdEmRouteArray, ipv6L3fwdEmRouteArray) files options (routes.ipv4, routes.ipv6)

theorem readConfigFilesEm_iff {inet : Inet} {access : Bytes → FileAccess} {files : Bytes → Text}
    (available : ∀ name, (access name).Available (files name)) {options : Options}
    (fit : EmFilesFit inet files options) (routes : EmRoutes) :
    readConfigFilesEm inet access options = .ok routes ↔ FlowsGiven inet files options routes := by
  have reads : readConfigFiles (emAddRules (emParseV4Rule inet) zeroV4Rule)
      (emAddRules (emParseV6Rule inet) zeroV6Rule)
      (ipv4L3fwdEmRouteArray, ipv6L3fwdEmRouteArray) access options =
        .ok (routes.ipv4, routes.ipv6) ↔ FlowsGiven inet files options routes := by
    apply readConfigFiles_iff
    · intro name isName rules
      exact readRoutes_iff (available name) fun buff member =>
        accepts_emV4 (fit.ipv4 name isName buff member) zeroV4Rule
    · intro name isName rules
      exact readRoutes_iff (available name) fun buff member =>
        accepts_emV6 (fit.ipv6 name isName buff member) zeroV6Rule
  rw [← reads]
  unfold readConfigFilesEm
  cases readConfigFiles (emAddRules (emParseV4Rule inet) zeroV4Rule)
    (emAddRules (emParseV6Rule inet) zeroV6Rule)
    (ipv4L3fwdEmRouteArray, ipv6L3fwdEmRouteArray) access options with
  | error stop => exact ⟨nofun, nofun⟩
  | ok rules =>
      rcases rules with ⟨ipv4, ipv6⟩
      rcases routes with ⟨routes4, routes6⟩
      simp [Except.map]

end PacketForwarding.L3fwd
