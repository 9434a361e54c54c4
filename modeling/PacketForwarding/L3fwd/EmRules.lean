import PacketForwarding.L3fwd.EmKeys
import PacketForwarding.L3fwd.InetAddr
import PacketForwarding.L3fwd.RuleLoaders

/-! # Exact-match rules from a file

A rule line has two addresses and four numbers. The parser of IPv4 lines returns what
`inet_pton` returned, and that is 0 for an invalid address, which the loader takes for
success. Both parsers take a number that is written negative for what it is modulo 2^64.
-/

namespace PacketForwarding.L3fwd

open CString Lanes

/-! ## The parsers -/

/-- `struct em_rule`, for the addresses of one family. -/
structure EmRule (κ : Type) where
  key : κ
  ifOut : BitVec 8
  deriving DecidableEq

def uint16Max : Nat := 65535

def uint8Max : Nat := 255

/-- Where the numbers of a line go. -/
structure KeyFields (κ : Type) where
  portSrc : BitVec 16 → κ → κ
  portDst : BitVec 16 → κ → κ
  proto : BitVec 8 → κ → κ

/-- The four numbers, which both parsers read alike. -/
def emParseNumbers {κ : Type} (fields : KeyFields κ) (portDst portSrc proto ifOut : Text)
    (v : EmRule κ) : Int × EmRule κ :=
  -- source port
  match getCbField portSrc 0 uint16Max 0#8 with
  | none => (-einval, v)
  | some (value, _) =>
      let v := { v with key := fields.portSrc (BitVec.ofNat 16 value) v.key }
      -- destination port
      match getCbField portDst 0 uint16Max 0#8 with
      | none => (-einval, v)
      | some (value, _) =>
          let v := { v with key := fields.portDst (BitVec.ofNat 16 value) v.key }
          -- protocol
          match getCbField proto 0 uint8Max 0#8 with
          | none => (-einval, v)
          | some (value, _) =>
              let v := { v with key := fields.proto (BitVec.ofNat 8 value) v.key }
              -- out interface
              match getCbField ifOut 0 uint8Max 0#8 with
              | none => (-einval, v)
              | some (value, _) => (0, { v with ifOut := BitVec.ofNat 8 value })

def emV4Fields : KeyFields Ipv45tuple where
  portSrc := fun port key => { key with portSrc := port }
  portDst := fun port key => { key with portDst := port }
  proto := fun proto key => { key with proto := proto }

def emV6Fields : KeyFields Ipv65tuple where
  portSrc := fun port key => { key with portSrc := port }
  portDst := fun port key => { key with portDst := port }
  proto := fun proto key => { key with proto := proto }

def emParseV6Net (inet : Inet) (text : Text) (dst : BitVec 128) : Int × BitVec 128 :=
  let (rc, dst) := inet.inetPton6 text dst
  if rc ≠ 1 then (-einval, dst) else (0, dst)

def emParseV6Rule (inet : Inet) (str : Text) (v : EmRule Ipv65tuple) : Int × EmRule Ipv65tuple :=
  match strtoks isBlankDelim 6 (cString str) with
  | some [dstAddr, srcAddr, dstPort, srcPort, proto, ifOut] =>
      let (rc, ipDst) := emParseV6Net inet dstAddr v.key.ipDst
      let v := { v with key := { v.key with ipDst := ipDst } }
      if rc ≠ 0 then (rc, v)
      else
        let (rc, ipSrc) := emParseV6Net inet srcAddr v.key.ipSrc
        let v := { v with key := { v.key with ipSrc := ipSrc } }
        if rc ≠ 0 then (rc, v)
        else emParseNumbers emV6Fields dstPort srcPort proto ifOut v
  | _ => (-einval, v)

/-- Here `ntohl` is applied before the result is looked at, and the result is returned. -/
def emParseV4Rule (inet : Inet) (str : Text) (v : EmRule Ipv45tuple) : Int × EmRule Ipv45tuple :=
  match strtoks isBlankDelim 6 (cString str) with
  | some [dstAddr, srcAddr, dstPort, srcPort, proto, ifOut] =>
      let (rc, ipDst) := inet.inetPton4 dstAddr v.key.ipDst
      let v := { v with key := { v.key with ipDst := bswap32 ipDst } }
      if rc ≠ 1 then (rc, v)
      else
        let (rc, ipSrc) := inet.inetPton4 srcAddr v.key.ipSrc
        let v := { v with key := { v.key with ipSrc := bswap32 ipSrc } }
        if rc ≠ 1 then (rc, v)
        else emParseNumbers emV4Fields dstPort srcPort proto ifOut v
  | _ => (-einval, v)

/-! ## What a line should be -/

/-- The first six tokens of a line. -/
structure EmLine where
  dstAddr : Text
  srcAddr : Text
  dstPort : Text
  srcPort : Text
  proto : Text
  ifOut : Text
  deriving DecidableEq

def EmLine.numbers (fields : EmLine) : List Text :=
  [fields.dstPort, fields.srcPort, fields.proto, fields.ifOut]

def emLine (line : Text) : Option EmLine :=
  match lineTokens line with
  | dstAddr :: srcAddr :: dstPort :: srcPort :: proto :: ifOut :: _ =>
      some { dstAddr, srcAddr, dstPort, srcPort, proto, ifOut }
  | _ => none

/-- The text is a numeral for this value, and the value is in its range. -/
def NumberWritten (text : Text) (limit value : Nat) : Prop :=
  signedNumeral 0 text = some (value : Int) ∧ value ≤ limit

/-- The four numbers of a line are those of the rule. -/
structure NumbersWritten (fields : EmLine) (portDst portSrc : BitVec 16) (proto ifOut : BitVec 8) :
    Prop where
  portDst : NumberWritten fields.dstPort uint16Max portDst.toNat
  portSrc : NumberWritten fields.srcPort uint16Max portSrc.toNat
  proto : NumberWritten fields.proto uint8Max proto.toNat
  ifOut : NumberWritten fields.ifOut uint8Max ifOut.toNat

/-- The line has two addresses and four numbers, and they are those of the rule. -/
structure EmV4Written (inet : Inet) (fields : EmLine) (rule : EmRule Ipv45tuple) : Prop where
  ipDst : ∃ addr, inet.pton4 fields.dstAddr = some addr ∧ rule.key.ipDst = bswap32 addr
  ipSrc : ∃ addr, inet.pton4 fields.srcAddr = some addr ∧ rule.key.ipSrc = bswap32 addr
  numbers : NumbersWritten fields rule.key.portDst rule.key.portSrc rule.key.proto rule.ifOut

structure EmV6Written (inet : Inet) (fields : EmLine) (rule : EmRule Ipv65tuple) : Prop where
  ipDst : inet.pton6 fields.dstAddr = some rule.key.ipDst
  ipSrc : inet.pton6 fields.srcAddr = some rule.key.ipSrc
  numbers : NumbersWritten fields rule.key.portDst rule.key.portSrc rule.key.proto rule.ifOut

/-! ## When it is -/

/-- If all four texts are read within their limits, none of them is written negative. -/
def NoneNegative (fields : EmLine) : Prop :=
  (readLimited 0 uint16Max fields.dstPort).isSome →
    (readLimited 0 uint16Max fields.srcPort).isSome →
    (readLimited 0 uint8Max fields.proto).isSome → (readLimited 0 uint8Max fields.ifOut).isSome →
    ∀ text ∈ fields.numbers, ∀ value, signedNumeral 0 text = some value → 0 ≤ value

/-- A line with six tokens has two valid addresses, and no negative number. -/
def EmV4Fits (inet : Inet) (line : Text) : Prop :=
  ∀ fields, emLine line = some fields →
    (inet.pton4 fields.dstAddr).isSome ∧ (inet.pton4 fields.srcAddr).isSome ∧ NoneNegative fields

/-- A line with six tokens and two valid addresses has no negative number. -/
def EmV6Fits (inet : Inet) (line : Text) : Prop :=
  ∀ fields, emLine line = some fields →
    (inet.pton6 fields.dstAddr).isSome → (inet.pton6 fields.srcAddr).isSome → NoneNegative fields

/-! ## The numbers -/

/-- A text is read as what is written if and only if it is not written negative. -/
theorem readLimited_written {limit value : Nat} {text : Text} (nonempty : text ≠ [])
    (read : readLimited 0 limit text = some value) :
    NumberWritten text limit value ↔ ∀ number, signedNumeral 0 text = some number → 0 ≤ number := by
  rw [readLimited, Option.filter_eq_some_iff] at read
  rcases read with ⟨whole, small⟩
  rw [readNumeral_eq 0 nonempty] at whole
  rcases Option.bind_eq_some_iff.mp whole with ⟨number, numeral, reduced⟩
  split at reduced
  · rename_i inRange
    have same := Option.some.inj reduced
    rw [NumberWritten, numeral]
    constructor
    · rintro ⟨equal, _⟩ _ ⟨rfl⟩
      rw [Option.some.inj equal]
      exact Int.natCast_nonneg value
    · intro positive
      have nonneg := positive number rfl
      have unchanged : number % ulongRange = number :=
        Int.emod_eq_of_lt nonneg (by omega)
      rw [unchanged] at same
      refine ⟨congrArg some ?_, of_decide_eq_true small⟩
      rw [← same]
      exact (Int.toNat_of_nonneg nonneg).symm
  · cases reduced

section Numbers

variable {κ : Type} (setters : KeyFields κ) {fields : EmLine}

/-- The numbers are accepted if each is read within its limit, and stored as they are
read. -/
theorem emParseNumbers_cases (noNul : ∀ text ∈ fields.numbers, ∀ byte ∈ text, byte ≠ 0#8)
    (v : EmRule κ) :
    ((emParseNumbers setters fields.dstPort fields.srcPort fields.proto fields.ifOut v).1 ≠ 0 ∧
      ¬ ((readLimited 0 uint16Max fields.dstPort).isSome ∧
        (readLimited 0 uint16Max fields.srcPort).isSome ∧
        (readLimited 0 uint8Max fields.proto).isSome ∧
        (readLimited 0 uint8Max fields.ifOut).isSome)) ∨
    ∃ dst src number out, readLimited 0 uint16Max fields.dstPort = some dst ∧
      readLimited 0 uint16Max fields.srcPort = some src ∧
      readLimited 0 uint8Max fields.proto = some number ∧
      readLimited 0 uint8Max fields.ifOut = some out ∧
      emParseNumbers setters fields.dstPort fields.srcPort fields.proto fields.ifOut v = (0, {
        key := setters.proto (BitVec.ofNat 8 number) (setters.portDst (BitVec.ofNat 16 dst)
          (setters.portSrc (BitVec.ofNat 16 src) v.key))
        ifOut := BitVec.ofNat 8 out }) := by
  have read : ∀ text ∈ fields.numbers, ∀ limit,
      getCbField text 0 limit 0#8 = (readLimited 0 limit text).map fun value => (value, []) :=
    fun text member limit => getCbField_nul (noNul text member)
  have failed : (-einval) ≠ 0 := by decide
  rw [emParseNumbers, read fields.dstPort (by simp [EmLine.numbers]),
    read fields.srcPort (by simp [EmLine.numbers]), read fields.proto (by simp [EmLine.numbers]),
    read fields.ifOut (by simp [EmLine.numbers])]
  cases src : readLimited 0 uint16Max fields.srcPort with
  | none => exact .inl ⟨failed, by simp⟩
  | some srcValue =>
      cases dst : readLimited 0 uint16Max fields.dstPort with
      | none => exact .inl ⟨failed, by simp⟩
      | some dstValue =>
          cases number : readLimited 0 uint8Max fields.proto with
          | none => exact .inl ⟨failed, by simp⟩
          | some protoValue =>
              cases out : readLimited 0 uint8Max fields.ifOut with
              | none => exact .inl ⟨failed, by simp⟩
              | some outValue => exact .inr ⟨_, _, _, _, rfl, rfl, rfl, rfl, rfl⟩

/-- Numbers that are accepted are the written ones if and only if none is negative. -/
theorem numbersWritten_iff (nonempty : ∀ text ∈ fields.numbers, text ≠ [])
    {dst src number out : Nat} (readDst : readLimited 0 uint16Max fields.dstPort = some dst)
    (readSrc : readLimited 0 uint16Max fields.srcPort = some src)
    (readProto : readLimited 0 uint8Max fields.proto = some number)
    (readOut : readLimited 0 uint8Max fields.ifOut = some out) :
    NumbersWritten fields (BitVec.ofNat 16 dst) (BitVec.ofNat 16 src) (BitVec.ofNat 8 number)
        (BitVec.ofNat 8 out) ↔ NoneNegative fields := by
  have limited : ∀ {text : Text} {limit value : Nat}, readLimited 0 limit text = some value →
      value ≤ limit := fun read => of_decide_eq_true (Option.filter_eq_some_iff.mp read).2
  have dstSmall : (BitVec.ofNat 16 dst).toNat = dst :=
    (BitVec.toNat_ofNat ..).trans (Nat.mod_eq_of_lt (Nat.lt_succ_of_le (limited readDst)))
  have srcSmall : (BitVec.ofNat 16 src).toNat = src :=
    (BitVec.toNat_ofNat ..).trans (Nat.mod_eq_of_lt (Nat.lt_succ_of_le (limited readSrc)))
  have protoSmall : (BitVec.ofNat 8 number).toNat = number :=
    (BitVec.toNat_ofNat ..).trans (Nat.mod_eq_of_lt (Nat.lt_succ_of_le (limited readProto)))
  have outSmall : (BitVec.ofNat 8 out).toNat = out :=
    (BitVec.toNat_ofNat ..).trans (Nat.mod_eq_of_lt (Nat.lt_succ_of_le (limited readOut)))
  have writtenDst := readLimited_written (nonempty _ (by simp [EmLine.numbers])) readDst
  have writtenSrc := readLimited_written (nonempty _ (by simp [EmLine.numbers])) readSrc
  have writtenProto := readLimited_written (nonempty _ (by simp [EmLine.numbers])) readProto
  have writtenOut := readLimited_written (nonempty _ (by simp [EmLine.numbers])) readOut
  constructor
  · rintro ⟨portDst, portSrc, proto, ifOut⟩ _ _ _ _ text member
    rw [dstSmall] at portDst
    rw [srcSmall] at portSrc
    rw [protoSmall] at proto
    rw [outSmall] at ifOut
    simp only [EmLine.numbers, List.mem_cons, List.not_mem_nil, or_false] at member
    rcases member with rfl | rfl | rfl | rfl
    · exact writtenDst.mp portDst
    · exact writtenSrc.mp portSrc
    · exact writtenProto.mp proto
    · exact writtenOut.mp ifOut
  · intro none
    have positive := none (by simp [readDst]) (by simp [readSrc]) (by simp [readProto])
      (by simp [readOut])
    constructor
    · rw [dstSmall]
      exact writtenDst.mpr (positive _ (by simp [EmLine.numbers]))
    · rw [srcSmall]
      exact writtenSrc.mpr (positive _ (by simp [EmLine.numbers]))
    · rw [protoSmall]
      exact writtenProto.mpr (positive _ (by simp [EmLine.numbers]))
    · rw [outSmall]
      exact writtenOut.mpr (positive _ (by simp [EmLine.numbers]))

/-- Where all that a rule still needs is its numbers, what is accepted is as written if and
only if none of them is negative. -/
theorem numbersSound_iff
    (tokens : ∀ text ∈ fields.numbers, text ≠ [] ∧ ∀ byte ∈ text, byte ≠ 0#8) {v : EmRule κ}
    {written : EmRule κ → Prop}
    (rest : ∀ dst src number out, written {
        key := setters.proto number (setters.portDst dst (setters.portSrc src v.key))
        ifOut := out } ↔ NumbersWritten fields dst src number out) :
    ((emParseNumbers setters fields.dstPort fields.srcPort fields.proto fields.ifOut v).1 = 0 →
      written (emParseNumbers setters fields.dstPort fields.srcPort fields.proto fields.ifOut v).2) ↔
      NoneNegative fields := by
  rcases emParseNumbers_cases setters (fun text member => (tokens text member).2) v with
    ⟨rejected, unread⟩ | ⟨dstPort, srcPort, number, out, readDst, readSrc, readProto, readOut,
      stored⟩
  · refine iff_of_true (fun accepted => absurd accepted rejected) ?_
    intro readDst readSrc readProto readOut
    exact absurd ⟨readDst, readSrc, readProto, readOut⟩ unread
  · rw [stored, rest, numbersWritten_iff (fun text member => (tokens text member).1) readDst
      readSrc readProto readOut]
    exact ⟨fun sound => sound rfl, fun sound _ => sound⟩

end Numbers

/-! ## The parsers accept what is written -/

/-- A line has six tokens, or the parsers stop for want of them. -/
theorem emLine_cases (line : Text) :
    (∃ fields, emLine line = some fields ∧ strtoks isBlankDelim 6 (cString line) =
        some [fields.dstAddr, fields.srcAddr, fields.dstPort, fields.srcPort, fields.proto,
          fields.ifOut] ∧
      ∀ text ∈ fields.numbers, text ≠ [] ∧ ∀ byte ∈ text, byte ≠ 0#8) ∨
    (emLine line = none ∧ strtoks isBlankDelim 6 (cString line) = none) := by
  have tokens : ∀ text ∈ lineTokens line, text ≠ [] ∧ ∀ byte ∈ text, byte ≠ 0#8 := by
    intro text member
    rcases mem_lineTokens member with ⟨nonempty, bytes⟩
    exact ⟨nonempty, fun byte inside => (bytes byte inside).1⟩
  have found : strtoks isBlankDelim 6 (cString line) =
      if 6 ≤ (lineTokens line).length then some ((lineTokens line).take 6) else none :=
    strtoks_eq 6 (cString line)
  rw [found, emLine]
  match lineTokens line, tokens with
  | [], _ | [_], _ | [_, _], _ | [_, _, _], _ | [_, _, _, _], _ | [_, _, _, _, _], _ =>
      exact .inr ⟨rfl, rfl⟩
  | dstAddr :: srcAddr :: dstPort :: srcPort :: proto :: ifOut :: rest, tokens =>
      refine .inl ⟨_, rfl, by simp, ?_⟩
      intro text member
      refine tokens text ?_
      simp only [EmLine.numbers, List.mem_cons, List.not_mem_nil, or_false] at member ⊢
      tauto

section Parsers

variable (inet : Inet) (line : Text)

/-- An accepted IPv4 line is a rule as it is written, whatever the entry held before. -/
def EmV4Sound (v : EmRule Ipv45tuple) : Prop :=
  (emParseV4Rule inet line v).1 = 0 →
    ∃ fields, emLine line = some fields ∧ EmV4Written inet fields (emParseV4Rule inet line v).2

def EmV6Sound (v : EmRule Ipv65tuple) : Prop :=
  (emParseV6Rule inet line v).1 = 0 →
    ∃ fields, emLine line = some fields ∧ EmV6Written inet fields (emParseV6Rule inet line v).2

theorem emV4Sound_iff (v : EmRule Ipv45tuple) : EmV4Sound inet line v ↔ EmV4Fits inet line := by
  rw [EmV4Sound, EmV4Fits]
  rcases emLine_cases line with ⟨fields, isLine, found, tokens⟩ | ⟨noLine, notFound⟩
  · rw [isLine]
    simp only [Option.some.injEq, exists_eq_left', forall_eq']
    cases dst : inet.pton4 fields.dstAddr with
    | none =>
        have accepted : (emParseV4Rule inet line v).1 = 0 := by
          rw [emParseV4Rule, found]
          simp [Inet.inetPton4, dst]
        refine iff_of_false ?_ (by simp)
        intro sound
        rcases (sound accepted).ipDst with ⟨addr, valid, _⟩
        rw [dst] at valid
        cases valid
    | some dstAddr =>
        cases src : inet.pton4 fields.srcAddr with
        | none =>
            have accepted : (emParseV4Rule inet line v).1 = 0 := by
              rw [emParseV4Rule, found]
              simp [Inet.inetPton4, dst, src]
            refine iff_of_false ?_ (by simp)
            intro sound
            rcases (sound accepted).ipSrc with ⟨addr, valid, _⟩
            rw [src] at valid
            cases valid
        | some srcAddr =>
            have parsed : emParseV4Rule inet line v =
                emParseNumbers emV4Fields fields.dstPort fields.srcPort fields.proto fields.ifOut
                  { v with key := { v.key with ipDst := bswap32 dstAddr, ipSrc := bswap32 srcAddr } } := by
              rw [emParseV4Rule, found]
              simp [Inet.inetPton4, dst, src]
            rw [parsed]
            simp only [Option.isSome_some, true_and]
            apply numbersSound_iff emV4Fields tokens
            intro dstPort srcPort number out
            exact ⟨fun written => written.numbers,
              fun numbers => ⟨⟨dstAddr, dst, rfl⟩, ⟨srcAddr, src, rfl⟩, numbers⟩⟩
  · have rejected : (emParseV4Rule inet line v).1 ≠ 0 := by
      rw [emParseV4Rule, notFound]
      change -einval ≠ 0
      decide
    refine iff_of_true (fun accepted => absurd accepted rejected) ?_
    rw [noLine]
    exact fun _ => nofun

theorem emV6Sound_iff (v : EmRule Ipv65tuple) : EmV6Sound inet line v ↔ EmV6Fits inet line := by
  rw [EmV6Sound, EmV6Fits]
  rcases emLine_cases line with ⟨fields, isLine, found, tokens⟩ | ⟨noLine, notFound⟩
  · rw [isLine]
    simp only [Option.some.injEq, exists_eq_left', forall_eq']
    cases dst : inet.pton6 fields.dstAddr with
    | none =>
        have rejected : (emParseV6Rule inet line v).1 ≠ 0 := by
          rw [emParseV6Rule, found]
          simp [emParseV6Net, Inet.inetPton6, dst, einval]
        exact iff_of_true (fun accepted => absurd accepted rejected) (by simp)
    | some dstAddr =>
        cases src : inet.pton6 fields.srcAddr with
        | none =>
            have rejected : (emParseV6Rule inet line v).1 ≠ 0 := by
              rw [emParseV6Rule, found]
              simp [emParseV6Net, Inet.inetPton6, dst, src, einval]
            exact iff_of_true (fun accepted => absurd accepted rejected) (by simp)
        | some srcAddr =>
            have parsed : emParseV6Rule inet line v =
                emParseNumbers emV6Fields fields.dstPort fields.srcPort fields.proto fields.ifOut
                  { v with key := { v.key with ipDst := dstAddr, ipSrc := srcAddr } } := by
              rw [emParseV6Rule, found]
              simp [emParseV6Net, Inet.inetPton6, dst, src]
            rw [parsed]
            simp only [Option.isSome_some, true_imp_iff]
            apply numbersSound_iff emV6Fields tokens
            intro dstPort srcPort number out
            exact ⟨fun written => written.numbers, fun numbers => ⟨dst, src, numbers⟩⟩
  · have rejected : (emParseV6Rule inet line v).1 ≠ 0 := by
      rw [emParseV6Rule, notFound]
      change -einval ≠ 0
      decide
    refine iff_of_true (fun accepted => absurd accepted rejected) ?_
    rw [noLine]
    exact fun _ => nofun

end Parsers

/-! ## What the loader installs -/

/-- An accepted file has stored what the parser makes of its route lines, each of which it
accepts. -/
theorem emAddRules_accepted {κ : Type} {parser : Text → EmRule κ → Int × EmRule κ}
    {zero : EmRule κ} {access : FileAccess} {file : Text} (opens : access.fopen = some file)
    {value : Int} {rules : Nat → EmRule κ}
    (accepted : emAddRules parser zero access = .ok ⟨value, some rules⟩) {index : Nat} {buff : Text}
    (route : (routeLines (readLines file))[index]? = some buff) :
    (parser buff.tail zero).1 = 0 ∧ rules index = (parser buff.tail zero).2 := by
  rcases addRules_accepted opens accepted with ⟨good, stores⟩
  refine ⟨?_, stores index buff route⟩
  have member : buff ∈ routeLines (readLines file) := List.mem_of_getElem? route
  rcases List.mem_filter.mp member with ⟨inside, isRoute⟩
  by_contra failed
  exact good buff inside ⟨isBypassLine_rule (.inl (of_decide_eq_true isRoute)), .inr failed⟩

/-- Every rule of an accepted IPv4 file is as written on its line. -/
def EmRulesWritten (inet : Inet) (lines : List Text) (rules : Nat → EmRule Ipv45tuple) : Prop :=
  ∀ index buff, (routeLines lines)[index]? = some buff →
    ∃ fields, emLine buff.tail = some fields ∧ EmV4Written inet fields (rules index)

theorem emRulesWritten_iff {inet : Inet} {zero : EmRule Ipv45tuple} {access : FileAccess}
    {file : Text} (opens : access.fopen = some file) {value : Int}
    {rules : Nat → EmRule Ipv45tuple}
    (accepted : emAddRules (emParseV4Rule inet) zero access = .ok ⟨value, some rules⟩) :
    EmRulesWritten inet (readLines file) rules ↔
      ∀ buff ∈ routeLines (readLines file), EmV4Fits inet buff.tail := by
  constructor
  · intro written buff member
    rcases List.getElem?_of_mem member with ⟨index, route⟩
    rcases emAddRules_accepted opens accepted route with ⟨_, stored⟩
    rw [← emV4Sound_iff inet buff.tail zero]
    intro _
    rw [← stored]
    exact written index buff route
  · intro fits index buff route
    rcases emAddRules_accepted opens accepted route with ⟨returned, stored⟩
    rw [stored]
    exact (emV4Sound_iff inet buff.tail zero).mpr (fits buff (List.mem_of_getElem? route)) returned

/-- The parser of IPv4 lines is sound for the lines that have valid addresses and no
negative number, that of IPv6 lines for those without a negative number, and an accepted
IPv4 file is installed as it is written if all its lines are of this kind. -/
theorem emParse_sound_iff (inet : Inet) :
    (∀ line v, EmV4Sound inet line v ↔ EmV4Fits inet line) ∧
    (∀ line v, EmV6Sound inet line v ↔ EmV6Fits inet line) ∧
    ∀ zero access file value rules, access.fopen = some file →
      emAddRules (emParseV4Rule inet) zero access = .ok ⟨value, some rules⟩ →
      (EmRulesWritten inet (readLines file) rules ↔
        ∀ buff ∈ routeLines (readLines file), EmV4Fits inet buff.tail) :=
  ⟨emV4Sound_iff inet, emV6Sound_iff inet, fun _ _ _ _ _ opens accepted =>
    emRulesWritten_iff opens accepted⟩

def zeroV4Rule : EmRule Ipv45tuple := ⟨default, 0#8⟩

/-- A file with one route, and one with an address that is none. -/
def goodEmFile : Text := ascii "R1.2.3.4 5.6.7.8 10 20 17 1\n"

def badEmFile : Text := ascii "R300.2.3.4 5.6.7.8 10 20 17 1\n"

def fileOf (text : Text) : FileAccess := ⟨some text, true, fun _ => true⟩

theorem goodEmFile_fits : ∀ buff ∈ routeLines (readLines goodEmFile),
    EmV4Fits quadInet buff.tail := by
  have lines : routeLines (readLines goodEmFile) = [goodEmFile] := by decide
  have line : emLine goodEmFile.tail = some ⟨ascii "1.2.3.4", ascii "5.6.7.8", ascii "10",
      ascii "20", ascii "17", ascii "1"⟩ := by
    decide
  rw [lines]
  intro buff member fields isLine
  rw [List.mem_singleton.mp member, line] at isLine
  cases isLine
  refine ⟨by decide, by decide, ?_⟩
  intro _ _ _ _ text member value numeral
  have all : ∀ text ∈ [ascii "10", ascii "20", ascii "17", ascii "1"],
      (signedNumeral 0 text).all (fun number => decide (0 ≤ number)) = true := by
    decide
  have positive := all text member
  rw [numeral] at positive
  exact of_decide_eq_true positive

theorem emParse_sound_iff_good :
    ∃ value rules, emAddRules (emParseV4Rule quadInet) zeroV4Rule (fileOf goodEmFile) =
        .ok ⟨value, some rules⟩ ∧
      EmRulesWritten quadInet (readLines goodEmFile) rules := by
  have accepted : ∃ value rules, emAddRules (emParseV4Rule quadInet) zeroV4Rule (fileOf goodEmFile) =
      .ok ⟨value, some rules⟩ := ⟨_, _, rfl⟩
  rcases accepted with ⟨value, rules, returned⟩
  exact ⟨value, rules, returned, ((emParse_sound_iff quadInet).2.2 zeroV4Rule (fileOf goodEmFile)
    goodEmFile value rules rfl returned).mpr goodEmFile_fits⟩

/-- The address is invalid, and the file is accepted. -/
theorem emAddRules_invalid :
    quadInet.pton4 (ascii "300.2.3.4") = none ∧
      (emParseV4Rule quadInet badEmFile.tail zeroV4Rule).1 = 0 ∧
      ¬ EmV4Sound quadInet badEmFile.tail zeroV4Rule ∧
      ∃ rules, emAddRules (emParseV4Rule quadInet) zeroV4Rule (fileOf badEmFile) =
          .ok ⟨1, some rules⟩ ∧ ¬ EmRulesWritten quadInet (readLines badEmFile) rules := by
  have line : emLine badEmFile.tail = some ⟨ascii "300.2.3.4", ascii "5.6.7.8", ascii "10",
      ascii "20", ascii "17", ascii "1"⟩ := by
    decide
  have invalid : quadInet.pton4 (ascii "300.2.3.4") = none := by decide
  have unsound : ∀ rule, ¬ ∃ fields, emLine badEmFile.tail = some fields ∧
      EmV4Written quadInet fields rule := by
    rintro rule ⟨fields, isLine, written⟩
    rw [line] at isLine
    cases isLine
    rcases written.ipDst with ⟨addr, valid, _⟩
    rw [invalid] at valid
    cases valid
  refine ⟨invalid, rfl, fun sound => unsound _ (sound rfl), _, rfl, ?_⟩
  intro written
  exact unsound _ (written 0 badEmFile (by decide))

end PacketForwarding.L3fwd
