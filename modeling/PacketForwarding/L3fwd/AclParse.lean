import PacketForwarding.L3fwd.AclRules
import PacketForwarding.L3fwd.EmRules

/-! # Parsing access control rules

Both parsers cut a line into nine tokens, or ten with the forward number of a route, and
differ only in how they read a net. What they accept is wider than the documented form: a
number that is not there is read as zero, and one with white space or a sign in front is
read as well.
-/

namespace PacketForwarding.L3fwd

open CString Lanes

/-! ## Nets -/

def colon : BitVec 8 := 58#8

def slash : BitVec 8 := 47#8

def isSlash (byte : BitVec 8) : Bool := byte == slash

/-- The fields of an IPv4 net: an address in host byte order and the length of its mask. -/
structure Ipv4Net where
  value : BitVec 32
  maskRange : BitVec 32
  deriving DecidableEq, Inhabited

def parseIpv4Net (inet : Inet) (input : Text) : Option Ipv4Net := do
  let (sa, rest) ← strtok isSlash input
  let (sm, _) ← strtok isSlash rest
  let addr ← inet.pton4 sa
  let (maskLen, _) ← getCbField sm 0 32 0#8
  return ⟨bswap32 addr, BitVec.ofNat 32 maskLen⟩

/-- The fields of an IPv6 net. The length of the mask is spread over its words. -/
structure Ipv6Net where
  value : Fin 4 → BitVec 32
  maskRange : Fin 4 → BitVec 32
  deriving DecidableEq, Inhabited

/-- One `GET_CB_FIELD` for each delimiter. -/
def getCbFields (base limit : Nat) : List (BitVec 8) → Text → Option (List Nat × Text)
  | [], input => some ([], input)
  | dlm :: dlms, input => do
      let (value, rest) ← getCbField input base limit dlm
      let (values, behind) ← getCbFields base limit dlms rest
      return (value :: values, behind)

/-- Eight groups, the last of which ends at another delimiter. -/
def addrDelims (dlm : BitVec 8) : List (BitVec 8) :=
  [colon, colon, colon, colon, colon, colon, colon, dlm]

/-- Two groups make a word. -/
def addrWords (groups : List Nat) (word : Fin 4) : BitVec 32 :=
  (BitVec.ofNat 32 (groups.getD (2 * word) 0) <<< 16) + BitVec.ofNat 32 (groups.getD (2 * word + 1) 0)

def parseIpv6Addr (input : Text) (dlm : BitVec 8) : Option ((Fin 4 → BitVec 32) × Text) := do
  let (groups, behind) ← getCbFields 16 uint16Max (addrDelims dlm) input
  return (addrWords groups, behind)

/-- The part of the mask that falls on a word. -/
def maskWord (m : Nat) (word : Fin 4) : BitVec 32 :=
  if (word + 1) * 32 ≤ m then 32#32
  else if word * 32 < m then BitVec.ofNat 32 (m - word * 32)
  else 0#32

def parseIpv6Net (input : Text) : Option Ipv6Net := do
  let (v, mp) ← parseIpv6Addr input slash
  let (m, _) ← getCbField mp 0 128 0#8
  return ⟨v, maskWord m⟩

/-! ## Rules -/

/-- The fields of a rule with its nets. -/
structure CbRule (ν : Type) where
  src : ν
  dst : ν
  srcPortLow : BitVec 16
  srcPortHigh : BitVec 16
  dstPortLow : BitVec 16
  dstPortHigh : BitVec 16
  proto : BitVec 8
  protoMask : BitVec 8
  deriving DecidableEq, Inhabited

/-- The tokens of a rule line, in their order. -/
structure CbLine where
  srcAddr : Text
  dstAddr : Text
  srcPortLow : Text
  srcPortDlm : Text
  srcPortHigh : Text
  dstPortLow : Text
  dstPortDlm : Text
  dstPortHigh : Text
  proto : Text
  userdata : Option Text
  deriving DecidableEq

def uint32Max : Nat := 4294967295

/-- The first tokens of a line, with a forward number or without. -/
def cbTokens (hasUserdata : Bool) (str : Text) : Option CbLine :=
  match strtoks isBlankDelim (if hasUserdata then 10 else 9) (cString str) with
  | some (srcAddr :: dstAddr :: srcPortLow :: srcPortDlm :: srcPortHigh :: dstPortLow ::
      dstPortDlm :: dstPortHigh :: proto :: userdata) =>
      some ⟨srcAddr, dstAddr, srcPortLow, srcPortDlm, srcPortHigh, dstPortLow, dstPortDlm,
        dstPortHigh, proto, userdata.head?⟩
  | _ => none

def cbPortDelim : Text := [colon]

section Parser

variable {ν : Type} (parseNet : Text → Option ν)

/-- What is done with the tokens. -/
def parseCbLine (line : CbLine) : Option (CbRule ν × BitVec 32) := do
  let src ← parseNet line.srcAddr
  let dst ← parseNet line.dstAddr
  -- source port
  let (srcPortLow, _) ← getCbField line.srcPortLow 0 uint16Max 0#8
  let (srcPortHigh, _) ← getCbField line.srcPortHigh 0 uint16Max 0#8
  guard (line.srcPortDlm = cbPortDelim)
  -- destination port
  let (dstPortLow, _) ← getCbField line.dstPortLow 0 uint16Max 0#8
  let (dstPortHigh, _) ← getCbField line.dstPortHigh 0 uint16Max 0#8
  guard (line.dstPortDlm = cbPortDelim)
  guard (¬ (srcPortHigh < srcPortLow ∨ dstPortHigh < dstPortLow))
  let (proto, behind) ← getCbField line.proto 0 uint8Max slash
  let (protoMask, _) ← getCbField behind 0 uint8Max 0#8
  let rule : CbRule ν := {
    src
    dst
    srcPortLow := BitVec.ofNat 16 srcPortLow
    srcPortHigh := BitVec.ofNat 16 srcPortHigh
    dstPortLow := BitVec.ofNat 16 dstPortLow
    dstPortHigh := BitVec.ofNat 16 dstPortHigh
    proto := BitVec.ofNat 8 proto
    protoMask := BitVec.ofNat 8 protoMask }
  match line.userdata with
  | none => return (rule, 0#32)
  | some text => do
      let (userdata, _) ← getCbField text 0 uint32Max 0#8
      return (rule, BitVec.ofNat 32 userdata)

/-- The two parsers, which differ in their nets. -/
def parseCbRule : RuleParser (CbRule ν) := fun str hasUserdata => do
  let line ← cbTokens hasUserdata str
  parseCbLine parseNet line

end Parser

def parseCbIpv4vlanRule (inet : Inet) : RuleParser (CbRule Ipv4Net) :=
  parseCbRule (parseIpv4Net inet)

def parseCbIpv6Rule : RuleParser (CbRule Ipv6Net) :=
  parseCbRule parseIpv6Net

/-! ## What is accepted -/

section Accepted

variable {ν : Type}

/-- Everything of a line is read, and the rule is what was read. The numbers may be read in
one way or another, and so may the nets. -/
structure CbForm (reads : Nat → Nat → Text → Nat → Prop) (readsNet : Text → ν → Prop)
    (line : CbLine) (rule : CbRule ν) (userdata : BitVec 32) : Prop where
  src : readsNet line.srcAddr rule.src
  dst : readsNet line.dstAddr rule.dst
  srcPortLow : reads 0 uint16Max line.srcPortLow rule.srcPortLow.toNat
  srcPortHigh : reads 0 uint16Max line.srcPortHigh rule.srcPortHigh.toNat
  srcPortDlm : line.srcPortDlm = cbPortDelim
  dstPortLow : reads 0 uint16Max line.dstPortLow rule.dstPortLow.toNat
  dstPortHigh : reads 0 uint16Max line.dstPortHigh rule.dstPortHigh.toNat
  dstPortDlm : line.dstPortDlm = cbPortDelim
  srcOrder : rule.srcPortLow.toNat ≤ rule.srcPortHigh.toNat
  dstOrder : rule.dstPortLow.toNat ≤ rule.dstPortHigh.toNat
  proto : ∃ value mask, cutAt slash line.proto = some (value, mask) ∧
    reads 0 uint8Max value rule.proto.toNat ∧ reads 0 uint8Max mask rule.protoMask.toNat
  userdata : (line.userdata = none ∧ userdata = 0#32) ∨
    ∃ text, line.userdata = some text ∧ reads 0 uint32Max text userdata.toNat

/-- How the parsers read a number. -/
def ReadsNumber (base limit : Nat) (text : Text) (value : Nat) : Prop :=
  readLimited base limit text = some value

/-- No token has a NUL in it. -/
structure CbLine.NoNul (line : CbLine) : Prop where
  srcAddr : ∀ byte ∈ line.srcAddr, byte ≠ 0#8
  dstAddr : ∀ byte ∈ line.dstAddr, byte ≠ 0#8
  srcPortLow : ∀ byte ∈ line.srcPortLow, byte ≠ 0#8
  srcPortHigh : ∀ byte ∈ line.srcPortHigh, byte ≠ 0#8
  dstPortLow : ∀ byte ∈ line.dstPortLow, byte ≠ 0#8
  dstPortHigh : ∀ byte ∈ line.dstPortHigh, byte ≠ 0#8
  proto : ∀ byte ∈ line.proto, byte ≠ 0#8
  userdata : ∀ text ∈ line.userdata, ∀ byte ∈ text, byte ≠ 0#8

theorem delimits_slash : Delimits slash := ⟨by decide, by decide, by decide, by decide⟩

theorem delimits_colon : Delimits colon := ⟨by decide, by decide, by decide, by decide⟩

theorem toNat_of_limited {base limit value width : Nat} {text : Text}
    (read : readLimited base limit text = some value) (fits : limit < 2 ^ width) :
    (BitVec.ofNat width value).toNat = value := by
  have small : value ≤ limit := of_decide_eq_true (Option.filter_eq_some_iff.mp read).2
  rw [BitVec.toNat_ofNat, Nat.mod_eq_of_lt (small.trans_lt fits)]

theorem readsNumber_of_limited {base limit value width : Nat} {text : Text}
    (read : readLimited base limit text = some value) (fits : limit < 2 ^ width) :
    ReadsNumber base limit text (BitVec.ofNat width value).toNat := by
  rw [ReadsNumber, toNat_of_limited read fits]
  exact read

theorem cutAt_noNul {dlm : BitVec 8} {text piece behind : Text}
    (cut : cutAt dlm text = some (piece, behind)) (noNul : ∀ byte ∈ text, byte ≠ 0#8) :
    ∀ byte ∈ behind, byte ≠ 0#8 := by
  intro byte member
  rw [(cutAt_eq_some.mp cut).1] at noNul
  exact noNul byte (List.mem_append_right _ (List.mem_cons_of_mem _ member))

/-- A line is accepted if all of it is read. -/
theorem parseCbLine_iff {parseNet : Text → Option ν} {line : CbLine} (noNul : line.NoNul)
    {rule : CbRule ν} {userdata : BitVec 32} :
    parseCbLine parseNet line = some (rule, userdata) ↔
      CbForm ReadsNumber (fun text net => parseNet text = some net) line rule userdata := by
  simp only [parseCbLine, Option.bind_eq_bind, Option.bind_eq_some_iff, Prod.exists,
    getCbField_whole noNul.srcPortLow, getCbField_whole noNul.srcPortHigh,
    getCbField_whole noNul.dstPortLow, getCbField_whole noNul.dstPortHigh,
    Option.guard_eq_some', getCbField_cut delimits_slash (by decide)]
  constructor
  · rintro ⟨src, readSrc, dst, readDst, srcLow, _, ⟨readSrcLow, -⟩, srcHigh, _, ⟨readSrcHigh, -⟩, -,
      srcDlm, dstLow, _, ⟨readDstLow, -⟩, dstHigh, _, ⟨readDstHigh, -⟩, -, dstDlm, -, order, proto,
      behind, ⟨piece, cut, readProto⟩, mask, _, readMask, result⟩
    rw [getCbField_whole (cutAt_noNul cut noNul.proto)] at readMask
    have srcOrder : srcLow ≤ srcHigh := Nat.le_of_not_lt fun less => order (.inl less)
    have dstOrder : dstLow ≤ dstHigh := Nat.le_of_not_lt fun less => order (.inr less)
    have form : ∀ number : BitVec 32, ((line.userdata = none ∧ number = 0#32) ∨
        ∃ text, line.userdata = some text ∧ ReadsNumber 0 uint32Max text number.toNat) →
        CbForm ReadsNumber (fun text net => parseNet text = some net) line
          ⟨src, dst, BitVec.ofNat 16 srcLow, BitVec.ofNat 16 srcHigh, BitVec.ofNat 16 dstLow,
            BitVec.ofNat 16 dstHigh, BitVec.ofNat 8 proto, BitVec.ofNat 8 mask⟩ number := by
      intro number last
      exact {
        src := readSrc
        dst := readDst
        srcPortLow := readsNumber_of_limited readSrcLow (by decide)
        srcPortHigh := readsNumber_of_limited readSrcHigh (by decide)
        srcPortDlm := srcDlm
        dstPortLow := readsNumber_of_limited readDstLow (by decide)
        dstPortHigh := readsNumber_of_limited readDstHigh (by decide)
        dstPortDlm := dstDlm
        srcOrder := by
          rw [toNat_of_limited readSrcLow (by decide), toNat_of_limited readSrcHigh (by decide)]
          exact srcOrder
        dstOrder := by
          rw [toNat_of_limited readDstLow (by decide), toNat_of_limited readDstHigh (by decide)]
          exact dstOrder
        proto := ⟨piece, behind, cut, readsNumber_of_limited readProto (by decide),
          readsNumber_of_limited readMask.1 (by decide)⟩
        userdata := last }
    cases number : line.userdata with
    | none =>
        rw [number] at result
        cases result
        exact form _ (.inl ⟨number, rfl⟩)
    | some text =>
        rw [number] at result
        rcases Option.bind_eq_some_iff.mp result with ⟨value, read, same⟩
        rcases value with ⟨value, rest⟩
        cases same
        rw [getCbField_whole (noNul.userdata text number)] at read
        exact form _ (.inr ⟨text, number, readsNumber_of_limited read.1 (by decide)⟩)
  · intro form
    rcases form.proto with ⟨piece, mask, cut, readProto, readMask⟩
    refine ⟨_, form.src, _, form.dst, _, _, ⟨form.srcPortLow, rfl⟩, _, _, ⟨form.srcPortHigh, rfl⟩,
      (), form.srcPortDlm, _, _, ⟨form.dstPortLow, rfl⟩, _, _, ⟨form.dstPortHigh, rfl⟩, (),
      form.dstPortDlm, (), ?_, _, _, ⟨_, cut, readProto⟩, _, _,
      (getCbField_whole (cutAt_noNul cut noNul.proto)).mpr ⟨readMask, rfl⟩, ?_⟩
    · rintro (less | less)
      · exact Nat.not_lt.mpr form.srcOrder less
      · exact Nat.not_lt.mpr form.dstOrder less
    · simp only [BitVec.ofNat_toNat, BitVec.setWidth_eq]
      rcases form.userdata with ⟨number, zero⟩ | ⟨text, number, read⟩
      · rw [number, zero]
        rfl
      · rw [number]
        have field := (getCbField_whole (noNul.userdata text number)).mpr ⟨read, rfl⟩
        dsimp only
        rw [field]
        simp only [Option.bind_some, BitVec.ofNat_toNat, BitVec.setWidth_eq]
        rfl

end Accepted

/-! ## The tokens of a line -/

/-- A route has one token more than an access control rule. -/
def cbLine (hasUserdata : Bool) (str : Text) : Option CbLine :=
  match hasUserdata, lineTokens str with
  | false, srcAddr :: dstAddr :: srcPortLow :: srcPortDlm :: srcPortHigh :: dstPortLow ::
      dstPortDlm :: dstPortHigh :: proto :: _ =>
      some ⟨srcAddr, dstAddr, srcPortLow, srcPortDlm, srcPortHigh, dstPortLow, dstPortDlm,
        dstPortHigh, proto, none⟩
  | true, srcAddr :: dstAddr :: srcPortLow :: srcPortDlm :: srcPortHigh :: dstPortLow ::
      dstPortDlm :: dstPortHigh :: proto :: userdata :: _ =>
      some ⟨srcAddr, dstAddr, srcPortLow, srcPortDlm, srcPortHigh, dstPortLow, dstPortDlm,
        dstPortHigh, proto, some userdata⟩
  | _, _ => none

theorem cbTokens_eq (hasUserdata : Bool) (str : Text) :
    cbTokens hasUserdata str = cbLine hasUserdata str := by
  have found : ∀ count, strtoks isBlankDelim count (cString str) =
      if count ≤ (lineTokens str).length then some ((lineTokens str).take count) else none :=
    fun count => strtoks_eq count (cString str)
  unfold cbTokens cbLine
  rw [found]
  cases hasUserdata with
  | false =>
      match lineTokens str with
      | [] | [_] | [_, _] | [_, _, _] | [_, _, _, _] | [_, _, _, _, _] | [_, _, _, _, _, _]
      | [_, _, _, _, _, _, _] | [_, _, _, _, _, _, _, _] => rfl
      | _ :: _ :: _ :: _ :: _ :: _ :: _ :: _ :: _ :: _ => simp
  | true =>
      match lineTokens str with
      | [] | [_] | [_, _] | [_, _, _] | [_, _, _, _] | [_, _, _, _, _] | [_, _, _, _, _, _]
      | [_, _, _, _, _, _, _] | [_, _, _, _, _, _, _, _] | [_, _, _, _, _, _, _, _, _] => rfl
      | _ :: _ :: _ :: _ :: _ :: _ :: _ :: _ :: _ :: _ :: _ => simp

theorem cbLine_noNul {hasUserdata : Bool} {str : Text} {line : CbLine}
    (isLine : cbLine hasUserdata str = some line) : line.NoNul := by
  have noNul : ∀ token ∈ lineTokens str, ∀ byte ∈ token, byte ≠ 0#8 := fun token member byte inside =>
    ((mem_lineTokens member).2 byte inside).1
  unfold cbLine at isLine
  split at isLine
  · rename_i found
    cases isLine
    rw [found] at noNul
    simp only [List.forall_mem_cons] at noNul
    rcases noNul with ⟨src, dst, srcLow, _, srcHigh, dstLow, _, dstHigh, proto, _⟩
    exact ⟨src, dst, srcLow, srcHigh, dstLow, dstHigh, proto, fun _ none => nomatch none⟩
  · rename_i userdata _ found
    cases isLine
    rw [found] at noNul
    simp only [List.forall_mem_cons] at noNul
    rcases noNul with ⟨src, dst, srcLow, _, srcHigh, dstLow, _, dstHigh, proto, last, _⟩
    refine ⟨src, dst, srcLow, srcHigh, dstLow, dstHigh, proto, ?_⟩
    rintro text ⟨rfl⟩
    exact last
  · cases isLine

/-- What the parsers accept. -/
theorem parseCbRule_iff {ν : Type} {parseNet : Text → Option ν} {str : Text} {hasUserdata : Bool}
    {rule : CbRule ν} {userdata : BitVec 32} :
    parseCbRule parseNet str hasUserdata = some (rule, userdata) ↔
      ∃ line, cbLine hasUserdata str = some line ∧
        CbForm ReadsNumber (fun text net => parseNet text = some net) line rule userdata := by
  rw [parseCbRule, cbTokens_eq, Option.bind_eq_bind, Option.bind_eq_some_iff]
  constructor
  · rintro ⟨line, isLine, parsed⟩
    exact ⟨line, isLine, (parseCbLine_iff (cbLine_noNul isLine)).mp parsed⟩
  · rintro ⟨line, isLine, form⟩
    exact ⟨line, isLine, (parseCbLine_iff (cbLine_noNul isLine)).mpr form⟩

/-! ## The nets -/

/-- The pieces before delimiters, and what is behind the last one. -/
def cutGroups : List (BitVec 8) → Text → Option (List Text × Text)
  | [], text => some ([], text)
  | dlm :: dlms, text => do
      let (piece, rest) ← cutAt dlm text
      let (pieces, behind) ← cutGroups dlms rest
      return (piece :: pieces, behind)

theorem getCbFields_iff {base limit : Nat} {dlms : List (BitVec 8)}
    (delimit : ∀ dlm ∈ dlms, Delimits dlm ∧ dlm ≠ 0#8) {input behind : Text} {values : List Nat} :
    getCbFields base limit dlms input = some (values, behind) ↔
      ∃ pieces, cutGroups dlms input = some (pieces, behind) ∧
        List.Forall₂ (ReadsNumber base limit) pieces values := by
  induction dlms generalizing input behind values with
  | nil =>
      constructor
      · rintro ⟨⟩
        exact ⟨[], rfl, .nil⟩
      · rintro ⟨pieces, ⟨⟩, ⟨⟩⟩
        rfl
  | cons dlm dlms induction =>
      rcases List.forall_mem_cons.mp delimit with ⟨⟨delimits, notNul⟩, others⟩
      simp only [getCbFields, cutGroups, Option.bind_eq_bind, Option.bind_eq_some_iff, Prod.exists,
        getCbField_cut delimits notNul, induction others]
      constructor
      · rintro ⟨value, rest, ⟨piece, cut, read⟩, values, _, ⟨pieces, cuts, reads⟩, ⟨⟩⟩
        exact ⟨piece :: pieces, ⟨piece, rest, cut, pieces, _, cuts, rfl⟩, .cons read reads⟩
      · rintro ⟨_, ⟨piece, rest, cut, pieces, _, cuts, ⟨⟩⟩, forall₂⟩
        cases forall₂ with
        | cons read reads =>
            exact ⟨_, rest, ⟨piece, cut, read⟩, _, _, ⟨pieces, cuts, reads⟩, rfl⟩

/-- Eight groups and the length of a mask. -/
def Ipv6Form (reads : Nat → Nat → Text → Nat → Prop) (text : Text) (net : Ipv6Net) : Prop :=
  ∃ groups mask, cutGroups (addrDelims slash) text = some (groups, mask) ∧
    ∃ values m, List.Forall₂ (reads 16 uint16Max) groups values ∧ reads 0 128 mask m ∧
      net = ⟨addrWords values, maskWord m⟩

theorem cutGroups_noNul {dlms : List (BitVec 8)} {text behind : Text} {pieces : List Text}
    (cuts : cutGroups dlms text = some (pieces, behind)) (noNul : ∀ byte ∈ text, byte ≠ 0#8) :
    ∀ byte ∈ behind, byte ≠ 0#8 := by
  induction dlms generalizing text pieces with
  | nil =>
      cases cuts
      exact noNul
  | cons dlm dlms induction =>
      simp only [cutGroups, Option.bind_eq_bind, Option.bind_eq_some_iff, Prod.exists] at cuts
      rcases cuts with ⟨piece, rest, cut, pieces, last, cuts, same⟩
      cases same
      exact induction cuts (cutAt_noNul cut noNul)

theorem parseIpv6Net_iff {text : Text} (noNul : ∀ byte ∈ text, byte ≠ 0#8) {net : Ipv6Net} :
    parseIpv6Net text = some net ↔ Ipv6Form ReadsNumber text net := by
  have delimit : ∀ dlm ∈ addrDelims slash, Delimits dlm ∧ dlm ≠ 0#8 := by
    intro dlm member
    simp only [addrDelims, List.mem_cons, List.not_mem_nil, or_false] at member
    rcases member with rfl | rfl | rfl | rfl | rfl | rfl | rfl | rfl
    all_goals first
      | exact ⟨delimits_colon, by decide⟩
      | exact ⟨delimits_slash, by decide⟩
  simp only [parseIpv6Net, parseIpv6Addr, Option.bind_eq_bind, Option.bind_eq_some_iff, Prod.exists,
    getCbFields_iff delimit]
  constructor
  · rintro ⟨_, _, ⟨values, behind, ⟨groups, cuts, reads⟩, ⟨⟩⟩, m, _, readMask, ⟨⟩⟩
    rw [getCbField_whole (cutGroups_noNul cuts noNul)] at readMask
    exact ⟨groups, _, cuts, values, m, reads, readMask.1, rfl⟩
  · rintro ⟨groups, mask, cuts, values, m, reads, readMask, rfl⟩
    exact ⟨_, _, ⟨values, mask, ⟨groups, cuts, reads⟩, rfl⟩, m, _,
      (getCbField_whole (cutGroups_noNul cuts noNul)).mpr ⟨readMask, rfl⟩, rfl⟩

/-- An address and the length of a mask, in pieces that are found in one way or another. -/
def Ipv4Form (inet : Inet) (pieces : Text → Text → Text → Prop)
    (reads : Nat → Nat → Text → Nat → Prop) (text : Text) (net : Ipv4Net) : Prop :=
  ∃ addr len, pieces text addr len ∧
    ∃ value m, inet.pton4 addr = some value ∧ reads 0 32 len m ∧
      net = ⟨bswap32 value, BitVec.ofNat 32 m⟩

/-- The first two pieces between slashes that are not empty. -/
def FirstWords (text addr len : Text) : Prop :=
  ∃ rest, words isSlash text = addr :: len :: rest

theorem parseIpv4Net_iff {inet : Inet} {text : Text} (noNul : ∀ byte ∈ text, byte ≠ 0#8)
    {net : Ipv4Net} :
    parseIpv4Net inet text = some net ↔ Ipv4Form inet FirstWords ReadsNumber text net := by
  have first : ∀ addr rest len behind, strtok isSlash text = some (addr, rest) →
      strtok isSlash rest = some (len, behind) →
      words isSlash text = addr :: len :: words isSlash behind ∧ ∀ byte ∈ len, byte ≠ 0#8 := by
    intro addr rest len behind next after
    rcases strtok_cases next with ⟨_, _, _, inRest⟩
    rcases strtok_cases after with ⟨_, inLen, _, _⟩
    refine ⟨?_, fun byte member => noNul byte (inRest byte (inLen byte member).1)⟩
    rw [words_eq, next]
    dsimp only
    rw [words_eq, after]
  simp only [parseIpv4Net, Option.bind_eq_bind, Option.bind_eq_some_iff, Prod.exists]
  constructor
  · rintro ⟨addr, rest, next, len, behind, after, value, valid, m, _, read, ⟨⟩⟩
    rcases first addr rest len behind next after with ⟨pieces, lenNoNul⟩
    rw [getCbField_whole lenNoNul] at read
    exact ⟨addr, len, ⟨_, pieces⟩, value, m, valid, read.1, rfl⟩
  · rintro ⟨addr, len, ⟨others, pieces⟩, value, m, valid, read, rfl⟩
    rw [words_eq] at pieces
    cases next : strtok isSlash text with
    | none =>
        rw [next] at pieces
        cases pieces
    | some found =>
        rcases found with ⟨token, rest⟩
        rw [next] at pieces
        dsimp only at pieces
        rw [words_eq] at pieces
        cases after : strtok isSlash rest with
        | none =>
            rw [after] at pieces
            cases pieces
        | some found =>
            rcases found with ⟨second, behind⟩
            rw [after] at pieces
            cases pieces
            rcases first addr rest len behind next after with ⟨_, lenNoNul⟩
            exact ⟨addr, rest, rfl, len, behind, after, value, valid, m, _,
              (getCbField_whole lenNoNul).mpr ⟨read, rfl⟩, rfl⟩

/-! ## What the two parsers accept -/

theorem CbForm.nets {ν : Type} {reads : Nat → Nat → Text → Nat → Prop}
    {readsNet other : Text → ν → Prop} {line : CbLine} {rule : CbRule ν} {userdata : BitVec 32}
    (form : CbForm reads readsNet line rule userdata)
    (src : readsNet line.srcAddr rule.src → other line.srcAddr rule.src)
    (dst : readsNet line.dstAddr rule.dst → other line.dstAddr rule.dst) :
    CbForm reads other line rule userdata :=
  { form with
    src := src form.src
    dst := dst form.dst }

theorem parseCbIpv6Rule_iff {str : Text} {hasUserdata : Bool} {rule : CbRule Ipv6Net}
    {userdata : BitVec 32} :
    parseCbIpv6Rule str hasUserdata = some (rule, userdata) ↔
      ∃ line, cbLine hasUserdata str = some line ∧
        CbForm ReadsNumber (Ipv6Form ReadsNumber) line rule userdata := by
  rw [parseCbIpv6Rule, parseCbRule_iff]
  constructor
  · rintro ⟨line, isLine, form⟩
    have noNul := cbLine_noNul isLine
    exact ⟨line, isLine, form.nets (parseIpv6Net_iff noNul.srcAddr).mp
      (parseIpv6Net_iff noNul.dstAddr).mp⟩
  · rintro ⟨line, isLine, form⟩
    have noNul := cbLine_noNul isLine
    exact ⟨line, isLine, form.nets (parseIpv6Net_iff noNul.srcAddr).mpr
      (parseIpv6Net_iff noNul.dstAddr).mpr⟩

theorem parseCbIpv4vlanRule_iff {inet : Inet} {str : Text} {hasUserdata : Bool}
    {rule : CbRule Ipv4Net} {userdata : BitVec 32} :
    parseCbIpv4vlanRule inet str hasUserdata = some (rule, userdata) ↔
      ∃ line, cbLine hasUserdata str = some line ∧
        CbForm ReadsNumber (Ipv4Form inet FirstWords ReadsNumber) line rule userdata := by
  rw [parseCbIpv4vlanRule, parseCbRule_iff]
  constructor
  · rintro ⟨line, isLine, form⟩
    have noNul := cbLine_noNul isLine
    exact ⟨line, isLine, form.nets (parseIpv4Net_iff noNul.srcAddr).mp
      (parseIpv4Net_iff noNul.dstAddr).mp⟩
  · rintro ⟨line, isLine, form⟩
    have noNul := cbLine_noNul isLine
    exact ⟨line, isLine, form.nets (parseIpv4Net_iff noNul.srcAddr).mpr
      (parseIpv4Net_iff noNul.dstAddr).mpr⟩

end PacketForwarding.L3fwd
