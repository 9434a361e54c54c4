import PacketForwarding.L3fwd.AclParse

/-! # The documented form of an access control rule

A line has the documented form if each of its numbers is there as a plain numeral. A line
that is accepted has it unless a number is missing or has white space or a sign in front,
or an IPv4 net has more slashes than one.
-/

namespace PacketForwarding.L3fwd

open CString Lanes

/-! ## Plain lines -/

/-- Everything in a net starts like a number. -/
def Ipv6Plain (text : Text) : Prop :=
  ∃ groups mask, cutGroups (addrDelims slash) text = some (groups, mask) ∧
    (∀ group ∈ groups, StartsPlain group) ∧ StartsPlain mask

/-- There is one slash, with something before it. -/
def AtSlash (text addr len : Text) : Prop :=
  cutAt slash text = some (addr, len) ∧ addr ≠ [] ∧ slash ∉ len

/-- What is behind the only slash starts like a number. -/
def Ipv4Plain (text : Text) : Prop :=
  ∃ addr len, AtSlash text addr len ∧ StartsPlain len

/-- Every number of a line starts like one. -/
structure CbPlain (netPlain : Text → Prop) (line : CbLine) : Prop where
  src : netPlain line.srcAddr
  dst : netPlain line.dstAddr
  srcPortLow : StartsPlain line.srcPortLow
  srcPortHigh : StartsPlain line.srcPortHigh
  dstPortLow : StartsPlain line.dstPortLow
  dstPortHigh : StartsPlain line.dstPortHigh
  proto : ∃ value mask, cutAt slash line.proto = some (value, mask) ∧ StartsPlain value ∧
    StartsPlain mask
  userdata : ∀ text, line.userdata = some text → StartsPlain text

theorem plainNumber_iff {base limit value : Nat} {text : Text} (small : limit < ulongRange) :
    PlainNumber base limit text value ↔ ReadsNumber base limit text value ∧ StartsPlain text := by
  constructor
  · intro plain
    exact ⟨readLimited_of_plain plain small, startsPlain_of_plain plain⟩
  · rintro ⟨read, starts⟩
    exact plain_of_startsPlain read starts

/-! ## The documented form -/

def Ipv6Written : Text → Ipv6Net → Prop :=
  Ipv6Form PlainNumber

/-- `<src_ipv4_addr>'/'<masklen>` -/
def Ipv4Written (inet : Inet) : Text → Ipv4Net → Prop :=
  Ipv4Form inet AtSlash PlainNumber

theorem forall₂_plainNumber {base limit : Nat} (small : limit < ulongRange) {groups : List Text}
    {values : List Nat} :
    List.Forall₂ (PlainNumber base limit) groups values ↔
      List.Forall₂ (ReadsNumber base limit) groups values ∧ ∀ group ∈ groups, StartsPlain group := by
  constructor
  · intro plain
    induction plain with
    | nil => exact ⟨.nil, List.forall_mem_nil _⟩
    | cons first _ induction =>
        rcases (plainNumber_iff small).mp first with ⟨read, starts⟩
        exact ⟨.cons read induction.1, List.forall_mem_cons.mpr ⟨starts, induction.2⟩⟩
  · rintro ⟨reads, starts⟩
    induction reads with
    | nil => exact .nil
    | cons read _ induction =>
        rcases List.forall_mem_cons.mp starts with ⟨first, others⟩
        exact .cons ((plainNumber_iff small).mpr ⟨read, first⟩) (induction others)

theorem ipv6Written_iff {text : Text} {net : Ipv6Net} :
    Ipv6Written text net ↔ Ipv6Form ReadsNumber text net ∧ Ipv6Plain text := by
  constructor
  · rintro ⟨groups, mask, cuts, values, m, plain, plainMask, same⟩
    rcases (forall₂_plainNumber (by decide)).mp plain with ⟨reads, starts⟩
    rcases (plainNumber_iff (by decide)).mp plainMask with ⟨readMask, startsMask⟩
    exact ⟨⟨groups, mask, cuts, values, m, reads, readMask, same⟩, groups, mask, cuts, starts,
      startsMask⟩
  · rintro ⟨⟨groups, mask, cuts, values, m, reads, readMask, same⟩, _, _, again, starts, startsMask⟩
    rw [cuts] at again
    cases again
    exact ⟨groups, mask, cuts, values, m, (forall₂_plainNumber (by decide)).mpr ⟨reads, starts⟩,
      (plainNumber_iff (by decide)).mpr ⟨readMask, startsMask⟩, same⟩

/-- The pieces on both sides of the only slash are the first words. -/
theorem words_atSlash {text addr len : Text} (pieces : AtSlash text addr len)
    (starts : StartsPlain len) : words isSlash text = [addr, len] := by
  rcases pieces with ⟨cut, nonempty, one⟩
  rcases cutAt_eq_some.mp cut with ⟨rfl, before⟩
  have lenNonempty : len ≠ [] := by
    rcases starts with ⟨byte, rest, rfl, _⟩
    exact List.cons_ne_nil _ _
  have noSlash : ∀ piece : Text, slash ∉ piece → ∀ byte ∈ piece, isSlash byte = false := by
    intro piece none byte member
    rw [isSlash, beq_eq_false_iff_ne]
    rintro rfl
    exact none member
  rw [words_append_delim len nonempty (noSlash addr before) (by decide),
    words_single lenNonempty (noSlash len one)]

theorem ipv4Written_iff {inet : Inet} {text : Text} {net : Ipv4Net} :
    Ipv4Written inet text net ↔ Ipv4Form inet FirstWords ReadsNumber text net ∧ Ipv4Plain text := by
  constructor
  · rintro ⟨addr, len, pieces, value, m, valid, plain, same⟩
    rcases (plainNumber_iff (by decide)).mp plain with ⟨read, starts⟩
    exact ⟨⟨addr, len, ⟨[], words_atSlash pieces starts⟩, value, m, valid, read, same⟩,
      addr, len, pieces, starts⟩
  · rintro ⟨⟨addr, len, ⟨rest, found⟩, value, m, valid, read, same⟩, first, second, pieces, starts⟩
    rw [words_atSlash pieces starts] at found
    cases found
    exact ⟨addr, len, pieces, value, m, valid, (plainNumber_iff (by decide)).mpr ⟨read, starts⟩, same⟩

section Line

variable {ν : Type} {written reads : Text → ν → Prop} {netPlain : Text → Prop}

/-- A line has the documented form if it is read and its numbers are plain. -/
theorem cbForm_plain_iff (nets : ∀ text net, written text net ↔ reads text net ∧ netPlain text)
    {line : CbLine} {rule : CbRule ν} {userdata : BitVec 32} :
    CbForm PlainNumber written line rule userdata ↔
      CbForm ReadsNumber reads line rule userdata ∧ CbPlain netPlain line := by
  constructor
  · intro form
    rcases (nets _ _).mp form.src with ⟨readSrc, plainSrc⟩
    rcases (nets _ _).mp form.dst with ⟨readDst, plainDst⟩
    rcases (plainNumber_iff (by decide)).mp form.srcPortLow with ⟨readSrcLow, srcLow⟩
    rcases (plainNumber_iff (by decide)).mp form.srcPortHigh with ⟨readSrcHigh, srcHigh⟩
    rcases (plainNumber_iff (by decide)).mp form.dstPortLow with ⟨readDstLow, dstLow⟩
    rcases (plainNumber_iff (by decide)).mp form.dstPortHigh with ⟨readDstHigh, dstHigh⟩
    rcases form.proto with ⟨value, mask, cut, plainProto, plainMask⟩
    rcases (plainNumber_iff (by decide)).mp plainProto with ⟨readProto, proto⟩
    rcases (plainNumber_iff (by decide)).mp plainMask with ⟨readMask, protoMask⟩
    have last : ((line.userdata = none ∧ userdata = 0#32) ∨ ∃ text, line.userdata = some text ∧
        ReadsNumber 0 uint32Max text userdata.toNat) ∧
        ∀ text, line.userdata = some text → StartsPlain text := by
      rcases form.userdata with ⟨none, zero⟩ | ⟨text, some, plain⟩
      · exact ⟨.inl ⟨none, zero⟩, fun text some => absurd (none.symm.trans some) (by simp)⟩
      · rcases (plainNumber_iff (by decide)).mp plain with ⟨read, starts⟩
        refine ⟨.inr ⟨text, some, read⟩, fun other same => ?_⟩
        cases some.symm.trans same
        exact starts
    exact ⟨{ form with
        src := readSrc
        dst := readDst
        srcPortLow := readSrcLow
        srcPortHigh := readSrcHigh
        dstPortLow := readDstLow
        dstPortHigh := readDstHigh
        proto := ⟨value, mask, cut, readProto, readMask⟩
        userdata := last.1 },
      plainSrc, plainDst, srcLow, srcHigh, dstLow, dstHigh, ⟨value, mask, cut, proto, protoMask⟩,
      last.2⟩
  · rintro ⟨form, plain⟩
    rcases form.proto with ⟨value, mask, cut, readProto, readMask⟩
    rcases plain.proto with ⟨_, _, again, proto, protoMask⟩
    rw [cut] at again
    cases again
    exact { form with
      src := (nets _ _).mpr ⟨form.src, plain.src⟩
      dst := (nets _ _).mpr ⟨form.dst, plain.dst⟩
      srcPortLow := (plainNumber_iff (by decide)).mpr ⟨form.srcPortLow, plain.srcPortLow⟩
      srcPortHigh := (plainNumber_iff (by decide)).mpr ⟨form.srcPortHigh, plain.srcPortHigh⟩
      dstPortLow := (plainNumber_iff (by decide)).mpr ⟨form.dstPortLow, plain.dstPortLow⟩
      dstPortHigh := (plainNumber_iff (by decide)).mpr ⟨form.dstPortHigh, plain.dstPortHigh⟩
      proto := ⟨value, mask, cut, (plainNumber_iff (by decide)).mpr ⟨readProto, proto⟩,
        (plainNumber_iff (by decide)).mpr ⟨readMask, protoMask⟩⟩
      userdata := by
        rcases form.userdata with none | ⟨text, some, read⟩
        · exact .inl none
        · exact .inr ⟨text, some, (plainNumber_iff (by decide)).mpr
            ⟨read, plain.userdata text some⟩⟩ }

end Line

/-! ## The parsers -/

/-- A line that is accepted has the documented form, and the rule is what is written. -/
def CbSound {ν : Type} (parser : RuleParser (CbRule ν)) (written : Text → ν → Prop)
    (hasUserdata : Bool) (str : Text) : Prop :=
  ∀ rule userdata, parser str hasUserdata = some (rule, userdata) →
    ∃ line, cbLine hasUserdata str = some line ∧ CbForm PlainNumber written line rule userdata

/-- A line of which everything can be read has only plain numbers. -/
def CbFits {ν : Type} (reads : Text → ν → Prop) (netPlain : Text → Prop) (hasUserdata : Bool)
    (str : Text) : Prop :=
  ∀ line rule userdata, cbLine hasUserdata str = some line →
    CbForm ReadsNumber reads line rule userdata → CbPlain netPlain line

theorem cbSound_iff {ν : Type} {parser : RuleParser (CbRule ν)} {written reads : Text → ν → Prop}
    {netPlain : Text → Prop} (nets : ∀ text net, written text net ↔ reads text net ∧ netPlain text)
    (accepts : ∀ str hasUserdata rule userdata, parser str hasUserdata = some (rule, userdata) ↔
      ∃ line, cbLine hasUserdata str = some line ∧ CbForm ReadsNumber reads line rule userdata)
    (hasUserdata : Bool) (str : Text) :
    CbSound parser written hasUserdata str ↔ CbFits reads netPlain hasUserdata str := by
  constructor
  · intro sound line rule userdata isLine form
    rcases sound rule userdata ((accepts _ _ _ _).mpr ⟨line, isLine, form⟩) with
      ⟨other, again, plain⟩
    rw [isLine] at again
    cases again
    exact ((cbForm_plain_iff nets).mp plain).2
  · intro fits rule userdata accepted
    rcases (accepts _ _ _ _).mp accepted with ⟨line, isLine, form⟩
    exact ⟨line, isLine, (cbForm_plain_iff nets).mpr
      ⟨form, fits line rule userdata isLine form⟩⟩

/-- Each parser is sound for the lines that have only plain numbers, and no others. -/
theorem parseCb_sound_iff (inet : Inet) :
    (∀ hasUserdata str, CbSound (parseCbIpv4vlanRule inet) (Ipv4Written inet) hasUserdata str ↔
      CbFits (Ipv4Form inet FirstWords ReadsNumber) Ipv4Plain hasUserdata str) ∧
    ∀ hasUserdata str, CbSound parseCbIpv6Rule Ipv6Written hasUserdata str ↔
      CbFits (Ipv6Form ReadsNumber) Ipv6Plain hasUserdata str := by
  constructor
  · exact cbSound_iff (fun _ _ => ipv4Written_iff) fun _ _ _ _ => parseCbIpv4vlanRule_iff
  · exact cbSound_iff (fun _ _ => ipv6Written_iff) fun _ _ _ _ => parseCbIpv6Rule_iff

/-- Lines without a mask of the protocol, and one with a mask of no length. -/
def noProtoMask4 : Text := ascii "1.2.3.4/24 5.6.7.8/16 0 : 65535 0 : 65535 6/"

def noProtoMask6 : Text := ascii "1:2:3:4:5:6:7:8/64 1:2:3:4:5:6:7:8/64 0 : 65535 0 : 65535 6/"

def noMaskLength6 : Text := ascii "1:2:3:4:5:6:7:8/ 1:2:3:4:5:6:7:8/64 0 : 65535 0 : 65535 6/0xff"

/-- A line with a sign in front of the protocol. -/
def signedProto4 : Text := ascii "1.2.3.4/24 5.6.7.8/16 0 : 65535 0 : 65535 -0/0xff"

theorem not_startsPlain_nil : ¬ StartsPlain [] := by
  rintro ⟨_, _, impossible, _⟩
  cases impossible

theorem not_startsPlain_minus (rest : Text) : ¬ StartsPlain (45#8 :: rest) := by
  rintro ⟨_, _, same, _, notMinus, _⟩
  cases same
  exact notMinus rfl

theorem not_cbForm_proto {ν : Type} {written : Text → ν → Prop} {line : CbLine} {value mask : Text}
    (cut : cutAt slash line.proto = some (value, mask))
    (unwritten : ¬ StartsPlain value ∨ ¬ StartsPlain mask) (rule : CbRule ν) (userdata : BitVec 32) :
    ¬ CbForm PlainNumber written line rule userdata := by
  intro form
  rcases form.proto with ⟨_, _, again, plainProto, plainMask⟩
  rw [cut] at again
  cases again
  rcases unwritten with noValue | noMask
  · exact noValue (startsPlain_of_plain plainProto)
  · exact noMask (startsPlain_of_plain plainMask)

/-- A line for all ports, with these nets and this protocol. -/
def anyPorts (src dst proto : String) : CbLine :=
  ⟨ascii src, ascii dst, ascii "0", ascii ":", ascii "65535", ascii "0", ascii ":", ascii "65535",
    ascii proto, none⟩

theorem not_cbSound {ν : Type} {parser : RuleParser (CbRule ν)} {written : Text → ν → Prop}
    {hasUserdata : Bool} {str : Text} (accepted : (parser str hasUserdata).isSome) {line : CbLine}
    (isLine : cbLine hasUserdata str = some line)
    (unwritten : ∀ rule userdata, ¬ CbForm PlainNumber written line rule userdata) :
    ¬ CbSound parser written hasUserdata str := by
  intro sound
  rcases Option.isSome_iff_exists.mp accepted with ⟨⟨rule, userdata⟩, parsed⟩
  rcases sound rule userdata parsed with ⟨other, again, form⟩
  rw [isLine] at again
  cases again
  exact unwritten rule userdata form

/-- All of these lines are accepted. -/
theorem parseCb_omitted :
    ¬ CbSound (parseCbIpv4vlanRule quadInet) (Ipv4Written quadInet) false noProtoMask4 ∧
    ¬ CbSound (parseCbIpv4vlanRule quadInet) (Ipv4Written quadInet) false signedProto4 ∧
    ¬ CbSound parseCbIpv6Rule Ipv6Written false noProtoMask6 ∧
    ¬ CbSound parseCbIpv6Rule Ipv6Written false noMaskLength6 := by
  have noMask : cutAt slash (ascii "6/") = some (ascii "6", []) := by decide
  refine ⟨?_, ?_, ?_, ?_⟩
  · have tokens : cbLine false noProtoMask4 = some (anyPorts "1.2.3.4/24" "5.6.7.8/16" "6/") := by
      decide
    exact not_cbSound rfl tokens (not_cbForm_proto noMask (.inr not_startsPlain_nil))
  · have tokens : cbLine false signedProto4 =
        some (anyPorts "1.2.3.4/24" "5.6.7.8/16" "-0/0xff") := by
      decide
    have cut : cutAt slash (ascii "-0/0xff") = some (45#8 :: ascii "0", ascii "0xff") := by decide
    exact not_cbSound rfl tokens (not_cbForm_proto cut (.inl (not_startsPlain_minus _)))
  · have tokens : cbLine false noProtoMask6 =
        some (anyPorts "1:2:3:4:5:6:7:8/64" "1:2:3:4:5:6:7:8/64" "6/") := by
      decide
    exact not_cbSound rfl tokens (not_cbForm_proto noMask (.inr not_startsPlain_nil))
  · have tokens : cbLine false noMaskLength6 =
        some (anyPorts "1:2:3:4:5:6:7:8/" "1:2:3:4:5:6:7:8/64" "6/0xff") := by
      decide
    apply not_cbSound rfl tokens
    intro rule userdata form
    rcases form.src with ⟨groups, mask, cuts, _, _, _, plainMask, _⟩
    have empty : (cutGroups (addrDelims slash) (ascii "1:2:3:4:5:6:7:8/")).map Prod.snd =
        some [] := by
      decide
    have same : mask = [] := Option.some.inj ((congrArg (Option.map Prod.snd) cuts).symm.trans empty)
    rw [same] at plainMask
    exact not_startsPlain_nil (startsPlain_of_plain plainMask)

end PacketForwarding.L3fwd
