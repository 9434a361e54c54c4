import PacketForwarding.Foundation.Prefixes
import PacketForwarding.L3fwd.AclPrint

/-! # The fields of an IPv6 net

An address with a prefix length becomes four fields of a rule, each with a mask of its own.
A packet agrees with all four if and only if it agrees with the prefix.
-/

namespace PacketForwarding.L3fwd

open CString Prefixes

/-! ## The table of fields -/

/-- `RTE_ACL_FIELD_TYPE_MASK`, `RTE_ACL_FIELD_TYPE_RANGE` and `RTE_ACL_FIELD_TYPE_BITMASK` -/
inductive AclFieldType
  | mask
  | range
  | bitmask
  deriving DecidableEq, Inhabited

/-- `struct rte_acl_field_def` -/
structure RteAclFieldDef where
  type : AclFieldType
  size : Nat
  fieldIndex : Nat
  inputIndex : Nat
  offset : Nat
  deriving DecidableEq, Inhabited

/-! Offsets in `struct rte_ipv6_hdr`. -/

namespace Ipv6Hdr

def proto : Nat := 6

def srcAddr : Nat := 8

def dstAddr : Nat := 24

def sizeOf : Nat := 40

end Ipv6Hdr

def protoFieldIpv6 : Nat := 0

def src1FieldIpv6 : Nat := 1

def dst1FieldIpv6 : Nat := 5

def srcpFieldIpv6 : Nat := 9

def dstpFieldIpv6 : Nat := 10

/-- One word of an address. -/
def addrFieldDef (first addr word : Nat) : RteAclFieldDef where
  type := .mask
  size := 4
  fieldIndex := first + word
  inputIndex := first + word
  offset := addr - Ipv6Hdr.proto + word * 4

/-- `ipv6_defs`, with offsets from the protocol field on. -/
def ipv6Defs : List RteAclFieldDef :=
  [⟨.bitmask, 1, protoFieldIpv6, protoFieldIpv6, 0⟩,
    addrFieldDef src1FieldIpv6 Ipv6Hdr.srcAddr 0, addrFieldDef src1FieldIpv6 Ipv6Hdr.srcAddr 1,
    addrFieldDef src1FieldIpv6 Ipv6Hdr.srcAddr 2, addrFieldDef src1FieldIpv6 Ipv6Hdr.srcAddr 3,
    addrFieldDef dst1FieldIpv6 Ipv6Hdr.dstAddr 0, addrFieldDef dst1FieldIpv6 Ipv6Hdr.dstAddr 1,
    addrFieldDef dst1FieldIpv6 Ipv6Hdr.dstAddr 2, addrFieldDef dst1FieldIpv6 Ipv6Hdr.dstAddr 3,
    ⟨.range, 2, srcpFieldIpv6, srcpFieldIpv6, Ipv6Hdr.sizeOf - Ipv6Hdr.proto⟩,
    -- the destination port is in the input of the source port
    ⟨.range, 2, dstpFieldIpv6, srcpFieldIpv6, Ipv6Hdr.sizeOf - Ipv6Hdr.proto + 2⟩]

/-! ## Matching -/

/-- `RTE_ACL_MASKLEN_TO_BITMASK` for a field of four bytes. -/
def rteAclMasklenToBitmask (v : BitVec 32) : BitVec 32 :=
  if v = 0#32 then v else ((-1#64) <<< (32 - v.toNat)).setWidth 32

/-- What a field is compared with: four bytes of the packet in network byte order. -/
def RteAclFieldDef.input (field : RteAclFieldDef) (data : Nat → BitVec 8) : BitVec 32 :=
  (loadBig field.size data field.offset).setWidth 32

/-- A field with a mask compares what is under the mask. -/
def RteAclFieldDef.MaskMatches (field : RteAclFieldDef) (value maskRange : BitVec 32)
    (data : Nat → BitVec 8) : Prop :=
  field.input data &&& rteAclMasklenToBitmask maskRange =
    value &&& rteAclMasklenToBitmask maskRange

/-- All four fields of a net match, the first of them being at `first` in the rule. -/
def Ipv6Net.Matches (net : Ipv6Net) (first : Nat) (data : Nat → BitVec 8) : Prop :=
  ∀ word : Fin 4,
    (ipv6Defs.getD (first + word) default).MaskMatches (net.value word) (net.maskRange word) data

theorem rteAclMasklenToBitmask_eq (v : BitVec 32) :
    rteAclMasklenToBitmask v = prefixMask 32 v.toNat := by
  rw [rteAclMasklenToBitmask]
  split
  · next zero =>
      rw [zero]
      decide
  · apply BitVec.eq_of_getLsbD_eq
    intro bit bitLt
    have wide : bit < 64 := by omega
    have ones : -1#64 = BitVec.allOnes 64 := by decide
    have narrow : bit - (32 - v.toNat) < 32 := by omega
    have within : bit - (32 - v.toNat) < 64 := by omega
    simp only [ones, prefixMask, BitVec.getLsbD_setWidth, BitVec.getLsbD_shiftLeft, bitLt, wide,
      narrow, within, BitVec.getLsbD_allOnes, decide_true, Bool.true_and]

theorem RteAclFieldDef.maskMatches_iff {field : RteAclFieldDef} {value maskRange : BitVec 32}
    {data : Nat → BitVec 8} (inRange : maskRange.toNat ≤ 32) :
    field.MaskMatches value maskRange data ↔
      SamePrefix maskRange.toNat (field.input data) value := by
  rw [RteAclFieldDef.MaskMatches, rteAclMasklenToBitmask_eq]
  exact and_prefixMask_eq_iff inRange _ _

/-- A table of words of an address, in the order of the words. -/
theorem input_addrFieldDef {first addr : Nat} {data : Nat → BitVec 8} {packet : BitVec 128}
    (stored : StoredBig 16 data (addr - Ipv6Hdr.proto) packet) (word : Fin 4) :
    (addrFieldDef first addr word).input data = bigWord 32 packet word := by
  have inside : 4 * (word.val + 1) ≤ 16 := by omega
  have read := loadBig_word stored inside rfl
  rw [RteAclFieldDef.input, addrFieldDef, Nat.mul_comm word.val 4, read]
  exact BitVec.setWidth_eq _

/-! ## Writing a net -/

/-- A group of an address, in hexadecimal digits. -/
structure HexGroup (text : Text) (value : BitVec 16) : Prop where
  nonempty : text ≠ []
  digits : ∀ byte ∈ text, isDigit 16 byte = true
  denotes : digitsValue 16 text = value.toNat

/-- Every piece with its delimiter behind it. -/
def joinPieces : List (BitVec 8) → List Text → Text → Text
  | dlm :: dlms, piece :: pieces, behind => piece ++ dlm :: joinPieces dlms pieces behind
  | _, _, behind => behind

/-- The groups of an address, the most significant one first. -/
def addrGroups (addr : BitVec 128) : List (BitVec 16) := (List.range 8).map (bigWord 16 addr)

/-- Eight groups of an address and the length of a prefix. -/
def WritesIpv6Net (addr : BitVec 128) (m : Nat) (text : Text) : Prop :=
  ∃ groups, List.Forall₂ HexGroup groups (addrGroups addr) ∧
    text = joinPieces (addrDelims slash) groups (printNat 10 m)

/-- The groups with four digits each. -/
def writeIpv6Net (addr : BitVec 128) (m : Nat) : Text :=
  joinPieces (addrDelims slash)
    ((addrGroups addr).map fun value => printGroup (bigWord 8 value 0) (bigWord 8 value 1))
    (printNat 10 m)

theorem hexGroup_printGroup (value : BitVec 16) :
    HexGroup (printGroup (bigWord 8 value 0) (bigWord 8 value 1)) value where
  nonempty := List.cons_ne_nil _ _
  digits := printGroup_digits _ _
  denotes := by
    have whole : bigWord 16 value 0 = value := BitVec.extractLsb'_eq_self
    have halves : (bigWord 16 value 0).toNat = _ :=
      toNat_bigWord_halves value (by decide : 2 * 8 * (0 + 1) ≤ 16)
    rw [whole] at halves
    exact (digitsValue_printGroup _ _).trans halves.symm

theorem writesIpv6Net_full (addr : BitVec 128) (m : Nat) :
    WritesIpv6Net addr m (writeIpv6Net addr m) := by
  refine ⟨_, ?_, rfl⟩
  rw [List.forall₂_map_left_iff, List.forall₂_same]
  exact fun value _ => hexGroup_printGroup value

theorem cutGroups_joinPieces {behind : Text} : ∀ {dlms : List (BitVec 8)} {pieces : List Text},
    dlms.length = pieces.length → (∀ dlm ∈ dlms, ∀ piece ∈ pieces, dlm ∉ piece) →
      cutGroups dlms (joinPieces dlms pieces behind) = some (pieces, behind) := by
  intro dlms
  induction dlms with
  | nil =>
      intro pieces same _
      rw [List.eq_nil_of_length_eq_zero same.symm]
      rfl
  | cons dlm dlms induction =>
      intro pieces same free
      cases pieces with
      | nil => cases same
      | cons piece pieces =>
          have cut : cutAt dlm (joinPieces (dlm :: dlms) (piece :: pieces) behind) =
              some (piece, joinPieces dlms pieces behind) :=
            cutAt_eq_some.mpr ⟨rfl, free dlm List.mem_cons_self piece List.mem_cons_self⟩
          refine cutGroups_cons cut (induction (Nat.succ.inj same) ?_)
          intro other member text among
          exact free other (List.mem_cons_of_mem _ member) text (List.mem_cons_of_mem _ among)

theorem joinPieces_noNul {behind : Text} (last : ∀ byte ∈ behind, byte ≠ 0#8) :
    ∀ {dlms : List (BitVec 8)} {pieces : List Text}, (∀ dlm ∈ dlms, dlm ≠ 0#8) →
      (∀ piece ∈ pieces, ∀ byte ∈ piece, byte ≠ 0#8) →
        ∀ byte ∈ joinPieces dlms pieces behind, byte ≠ 0#8 := by
  intro dlms
  induction dlms with
  | nil =>
      intro pieces _ _
      exact last
  | cons dlm dlms induction =>
      intro pieces noDlm noByte
      cases pieces with
      | nil => exact last
      | cons piece pieces =>
          rcases List.forall_mem_cons.mp noDlm with ⟨notNul, others⟩
          rcases List.forall_mem_cons.mp noByte with ⟨first, rest⟩
          exact List.forall_mem_append.mpr
            ⟨first, List.forall_mem_cons.mpr ⟨notNul, induction others rest⟩⟩

/-! ## Parsing what is written -/

theorem toNat_maskWord (m : Nat) (word : Fin 4) :
    (maskWord m word).toNat = prefixPart 32 m word := by
  rw [maskWord, prefixPart]
  split
  · change 32 = _
    omega
  · split
    · rw [BitVec.toNat_ofNat]
      omega
    · change 0 = _
      omega

/-- The lengths of the masks are at most 32, and add up to the length of the prefix. -/
theorem maskWord_lengths {m : Nat} (inRange : m ≤ 128) :
    (∀ word, (maskWord m word).toNat ≤ 32) ∧ ∑ word, (maskWord m word).toNat = m := by
  constructor
  · intro word
    rw [toNat_maskWord]
    exact Nat.min_le_left _ _
  · have parts := sum_prefixPart 32 m 4
    rw [Nat.min_eq_left inRange, Finset.sum_range] at parts
    exact (Finset.sum_congr rfl fun word _ => toNat_maskWord m word).trans parts

theorem readsNumber_hexGroup {value : BitVec 16} {text : Text} (group : HexGroup text value) :
    ReadsNumber 16 uint16Max text value.toNat := by
  have numeral := unsignedNumeral_hexDigits group.nonempty group.digits
  rw [group.denotes] at numeral
  exact readLimited_of_plain ⟨numeral, Nat.le_of_lt_succ value.isLt⟩ (by decide)

theorem addrWords_addrGroups (addr : BitVec 128) (word : Fin 4) :
    addrWords ((addrGroups addr).map BitVec.toNat) word = bigWord 32 addr word := by
  have inside : 2 * 16 * (word.val + 1) ≤ 128 := by omega
  have halves : (bigWord 32 addr word).toNat = _ := toNat_bigWord_halves addr inside
  have first : 2 * word.val < 8 := by omega
  have second : 2 * word.val + 1 < 8 := by omega
  apply BitVec.eq_of_toNat_eq
  rw [addrWords, addrGroups, List.map_map, List.getD_eq_getElem _ _ (by simpa using first),
    List.getD_eq_getElem _ _ (by simpa using second), List.getElem_map, List.getElem_map,
    List.getElem_range, List.getElem_range]
  have high := (bigWord 16 addr (2 * word)).isLt
  have low := (bigWord 16 addr (2 * word + 1)).isLt
  simp only [Function.comp_apply, BitVec.toNat_add, BitVec.toNat_shiftLeft, BitVec.toNat_ofNat,
    Nat.shiftLeft_eq]
  omega

theorem parseIpv6Net_written {addr : BitVec 128} {m : Nat} (inRange : m ≤ 128) {text : Text}
    (written : WritesIpv6Net addr m text) :
    parseIpv6Net text = some ⟨fun word => bigWord 32 addr word, maskWord m⟩ := by
  rcases written with ⟨groups, isGroups, rfl⟩
  have groupDigits : ∀ piece ∈ groups, ∀ byte ∈ piece, isDigit 16 byte = true :=
    ((List.forall₂_and_left _ _).mp (isGroups.imp fun _ _ group => ⟨group.digits, group⟩)).1
  have dlmIs : ∀ dlm ∈ addrDelims slash, digitValue dlm = none ∧ dlm ≠ 0#8 := by
    decide
  have noNul : ∀ byte ∈ joinPieces (addrDelims slash) groups (printNat 10 m), byte ≠ 0#8 := by
    apply joinPieces_noNul
    · exact fun byte member => (inToken_printNat (by decide) (by decide) m byte member).1
    · exact fun dlm member => (dlmIs dlm member).2
    · exact fun piece member byte among =>
        isDigit_ne (groupDigits piece member byte among) (by decide)
  refine (parseIpv6Net_iff noNul).mpr ⟨groups, printNat 10 m, ?_, (addrGroups addr).map BitVec.toNat,
    m, ?_, readsNumber_printNat inRange (by decide), ?_⟩
  · apply cutGroups_joinPieces
    · rw [isGroups.length_eq]
      rfl
    · intro dlm member piece among inPiece
      exact isDigit_ne (groupDigits piece among dlm inPiece) (dlmIs dlm member).1 rfl
  · rw [List.forall₂_map_right_iff]
    exact isGroups.imp fun _ _ group => readsNumber_hexGroup group
  · congr 1
    funext word
    exact (addrWords_addrGroups addr word).symm

/-- The parsed net matches the packets that have an address with the same prefix, in the
place of the source address as well as in that of the destination address. -/
theorem parseIpv6Net_matches_iff (addr packet : BitVec 128) {m : Nat} (inRange : m ≤ 128)
    {text : Text} (written : WritesIpv6Net addr m text) :
    ∃ net, parseIpv6Net text = some net ∧ (∀ word, (net.maskRange word).toNat ≤ 32) ∧
      ∑ word, (net.maskRange word).toNat = m ∧
      (∀ data, StoredBig 16 data (Ipv6Hdr.srcAddr - Ipv6Hdr.proto) packet →
        (net.Matches src1FieldIpv6 data ↔ SamePrefix m packet addr)) ∧
      ∀ data, StoredBig 16 data (Ipv6Hdr.dstAddr - Ipv6Hdr.proto) packet →
        (net.Matches dst1FieldIpv6 data ↔ SamePrefix m packet addr) := by
  rcases maskWord_lengths inRange with ⟨short, total⟩
  have matchesIff {first at' : Nat} {data : Nat → BitVec 8}
      (defs : ∀ word : Fin 4, ipv6Defs.getD (first + word) default = addrFieldDef first at' word)
      (stored : StoredBig 16 data (at' - Ipv6Hdr.proto) packet) :
      Ipv6Net.Matches ⟨fun word => bigWord 32 addr word, maskWord m⟩ first data ↔
        SamePrefix m packet addr := by
    have parts := samePrefix_iff_words (show 128 = 32 * 4 from rfl) inRange packet addr
    rw [parts, Ipv6Net.Matches, Fin.forall_iff]
    apply forall₂_congr
    intro word before
    rw [defs ⟨word, before⟩, RteAclFieldDef.maskMatches_iff (short ⟨word, before⟩),
      input_addrFieldDef stored ⟨word, before⟩, toNat_maskWord]
  refine ⟨_, parseIpv6Net_written inRange written, short, total, ?_, ?_⟩
  · intro data stored
    exact matchesIff (by decide) stored
  · intro data stored
    exact matchesIff (by decide) stored

/-- A prefix of 70 bits ends inside the third word. -/
theorem parseIpv6Net_matches_iff_seventy :
    ∃ net, parseIpv6Net (writeIpv6Net 0x20010db8000000000000000000000001#128 70) = some net ∧
      (∀ word, (net.maskRange word).toNat ≤ 32) ∧ ∑ word, (net.maskRange word).toNat = 70 ∧
      (∀ data, StoredBig 16 data 2 (0x20010db80000000003ff000000000002#128) →
        net.Matches src1FieldIpv6 data) ∧
      ∀ data, StoredBig 16 data 18 (0x20010db80000000003ff000000000002#128) →
        net.Matches dst1FieldIpv6 data := by
  rcases parseIpv6Net_matches_iff 0x20010db8000000000000000000000001#128
      0x20010db80000000003ff000000000002#128 (by decide : 70 ≤ 128) (writesIpv6Net_full _ 70) with
    ⟨net, parsed, short, total, source, destination⟩
  have same : SamePrefix 70 (0x20010db80000000003ff000000000002#128)
      (0x20010db8000000000000000000000001#128) := by
    unfold SamePrefix
    decide
  exact ⟨net, parsed, short, total, fun data stored => (source data stored).mpr same,
    fun data stored => (destination data stored).mpr same⟩

end PacketForwarding.L3fwd
