import PacketForwarding.L3fwd.AclForm

/-! # Printing access control rules

What is printed of a rule is read back as the same rule. An IPv6 address is printed with
all its digits, and the parts of its mask are added up again.
-/

namespace PacketForwarding.L3fwd

open CString Lanes

/-! ## What is printed -/

def blank : BitVec 8 := 32#8

def dash : BitVec 8 := 45#8

/-- `0x%x` -/
def printHex {width : Nat} (value : BitVec width) : Text :=
  48#8 :: 120#8 :: printNat 16 value.toNat

/-- `%.2x` -/
def printByte (value : BitVec 8) : Text :=
  [digitChar (value.toNat / 16), digitChar (value.toNat % 16)]

/-- `uint32_t_to_char` -/
def toChar (ip : BitVec 32) (index : Nat) : BitVec 8 :=
  (ip >>> (24 - 8 * index) &&& 0xff#32).setWidth 8

/-- `%.2x%.2x` -/
def printGroup (high low : BitVec 8) : Text :=
  printByte high ++ printByte low

/-- `%.2x%.2x:%.2x%.2x` -/
def printWord (ip : BitVec 32) : Text :=
  printGroup (toChar ip 0) (toChar ip 1) ++ colon :: printGroup (toChar ip 2) (toChar ip 3)

def printIpv6Net (net : Ipv6Net) : Text :=
  printWord (net.value 0) ++ colon :: (printWord (net.value 1) ++ colon ::
    (printWord (net.value 2) ++ colon :: (printWord (net.value 3) ++ slash ::
      printNat 10 (net.maskRange 0 + net.maskRange 1 + net.maskRange 2 + net.maskRange 3).toNat)))

def printIpv4Net (inet : Inet) (net : Ipv4Net) : Text :=
  inet.ntop4 (bswap32 net.value) ++ slash :: printNat 10 net.maskRange.toNat

/-- The fields behind the nets, and the data of the rule if they are wanted. -/
def printOneRule {ν : Type} (printNet : ν → Text) (rule : AclRule (CbRule ν)) (extra : Bool) :
    Text :=
  printNet rule.field.src ++ blank :: (printNet rule.field.dst ++ blank ::
    (printNat 10 rule.field.srcPortLow.toNat ++ blank :: ([colon] ++ blank ::
      (printNat 10 rule.field.srcPortHigh.toNat ++ blank ::
        (printNat 10 rule.field.dstPortLow.toNat ++ blank :: ([colon] ++ blank ::
          (printNat 10 rule.field.dstPortHigh.toNat ++ blank ::
            ((printHex rule.field.proto ++ slash :: printHex rule.field.protoMask) ++ blank ::
              if extra then
                printHex rule.categoryMask ++ dash :: (printHex rule.priority ++ dash ::
                  (printHex rule.userdata ++ [blank]))
              else []))))))))

def printOneIpv4Rule (inet : Inet) : AclRule (CbRule Ipv4Net) → Bool → Text :=
  printOneRule (printIpv4Net inet)

def printOneIpv6Rule : AclRule (CbRule Ipv6Net) → Bool → Text :=
  printOneRule printIpv6Net

/-! ## Tokens -/

def IsToken (text : Text) : Prop :=
  text ≠ [] ∧ ∀ byte ∈ text, byte ≠ 0#8 ∧ isBlankDelim byte = false

theorem lineTokens_append {token : Text} (isToken : IsToken token) (rest : Text) :
    lineTokens (token ++ blank :: rest) = token :: lineTokens rest := by
  have noNul : ∀ byte ∈ token, (byte != 0#8) = true := fun byte member =>
    bne_iff_ne.mpr (isToken.2 byte member).1
  have string : cString (token ++ blank :: rest) = token ++ blank :: cString rest := by
    rw [cString, List.takeWhile_append_of_pos noNul, List.takeWhile_cons_of_pos (by decide)]
    rfl
  rw [lineTokens, string, words_append_delim _ isToken.1 (fun byte member =>
    (isToken.2 byte member).2) (by decide)]
  rfl

/-- A byte that is part of a token. -/
def InToken (byte : BitVec 8) : Prop :=
  byte ≠ 0#8 ∧ isBlankDelim byte = false

theorem isDigit_ne {radix : Nat} {byte other : BitVec 8} (digit : isDigit radix byte = true)
    (noDigit : digitValue other = none) : byte ≠ other := by
  rintro rfl
  rw [isDigit, noDigit] at digit
  cases digit

theorem inToken_digit {radix : Nat} {byte : BitVec 8} (digit : isDigit radix byte = true) :
    InToken byte := by
  refine ⟨isDigit_ne digit (by decide), ?_⟩
  have notBlank : byte ≠ 32#8 := isDigit_ne digit (by decide)
  have notTab : byte ≠ 9#8 := isDigit_ne digit (by decide)
  have notNewline : byte ≠ 10#8 := isDigit_ne digit (by decide)
  simp [isBlankDelim, notBlank, notTab, notNewline]

theorem inToken_printNat {radix : Nat} (two : 2 ≤ radix) (small : radix ≤ 36) (value : Nat) :
    ∀ byte ∈ printNat radix value, InToken byte := fun byte member =>
  inToken_digit (printNat_digits two small value byte member)

theorem isToken_printNat (value : Nat) : IsToken (printNat 10 value) :=
  ⟨printNat_ne_nil value, inToken_printNat (by decide) (by decide) value⟩

theorem inToken_printHex {width : Nat} (value : BitVec width) :
    ∀ byte ∈ printHex value, InToken byte := by
  intro byte member
  rw [printHex, List.mem_cons, List.mem_cons] at member
  rcases member with rfl | rfl | digit
  · exact ⟨by decide, by decide⟩
  · exact ⟨by decide, by decide⟩
  · exact inToken_printNat (by decide) (by decide) _ byte digit

theorem isToken_pair {front behind : Text} (first : ∀ byte ∈ front, InToken byte)
    (second : ∀ byte ∈ behind, InToken byte) : IsToken (front ++ slash :: behind) := by
  refine ⟨by simp, ?_⟩
  intro byte member
  rw [List.mem_append, List.mem_cons] at member
  rcases member with inFront | rfl | inBehind
  · exact first byte inFront
  · exact ⟨by decide, by decide⟩
  · exact second byte inBehind

/-! ## What is read back -/

theorem readsNumber_printNat {value limit : Nat} (small : value ≤ limit)
    (inRange : limit < ulongRange) :
    ReadsNumber 0 limit (printNat 10 value) value :=
  readLimited_of_plain ⟨unsignedNumeral_decimal value, small⟩ inRange

theorem readsNumber_printHex {width limit : Nat} {value : BitVec width} (small : value.toNat ≤ limit)
    (inRange : limit < ulongRange) : ReadsNumber 0 limit (printHex value) value.toNat :=
  readLimited_of_plain ⟨unsignedNumeral_hexadecimal value.toNat, small⟩ inRange

theorem slash_not_printHex {width : Nat} (value : BitVec width) : slash ∉ printHex value := by
  intro member
  rw [printHex, List.mem_cons, List.mem_cons] at member
  rcases member with impossible | impossible | digit
  · exact absurd impossible (by decide)
  · exact absurd impossible (by decide)
  · exact isDigit_ne (printNat_digits (by decide) (by decide) _ _ digit) delimits_slash.digit rfl

section Rule

variable {ν : Type} {printNet : ν → Text} {readsNet : Text → ν → Prop}

/-- The tokens that are printed. -/
def printedLine (printNet : ν → Text) (rule : CbRule ν) : CbLine where
  srcAddr := printNet rule.src
  dstAddr := printNet rule.dst
  srcPortLow := printNat 10 rule.srcPortLow.toNat
  srcPortDlm := [colon]
  srcPortHigh := printNat 10 rule.srcPortHigh.toNat
  dstPortLow := printNat 10 rule.dstPortLow.toNat
  dstPortDlm := [colon]
  dstPortHigh := printNat 10 rule.dstPortHigh.toNat
  proto := printHex rule.proto ++ slash :: printHex rule.protoMask
  userdata := none

theorem cbLine_printed {rule : AclRule (CbRule ν)} (extra : Bool)
    (src : IsToken (printNet rule.field.src)) (dst : IsToken (printNet rule.field.dst)) :
    cbLine false (printOneRule printNet rule extra) = some (printedLine printNet rule.field) := by
  have colonToken : IsToken [colon] := ⟨List.cons_ne_nil _ _, fun byte member => by
    rw [List.mem_singleton.mp member]
    exact ⟨by decide, by decide⟩⟩
  have protoToken := isToken_pair (inToken_printHex rule.field.proto)
    (inToken_printHex rule.field.protoMask)
  unfold cbLine printOneRule
  rw [lineTokens_append src, lineTokens_append dst,
    lineTokens_append (isToken_printNat _), lineTokens_append colonToken,
    lineTokens_append (isToken_printNat _), lineTokens_append (isToken_printNat _),
    lineTokens_append colonToken, lineTokens_append (isToken_printNat _),
    lineTokens_append protoToken]
  rfl

/-- If the nets are read back, then the rule is. -/
theorem cbForm_printed {rule : CbRule ν} (src : readsNet (printNet rule.src) rule.src)
    (dst : readsNet (printNet rule.dst) rule.dst)
    (srcOrder : rule.srcPortLow.toNat ≤ rule.srcPortHigh.toNat)
    (dstOrder : rule.dstPortLow.toNat ≤ rule.dstPortHigh.toNat) :
    CbForm ReadsNumber readsNet (printedLine printNet rule) rule 0#32 := by
  have port : ∀ value : BitVec 16, ReadsNumber 0 uint16Max (printNat 10 value.toNat) value.toNat :=
    fun value => readsNumber_printNat (Nat.le_of_lt_succ value.isLt) (by decide)
  have byte : ∀ value : BitVec 8, ReadsNumber 0 uint8Max (printHex value) value.toNat :=
    fun value => readsNumber_printHex (Nat.le_of_lt_succ value.isLt) (by decide)
  exact {
    src
    dst
    srcPortLow := port _
    srcPortHigh := port _
    srcPortDlm := rfl
    dstPortLow := port _
    dstPortHigh := port _
    dstPortDlm := rfl
    srcOrder
    dstOrder
    proto := ⟨_, _, cutAt_eq_some.mpr ⟨rfl, slash_not_printHex _⟩, byte _, byte _⟩
    userdata := .inl ⟨rfl, rfl⟩ }

end Rule

/-! ## Nets -/

theorem ipv4Form_printed {inet : Inet} (lawful : inet.Lawful) {net : Ipv4Net}
    (inRange : net.maskRange.toNat ≤ 32) :
    IsToken (printIpv4Net inet net) ∧
      Ipv4Form inet FirstWords ReadsNumber (printIpv4Net inet net) net := by
  have addrBytes : ∀ byte ∈ inet.ntop4 (bswap32 net.value), byte ≠ slash ∧ InToken byte := by
    intro byte member
    rcases lawful.ntop4_bytes _ byte member with digit | rfl
    · exact ⟨isDigit_ne digit delimits_slash.digit, inToken_digit digit⟩
    · exact ⟨by decide, by decide, by decide⟩
  have lenBytes : ∀ byte ∈ printNat 10 net.maskRange.toNat, byte ≠ slash := fun byte member =>
    isDigit_ne (printNat_digits (by decide) (by decide) _ byte member) delimits_slash.digit
  have noSlash : ∀ text : Text, (∀ byte ∈ text, byte ≠ slash) → ∀ byte ∈ text, isSlash byte = false :=
    fun text different byte member => beq_eq_false_iff_ne.mpr (different byte member)
  refine ⟨isToken_pair (fun byte member => (addrBytes byte member).2)
    (inToken_printNat (by decide) (by decide) _), inet.ntop4 (bswap32 net.value),
    printNat 10 net.maskRange.toNat, ⟨[], ?_⟩, bswap32 net.value, net.maskRange.toNat,
    lawful.pton4_ntop4 _, readsNumber_printNat inRange (by decide), ?_⟩
  · rw [printIpv4Net, words_append_delim _ (lawful.ntop4_ne_nil _)
      (noSlash _ fun byte member => (addrBytes byte member).1) (by decide),
      words_single (printNat_ne_nil _) (noSlash _ lenBytes)]
  · rw [bswap32_bswap32, BitVec.ofNat_toNat, BitVec.setWidth_eq]

theorem printGroup_digits (high low : BitVec 8) :
    ∀ byte ∈ printGroup high low, isDigit 16 byte = true := by
  intro byte member
  simp only [printGroup, printByte, List.cons_append, List.nil_append, List.mem_cons,
    List.not_mem_nil, or_false] at member
  rcases member with rfl | rfl | rfl | rfl
  · exact isDigit_digitChar (by omega) (by decide)
  · exact isDigit_digitChar (by omega) (by decide)
  · exact isDigit_digitChar (by omega) (by decide)
  · exact isDigit_digitChar (by omega) (by decide)

theorem digitsValue_printGroup (high low : BitVec 8) :
    digitsValue 16 (printGroup high low) = high.toNat * 256 + low.toNat := by
  have digit : ∀ value < 16, (digitValue (digitChar value)).getD 0 = value := by
    intro value below
    rw [digitValue_digitChar (by omega)]
    rfl
  simp only [digitsValue, printGroup, printByte, List.cons_append, List.nil_append,
    List.foldl_cons, List.foldl_nil]
  rw [digit _ (by omega), digit _ (by omega), digit _ (by omega), digit _ (by omega)]
  omega

theorem readsNumber_printGroup (high low : BitVec 8) :
    ReadsNumber 16 uint16Max (printGroup high low) (high.toNat * 256 + low.toNat) := by
  have nonempty : printGroup high low ≠ [] := List.cons_ne_nil _ _
  have numeral := unsignedNumeral_hexDigits nonempty (printGroup_digits high low)
  rw [digitsValue_printGroup] at numeral
  refine readLimited_of_plain ⟨numeral, ?_⟩ (by decide)
  change _ ≤ 65535
  omega

theorem cutAt_printGroup {dlm : BitVec 8} (noDigit : digitValue dlm = none) (high low : BitVec 8)
    (rest : Text) :
    cutAt dlm (printGroup high low ++ dlm :: rest) = some (printGroup high low, rest) :=
  cutAt_eq_some.mpr ⟨rfl, fun member => isDigit_ne (printGroup_digits high low dlm member) noDigit rfl⟩

theorem toNat_toChar (ip : BitVec 32) (index : Nat) :
    (toChar ip index).toNat = ip.toNat / 2 ^ (24 - 8 * index) % 256 := by
  rw [toChar, BitVec.toNat_setWidth, BitVec.toNat_and, BitVec.toNat_ushiftRight,
    Nat.shiftRight_eq_div_pow]
  have masked := Nat.and_two_pow_sub_one_eq_mod (ip.toNat / 2 ^ (24 - 8 * index)) 8
  change (_ &&& 255) % 256 = _
  rw [masked]
  exact Nat.mod_mod _ _

/-- The two groups of a word make up the word. -/
theorem word_printed (ip : BitVec 32) :
    (BitVec.ofNat 32 ((toChar ip 0).toNat * 256 + (toChar ip 1).toNat) <<< 16) +
      BitVec.ofNat 32 ((toChar ip 2).toNat * 256 + (toChar ip 3).toNat) = ip := by
  apply BitVec.eq_of_toNat_eq
  simp only [toNat_toChar, BitVec.toNat_add, BitVec.toNat_shiftLeft, BitVec.toNat_ofNat,
    Nat.shiftLeft_eq]
  omega

/-- The groups of an address. -/
def printGroups (value : Fin 4 → BitVec 32) : List (BitVec 8 × BitVec 8) :=
  [(toChar (value 0) 0, toChar (value 0) 1), (toChar (value 0) 2, toChar (value 0) 3),
    (toChar (value 1) 0, toChar (value 1) 1), (toChar (value 1) 2, toChar (value 1) 3),
    (toChar (value 2) 0, toChar (value 2) 1), (toChar (value 2) 2, toChar (value 2) 3),
    (toChar (value 3) 0, toChar (value 3) 1), (toChar (value 3) 2, toChar (value 3) 3)]

theorem addrWords_printed (value : Fin 4 → BitVec 32) :
    addrWords ((printGroups value).map fun group => group.1.toNat * 256 + group.2.toNat) = value := by
  funext word
  fin_cases word
  · exact word_printed (value 0)
  · exact word_printed (value 1)
  · exact word_printed (value 2)
  · exact word_printed (value 3)

/-- The parts of a mask add up to its length. -/
theorem maskWord_sum {m : Nat} (inRange : m ≤ 128) :
    (maskWord m 0 + maskWord m 1 + maskWord m 2 + maskWord m 3).toNat = m := by
  have all : ∀ m < 129, (maskWord m 0 + maskWord m 1 + maskWord m 2 + maskWord m 3).toNat = m := by
    decide +kernel
  exact all m (Nat.lt_succ_of_le inRange)

theorem isToken_printIpv6Net (net : Ipv6Net) : IsToken (printIpv6Net net) := by
  have group : ∀ high low, ∀ byte ∈ printGroup high low, InToken byte := fun high low byte member =>
    inToken_digit (printGroup_digits high low byte member)
  have colonIn : InToken colon := ⟨by decide, by decide⟩
  have word : ∀ ip, ∀ byte ∈ printWord ip, InToken byte := fun ip =>
    List.forall_mem_append.mpr ⟨group _ _, List.forall_mem_cons.mpr ⟨colonIn, group _ _⟩⟩
  have front : ∀ (ip : BitVec 32) (rest : Text), IsToken rest →
      IsToken (printWord ip ++ colon :: rest) :=
    fun ip rest token => ⟨by simp, List.forall_mem_append.mpr ⟨word ip,
      List.forall_mem_cons.mpr ⟨colonIn, token.2⟩⟩⟩
  exact front _ _ (front _ _ (front _ _ (isToken_pair (word _)
    (inToken_printNat (by decide) (by decide) _))))

theorem cutGroups_cons {dlm : BitVec 8} {dlms : List (BitVec 8)} {text piece rest behind : Text}
    {pieces : List Text} (cut : cutAt dlm text = some (piece, rest))
    (cuts : cutGroups dlms rest = some (pieces, behind)) :
    cutGroups (dlm :: dlms) text = some (piece :: pieces, behind) := by
  rw [cutGroups, cut]
  change (cutGroups dlms rest).bind _ = _
  rw [cuts]
  rfl

theorem cutGroups_printed (net : Ipv6Net) :
    cutGroups (addrDelims slash) (printIpv6Net net) =
      some ((printGroups net.value).map fun group => printGroup group.1 group.2,
        printNat 10 (net.maskRange 0 + net.maskRange 1 + net.maskRange 2 + net.maskRange 3).toNat) := by
  have colonCut := cutAt_printGroup delimits_colon.digit
  have slashCut := cutAt_printGroup delimits_slash.digit
  simp only [printIpv6Net, printWord, List.append_assoc, List.cons_append]
  exact cutGroups_cons (colonCut _ _ _) (cutGroups_cons (colonCut _ _ _)
    (cutGroups_cons (colonCut _ _ _) (cutGroups_cons (colonCut _ _ _)
      (cutGroups_cons (colonCut _ _ _) (cutGroups_cons (colonCut _ _ _)
        (cutGroups_cons (colonCut _ _ _) (cutGroups_cons (slashCut _ _ _) rfl)))))))

theorem ipv6Form_printed {net : Ipv6Net} {m : Nat} (inRange : m ≤ 128)
    (mask : net.maskRange = maskWord m) : Ipv6Form ReadsNumber (printIpv6Net net) net := by
  have cuts := cutGroups_printed net
  rw [mask, maskWord_sum inRange] at cuts
  refine ⟨_, _, cuts, (printGroups net.value).map fun group => group.1.toNat * 256 + group.2.toNat,
    m, ?_, readsNumber_printNat inRange (by decide), ?_⟩
  · rw [List.forall₂_map_left_iff, List.forall₂_map_right_iff, List.forall₂_same]
    exact fun group _ => readsNumber_printGroup group.1 group.2
  · rw [addrWords_printed, ← mask]

/-! ## Rules -/

/-- A rule that one of the parsers has read is printed as a text that it reads as the same
rule. -/
theorem parse_printed (inet : Inet) (lawful : inet.Lawful) :
    (∀ str hasUserdata rule userdata,
      parseCbIpv6Rule str hasUserdata = some (rule, userdata) →
        ∀ next : AclRule (CbRule Ipv6Net), next.field = rule → ∀ extra,
          parseCbIpv6Rule (printOneIpv6Rule next extra) false = some (rule, 0#32)) ∧
    ∀ str hasUserdata rule userdata,
      parseCbIpv4vlanRule inet str hasUserdata = some (rule, userdata) →
        ∀ next : AclRule (CbRule Ipv4Net), next.field = rule → ∀ extra,
          parseCbIpv4vlanRule inet (printOneIpv4Rule inet next extra) false = some (rule, 0#32) := by
  constructor
  · rintro str hasUserdata rule userdata parsed next rfl extra
    rcases parseCbIpv6Rule_iff.mp parsed with ⟨line, _, form⟩
    have net : ∀ {text net}, Ipv6Form ReadsNumber text net →
        Ipv6Form ReadsNumber (printIpv6Net net) net := by
      rintro text _ ⟨_, _, _, values, m, _, read, rfl⟩
      exact ipv6Form_printed (of_decide_eq_true (Option.filter_eq_some_iff.mp read).2) rfl
    exact parseCbIpv6Rule_iff.mpr ⟨_, cbLine_printed extra (isToken_printIpv6Net _)
      (isToken_printIpv6Net _), cbForm_printed (net form.src) (net form.dst) form.srcOrder
        form.dstOrder⟩
  · rintro str hasUserdata rule userdata parsed next rfl extra
    rcases parseCbIpv4vlanRule_iff.mp parsed with ⟨line, _, form⟩
    have net : ∀ {text net}, Ipv4Form inet FirstWords ReadsNumber text net →
        IsToken (printIpv4Net inet net) ∧
          Ipv4Form inet FirstWords ReadsNumber (printIpv4Net inet net) net := by
      rintro text _ ⟨_, _, _, value, m, _, read, rfl⟩
      have small : m ≤ 32 := of_decide_eq_true (Option.filter_eq_some_iff.mp read).2
      refine ipv4Form_printed lawful ?_
      rw [toNat_of_limited read (by decide)]
      exact small
    rcases net form.src with ⟨srcToken, src⟩
    rcases net form.dst with ⟨dstToken, dst⟩
    exact parseCbIpv4vlanRule_iff.mpr ⟨_, cbLine_printed extra srcToken dstToken,
      cbForm_printed src dst form.srcOrder form.dstOrder⟩

def webLine4 : Text := ascii "1.2.3.4/24 5.6.7.8/16 0 : 65535 80 : 443 6/0xff"

def webLine6 : Text := ascii "1:2:3:4:5:6:7:8/70 9:a:b:c:d:e:f:10/64 0 : 65535 80 : 443 6/0xff"

theorem parse_printed_web :
    (∃ rule userdata, parseCbIpv6Rule webLine6 false = some (rule, userdata) ∧
      parseCbIpv6Rule (printOneIpv6Rule ⟨rule, 1#32, 2#32, 3#32⟩ true) false = some (rule, 0#32)) ∧
    ∃ rule userdata, parseCbIpv4vlanRule quadInet webLine4 false = some (rule, userdata) ∧
      parseCbIpv4vlanRule quadInet (printOneIpv4Rule quadInet ⟨rule, 1#32, 2#32, 3#32⟩ true) false =
        some (rule, 0#32) := by
  have accepted6 : ∃ rule userdata, parseCbIpv6Rule webLine6 false = some (rule, userdata) :=
    ⟨_, _, rfl⟩
  have accepted4 : ∃ rule userdata,
      parseCbIpv4vlanRule quadInet webLine4 false = some (rule, userdata) :=
    ⟨_, _, rfl⟩
  rcases accepted6 with ⟨rule6, userdata6, parsed6⟩
  rcases accepted4 with ⟨rule4, userdata4, parsed4⟩
  rcases parse_printed quadInet quadInet_lawful with ⟨printed6, printed4⟩
  exact ⟨⟨rule6, userdata6, parsed6, printed6 _ _ _ _ parsed6 _ rfl _⟩,
    rule4, userdata4, parsed4, printed4 _ _ _ _ parsed4 _ rfl _⟩

end PacketForwarding.L3fwd
