import PacketForwarding.L3fwd.AclPrint
import PacketForwarding.L3fwd.LpmSetup
import PacketForwarding.L3fwd.ReadRules

/-! # Routes from a file

A line has an address with the length of its prefix, and a port. What is behind them is not
looked at. The parser stores each part as soon as it has read it, and goes on to the port when
the address is invalid.
-/

namespace PacketForwarding.L3fwd

open CString Lanes

variable {α : Type}

deriving instance DecidableEq for LpmRouteRule

/-! ## The parsers -/

/-- What the two families of addresses differ in: `inet_pton`, the longest prefix, and the
order of the bytes in a route. -/
structure AddrFamily (α : Type) where
  pton : Text → Option α
  left : Text → α → α
  maxDepth : Nat
  ntohl : α → α
  small : maxDepth < 2 ^ 8

def AddrFamily.inetPton (family : AddrFamily α) (text : Text) (dst : α) : Int × α :=
  match family.pton text with
  | some addr => (1, addr)
  | none => (0, family.left text dst)

def Inet.ipv4 (inet : Inet) : AddrFamily (BitVec 32) where
  pton := inet.pton4
  left := inet.left4
  maxDepth := 32
  ntohl := bswap32
  small := by decide

def Inet.ipv6 (inet : Inet) : AddrFamily (BitVec 128) where
  pton := inet.pton6
  left := inet.left6
  maxDepth := 128
  ntohl := id
  small := by decide

/-- The two functions for an address and a length, which differ in the family. -/
def parseAddrMask (family : AddrFamily α) (token : Text) (v : LpmRouteRule α) :
    Int × LpmRouteRule α :=
  match strtoks isSlash 2 token with
  | some [sa, sm] =>
      let (rc, ip) := family.inetPton sa v.ip
      let v := { v with ip := ip }
      if rc ≠ 1 then (-einval, v)
      else
        match getCbField sm 0 family.maxDepth 0#8 with
        | none => (-einval, v)
        | some (mask, _) => (0, { v with ip := family.ntohl v.ip, depth := BitVec.ofNat 8 mask })
  | _ => (-einval, v)

def parseIpv4AddrMask (inet : Inet) :
    Text → LpmRouteRule (BitVec 32) → Int × LpmRouteRule (BitVec 32) :=
  parseAddrMask inet.ipv4

def parseIpv6AddrMask (inet : Inet) :
    Text → LpmRouteRule (BitVec 128) → Int × LpmRouteRule (BitVec 128) :=
  parseAddrMask inet.ipv6

def lpmParseV6Net (inet : Inet) :
    Text → LpmRouteRule (BitVec 128) → Int × LpmRouteRule (BitVec 128) :=
  parseIpv6AddrMask inet

/-- What the parsers of both families do with a line. -/
def lpmParseRule (parseNet : Text → LpmRouteRule α → Int × LpmRouteRule α) (str : Text)
    (v : LpmRouteRule α) : Int × LpmRouteRule α :=
  match strtoks isBlankDelim 2 (cString str) with
  | some [dstAddr, ifOut] =>
      let (rc, v) := parseNet dstAddr v
      match getCbField ifOut 0 uint8Max 0#8 with
      | none => (-einval, v)
      | some (value, _) => (rc, { v with ifOut := BitVec.ofNat 8 value })
  | _ => (-einval, v)

def lpmParseV4Rule (inet : Inet) :
    Text → LpmRouteRule (BitVec 32) → Int × LpmRouteRule (BitVec 32) :=
  lpmParseRule (parseIpv4AddrMask inet)

def lpmParseV6Rule (inet : Inet) :
    Text → LpmRouteRule (BitVec 128) → Int × LpmRouteRule (BitVec 128) :=
  lpmParseRule (lpmParseV6Net inet)

/-! ## What is accepted -/

/-- `<addr>'/'<depth>`, in the first two pieces between slashes. -/
def NetForm (family : AddrFamily α) (token : Text) (ip : α) (depth : BitVec 8) : Prop :=
  ∃ addr len, FirstWords token addr len ∧ ∃ value, family.pton addr = some value ∧
    ip = family.ntohl value ∧ ReadsNumber 0 family.maxDepth len depth.toNat

/-- The first two tokens of a line. -/
def RouteForm (family : AddrFamily α) (str : Text) (rule : LpmRouteRule α) : Prop :=
  ∃ dstAddr ifOut rest, lineTokens str = dstAddr :: ifOut :: rest ∧
    NetForm family dstAddr rule.ip rule.depth ∧ ReadsNumber 0 uint8Max ifOut rule.ifOut.toNat

/-- There are two tokens, or the second one is missing. -/
theorem strtoks_two (isDelim : BitVec 8 → Bool) (s : Text) :
    (∃ first second rest, words isDelim s = first :: second :: rest ∧
      strtoks isDelim 2 s = some [first, second]) ∨
    ((∀ first second rest, words isDelim s ≠ first :: second :: rest) ∧
      strtoks isDelim 2 s = none) := by
  rw [strtoks_eq]
  cases found : words isDelim s with
  | nil => exact Or.inr ⟨by simp, rfl⟩
  | cons first others =>
      cases others with
      | nil => exact Or.inr ⟨by simp, rfl⟩
      | cons second rest => exact Or.inl ⟨first, second, rest, rfl, if_pos (by simp)⟩

/-- A byte that is read is the one that is stored. -/
theorem ReadsNumber.ofNat_eq {limit value : Nat} {text : Text} {byte : BitVec 8}
    (reads : ReadsNumber 0 limit text byte.toNat) (read : readLimited 0 limit text = some value) :
    BitVec.ofNat 8 value = byte := by
  have same : value = byte.toNat := Option.some.inj (read.symm.trans reads)
  rw [same, BitVec.ofNat_toNat, BitVec.setWidth_eq]

section Parser

variable (family : AddrFamily α)

theorem parseAddrMask_iff {token : Text} (noNul : ∀ byte ∈ token, byte ≠ 0#8)
    (v rule : LpmRouteRule α) :
    parseAddrMask family token v = (0, rule) ↔
      NetForm family token rule.ip rule.depth ∧ rule.ifOut = v.ifOut := by
  have refused : ∀ other : LpmRouteRule α, (-einval, other) ≠ ((0, rule) : Int × _) := by
    intro other same
    have isError : -einval ≠ 0 := by decide
    exact isError (congrArg Prod.fst same)
  unfold parseAddrMask
  rcases strtoks_two isSlash token with ⟨sa, sm, rest, isWords, tokens⟩ | ⟨noWords, tokens⟩
  · have smNoNul : ∀ byte ∈ sm, byte ≠ 0#8 := by
      have member : sm ∈ words isSlash token := by simp [isWords]
      exact fun byte inside => noNul byte ((mem_words token sm member).2 byte inside).1
    have isNet : ∀ {addr len}, FirstWords token addr len → addr = sa ∧ len = sm := by
      rintro addr len ⟨others, pieces⟩
      rw [isWords] at pieces
      cases pieces
      exact ⟨rfl, rfl⟩
    rw [tokens]
    cases valid : family.pton sa with
    | none =>
        simp only [AddrFamily.inetPton, valid]
        refine iff_of_false (refused _) ?_
        rintro ⟨⟨addr, len, pieces, value, isAddr, _⟩, _⟩
        rw [(isNet pieces).1, valid] at isAddr
        cases isAddr
    | some value =>
        simp only [AddrFamily.inetPton, valid, ne_eq, not_true_eq_false, if_false,
          getCbField_nul smNoNul]
        cases read : readLimited 0 family.maxDepth sm with
        | none =>
            refine iff_of_false (refused _) ?_
            rintro ⟨⟨addr, len, pieces, _, _, _, reads⟩, _⟩
            rw [(isNet pieces).2, ReadsNumber, read] at reads
            cases reads
        | some mask =>
            constructor
            · rintro ⟨⟩
              exact ⟨⟨sa, sm, ⟨rest, isWords⟩, value, valid, rfl,
                readsNumber_of_limited read family.small⟩, rfl⟩
            · rintro ⟨⟨addr, len, pieces, other, isAddr, isIp, reads⟩, isPort⟩
              rcases isNet pieces with ⟨rfl, rfl⟩
              rw [valid] at isAddr
              cases isAddr
              rcases rule with ⟨ip, depth, ifOut⟩
              cases isIp
              cases isPort
              exact congrArg (fun depth => (0, LpmRouteRule.mk _ depth _)) (reads.ofNat_eq read)
  · rw [tokens]
    refine iff_of_false (refused _) ?_
    rintro ⟨⟨addr, len, ⟨rest, pieces⟩, _⟩, _⟩
    exact noWords addr len rest pieces

/-- A line is accepted if it has the form of a route, whatever the entry held before. -/
theorem lpmParseRule_iff (str : Text) (v rule : LpmRouteRule α) :
    lpmParseRule (parseAddrMask family) str v = (0, rule) ↔ RouteForm family str rule := by
  have refused : ∀ other : LpmRouteRule α, (-einval, other) ≠ ((0, rule) : Int × _) := by
    intro other same
    have isError : -einval ≠ 0 := by decide
    exact isError (congrArg Prod.fst same)
  unfold lpmParseRule
  rcases strtoks_two isBlankDelim (cString str) with
    ⟨dstAddr, ifOut, rest, isWords, tokens⟩ | ⟨noWords, tokens⟩
  · have noNul : ∀ token ∈ lineTokens str, ∀ byte ∈ token, byte ≠ 0#8 :=
      fun token member byte inside => ((mem_lineTokens member).2 byte inside).1
    have isLine : lineTokens str = dstAddr :: ifOut :: rest := isWords
    rw [isLine] at noNul
    have dstNoNul := noNul dstAddr List.mem_cons_self
    have outNoNul := noNul ifOut (List.mem_cons_of_mem _ List.mem_cons_self)
    rw [tokens]
    simp only [getCbField_nul outNoNul]
    cases read : readLimited 0 uint8Max ifOut with
    | none =>
        refine iff_of_false (refused _) ?_
        rintro ⟨addr, out, others, isTokens, _, reads⟩
        rw [isLine] at isTokens
        cases isTokens
        rw [ReadsNumber, read] at reads
        cases reads
    | some value =>
        simp only [Option.map_some]
        constructor
        · intro accepted
          rcases Prod.mk.inj accepted with ⟨ok, rfl⟩
          have net := (parseAddrMask_iff family dstNoNul v _).mp (Prod.ext ok rfl)
          exact ⟨dstAddr, ifOut, rest, isLine, net.1,
            readsNumber_of_limited read (by decide)⟩
        · rintro ⟨addr, out, others, isTokens, net, reads⟩
          rw [isLine] at isTokens
          cases isTokens
          have parsed := (parseAddrMask_iff family dstNoNul v { rule with ifOut := v.ifOut }).mpr
            ⟨net, rfl⟩
          rw [parsed, reads.ofNat_eq read]
  · rw [tokens]
    refine iff_of_false (refused _) ?_
    rintro ⟨addr, out, others, isTokens, _⟩
    exact noWords addr out others isTokens

end Parser

/-! ## Files of routes -/

/-- A file with these routes, and besides them only comments and empty lines. -/
abbrev RouteFile (family : AddrFamily α) (file : Text) (routes : List (LpmRouteRule α)) : Prop :=
  WrittenFile (RouteForm family) file routes

theorem accepts_route (family : AddrFamily α) (zero : LpmRouteRule α) (str : Text) :
    Accepts (lpmParseRule (parseAddrMask family)) zero (RouteForm family) str :=
  fun rule => lpmParseRule_iff family str zero rule

/-- A file is read if it is a file of routes. -/
theorem lpmAddRules_iff {family : AddrFamily α} (zero : LpmRouteRule α) {access : FileAccess}
    {file : Text} (available : access.Available file) {routes : List (LpmRouteRule α)} :
    readRoutes (lpmAddRules (lpmParseRule (parseAddrMask family)) zero access) = .ok routes ↔
      RouteFile family file routes :=
  readRoutes_iff available fun buff _ => accepts_route family zero buff.tail

/-! ## Writing a file -/

/-- `R<addr>/<depth> <port>` -/
def printRoute (printAddr : α → Text) (rule : LpmRouteRule α) : Text :=
  routeLeadChar :: ((printAddr rule.ip ++ slash :: printNat 10 rule.depth.toNat) ++ blank ::
    (printNat 10 rule.ifOut.toNat ++ [newline]))

def printRoutes (printAddr : α → Text) (routes : List (LpmRouteRule α)) : Text :=
  (routes.map (printRoute printAddr)).flatten

/-- Addresses are printed as texts that are read back. The longest of them has 45 bytes. -/
structure Prints (family : AddrFamily α) (printAddr : α → Text) : Prop where
  pton : ∀ ip, ∃ value, family.pton (printAddr ip) = some value ∧ ip = family.ntohl value
  bytes : ∀ ip, ∀ byte ∈ printAddr ip, InToken byte ∧ byte ≠ slash
  nonempty : ∀ ip, printAddr ip ≠ []
  short : ∀ ip, (printAddr ip).length ≤ 45

theorem lineTokens_last {token : Text} (isToken : IsToken token) :
    lineTokens (token ++ [newline]) = [token] := by
  have noNul : ∀ byte ∈ token, (byte != 0#8) = true := fun byte member =>
    bne_iff_ne.mpr (isToken.2 byte member).1
  have string : cString (token ++ [newline]) = token ++ [newline] := by
    rw [cString, List.takeWhile_append_of_pos noNul]
    rfl
  rw [lineTokens, string, words_append_delim _ isToken.1 (fun byte member =>
    (isToken.2 byte member).2) (by decide)]
  rfl

theorem length_printNat_byte (byte : BitVec 8) : (printNat 10 byte.toNat).length ≤ 3 := by
  have digits : (Nat.digits 10 byte.toNat).length ≤ 3 :=
    Nat.digits_length_le_iff (by decide) _ |>.mpr (Nat.lt_trans byte.isLt (by decide))
  unfold printNat
  split
  · decide
  · rw [List.length_map, List.length_reverse]
    exact digits

section Print

variable {family : AddrFamily α} {printAddr : α → Text} (prints : Prints family printAddr)

include prints

theorem Prints.net (rule : LpmRouteRule α) (inRange : rule.depth.toNat ≤ family.maxDepth) :
    IsToken (printAddr rule.ip ++ slash :: printNat 10 rule.depth.toNat) ∧
      NetForm family (printAddr rule.ip ++ slash :: printNat 10 rule.depth.toNat) rule.ip
        rule.depth := by
  have noSlash : ∀ text : Text, (∀ byte ∈ text, byte ≠ slash) →
      ∀ byte ∈ text, isSlash byte = false :=
    fun text different byte member => beq_eq_false_iff_ne.mpr (different byte member)
  have lenBytes : ∀ byte ∈ printNat 10 rule.depth.toNat, byte ≠ slash := fun byte member =>
    isDigit_ne (printNat_digits (by decide) (by decide) _ byte member) delimits_slash.digit
  rcases prints.pton rule.ip with ⟨value, reads, isIp⟩
  refine ⟨isToken_pair (fun byte member => (prints.bytes rule.ip byte member).1)
    (inToken_printNat (by decide) (by decide) _), printAddr rule.ip,
    printNat 10 rule.depth.toNat, ⟨[], ?_⟩, value, reads, isIp,
    readsNumber_printNat inRange (Nat.lt_trans family.small (by decide))⟩
  rw [words_append_delim _ (prints.nonempty rule.ip)
    (noSlash _ fun byte member => (prints.bytes rule.ip byte member).2) (by decide),
    words_single (printNat_ne_nil _) (noSlash _ lenBytes)]

theorem Prints.form (rule : LpmRouteRule α) (inRange : rule.depth.toNat ≤ family.maxDepth) :
    RouteForm family (printRoute printAddr rule).tail rule := by
  rcases prints.net rule inRange with ⟨isToken, net⟩
  refine ⟨_, _, [], ?_, net, readsNumber_printNat (Nat.le_of_lt_succ rule.ifOut.isLt) (by decide)⟩
  rw [printRoute, List.tail_cons, lineTokens_append isToken, lineTokens_last (isToken_printNat _)]

theorem Prints.isLine (rule : LpmRouteRule α) (inRange : rule.depth.toNat ≤ family.maxDepth) :
    IsLine (printRoute printAddr rule) where
  ends := by
    refine ⟨routeLeadChar :: ((printAddr rule.ip ++ slash :: printNat 10 rule.depth.toNat) ++
      blank :: printNat 10 rule.ifOut.toNat), by simp [printRoute], ?_⟩
    have notToken : ¬ InToken newline := fun inToken => absurd inToken.2 (by decide)
    have outside : ∀ text, IsToken text → newline ∉ text := fun text isToken member =>
      notToken (isToken.2 newline member)
    have apart := outside _ (prints.net rule inRange).1
    have apart' := outside _ (isToken_printNat rule.ifOut.toNat)
    have leads : newline ≠ routeLeadChar ∧ newline ≠ blank := by decide
    rw [List.mem_cons, List.mem_append, List.mem_cons]
    rintro (isLead | inNet | isBlank | inPort)
    · exact leads.1 isLead
    · exact apart inNet
    · exact leads.2 isBlank
    · exact apart' inPort
  fits := by
    have addr := prints.short rule.ip
    have depth := length_printNat_byte rule.depth
    have ifOut := length_printNat_byte rule.ifOut
    have room : lineMax = 2048 := rfl
    simp only [printRoute, List.length_cons, List.length_append, List.length_nil]
    omega

/-- A file with these routes is written. -/
theorem Prints.routeFile {routes : List (LpmRouteRule α)} (nonempty : routes ≠ [])
    (count : routes.length < 2 ^ 31)
    (inRange : ∀ rule ∈ routes, rule.depth.toNat ≤ family.maxDepth) :
    RouteFile family (printRoutes printAddr routes) routes := by
  have lines : readLines (printRoutes printAddr routes) = routes.map (printRoute printAddr) := by
    apply readLines_lines
    intro line member
    rcases List.mem_map.mp member with ⟨rule, isRule, rfl⟩
    exact prints.isLine rule (inRange rule isRule)
  have all : routeLines (routes.map (printRoute printAddr)) = routes.map (printRoute printAddr) := by
    apply List.filter_eq_self.mpr
    intro line member
    rcases List.mem_map.mp member with ⟨rule, _, rfl⟩
    rfl
  refine ⟨?_, ?_, nonempty, count⟩
  · intro buff member
    rw [lines] at member
    rcases List.mem_map.mp member with ⟨rule, _, rfl⟩
    exact Or.inl rfl
  · rw [lines, all, List.forall₂_map_left_iff, List.forall₂_same]
    exact fun rule isRule => prints.form rule (inRange rule isRule)

end Print

theorem RouteForm.depth_le {family : AddrFamily α} {str : Text} {rule : LpmRouteRule α}
    (form : RouteForm family str rule) : rule.depth.toNat ≤ family.maxDepth := by
  rcases form with ⟨_, _, _, _, ⟨_, _, _, _, _, _, reads⟩, _⟩
  exact of_decide_eq_true (Option.filter_eq_some_iff.mp reads).2

/-! ## Addresses -/

/-- Four digits, as two bytes. -/
def readGroup (text : Text) : Option (BitVec 8 × BitVec 8) :=
  if text.length = 4 ∧ text.all (isDigit 16) then
    some (BitVec.ofNat 8 (digitsValue 16 text / 256), BitVec.ofNat 8 (digitsValue 16 text))
  else
    none

/-- Eight groups with all their digits. -/
def readIpv6 (text : Text) : Option (BitVec 128) := do
  let groups ← (text.splitOn colon).mapM readGroup
  guard (groups.length = 8)
  return ofLanes 8 16 fun index =>
    let group := groups.getD (index / 2) default
    if index % 2 = 0 then group.1 else group.2

def ipv6Group (addr : BitVec 128) (index : Nat) : BitVec 8 × BitVec 8 :=
  (lane 8 addr (2 * index), lane 8 addr (2 * index + 1))

def printIpv6 (addr : BitVec 128) : Text :=
  [colon].intercalate ((List.range 8).map fun index =>
    printGroup (ipv6Group addr index).1 (ipv6Group addr index).2)

/-- A library that knows the addresses of both families. -/
def fullInet : Inet :=
  { quadInet with pton6 := readIpv6 }

theorem readGroup_printGroup (high low : BitVec 8) :
    readGroup (printGroup high low) = some (high, low) := by
  have digits : (printGroup high low).all (isDigit 16) = true :=
    List.all_eq_true.mpr (printGroup_digits high low)
  have highLt := high.isLt
  have lowLt := low.isLt
  rw [readGroup, if_pos ⟨rfl, digits⟩, digitsValue_printGroup]
  congr 2
  · apply BitVec.eq_of_toNat_eq
    rw [BitVec.toNat_ofNat]
    omega
  · apply BitVec.eq_of_toNat_eq
    rw [BitVec.toNat_ofNat]
    omega

theorem readIpv6_printIpv6 (addr : BitVec 128) : readIpv6 (printIpv6 addr) = some addr := by
  have noColon : ∀ text ∈ (List.range 8).map (fun index =>
      printGroup (ipv6Group addr index).1 (ipv6Group addr index).2), colon ∉ text := by
    intro text member inside
    rcases List.mem_map.mp member with ⟨index, _, rfl⟩
    exact isDigit_ne (printGroup_digits _ _ colon inside) delimits_colon.digit rfl
  have groups : ((List.range 8).map fun index =>
      printGroup (ipv6Group addr index).1 (ipv6Group addr index).2).mapM readGroup =
        some ((List.range 8).map (ipv6Group addr)) := by
    have each : (readGroup ∘ fun index =>
        printGroup (ipv6Group addr index).1 (ipv6Group addr index).2) =
          fun index => pure (ipv6Group addr index) :=
      funext fun index => readGroup_printGroup _ _
    rw [List.mapM_map, each]
    exact List.mapM_pure
  rw [readIpv6, printIpv6, List.splitOn_intercalate colon noColon (by simp), groups]
  apply congrArg some
  apply ext_lanes 8 16
  intro index inside
  rw [lane_ofLanes 8 16 _ index inside]
  have half : index / 2 < 8 := by omega
  dsimp only
  rw [List.getD_eq_getElem _ _ (by simpa using half), List.getElem_map, List.getElem_range]
  split
  · exact congrArg (lane 8 addr) (by omega)
  · exact congrArg (lane 8 addr) (by omega)

theorem length_printIpv6 (addr : BitVec 128) : (printIpv6 addr).length = 39 := by
  have four : ∀ high low : BitVec 8, (printGroup high low).length = 4 := fun _ _ => rfl
  simp [printIpv6, List.range_succ, four]

/-- A printed address has digits and colons. -/
theorem mem_printIpv6 {addr : BitVec 128} {byte : BitVec 8} (member : byte ∈ printIpv6 addr) :
    isDigit 16 byte = true ∨ byte = colon := by
  have digits : ∀ high low, byte ∈ printGroup high low → isDigit 16 byte = true :=
    fun high low inGroup => printGroup_digits high low byte inGroup
  simp only [printIpv6, List.range_succ, List.range_zero, List.nil_append, List.cons_append,
    List.map_cons, List.map_nil, List.intercalate_cons_cons, List.intercalate_singleton,
    List.mem_append, List.mem_singleton] at member
  grind

theorem fullInet_prints6 : Prints fullInet.ipv6 printIpv6 where
  pton := fun ip => ⟨ip, readIpv6_printIpv6 ip, rfl⟩
  bytes := by
    intro ip byte member
    rcases mem_printIpv6 member with digit | rfl
    · exact ⟨inToken_digit digit, isDigit_ne digit delimits_slash.digit⟩
    · exact ⟨⟨by decide, by decide⟩, by decide⟩
  nonempty := fun ip => List.ne_nil_of_length_pos (by rw [length_printIpv6]; decide)
  short := fun ip => by rw [length_printIpv6]; decide

/-! ## The two kinds of files -/

theorem Inet.Lawful.prints {inet : Inet} (lawful : inet.Lawful)
    (short : ∀ addr, (inet.ntop4 addr).length ≤ 45) :
    Prints inet.ipv4 fun ip => inet.ntop4 (bswap32 ip) where
  pton := fun ip => ⟨bswap32 ip, lawful.pton4_ntop4 _, (bswap32_bswap32 ip).symm⟩
  bytes := by
    intro ip byte member
    rcases lawful.ntop4_bytes _ byte member with digit | rfl
    · exact ⟨inToken_digit digit, isDigit_ne digit delimits_slash.digit⟩
    · exact ⟨⟨by decide, by decide⟩, by decide⟩
  nonempty := fun ip => lawful.ntop4_ne_nil _
  short := fun ip => short _

theorem fileOf_available (text : Text) : (fileOf text).Available text :=
  ⟨rfl, rfl, fun _ => rfl⟩

/-- What the loader makes of a file of either kind: the routes that are written in it, or
nothing. -/
theorem lpmRules_read (inet : Inet) {access : FileAccess} {file : Text}
    (available : access.Available file) :
    (∀ zero routes, readRoutes (lpmAddRules (lpmParseV4Rule inet) zero access) = .ok routes ↔
      RouteFile inet.ipv4 file routes) ∧
    ∀ zero routes, readRoutes (lpmAddRules (lpmParseV6Rule inet) zero access) = .ok routes ↔
      RouteFile inet.ipv6 file routes :=
  ⟨fun zero _ => lpmAddRules_iff zero available, fun zero _ => lpmAddRules_iff zero available⟩

/-- A file with a comment, and two routes of which the second has a longer prefix. -/
def twoRoutesFile : Text :=
  ascii "# default\nR10.0.0.0/8 0\nR10.1.0.0/0x10 1 # inner\n"

def zeroIpv4Route : LpmRouteRule (BitVec 32) := ⟨0#32, 0#8, 0#8⟩

theorem lpmRules_read_two :
    RouteFile quadInet.ipv4 twoRoutesFile
      [⟨0x0a000000#32, 8#8, 0#8⟩, ⟨0x0a010000#32, 16#8, 1#8⟩] :=
  ((lpmRules_read quadInet (fileOf_available twoRoutesFile)).1 zeroIpv4Route _).mp
    (by decide +kernel)

/-- Reading undoes writing, and what was read can be written. -/
structure WritesBack (parser : Text → LpmRouteRule α → Int × LpmRouteRule α) (maxDepth : Nat)
    (printAddr : α → Text) : Prop where
  written : ∀ zero routes, routes ≠ [] → routes.length < 2 ^ 31 →
    (∀ rule ∈ routes, rule.depth.toNat ≤ maxDepth) →
    readRoutes (lpmAddRules parser zero (fileOf (printRoutes printAddr routes))) =
      .ok routes
  read : ∀ zero access file routes, FileAccess.Available access file →
    readRoutes (lpmAddRules parser zero access) = .ok routes →
    readRoutes (lpmAddRules parser zero (fileOf (printRoutes printAddr routes))) =
      .ok routes

theorem Prints.writesBack {family : AddrFamily α} {printAddr : α → Text}
    (prints : Prints family printAddr) :
    WritesBack (lpmParseRule (parseAddrMask family)) family.maxDepth printAddr where
  written := by
    intro zero routes nonempty count inRange
    exact (lpmAddRules_iff zero (fileOf_available _)).mpr (prints.routeFile nonempty count inRange)
  read := by
    intro zero access file routes available accepted
    have isFile := (lpmAddRules_iff zero available).mp accepted
    apply (lpmAddRules_iff zero (fileOf_available _)).mpr
    apply prints.routeFile isFile.nonempty isFile.count
    intro rule member
    rcases List.forall₂_iff_get.mp isFile.forms with ⟨sameLength, forms⟩
    rcases List.get_of_mem member with ⟨⟨index, inside⟩, rfl⟩
    exact (forms index (sameLength ▸ inside) inside).depth_le

/-- Files of both kinds can be written from their routes. -/
theorem lpmRules_written (inet : Inet) {printIpv4 : BitVec 32 → Text}
    {printIpv6 : BitVec 128 → Text} (prints4 : Prints inet.ipv4 printIpv4)
    (prints6 : Prints inet.ipv6 printIpv6) :
    WritesBack (lpmParseV4Rule inet) 32 printIpv4 ∧
      WritesBack (lpmParseV6Rule inet) 128 printIpv6 :=
  ⟨prints4.writesBack, prints6.writesBack⟩

theorem length_printQuad_le (addr : BitVec 32) : (printQuad addr).length ≤ 45 := by
  have octets : ∀ byte : BitVec 8, (printOctet byte).length ≤ 3 := length_printNat_byte
  have first := octets (lane 8 addr 0)
  have second := octets (lane 8 addr 1)
  have third := octets (lane 8 addr 2)
  have fourth := octets (lane 8 addr 3)
  simp only [printQuad, List.length_append, List.length_cons]
  omega

theorem fullInet_lawful : fullInet.Lawful where
  pton4_ntop4 := quadInet_lawful.pton4_ntop4
  ntop4_ne_nil := quadInet_lawful.ntop4_ne_nil
  ntop4_bytes := quadInet_lawful.ntop4_bytes

def zeroIpv6Route : LpmRouteRule (BitVec 128) := ⟨0#128, 0#8, 0#8⟩

theorem lpmRules_written_two :
    let ipv4 : List (LpmRouteRule (BitVec 32)) :=
      [⟨0x0a000000#32, 8#8, 0#8⟩, ⟨0x0a010000#32, 16#8, 1#8⟩]
    let ipv6 : List (LpmRouteRule (BitVec 128)) := [⟨0x0120#128, 16#8, 255#8⟩]
    readRoutes (lpmAddRules (lpmParseV4Rule fullInet) zeroIpv4Route
        (fileOf (printRoutes (fun ip => fullInet.ntop4 (bswap32 ip)) ipv4))) = .ok ipv4 ∧
      readRoutes (lpmAddRules (lpmParseV6Rule fullInet) zeroIpv6Route
        (fileOf (printRoutes printIpv6 ipv6))) = .ok ipv6 := by
  intro ipv4 ipv6
  have both := lpmRules_written fullInet (fullInet_lawful.prints length_printQuad_le)
    fullInet_prints6
  exact ⟨both.1.written _ ipv4 (by decide) (by decide) (by decide),
    both.2.written _ ipv6 (by decide) (by decide) (by decide)⟩

end PacketForwarding.L3fwd
