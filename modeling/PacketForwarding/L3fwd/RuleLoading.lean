import PacketForwarding.L3fwd.AclLoader
import PacketForwarding.L3fwd.AclParse

/-! # The loaders of rules on large files

All three loaders count with 32 bits. A file with half as many routes as there are numbers
makes the loaders of routes return a negative number, and one with far fewer rules makes the
loader of the access control rules write over what it wrote.
-/

namespace PacketForwarding.L3fwd

open CString

/-- The file opens and memory is available. -/
structure FileAccess.Available (access : FileAccess) (file : Text) : Prop where
  opens : access.fopen = some file
  seeks : access.fseek = true
  memory : ∀ count, access.calloc count = true

/-- The loaders load a file exactly if the file has not too many rules. -/
theorem loaders_exactly_iff (access : FileAccess) (file : Text) (available : access.Available file) :
    (∀ (ρ : Type) (parser : Text → ρ → Int × ρ) (zero : ρ),
      LoadsExactly parser zero (readLines file) (lpmAddRules parser zero access) ↔
        RoutesFit parser zero (readLines file)) ∧
    (∀ (ρ : Type) (parser : Text → ρ → Int × ρ) (zero : ρ),
      LoadsExactly parser zero (readLines file) (emAddRules parser zero access) ↔
        RoutesFit parser zero (readLines file)) ∧
    ∀ (φ : Type) (mask : BitVec 32) (parser : RuleParser φ) (layout : AclLayout φ),
      LoadsAclExactly mask parser layout (readLines file)
          (aclAddRulesInPlace mask parser layout access) ↔
        AclFits mask parser layout (readLines file) :=
  ⟨fun _ _ _ => addRules_exactly_iff available.opens available.seeks available.memory,
    fun _ _ _ => addRules_exactly_iff available.opens available.seeks available.memory,
    fun _ _ _ _ => aclAddRulesInPlace_exactly_iff available.opens available.seeks available.memory⟩

/-! ## The layout of IPv4 rules -/

/-- Store a value to the first or the second part of a `struct rte_acl_field`. -/
def Entry.storeField {width : Nat} (field part : Nat) (value : BitVec width) (entry : Entry) : Entry :=
  fun byte =>
    let offset := 16 + 16 * field + 8 * part
    if offset ≤ byte ∧ byte < offset + width / 8 then (value >>> (8 * (byte - offset))).setWidth 8
    else entry byte

/-- `struct acl4_rule` -/
def acl4Layout : AclLayout (CbRule Ipv4Net) where
  ruleSize := 96#32
  overlay := fun rule entry =>
    let entry := Entry.storeField 1 0 rule.src.value entry
    let entry := Entry.storeField 1 1 rule.src.maskRange entry
    let entry := Entry.storeField 2 0 rule.dst.value entry
    let entry := Entry.storeField 2 1 rule.dst.maskRange entry
    let entry := Entry.storeField 3 0 rule.srcPortLow entry
    let entry := Entry.storeField 3 1 rule.srcPortHigh entry
    let entry := Entry.storeField 4 0 rule.dstPortLow entry
    let entry := Entry.storeField 4 1 rule.dstPortHigh entry
    let entry := Entry.storeField 0 0 rule.proto entry
    Entry.storeField 0 1 rule.protoMask entry
  data := by decide

/-! ## Files of one line -/

/-- A route in a file of routes, and one in a file of access control rules. -/
def emRouteLine : Text := ascii "R1.2.3.4 5.6.7.8 10 20 17 1\n"

def aclRouteLine : Text := ascii "R0.0.0.0/0 0.0.0.0/0 0 : 65535 0 : 65535 0x00/0x00 0\n"

/-- A file with the same line so many times. -/
def repeated (count : Nat) (line : Text) : Text :=
  (List.replicate count line).flatten

theorem readLines_repeated {line : Text} (isLine : IsLine line) (count : Nat) :
    readLines (repeated count line) = List.replicate count line :=
  readLines_lines fun _ member => List.eq_of_mem_replicate member ▸ isLine

theorem countLead_replicate (lead : BitVec 8) (line : Text) (count : Nat) :
    countLead lead (List.replicate count line) = if leadChar line = lead then count else 0 := by
  rw [countLead, List.countP_replicate]
  simp only [decide_eq_true_eq]

theorem isLine_emRouteLine : IsLine emRouteLine :=
  ⟨⟨ascii "R1.2.3.4 5.6.7.8 10 20 17 1", by decide, by decide⟩, by decide⟩

theorem isLine_aclRouteLine : IsLine aclRouteLine :=
  ⟨⟨ascii "R0.0.0.0/0 0.0.0.0/0 0 : 65535 0 : 65535 0x00/0x00 0", by decide, by decide⟩, by decide⟩

theorem emRouteLine_good : ¬ BadLine (emParseV4Rule quadInet) zeroV4Rule emRouteLine := by
  rintro ⟨_, notRoute | failed⟩
  · exact notRoute (by decide)
  · exact failed rfl

theorem aclRouteLine_good : ¬ BadAclLine 1#32 (parseCbIpv4vlanRule quadInet) aclRouteLine := by
  have parsed : (parseCbIpv4vlanRule quadInet aclRouteLine.tail true).map Prod.snd = some 0#32 := rfl
  rintro ⟨_, illegal, _⟩
  rcases Option.map_eq_some_iff.mp parsed with ⟨⟨rule, userdata⟩, found, zero⟩
  have noPort := illegal (by decide) rule userdata found
  cases zero
  exact absurd noPort (by decide)

theorem emFits_repeated (count : Nat) :
    RoutesFit (emParseV4Rule quadInet) zeroV4Rule (readLines (repeated count emRouteLine)) ↔
      count < 2 ^ 31 := by
  rw [readLines_repeated isLine_emRouteLine, RoutesFit, countLead_replicate,
    if_pos (by decide : leadChar emRouteLine = routeLeadChar)]
  refine or_iff_left ?_
  rintro ⟨front, buff, behind, whole, bad, _⟩
  have member : buff ∈ List.replicate count emRouteLine := by
    rw [whole]
    exact List.mem_append_right _ List.mem_cons_self
  rw [List.eq_of_mem_replicate member] at bad
  exact emRouteLine_good bad

theorem aclFits_repeated (count : Nat) :
    AclFits 1#32 (parseCbIpv4vlanRule quadInet) acl4Layout
        (readLines (repeated count aclRouteLine)) ↔
      (count - 1) * 96 < 2 ^ 32 := by
  have good : ∀ buff ∈ List.replicate count aclRouteLine,
      ¬ BadAclLine 1#32 (parseCbIpv4vlanRule quadInet) buff := by
    intro buff member
    rw [List.eq_of_mem_replicate member]
    exact aclRouteLine_good
  rw [readLines_repeated isLine_aclRouteLine, AclFits, countLead_replicate, countLead_replicate,
    if_pos (by decide : leadChar aclRouteLine = routeLeadChar),
    if_neg (by decide : leadChar aclRouteLine ≠ aclLeadChar)]
  constructor
  · rintro (none | ⟨_, small, _⟩ | ⟨front, buff, behind, whole, _, bad, _⟩)
    · rw [none]
      decide
    · exact small
    · refine absurd bad (good buff ?_)
      rw [whole]
      exact List.mem_append_right _ List.mem_cons_self
  · intro small
    exact .inr (.inl ⟨good, small, by decide⟩)

/-- Files of few lines are loaded. -/
theorem loaders_exactly_small :
    LoadsExactly (emParseV4Rule quadInet) zeroV4Rule (readLines (repeated 2 emRouteLine))
      (emAddRules (emParseV4Rule quadInet) zeroV4Rule (fileOf (repeated 2 emRouteLine))) ∧
    LoadsAclExactly 1#32 (parseCbIpv4vlanRule quadInet) acl4Layout
      (readLines (repeated 2 aclRouteLine))
      (aclAddRulesInPlace 1#32 (parseCbIpv4vlanRule quadInet) acl4Layout
        (fileOf (repeated 2 aclRouteLine))) :=
  ⟨((loaders_exactly_iff _ _ ⟨rfl, rfl, fun _ => rfl⟩).2.1 _ _ _).mpr
      ((emFits_repeated 2).mpr (by decide)),
    ((loaders_exactly_iff _ _ ⟨rfl, rfl, fun _ => rfl⟩).2.2 _ _ _ _).mpr
      ((aclFits_repeated 2).mpr (by decide))⟩

/-- Each line of these files is accepted. -/
theorem loaders_large :
    ¬ LoadsExactly (emParseV4Rule quadInet) zeroV4Rule (readLines (repeated 2147483648 emRouteLine))
      (emAddRules (emParseV4Rule quadInet) zeroV4Rule
        (fileOf (repeated 2147483648 emRouteLine))) ∧
    ¬ LoadsAclExactly 1#32 (parseCbIpv4vlanRule quadInet) acl4Layout
      (readLines (repeated 44739244 aclRouteLine))
      (aclAddRulesInPlace 1#32 (parseCbIpv4vlanRule quadInet) acl4Layout
        (fileOf (repeated 44739244 aclRouteLine))) := by
  constructor
  · intro exactly
    have fits := (addRules_exactly_iff rfl rfl fun _ => rfl).mp exactly
    exact absurd ((emFits_repeated _).mp fits) (by decide)
  · intro exactly
    have fits := (aclAddRulesInPlace_exactly_iff rfl rfl fun _ => rfl).mp exactly
    exact absurd ((aclFits_repeated _).mp fits) (by decide)

end PacketForwarding.L3fwd
