import PacketForwarding.Foundation.Entries
import PacketForwarding.L3fwd.RuleLoaders

/-! # The arrays of the access control rules

`acl_add_rules` works on bytes: an entry starts at the product of its number and the size of
a rule, and both factors have 32 bits. As long as that is enough, the arrays hold the rules
of the lists in `aclAddRules`, one behind the other.
-/

namespace PacketForwarding.L3fwd

open EntryArray (zeros place)

/-! ## The loader -/

/-- How large a rule is, which has room for `struct rte_acl_rule_data`, and what a parser
writes to an entry for its fields. -/
structure AclLayout (φ : Type) where
  ruleSize : BitVec 32
  overlay : φ → Entry → Entry
  data : 12 ≤ ruleSize.toNat

/-- What is written for a rule: its fields, and before them `struct rte_acl_rule_data`. -/
def AclLayout.write {φ : Type} (layout : AclLayout φ) (rule : AclRule φ) (entry : Entry) : Entry :=
  let entry := layout.overlay rule.field entry
  let entry := entry.storeWord 8 rule.userdata
  let entry := entry.storeWord 4 rule.priority
  entry.storeWord 0 rule.categoryMask

/-- Why the loader ends early: the program exits, or a write is behind the array. -/
inductive AclStop
  | rteExit
  | outOfBounds (offset : Nat)
  deriving DecidableEq

/-- The two arrays while they are filled. -/
structure AclArrays where
  routeRules : EntryArray
  aclRules : EntryArray
  totalNum : BitVec 32

section Loader

variable {φ : Type} (mask : BitVec 32) (parser : RuleParser φ) (layout : AclLayout φ)

/-- Whether the next entry is one of those that are allocated. -/
def EntryArray.hasRoom (size num : BitVec 32) (array : EntryArray) : Bool :=
  decide (array.offset size + size.toNat ≤ num.toNat * size.toNat)

/-- One line of the second pass. -/
def AclArrays.addLine (routeNum aclNum : BitVec 32) (load : AclArrays) (buff : Text) :
    Except AclStop AclArrays :=
  if isBypassLine buff then
    .ok load
  -- route entry
  else if leadChar buff = routeLeadChar then
    if EntryArray.hasRoom layout.ruleSize routeNum load.routeRules then
      match parser buff.tail true with
      | none => .error .rteExit
      | some (field, userdata) =>
          -- check the forwarding port number
          if portInMask mask userdata.toNat = false then .error .rteExit
          else
            let next : AclRule φ := {
              field
              categoryMask := -1
              priority := rteAclMaxPriority - load.totalNum
              userdata := userdata + fwdPortShift }
            .ok { load with
              routeRules := load.routeRules.store layout.ruleSize (layout.write next)
              totalNum := load.totalNum + 1 }
    else
      .error (.outOfBounds (load.routeRules.offset layout.ruleSize))
  -- ACL entry
  else if leadChar buff = aclLeadChar then
    if EntryArray.hasRoom layout.ruleSize aclNum load.aclRules then
      match parser buff.tail false with
      | none => .error .rteExit
      | some (field, _) =>
          let next : AclRule φ := {
            field
            categoryMask := -1
            priority := rteAclMaxPriority - load.totalNum
            userdata := aclDenySignature + load.aclRules.cnt }
          .ok { load with
            aclRules := load.aclRules.store layout.ruleSize (layout.write next)
            totalNum := load.totalNum + 1 }
    else
      .error (.outOfBounds (load.aclRules.offset layout.ruleSize))
  -- illegal line
  else
    .error .rteExit

/-- What the loader hands out. -/
structure AclBases where
  routeBase : Nat → BitVec 8
  routeNum : BitVec 32
  aclBase : Nat → BitVec 8
  aclNum : BitVec 32

/-- `acl_add_rules` on the memory it works on. -/
def aclAddRulesInPlace (access : FileAccess) : Except AclStop AclBases :=
  match access.fopen with
  | none => .error .rteExit
  | some file =>
      let lines := readLines file
      let routeNum := BitVec.ofNat 32 (countLead routeLeadChar lines)
      let aclNum := BitVec.ofNat 32 (countLead aclLeadChar lines)
      if routeNum = 0#32 then .error .rteExit
      else if access.fseek = false then .error .rteExit
      else if access.calloc aclNum.toNat = false then .error .rteExit
      else if access.calloc routeNum.toNat = false then .error .rteExit
      else do
        let load ← lines.foldlM (AclArrays.addLine mask parser layout routeNum aclNum)
          ⟨zeros, zeros, 0#32⟩
        return {
          routeBase := load.routeRules.memory
          routeNum := load.routeRules.cnt
          aclBase := load.aclRules.memory
          aclNum := aclNum }

end Loader

/-! ## What a file asks for -/

section Lines

variable {φ : Type} (mask : BitVec 32) (parser : RuleParser φ) (layout : AclLayout φ)

/-- The program exits at this line. -/
def BadAclLine (buff : Text) : Prop :=
  isBypassLine buff = false ∧
    (leadChar buff = routeLeadChar → ∀ field userdata,
      parser buff.tail true = some (field, userdata) → portInMask mask userdata.toNat = false) ∧
    (leadChar buff = aclLeadChar → parser buff.tail false = none)

/-- The lines with rules. -/
def countRules (lines : List Text) : Nat :=
  countLead routeLeadChar lines + countLead aclLeadChar lines

/-- The rule for a route line, given the lines before it. -/
def routeRule (front : List Text) (field : φ) (userdata : BitVec 32) : AclRule φ where
  field := field
  categoryMask := -1
  priority := rteAclMaxPriority - BitVec.ofNat 32 (countRules front)
  userdata := userdata + fwdPortShift

/-- The rule for an ACL line, given the lines before it. -/
def aclRule (front : List Text) (field : φ) : AclRule φ where
  field := field
  categoryMask := -1
  priority := rteAclMaxPriority - BitVec.ofNat 32 (countRules front)
  userdata := aclDenySignature + BitVec.ofNat 32 (countLead aclLeadChar front)

/-- The entry with this number holds the rule. -/
def EntryHolds (base : Nat → BitVec 8) (number : Nat) (rule : AclRule φ) : Prop :=
  ∀ byte, byte < layout.ruleSize.toNat →
    base (number * layout.ruleSize.toNat + byte) = layout.write rule (fun _ => 0#8) byte

/-- Each line of the file has its rule in its place. -/
structure StoresRules (lines : List Text) (routeBase aclBase : Nat → BitVec 8) : Prop where
  routes : ∀ front buff behind, lines = front ++ buff :: behind → leadChar buff = routeLeadChar →
    ∃ field userdata, parser buff.tail true = some (field, userdata) ∧
      EntryHolds layout routeBase (countLead routeLeadChar front) (routeRule front field userdata)
  acls : ∀ front buff behind, lines = front ++ buff :: behind → leadChar buff = aclLeadChar →
    ∃ field userdata, parser buff.tail false = some (field, userdata) ∧
      EntryHolds layout aclBase (countLead aclLeadChar front) (aclRule front field)

/-- No write is out of bounds, and the loader exits exactly on bad files and else has loaded
all rules. -/
structure LoadsAclExactly (lines : List Text) (outcome : Except AclStop AclBases) : Prop where
  inside : ∀ offset, outcome ≠ .error (.outOfBounds offset)
  exits : outcome = .error .rteExit ↔
    countLead routeLeadChar lines = 0 ∨ ∃ buff ∈ lines, BadAclLine mask parser buff
  loaded : ∀ bases, outcome = .ok bases →
    bases.routeNum.toNat = countLead routeLeadChar lines ∧
    bases.aclNum.toNat = countLead aclLeadChar lines ∧
    StoresRules parser layout lines bases.routeBase bases.aclBase

end Lines

/-! ## The lists -/

/-- A list with one more item at its end is cut at the end or before it. -/
theorem snoc_eq_append {α : Type} {items front behind : List α} {last item : α}
    (same : items ++ [last] = front ++ item :: behind) :
    (front = items ∧ item = last) ∨ ∃ behind', items = front ++ item :: behind' := by
  rcases List.eq_nil_or_concat behind with empty | ⟨behind', other, ends⟩
  · subst empty
    have parts := List.append_inj' same rfl
    exact .inl ⟨parts.1.symm, (List.cons.inj parts.2).1.symm⟩
  · subst ends
    rw [List.concat_eq_append, ← List.cons_append, ← List.append_assoc] at same
    exact .inr ⟨behind', (List.append_inj' same rfl).1⟩

section Lists

variable {φ : Type} {mask : BitVec 32} {parser : RuleParser φ}

/-- The lists have the rule of every line, each kind in the order of its lines. -/
structure AclLoad.Indexed (parser : RuleParser φ) (lines : List Text) (load : AclLoad φ) :
    Prop where
  routeCnt : load.routeRules.length = countLead routeLeadChar lines
  aclCnt : load.aclRules.length = countLead aclLeadChar lines
  totalNum : load.totalNum = countRules lines
  routes : ∀ front buff behind, lines = front ++ buff :: behind → leadChar buff = routeLeadChar →
    ∃ field userdata, parser buff.tail true = some (field, userdata) ∧
      load.routeRules[countLead routeLeadChar front]? = some (routeRule front field userdata)
  acls : ∀ front buff behind, lines = front ++ buff :: behind → leadChar buff = aclLeadChar →
    ∃ field userdata, parser buff.tail false = some (field, userdata) ∧
      load.aclRules[countLead aclLeadChar front]? = some (aclRule front field)

namespace AclLoad

theorem indexed_nil : Indexed parser [] (⟨[], [], 0⟩ : AclLoad φ) where
  routeCnt := rfl
  aclCnt := rfl
  totalNum := rfl
  routes := by
    intro front buff behind same
    simp at same
  acls := by
    intro front buff behind same
    simp at same

section Snoc

variable {lines : List Text} {load : AclLoad φ} (indexed : load.Indexed parser lines)
  {buff : Text}

include indexed

theorem Indexed.snoc_route (route : leadChar buff = routeLeadChar) {field : φ}
    {userdata : BitVec 32} (parsed : parser buff.tail true = some (field, userdata)) :
    (load.addRoute field userdata).Indexed parser (lines ++ [buff]) := by
  have notAcl : leadChar buff ≠ aclLeadChar := by
    rw [route]
    decide
  have rule : (load.addRoute field userdata).routeRules =
      load.routeRules ++ [routeRule lines field userdata] := by
    rw [routeRule, ← indexed.totalNum]
    rfl
  refine ⟨?_, ?_, ?_, ?_, ?_⟩
  · rw [rule, List.length_append, indexed.routeCnt, countLead_snoc, if_pos route]
    rfl
  · rw [countLead_snoc, if_neg notAcl]
    exact indexed.aclCnt
  · rw [countRules, countLead_snoc, countLead_snoc, if_pos route, if_neg notAcl]
    exact (congrArg (· + 1) indexed.totalNum).trans (Nat.add_right_comm _ _ _)
  · intro front other behind same isRoute
    rw [rule]
    rcases snoc_eq_append same with ⟨rfl, rfl⟩ | ⟨behind', earlier⟩
    · refine ⟨field, userdata, parsed, ?_⟩
      rw [← indexed.routeCnt]
      exact List.getElem?_concat_length
    · rcases indexed.routes front other behind' earlier isRoute with
        ⟨field, userdata, parsed, found⟩
      refine ⟨field, userdata, parsed, ?_⟩
      rw [List.getElem?_append_left (List.getElem?_eq_some_iff.mp found).1]
      exact found
  · intro front other behind same isAcl
    rcases snoc_eq_append same with ⟨rfl, rfl⟩ | ⟨behind', earlier⟩
    · exact absurd isAcl notAcl
    · exact indexed.acls front other behind' earlier isAcl

theorem Indexed.snoc_acl (acl : leadChar buff = aclLeadChar) {field : φ}
    {userdata : BitVec 32} (parsed : parser buff.tail false = some (field, userdata)) :
    (load.addAcl field).Indexed parser (lines ++ [buff]) := by
  have notRoute : leadChar buff ≠ routeLeadChar := by
    rw [acl]
    decide
  have rule : (load.addAcl field).aclRules = load.aclRules ++ [aclRule lines field] := by
    rw [aclRule, ← indexed.totalNum, ← indexed.aclCnt]
    rfl
  refine ⟨?_, ?_, ?_, ?_, ?_⟩
  · rw [countLead_snoc, if_neg notRoute]
    exact indexed.routeCnt
  · rw [rule, List.length_append, indexed.aclCnt, countLead_snoc, if_pos acl]
    rfl
  · rw [countRules, countLead_snoc, countLead_snoc, if_neg notRoute, if_pos acl]
    exact congrArg (· + 1) indexed.totalNum
  · intro front other behind same isRoute
    rcases snoc_eq_append same with ⟨rfl, rfl⟩ | ⟨behind', earlier⟩
    · exact absurd isRoute notRoute
    · exact indexed.routes front other behind' earlier isRoute
  · intro front other behind same isAcl
    rw [rule]
    rcases snoc_eq_append same with ⟨rfl, rfl⟩ | ⟨behind', earlier⟩
    · refine ⟨field, userdata, parsed, ?_⟩
      rw [← indexed.aclCnt]
      exact List.getElem?_concat_length
    · rcases indexed.acls front other behind' earlier isAcl with ⟨field, userdata, parsed, found⟩
      refine ⟨field, userdata, parsed, ?_⟩
      rw [List.getElem?_append_left (List.getElem?_eq_some_iff.mp found).1]
      exact found

theorem Indexed.snoc_other (notRoute : leadChar buff ≠ routeLeadChar)
    (notAcl : leadChar buff ≠ aclLeadChar) : load.Indexed parser (lines ++ [buff]) := by
  refine ⟨?_, ?_, ?_, ?_, ?_⟩
  · rw [countLead_snoc, if_neg notRoute]
    exact indexed.routeCnt
  · rw [countLead_snoc, if_neg notAcl]
    exact indexed.aclCnt
  · rw [countRules, countLead_snoc, countLead_snoc, if_neg notRoute, if_neg notAcl]
    exact indexed.totalNum
  · intro front other behind same isRoute
    rcases snoc_eq_append same with ⟨rfl, rfl⟩ | ⟨behind', earlier⟩
    · exact absurd isRoute notRoute
    · exact indexed.routes front other behind' earlier isRoute
  · intro front other behind same isAcl
    rcases snoc_eq_append same with ⟨rfl, rfl⟩ | ⟨behind', earlier⟩
    · exact absurd isAcl notAcl
    · exact indexed.acls front other behind' earlier isAcl

end Snoc

variable {buff : Text}

/-- What a line that is not bad adds to the lists, whatever was added before. -/
theorem addLine_good (good : ¬ BadAclLine mask parser buff) (load : AclLoad φ) :
    (leadChar buff = routeLeadChar ∧ ∃ field userdata,
      parser buff.tail true = some (field, userdata) ∧
        load.addLine mask parser buff = some (load.addRoute field userdata)) ∨
    (leadChar buff = aclLeadChar ∧ ∃ field userdata,
      parser buff.tail false = some (field, userdata) ∧
        load.addLine mask parser buff = some (load.addAcl field)) ∨
    (leadChar buff ≠ routeLeadChar ∧ leadChar buff ≠ aclLeadChar ∧
      load.addLine mask parser buff = some load) := by
  have different : aclLeadChar ≠ routeLeadChar := by decide
  by_cases route : leadChar buff = routeLeadChar
  · have notAcl : leadChar buff ≠ aclLeadChar := by
      rw [route]
      exact different.symm
    have bypass := isBypassLine_rule (.inl route)
    obtain ⟨field, userdata, parsed, allowed⟩ : ∃ field userdata,
        parser buff.tail true = some (field, userdata) ∧
          ¬ portInMask mask userdata.toNat = false := by
      by_contra none
      push Not at none
      exact good ⟨bypass, fun _ => none, fun acl => absurd acl notAcl⟩
    refine .inl ⟨route, field, userdata, parsed, ?_⟩
    simp [addLine, bypass, route, parsed, allowed]
  · by_cases acl : leadChar buff = aclLeadChar
    · have bypass := isBypassLine_rule (.inr acl)
      obtain ⟨⟨field, userdata⟩, parsed⟩ : ∃ result, parser buff.tail false = some result := by
        rw [← Option.ne_none_iff_exists']
        exact fun failed => good ⟨bypass, fun isRoute => absurd isRoute route, fun _ => failed⟩
      refine .inr (.inl ⟨acl, field, userdata, parsed, ?_⟩)
      simp [addLine, bypass, different, acl, parsed]
    · have bypass : isBypassLine buff = true := by
        by_contra notBypass
        exact good ⟨Bool.of_not_eq_true notBypass, fun isRoute => absurd isRoute route,
          fun isAcl => absurd isAcl acl⟩
      refine .inr (.inr ⟨route, acl, ?_⟩)
      rw [addLine, if_pos bypass]

theorem addLine_bad (bad : BadAclLine mask parser buff) (load : AclLoad φ) :
    load.addLine mask parser buff = none := by
  rcases bad with ⟨bypass, noRoute, noAcl⟩
  rw [addLine, bypass, if_neg Bool.false_ne_true]
  by_cases route : leadChar buff = routeLeadChar
  · rw [if_pos route]
    cases parsed : parser buff.tail true with
    | none => rfl
    | some result =>
        rcases result with ⟨field, userdata⟩
        exact if_pos (noRoute route field userdata parsed)
  · rw [if_neg route]
    by_cases acl : leadChar buff = aclLeadChar
    · rw [if_pos acl, noAcl acl]
      rfl
    · exact if_neg acl

/-- Without a bad line, the lists have the rule of every line. -/
theorem foldlM_indexed : ∀ lines : List Text, (∀ buff ∈ lines, ¬ BadAclLine mask parser buff) →
    ∃ load, lines.foldlM (addLine mask parser) ⟨[], [], 0⟩ = some load ∧
      load.Indexed parser lines := by
  intro lines
  induction lines using List.reverseRecOn with
  | nil => exact fun _ => ⟨_, rfl, indexed_nil⟩
  | append_singleton lines buff induction =>
      intro good
      rcases List.forall_mem_append.mp good with ⟨front, last⟩
      rcases induction front with ⟨load, ran, indexed⟩
      rw [List.foldlM_append, ran]
      rcases addLine_good (last buff List.mem_cons_self) load with
        ⟨route, field, userdata, parsed, added⟩ | ⟨acl, field, userdata, parsed, added⟩ |
        ⟨notRoute, notAcl, added⟩
      · exact ⟨load.addRoute field userdata, by simp [added], indexed.snoc_route route parsed⟩
      · exact ⟨load.addAcl field, by simp [added], indexed.snoc_acl acl parsed⟩
      · exact ⟨load, by simp [added], indexed.snoc_other notRoute notAcl⟩

theorem foldlM_bad : ∀ (lines : List Text) (load : AclLoad φ),
    (∃ buff ∈ lines, BadAclLine mask parser buff) →
    lines.foldlM (addLine mask parser) load = none := by
  intro lines
  induction lines with
  | nil => exact fun load impossible => absurd impossible (by simp)
  | cons buff lines induction =>
      intro load someBad
      rcases someBad with ⟨other, member, bad⟩
      rw [List.foldlM_cons]
      cases added : load.addLine mask parser buff with
      | none => rfl
      | some next =>
          refine induction next ⟨other, ?_, bad⟩
          rcases List.mem_cons.mp member with same | later
          · subst same
            rw [addLine_bad bad] at added
            cases added
          · exact later

end AclLoad

end Lists

/-! ## The arrays mirror the lists -/

section Mirror

variable {φ : Type} {mask : BitVec 32} {parser : RuleParser φ} {layout : AclLayout φ}
  {routeNum aclNum : BitVec 32}

/-- There is room for so many entries. -/
def EntriesFit (size num : BitVec 32) (count : Nat) : Prop :=
  ∀ number, number < count → place size number + size.toNat ≤ num.toNat * size.toNat

theorem entriesFit_succ {size num : BitVec 32} {count : Nat} (fits : EntriesFit size num count) :
    EntriesFit size num (count + 1) ↔
      place size count + size.toNat ≤ num.toNat * size.toNat := by
  constructor
  · intro all
    exact all count (Nat.lt_succ_self _)
  · intro last number before
    rcases Nat.lt_succ_iff_lt_or_eq.mp before with earlier | same
    · exact fits number earlier
    · rw [same]
      exact last

/-- There is room for the rules of both kinds. -/
def AclRoom (layout : AclLayout φ) (routeNum aclNum : BitVec 32) (lines : List Text) : Prop :=
  EntriesFit layout.ruleSize routeNum (countLead routeLeadChar lines) ∧
    EntriesFit layout.ruleSize aclNum (countLead aclLeadChar lines)

/-- The arrays are filled with the rules of the lists. -/
structure AclArrays.Mirrors (layout : AclLayout φ) (lists : AclLoad φ) (load : AclArrays) :
    Prop where
  routes : load.routeRules.Holds layout.ruleSize (lists.routeRules.map layout.write)
  acls : load.aclRules.Holds layout.ruleSize (lists.aclRules.map layout.write)
  totalNum : load.totalNum = BitVec.ofNat 32 lists.totalNum

/-- The lists are those of the lines, and the arrays mirror them. -/
def AclArrays.Holds (mask : BitVec 32) (parser : RuleParser φ) (layout : AclLayout φ)
    (lines : List Text) (load : AclArrays) : Prop :=
  ∃ lists, lines.foldlM (AclLoad.addLine mask parser) ⟨[], [], 0⟩ = some lists ∧
    lists.Indexed parser lines ∧ load.Mirrors layout lists

/-- The pass goes wrong by a write behind an array. -/
abbrev OutsideAcl (stop : AclStop) : Prop := ∃ offset, stop = .outOfBounds offset

namespace AclArrays

theorem holds_nil : Holds mask parser layout [] ⟨zeros, zeros, 0#32⟩ :=
  ⟨⟨[], [], 0⟩, rfl, AclLoad.indexed_nil, EntryArray.holds_zeros _, EntryArray.holds_zeros _, rfl⟩

theorem Mirrors.addRoute {lists : AclLoad φ} {load : AclArrays} (mirrors : load.Mirrors layout lists)
    (field : φ) (userdata : BitVec 32) :
    Mirrors layout (lists.addRoute field userdata) { load with
      routeRules := load.routeRules.store layout.ruleSize (layout.write {
        field
        categoryMask := -1
        priority := rteAclMaxPriority - load.totalNum
        userdata := userdata + fwdPortShift })
      totalNum := load.totalNum + 1 } where
  routes := by
    rw [mirrors.totalNum]
    have stored := mirrors.routes.store (layout.write {
      field
      categoryMask := -1
      priority := lists.priority
      userdata := userdata + fwdPortShift })
    rw [← List.map_singleton, ← List.map_append] at stored
    exact stored
  acls := mirrors.acls
  totalNum := by
    rw [mirrors.totalNum]
    exact (BitVec.ofNat_add _ 1).symm

theorem Mirrors.addAcl {lists : AclLoad φ} {load : AclArrays} (mirrors : load.Mirrors layout lists)
    (field : φ) :
    Mirrors layout (lists.addAcl field) { load with
      aclRules := load.aclRules.store layout.ruleSize (layout.write {
        field
        categoryMask := -1
        priority := rteAclMaxPriority - load.totalNum
        userdata := aclDenySignature + load.aclRules.cnt })
      totalNum := load.totalNum + 1 } where
  routes := mirrors.routes
  acls := by
    have cnt := mirrors.acls.cnt
    rw [List.length_map] at cnt
    rw [mirrors.totalNum, cnt]
    have stored := mirrors.acls.store (layout.write {
      field
      categoryMask := -1
      priority := lists.priority
      userdata := aclDenySignature + BitVec.ofNat 32 lists.aclRules.length })
    rw [← List.map_singleton, ← List.map_append] at stored
    exact stored
  totalNum := by
    rw [mirrors.totalNum]
    exact (BitVec.ofNat_add _ 1).symm

section Line

variable {lines : List Text} {load : AclArrays} {buff : Text}
  (holds : load.Holds mask parser layout lines) (fits : AclRoom layout routeNum aclNum lines)

include holds fits

/-- A route line is stored, or the program exits, or there is no room for it. -/
theorem addLine_route (route : leadChar buff = routeLeadChar) :
    (AclRoom layout routeNum aclNum (lines ++ [buff]) ∧
      ((∃ next, load.addLine mask parser layout routeNum aclNum buff = .ok next ∧
          ¬ BadAclLine mask parser buff ∧ next.Holds mask parser layout (lines ++ [buff])) ∨
        (load.addLine mask parser layout routeNum aclNum buff = .error .rteExit ∧
          BadAclLine mask parser buff))) ∨
    (¬ AclRoom layout routeNum aclNum (lines ++ [buff]) ∧
      ∃ stop, load.addLine mask parser layout routeNum aclNum buff = .error stop ∧
        OutsideAcl stop) := by
  rcases holds with ⟨lists, ran, indexed, mirrors⟩
  have notAcl : leadChar buff ≠ aclLeadChar := by
    rw [route]
    decide
  have bypass := isBypassLine_rule (.inl route)
  have offset := mirrors.routes.offset
  rw [List.length_map, indexed.routeCnt] at offset
  have roomIff : AclRoom layout routeNum aclNum (lines ++ [buff]) ↔
      place layout.ruleSize (countLead routeLeadChar lines) + layout.ruleSize.toNat ≤
        routeNum.toNat * layout.ruleSize.toNat := by
    rw [AclRoom, countLead_snoc, countLead_snoc, if_pos route, if_neg notAcl,
      entriesFit_succ fits.1]
    exact and_iff_left fits.2
  rw [AclArrays.addLine, bypass, if_neg Bool.false_ne_true, if_pos route, EntryArray.hasRoom, offset]
  by_cases room : place layout.ruleSize (countLead routeLeadChar lines) + layout.ruleSize.toNat ≤
      routeNum.toNat * layout.ruleSize.toNat
  · rw [if_pos (decide_eq_true room)]
    refine .inl ⟨roomIff.mpr room, ?_⟩
    cases parsed : parser buff.tail true with
    | none =>
        refine .inr ⟨rfl, bypass, fun _ field userdata found => ?_, fun acl => absurd acl notAcl⟩
        rw [parsed] at found
        cases found
    | some result =>
        rcases result with ⟨field, userdata⟩
        dsimp only
        by_cases allowed : portInMask mask userdata.toNat = false
        · rw [if_pos allowed]
          refine .inr ⟨rfl, bypass, fun _ other number found => ?_, fun acl => absurd acl notAcl⟩
          rw [parsed] at found
          cases found
          exact allowed
        · rw [if_neg allowed]
          refine .inl ⟨_, rfl, ?_, lists.addRoute field userdata, ?_,
            indexed.snoc_route route parsed, mirrors.addRoute field userdata⟩
          · intro bad
            exact allowed (bad.2.1 route field userdata parsed)
          · rw [List.foldlM_append, ran]
            simp [AclLoad.addLine, bypass, route, parsed, allowed]
  · rw [if_neg fun inside => room (of_decide_eq_true inside)]
    exact .inr ⟨fun all => room (roomIff.mp all), _, rfl, _, rfl⟩

theorem addLine_acl (acl : leadChar buff = aclLeadChar) :
    (AclRoom layout routeNum aclNum (lines ++ [buff]) ∧
      ((∃ next, load.addLine mask parser layout routeNum aclNum buff = .ok next ∧
          ¬ BadAclLine mask parser buff ∧ next.Holds mask parser layout (lines ++ [buff])) ∨
        (load.addLine mask parser layout routeNum aclNum buff = .error .rteExit ∧
          BadAclLine mask parser buff))) ∨
    (¬ AclRoom layout routeNum aclNum (lines ++ [buff]) ∧
      ∃ stop, load.addLine mask parser layout routeNum aclNum buff = .error stop ∧
        OutsideAcl stop) := by
  rcases holds with ⟨lists, ran, indexed, mirrors⟩
  have notRoute : leadChar buff ≠ routeLeadChar := by
    rw [acl]
    decide
  have bypass := isBypassLine_rule (.inr acl)
  have offset := mirrors.acls.offset
  rw [List.length_map, indexed.aclCnt] at offset
  have roomIff : AclRoom layout routeNum aclNum (lines ++ [buff]) ↔
      place layout.ruleSize (countLead aclLeadChar lines) + layout.ruleSize.toNat ≤
        aclNum.toNat * layout.ruleSize.toNat := by
    rw [AclRoom, countLead_snoc, countLead_snoc, if_neg notRoute, if_pos acl,
      entriesFit_succ fits.2]
    exact and_iff_right fits.1
  rw [AclArrays.addLine, bypass, if_neg Bool.false_ne_true, if_neg notRoute, if_pos acl,
    EntryArray.hasRoom, offset]
  by_cases room : place layout.ruleSize (countLead aclLeadChar lines) + layout.ruleSize.toNat ≤
      aclNum.toNat * layout.ruleSize.toNat
  · rw [if_pos (decide_eq_true room)]
    refine .inl ⟨roomIff.mpr room, ?_⟩
    cases parsed : parser buff.tail false with
    | none =>
        exact .inr ⟨rfl, bypass, fun route => absurd route notRoute, fun _ => parsed⟩
    | some result =>
        rcases result with ⟨field, userdata⟩
        refine .inl ⟨_, rfl, ?_, lists.addAcl field, ?_, indexed.snoc_acl acl parsed,
          mirrors.addAcl field⟩
        · intro bad
          have failed := bad.2.2 acl
          rw [parsed] at failed
          cases failed
        · have different : aclLeadChar ≠ routeLeadChar := by decide
          rw [List.foldlM_append, ran]
          simp [AclLoad.addLine, bypass, different, acl, parsed]
  · rw [if_neg fun inside => room (of_decide_eq_true inside)]
    exact .inr ⟨fun all => room (roomIff.mp all), _, rfl, _, rfl⟩

/-- Other lines are bypassed, or the program exits. -/
theorem addLine_other (notRoute : leadChar buff ≠ routeLeadChar)
    (notAcl : leadChar buff ≠ aclLeadChar) :
    AclRoom layout routeNum aclNum (lines ++ [buff]) ∧
      ((∃ next, load.addLine mask parser layout routeNum aclNum buff = .ok next ∧
          ¬ BadAclLine mask parser buff ∧ next.Holds mask parser layout (lines ++ [buff])) ∨
        (load.addLine mask parser layout routeNum aclNum buff = .error .rteExit ∧
          BadAclLine mask parser buff)) := by
  rcases holds with ⟨lists, ran, indexed, mirrors⟩
  refine ⟨?_, ?_⟩
  · rw [AclRoom, countLead_snoc, countLead_snoc, if_neg notRoute, if_neg notAcl]
    exact fits
  · rw [AclArrays.addLine]
    cases bypass : isBypassLine buff with
    | true =>
        refine .inl ⟨load, rfl, ?_, lists, ?_, indexed.snoc_other notRoute notAcl, mirrors⟩
        · intro bad
          rw [bad.1] at bypass
          cases bypass
        · rw [List.foldlM_append, ran]
          simp [AclLoad.addLine, bypass]
    | false =>
        rw [if_neg Bool.false_ne_true, if_neg notRoute, if_neg notAcl]
        exact .inr ⟨rfl, bypass, fun route => absurd route notRoute, fun acl => absurd acl notAcl⟩

theorem addLine_cases :
    (AclRoom layout routeNum aclNum (lines ++ [buff]) ∧
      ((∃ next, load.addLine mask parser layout routeNum aclNum buff = .ok next ∧
          ¬ BadAclLine mask parser buff ∧ next.Holds mask parser layout (lines ++ [buff])) ∨
        (load.addLine mask parser layout routeNum aclNum buff = .error .rteExit ∧
          BadAclLine mask parser buff))) ∨
    (¬ AclRoom layout routeNum aclNum (lines ++ [buff]) ∧
      ∃ stop, load.addLine mask parser layout routeNum aclNum buff = .error stop ∧
        OutsideAcl stop) := by
  by_cases route : leadChar buff = routeLeadChar
  · exact addLine_route holds fits route
  · by_cases acl : leadChar buff = aclLeadChar
    · exact addLine_acl holds fits acl
    · exact .inl (addLine_other holds fits route acl)

end Line

theorem pass (mask : BitVec 32) (parser : RuleParser φ) (layout : AclLayout φ)
    (routeNum aclNum : BitVec 32) :
    Pass (AclArrays.addLine mask parser layout routeNum aclNum) (BadAclLine mask parser)
      (AclRoom layout routeNum aclNum) (Holds mask parser layout) .rteExit OutsideAcl where
  room_front := by
    intro front behind room
    rw [AclRoom, countLead_append, countLead_append] at room
    exact ⟨fun number before => room.1 number (before.trans_le (Nat.le_add_right _ _)),
      fun number before => room.2 number (before.trans_le (Nat.le_add_right _ _))⟩
  good := by
    intro front load buff fits holds good
    rcases addLine_cases holds fits with ⟨room, ⟨next, added, _, kept⟩ | ⟨_, bad⟩⟩ | noRoom
    · exact .inl ⟨room, next, added, kept⟩
    · exact absurd bad good
    · exact .inr noRoom
  bad := by
    intro front load buff fits holds bad
    rcases addLine_cases holds fits with ⟨room, ⟨_, _, good, _⟩ | ⟨exits, _⟩⟩ | noRoom
    · exact absurd bad good
    · exact .inl ⟨room, exits⟩
    · exact .inr noRoom

end AclArrays

end Mirror

/-! ## When all is loaded -/

section Exactly

variable {φ : Type} {mask : BitVec 32} {parser : RuleParser φ} {layout : AclLayout φ}

/-- No entry starts behind 32 bits, or the program exits early enough. -/
def AclFits (mask : BitVec 32) (parser : RuleParser φ) (layout : AclLayout φ)
    (lines : List Text) : Prop :=
  countLead routeLeadChar lines = 0 ∨
    ((∀ buff ∈ lines, ¬ BadAclLine mask parser buff) ∧
      (countLead routeLeadChar lines - 1) * layout.ruleSize.toNat < 2 ^ 32 ∧
      (countLead aclLeadChar lines - 1) * layout.ruleSize.toNat < 2 ^ 32) ∨
    ∃ front buff behind, lines = front ++ buff :: behind ∧
      (∀ other ∈ front, ¬ BadAclLine mask parser other) ∧ BadAclLine mask parser buff ∧
      (countLead routeLeadChar lines % 2 ^ 32 = 0 ∨
        AclRoom layout (BitVec.ofNat 32 (countLead routeLeadChar lines))
          (BitVec.ofNat 32 (countLead aclLeadChar lines)) (front ++ [buff]))

theorem lt_of_entries_small {size : BitVec 32} {count : Nat} (data : 12 ≤ size.toNat)
    (small : (count - 1) * size.toNat < 2 ^ 32) : count < 2 ^ 32 := by
  have part := Nat.mul_le_mul_left (count - 1) data
  omega

theorem entriesFit_of_small {size : BitVec 32} {count : Nat} (data : 12 ≤ size.toNat)
    (small : (count - 1) * size.toNat < 2 ^ 32) :
    EntriesFit size (BitVec.ofNat 32 count) count := by
  intro number before
  have next : (number + 1) * size.toNat ≤ count * size.toNat := Nat.mul_le_mul_right _ before
  rw [Nat.succ_mul] at next
  rw [BitVec.toNat_ofNat, Nat.mod_eq_of_lt (lt_of_entries_small data small)]
  exact (Nat.add_le_add_right (Nat.mod_le _ _) _).trans next

/-- What is written starts with the category mask. -/
theorem write_zero (layout : AclLayout φ) {rule : AclRule φ} (mask : rule.categoryMask = -1)
    (entry : Entry) : layout.write rule entry 0 ≠ 0#8 := by
  have first : layout.write rule entry 0 = (rule.categoryMask >>> 0).setWidth 8 := by
    rw [AclLayout.write, Entry.storeWord, if_pos ⟨Nat.le_refl _, by decide⟩]
  rw [first, mask]
  decide

/-- The line of a kind with this number. -/
theorem exists_numbered {lead : BitVec 8} {number : Nat} : ∀ lines : List Text,
    number < countLead lead lines →
    ∃ front buff behind, lines = front ++ buff :: behind ∧ leadChar buff = lead ∧
      countLead lead front = number := by
  intro lines
  induction lines using List.reverseRecOn with
  | nil =>
      intro before
      cases before
  | append_singleton lines buff induction =>
      intro before
      by_cases earlier : number < countLead lead lines
      · rcases induction earlier with ⟨front, other, behind, rfl, isLead, count⟩
        exact ⟨front, other, behind ++ [buff], by simp, isLead, count⟩
      · rw [countLead_snoc] at before
        by_cases isLead : leadChar buff = lead
        · rw [if_pos isLead] at before
          exact ⟨lines, buff, [], rfl, isLead, by omega⟩
        · rw [if_neg isLead] at before
          exact absurd before earlier

section Stored

variable {lines : List Text} {load : AclArrays} (holds : load.Holds mask parser layout lines)

include holds

/-- If all entries start within 32 bits, every line has its rule in its place. -/
theorem stores_of_small
    (routesSmall : (countLead routeLeadChar lines - 1) * layout.ruleSize.toNat < 2 ^ 32)
    (aclsSmall : (countLead aclLeadChar lines - 1) * layout.ruleSize.toNat < 2 ^ 32) :
    StoresRules parser layout lines load.routeRules.memory load.aclRules.memory := by
  rcases holds with ⟨lists, ran, indexed, mirrors⟩
  have starts : ∀ count, (count - 1) * layout.ruleSize.toNat < 2 ^ 32 → ∀ number, number < count →
      number * layout.ruleSize.toNat < 2 ^ 32 := by
    intro count small number before
    exact (Nat.mul_le_mul_right _ (Nat.le_sub_one_of_lt before)).trans_lt small
  constructor
  · intro front buff behind whole route
    rcases indexed.routes front buff behind whole route with ⟨field, userdata, parsed, found⟩
    refine ⟨field, userdata, parsed, ?_⟩
    refine mirrors.routes.stored ?_ _ _ ?_
    · rw [List.length_map, indexed.routeCnt]
      exact starts _ routesSmall
    · rw [List.getElem?_map, found]
      rfl
  · intro front buff behind whole acl
    rcases indexed.acls front buff behind whole acl with ⟨field, userdata, parsed, found⟩
    refine ⟨field, userdata, parsed, ?_⟩
    refine mirrors.acls.stored ?_ _ _ ?_
    · rw [List.length_map, indexed.aclCnt]
      exact starts _ aclsSmall
    · rw [List.getElem?_map, found]
      rfl

/-- The last entry of an array is written only if it starts within 32 bits. -/
theorem small_of_stores
    (stores : StoresRules parser layout lines load.routeRules.memory load.aclRules.memory) :
    (countLead routeLeadChar lines - 1) * layout.ruleSize.toNat < 2 ^ 32 ∧
      (countLead aclLeadChar lines - 1) * layout.ruleSize.toNat < 2 ^ 32 := by
  rcases holds with ⟨lists, ran, indexed, mirrors⟩
  have data := layout.data
  constructor
  · rcases Nat.eq_zero_or_pos (countLead routeLeadChar lines) with none | some
    · rw [none, Nat.zero_sub, Nat.zero_mul]
      exact Nat.two_pow_pos 32
    · rcases exists_numbered lines (Nat.sub_one_lt_of_lt some) with
        ⟨front, buff, behind, whole, route, count⟩
      rcases stores.routes front buff behind whole route with ⟨field, userdata, _, holds⟩
      by_contra large
      rw [← count] at large
      have clear := mirrors.routes.clear_last
        (by rw [List.length_map, indexed.routeCnt]; omega) (Nat.le_of_not_lt large)
      have written := holds 0 (by omega)
      rw [Nat.add_zero, clear] at written
      exact write_zero layout rfl _ written.symm
  · rcases Nat.eq_zero_or_pos (countLead aclLeadChar lines) with none | some
    · rw [none, Nat.zero_sub, Nat.zero_mul]
      exact Nat.two_pow_pos 32
    · rcases exists_numbered lines (Nat.sub_one_lt_of_lt some) with
        ⟨front, buff, behind, whole, acl, count⟩
      rcases stores.acls front buff behind whole acl with ⟨field, userdata, _, holds⟩
      by_contra large
      rw [← count] at large
      have clear := mirrors.acls.clear_last
        (by rw [List.length_map, indexed.aclCnt]; omega) (Nat.le_of_not_lt large)
      have written := holds 0 (by omega)
      rw [Nat.add_zero, clear] at written
      exact write_zero layout rfl _ written.symm

end Stored

/-- The part of the loader after the file was counted. -/
def AclArrays.finish (mask : BitVec 32) (parser : RuleParser φ) (layout : AclLayout φ)
    (lines : List Text) : Except AclStop AclBases := do
  let load ← lines.foldlM (AclArrays.addLine mask parser layout
    (BitVec.ofNat 32 (countLead routeLeadChar lines))
    (BitVec.ofNat 32 (countLead aclLeadChar lines))) ⟨zeros, zeros, 0#32⟩
  return {
    routeBase := load.routeRules.memory
    routeNum := load.routeRules.cnt
    aclBase := load.aclRules.memory
    aclNum := BitVec.ofNat 32 (countLead aclLeadChar lines) }

theorem loadsAclExactly_exit {lines : List Text} :
    LoadsAclExactly mask parser layout lines (.error .rteExit) ↔
      countLead routeLeadChar lines = 0 ∨ ∃ buff ∈ lines, BadAclLine mask parser buff := by
  constructor
  · intro exactly
    exact exactly.exits.mp rfl
  · intro asked
    exact ⟨fun _ => nofun, iff_of_true rfl asked, fun _ => nofun⟩

theorem aclRoom_nil (routeNum aclNum : BitVec 32) : AclRoom layout routeNum aclNum [] :=
  ⟨fun _ impossible => absurd impossible (Nat.not_lt_zero _),
    fun _ impossible => absurd impossible (Nat.not_lt_zero _)⟩

theorem finish_bad_acl {lines front behind : List Text} {buff : Text}
    (whole : lines = front ++ buff :: behind)
    (good : ∀ other ∈ front, ¬ BadAclLine mask parser other) (bad : BadAclLine mask parser buff) :
    LoadsAclExactly mask parser layout lines (AclArrays.finish mask parser layout lines) ↔
      AclRoom layout (BitVec.ofNat 32 (countLead routeLeadChar lines))
        (BitVec.ofNat 32 (countLead aclLeadChar lines)) (front ++ [buff]) := by
  rw [AclArrays.finish]
  generalize BitVec.ofNat 32 (countLead routeLeadChar lines) = routeNum
  generalize BitVec.ofNat 32 (countLead aclLeadChar lines) = aclNum
  rcases (AclArrays.pass mask parser layout routeNum aclNum).run_bad AclArrays.holds_nil
    (aclRoom_nil _ _) good bad with ⟨room, ran⟩ | ⟨full, _, ran, offset, rfl⟩
  · rw [whole, ran]
    refine iff_of_true (loadsAclExactly_exit.mpr (.inr ⟨buff, ?_, bad⟩)) room
    exact List.mem_append_right _ List.mem_cons_self
  · rw [whole, ran]
    exact iff_of_false (fun exactly => exactly.inside offset rfl) full

theorem finish_good_acl {lines : List Text} (some : 0 < countLead routeLeadChar lines)
    (good : ∀ buff ∈ lines, ¬ BadAclLine mask parser buff) :
    LoadsAclExactly mask parser layout lines (AclArrays.finish mask parser layout lines) ↔
      (countLead routeLeadChar lines - 1) * layout.ruleSize.toNat < 2 ^ 32 ∧
        (countLead aclLeadChar lines - 1) * layout.ruleSize.toNat < 2 ^ 32 := by
  rcases (AclArrays.pass mask parser layout (BitVec.ofNat 32 (countLead routeLeadChar lines))
    (BitVec.ofNat 32 (countLead aclLeadChar lines))).run_good AclArrays.holds_nil (aclRoom_nil _ _)
    lines good with ⟨room, load, ran, holds⟩ | ⟨full, _, ran, offset, rfl⟩
  · rw [AclArrays.finish, ran]
    constructor
    · intro exactly
      exact small_of_stores holds (exactly.loaded _ rfl).2.2
    · rintro ⟨routesSmall, aclsSmall⟩
      refine ⟨fun _ => nofun, iff_of_false nofun ?_, ?_⟩
      · rintro (none | ⟨buff, member, bad⟩)
        · omega
        · exact good buff member bad
      · rintro _ ⟨rfl⟩
        have stores := stores_of_small holds routesSmall aclsSmall
        rcases holds with ⟨lists, _, indexed, mirrors⟩
        refine ⟨?_, ?_, stores⟩
        · change load.routeRules.cnt.toNat = _
          rw [mirrors.routes.cnt, List.length_map, indexed.routeCnt, BitVec.toNat_ofNat,
            Nat.mod_eq_of_lt (lt_of_entries_small layout.data routesSmall)]
        · change (BitVec.ofNat 32 _).toNat = _
          rw [BitVec.toNat_ofNat, Nat.mod_eq_of_lt (lt_of_entries_small layout.data aclsSmall)]
  · rw [AclArrays.finish, ran]
    refine iff_of_false (fun exactly => exactly.inside offset rfl) ?_
    rintro ⟨routesSmall, aclsSmall⟩
    exact full ⟨entriesFit_of_small layout.data routesSmall,
      entriesFit_of_small layout.data aclsSmall⟩

/-- Where the number of routes is not zero as it is stored, the second pass decides. -/
theorem aclAddRulesInPlace_eq {access : FileAccess} {file : Text}
    (opens : access.fopen = some file) (seeks : access.fseek = true)
    (memory : ∀ count, access.calloc count = true) :
    aclAddRulesInPlace mask parser layout access =
      if countLead routeLeadChar (readLines file) % 2 ^ 32 = 0 then .error .rteExit
      else AclArrays.finish mask parser layout (readLines file) := by
  have zeroIff : BitVec.ofNat 32 (countLead routeLeadChar (readLines file)) = 0#32 ↔
      countLead routeLeadChar (readLines file) % 2 ^ 32 = 0 := by
    rw [← BitVec.toNat_inj, BitVec.toNat_ofNat]
    rfl
  rw [aclAddRulesInPlace, opens]
  dsimp only
  rw [seeks, memory, memory]
  by_cases wrapped : countLead routeLeadChar (readLines file) % 2 ^ 32 = 0
  · rw [if_pos (zeroIff.mpr wrapped), if_pos wrapped]
  · rw [if_neg fun isZero => wrapped (zeroIff.mp isZero), if_neg wrapped]
    rfl

/-- Without a bad line, only the sizes of the arrays matter. -/
theorem aclFits_of_good {lines : List Text} (some : countLead routeLeadChar lines ≠ 0)
    (good : ∀ buff ∈ lines, ¬ BadAclLine mask parser buff) :
    AclFits mask parser layout lines ↔
      (countLead routeLeadChar lines - 1) * layout.ruleSize.toNat < 2 ^ 32 ∧
        (countLead aclLeadChar lines - 1) * layout.ruleSize.toNat < 2 ^ 32 := by
  constructor
  · rintro (zero | ⟨_, small⟩ | ⟨front, buff, behind, whole, _, bad, _⟩)
    · exact absurd zero some
    · exact small
    · refine absurd bad (good buff ?_)
      rw [whole]
      exact List.mem_append_right _ List.mem_cons_self
  · intro small
    exact .inr (.inl ⟨good, small⟩)

/-- What `acl_add_rules` does to a file that opens, if there is memory. -/
theorem aclAddRulesInPlace_exactly_iff {access : FileAccess} {file : Text}
    (opens : access.fopen = some file) (seeks : access.fseek = true)
    (memory : ∀ count, access.calloc count = true) :
    LoadsAclExactly mask parser layout (readLines file)
        (aclAddRulesInPlace mask parser layout access) ↔
      AclFits mask parser layout (readLines file) := by
  rw [aclAddRulesInPlace_eq opens seeks memory]
  generalize readLines file = lines
  by_cases none : countLead routeLeadChar lines = 0
  · rw [if_pos (by rw [none]; rfl), loadsAclExactly_exit]
    exact iff_of_true (.inl none) (.inl none)
  · by_cases someBad : ∃ buff ∈ lines, BadAclLine mask parser buff
    · rcases exists_first lines someBad with ⟨front, buff, behind, whole, good, bad⟩
      by_cases wrapped : countLead routeLeadChar lines % 2 ^ 32 = 0
      · rw [if_pos wrapped, loadsAclExactly_exit]
        exact iff_of_true (.inr someBad)
          (.inr (.inr ⟨front, buff, behind, whole, good, bad, .inl wrapped⟩))
      · rw [if_neg wrapped, finish_bad_acl whole good bad]
        constructor
        · intro room
          exact .inr (.inr ⟨front, buff, behind, whole, good, bad, .inr room⟩)
        · rintro (zero | ⟨allGood, _⟩ | ⟨front', buff', behind', whole', _, bad', zeroOrRoom⟩)
          · exact absurd zero none
          · rcases someBad with ⟨other, member, isBad⟩
            exact absurd isBad (allGood other member)
          · rcases find_split (whole.symm.trans whole') good bad' with ⟨more, ends⟩
            rcases zeroOrRoom with zero | room
            · exact absurd zero wrapped
            · rw [← ends] at room
              exact (AclArrays.pass mask parser layout _ _).room_front _ _ room
    · have good : ∀ buff ∈ lines, ¬ BadAclLine mask parser buff := fun buff member bad =>
        someBad ⟨buff, member, bad⟩
      rw [aclFits_of_good none good]
      by_cases wrapped : countLead routeLeadChar lines % 2 ^ 32 = 0
      · rw [if_pos wrapped, loadsAclExactly_exit]
        refine iff_of_false (not_or.mpr ⟨none, someBad⟩) ?_
        rintro ⟨small, _⟩
        have few := lt_of_entries_small layout.data small
        omega
      · rw [if_neg wrapped]
        exact finish_good_acl (Nat.pos_of_ne_zero none) good

end Exactly

/-! ## The arrays and the lists of a file -/

section Simulation

variable {φ : Type} {mask : BitVec 32} {parser : RuleParser φ} {layout : AclLayout φ}

/-- The arrays have as many entries as the lists, and the entries hold the rules. -/
structure AclBases.Stores (layout : AclLayout φ) (bases : AclBases) (rules : AclRules φ) :
    Prop where
  routeNum : bases.routeNum.toNat = rules.routeNum
  routes : ∀ number rule, rules.routeBase[number]? = some rule →
    EntryHolds layout bases.routeBase number rule
  aclNum : bases.aclNum.toNat = rules.aclNum
  acls : ∀ number rule, rules.aclBase[number]? = some rule →
    EntryHolds layout bases.aclBase number rule

/-- The program exits with the lists too, or the arrays store what the lists have. -/
inductive SimulatesAcl (layout : AclLayout φ) :
    Except AclStop AclBases → Option (AclRules φ) → Prop
  | exits : SimulatesAcl layout (.error .rteExit) none
  | loaded {bases : AclBases} {rules : AclRules φ} (stores : bases.Stores layout rules) :
      SimulatesAcl layout (.ok bases) (some rules)

theorem aclAddRules_exits {file : Text}
    (asked : countLead routeLeadChar (readLines file) = 0 ∨
      ∃ buff ∈ readLines file, BadAclLine mask parser buff) :
    aclAddRules mask parser file = none := by
  rw [aclAddRules]
  by_cases none : countLead routeLeadChar (readLines file) = 0
  · exact if_pos none
  · rw [if_neg none, AclLoad.foldlM_bad _ _ (asked.resolve_left none)]
    rfl

theorem aclAddRules_indexed {file : Text} (some : countLead routeLeadChar (readLines file) ≠ 0)
    (good : ∀ buff ∈ readLines file, ¬ BadAclLine mask parser buff) :
    ∃ load : AclLoad φ, load.Indexed parser (readLines file) ∧
      aclAddRules mask parser file =
        .some ⟨load.routeRules, load.routeRules.length, load.aclRules, load.aclRules.length⟩ := by
  rcases AclLoad.foldlM_indexed (readLines file) good with ⟨load, ran, indexed⟩
  refine ⟨load, indexed, ?_⟩
  rw [aclAddRules, if_neg some, ran, indexed.aclCnt]
  rfl

theorem storesRules_iff {lines : List Text} {load : AclLoad φ} (indexed : load.Indexed parser lines)
    (routeBase aclBase : Nat → BitVec 8) :
    StoresRules parser layout lines routeBase aclBase ↔
      (∀ number rule, load.routeRules[number]? = some rule →
        EntryHolds layout routeBase number rule) ∧
      ∀ number rule, load.aclRules[number]? = some rule →
        EntryHolds layout aclBase number rule := by
  constructor
  · intro stores
    constructor
    · intro number rule found
      have before := (List.getElem?_eq_some_iff.mp found).1
      rw [indexed.routeCnt] at before
      rcases exists_numbered lines before with ⟨front, buff, behind, whole, route, rfl⟩
      rcases indexed.routes front buff behind whole route with ⟨field, userdata, parsed, has⟩
      rcases stores.routes front buff behind whole route with ⟨_, _, parsed', holds⟩
      cases parsed.symm.trans parsed'
      cases found.symm.trans has
      exact holds
    · intro number rule found
      have before := (List.getElem?_eq_some_iff.mp found).1
      rw [indexed.aclCnt] at before
      rcases exists_numbered lines before with ⟨front, buff, behind, whole, acl, rfl⟩
      rcases indexed.acls front buff behind whole acl with ⟨field, userdata, parsed, has⟩
      rcases stores.acls front buff behind whole acl with ⟨_, _, parsed', holds⟩
      cases parsed.symm.trans parsed'
      cases found.symm.trans has
      exact holds
  · intro both
    rcases both with ⟨routes, acls⟩
    constructor
    · intro front buff behind whole route
      rcases indexed.routes front buff behind whole route with ⟨field, userdata, parsed, found⟩
      exact ⟨field, userdata, parsed, routes _ _ found⟩
    · intro front buff behind whole acl
      rcases indexed.acls front buff behind whole acl with ⟨field, userdata, parsed, found⟩
      exact ⟨field, userdata, parsed, acls _ _ found⟩

/-- To load a file exactly is to store what the lists have. -/
theorem loadsAclExactly_iff_simulates {file : Text} {outcome : Except AclStop AclBases} :
    LoadsAclExactly mask parser layout (readLines file) outcome ↔
      SimulatesAcl layout outcome (aclAddRules mask parser file) := by
  by_cases asked : countLead routeLeadChar (readLines file) = 0 ∨
      ∃ buff ∈ readLines file, BadAclLine mask parser buff
  · rw [aclAddRules_exits asked]
    constructor
    · intro exactly
      rw [exactly.exits.mpr asked]
      exact .exits
    · intro simulates
      cases simulates
      exact loadsAclExactly_exit.mpr asked
  · rcases not_or.mp asked with ⟨some, noneBad⟩
    rcases aclAddRules_indexed some fun buff member bad => noneBad ⟨buff, member, bad⟩ with
      ⟨load, indexed, accepted⟩
    rw [accepted]
    constructor
    · intro exactly
      cases outcome with
      | error stop =>
          cases stop with
          | rteExit => exact absurd (exactly.exits.mp rfl) asked
          | outOfBounds offset => exact absurd rfl (exactly.inside offset)
      | ok bases =>
          rcases exactly.loaded bases rfl with ⟨routeNum, aclNum, stores⟩
          rcases (storesRules_iff indexed _ _).mp stores with ⟨routes, acls⟩
          exact .loaded ⟨routeNum.trans indexed.routeCnt.symm, routes,
            aclNum.trans indexed.aclCnt.symm, acls⟩
    · intro simulates
      cases simulates with
      | loaded stores =>
          refine ⟨fun _ => nofun, iff_of_false nofun asked, ?_⟩
          intro bases same
          cases same
          exact ⟨stores.routeNum.trans indexed.routeCnt, stores.aclNum.trans indexed.aclCnt,
            (storesRules_iff indexed _ _).mpr ⟨stores.routes, stores.acls⟩⟩

/-- The loader on memory does what it does with lists if and only if the file fits. -/
theorem aclAddRulesInPlace_simulates_iff {access : FileAccess} {file : Text}
    (opens : access.fopen = some file) (seeks : access.fseek = true)
    (memory : ∀ count, access.calloc count = true) :
    SimulatesAcl layout (aclAddRulesInPlace mask parser layout access)
        (aclAddRules mask parser file) ↔
      AclFits mask parser layout (readLines file) :=
  loadsAclExactly_iff_simulates.symm.trans (aclAddRulesInPlace_exactly_iff opens seeks memory)

end Simulation

end PacketForwarding.L3fwd
