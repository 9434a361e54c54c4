import PacketForwarding.L3fwd.Acl
import PacketForwarding.L3fwd.PollSetup
import PacketForwarding.L3fwd.RuleFile

/-! # Access control rules from a file

Routes and denials stand in one file in any order. They are stored in two arrays, with
priorities from one counter, and added to a context of the ACL library one array after
the other. What a packet meets is the first line that matches it. `rte_exit` ends the
program and is `none`.
-/

namespace PacketForwarding.L3fwd

/-! ## Rules -/

/-- `struct rte_acl_rule` and the fields that follow it. -/
structure AclRule (φ : Type) where
  field : φ
  categoryMask : BitVec 32
  priority : BitVec 32
  userdata : BitVec 32
  deriving DecidableEq, Inhabited

def rteAclMaxPriority : BitVec 32 := 0x1fffffff#32

def maxAclRuleNum : Nat := 100000

/-- A parser of rule lines, which fills in the fields and, for a route, the user data. -/
abbrev RuleParser (φ : Type) := Text → Bool → Option (φ × BitVec 32)

/-- The arrays while they are filled. Their lengths are `route_cnt` and `acl_cnt`. -/
structure AclLoad (φ : Type) where
  routeRules : List (AclRule φ)
  aclRules : List (AclRule φ)
  totalNum : Nat

namespace AclLoad

variable {φ : Type}

def priority (load : AclLoad φ) : BitVec 32 :=
  rteAclMaxPriority - BitVec.ofNat 32 load.totalNum

def addRoute (load : AclLoad φ) (field : φ) (userdata : BitVec 32) : AclLoad φ :=
  let next : AclRule φ :=
    { field, categoryMask := -1, priority := load.priority, userdata := userdata + fwdPortShift }
  { load with routeRules := load.routeRules ++ [next], totalNum := load.totalNum + 1 }

def addAcl (load : AclLoad φ) (field : φ) : AclLoad φ :=
  let aclCnt := BitVec.ofNat 32 load.aclRules.length
  let next : AclRule φ :=
    { field, categoryMask := -1, priority := load.priority, userdata := aclDenySignature + aclCnt }
  { load with aclRules := load.aclRules ++ [next], totalNum := load.totalNum + 1 }

/-- One line of the second pass. -/
def addLine (mask : BitVec 32) (parser : RuleParser φ) (load : AclLoad φ) (buff : Text) :
    Option (AclLoad φ) :=
  if isBypassLine buff then
    some load
  -- route entry
  else if leadChar buff = routeLeadChar then do
    let (field, userdata) ← parser buff.tail true
    -- check the forwarding port number
    if portInMask mask userdata.toNat = false then none
    else some (load.addRoute field userdata)
  -- ACL entry
  else if leadChar buff = aclLeadChar then do
    let (field, _) ← parser buff.tail false
    some (load.addAcl field)
  -- illegal line
  else
    none

end AclLoad

/-- What `acl_add_rules` returns. -/
structure AclRules (φ : Type) where
  routeBase : List (AclRule φ)
  routeNum : Nat
  aclBase : List (AclRule φ)
  aclNum : Nat

/-- The lines that start with a character. -/
def countLead (lead : BitVec 8) (lines : List Text) : Nat :=
  lines.countP fun buff => leadChar buff = lead

/-- `acl_add_rules` with lists for its arrays. `SimulatesAcl` is how the memory relates to them,
and it does so for the files that fit. -/
def aclAddRules {φ : Type} (mask : BitVec 32) (parser : RuleParser φ) (file : Text) :
    Option (AclRules φ) := do
  let lines := readLines file
  let aclNum := countLead aclLeadChar lines
  let routeNum := countLead routeLeadChar lines
  if routeNum = 0 then none
  else
    let load ← lines.foldlM (AclLoad.addLine mask parser) ⟨[], [], 0⟩
    return {
      routeBase := load.routeRules
      routeNum := load.routeRules.length
      aclBase := load.aclRules
      aclNum := aclNum }

/-! ## Contexts of the library -/

/-- What the program uses of the ACL library: for each call that may end the program
whether it succeeds, and what a context with some rules does once it is built. -/
structure RteAcl (φ : Type) where
  create : Nat → Bool
  setCtxClassify : Bool
  addRules : Nat → List (AclRule φ) → List (AclRule φ) → Bool
  build : List (AclRule φ) → Bool
  fieldsMatch : φ → (Nat → BitVec 8) → Bool
  classify : List (AclRule φ) → (Nat → BitVec 8) → BitVec 32

/-- What the library promises: a context holds no more rules than it was created for,
and the result is that of the matching rule with the highest priority. -/
structure RteAcl.Lawful {φ : Type} (lib : RteAcl φ) : Prop where
  capacity : ∀ size held rules, lib.addRules size held rules = true →
    (held ++ rules).length ≤ size
  highest : ∀ rules data rule, rule ∈ rules → lib.fieldsMatch rule.field data = true →
    (∀ other ∈ rules, lib.fieldsMatch other.field data = true → other ≠ rule →
      other.priority.toInt < rule.priority.toInt) →
    lib.classify rules data = rule.userdata
  miss : ∀ rules data, (∀ rule ∈ rules, lib.fieldsMatch rule.field data = false) →
    lib.classify rules data = 0#32

/-- The rule that is found. -/
def highestRule {φ : Type} (rules : List (AclRule φ)) : Option (AclRule φ) :=
  @List.argmax _ _ Int.instLinearOrder.toPreorder _ (fun rule => rule.priority.toInt) rules

/-- A library that looks at all rules. -/
def priorityAcl {φ : Type} (fieldsMatch : φ → (Nat → BitVec 8) → Bool) : RteAcl φ where
  create := fun _ => true
  setCtxClassify := true
  addRules := fun size held rules => decide ((held ++ rules).length ≤ size)
  build := fun _ => true
  fieldsMatch := fieldsMatch
  classify := fun rules data =>
    match highestRule (rules.filter fun rule => fieldsMatch rule.field data) with
    | some rule => rule.userdata
    | none => 0#32

theorem priorityAcl_lawful {φ : Type} (fieldsMatch : φ → (Nat → BitVec 8) → Bool) :
    (priorityAcl fieldsMatch).Lawful where
  capacity := by
    intro size held rules added
    exact of_decide_eq_true added
  highest := by
    intro rules data rule member hit best
    have matching : rule ∈ rules.filter fun rule => fieldsMatch rule.field data :=
      List.mem_filter.mpr ⟨member, hit⟩
    simp only [priorityAcl]
    cases chosen : highestRule (rules.filter fun rule => fieldsMatch rule.field data) with
    | none =>
        rw [List.argmax_eq_none.mp chosen] at matching
        cases matching
    | some other =>
        have found := List.mem_filter.mp (List.argmax_mem chosen)
        have highest := List.le_of_mem_argmax matching chosen
        by_cases same : other = rule
        · rw [same]
        · exact absurd (best other found.1 found.2 same) (Int.not_lt.mpr highest)
  miss := by
    intro rules data missed
    have none : (rules.filter fun rule => fieldsMatch rule.field data) = [] := by
      apply List.filter_eq_nil_iff.mpr
      intro rule member
      exact Bool.not_eq_true _ ▸ missed rule member
    simp only [priorityAcl, none]
    rfl

/-- The first `num` entries of an array whose other entries are zero. -/
def aclEntries {φ : Type} [Inhabited φ] (base : List (AclRule φ)) (num : Nat) :
    List (AclRule φ) :=
  (List.range num).map fun i => base.getD i default

/-- The rules of the context that is built. -/
def appAclInit {φ : Type} [Inhabited φ] (lib : RteAcl φ) (rules : AclRules φ) :
    Option (List (AclRule φ)) := do
  guard (lib.create maxAclRuleNum)
  guard lib.setCtxClassify
  let routes := aclEntries rules.routeBase rules.routeNum
  guard (lib.addRules maxAclRuleNum [] routes)
  let acls := aclEntries rules.aclBase rules.aclNum
  guard (lib.addRules maxAclRuleNum routes acls)
  guard (lib.build (routes ++ acls))
  return routes ++ acls

theorem aclEntries_length {φ : Type} [Inhabited φ] (base : List (AclRule φ)) :
    aclEntries base base.length = base := by
  apply List.ext_getElem
  · simp [aclEntries]
  · intro i _ inside
    simp [aclEntries, inside]

/-! ## The rules a file stands for -/

/-- What a line does to the packets it matches. -/
inductive AclTarget
  | forward (fwd : BitVec 32)
  | deny
  deriving DecidableEq

/-- A rule line of a file. -/
structure AclLine (φ : Type) where
  field : φ
  target : AclTarget
  deriving DecidableEq

/-- The rule on a line, if it is a rule line. -/
def aclLine {φ : Type} (parser : RuleParser φ) (buff : Text) : Option (AclLine φ) :=
  if leadChar buff = routeLeadChar then
    (parser buff.tail true).map fun parsed => ⟨parsed.1, .forward parsed.2⟩
  else if leadChar buff = aclLeadChar then
    (parser buff.tail false).map fun parsed => ⟨parsed.1, .deny⟩
  else
    none

/-- The rule lines of a file in file order. -/
def aclLines {φ : Type} (parser : RuleParser φ) (lines : List Text) : List (AclLine φ) :=
  lines.filterMap (aclLine parser)

/-- The rule that is stored for a line, given the lines before it. -/
def storedRule {φ : Type} (before : List (AclLine φ)) (line : AclLine φ) : AclRule φ where
  field := line.field
  categoryMask := -1
  priority := rteAclMaxPriority - BitVec.ofNat 32 before.length
  userdata :=
    match line.target with
    | .forward fwd => fwd + fwdPortShift
    | .deny =>
        aclDenySignature + BitVec.ofNat 32 (before.countP fun line => line.target = .deny)

/-- The rule is stored for one of the lines. -/
def StoredFor {φ : Type} (lines : List (AclLine φ)) (rule : AclRule φ) : Prop :=
  ∃ i line, lines[i]? = some line ∧ rule = storedRule (lines.take i) line

theorem storedFor_snoc {φ : Type} (lines : List (AclLine φ)) (line : AclLine φ)
    (rule : AclRule φ) :
    StoredFor (lines ++ [line]) rule ↔ StoredFor lines rule ∨ rule = storedRule lines line := by
  constructor
  · rintro ⟨i, other, found, stored⟩
    rcases Nat.lt_or_ge i lines.length with earlier | last
    · rw [List.getElem?_append_left earlier] at found
      rw [List.take_append_of_le_length (Nat.le_of_lt earlier)] at stored
      exact Or.inl ⟨i, other, found, stored⟩
    · rw [List.getElem?_append_right last] at found
      have isLast : i = lines.length := by
        have inside := (List.getElem?_eq_some_iff.mp found).1
        rw [List.length_singleton] at inside
        omega
      subst isLast
      rw [Nat.sub_self] at found
      cases found
      rw [List.take_left] at stored
      exact Or.inr stored
  · rintro (⟨i, other, found, stored⟩ | stored)
    · have earlier := (List.getElem?_eq_some_iff.mp found).1
      refine ⟨i, other, ?_, ?_⟩
      · rw [List.getElem?_append_left earlier, found]
      · rw [List.take_append_of_le_length (Nat.le_of_lt earlier), stored]
    · refine ⟨lines.length, line, List.getElem?_concat_length, ?_⟩
      rw [List.take_left, stored]

/-- The two arrays hold what the lines stand for. -/
structure Loaded {φ : Type} (mask : BitVec 32) (lines : List (AclLine φ))
    (load : AclLoad φ) : Prop where
  totalNum : load.totalNum = lines.length
  whole : load.routeRules.length + load.aclRules.length = lines.length
  aclCnt : load.aclRules.length = lines.countP fun line => line.target = .deny
  stored : ∀ rule, rule ∈ load.routeRules ++ load.aclRules ↔ StoredFor lines rule
  routes : ∀ rule ∈ load.routeRules, ∃ line ∈ lines, ∃ fwd,
    line.target = .forward fwd ∧ rule.userdata = fwd + fwdPortShift
  inMask : ∀ line ∈ lines, ∀ fwd, line.target = .forward fwd →
    portInMask mask fwd.toNat = true

/-! ## Loading a file -/

namespace AclLoad

variable {φ : Type} {mask : BitVec 32} {parser : RuleParser φ}

/-- A line is bypassed, or it is a route to a port of the mask, or it is a denial. -/
theorem addLine_cases {load next : AclLoad φ} {buff : Text}
    (added : load.addLine mask parser buff = some next) :
    (aclLine parser buff = none ∧ leadChar buff ≠ aclLeadChar ∧ next = load) ∨
    (∃ field fwd, aclLine parser buff = some ⟨field, .forward fwd⟩ ∧
      leadChar buff ≠ aclLeadChar ∧ portInMask mask fwd.toNat = true ∧
      next = load.addRoute field fwd) ∨
    (∃ field, aclLine parser buff = some ⟨field, .deny⟩ ∧
      leadChar buff = aclLeadChar ∧ next = load.addAcl field) := by
  unfold addLine at added
  by_cases bypass : isBypassLine buff = true
  · have noRoute : leadChar buff ≠ routeLeadChar := by
      intro route
      rw [isBypassLine_rule (Or.inl route)] at bypass
      cases bypass
    have noAcl : leadChar buff ≠ aclLeadChar := by
      intro acl
      rw [isBypassLine_rule (Or.inr acl)] at bypass
      cases bypass
    rw [if_pos bypass] at added
    cases added
    refine Or.inl ⟨?_, noAcl, rfl⟩
    rw [aclLine, if_neg noRoute, if_neg noAcl]
  · rw [if_neg bypass] at added
    by_cases route : leadChar buff = routeLeadChar
    · have noAcl : leadChar buff ≠ aclLeadChar := by
        rw [route]
        decide
      rw [if_pos route] at added
      rcases Option.bind_eq_some_iff.mp added with ⟨⟨field, fwd⟩, parsed, checked⟩
      dsimp only at checked
      by_cases allowed : portInMask mask fwd.toNat = false
      · rw [if_pos allowed] at checked
        cases checked
      · rw [if_neg allowed] at checked
        cases checked
        refine Or.inr (Or.inl ⟨field, fwd, ?_, noAcl, Bool.of_not_eq_false allowed, rfl⟩)
        rw [aclLine, if_pos route, parsed]
        rfl
    · rw [if_neg route] at added
      by_cases acl : leadChar buff = aclLeadChar
      · rw [if_pos acl] at added
        rcases Option.bind_eq_some_iff.mp added with ⟨⟨field, fwd⟩, parsed, stored⟩
        cases stored
        refine Or.inr (Or.inr ⟨field, ?_, acl, rfl⟩)
        rw [aclLine, if_neg route, if_pos acl, parsed]
        rfl
      · rw [if_neg acl] at added
        cases added

theorem addRoute_loaded {lines : List (AclLine φ)} {load : AclLoad φ}
    (loaded : Loaded mask lines load) (field : φ) {fwd : BitVec 32}
    (allowed : portInMask mask fwd.toNat = true) :
    Loaded mask (lines ++ [⟨field, .forward fwd⟩]) (load.addRoute field fwd) where
  totalNum := by
    rw [List.length_append, ← loaded.totalNum]
    rfl
  whole := by
    rw [List.length_append, ← loaded.whole, addRoute, List.length_append]
    exact Nat.add_right_comm _ _ _
  aclCnt := by
    rw [List.countP_append, ← loaded.aclCnt]
    rfl
  stored := by
    intro rule
    rw [storedFor_snoc, ← loaded.stored rule, storedRule, ← loaded.totalNum]
    simp only [addRoute, priority, List.mem_append, List.mem_singleton]
    exact or_right_comm
  routes := by
    intro rule member
    rcases List.mem_append.mp member with old | new
    · rcases loaded.routes rule old with ⟨line, inside, target⟩
      exact ⟨line, List.mem_append_left _ inside, target⟩
    · rw [List.mem_singleton.mp new]
      exact ⟨_, List.mem_append_right _ List.mem_cons_self, fwd, rfl, rfl⟩
  inMask := by
    intro line member other target
    rcases List.mem_append.mp member with old | new
    · exact loaded.inMask line old other target
    · rw [List.mem_singleton.mp new] at target
      cases target
      exact allowed

theorem addAcl_loaded {lines : List (AclLine φ)} {load : AclLoad φ}
    (loaded : Loaded mask lines load) (field : φ) :
    Loaded mask (lines ++ [⟨field, .deny⟩]) (load.addAcl field) where
  totalNum := by
    rw [List.length_append, ← loaded.totalNum]
    rfl
  whole := by
    rw [List.length_append, ← loaded.whole, addAcl, List.length_append]
    exact (Nat.add_assoc _ _ _).symm
  aclCnt := by
    rw [List.countP_append, ← loaded.aclCnt, addAcl, List.length_append]
    rfl
  stored := by
    intro rule
    rw [storedFor_snoc, ← loaded.stored rule, storedRule, ← loaded.totalNum, ← loaded.aclCnt]
    simp only [addAcl, priority, List.mem_append, List.mem_singleton]
    exact or_assoc.symm
  routes := by
    intro rule member
    rcases loaded.routes rule member with ⟨line, inside, target⟩
    exact ⟨line, List.mem_append_left _ inside, target⟩
  inMask := by
    intro line member other target
    rcases List.mem_append.mp member with old | new
    · exact loaded.inMask line old other target
    · rw [List.mem_singleton.mp new] at target
      cases target

theorem addLine_loaded {lines : List (AclLine φ)} {load next : AclLoad φ} {buff : Text}
    (added : load.addLine mask parser buff = some next) (loaded : Loaded mask lines load) :
    Loaded mask (lines ++ (aclLine parser buff).toList) next ∧
      next.aclRules.length =
        load.aclRules.length + if leadChar buff = aclLeadChar then 1 else 0 := by
  rcases addLine_cases added with ⟨noRule, noAcl, same⟩ | ⟨field, fwd, line, noAcl, allowed, same⟩ |
    ⟨field, line, acl, same⟩
  · subst same
    rw [noRule, if_neg noAcl]
    refine ⟨?_, rfl⟩
    simpa using loaded
  · subst same
    rw [line, if_neg noAcl]
    exact ⟨addRoute_loaded loaded field allowed, rfl⟩
  · subst same
    rw [line, if_pos acl]
    refine ⟨addAcl_loaded loaded field, ?_⟩
    simp [addAcl]

theorem addLines_loaded : ∀ (rest : List Text) (lines : List (AclLine φ)) (load last : AclLoad φ),
    rest.foldlM (addLine mask parser) load = some last → Loaded mask lines load →
    Loaded mask (lines ++ aclLines parser rest) last ∧
      last.aclRules.length = load.aclRules.length + countLead aclLeadChar rest := by
  intro rest
  induction rest with
  | nil =>
      intro lines load last ended loaded
      cases ended
      refine ⟨?_, rfl⟩
      simpa [aclLines] using loaded
  | cons buff rest induction =>
      intro lines load last ended loaded
      rw [List.foldlM_cons] at ended
      rcases Option.bind_eq_some_iff.mp ended with ⟨next, added, continued⟩
      rcases addLine_loaded added loaded with ⟨nextLoaded, nextCnt⟩
      rcases induction _ next last continued nextLoaded with ⟨lastLoaded, lastCnt⟩
      have split : aclLines parser (buff :: rest) =
          (aclLine parser buff).toList ++ aclLines parser rest := by
        cases kind : aclLine parser buff with
        | none => simp [aclLines, kind]
        | some line => simp [aclLines, kind]
      rw [split, ← List.append_assoc]
      refine ⟨lastLoaded, ?_⟩
      rw [lastCnt, nextCnt, countLead, countLead, List.countP_cons]
      simp only [decide_eq_true_eq]
      omega

end AclLoad

/-- A file that is accepted is loaded whole, and the number of denials that is returned
is the number of those stored. -/
theorem aclAddRules_loaded {φ : Type} {mask : BitVec 32} {parser : RuleParser φ} {file : Text}
    {rules : AclRules φ} (accepted : aclAddRules mask parser file = some rules) :
    ∃ load, Loaded mask (aclLines parser (readLines file)) load ∧
      rules = ⟨load.routeRules, load.routeRules.length, load.aclRules, load.aclRules.length⟩ := by
  unfold aclAddRules at accepted
  by_cases noRoute : countLead routeLeadChar (readLines file) = 0
  · simp [noRoute] at accepted
  · rw [if_neg noRoute] at accepted
    rcases Option.bind_eq_some_iff.mp accepted with ⟨load, ended, returned⟩
    cases returned
    have start : Loaded mask ([] : List (AclLine φ)) ⟨[], [], 0⟩ := by
      refine ⟨rfl, rfl, rfl, ?_, ?_, ?_⟩
      · intro rule
        simp [StoredFor]
      · intro rule member
        cases member
      · intro line member
        cases member
    rcases AclLoad.addLines_loaded _ _ _ _ ended start with ⟨loaded, count⟩
    refine ⟨load, loaded, ?_⟩
    rw [count]
    simp

end PacketForwarding.L3fwd
