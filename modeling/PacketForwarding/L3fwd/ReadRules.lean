import PacketForwarding.L3fwd.Options
import PacketForwarding.L3fwd.RuleLines

/-! # Rules as they are read

The loader leaves an array with a number of entries. If its parser accepts exactly the lines
that are written in some form, then a file is read if all its lines are of that form, and as
the rules of these lines in their order.
-/

namespace PacketForwarding.L3fwd

open CString

variable {ρ : Type} {parser : Text → ρ → Int × ρ} {zero : ρ}

/-- Take the rules that a loader added. If it failed, the program ends. -/
def readRoutes (loaded : Except LoadStop (LoadResult ρ)) : Except LoadStop (List ρ) := do
  let result ← loaded
  if result.value < 0 then .error (.returned result.value)
  else
    match result.routeBase with
    | none => .error (.outOfBounds 0)
    | some rules => .ok ((List.range result.value.toNat).map rules)

theorem RouteLoad.Holds.toInt {lines : List Text} {load : RouteLoad ρ}
    (holds : load.Holds parser zero lines) (count : countLead routeLeadChar lines < 2 ^ 31) :
    load.routeCnt.toInt = countLead routeLeadChar lines := by
  rw [BitVec.toInt_eq_toNat_of_lt, holds.routeCnt]
  rw [holds.routeCnt]
  omega

/-- A file is read if no line is bad and the number of its routes fits an `int`. -/
theorem readRoutes_eq_ok {access : FileAccess} {file : Text} (available : access.Available file)
    {routes : List ρ} :
    readRoutes (addRules parser zero access) = .ok routes ↔
      (∀ buff ∈ readLines file, ¬ BadLine parser zero buff) ∧
        0 < countLead routeLeadChar (readLines file) ∧
        countLead routeLeadChar (readLines file) < 2 ^ 31 ∧
        routes = (routeLines (readLines file)).map fun buff => (parser buff.tail zero).2 := by
  let count := countLead routeLeadChar (readLines file)
  have width : (BitVec.ofNat 32 count).toNat = count % 2 ^ 32 := BitVec.toNat_ofNat count 32
  constructor
  · intro read
    unfold readRoutes at read
    cases ran : addRules parser zero access with
    | error stop =>
        rw [ran] at read
        cases read
    | ok result =>
        rcases result with ⟨value, _ | rules⟩
        · rw [ran] at read
          dsimp only [bind, Except.bind] at read
          split at read <;> cases read
        · rcases (addRules_some_iff available).mp ran with
            ⟨counted, load, passed, isValue, isRules⟩
          rcases (routesPass_iff (BitVec.ofNat 32 count) (readLines file)).mp ⟨load, passed⟩ with
            ⟨good, room⟩
          have holds := RoutesPass.holds passed
          rw [ran] at read
          dsimp only [bind, Except.bind] at read
          split at read
          · cases read
          · rename_i notNegative
            have sign := BitVec.toInt_eq_toNat_cond load.routeCnt
            rw [isValue, holds.routeCnt] at sign
            rw [width] at room
            have fits : count < 2 ^ 31 := by
              change count ≤ _ at room
              change value = if 2 * count < 2 ^ 32 then (count : Int) else (count : Int) - _ at sign
              split at sign <;> omega
            have isCount : value.toNat = count := by
              rw [← isValue, holds.toInt fits]
              exact Int.toNat_natCast count
            cases read
            rw [isCount, ← isRules, map_routeRules holds good, filterMap_routes good]
            have positive : 0 < count := by
              change count % 2 ^ 32 ≠ 0 at counted
              omega
            exact ⟨good, positive, fits, rfl⟩
  · rintro ⟨good, positive, fits, rfl⟩
    have whole : count % 2 ^ 32 = count := Nat.mod_eq_of_lt (by omega)
    rcases (routesPass_iff (BitVec.ofNat 32 count) (readLines file)).mpr
      ⟨good, by rw [width, whole]⟩ with ⟨load, passed⟩
    have holds := RoutesPass.holds passed
    have ran := (addRules_some_iff available).mpr
      ⟨by rw [whole]; exact Nat.ne_of_gt positive, load, passed, holds.toInt fits, rfl⟩
    unfold readRoutes
    rw [ran]
    have notNegative : ¬ ((count : Nat) : Int) < 0 := by omega
    dsimp only [bind, Except.bind]
    rw [if_neg notNegative]
    have listed := map_routeRules holds good
    rw [filterMap_routes good] at listed
    exact congrArg Except.ok listed

/-! ## Files in some form -/

/-- A parser accepts a line as a rule if it is written in this form. -/
def Accepts (parser : Text → ρ → Int × ρ) (zero : ρ) (form : Text → ρ → Prop) (str : Text) :
    Prop :=
  ∀ rule, parser str zero = (0, rule) ↔ form str rule

/-- A file with these rules, and besides them only comments and empty lines. -/
structure WrittenFile (form : Text → ρ → Prop) (file : Text) (rules : List ρ) : Prop where
  others : ∀ buff ∈ readLines file, leadChar buff = routeLeadChar ∨ isBypassLine buff = true
  forms : List.Forall₂ (fun buff rule => form buff.tail rule) (routeLines (readLines file)) rules
  nonempty : rules ≠ []
  count : rules.length < 2 ^ 31

variable {form : Text → ρ → Prop}

theorem Accepts.badLine_iff {buff : Text}
    (accepts : leadChar buff = routeLeadChar → Accepts parser zero form buff.tail) :
    ¬ BadLine parser zero buff ↔
      (leadChar buff = routeLeadChar ∧ ∃ rule, form buff.tail rule) ∨
        isBypassLine buff = true := by
  have accepted : leadChar buff = routeLeadChar →
      ((parser buff.tail zero).1 = 0 ↔ ∃ rule, form buff.tail rule) := by
    intro isRoute
    constructor
    · intro isZero
      exact ⟨_, (accepts isRoute _).mp (Prod.ext isZero rfl)⟩
    · rintro ⟨rule, written⟩
      rw [(accepts isRoute rule).mpr written]
  unfold BadLine
  cases isBypassLine buff with
  | true => simp
  | false =>
      by_cases isRoute : leadChar buff = routeLeadChar
      · simp [isRoute, accepted isRoute]
      · simp [isRoute]

theorem Accepts.forall₂_iff {lines : List Text} {rules : List ρ}
    (accepts : ∀ buff ∈ lines, Accepts parser zero form buff.tail) :
    List.Forall₂ (fun buff rule => form buff.tail rule) lines rules ↔
      (∀ buff ∈ lines, ∃ rule, form buff.tail rule) ∧
        rules = lines.map fun buff => (parser buff.tail zero).2 := by
  induction lines generalizing rules with
  | nil =>
      rw [List.forall₂_nil_left_iff]
      simp
  | cons buff lines induction =>
      rw [List.forall_mem_cons] at accepts
      rcases accepts with ⟨first, others⟩
      have parsed : ∀ {rule}, form buff.tail rule → (parser buff.tail zero).2 = rule :=
        fun written => congrArg Prod.snd ((first _).mpr written)
      rw [List.forall₂_cons_left_iff, List.forall_mem_cons, List.map_cons]
      constructor
      · rintro ⟨rule, rest, written, forms, rfl⟩
        rcases (induction others).mp forms with ⟨allWritten, rfl⟩
        exact ⟨⟨⟨rule, written⟩, allWritten⟩, by rw [parsed written]⟩
      · rintro ⟨⟨⟨rule, written⟩, allWritten⟩, rfl⟩
        exact ⟨rule, _, written, (induction others).mpr ⟨allWritten, rfl⟩, by rw [parsed written]⟩

/-- A file is read if it is written in the form that the parser accepts, and then as its rules
in their order. -/
theorem readRoutes_iff {access : FileAccess} {file : Text} (available : access.Available file)
    (accepts : ∀ buff ∈ routeLines (readLines file), Accepts parser zero form buff.tail)
    {routes : List ρ} :
    readRoutes (addRules parser zero access) = .ok routes ↔ WrittenFile form file routes := by
  have length : ∀ {routes : List ρ},
      List.Forall₂ (fun buff rule => form buff.tail rule) (routeLines (readLines file)) routes →
      routes.length = countLead routeLeadChar (readLines file) := by
    intro routes forms
    rw [← length_routeLines, forms.length_eq]
  have badLine : ∀ buff ∈ readLines file, ¬ BadLine parser zero buff ↔
      (leadChar buff = routeLeadChar ∧ ∃ rule, form buff.tail rule) ∨
        isBypassLine buff = true := by
    intro buff member
    apply Accepts.badLine_iff
    intro isRoute
    exact accepts buff (List.mem_filter.mpr ⟨member, decide_eq_true isRoute⟩)
  rw [readRoutes_eq_ok available]
  constructor
  · rintro ⟨good, positive, fits, isRoutes⟩
    have forms := (Accepts.forall₂_iff accepts).mpr ⟨?_, isRoutes⟩
    · refine ⟨?_, forms, ?_, ?_⟩
      · intro buff member
        rcases (badLine buff member).mp (good buff member) with ⟨isRoute, _⟩ | bypass
        · exact Or.inl isRoute
        · exact Or.inr bypass
      · rintro rfl
        rw [← length forms] at positive
        exact absurd positive (Nat.lt_irrefl 0)
      · rw [length forms]
        exact fits
    · intro buff member
      rcases List.mem_filter.mp member with ⟨inFile, isRoute⟩
      rcases (badLine buff inFile).mp (good buff inFile) with ⟨_, written⟩ | bypass
      · exact written
      · rw [isBypassLine_rule (.inl (of_decide_eq_true isRoute))] at bypass
        cases bypass
  · intro isFile
    rcases (Accepts.forall₂_iff accepts).mp isFile.forms with ⟨forms, isRoutes⟩
    refine ⟨?_, ?_, ?_, isRoutes⟩
    · intro buff member
      apply (badLine buff member).mpr
      rcases isFile.others buff member with isRoute | bypass
      · exact Or.inl ⟨isRoute, forms buff (List.mem_filter.mpr ⟨member, decide_eq_true isRoute⟩)⟩
      · exact Or.inr bypass
    · rw [← length isFile.forms]
      exact List.length_pos_iff.mpr isFile.nonempty
    · rw [← length isFile.forms]
      exact isFile.count

/-! ## Both files -/

/-- Load rules from the input files. If one of the names is missing, the default ones are used
instead. -/
def readConfigFiles {σ : Type} (addV4 : FileAccess → Except LoadStop (LoadResult ρ))
    (addV6 : FileAccess → Except LoadStop (LoadResult σ)) (defaults : List ρ × List σ)
    (access : Bytes → FileAccess) (options : Options) : Except LoadStop (List ρ × List σ) :=
  match options.ruleIpv4Name, options.ruleIpv6Name with
  | some ruleIpv4Name, some ruleIpv6Name => do
      -- ipv4 check
      let ipv4 ← readRoutes (addV4 (access ruleIpv4Name))
      -- ipv6 check
      let ipv6 ← readRoutes (addV6 (access ruleIpv6Name))
      return (ipv4, ipv6)
  | _, _ => .ok defaults

/-- These rules are written in the files that the options name, or they are the default
ones. -/
def RulesGiven {σ : Type} (written4 : Text → List ρ → Prop) (written6 : Text → List σ → Prop)
    (defaults : List ρ × List σ) (files : Bytes → Text) (options : Options)
    (rules : List ρ × List σ) : Prop :=
  match options.ruleIpv4Name, options.ruleIpv6Name with
  | some ruleIpv4Name, some ruleIpv6Name =>
      written4 (files ruleIpv4Name) rules.1 ∧ written6 (files ruleIpv6Name) rules.2
  | _, _ => rules = defaults

theorem readConfigFiles_iff {σ : Type} {addV4 : FileAccess → Except LoadStop (LoadResult ρ)}
    {addV6 : FileAccess → Except LoadStop (LoadResult σ)} {written4 : Text → List ρ → Prop}
    {written6 : Text → List σ → Prop} (defaults : List ρ × List σ) {access : Bytes → FileAccess}
    {files : Bytes → Text} {options : Options}
    (reads4 : ∀ name, options.ruleIpv4Name = some name → ∀ rules,
      readRoutes (addV4 (access name)) = .ok rules ↔ written4 (files name) rules)
    (reads6 : ∀ name, options.ruleIpv6Name = some name → ∀ rules,
      readRoutes (addV6 (access name)) = .ok rules ↔ written6 (files name) rules)
    (rules : List ρ × List σ) :
    readConfigFiles addV4 addV6 defaults access options = .ok rules ↔
      RulesGiven written4 written6 defaults files options rules := by
  unfold readConfigFiles RulesGiven
  cases isName4 : options.ruleIpv4Name with
  | none =>
      simp only [Except.ok.injEq]
      exact eq_comm
  | some name4 =>
      cases isName6 : options.ruleIpv6Name with
      | none =>
          simp only [Except.ok.injEq]
          exact eq_comm
      | some name6 =>
          dsimp only
          rw [← reads4 name4 isName4, ← reads6 name6 isName6]
          cases readRoutes (addV4 (access name4)) with
          | error stop => simp [bind, Except.bind]
          | ok ipv4 =>
              cases readRoutes (addV6 (access name6)) with
              | error stop => simp [bind, Except.bind]
              | ok ipv6 =>
                  rcases rules with ⟨rules4, rules6⟩
                  simp [bind, Except.bind, pure, Except.pure]

end PacketForwarding.L3fwd
