import PacketForwarding.Foundation.Passes
import PacketForwarding.L3fwd.AclRules

/-! # Loading routes in two passes

The first pass over a file counts the routes, and an array for so many is allocated. The
second pass fills it. Both count with 32 bits, and the number of routes is returned as an
`int`, which is negative for more than half of the numbers.
-/

namespace PacketForwarding.L3fwd

/-! ## The loaders -/

def einval : Int := 22

/-- What a loader gets from its system: the file if it opens, whether the file is read
again from the start, and whether there is memory for so many rules. -/
structure FileAccess where
  fopen : Option Text
  fseek : Bool
  calloc : Nat → Bool

/-- The array while it is filled. -/
structure RouteLoad (ρ : Type) where
  routeRules : Nat → ρ
  routeCnt : BitVec 32

/-- Why the second pass ends early: the loader returns, or it writes behind the array. -/
inductive LoadStop
  | returned (value : Int)
  | outOfBounds (index : Nat)
  deriving DecidableEq

section Loader

variable {ρ : Type} (parser : Text → ρ → Int × ρ)

/-- One line of the second pass. The parser writes to the entry whatever it returns. -/
def RouteLoad.addLine (routeNum : BitVec 32) (load : RouteLoad ρ) (buff : Text) :
    Except LoadStop (RouteLoad ρ) :=
  if isBypassLine buff then
    .ok load
  -- route entry
  else if leadChar buff = routeLeadChar then
    let index := load.routeCnt.toNat
    if index < routeNum.toNat then
      let (rc, next) := parser buff.tail (load.routeRules index)
      if rc ≠ 0 then .error (.returned (-einval))
      else .ok ⟨Function.update load.routeRules index next, load.routeCnt + 1⟩
    else
      .error (.outOfBounds index)
  -- illegal line
  else
    .error (.returned (-einval))

/-- What a loader that returns leaves behind: its value, and the array it hands out. -/
structure LoadResult (ρ : Type) where
  value : Int
  routeBase : Option (Nat → ρ)

def LoadResult.failed : LoadResult ρ := ⟨-einval, none⟩

/-- What the loader returns after the second pass. -/
def RouteLoad.finish : Except LoadStop (RouteLoad ρ) → Except LoadStop (LoadResult ρ)
  | .ok load => .ok ⟨load.routeCnt.toInt, some load.routeRules⟩
  | .error (.returned value) => .ok ⟨value, none⟩
  | .error (.outOfBounds index) => .error (.outOfBounds index)

/-- The two loaders of routes, which differ in the type of a rule. Entries are `zero` when
they are allocated. -/
def addRules (zero : ρ) (access : FileAccess) : Except LoadStop (LoadResult ρ) :=
  match access.fopen with
  | none => .ok .failed
  | some file =>
      let lines := readLines file
      let routeNum := BitVec.ofNat 32 (countLead routeLeadChar lines)
      if routeNum = 0#32 then .ok .failed
      else if access.fseek = false then .ok .failed
      else if access.calloc routeNum.toNat = false then .ok .failed
      else
        RouteLoad.finish
          (lines.foldlM (RouteLoad.addLine parser routeNum) ⟨fun _ => zero, 0#32⟩)

def lpmAddRules (zero : ρ) (access : FileAccess) : Except LoadStop (LoadResult ρ) :=
  addRules parser zero access

def emAddRules (zero : ρ) (access : FileAccess) : Except LoadStop (LoadResult ρ) :=
  addRules parser zero access

end Loader

/-! ## What a file asks for -/

section Lines

variable {ρ : Type} (parser : Text → ρ → Int × ρ) (zero : ρ)

/-- The line makes the loader fail. -/
def BadLine (buff : Text) : Prop :=
  isBypassLine buff = false ∧
    (leadChar buff ≠ routeLeadChar ∨ (parser buff.tail zero).1 ≠ 0)

instance (buff : Text) : Decidable (BadLine parser zero buff) :=
  inferInstanceAs (Decidable (_ ∧ _))

def routeLines (lines : List Text) : List Text :=
  lines.filter fun buff => leadChar buff = routeLeadChar

/-- The array holds what the route lines are parsed to. -/
def Stores (rules : Nat → ρ) (lines : List Text) : Prop :=
  ∀ index buff, (routeLines lines)[index]? = some buff →
    rules index = (parser buff.tail zero).2

/-- No write is out of bounds, and the loader fails exactly on bad files and else has loaded
all routes. -/
structure LoadsExactly (lines : List Text) (outcome : Except LoadStop (LoadResult ρ)) : Prop where
  inside : ∀ index, outcome ≠ .error (.outOfBounds index)
  fails : ∀ result, outcome = .ok result → (result.value < 0 ↔
    countLead routeLeadChar lines = 0 ∨ ∃ buff ∈ lines, BadLine parser zero buff)
  loaded : ∀ result, outcome = .ok result → 0 ≤ result.value →
    result.value = countLead routeLeadChar lines ∧
      ∃ rules, result.routeBase = some rules ∧ Stores parser zero rules lines

end Lines

/-! ## The second pass -/

theorem length_routeLines (lines : List Text) :
    (routeLines lines).length = countLead routeLeadChar lines := by
  rw [routeLines, countLead, List.countP_eq_length_filter]

theorem routeLines_append (front behind : List Text) :
    routeLines (front ++ behind) = routeLines front ++ routeLines behind :=
  List.filter_append ..

theorem countLead_append (lead : BitVec 8) (front behind : List Text) :
    countLead lead (front ++ behind) = countLead lead front + countLead lead behind :=
  List.countP_append ..

/-- What a line does to the count. -/
theorem countLead_snoc (lead : BitVec 8) (front : List Text) (buff : Text) :
    countLead lead (front ++ [buff]) =
      countLead lead front + if leadChar buff = lead then 1 else 0 := by
  rw [countLead_append, countLead, countLead, List.countP_singleton]
  simp only [decide_eq_true_eq]

/-- The pass goes wrong by a write behind the array. -/
abbrev Outside (stop : LoadStop) : Prop := ∃ index, stop = .outOfBounds index

section SecondPass

variable {ρ : Type} {parser : Text → ρ → Int × ρ} {zero : ρ} {routeNum : BitVec 32}

/-- What is in the array after some lines. -/
structure RouteLoad.Holds (parser : Text → ρ → Int × ρ) (zero : ρ) (lines : List Text)
    (load : RouteLoad ρ) : Prop where
  routeCnt : load.routeCnt.toNat = countLead routeLeadChar lines
  stores : Stores parser zero load.routeRules lines
  clear : ∀ index, countLead routeLeadChar lines ≤ index → load.routeRules index = zero

namespace RouteLoad

theorem Holds.nil : Holds parser zero [] ⟨fun _ => zero, 0#32⟩ where
  routeCnt := rfl
  stores := by
    intro index buff found
    cases found
  clear := fun _ _ => rfl

section Line

variable {lines : List Text} {load : RouteLoad ρ} (holds : load.Holds parser zero lines)
  (fits : countLead routeLeadChar lines ≤ routeNum.toNat) {buff : Text}

include holds

/-- A route is written to the next entry, for which there may be no room. -/
theorem Holds.addRoute (route : leadChar buff = routeLeadChar) :
    load.addLine parser routeNum buff =
      if countLead routeLeadChar lines < routeNum.toNat then
        if (parser buff.tail zero).1 ≠ 0 then .error (.returned (-einval))
        else
          .ok ⟨Function.update load.routeRules (countLead routeLeadChar lines)
            (parser buff.tail zero).2, load.routeCnt + 1⟩
      else .error (.outOfBounds (countLead routeLeadChar lines)) := by
  have entry := holds.clear _ (Nat.le_refl _)
  rw [RouteLoad.addLine, isBypassLine_rule (.inl route), if_neg Bool.false_ne_true, if_pos route,
    holds.routeCnt]
  dsimp only
  rw [entry]

theorem Holds.snoc_route (route : leadChar buff = routeLeadChar)
    (room : countLead routeLeadChar lines < routeNum.toNat) :
    Holds parser zero (lines ++ [buff])
      ⟨Function.update load.routeRules (countLead routeLeadChar lines)
        (parser buff.tail zero).2, load.routeCnt + 1⟩ where
  routeCnt := by
    have small := routeNum.isLt
    rw [countLead_snoc, if_pos route, BitVec.toNat_add, holds.routeCnt]
    exact Nat.mod_eq_of_lt (by change _ + 1 < _; omega)
  stores := by
    intro index other found
    rw [routeLines_append] at found
    have length := length_routeLines lines
    rcases Nat.lt_or_ge index (routeLines lines).length with earlier | last
    · rw [List.getElem?_append_left earlier] at found
      dsimp only
      rw [Function.update_of_ne (by omega)]
      exact holds.stores index other found
    · have single : routeLines [buff] = [buff] := by simp [routeLines, route]
      rw [List.getElem?_append_right last, single] at found
      have isLast : index = countLead routeLeadChar lines := by
        have inside := (List.getElem?_eq_some_iff.mp found).1
        rw [List.length_singleton] at inside
        omega
      rw [isLast, length, Nat.sub_self] at found
      cases found
      rw [isLast]
      exact Function.update_self _ _ _
  clear := by
    intro index behind
    rw [countLead_snoc, if_pos route] at behind
    dsimp only
    rw [Function.update_of_ne (by omega)]
    exact holds.clear index (by omega)

theorem Holds.snoc_other (other : leadChar buff ≠ routeLeadChar) :
    Holds parser zero (lines ++ [buff]) load := by
  have count : countLead routeLeadChar (lines ++ [buff]) = countLead routeLeadChar lines := by
    rw [countLead_snoc, if_neg other, Nat.add_zero]
  have routes : routeLines (lines ++ [buff]) = routeLines lines := by
    rw [routeLines_append]
    simp [routeLines, other]
  refine ⟨by rw [count]; exact holds.routeCnt, ?_, by rw [count]; exact holds.clear⟩
  intro index line found
  rw [routes] at found
  exact holds.stores index line found

include fits

theorem Holds.addLine_good (good : ¬ BadLine parser zero buff) :
    (countLead routeLeadChar (lines ++ [buff]) ≤ routeNum.toNat ∧
      ∃ next, load.addLine parser routeNum buff = .ok next ∧
        next.Holds parser zero (lines ++ [buff])) ∨
    (¬ countLead routeLeadChar (lines ++ [buff]) ≤ routeNum.toNat ∧
      ∃ stop, load.addLine parser routeNum buff = .error stop ∧ Outside stop) := by
  by_cases route : leadChar buff = routeLeadChar
  · have parsed : ¬ (parser buff.tail zero).1 ≠ 0 := fun failed =>
      good ⟨isBypassLine_rule (.inl route), .inr failed⟩
    rw [countLead_snoc, if_pos route, holds.addRoute route, if_neg parsed]
    by_cases room : countLead routeLeadChar lines < routeNum.toNat
    · exact .inl ⟨room, _, if_pos room, holds.snoc_route route room⟩
    · exact .inr ⟨room, _, if_neg room, _, rfl⟩
  · have bypass : isBypassLine buff = true := by
      by_contra notBypass
      exact good ⟨Bool.of_not_eq_true notBypass, .inl route⟩
    rw [countLead_snoc, if_neg route, Nat.add_zero]
    refine .inl ⟨fits, load, ?_, holds.snoc_other route⟩
    rw [RouteLoad.addLine, if_pos bypass]

theorem Holds.addLine_bad (bad : BadLine parser zero buff) :
    (countLead routeLeadChar (lines ++ [buff]) ≤ routeNum.toNat ∧
      load.addLine parser routeNum buff = .error (.returned (-einval))) ∨
    (¬ countLead routeLeadChar (lines ++ [buff]) ≤ routeNum.toNat ∧
      ∃ stop, load.addLine parser routeNum buff = .error stop ∧ Outside stop) := by
  by_cases route : leadChar buff = routeLeadChar
  · have failed : (parser buff.tail zero).1 ≠ 0 := by
      rcases bad.2 with other | failed
      · exact absurd route other
      · exact failed
    rw [countLead_snoc, if_pos route, holds.addRoute route, if_pos failed]
    by_cases room : countLead routeLeadChar lines < routeNum.toNat
    · exact .inl ⟨room, if_pos room⟩
    · exact .inr ⟨room, _, if_neg room, _, rfl⟩
  · rw [countLead_snoc, if_neg route, Nat.add_zero]
    refine .inl ⟨fits, ?_⟩
    rw [RouteLoad.addLine, bad.1, if_neg Bool.false_ne_true, if_neg route]

end Line

/-- There is room for the routes as long as there are not more than were counted. -/
theorem pass (parser : Text → ρ → Int × ρ) (zero : ρ) (routeNum : BitVec 32) :
    Pass (RouteLoad.addLine parser routeNum) (BadLine parser zero)
      (fun lines => countLead routeLeadChar lines ≤ routeNum.toNat) (Holds parser zero)
      (.returned (-einval)) Outside where
  room_front := by
    intro front behind room
    rw [countLead_append] at room
    omega
  good := fun _ _ _ fits holds good => holds.addLine_good fits good
  bad := fun _ _ _ fits holds bad => holds.addLine_bad fits bad

end RouteLoad

end SecondPass

/-! ## When all is loaded -/

/-- The counters do not overflow, or the loader returns early enough. -/
def RoutesFit {ρ : Type} (parser : Text → ρ → Int × ρ) (zero : ρ) (lines : List Text) : Prop :=
  countLead routeLeadChar lines < 2 ^ 31 ∨
    ∃ front buff behind, lines = front ++ buff :: behind ∧ BadLine parser zero buff ∧
      (countLead routeLeadChar lines % 2 ^ 32 = 0 ∨
        countLead routeLeadChar (front ++ [buff]) ≤ countLead routeLeadChar lines % 2 ^ 32)

section Exactly

variable {ρ : Type} {parser : Text → ρ → Int × ρ} {zero : ρ}

theorem loadsExactly_failed {lines : List Text} {result : LoadResult ρ}
    (failed : result.value = -einval) :
    LoadsExactly parser zero lines (.ok result) ↔
      countLead routeLeadChar lines = 0 ∨ ∃ buff ∈ lines, BadLine parser zero buff := by
  have negative : result.value < 0 := by
    rw [failed]
    decide
  constructor
  · intro exactly
    exact (exactly.fails result rfl).mp negative
  · intro asked
    refine ⟨fun _ => nofun, ?_, ?_⟩
    · rintro _ ⟨rfl⟩
      exact iff_of_true negative asked
    · rintro _ ⟨rfl⟩ success
      exact absurd negative (Int.not_lt.mpr success)

theorem not_loadsExactly_fault {lines : List Text} {index : Nat} :
    ¬ LoadsExactly parser zero lines (.error (.outOfBounds index) : Except LoadStop (LoadResult ρ)) :=
  fun exactly => exactly.inside index rfl

theorem addRules_of_routes {access : FileAccess} {file : Text} (opens : access.fopen = some file)
    (seeks : access.fseek = true) (memory : ∀ count, access.calloc count = true)
    (routes : countLead routeLeadChar (readLines file) % 2 ^ 32 ≠ 0) :
    addRules parser zero access =
      RouteLoad.finish ((readLines file).foldlM (RouteLoad.addLine parser
        (BitVec.ofNat 32 (countLead routeLeadChar (readLines file)))) ⟨fun _ => zero, 0#32⟩) := by
  have notZero : BitVec.ofNat 32 (countLead routeLeadChar (readLines file)) ≠ 0#32 := by
    intro isZero
    have number := congrArg BitVec.toNat isZero
    rw [BitVec.toNat_ofNat] at number
    exact routes number
  rw [addRules, opens]
  dsimp only
  rw [if_neg notZero, seeks, if_neg Bool.noConfusion, memory, if_neg Bool.noConfusion]

theorem addRules_of_wrapped {access : FileAccess} {file : Text} (opens : access.fopen = some file)
    (none : countLead routeLeadChar (readLines file) % 2 ^ 32 = 0) :
    addRules parser zero access = .ok .failed := by
  have isZero : BitVec.ofNat 32 (countLead routeLeadChar (readLines file)) = 0#32 := by
    apply BitVec.eq_of_toNat_eq
    rw [BitVec.toNat_ofNat]
    exact none
  rw [addRules, opens]
  dsimp only
  rw [if_pos isZero]

/-- A file without a bad line is loaded exactly if the number of its routes fits an `int`. -/
theorem finish_good {lines : List Text} (good : ∀ buff ∈ lines, ¬ BadLine parser zero buff)
    (routes : countLead routeLeadChar lines % 2 ^ 32 ≠ 0) :
    LoadsExactly parser zero lines (RouteLoad.finish (lines.foldlM (RouteLoad.addLine parser
      (BitVec.ofNat 32 (countLead routeLeadChar lines))) ⟨fun _ => zero, 0#32⟩)) ↔
      countLead routeLeadChar lines < 2 ^ 31 := by
  have ran := (RouteLoad.pass parser zero (BitVec.ofNat 32 (countLead routeLeadChar lines))).run_good
    .nil (Nat.zero_le _) lines good
  rw [BitVec.toNat_ofNat] at ran
  have some : countLead routeLeadChar lines ≠ 0 := by
    intro none
    rw [none] at routes
    exact routes rfl
  have noneBad : ¬ ∃ buff ∈ lines, BadLine parser zero buff := by
    rintro ⟨buff, member, bad⟩
    exact good buff member bad
  rcases ran with ⟨room, load, loaded, holds⟩ | ⟨full, _, ran, index, rfl⟩
  · have value := BitVec.toInt_eq_toNat_cond load.routeCnt
    rw [holds.routeCnt] at value
    rw [loaded]
    constructor
    · intro exactly
      by_contra large
      have negative : load.routeCnt.toInt < 0 := by
        rw [value, if_neg (by omega)]
        omega
      rcases (exactly.fails _ rfl).mp negative with none | bad
      · exact some none
      · exact noneBad bad
    · intro small
      have same : load.routeCnt.toInt = countLead routeLeadChar lines := by
        rw [value, if_pos (by omega)]
      refine ⟨fun _ => nofun, ?_, ?_⟩
      · rintro _ ⟨rfl⟩
        refine iff_of_false ?_ (not_or.mpr ⟨some, noneBad⟩)
        change ¬ load.routeCnt.toInt < 0
        omega
      · rintro _ ⟨rfl⟩ _
        exact ⟨same, _, rfl, holds.stores⟩
  · rw [ran]
    refine iff_of_false not_loadsExactly_fault ?_
    omega

/-- A file with a bad line is rejected as it should be if there is room until its first
bad line. -/
theorem finish_bad {front behind : List Text} {buff : Text} {routeNum : BitVec 32}
    {lines : List Text} (whole : lines = front ++ buff :: behind)
    (good : ∀ other ∈ front, ¬ BadLine parser zero other) (bad : BadLine parser zero buff) :
    LoadsExactly parser zero lines (RouteLoad.finish
      (lines.foldlM (RouteLoad.addLine parser routeNum) ⟨fun _ => zero, 0#32⟩)) ↔
      countLead routeLeadChar (front ++ [buff]) ≤ routeNum.toNat := by
  rcases (RouteLoad.pass parser zero routeNum).run_bad .nil (Nat.zero_le _) good bad with
    ⟨room, ran⟩ | ⟨full, _, ran, index, rfl⟩
  · rw [whole, ran]
    refine iff_of_true ?_ room
    refine (loadsExactly_failed rfl).mpr (.inr ⟨buff, ?_, bad⟩)
    exact List.mem_append_right _ List.mem_cons_self
  · rw [whole, ran]
    exact iff_of_false not_loadsExactly_fault full

/-- What `lpm_add_rules` and `em_add_rules` do to a file that opens, if there is memory. -/
theorem addRules_exactly_iff {access : FileAccess} {file : Text}
    (opens : access.fopen = some file) (seeks : access.fseek = true)
    (memory : ∀ count, access.calloc count = true) :
    LoadsExactly parser zero (readLines file) (addRules parser zero access) ↔
      RoutesFit parser zero (readLines file) := by
  generalize same : readLines file = lines
  by_cases wrapped : countLead routeLeadChar lines % 2 ^ 32 = 0
  · rw [addRules_of_wrapped opens (by rwa [same]), loadsExactly_failed rfl]
    constructor
    · rintro (none | someBad)
      · exact .inl (by omega)
      · rcases exists_first lines someBad with ⟨front, buff, behind, whole, _, bad⟩
        exact .inr ⟨front, buff, behind, whole, bad, .inl wrapped⟩
    · rintro (small | ⟨front, buff, behind, whole, bad, _⟩)
      · exact .inl (by omega)
      · refine .inr ⟨buff, ?_, bad⟩
        rw [whole]
        exact List.mem_append_right _ List.mem_cons_self
  · rw [addRules_of_routes opens seeks memory (by rwa [same]), same]
    by_cases someBad : ∃ buff ∈ lines, BadLine parser zero buff
    · rcases exists_first lines someBad with ⟨front, buff, behind, whole, good, bad⟩
      rw [finish_bad whole good bad, BitVec.toNat_ofNat]
      constructor
      · intro room
        exact .inr ⟨front, buff, behind, whole, bad, .inr room⟩
      · rintro (small | ⟨front', buff', behind', whole', bad', zeroOrRoom⟩)
        · have part : countLead routeLeadChar lines =
              countLead routeLeadChar (front ++ [buff]) + countLead routeLeadChar behind := by
            rw [whole, ← countLead_append]
            simp
          omega
        · have first := (find_split (whole.symm.trans whole') good bad').sublist.countP_le
            (p := fun buff => decide (leadChar buff = routeLeadChar))
          rcases zeroOrRoom with zero | room
          · exact absurd zero wrapped
          · exact first.trans room
    · have good : ∀ buff ∈ lines, ¬ BadLine parser zero buff := fun buff member bad =>
        someBad ⟨buff, member, bad⟩
      rw [finish_good good wrapped]
      constructor
      · exact .inl
      · rintro (small | ⟨front, buff, behind, whole, bad, _⟩)
        · exact small
        · refine absurd bad (good buff ?_)
          rw [whole]
          exact List.mem_append_right _ List.mem_cons_self

/-- What is handed out was loaded from a file without a bad line. -/
theorem addRules_accepted {access : FileAccess} {file : Text} (opens : access.fopen = some file)
    {value : Int} {rules : Nat → ρ}
    (accepted : addRules parser zero access = .ok ⟨value, some rules⟩) :
    (∀ buff ∈ readLines file, ¬ BadLine parser zero buff) ∧
      Stores parser zero rules (readLines file) := by
  rw [addRules, opens] at accepted
  dsimp only at accepted
  split at accepted
  · cases accepted
  · split at accepted
    · cases accepted
    · split at accepted
      · cases accepted
      · generalize readLines file = lines at accepted ⊢
        generalize BitVec.ofNat 32 (countLead routeLeadChar lines) = routeNum at accepted
        have pass := RouteLoad.pass parser zero routeNum
        by_cases someBad : ∃ buff ∈ lines, BadLine parser zero buff
        · rcases exists_first lines someBad with ⟨front, buff, behind, rfl, good, bad⟩
          rcases pass.run_bad .nil (Nat.zero_le _) good bad with ⟨_, ran⟩ | ⟨_, _, ran, _, rfl⟩
          · rw [ran] at accepted
            cases accepted
          · rw [ran] at accepted
            cases accepted
        · have good : ∀ buff ∈ lines, ¬ BadLine parser zero buff := fun buff member bad =>
            someBad ⟨buff, member, bad⟩
          refine ⟨good, ?_⟩
          rcases pass.run_good .nil (Nat.zero_le _) lines good with ⟨_, load, ran, holds⟩ |
            ⟨_, _, ran, _, rfl⟩
          · rw [ran] at accepted
            cases accepted
            exact holds.stores
          · rw [ran] at accepted
            cases accepted

end Exactly

end PacketForwarding.L3fwd
