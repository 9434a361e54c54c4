import PacketForwarding.L3fwd.RuleLoading

/-! # The lines of a rule file

A line that does not fit the buffer is read in several pieces, and what a loader takes for a
line is a piece. The pieces of a file are those of its lines. A comment or a rule may thus be
followed by pieces that are taken for rules, or for lines that are illegal.
-/

namespace PacketForwarding.L3fwd

open scoped List

/-! ## Lines and pieces -/

/-- The lines of a file, each with its newline. -/
def textLines : Text → List Text
  | [] => []
  | byte :: file =>
      if byte = newline then
        [byte] :: textLines file
      else
        match textLines file with
        | [] => [[byte]]
        | line :: lines => (byte :: line) :: lines

theorem textLines_line {front : Text} (inner : newline ∉ front) (file : Text) :
    textLines (front ++ newline :: file) = (front ++ [newline]) :: textLines file := by
  induction front with
  | nil => rfl
  | cons byte front induction =>
      rcases not_or.mp (mt List.mem_cons.mpr inner) with ⟨notFirst, notLater⟩
      rw [List.cons_append, textLines, if_neg fun same => notFirst same.symm, induction notLater]
      rfl

/-- The last line need not have a newline. -/
theorem textLines_last {byte : BitVec 8} {line : Text} (inner : newline ∉ byte :: line) :
    textLines (byte :: line) = [byte :: line] := by
  induction line generalizing byte with
  | nil =>
      rcases not_or.mp (mt List.mem_cons.mpr inner) with ⟨notFirst, _⟩
      rw [textLines, if_neg fun same => notFirst same.symm]
      rfl
  | cons next line induction =>
      rcases not_or.mp (mt List.mem_cons.mpr inner) with ⟨notFirst, notLater⟩
      rw [textLines, if_neg fun same => notFirst same.symm, induction notLater]

/-- Enough rounds are enough. -/
theorem readLoop_eq_readLines : ∀ fuel file, file.length ≤ fuel →
    readLoop fuel file = readLines file := by
  intro fuel
  induction fuel using Nat.strong_induction_on with
  | _ fuel induction =>
      intro file short
      cases file with
      | nil => cases fuel <;> rfl
      | cons byte file =>
          obtain ⟨rounds, rfl⟩ : ∃ rounds, fuel = rounds + 1 :=
            Nat.exists_eq_succ_of_ne_zero (Nat.ne_zero_of_lt short)
          have progress := fgets_progress (lineMax - 2) byte file
          have less : file.length ≤ rounds := Nat.le_of_succ_le_succ short
          have one := induction rounds (Nat.lt_succ_self _) _ (progress.trans less)
          have other := induction file.length (Nat.lt_succ_of_le less) _ progress
          rw [readLines, List.length_cons, readLoop, readLoop]
          exact congrArg _ (one.trans other.symm)

theorem readLines_cons (byte : BitVec 8) (file : Text) :
    readLines (byte :: file) =
      (fgets (lineMax - 1) (byte :: file)).1 ::
        readLines (fgets (lineMax - 1) (byte :: file)).2 := by
  have progress := fgets_progress (lineMax - 2) byte file
  rw [readLines, List.length_cons, readLoop]
  exact congrArg _ (readLoop_eq_readLines _ _ progress)

/-- The buffer is full before the newline. -/
theorem fgets_long {room : Nat} {front : Text} (inner : newline ∉ front)
    (long : room ≤ front.length) (file : Text) :
    fgets room (front ++ file) = (front.take room, front.drop room ++ file) := by
  induction front generalizing room with
  | nil =>
      rw [Nat.le_zero.mp long]
      rfl
  | cons byte front induction =>
      cases room with
      | zero => rfl
      | succ room =>
          rcases not_or.mp (mt List.mem_cons.mpr inner) with ⟨notFirst, notLater⟩
          rw [List.cons_append, fgets, if_neg fun same => notFirst same.symm,
            induction notLater (Nat.le_of_succ_le_succ long)]
          rfl

theorem readLines_long {front : Text} (inner : newline ∉ front)
    (long : lineMax - 1 ≤ front.length) (file : Text) :
    readLines (front ++ file) =
      front.take (lineMax - 1) :: readLines (front.drop (lineMax - 1) ++ file) := by
  have read := fgets_long inner long file
  cases front with
  | nil => exact absurd long (by decide)
  | cons byte front =>
      rw [List.cons_append] at read ⊢
      rw [readLines_cons, read]

theorem readLines_short {front : Text} (inner : newline ∉ front)
    (short : front.length < lineMax - 1) (file : Text) :
    readLines (front ++ newline :: file) = (front ++ [newline]) :: readLines file := by
  have read := fgets_line inner short file
  cases start : front ++ newline :: file with
  | nil => simp at start
  | cons byte rest =>
      rw [start] at read
      rw [readLines_cons, read]

/-- Reading starts again after a newline. -/
theorem readLines_line : ∀ {front : Text}, newline ∉ front → ∀ file,
    readLines (front ++ newline :: file) =
      readLines (front ++ [newline]) ++ readLines file := by
  intro front
  induction length : front.length using Nat.strong_induction_on generalizing front with
  | _ count induction =>
      intro inner file
      rcases Nat.lt_or_ge front.length (lineMax - 1) with short | long
      · rw [readLines_short inner short, readLines_short inner short]
        rfl
      · have shorter : (front.drop (lineMax - 1)).length < count := by
          have room : lineMax - 1 = 2047 := rfl
          rw [List.length_drop]
          omega
        rw [readLines_long inner long, readLines_long inner long,
          induction _ shorter rfl (fun inside => inner (List.mem_of_mem_drop inside)) file]
        rfl

/-- The pieces of a file are those of its lines. -/
theorem readLines_textLines : ∀ file, readLines file = (textLines file).flatMap readLines := by
  intro file
  induction length : file.length using Nat.strong_induction_on generalizing file with
  | _ count induction =>
      by_cases ends : newline ∈ file
      · rcases List.eq_append_cons_of_mem ends with ⟨front, rest, rfl, inner⟩
        have shorter : rest.length < count := by
          rw [List.length_append, List.length_cons] at length
          omega
        rw [readLines_line inner, textLines_line inner, List.flatMap_cons,
          induction _ shorter rest rfl]
      · cases file with
        | nil => rfl
        | cons byte file =>
            rw [textLines_last ends, List.flatMap_singleton]

/-- The first piece of a line has the lead character of the line. -/
theorem readLines_lead (byte : BitVec 8) (line : Text) :
    ∃ piece pieces, readLines (byte :: line) = piece :: pieces ∧ leadChar piece = byte := by
  refine ⟨_, _, readLines_cons byte line, ?_⟩
  have room : lineMax - 1 = (lineMax - 2) + 1 := rfl
  rw [room, fgets]
  split
  · rfl
  · rfl

/-! ## What is written on a line -/

section Written

variable {α β : Type*} {lead : BitVec 8} {parse : Text → Option β}

/-- The rule on a line, if it has the lead character of a rule and can be parsed. -/
def writtenOn (lead : BitVec 8) (parse : Text → Option β) (line : Text) : Option β :=
  if leadChar line = lead then parse line.tail else none

/-- The pieces of each line stand for the rule on the line. -/
def PiecesAgree (lead : BitVec 8) (parse : Text → Option β) (lines : List Text) : Prop :=
  ∀ line ∈ lines, (readLines line).filterMap (writtenOn lead parse) =
    (writtenOn lead parse line).toList

/-- If no part is shorter than it should be, the parts are some of what they should be only if
they are just that. -/
theorem sublist_flatMap_iff {parts wanted : α → List β} {items : List α}
    (longer : ∀ item ∈ items, (wanted item).length ≤ (parts item).length) :
    items.flatMap parts <+ items.flatMap wanted ↔ ∀ item ∈ items, parts item = wanted item := by
  constructor
  · intro sublist
    have total : (items.flatMap wanted).length ≤ (items.flatMap parts).length := by
      rw [List.length_flatMap, List.length_flatMap]
      exact List.sum_le_sum longer
    have same := sublist.eq_of_length_le total
    clear sublist total
    induction items with
    | nil => exact fun _ impossible => absurd impossible List.not_mem_nil
    | cons item items induction =>
        rcases List.forall_mem_cons.mp longer with ⟨first, others⟩
        have rest : (items.flatMap wanted).length ≤ (items.flatMap parts).length := by
          rw [List.length_flatMap, List.length_flatMap]
          exact List.sum_le_sum others
        have lengths := congrArg List.length same
        rw [List.flatMap_cons, List.flatMap_cons, List.length_append, List.length_append] at lengths
        rcases List.append_inj same (by omega) with ⟨here, later⟩
        exact List.forall_mem_cons.mpr ⟨here, induction others later⟩
  · intro same
    rw [List.flatMap_congr same]

/-- A line of a rule has a piece of a rule. -/
theorem length_written_le (notNul : lead ≠ 0#8) {line : Text}
    (parses : ∀ piece ∈ readLines line, leadChar piece = lead → (parse piece.tail).isSome) :
    (writtenOn lead parse line).toList.length ≤
      ((readLines line).filterMap (writtenOn lead parse)).length := by
  by_cases isRule : leadChar line = lead
  · cases line with
    | nil => exact absurd isRule notNul.symm
    | cons byte line =>
        rcases readLines_lead byte line with ⟨piece, pieces, read, first⟩
        have pieceLead : leadChar piece = lead := first.trans isRule
        have inside : piece ∈ readLines (byte :: line) := by
          rw [read]
          exact List.mem_cons_self
        rcases Option.isSome_iff_exists.mp (parses piece inside pieceLead) with ⟨value, parsed⟩
        have written : writtenOn lead parse piece = some value := by
          rw [writtenOn, if_pos pieceLead, parsed]
        rw [read, List.filterMap_cons_some written, List.length_cons]
        cases writtenOn lead parse (byte :: line) with
        | none => exact Nat.zero_le _
        | some _ => exact Nat.le_add_left 1 _
  · rw [writtenOn, if_neg isRule]
    exact Nat.zero_le _

/-- What the pieces stand for is written on the lines if and only if it is so for each line. -/
theorem pieces_sublist_iff (notNul : lead ≠ 0#8) {file : Text}
    (parses : ∀ piece ∈ readLines file, leadChar piece = lead → (parse piece.tail).isSome) :
    (readLines file).filterMap (writtenOn lead parse) <+
        (textLines file).filterMap (writtenOn lead parse) ↔
      PiecesAgree lead parse (textLines file) := by
  rw [readLines_textLines file, List.filterMap_flatMap, List.filterMap_eq_flatMap_toList]
  refine sublist_flatMap_iff fun line member => length_written_le notNul ?_
  intro piece inside
  refine parses piece ?_
  rw [readLines_textLines]
  exact List.mem_flatMap.mpr ⟨line, member, inside⟩

end Written

/-! ## Comments -/

/-- A loader gets to a comment line and not past it. -/
def StopsAtComment (passes : List Text → Prop) (lines : List Text) : Prop :=
  ∃ front line behind, lines = front ++ line :: behind ∧ leadChar line = commentLeadChar ∧
    passes (front.flatMap readLines) ∧ ¬ passes ((front ++ [line]).flatMap readLines)

/-- No piece of a comment line is the first bad one, and there is room for all of them. -/
def CommentsPass (bad : Text → Prop) (room : List Text → Prop) (lines : List Text) : Prop :=
  ∀ front line behind, lines = front ++ line :: behind → leadChar line = commentLeadChar →
    (∀ piece ∈ front.flatMap readLines, ¬ bad piece) → room (front.flatMap readLines) →
    (∀ piece ∈ readLines line, ¬ bad piece) ∧ room ((front ++ [line]).flatMap readLines)

theorem not_stopsAtComment_iff {passes room : List Text → Prop} {bad : Text → Prop}
    (passes_iff : ∀ pieces, passes pieces ↔ (∀ piece ∈ pieces, ¬ bad piece) ∧ room pieces)
    (lines : List Text) : ¬ StopsAtComment passes lines ↔ CommentsPass bad room lines := by
  constructor
  · intro goesOn front line behind whole comment good fits
    by_contra fails
    refine goesOn ⟨front, line, behind, whole, comment, (passes_iff _).mpr ⟨good, fits⟩, ?_⟩
    intro passed
    rcases (passes_iff _).mp passed with ⟨allGood, room⟩
    refine fails ⟨fun piece inside => allGood piece ?_, room⟩
    rw [List.flatMap_append, List.flatMap_singleton]
    exact List.mem_append_right _ inside
  · rintro goesOn ⟨front, line, behind, whole, comment, passed, stops⟩
    rcases (passes_iff _).mp passed with ⟨good, fits⟩
    rcases goesOn front line behind whole comment good fits with ⟨lineGood, room⟩
    refine stops ((passes_iff _).mpr ⟨?_, room⟩)
    rw [List.flatMap_append, List.flatMap_singleton]
    exact List.forall_mem_append.mpr ⟨good, lineGood⟩

/-! ## The loaders of routes -/

section Routes

variable {ρ : Type} (parser : Text → ρ → Int × ρ) (zero : ρ)

/-- The route that is written in a text. -/
def parsedRoute (text : Text) : Option ρ :=
  if (parser text zero).1 = 0 then some (parser text zero).2 else none

/-- The second pass goes through these pieces. -/
def RoutesPass (routeNum : BitVec 32) (pieces : List Text) : Prop :=
  ∃ load, pieces.foldlM (RouteLoad.addLine parser routeNum) ⟨fun _ => zero, 0#32⟩ = .ok load

/-- The second pass does not stop at a comment, and what is loaded are rules of rule lines, at
most one from each. -/
structure RoutesByLine (file : Text) (outcome : Except LoadStop (LoadResult ρ)) : Prop where
  comments : BitVec.ofNat 32 (countLead routeLeadChar (readLines file)) ≠ 0#32 →
    ¬ StopsAtComment
      (RoutesPass parser zero (BitVec.ofNat 32 (countLead routeLeadChar (readLines file))))
      (textLines file)
  loaded : ∀ value rules, outcome = .ok ⟨value, some rules⟩ →
    (List.range value.toNat).map rules <+
      (textLines file).filterMap (writtenOn routeLeadChar (parsedRoute parser zero))

/-- Where the second pass is made, the pieces of comments do it no harm. Where a file is loaded,
the pieces of its lines stand for their rules. -/
structure RoutePiecesAgree (file : Text) : Prop where
  comments : countLead routeLeadChar (readLines file) % 2 ^ 32 ≠ 0 →
    CommentsPass (BadLine parser zero)
      (fun pieces => countLead routeLeadChar pieces ≤
        countLead routeLeadChar (readLines file) % 2 ^ 32) (textLines file)
  rules : countLead routeLeadChar (readLines file) < 2 ^ 31 →
    (∀ piece ∈ readLines file, ¬ BadLine parser zero piece) →
    PiecesAgree routeLeadChar (parsedRoute parser zero) (textLines file)

variable {parser zero}

theorem routesPass_iff (routeNum : BitVec 32) (pieces : List Text) :
    RoutesPass parser zero routeNum pieces ↔
      (∀ piece ∈ pieces, ¬ BadLine parser zero piece) ∧
        countLead routeLeadChar pieces ≤ routeNum.toNat := by
  have pass := RouteLoad.pass parser zero routeNum
  by_cases someBad : ∃ piece ∈ pieces, BadLine parser zero piece
  · refine iff_of_false ?_ fun accepted => ?_
    · rintro ⟨load, passed⟩
      rcases exists_first pieces someBad with ⟨front, piece, behind, rfl, good, bad⟩
      rcases pass.run_bad .nil (Nat.zero_le _) good bad with ⟨_, ran⟩ | ⟨_, _, ran, _⟩
      · exact absurd (passed.symm.trans ran) nofun
      · exact absurd (passed.symm.trans ran) nofun
    · rcases someBad with ⟨piece, inside, bad⟩
      exact accepted.1 piece inside bad
  · have good : ∀ piece ∈ pieces, ¬ BadLine parser zero piece := fun piece inside bad =>
      someBad ⟨piece, inside, bad⟩
    rcases pass.run_good .nil (Nat.zero_le _) pieces good with ⟨room, load, ran, _⟩ |
      ⟨full, _, ran, _⟩
    · exact iff_of_true ⟨load, ran⟩ ⟨good, room⟩
    · refine iff_of_false ?_ fun accepted => full accepted.2
      rintro ⟨load, passed⟩
      exact absurd (passed.symm.trans ran) nofun

theorem RoutesPass.holds {routeNum : BitVec 32} {pieces : List Text} {load : RouteLoad ρ}
    (passed : pieces.foldlM (RouteLoad.addLine parser routeNum) ⟨fun _ => zero, 0#32⟩ = .ok load) :
    load.Holds parser zero pieces := by
  have good := ((routesPass_iff routeNum pieces).mp ⟨load, passed⟩).1
  rcases (RouteLoad.pass parser zero routeNum).run_good .nil (Nat.zero_le _) pieces good with
    ⟨_, _, ran, holds⟩ | ⟨_, _, ran, _⟩
  · cases passed.symm.trans ran
    exact holds
  · exact absurd (passed.symm.trans ran) nofun

theorem parses_route {pieces : List Text}
    (good : ∀ piece ∈ pieces, ¬ BadLine parser zero piece) :
    ∀ piece ∈ pieces, leadChar piece = routeLeadChar →
      (parsedRoute parser zero piece.tail).isSome := by
  intro piece inside route
  have parsed : (parser piece.tail zero).1 = 0 := by
    by_contra failed
    exact good piece inside ⟨isBypassLine_rule (.inl route), .inr failed⟩
  rw [parsedRoute, if_pos parsed]
  rfl

theorem filterMap_routes {pieces : List Text}
    (good : ∀ piece ∈ pieces, ¬ BadLine parser zero piece) :
    pieces.filterMap (writtenOn routeLeadChar (parsedRoute parser zero)) =
      (routeLines pieces).map fun piece => (parser piece.tail zero).2 := by
  induction pieces with
  | nil => rfl
  | cons piece pieces induction =>
      have rest := induction fun other inside => good other (List.mem_cons_of_mem _ inside)
      by_cases route : leadChar piece = routeLeadChar
      · have parsed := parses_route good piece List.mem_cons_self route
        have success : (parser piece.tail zero).1 = 0 := by
          by_contra failed
          rw [parsedRoute, if_neg failed] at parsed
          cases parsed
        have written : writtenOn routeLeadChar (parsedRoute parser zero) piece =
            some (parser piece.tail zero).2 := by
          rw [writtenOn, if_pos route, parsedRoute, if_pos success]
        rw [List.filterMap_cons_some written, rest]
        simp [routeLines, route]
      · have none : writtenOn routeLeadChar (parsedRoute parser zero) piece = none := if_neg route
        rw [List.filterMap_cons_none none, rest]
        simp [routeLines, route]

/-- The array holds the routes of the pieces in their order. -/
theorem map_routeRules {pieces : List Text} {load : RouteLoad ρ}
    (holds : load.Holds parser zero pieces)
    (good : ∀ piece ∈ pieces, ¬ BadLine parser zero piece) :
    (List.range (countLead routeLeadChar pieces)).map load.routeRules =
      pieces.filterMap (writtenOn routeLeadChar (parsedRoute parser zero)) := by
  rw [filterMap_routes good]
  apply List.ext_getElem
  · rw [List.length_map, List.length_map, List.length_range, length_routeLines]
  · intro index inRange inRoutes
    rw [List.length_map] at inRoutes
    rw [List.getElem_map, List.getElem_map, List.getElem_range]
    exact holds.stores index _ (List.getElem?_eq_getElem inRoutes)

theorem finish_some_iff {ran : Except LoadStop (RouteLoad ρ)} {value : Int} {rules : Nat → ρ} :
    RouteLoad.finish ran = .ok ⟨value, some rules⟩ ↔
      ∃ load : RouteLoad ρ, ran = .ok load ∧ load.routeCnt.toInt = value ∧
        load.routeRules = rules := by
  cases ran with
  | ok load => simp [RouteLoad.finish]
  | error stop =>
      cases stop with
      | returned value => simp [RouteLoad.finish]
      | outOfBounds index => simp [RouteLoad.finish]

/-- A file is loaded if and only if the second pass is made and goes through it. -/
theorem addRules_some_iff {access : FileAccess} {file : Text} (available : access.Available file)
    {value : Int} {rules : Nat → ρ} :
    addRules parser zero access = .ok ⟨value, some rules⟩ ↔
      countLead routeLeadChar (readLines file) % 2 ^ 32 ≠ 0 ∧
      ∃ load : RouteLoad ρ,
        (readLines file).foldlM (RouteLoad.addLine parser
          (BitVec.ofNat 32 (countLead routeLeadChar (readLines file)))) ⟨fun _ => zero, 0#32⟩ =
            .ok load ∧
        load.routeCnt.toInt = value ∧ load.routeRules = rules := by
  by_cases wrapped : countLead routeLeadChar (readLines file) % 2 ^ 32 = 0
  · rw [addRules_of_wrapped available.opens wrapped]
    exact iff_of_false nofun fun made => made.1 wrapped
  · rw [addRules_of_routes available.opens available.seeks available.memory wrapped,
      and_iff_right wrapped]
    exact finish_some_iff

/-- The loaders of routes go by lines if and only if the pieces of the lines do. -/
theorem addRules_byLine_iff {access : FileAccess} {file : Text}
    (available : access.Available file) :
    RoutesByLine parser zero file (addRules parser zero access) ↔
      RoutePiecesAgree parser zero file := by
  have notNul : routeLeadChar ≠ 0#8 := by decide
  have number : (BitVec.ofNat 32 (countLead routeLeadChar (readLines file))).toNat =
      countLead routeLeadChar (readLines file) % 2 ^ 32 := BitVec.toNat_ofNat _ _
  have made : BitVec.ofNat 32 (countLead routeLeadChar (readLines file)) ≠ 0#32 ↔
      countLead routeLeadChar (readLines file) % 2 ^ 32 ≠ 0 := by
    rw [← number, ← BitVec.toNat_inj.ne]
    rfl
  have through := not_stopsAtComment_iff (@routesPass_iff ρ parser zero
    (BitVec.ofNat 32 (countLead routeLeadChar (readLines file)))) (textLines file)
  rw [number] at through
  constructor
  · intro byLine
    refine ⟨fun notZero => through.mp (byLine.comments (made.mpr notZero)), fun small good => ?_⟩
    rw [← pieces_sublist_iff notNul (parses_route good)]
    by_cases none : countLead routeLeadChar (readLines file) = 0
    · have noRoutes : routeLines (readLines file) = [] := by
        rw [← List.length_eq_zero_iff, length_routeLines, none]
      rw [filterMap_routes good, noRoutes]
      exact List.nil_sublist _
    · have exactNumber : countLead routeLeadChar (readLines file) % 2 ^ 32 =
          countLead routeLeadChar (readLines file) := Nat.mod_eq_of_lt (by omega)
      rcases (routesPass_iff
        (BitVec.ofNat 32 (countLead routeLeadChar (readLines file))) _).mpr
          ⟨good, by rw [number, exactNumber]⟩ with ⟨load, passed⟩
      have holds := RoutesPass.holds passed
      have loaded := byLine.loaded _ _ ((addRules_some_iff available).mpr
        ⟨by rw [exactNumber]; exact none, load, passed, rfl, rfl⟩)
      have value : load.routeCnt.toInt.toNat = countLead routeLeadChar (readLines file) := by
        rw [BitVec.toInt_eq_toNat_of_lt (by rw [holds.routeCnt]; omega), holds.routeCnt]
        rfl
      rw [value, map_routeRules holds good] at loaded
      exact loaded
  · intro agree
    refine ⟨fun notZero => through.mpr (agree.comments (made.mp notZero)), ?_⟩
    intro value rules accepted
    rcases (addRules_some_iff available).mp accepted with ⟨_, load, passed, rfl, rfl⟩
    have holds := RoutesPass.holds passed
    have good := ((routesPass_iff _ _).mp ⟨load, passed⟩).1
    rcases Nat.lt_or_ge (countLead routeLeadChar (readLines file)) (2 ^ 31) with small | large
    · have value : load.routeCnt.toInt.toNat = countLead routeLeadChar (readLines file) := by
        rw [BitVec.toInt_eq_toNat_of_lt (by rw [holds.routeCnt]; omega), holds.routeCnt]
        rfl
      rw [value, map_routeRules holds good]
      exact (pieces_sublist_iff notNul (parses_route good)).mpr (agree.rules small good)
    · have negative : load.routeCnt.toInt.toNat = 0 := by
        have isLarge := holds.routeCnt
        have bound := load.routeCnt.isLt
        rw [BitVec.toInt_eq_toNat_cond, if_neg (by omega)]
        omega
      rw [negative]
      exact List.nil_sublist _

end Routes

/-! ## The loader of access control rules -/

section Acl

variable {φ : Type} (mask : BitVec 32) (parser : RuleParser φ)

/-- The fields and the user data of the route that is written in a text. -/
def parsedAclRoute (text : Text) : Option (φ × BitVec 32) :=
  (parser text true).map fun parsed => (parsed.1, parsed.2 + fwdPortShift)

/-- The fields of the denial that is written in a text. -/
def parsedAcl (text : Text) : Option φ :=
  (parser text false).map Prod.fst

/-- The second pass goes through these pieces. -/
def AclPass (pieces : List Text) : Prop :=
  ∃ load, pieces.foldlM (AclLoad.addLine mask parser) ⟨[], [], 0⟩ = some load

/-- The second pass does not stop at a comment, and what is loaded are rules of rule lines, at
most one from each. -/
structure AclByLine (file : Text) (outcome : Option (AclRules φ)) : Prop where
  comments : countLead routeLeadChar (readLines file) ≠ 0 →
    ¬ StopsAtComment (AclPass mask parser) (textLines file)
  routes : ∀ rules, outcome = some rules →
    rules.routeBase.map (fun rule => (rule.field, rule.userdata)) <+
      (textLines file).filterMap (writtenOn routeLeadChar (parsedAclRoute parser))
  acls : ∀ rules, outcome = some rules →
    rules.aclBase.map AclRule.field <+
      (textLines file).filterMap (writtenOn aclLeadChar (parsedAcl parser))

/-- The pieces of comments do no harm, and where a file is loaded, the pieces of its lines stand
for their rules. -/
structure AclPiecesAgree (file : Text) : Prop where
  comments : countLead routeLeadChar (readLines file) ≠ 0 →
    CommentsPass (BadAclLine mask parser) (fun _ => True) (textLines file)
  rules : countLead routeLeadChar (readLines file) ≠ 0 →
    (∀ piece ∈ readLines file, ¬ BadAclLine mask parser piece) →
    PiecesAgree routeLeadChar (parsedAclRoute parser) (textLines file) ∧
      PiecesAgree aclLeadChar (parsedAcl parser) (textLines file)

variable {mask parser}

/-- What a line adds to the lists. -/
structure AclLoad.Adds (parser : RuleParser φ) (load : AclLoad φ) (pieces : List Text)
    (next : AclLoad φ) : Prop where
  routes : next.routeRules.map (fun rule => (rule.field, rule.userdata)) =
    load.routeRules.map (fun rule => (rule.field, rule.userdata)) ++
      pieces.filterMap (writtenOn routeLeadChar (parsedAclRoute parser))
  acls : next.aclRules.map AclRule.field =
    load.aclRules.map AclRule.field ++ pieces.filterMap (writtenOn aclLeadChar (parsedAcl parser))

theorem AclLoad.addLine_adds {piece : Text} (good : ¬ BadAclLine mask parser piece)
    (load : AclLoad φ) :
    ∃ next, load.addLine mask parser piece = some next ∧ load.Adds parser [piece] next := by
  have different : aclLeadChar ≠ routeLeadChar := by decide
  rcases AclLoad.addLine_good good load with ⟨route, field, userdata, parsed, added⟩ |
    ⟨acl, field, userdata, parsed, added⟩ | ⟨notRoute, notAcl, added⟩
  · refine ⟨_, added, ?_, ?_⟩
    · simp [AclLoad.addRoute, writtenOn, route, parsedAclRoute, parsed]
    · simp [AclLoad.addRoute, writtenOn, route, different.symm]
  · refine ⟨_, added, ?_, ?_⟩
    · simp [AclLoad.addAcl, writtenOn, acl, different]
    · simp [AclLoad.addAcl, writtenOn, acl, parsedAcl, parsed]
  · refine ⟨_, added, ?_, ?_⟩
    · simp [writtenOn, notRoute]
    · simp [writtenOn, notAcl]

theorem AclLoad.Adds.append {load middle next : AclLoad φ} {pieces more : List Text}
    (first : load.Adds parser pieces middle) (second : middle.Adds parser more next) :
    load.Adds parser (pieces ++ more) next where
  routes := by rw [second.routes, first.routes, List.filterMap_append, List.append_assoc]
  acls := by rw [second.acls, first.acls, List.filterMap_append, List.append_assoc]

/-- The pass goes through a list of pieces if and only if none is bad, and it adds what is
written on them. -/
theorem AclLoad.foldlM_good : ∀ (pieces : List Text) (load : AclLoad φ),
    (∀ piece ∈ pieces, ¬ BadAclLine mask parser piece) →
    ∃ next, pieces.foldlM (AclLoad.addLine mask parser) load = some next ∧
      load.Adds parser pieces next := by
  intro pieces
  induction pieces with
  | nil => exact fun load _ => ⟨load, rfl, by simp, by simp⟩
  | cons piece pieces induction =>
      intro load good
      rcases List.forall_mem_cons.mp good with ⟨first, others⟩
      rcases AclLoad.addLine_adds first load with ⟨middle, added, adds⟩
      rcases induction middle others with ⟨next, rest, addsRest⟩
      refine ⟨next, ?_, adds.append addsRest⟩
      rw [List.foldlM_cons, added]
      exact rest

theorem aclPass_iff (pieces : List Text) :
    AclPass mask parser pieces ↔
      (∀ piece ∈ pieces, ¬ BadAclLine mask parser piece) ∧ True := by
  rw [and_true]
  constructor
  · rintro ⟨load, passed⟩ piece member bad
    rw [AclLoad.foldlM_bad pieces _ ⟨piece, member, bad⟩] at passed
    cases passed
  · intro good
    rcases AclLoad.foldlM_good pieces ⟨[], [], 0⟩ good with ⟨next, passed, _⟩
    exact ⟨next, passed⟩

theorem parses_aclRoute {pieces : List Text}
    (good : ∀ piece ∈ pieces, ¬ BadAclLine mask parser piece) :
    ∀ piece ∈ pieces, leadChar piece = routeLeadChar →
      (parsedAclRoute parser piece.tail).isSome := by
  intro piece member route
  rw [parsedAclRoute, Option.isSome_map]
  by_contra failed
  refine good piece member ⟨isBypassLine_rule (.inl route), ?_, ?_⟩
  · intro _ field userdata parsed
    rw [parsed] at failed
    exact absurd rfl failed
  · intro acl
    rw [route] at acl
    exact absurd acl (by decide)

theorem parses_acl {pieces : List Text}
    (good : ∀ piece ∈ pieces, ¬ BadAclLine mask parser piece) :
    ∀ piece ∈ pieces, leadChar piece = aclLeadChar → (parsedAcl parser piece.tail).isSome := by
  intro piece member acl
  rw [parsedAcl, Option.isSome_map]
  by_contra failed
  refine good piece member ⟨isBypassLine_rule (.inr acl), ?_, fun _ => by simpa using failed⟩
  intro route
  rw [acl] at route
  exact absurd route (by decide)

/-- Where the program exits, only comments count. -/
theorem aclByLine_exits {file : Text}
    (comments : countLead routeLeadChar (readLines file) ≠ 0 →
      ¬ StopsAtComment (AclPass mask parser) (textLines file)) :
    AclByLine mask parser file none where
  comments := comments
  routes := by
    intro rules impossible
    cases impossible
  acls := by
    intro rules impossible
    cases impossible

/-- The loader of access control rules goes by lines if and only if the pieces of the lines
do. -/
theorem aclAddRules_byLine_iff (file : Text) :
    AclByLine mask parser file (aclAddRules mask parser file) ↔
      AclPiecesAgree mask parser file := by
  have through := not_stopsAtComment_iff (@aclPass_iff φ mask parser) (textLines file)
  by_cases none : countLead routeLeadChar (readLines file) = 0
  · rw [aclAddRules_exits (.inl none)]
    exact iff_of_true (aclByLine_exits fun some => absurd none some)
      ⟨fun some => absurd none some, fun some => absurd none some⟩
  · by_cases good : ∀ piece ∈ readLines file, ¬ BadAclLine mask parser piece
    · rcases AclLoad.foldlM_good (readLines file) ⟨[], [], 0⟩ good with ⟨load, passed, adds⟩
      have loaded : aclAddRules mask parser file =
          some ⟨load.routeRules, load.routeRules.length, load.aclRules,
            countLead aclLeadChar (readLines file)⟩ := by
        rw [aclAddRules, if_neg none, passed]
        rfl
      have routes := pieces_sublist_iff (by decide) (parses_aclRoute good)
      have acls := pieces_sublist_iff (by decide) (parses_acl good)
      have ofRoutes := adds.routes
      have ofAcls := adds.acls
      rw [List.map_nil, List.nil_append] at ofRoutes ofAcls
      rw [← ofRoutes] at routes
      rw [← ofAcls] at acls
      rw [loaded]
      constructor
      · intro byLine
        exact ⟨fun some => through.mp (byLine.comments some), fun _ _ =>
          ⟨routes.mp (byLine.routes _ rfl), acls.mp (byLine.acls _ rfl)⟩⟩
      · intro agree
        have both := agree.rules none good
        refine ⟨fun some => through.mpr (agree.comments some), ?_, ?_⟩
        · rintro rules ⟨rfl⟩
          exact routes.mpr both.1
        · rintro rules ⟨rfl⟩
          exact acls.mpr both.2
    · have someBad : ∃ piece ∈ readLines file, BadAclLine mask parser piece := by
        by_contra noneBad
        exact good fun piece member bad => noneBad ⟨piece, member, bad⟩
      rw [aclAddRules_exits (.inr someBad)]
      constructor
      · intro byLine
        exact ⟨fun some => through.mp (byLine.comments some), fun _ allGood => absurd allGood good⟩
      · intro agree
        exact aclByLine_exits fun some => through.mpr (agree.comments some)

end Acl

/-! ## Lines that fit -/

theorem textLines_lines {lines : List Text} (each : ∀ line ∈ lines, IsLine line) :
    textLines lines.flatten = lines := by
  induction lines with
  | nil => rfl
  | cons line lines induction =>
      rcases List.forall_mem_cons.mp each with ⟨first, others⟩
      rcases first.ends with ⟨front, rfl, inner⟩
      rw [List.flatten_cons, List.append_assoc, List.singleton_append, textLines_line inner,
        induction others]

theorem readLines_isLine {line : Text} (isLine : IsLine line) : readLines line = [line] := by
  have single := readLines_lines (List.forall_mem_singleton.mpr isLine)
  rw [List.flatten_singleton] at single
  exact single

theorem isBypassLine_comment {line : Text} (comment : leadChar line = commentLeadChar) :
    isBypassLine line = true := by
  rw [isBypassLine, comment, beq_self_eq_true, Bool.true_or]

theorem commentsPass_of_lines {lines : List Text} (each : ∀ line ∈ lines, IsLine line)
    {bad : Text → Prop} {room : List Text → Prop}
    (bypass : ∀ line, isBypassLine line = true → ¬ bad line)
    (more : ∀ pieces line, leadChar line = commentLeadChar → room pieces →
      room (pieces ++ [line])) : CommentsPass bad room lines := by
  intro front line behind whole comment _ fits
  have isLine : IsLine line := by
    refine each line ?_
    rw [whole]
    exact List.mem_append_right _ List.mem_cons_self
  rw [List.flatMap_append, List.flatMap_singleton, readLines_isLine isLine]
  refine ⟨?_, more _ line comment fits⟩
  intro piece member
  rw [List.mem_singleton.mp member]
  exact bypass line (isBypassLine_comment comment)

theorem piecesAgree_of_lines {β : Type*} {lines : List Text} (each : ∀ line ∈ lines, IsLine line)
    (lead : BitVec 8) (parse : Text → Option β) : PiecesAgree lead parse lines := by
  intro line member
  rw [readLines_isLine (each line member)]
  cases written : writtenOn lead parse line with
  | none => simp [written]
  | some value => simp [written]

/-- Where each line fits the buffer, the pieces are the lines. -/
theorem routePiecesAgree_of_lines {ρ : Type} (parser : Text → ρ → Int × ρ) (zero : ρ)
    {lines : List Text} (each : ∀ line ∈ lines, IsLine line) :
    RoutePiecesAgree parser zero lines.flatten where
  comments := by
    intro _
    rw [textLines_lines each]
    refine commentsPass_of_lines each ?_ ?_
    · intro line bypass bad
      rw [bad.1] at bypass
      cases bypass
    · intro pieces line comment fits
      have notRoute : leadChar line ≠ routeLeadChar := by
        rw [comment]
        decide
      rw [countLead_snoc, if_neg notRoute]
      exact fits
  rules := by
    intro _ _
    rw [textLines_lines each]
    exact piecesAgree_of_lines each _ _

theorem aclPiecesAgree_of_lines {φ : Type} (mask : BitVec 32) (parser : RuleParser φ)
    {lines : List Text} (each : ∀ line ∈ lines, IsLine line) :
    AclPiecesAgree mask parser lines.flatten where
  comments := by
    intro _
    rw [textLines_lines each]
    refine commentsPass_of_lines each ?_ fun _ _ _ _ => trivial
    intro line bypass bad
    rw [bad.1] at bypass
    cases bypass
  rules := by
    intro _ _
    rw [textLines_lines each]
    exact ⟨piecesAgree_of_lines each _ _, piecesAgree_of_lines each _ _⟩

/-! ## All loaders -/

/-- The loaders go by the lines of a file if and only if the pieces of the lines do. -/
theorem loaders_byLine_iff (access : FileAccess) (file : Text)
    (available : access.Available file) :
    (∀ (ρ : Type) (parser : Text → ρ → Int × ρ) (zero : ρ),
      RoutesByLine parser zero file (lpmAddRules parser zero access) ↔
        RoutePiecesAgree parser zero file) ∧
    (∀ (ρ : Type) (parser : Text → ρ → Int × ρ) (zero : ρ),
      RoutesByLine parser zero file (emAddRules parser zero access) ↔
        RoutePiecesAgree parser zero file) ∧
    ∀ (φ : Type) (mask : BitVec 32) (parser : RuleParser φ),
      AclByLine mask parser file (aclAddRules mask parser file) ↔
        AclPiecesAgree mask parser file :=
  ⟨fun _ _ _ => addRules_byLine_iff available, fun _ _ _ => addRules_byLine_iff available,
    fun _ _ _ => aclAddRules_byLine_iff file⟩

/-- A file of a comment and a route. -/
theorem loaders_byLine_small :
    RoutesByLine (emParseV4Rule quadInet) zeroV4Rule [ascii "# one\n", emRouteLine].flatten
      (emAddRules (emParseV4Rule quadInet) zeroV4Rule
        (fileOf [ascii "# one\n", emRouteLine].flatten)) := by
  refine ((loaders_byLine_iff _ _ ⟨rfl, rfl, fun _ => rfl⟩).2.1 _ _ _).mpr
    (routePiecesAgree_of_lines _ _ ?_)
  refine List.forall_mem_cons.mpr ⟨⟨⟨ascii "# one", by decide, by decide⟩, by decide⟩, ?_⟩
  exact List.forall_mem_singleton.mpr isLine_emRouteLine

/-- So much of a comment as fits the buffer. -/
def fullComment : Text :=
  commentLeadChar :: List.replicate 2046 120#8

theorem fullComment_inner : newline ∉ fullComment := by
  intro member
  rcases List.mem_cons.mp member with lead | other
  · exact absurd lead (by decide)
  · exact absurd (List.eq_of_mem_replicate other) (by decide)

theorem length_fullComment : fullComment.length = lineMax - 1 := by
  rw [fullComment, List.length_cons, List.length_replicate]
  rfl

/-- What follows is read like the start of a line. -/
theorem readLines_fullComment (file : Text) :
    readLines (fullComment ++ file) = fullComment :: readLines file := by
  have read := readLines_long fullComment_inner (Nat.le_of_eq length_fullComment.symm) file
  rw [← length_fullComment, List.take_length, List.drop_length] at read
  exact read

/-- The only line of the file is a comment, and a route is loaded from it. -/
theorem loaders_byLine_comment :
    textLines (fullComment ++ emRouteLine) = [fullComment ++ emRouteLine] ∧
    (∃ rules, emAddRules (emParseV4Rule quadInet) zeroV4Rule
      (fileOf (fullComment ++ emRouteLine)) = .ok ⟨1, some rules⟩) ∧
    ¬ RoutesByLine (emParseV4Rule quadInet) zeroV4Rule (fullComment ++ emRouteLine)
      (emAddRules (emParseV4Rule quadInet) zeroV4Rule (fileOf (fullComment ++ emRouteLine))) := by
  have pieces : readLines (fullComment ++ emRouteLine) = [fullComment, emRouteLine] := by
    rw [readLines_fullComment, readLines_isLine isLine_emRouteLine]
  have one : countLead routeLeadChar [fullComment, emRouteLine] = 1 := rfl
  have good : ∀ piece ∈ [fullComment, emRouteLine],
      ¬ BadLine (emParseV4Rule quadInet) zeroV4Rule piece := by
    refine List.forall_mem_cons.mpr ⟨?_, List.forall_mem_singleton.mpr emRouteLine_good⟩
    intro bad
    have bypass := bad.1
    rw [isBypassLine_comment rfl] at bypass
    cases bypass
  rcases (routesPass_iff (BitVec.ofNat 32 1) _).mpr ⟨good, by decide⟩ with ⟨load, passed⟩
  have holds := RoutesPass.holds passed
  have loaded : emAddRules (emParseV4Rule quadInet) zeroV4Rule
      (fileOf (fullComment ++ emRouteLine)) = .ok ⟨1, some load.routeRules⟩ := by
    refine (addRules_some_iff ⟨rfl, rfl, fun _ => rfl⟩).mpr ?_
    rw [pieces, one]
    refine ⟨by decide, load, passed, ?_, rfl⟩
    have cnt : load.routeCnt = 1#32 := BitVec.eq_of_toNat_eq holds.routeCnt
    rw [cnt]
    decide
  have lines : textLines (fullComment ++ emRouteLine) = [fullComment ++ emRouteLine] := by
    rcases isLine_emRouteLine.ends with ⟨front, ends, inner⟩
    have inner' : newline ∉ fullComment ++ front := by
      intro member
      rcases List.mem_append.mp member with comment | route
      · exact fullComment_inner comment
      · exact inner route
    rw [ends, ← List.append_assoc, textLines_line inner' []]
    rfl
  refine ⟨lines, ⟨_, loaded⟩, fun byLine => ?_⟩
  have none : writtenOn routeLeadChar (parsedRoute (emParseV4Rule quadInet) zeroV4Rule)
      (fullComment ++ emRouteLine) = Option.none :=
    if_neg (by decide : commentLeadChar ≠ routeLeadChar)
  have sublist := (byLine.loaded _ _ loaded).length_le
  rw [lines, List.filterMap_cons_none none, List.length_map, List.length_range] at sublist
  exact absurd sublist (by decide)

end PacketForwarding.L3fwd
