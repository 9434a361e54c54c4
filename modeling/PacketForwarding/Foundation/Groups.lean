import Mathlib

/-! # Groups between delimiters

A string has groups if every element that opens one is followed by one that closes it. What
opens a group does not open another one inside it. A scanner that looks for the two
elements in turn reads every group once, in order.
-/

namespace PacketForwarding.Groups

section Cuts

variable {σ : Type*} {delim : σ}

/-- There is one way to cut a string at the first delimiter. -/
theorem cut_unique {front other behind rest : List σ} (notFront : delim ∉ front)
    (notOther : delim ∉ other) (same : front ++ delim :: behind = other ++ delim :: rest) :
    front = other ∧ behind = rest := by
  induction front generalizing other with
  | nil =>
      cases other with
      | nil => exact ⟨rfl, (List.cons.inj same).2⟩
      | cons head tail =>
          have first := (List.cons.inj same).1
          exact absurd (first ▸ List.mem_cons_self) notOther
  | cons head tail induction =>
      cases other with
      | nil =>
          have first := (List.cons.inj same).1
          exact absurd (first ▸ List.mem_cons_self) notFront
      | cons otherHead otherTail =>
          rcases List.cons.inj same with ⟨sameHead, sameTail⟩
          rcases induction
            (fun member => notFront (List.mem_cons_of_mem _ member))
            (fun member => notOther (List.mem_cons_of_mem _ member)) sameTail with
            ⟨sameFront, sameBehind⟩
          exact ⟨by rw [sameHead, sameFront], sameBehind⟩

variable [DecidableEq σ]

/-- The string from the first such element on. -/
def startingAt (delim : σ) (s : List σ) : Option (List σ) :=
  match s.dropWhile fun other => other != delim with
  | [] => none
  | found => some found

theorem startingAt_append {front : List σ} (notFront : delim ∉ front) (behind : List σ) :
    startingAt delim (front ++ delim :: behind) = some (delim :: behind) := by
  have different : ∀ other ∈ front, (other != delim) = true := by
    intro other member
    exact bne_iff_ne.mpr fun same => notFront (same ▸ member)
  rw [startingAt, List.dropWhile_append_of_pos different,
    List.dropWhile_cons_of_neg (by rw [bne_self_eq_false]; exact Bool.false_ne_true)]

theorem startingAt_none {s : List σ} (absent : delim ∉ s) : startingAt delim s = none := by
  have nothing : s.dropWhile (fun other => other != delim) = [] := by
    apply List.dropWhile_eq_nil_iff.mpr
    intro other member
    exact bne_iff_ne.mpr fun same => absent (same ▸ member)
  rw [startingAt, nothing]

theorem takeWhile_append_delim {front : List σ} (notFront : delim ∉ front) (behind : List σ) :
    (front ++ delim :: behind).takeWhile (fun other => other != delim) = front := by
  have different : ∀ other ∈ front, (other != delim) = true := by
    intro other member
    exact bne_iff_ne.mpr fun same => notFront (same ▸ member)
  rw [List.takeWhile_append_of_pos different,
    List.takeWhile_cons_of_neg (by rw [bne_self_eq_false]; exact Bool.false_ne_true),
    List.append_nil]

end Cuts

/-! ## Groups -/

section Grouped

variable {σ : Type*} (opening closing : σ)

/-- The texts of the groups of a string, in order. -/
inductive Grouped : List σ → List (List σ) → Prop
  | done {outside : List σ} : opening ∉ outside → Grouped outside []
  | group {outside text rest : List σ} {texts : List (List σ)} :
      opening ∉ outside → closing ∉ text → Grouped rest texts →
      Grouped (outside ++ opening :: (text ++ closing :: rest)) (text :: texts)

variable {opening closing} {s outside text behind rest : List σ} {texts others : List (List σ)}

theorem grouped_outside (absent : opening ∉ s) : Grouped opening closing s texts ↔ texts = [] := by
  constructor
  · intro grouped
    cases grouped with
    | done => rfl
    | group => exact absurd (List.mem_append_right _ List.mem_cons_self) absent
  · rintro rfl
    exact .done absent

/-- What is open must be closed. -/
theorem Grouped.closed (grouped : Grouped opening closing (outside ++ opening :: behind) texts)
    (notOutside : opening ∉ outside) : closing ∈ behind := by
  generalize whole : outside ++ opening :: behind = s at grouped
  cases grouped with
  | done absent =>
      rw [← whole] at absent
      exact absurd (List.mem_append_right _ List.mem_cons_self) absent
  | group notOther _ _ =>
      rw [(cut_unique notOutside notOther whole).2]
      exact List.mem_append_right _ List.mem_cons_self

theorem grouped_group (notOutside : opening ∉ outside) (notText : closing ∉ text) :
    Grouped opening closing (outside ++ opening :: (text ++ closing :: rest)) texts ↔
      ∃ others, texts = text :: others ∧ Grouped opening closing rest others := by
  constructor
  · intro grouped
    generalize whole : outside ++ opening :: (text ++ closing :: rest) = s at grouped
    cases grouped with
    | done absent =>
        rw [← whole] at absent
        exact absurd (List.mem_append_right _ List.mem_cons_self) absent
    | group notOther notOtherText grouped =>
        rcases cut_unique notText notOtherText
          (cut_unique notOutside notOther whole).2 with ⟨rfl, rfl⟩
        exact ⟨_, rfl, grouped⟩
  · rintro ⟨others, rfl, grouped⟩
    exact .group notOutside notText grouped

/-- A group at the start of the string. -/
theorem grouped_next (text rest : List σ) (notText : closing ∉ text)
    (grouped : Grouped opening closing rest texts) :
    Grouped opening closing (opening :: (text ++ closing :: rest)) (text :: texts) :=
  .group List.not_mem_nil notText grouped

theorem Grouped.unique (grouped : Grouped opening closing s texts)
    (again : Grouped opening closing s others) : texts = others := by
  induction grouped generalizing others with
  | done absent => exact ((grouped_outside absent).mp again).symm
  | group notOutside notText _ induction =>
      rcases (grouped_group notOutside notText).mp again with ⟨rest, rfl, restAgain⟩
      rw [induction restAgain]

/-- An element outside of the groups does not matter. -/
theorem grouped_cons {element : σ} (outsideElement : element ≠ opening) :
    Grouped opening closing (element :: s) texts ↔ Grouped opening closing s texts := by
  have notIn {list : List σ} : opening ∉ element :: list ↔ opening ∉ list := by
    rw [List.mem_cons, not_or]
    exact and_iff_right outsideElement.symm
  constructor
  · intro grouped
    generalize whole : element :: s = list at grouped
    cases grouped with
    | done absent =>
        rw [← whole] at absent
        exact .done (notIn.mp absent)
    | @group outside text rest texts notOutside notText grouped =>
        cases outside with
        | nil => exact absurd (List.cons.inj whole).1 outsideElement
        | cons head tail =>
            rcases List.cons.inj whole with ⟨rfl, rfl⟩
            exact .group (notIn.mp notOutside) notText grouped
  · intro grouped
    cases grouped with
    | done absent => exact .done (notIn.mpr absent)
    | group notOutside notText grouped =>
        rw [← List.cons_append]
        exact .group (notIn.mpr notOutside) notText grouped

end Grouped

/-! ## Lists side by side -/

section Sides

variable {α β : Type*} {R S : α → β → Prop}

theorem exists_forall₂ {list : List α} (related : ∀ x ∈ list, ∃ y, R x y) :
    ∃ others, List.Forall₂ R list others := by
  induction list with
  | nil => exact ⟨[], .nil⟩
  | cons head tail induction =>
      rcases related head List.mem_cons_self with ⟨other, first⟩
      rcases induction fun x member => related x (List.mem_cons_of_mem _ member) with ⟨others, rest⟩
      exact ⟨other :: others, .cons first rest⟩

theorem forall₂_and_of_mem {list : List α} {others : List β} (first : List.Forall₂ R list others)
    (second : List.Forall₂ S list others) {x : α} (member : x ∈ list) : ∃ y, R x y ∧ S x y := by
  induction first with
  | nil => cases member
  | cons related _ induction =>
      cases second with
      | cons alsoRelated second =>
          rcases List.mem_cons.mp member with rfl | member
          · exact ⟨_, related, alsoRelated⟩
          · exact induction second member

end Sides

/-! ## The scanner -/

section Scan

variable {σ : Type*} [DecidableEq σ] (opening closing : σ) {α : Type*} (limit : Nat)
  (read : List σ → Option α)

/-- Look for a group, read it and go on where it is closed. Every round moves forward, so the
length of the string bounds the rounds. There may be so many groups at most. -/
def scan : Nat → List σ → List α → Option (List α)
  | 0, _, entries => some entries
  | fuel + 1, s, entries =>
      match startingAt opening s with
      | none => some entries
      | some found =>
          match startingAt closing found.tail with
          | none => none
          | some rest => do
              let entry ← read (found.tail.takeWhile fun other => other != closing)
              if limit ≤ entries.length then none
              else scan fuel rest (entries ++ [entry])

/-- An entry is what is read from the text of a group. -/
def Reads (text : List σ) (entry : α) : Prop := read text = some entry

variable {opening closing limit read} {fuel : Nat} {entries : List α}
  {s outside text behind rest : List σ}

theorem scan_outside (absent : opening ∉ s) :
    scan opening closing limit read (fuel + 1) s entries = some entries := by
  rw [scan, startingAt_none absent]

theorem scan_open (notOutside : opening ∉ outside) (absent : closing ∉ behind) :
    scan opening closing limit read (fuel + 1) (outside ++ opening :: behind) entries = none := by
  rw [scan, startingAt_append notOutside]
  dsimp only
  rw [List.tail_cons, startingAt_none absent]

theorem scan_group (notOutside : opening ∉ outside) (notText : closing ∉ text) :
    scan opening closing limit read (fuel + 1) (outside ++ opening :: (text ++ closing :: rest))
        entries =
      (read text).bind fun entry =>
        if limit ≤ entries.length then none
        else scan opening closing limit read fuel (closing :: rest) (entries ++ [entry]) := by
  rw [scan, startingAt_append notOutside]
  dsimp only
  rw [List.tail_cons, startingAt_append notText, takeWhile_append_delim notText]
  rfl

variable (opening closing limit read) in
/-- The entries of the groups are added, and there is room for them. -/
def Adds (s : List σ) (entries result : List α) : Prop :=
  ∃ texts added, Grouped opening closing s texts ∧ List.Forall₂ (Reads read) texts added ∧
    result = entries ++ added ∧ result.length ≤ limit

omit [DecidableEq σ] in
theorem adds_outside {s : List σ} {result : List α} (absent : opening ∉ s)
    (few : entries.length ≤ limit) :
    Adds opening closing limit read s entries result ↔ some entries = some result := by
  constructor
  · rintro ⟨texts, added, grouped, entryOf, rfl, _⟩
    rcases (grouped_outside absent).mp grouped with rfl
    cases entryOf
    rw [List.append_nil]
  · intro same
    cases same
    exact ⟨[], [], .done absent, .nil, (List.append_nil _).symm, few⟩

omit [DecidableEq σ] in
theorem not_adds_open {result : List α} (notOutside : opening ∉ outside)
    (absent : closing ∉ behind) :
    ¬ Adds opening closing limit read (outside ++ opening :: behind) entries result := by
  rintro ⟨texts, added, grouped, _⟩
  exact absent (grouped.closed notOutside)

omit [DecidableEq σ] in
/-- The entry of the first group comes first. -/
theorem adds_group {result : List α} (apart : closing ≠ opening) (notOutside : opening ∉ outside)
    (notText : closing ∉ text) :
    Adds opening closing limit read (outside ++ opening :: (text ++ closing :: rest)) entries
        result ↔
      ∃ entry, read text = some entry ∧ entries.length < limit ∧
        Adds opening closing limit read (closing :: rest) (entries ++ [entry]) result := by
  constructor
  · rintro ⟨texts, added, grouped, entryOf, rfl, below⟩
    rcases (grouped_group notOutside notText).mp grouped with ⟨others, rfl, restGrouped⟩
    cases entryOf with
    | @cons _ entry _ added isRead entryOf =>
        have more : entries.length < limit := by
          simp only [List.length_append, List.length_cons] at below
          omega
        refine ⟨entry, isRead, more, others, added, (grouped_cons apart).mpr restGrouped, entryOf,
          ?_, below⟩
        rw [List.append_assoc, List.singleton_append]
  · rintro ⟨entry, isRead, _, texts, added, grouped, entryOf, rfl, below⟩
    refine ⟨text :: texts, entry :: added, ?_, .cons isRead entryOf, ?_, below⟩
    · exact .group notOutside notText ((grouped_cons apart).mp grouped)
    · rw [List.append_assoc, List.singleton_append]

/-- The scanner returns one entry for each group of the string. -/
theorem scan_eq_some (apart : closing ≠ opening) :
    ∀ {fuel : Nat} {s : List σ} {entries result : List α}, s.length ≤ fuel →
      entries.length ≤ limit →
      (scan opening closing limit read fuel s entries = some result ↔
        ∃ texts added, Grouped opening closing s texts ∧ List.Forall₂ (Reads read) texts added ∧
          result = entries ++ added ∧ result.length ≤ limit) := by
  intro fuel
  induction fuel with
  | zero =>
      intro s entries result short few
      have empty : s = [] := List.eq_nil_of_length_eq_zero (Nat.le_zero.mp short)
      subst empty
      exact (adds_outside List.not_mem_nil few).symm
  | succ fuel induction =>
      intro s entries result short few
      by_cases opens : opening ∈ s
      · rcases List.eq_append_cons_of_mem opens with ⟨outside, behind, rfl, notOutside⟩
        by_cases closes : closing ∈ behind
        · rcases List.eq_append_cons_of_mem closes with ⟨text, rest, rfl, notText⟩
          have shorter : (closing :: rest).length ≤ fuel := by
            simp only [List.length_append, List.length_cons] at short ⊢
            omega
          refine Iff.trans ?_ (adds_group apart notOutside notText).symm
          rw [scan_group notOutside notText, Option.bind_eq_some_iff]
          refine exists_congr fun entry => and_congr_right fun _ => ?_
          by_cases more : entries.length < limit
          · have room : (entries ++ [entry]).length ≤ limit := by
              rw [List.length_append, List.length_singleton]
              omega
            rw [if_neg (Nat.not_le_of_lt more), and_iff_right more]
            exact induction shorter room
          · rw [if_pos (Nat.le_of_not_lt more)]
            exact iff_of_false nofun fun both => more both.1
        · rw [scan_open notOutside closes]
          exact iff_of_false nofun (not_adds_open notOutside closes)
      · rw [scan_outside opens]
        exact (adds_outside opens few).symm

end Scan

end PacketForwarding.Groups
