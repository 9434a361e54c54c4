import Mathlib

/-! # Pairings

A map that is filled in by pairs sends each member of a pair to the other. If no two pairs
meet, it is an involution on what is paired. The items of a list can be paired two by two,
where an odd one at the end is paired with itself.
-/

namespace PacketForwarding

namespace Pairing

variable {α : Type*}

section Links

variable [DecidableEq α]

/-- Send each member of a pair to the other. -/
def link (map : α → α) (pair : α × α) : α → α :=
  Function.update (Function.update map pair.1 pair.2) pair.2 pair.1

def links (map : α → α) (pairs : List (α × α)) : α → α :=
  pairs.foldl link map

/-- The item is one of the pair. -/
def In (item : α) (pair : α × α) : Prop :=
  item = pair.1 ∨ item = pair.2

/-- No item is in both pairs. -/
def Apart (left right : α × α) : Prop :=
  ∀ item, In item left → ¬ In item right

theorem link_of_not_in {map : α → α} {pair : α × α} {item : α} (outside : ¬ In item pair) :
    link map pair item = map item := by
  rcases not_or.mp outside with ⟨notFirst, notSecond⟩
  rw [link, Function.update_of_ne notSecond, Function.update_of_ne notFirst]

theorem link_second (map : α → α) (pair : α × α) : link map pair pair.2 = pair.1 :=
  Function.update_self _ _ _

theorem link_first (map : α → α) (pair : α × α) : link map pair pair.1 = pair.2 := by
  by_cases same : pair.1 = pair.2
  · rw [same, link_second, same]
  · rw [link, Function.update_of_ne same, Function.update_self]

/-- The two members may be filled in in either order. -/
theorem link_swap {map : α → α} {first second : α} (different : first ≠ second) :
    link map (second, first) = link map (first, second) :=
  Function.update_comm different.symm _ _ _

theorem links_append (map : α → α) (front behind : List (α × α)) :
    links map (front ++ behind) = links (links map front) behind :=
  List.foldl_append

theorem links_of_not_in {pairs : List (α × α)} {item : α} :
    ∀ map : α → α, (∀ pair ∈ pairs, ¬ In item pair) → links map pairs item = map item := by
  induction pairs with
  | nil => exact fun _ _ => rfl
  | cons pair pairs induction =>
      intro map outside
      rcases List.forall_mem_cons.mp outside with ⟨notHere, notLater⟩
      exact (induction _ notLater).trans (link_of_not_in notHere)

theorem links_of_mem {pairs : List (α × α)} (apart : pairs.Pairwise Apart) {pair : α × α} :
    ∀ map : α → α, pair ∈ pairs →
      links map pairs pair.1 = pair.2 ∧ links map pairs pair.2 = pair.1 := by
  induction apart with
  | nil => exact fun _ impossible => absurd impossible List.not_mem_nil
  | cons first _ induction =>
      intro map member
      rcases List.mem_cons.mp member with rfl | later
      · have outside : ∀ item, In item pair → ∀ other ∈ _, ¬ In item other :=
          fun item inside other member => first other member item inside
        exact ⟨(links_of_not_in _ (outside _ (.inl rfl))).trans (link_first map pair),
          (links_of_not_in _ (outside _ (.inr rfl))).trans (link_second map pair)⟩
      · exact induction _ later

/-- What is paired is sent to what is paired, and back. -/
theorem links_involution {pairs : List (α × α)} (apart : pairs.Pairwise Apart) (map : α → α)
    {pair : α × α} (member : pair ∈ pairs) {item : α} (inside : In item pair) :
    In (links map pairs item) pair ∧ links map pairs (links map pairs item) = item := by
  rcases links_of_mem apart map member with ⟨first, second⟩
  rcases inside with rfl | rfl
  · rw [first]
    exact ⟨.inr rfl, second⟩
  · rw [second]
    exact ⟨.inl rfl, first⟩

/-- Only an item that is paired with itself is sent to itself. -/
theorem self_of_links {pairs : List (α × α)} (apart : pairs.Pairwise Apart) (map : α → α)
    {pair : α × α} (member : pair ∈ pairs) {item : α} (inside : In item pair)
    (self : links map pairs item = item) : (item, item) ∈ pairs := by
  rcases links_of_mem apart map member with ⟨first, second⟩
  rcases inside with rfl | rfl
  · rw [self] at first
    have same : pair = (pair.1, pair.1) := Prod.ext rfl first.symm
    rw [same] at member
    exact member
  · rw [self] at second
    have same : pair = (pair.2, pair.2) := Prod.ext second.symm rfl
    rw [same] at member
    exact member

end Links

/-! ## Two by two -/

/-- The items in pairs, where an odd last one is on its own. -/
def pairUp : List α → List (α × α)
  | [] => []
  | [item] => [(item, item)]
  | first :: second :: items => (first, second) :: pairUp items

theorem pairUp_append : ∀ {front : List α}, front.length % 2 = 0 → ∀ behind : List α,
    pairUp (front ++ behind) = pairUp front ++ pairUp behind
  | [], _, _ => rfl
  | [_], odd, _ => by simp at odd
  | first :: second :: front, even, behind => by
      have rest : front.length % 2 = 0 := by
        simp only [List.length_cons] at even
        omega
      simp only [List.cons_append, pairUp, pairUp_append rest behind]

theorem exists_in_pairUp : ∀ {items : List α} {item : α},
    (∃ pair ∈ pairUp items, In item pair) ↔ item ∈ items
  | [], _ => by simp [pairUp]
  | [only], item => by simp [pairUp, In]
  | first :: second :: items, item => by
      have rest : (∃ pair ∈ pairUp items, In item pair) ↔ item ∈ items := exists_in_pairUp
      rw [pairUp, List.exists_mem_cons_iff, rest, In, List.mem_cons, List.mem_cons, or_assoc]

theorem apart_pairUp : ∀ {items : List α}, items.Nodup → (pairUp items).Pairwise Apart
  | [], _ => .nil
  | [_], _ => List.pairwise_singleton _ _
  | first :: second :: items, nodup => by
      rcases List.nodup_cons.mp nodup with ⟨notFirst, nodup⟩
      rcases List.nodup_cons.mp nodup with ⟨notSecond, nodup⟩
      refine .cons ?_ (apart_pairUp nodup)
      rintro pair member item (rfl | rfl) inside
      · exact notFirst (List.mem_cons_of_mem _ (exists_in_pairUp.mp ⟨pair, member, inside⟩))
      · exact notSecond (exists_in_pairUp.mp ⟨pair, member, inside⟩)

/-- Only an odd last item is on its own. -/
theorem last_of_self : ∀ {items : List α} {item : α}, items.Nodup → (item, item) ∈ pairUp items →
    items.length % 2 = 1 ∧ items.getLast? = some item
  | [], _, _, impossible => by cases impossible
  | [only], item, _, member => by
      rw [pairUp, List.mem_singleton] at member
      cases member
      exact ⟨rfl, rfl⟩
  | first :: second :: items, item, nodup, member => by
      rcases List.nodup_cons.mp nodup with ⟨notFirst, nodup⟩
      rcases List.nodup_cons.mp nodup with ⟨_, nodup⟩
      rw [pairUp, List.mem_cons] at member
      rcases member with same | later
      · cases same
        exact absurd List.mem_cons_self notFirst
      · rcases last_of_self nodup later with ⟨odd, last⟩
        refine ⟨by simp only [List.length_cons]; omega, ?_⟩
        rw [List.getLast?_cons, List.getLast?_cons, last]
        rfl

end Pairing

end PacketForwarding
