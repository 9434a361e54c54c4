import Mathlib.Data.List.Perm.Basic
import PacketForwarding.Foundation.Prefixes

/-! # Longest prefixes

Of the routes that cover an address, a table yields the longest one. If two have the same
length, then they have the same prefix, and the one that was added last counts.
-/

namespace PacketForwarding.LongestPrefix

open Prefixes

structure Route (size : Nat) (β : Type*) where
  addr : BitVec size
  length : Nat
  hop : β

variable {size : Nat} {β : Type*}

def Route.Covers (route : Route size β) (addr : BitVec size) : Prop :=
  SamePrefix route.length route.addr addr

instance (route : Route size β) (addr : BitVec size) : Decidable (route.Covers addr) :=
  inferInstanceAs (Decidable (∀ bit, bit < route.length → _ = _))

/-- The routes are for the same addresses. -/
def Route.SameNet (left right : Route size β) : Prop :=
  left.length = right.length ∧ SamePrefix left.length left.addr right.addr

theorem Route.SameNet.symm {left right : Route size β} (same : left.SameNet right) :
    right.SameNet left :=
  ⟨same.1.symm, fun bit inPrefix => (same.2 bit (same.1 ▸ inPrefix)).symm⟩

theorem Route.Covers.sameNet {left right : Route size β} {addr : BitVec size}
    (covers : left.Covers addr) (covers' : right.Covers addr)
    (sameLength : left.length = right.length) : left.SameNet right :=
  ⟨sameLength, fun bit inPrefix =>
    (covers bit inPrefix).trans (covers' bit (sameLength ▸ inPrefix)).symm⟩

/-! ## Lookup -/

/-- A route takes the place of one that is not longer. -/
def better (addr : BitVec size) (best : Option (Route size β)) (route : Route size β) :
    Option (Route size β) :=
  if route.Covers addr ∧ ∀ old ∈ best, old.length ≤ route.length then some route else best

def lookup (routes : List (Route size β)) (addr : BitVec size) : Option (Route size β) :=
  routes.foldl (better addr) none

/-- The route covers the address. Routes before it that do are not longer, and those behind it
are shorter. -/
def Longest (routes : List (Route size β)) (addr : BitVec size) (route : Route size β) : Prop :=
  ∃ front behind, routes = front ++ route :: behind ∧ route.Covers addr ∧
    (∀ other ∈ front, other.Covers addr → other.length ≤ route.length) ∧
    ∀ other ∈ behind, other.Covers addr → other.length < route.length

theorem Longest.mem {routes : List (Route size β)} {addr : BitVec size} {route : Route size β}
    (longest : Longest routes addr route) : route ∈ routes := by
  rcases longest with ⟨front, behind, rfl, _⟩
  exact List.mem_append_right front List.mem_cons_self

theorem Longest.covers {routes : List (Route size β)} {addr : BitVec size}
    {route : Route size β} (longest : Longest routes addr route) : route.Covers addr := by
  rcases longest with ⟨_, _, _, covers, _⟩
  exact covers

theorem Longest.length_le {routes : List (Route size β)} {addr : BitVec size}
    {route other : Route size β} (longest : Longest routes addr route) (member : other ∈ routes)
    (covers : other.Covers addr) : other.length ≤ route.length := by
  rcases longest with ⟨front, behind, rfl, _, before, after⟩
  rcases List.mem_append.mp member with inFront | later
  · exact before other inFront covers
  · rcases List.mem_cons.mp later with rfl | inBehind
    · exact Nat.le_refl _
    · exact Nat.le_of_lt (after other inBehind covers)

/-- One more route is longer, or it changes nothing. -/
theorem Longest.snoc {routes : List (Route size β)} {addr : BitVec size}
    {route last : Route size β} (longest : Longest routes addr route)
    (shorter : last.Covers addr → last.length < route.length) :
    Longest (routes ++ [last]) addr route := by
  rcases longest with ⟨front, behind, rfl, covers, before, after⟩
  refine ⟨front, behind ++ [last], ?_, covers, before, ?_⟩
  · rw [List.append_assoc, List.cons_append]
  · intro other member
    rcases List.mem_append.mp member with inBehind | isLast
    · exact after other inBehind
    · rw [List.mem_singleton.mp isLast]
      exact shorter

theorem lookup_cases (routes : List (Route size β)) (addr : BitVec size) :
    (∃ route, lookup routes addr = some route ∧ Longest routes addr route) ∨
      (lookup routes addr = none ∧ ∀ route ∈ routes, ¬ route.Covers addr) := by
  induction routes using List.reverseRecOn with
  | nil => exact Or.inr ⟨rfl, fun _ impossible => absurd impossible List.not_mem_nil⟩
  | append_singleton routes last induction =>
      have next : lookup (routes ++ [last]) addr = better addr (lookup routes addr) last :=
        List.foldl_append
      rw [next]
      unfold better
      rcases induction with ⟨route, found, longest⟩ | ⟨missed, none⟩
      · rw [found]
        by_cases replaced : last.Covers addr ∧ ∀ old ∈ some route, old.length ≤ last.length
        · rw [if_pos replaced]
          refine Or.inl ⟨last, rfl, routes, [], rfl, replaced.1, ?_,
            fun _ impossible => absurd impossible List.not_mem_nil⟩
          intro other member covers
          exact (longest.length_le member covers).trans (replaced.2 route rfl)
        · rw [if_neg replaced]
          refine Or.inl ⟨route, rfl, longest.snoc fun covers => ?_⟩
          apply Nat.lt_of_not_le
          intro longer
          exact replaced ⟨covers, fun old isOld => Option.some.inj isOld ▸ longer⟩
      · rw [missed]
        by_cases covers : last.Covers addr
        · rw [if_pos ⟨covers, fun _ impossible => by cases impossible⟩]
          exact Or.inl ⟨last, rfl, routes, [], rfl, covers,
            fun other member isCover => absurd isCover (none other member),
            fun _ impossible => absurd impossible List.not_mem_nil⟩
        · rw [if_neg fun both => covers both.1]
          refine Or.inr ⟨rfl, fun route member => ?_⟩
          rcases List.mem_append.mp member with earlier | isLast
          · exact none route earlier
          · rw [List.mem_singleton.mp isLast]
            exact covers

theorem longest_of_lookup {routes : List (Route size β)} {addr : BitVec size}
    {route : Route size β} (found : lookup routes addr = some route) :
    Longest routes addr route := by
  rcases lookup_cases routes addr with ⟨other, isOther, longest⟩ | ⟨missed, _⟩
  · rw [found] at isOther
    rwa [Option.some.inj isOther]
  · rw [found] at missed
    cases missed

/-! ## Routes in another order -/

/-- No two routes are for the same addresses. -/
def Distinct (routes : List (Route size β)) : Prop :=
  routes.Pairwise fun left right => ¬ left.SameNet right

instance : Std.Symm fun left right : Route size β => ¬ left.SameNet right where
  symm := fun _ _ apart same => apart same.symm

/-- Without two routes for the same addresses there is only one that is longest. -/
theorem Distinct.eq_of_longest {routes : List (Route size β)} (distinct : Distinct routes)
    {addr : BitVec size} {left right : Route size β} (first : Longest routes addr left)
    (member : right ∈ routes) (covers : right.Covers addr)
    (longest : ∀ other ∈ routes, other.Covers addr → other.length ≤ right.length) :
    left = right := by
  have sameLength := Nat.le_antisymm (longest left first.mem first.covers)
    (first.length_le member covers)
  by_contra different
  exact List.Pairwise.forall distinct first.mem member different
    (first.covers.sameNet covers sameLength)

/-- The order of the routes does not matter, then. -/
theorem lookup_perm {routes routes' : List (Route size β)} (distinct : Distinct routes)
    (perm : routes.Perm routes') (addr : BitVec size) :
    lookup routes addr = lookup routes' addr := by
  rcases lookup_cases routes addr with ⟨route, found, longest⟩ | ⟨missed, none⟩
  · rcases lookup_cases routes' addr with ⟨route', found', longest'⟩ | ⟨_, none'⟩
    · rw [found, found']
      exact congrArg some (distinct.eq_of_longest longest (perm.mem_iff.mpr longest'.mem)
        longest'.covers fun other member => longest'.length_le (perm.mem_iff.mp member))
    · exact absurd longest.covers (none' route (perm.mem_iff.mp longest.mem))
  · rcases lookup_cases routes' addr with ⟨route', _, longest'⟩ | ⟨missed', _⟩
    · exact absurd longest'.covers (none route' (perm.mem_iff.mpr longest'.mem))
    · rw [missed, missed']

end PacketForwarding.LongestPrefix
