import Mathlib

/-! # Values at the positions of keys

A hash gives each key a position, and the values are in an array of their own. What was stored
last for a key is found, as long as different keys have different positions.
-/

namespace PacketForwarding

/-- A hash is known by the keys that were added to it, oldest first. -/
structure PositionHash (κ : Type*) where
  addKey : List κ → κ → Option Nat
  lookup : List κ → κ → Option Nat

variable {κ β : Type*}

/-- Keys that were added one after the other. -/
inductive PositionHash.Added (hash : PositionHash κ) : List κ → Prop
  | nil : hash.Added []
  | snoc {keys : List κ} {key : κ} {pos : Nat} :
      hash.Added keys → hash.addKey keys key = some pos → hash.Added (keys ++ [key])

/-- A key is found where it was added, and a key that is added does not move the others. -/
structure PositionHash.Lawful (hash : PositionHash κ) : Prop where
  empty : ∀ key, hash.lookup [] key = none
  found : ∀ keys key pos, hash.Added keys → hash.addKey keys key = some pos →
    hash.lookup (keys ++ [key]) key = some pos
  kept : ∀ keys key pos other, hash.Added keys → hash.addKey keys key = some pos → other ≠ key →
    hash.lookup (keys ++ [key]) other = hash.lookup keys other
  apart : ∀ keys left right pos, hash.Added keys → hash.lookup keys left = some pos →
    hash.lookup keys right = some pos → left = right

/-- The keys of a hash, and an array with values at their positions. -/
structure Keyed (κ β : Type*) where
  keys : List κ
  values : Nat → β

namespace Keyed

def insert (hash : PositionHash κ) (table : Keyed κ β) (key : κ) (value : β) :
    Option (Keyed κ β) :=
  match hash.addKey table.keys key with
  | none => none
  | some pos => some ⟨table.keys ++ [key], Function.update table.values pos value⟩

def find (hash : PositionHash κ) (table : Keyed κ β) (key : κ) : Option β :=
  (hash.lookup table.keys key).map table.values

variable {hash : PositionHash κ} {table next : Keyed κ β} {key : κ} {value : β}

theorem insert_added (added : hash.Added table.keys)
    (inserted : table.insert hash key value = some next) : hash.Added next.keys := by
  unfold insert at inserted
  cases position : hash.addKey table.keys key with
  | none =>
      rw [position] at inserted
      cases inserted
  | some pos =>
      rw [position] at inserted
      cases inserted
      exact added.snoc position

/-- A value is found for its key, and others for the other keys as before. -/
theorem find_insert [DecidableEq κ] (lawful : hash.Lawful) (added : hash.Added table.keys)
    (inserted : table.insert hash key value = some next) (other : κ) :
    next.find hash other = if other = key then some value else table.find hash other := by
  have nextAdded := insert_added added inserted
  unfold insert at inserted
  cases position : hash.addKey table.keys key with
  | none =>
      rw [position] at inserted
      cases inserted
  | some pos =>
      rw [position] at inserted
      cases inserted
      have isFound := lawful.found table.keys key pos added position
      unfold find
      by_cases same : other = key
      · rw [if_pos same, same, isFound, Option.map_some]
        exact congrArg some (Function.update_self ..)
      · have isKept := lawful.kept table.keys key pos other added position same
        rw [if_neg same, isKept]
        cases found : hash.lookup table.keys other with
        | none => rfl
        | some place =>
            have elsewhere : place ≠ pos := by
              intro clash
              rw [found, clash] at isKept
              exact same (lawful.apart _ _ _ _ nextAdded isKept isFound)
            rw [Option.map_some, Option.map_some]
            exact congrArg some (Function.update_of_ne elsewhere ..)

end Keyed

/-! ## The last value -/

section Last

variable [DecidableEq κ]

/-- The last value that is paired with a key. -/
def lastValue (pairs : List (κ × β)) (key : κ) : Option β :=
  ((pairs.filter fun pair => decide (pair.1 = key)).getLast?).map Prod.snd

theorem lastValue_snoc (pairs : List (κ × β)) (pair : κ × β) (key : κ) :
    lastValue (pairs ++ [pair]) key =
      if key = pair.1 then some pair.2 else lastValue pairs key := by
  unfold lastValue
  rw [List.filter_append]
  by_cases same : key = pair.1
  · rw [if_pos same, List.filter_cons_of_pos (by simpa using same.symm), List.filter_nil,
      List.getLast?_concat]
    rfl
  · rw [if_neg same, List.filter_cons_of_neg (by simpa using Ne.symm same), List.filter_nil,
      List.append_nil]

theorem lastValue_mem {pairs : List (κ × β)} {key : κ} {value : β}
    (found : lastValue pairs key = some value) : (key, value) ∈ pairs := by
  rcases Option.map_eq_some_iff.mp found with ⟨pair, isLast, rfl⟩
  rcases List.mem_filter.mp (List.mem_of_getLast? isLast) with ⟨member, isKey⟩
  rw [← of_decide_eq_true isKey]
  exact member

/-- Keys may be translated if the translation tells the wanted key from the others. -/
theorem lastValue_map {κ' : Type*} [DecidableEq κ'] {convert : κ → κ'} {pairs : List (κ × β)}
    {key : κ} {key' : κ'} (same : ∀ pair ∈ pairs, convert pair.1 = key' ↔ pair.1 = key) :
    lastValue (pairs.map fun pair => (convert pair.1, pair.2)) key' = lastValue pairs key := by
  unfold lastValue
  rw [List.filter_map, List.getLast?_map, Option.map_map]
  have filters : (pairs.filter ((fun pair : κ' × β => decide (pair.1 = key')) ∘
      fun pair => (convert pair.1, pair.2))) = pairs.filter fun pair => decide (pair.1 = key) := by
    apply List.filter_congr
    intro pair member
    exact decide_eq_decide.mpr (same pair member)
  rw [filters]
  rfl

/-- After some insertions the last value of each key is found. -/
structure Keyed.Holds (hash : PositionHash κ) (table : Keyed κ β) (pairs : List (κ × β)) :
    Prop where
  added : hash.Added table.keys
  found : ∀ key, table.find hash key = lastValue pairs key

variable {hash : PositionHash κ} (lawful : hash.Lawful)

include lawful

theorem Keyed.Holds.nil (values : Nat → β) : Keyed.Holds hash ⟨[], values⟩ [] where
  added := .nil
  found := fun key => by
    rw [Keyed.find, lawful.empty]
    rfl

theorem Keyed.Holds.snoc {table next : Keyed κ β} {pairs : List (κ × β)}
    (holds : table.Holds hash pairs) {key : κ} {value : β}
    (inserted : table.insert hash key value = some next) :
    next.Holds hash (pairs ++ [(key, value)]) where
  added := insert_added holds.added inserted
  found := by
    intro other
    rw [find_insert lawful holds.added inserted, lastValue_snoc, holds.found]

end Last

end PacketForwarding
