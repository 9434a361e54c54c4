import Mathlib

/-! # Visiting memory cells and array slots together

A loop goes through the slots of an array. At each slot it steps the slot and the
memory cell that a table of pointers names for it. Two pointers may name the same
cell. When they do not, the order of the visits does not matter and each cell is
stepped once.
-/

namespace PacketForwarding.Cells

variable {κ : Type u} {α : Type v} {β : Type w}

/-- The pointers of `count` slots from `first` on name different cells. -/
def Distinct (cell : Nat → κ) (first count : Nat) : Prop :=
  ∀ left right, first ≤ left → left < first + count → first ≤ right →
    right < first + count → cell left = cell right → left = right

theorem Distinct.sub {cell : Nat → κ} {first count first' count' : Nat}
    (distinct : Distinct cell first count)
    (after : first ≤ first') (before : first' + count' ≤ first + count) :
    Distinct cell first' count' := by
  intro left right leftAfter leftBefore rightAfter rightBefore same
  exact distinct left right (by omega) (by omega) (by omega) (by omega) same

/-- As many pointers as there are names reach every name only if they are different. -/
theorem distinct_of_covers {cell : Nat → κ} {names : List κ} (nodup : names.Nodup)
    (covers : ∀ name ∈ names, ∃ index, index < names.length ∧ cell index = name) :
    Distinct cell 0 names.length ∧ ∀ index, index < names.length → cell index ∈ names := by
  let reached := (List.range names.length).map cell
  have within : names ⊆ reached := by
    intro name member
    rcases covers name member with ⟨index, inside, same⟩
    exact List.mem_map.mpr ⟨index, List.mem_range.mpr inside, same⟩
  have perm : names.Perm reached :=
    (List.subperm_of_subset nodup within).perm_of_length_le (by simp [reached])
  have injective := List.inj_on_of_nodup_map (perm.nodup_iff.mp nodup)
  constructor
  · intro left right _ leftInside _ rightInside same
    rw [Nat.zero_add] at leftInside rightInside
    exact injective (List.mem_range.mpr leftInside) (List.mem_range.mpr rightInside) same
  · intro index inside
    exact perm.mem_iff.mpr (List.mem_map_of_mem (List.mem_range.mpr inside))

variable [DecidableEq κ]

/-- Step the slot at `index` together with the cell it points to. -/
def visitOne (cell : Nat → κ) (step : α → β → α × β) (index : Nat)
    (state : (κ → α) × (Nat → β)) : (κ → α) × (Nat → β) :=
  let stepped := step (state.1 (cell index)) (state.2 index)
  (Function.update state.1 (cell index) stepped.1, Function.update state.2 index stepped.2)

/-- Visit `count` slots in order, beginning at `first`. -/
def visit (cell : Nat → κ) (step : α → β → α × β) :
    Nat → Nat → (κ → α) × (Nat → β) → (κ → α) × (Nat → β)
  | 0, _, state => state
  | count + 1, first, state =>
      visit cell step count (first + 1) (visitOne cell step first state)

section

variable (cell : Nat → κ) (step : α → β → α × β)

theorem visit_add (more : Nat) :
    ∀ count first state, visit cell step (count + more) first state =
      visit cell step more (first + count) (visit cell step count first state)
  | 0, first, state => by rw [Nat.zero_add, Nat.add_zero, visit]
  | count + 1, first, state => by
      rw [Nat.succ_add, visit, visit_add more count, visit,
        Nat.add_assoc first 1 count, Nat.add_comm 1 count]

theorem slot_outside :
    ∀ count first state {index : Nat}, index < first ∨ first + count ≤ index →
      (visit cell step count first state).2 index = state.2 index
  | 0, _, _, _, _ => rfl
  | count + 1, first, state, index, outside => by
      have different : index ≠ first := by omega
      rw [visit, slot_outside count (first + 1) _ (by omega)]
      exact Function.update_of_ne different _ _

theorem cell_outside :
    ∀ count first state {name : κ},
      (∀ index, first ≤ index → index < first + count → cell index ≠ name) →
      (visit cell step count first state).1 name = state.1 name
  | 0, _, _, _, _ => rfl
  | count + 1, first, state, name, outside => by
      have different := outside first (by omega) (by omega)
      rw [visit, cell_outside count (first + 1) _
        (fun index after before => outside index (by omega) (by omega))]
      exact Function.update_of_ne (Ne.symm different) _ _

/-- The slots outside a visit have no part in it. -/
theorem visit_congr_slots :
    ∀ count first memory (slots slots' : Nat → β),
      (∀ index, first ≤ index → index < first + count → slots' index = slots index) →
      (visit cell step count first (memory, slots')).1 =
          (visit cell step count first (memory, slots)).1 ∧
        ∀ index, first ≤ index → index < first + count →
          (visit cell step count first (memory, slots')).2 index =
            (visit cell step count first (memory, slots)).2 index
  | 0, _, _, _, _, _ => ⟨rfl, fun index _ _ => by omega⟩
  | count + 1, first, memory, slots, slots', agree => by
      have atFirst := agree first (Nat.le_refl first) (by omega)
      have rest := visit_congr_slots count (first + 1)
        (visitOne cell step first (memory, slots)).1
        (visitOne cell step first (memory, slots)).2
        (visitOne cell step first (memory, slots')).2 (by
          intro index after before
          have apart : index ≠ first := by omega
          simp only [visitOne, Function.update_of_ne apart]
          exact agree index (by omega) (by omega))
      have sameMemory : (visitOne cell step first (memory, slots')).1 =
          (visitOne cell step first (memory, slots)).1 := by
        simp only [visitOne, atFirst]
      rw [← sameMemory] at rest
      rw [visit, visit]
      refine ⟨rest.1.trans (by rw [sameMemory]), ?_⟩
      intro index after before
      rcases Nat.eq_or_lt_of_le after with equal | later
      · subst equal
        rw [slot_outside cell step count (first + 1) _ (by omega),
          slot_outside cell step count (first + 1) _ (by omega)]
        simp only [visitOne, atFirst, Function.update_self]
      · exact (rest.2 index (by omega) (by omega)).trans (by rw [sameMemory])

/-- With distinct cells, every visited slot and its cell are stepped once. -/
theorem visit_inside :
    ∀ count first state, Distinct cell first count →
      ∀ index, first ≤ index → index < first + count →
        (visit cell step count first state).1 (cell index) =
            (step (state.1 (cell index)) (state.2 index)).1 ∧
          (visit cell step count first state).2 index =
            (step (state.1 (cell index)) (state.2 index)).2
  | 0, first, state, _, index, after, before => by omega
  | count + 1, first, state, distinct, index, after, before => by
      rw [visit]
      rcases Nat.eq_or_lt_of_le after with equal | later
      · subst equal
        rw [cell_outside, slot_outside]
        · simp [visitOne]
        · omega
        · intro other otherAfter otherBefore same
          have := distinct other first (by omega) (by omega) (by omega) (by omega) same
          omega
      · have different : cell index ≠ cell first := by
          intro same
          have := distinct index first (by omega) (by omega) (by omega) (by omega) same
          omega
        have apart : index ≠ first := by omega
        have stepped := visit_inside count (first + 1) (visitOne cell step first state)
          (distinct.sub (by omega) (by omega)) index (by omega) (by omega)
        simpa [visitOne, different, apart] using stepped

/-- Whatever the pointers, what every step keeps of a cell is kept, and a slot is
stepped with its cell in a state that agrees on it. -/
theorem visit_keeps {keeps : α → α → Prop} (refl : ∀ a, keeps a a)
    (trans : ∀ a b c, keeps a b → keeps b c → keeps a c) :
    ∀ count first state,
      (∀ index, first ≤ index → index < first + count → ∀ current,
        keeps (state.1 (cell index)) current →
          keeps current (step current (state.2 index)).1) →
      (∀ name, keeps (state.1 name) ((visit cell step count first state).1 name)) ∧
      ∀ index, first ≤ index → index < first + count →
        ∃ current, keeps (state.1 (cell index)) current ∧
          (visit cell step count first state).2 index = (step current (state.2 index)).2
  | 0, first, state, _ => ⟨fun name => refl _, fun index _ _ => by omega⟩
  | count + 1, first, state, stepKeeps => by
      have one : ∀ name, keeps (state.1 name) ((visitOne cell step first state).1 name) := by
        intro name
        by_cases same : name = cell first
        · subst same
          simpa [visitOne] using stepKeeps first (by omega) (by omega) _ (refl _)
        · simpa [visitOne, same] using refl _
      have later : ∀ index, first + 1 ≤ index →
          (visitOne cell step first state).2 index = state.2 index := by
        intro index after
        have apart : index ≠ first := by omega
        simp [visitOne, apart]
      rcases visit_keeps refl trans count (first + 1) (visitOne cell step first state) (by
        intro index after before current kept
        rw [later index after]
        exact stepKeeps index (by omega) (by omega) current (trans _ _ _ (one _) kept))
        with ⟨cells, slots⟩
      rw [visit]
      refine ⟨fun name => trans _ _ _ (one name) (cells name), ?_⟩
      intro index after before
      rcases Nat.eq_or_lt_of_le after with equal | isLater
      · subst equal
        refine ⟨state.1 (cell first), refl _, ?_⟩
        rw [slot_outside cell step count (first + 1) _ (by omega)]
        simp [visitOne]
      · rcases slots index (by omega) (by omega) with ⟨current, kept, stepped⟩
        refine ⟨current, trans _ _ _ (one _) kept, ?_⟩
        rw [later index (by omega)] at stepped
        exact stepped

end

/-! ## Cells that have been written -/

omit [DecidableEq κ] in
/-- The cells of the slots from `first` on have the given values, and no other cell has
changed. -/
structure Written (cell : Nat → κ) (values : Nat → α) (first count : Nat)
    (before after : κ → α) : Prop where
  inside : ∀ index, first ≤ index → index < first + count → after (cell index) = values index
  outside : ∀ name, (∀ index, first ≤ index → index < first + count → cell index ≠ name) →
    after name = before name

namespace Written

variable {cell : Nat → κ} {values values' : Nat → α} {first count : Nat}
  {before middle after : κ → α}

omit [DecidableEq κ]

theorem nil (cell : Nat → κ) (values : Nat → α) (first : Nat) (memory : κ → α) :
    Written cell values first 0 memory memory where
  inside := by
    intro index after before
    omega
  outside := fun _ _ => rfl

theorem congr (written : Written cell values first count before after)
    (same : ∀ index, first ≤ index → index < first + count → values index = values' index) :
    Written cell values' first count before after where
  inside := by
    intro index afterFirst beforeEnd
    rw [written.inside index afterFirst beforeEnd, same index afterFirst beforeEnd]
  outside := written.outside

/-- Two stretches of which one lies behind the other. -/
theorem append {next more all : Nat} (adjacent : next = first + count)
    (total : all = count + more) (distinct : Distinct cell first all)
    (left : Written cell values first count before middle)
    (right : Written cell values next more middle after) :
    Written cell values first all before after where
  inside := by
    intro index afterFirst beforeEnd
    rcases Nat.lt_or_ge index next with early | late
    · have untouched := right.outside (cell index) (by
        intro other otherAfter otherBefore same
        have equal := distinct other index (by omega) (by omega) afterFirst beforeEnd same
        omega)
      rw [untouched]
      exact left.inside index afterFirst (by omega)
    · exact right.inside index late (by omega)
  outside := by
    intro name elsewhere
    rw [right.outside name fun index afterNext beforeEnd =>
        elsewhere index (by omega) (by omega),
      left.outside name fun index afterFirst beforeNext =>
        elsewhere index afterFirst (by omega)]

/-- What has not been written yet is as before. -/
theorem fresh {all : Nat} (written : Written cell values first count before after)
    (distinct : Distinct cell first all) {index : Nat} (behind : first + count ≤ index)
    (inside : index < first + all) : after (cell index) = before (cell index) := by
  apply written.outside
  intro other otherAfter otherBefore same
  have equal := distinct other index otherAfter (by omega) (by omega) inside same
  omega

/-- Visits write the cells of their slots. -/
theorem ofVisit [DecidableEq κ] {step : α → β → α × β} (state : (κ → α) × (Nat → β))
    (distinct : Distinct cell first count)
    (value : ∀ index, first ≤ index → index < first + count →
      (step (state.1 (cell index)) (state.2 index)).1 = values index) :
    Written cell values first count state.1 (visit cell step count first state).1 where
  inside := by
    intro index after before
    rw [(visit_inside cell step count first state distinct index after before).1]
    exact value index after before
  outside := fun _ elsewhere => cell_outside cell step count first state elsewhere

end Written

/-! ## Assigning a range of slots -/

/-- The slots `first, ..., first + count - 1` replaced by those in `values`. -/
def assign (values : Nat → β) (first count : Nat) (slots : Nat → β) :
    Nat → β :=
  fun i => if first ≤ i ∧ i < first + count then values i else slots i

theorem assign_zero (values : Nat → β) (first : Nat) (slots : Nat → β) :
    assign values first 0 slots = slots := by
  have nowhere : ∀ i, ¬ (first ≤ i ∧ i < first + 0) := by
    intro i
    omega
  funext i
  rw [assign, if_neg (nowhere i)]

theorem assign_add (values : Nat → β) (first count more : Nat)
    (slots : Nat → β) :
    assign values (first + count) more (assign values first count slots) =
      assign values first (count + more) slots := by
  funext i
  simp only [assign]
  by_cases late : first + count ≤ i ∧ i < first + count + more
  · rw [if_pos late, if_pos (by omega)]
  · rw [if_neg late]
    exact if_congr (by omega) rfl rfl

theorem update_eq_assign (values : Nat → β) (j : Nat) (slots : Nat → β) :
    Function.update slots j (values j) = assign values j 1 slots := by
  funext i
  by_cases same : i = j
  · subst same
    rw [Function.update_self, assign, if_pos (by omega)]
  · rw [Function.update_of_ne same, assign, if_neg (by omega)]

end PacketForwarding.Cells
