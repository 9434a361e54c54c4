import Mathlib

/-! # States of independent parts

Each item of a list changes one part of a state, or is refused by that part. Then the parts
can be run on their own, and the order of items for different parts does not matter.
-/

namespace PacketForwarding.Parts

variable {κ ι : Type*} [DecidableEq κ] {V : κ → Type*} (part : ι → κ)
  (own : ∀ item, V (part item) → Option (V (part item)))

/-- An item changes its own part. -/
def step (state : ∀ k, V k) (item : ι) : Option (∀ k, V k) :=
  (own item (state (part item))).map (Function.update state (part item))

/-- What an item does to a part. -/
def stepAt (k : κ) (value : V k) (item : ι) : Option (V k) :=
  if same : part item = k then
    same ▸ own item (same.symm ▸ value)
  else
    some value

@[simp]
theorem stepAt_own (item : ι) (value : V (part item)) :
    stepAt part own (part item) value item = own item value := by
  simp [stepAt]

theorem stepAt_other {k : κ} {item : ι} (other : part item ≠ k) (value : V k) :
    stepAt part own k value item = some value := by
  simp [stepAt, other]

theorem step_eq_some {state after : ∀ k, V k} {item : ι} :
    step part own state item = some after ↔
      ∀ k, stepAt part own k (state k) item = some (after k) := by
  constructor
  · intro stepped k
    rcases Option.map_eq_some_iff.mp stepped with ⟨value, isOwn, rfl⟩
    by_cases same : part item = k
    · subst same
      rw [stepAt_own, isOwn, Function.update_self]
    · rw [stepAt_other part own same, Function.update_of_ne (Ne.symm same)]
  · intro parts
    have isOwn := parts (part item)
    rw [stepAt_own] at isOwn
    rw [step, isOwn, Option.map_some]
    congr 1
    funext k
    by_cases same : part item = k
    · subst same
      exact Function.update_self _ _ _
    · have kept := parts k
      rw [stepAt_other part own same] at kept
      rw [Function.update_of_ne (Ne.symm same)]
      exact Option.some.inj kept

/-- A run is a run of each part. -/
theorem run_eq_some : ∀ {items : List ι} {state after : ∀ k, V k},
    items.foldlM (step part own) state = some after ↔
      ∀ k, items.foldlM (stepAt part own k) (state k) = some (after k)
  | [], state, after => by
      simp only [List.foldlM_nil, Option.pure_def, Option.some.injEq]
      exact funext_iff
  | item :: items, state, after => by
      simp only [List.foldlM_cons, Option.bind_eq_bind, Option.bind_eq_some_iff]
      constructor
      · rintro ⟨between, stepped, rest⟩ k
        exact ⟨between k, (step_eq_some part own).mp stepped k, run_eq_some.mp rest k⟩
      · intro parts
        choose between stepped rest using parts
        exact ⟨between, (step_eq_some part own).mpr stepped, run_eq_some.mpr rest⟩

theorem run_isSome {items : List ι} {state : ∀ k, V k} :
    (items.foldlM (step part own) state).isSome ↔
      ∀ k, (items.foldlM (stepAt part own k) (state k)).isSome := by
  simp only [Option.isSome_iff_exists, run_eq_some]
  exact (Classical.skolem (p := fun k value =>
    items.foldlM (stepAt part own k) (state k) = some value)).symm

/-- A part is run by its own items. -/
theorem runAt_filter (k : κ) : ∀ (items : List ι) (value : V k),
    items.foldlM (stepAt part own k) value =
      (items.filter fun item => part item = k).foldlM (stepAt part own k) value
  | [], _ => rfl
  | item :: items, value => by
      by_cases same : part item = k
      · rw [List.filter_cons_of_pos (by simp [same]), List.foldlM_cons, List.foldlM_cons]
        congr 1
        funext next
        exact runAt_filter k items next
      · rw [List.filter_cons_of_neg (by simp [same]), List.foldlM_cons,
          stepAt_other part own same]
        exact runAt_filter k items value

/-- The order of items for different parts does not matter. -/
theorem run_congr {items items' : List ι}
    (same : ∀ k, (items.filter fun item => part item = k) =
      items'.filter fun item => part item = k) (state : ∀ k, V k) :
    items.foldlM (step part own) state = items'.foldlM (step part own) state := by
  apply Option.ext
  intro after
  rw [run_eq_some, run_eq_some]
  apply forall_congr'
  intro k
  rw [runAt_filter, same k, ← runAt_filter]

/-- A loop that does the same to states that are made from parts. -/
theorem run_map {σ : Type*} {f : (∀ k, V k) → σ} {step' : σ → ι → Option σ}
    (same : ∀ state item, step' (f state) item = (step part own state item).map f) :
    ∀ (items : List ι) (state : ∀ k, V k),
      items.foldlM step' (f state) = (items.foldlM (step part own) state).map f
  | [], _ => rfl
  | item :: items, state => by
      rw [List.foldlM_cons, List.foldlM_cons, same state item]
      cases step part own state item with
      | none => rfl
      | some next => exact run_map same items next

section

variable {part own} {k : κ}

/-- What every item keeps of its part is kept by a run. -/
theorem runAt_keeps {good : V k → Prop}
    (keeps : ∀ item value next, stepAt part own k value item = some next → good value → good next) :
    ∀ {items : List ι} {value last : V k},
      items.foldlM (stepAt part own k) value = some last → good value → good last
  | [], value, last, done, holds => Option.some.inj done ▸ holds
  | item :: items, value, last, done, holds => by
      rw [List.foldlM_cons, Option.bind_eq_bind, Option.bind_eq_some_iff] at done
      rcases done with ⟨next, stepped, rest⟩
      exact runAt_keeps keeps rest (keeps item value next stepped holds)

/-- What every item of a part marks is marked if there is one. -/
theorem runAt_marks {mark : V k → Bool}
    (marks : ∀ item value next, part item = k → stepAt part own k value item = some next →
      mark next = true) :
    ∀ {items : List ι} {value last : V k},
      items.foldlM (stepAt part own k) value = some last →
      mark last = (mark value || items.any fun item => part item = k)
  | [], value, last, done => by
      rw [List.any_nil, Bool.or_false, Option.some.inj done]
  | item :: items, value, last, done => by
      rw [List.foldlM_cons, Option.bind_eq_bind, Option.bind_eq_some_iff] at done
      rcases done with ⟨next, stepped, rest⟩
      rw [runAt_marks marks rest, List.any_cons]
      by_cases same : part item = k
      · rw [marks item value next same stepped, decide_eq_true same]
        simp
      · rw [stepAt_other part own same] at stepped
        rw [Option.some.inj stepped, decide_eq_false same, Bool.false_or]

/-- Where it depends on the item alone whether it is refused, none may be. -/
theorem runAt_isSome {fine : ι → Prop}
    (accepts : ∀ item value, (stepAt part own k value item).isSome ↔ (part item = k → fine item)) :
    ∀ {items : List ι} {value : V k},
      (items.foldlM (stepAt part own k) value).isSome ↔
        ∀ item ∈ items, part item = k → fine item
  | [], value => by simp
  | item :: items, value => by
      rw [List.foldlM_cons, List.forall_mem_cons, ← accepts item value]
      cases stepped : stepAt part own k value item with
      | none => simp
      | some next =>
          simp only [Option.bind_eq_bind, Option.bind_some, Option.isSome_some, true_and]
          exact runAt_isSome accepts

end

end PacketForwarding.Parts
