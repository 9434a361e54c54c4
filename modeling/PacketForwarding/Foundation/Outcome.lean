import Mathlib

/-! # Outcomes of computations that may fault

`Outcome good blame run` says that `run` either yields a good value or faults for
a reason given by `blame`. Ruling the reason out gives total correctness, assuming
that the run returned gives partial correctness.

`Guarded cond good fault run` says in addition exactly when the run faults.
-/

namespace PacketForwarding

variable {α β : Type u} {ι : Type v} {ε : Type w}

def Outcome (good : α → Prop) (blame : Prop) : Except ε α → Prop
  | .ok value => good value
  | .error _ => blame

namespace Outcome

@[simp] theorem ok_iff {good : α → Prop} {blame : Prop} {value : α} :
    Outcome good blame (.ok value : Except ε α) ↔ good value := Iff.rfl

@[simp] theorem error_iff {good : α → Prop} {blame : Prop} {fault : ε} :
    Outcome good blame (.error fault : Except ε α) ↔ blame := Iff.rfl

theorem imp {good good' : α → Prop} {blame blame' : Prop} {run : Except ε α}
    (outcome : Outcome good blame run) (better : ∀ value, good value → good' value)
    (excuse : blame → blame') : Outcome good' blame' run := by
  cases run with
  | ok value => exact better value outcome
  | error fault => exact excuse outcome

/-- A sequence ends well if its first part does and the second does from there. -/
theorem bind {good : α → Prop} {good' : β → Prop} {blame : Prop} {run : Except ε α}
    {next : α → Except ε β} (outcome : Outcome good blame run)
    (continues : ∀ value, good value → Outcome good' blame (next value)) :
    Outcome good' blame (run >>= next) := by
  cases run with
  | ok value => exact continues value outcome
  | error fault => exact outcome

/-- A loop over a list keeps an invariant of the part of the list it has handled. -/
theorem foldlM_split (inv : List ι → α → Prop) {step : α → ι → Except ε α} {blame : Prop}
    {items : List ι} (steps : ∀ done item rest value, items = done ++ item :: rest →
      inv done value → Outcome (inv (done ++ [item])) blame (step value item)) {start : α}
    (starts : inv [] start) : Outcome (inv items) blame (items.foldlM step start) := by
  have general : ∀ rest done value, items = done ++ rest → inv done value →
      Outcome (inv items) blame (rest.foldlM step value) := by
    intro rest
    induction rest with
    | nil =>
        intro done value split holds
        rw [List.append_nil] at split
        rw [split]
        exact holds
    | cons item rest induction =>
        intro done value split holds
        rw [List.foldlM_cons]
        refine (steps done item rest value split holds).bind ?_
        intro next nextHolds
        exact induction (done ++ [item]) next (by simp [split]) nextHolds
  exact general items [] start rfl starts

/-- The same where a step needs to know of its item only that it is one. -/
theorem foldlM (inv : List ι → α → Prop) {step : α → ι → Except ε α} {blame : Prop}
    {items : List ι} (steps : ∀ done item value, item ∈ items → inv done value →
      Outcome (inv (done ++ [item])) blame (step value item)) {start : α}
    (starts : inv [] start) : Outcome (inv items) blame (items.foldlM step start) := by
  apply foldlM_split inv _ starts
  intro done item rest value split holds
  exact steps done item value (by simp [split]) holds

/-- A loop simulates another one if its steps do. -/
theorem map_foldlM {f : α → β} {step : α → ι → Except ε α} {step' : β → ι → Except ε β}
    (same : ∀ value item, (step value item).map f = step' (f value) item) :
    ∀ (items : List ι) (value : α),
      (items.foldlM step value).map f = items.foldlM step' (f value)
  | [], _ => rfl
  | item :: rest, value => by
      rw [List.foldlM_cons, List.foldlM_cons, ← same value item]
      cases step value item with
      | error fault => rfl
      | ok next => exact map_foldlM same rest next

theorem of_ok {good : α → Prop} {blame : Prop} {run : Except ε α} {value : α}
    (outcome : Outcome good blame run) (returned : run = .ok value) : good value := by
  rw [returned] at outcome
  exact outcome

/-- Two loops over a list are the same if their steps are, as long as an invariant holds
of what is still ahead. -/
theorem foldlM_congr (inv : List ι → α → Prop) {step step' : α → ι → Except ε α}
    (same : ∀ item rest value, inv (item :: rest) value → step value item = step' value item)
    (keeps : ∀ item rest value, inv (item :: rest) value →
      Outcome (inv rest) True (step value item)) :
    ∀ (items : List ι) (value : α), inv items value →
      items.foldlM step value = items.foldlM step' value := by
  intro items
  induction items with
  | nil =>
      intro value _
      rfl
  | cons item rest induction =>
      intro value holds
      have kept := keeps item rest value holds
      rw [List.foldlM_cons, List.foldlM_cons, ← same item rest value holds]
      cases stepped : step value item with
      | error fault => rfl
      | ok next => exact induction next (kept.of_ok stepped)

/-- About a part of no interest nothing needs to be known. -/
theorem any (run : Except ε α) : Outcome (fun _ => True) True run := by
  cases run with
  | ok value => trivial
  | error fault => trivial

theorem exists_ok {good : α → Prop} {blame : Prop} {run : Except ε α}
    (outcome : Outcome good blame run) (innocent : ¬ blame) :
    ∃ value, run = .ok value ∧ good value := by
  cases run with
  | ok value => exact ⟨value, rfl, outcome⟩
  | error fault => exact absurd outcome innocent

end Outcome

/-- The run yields a good value if `cond` holds, and `fault` if not. -/
structure Guarded (cond : Prop) (good : α → Prop) (fault : ε) (run : Except ε α) : Prop where
  returns : cond → ∃ value, run = .ok value ∧ good value
  faults : ¬ cond → run = .error fault

/-- A condition on every step of a loop over a list, each taken in the state in which
the loop meets it. -/
def AllAlong (step : α → ι → Except ε α) (cond : α → ι → Prop) : α → List ι → Prop
  | _, [] => True
  | value, item :: rest =>
      cond value item ∧ ∀ next, step value item = .ok next → AllAlong step cond next rest

namespace Guarded

variable {cond : Prop} {good : α → Prop} {fault : ε} {run : Except ε α}

theorem of_ok {value : α} (guarded : Guarded cond good fault run)
    (returned : run = .ok value) : cond ∧ good value := by
  by_cases holds : cond
  · rcases guarded.returns holds with ⟨value', returned', isGood⟩
    rw [returned] at returned'
    cases returned'
    exact ⟨holds, isGood⟩
  · have faulted := guarded.faults holds
    rw [returned] at faulted
    cases faulted

theorem iff {cond' : Prop} (guarded : Guarded cond good fault run) (same : cond ↔ cond') :
    Guarded cond' good fault run where
  returns := fun holds => guarded.returns (same.mpr holds)
  faults := fun fails => guarded.faults fun holds => fails (same.mp holds)

theorem imp {good' : α → Prop} (guarded : Guarded cond good fault run)
    (better : ∀ value, good value → good' value) : Guarded cond good' fault run where
  returns := by
    intro holds
    rcases guarded.returns holds with ⟨value, returned, isGood⟩
    exact ⟨value, returned, better value isGood⟩
  faults := guarded.faults

theorem map {good' : β → Prop} (guarded : Guarded cond good fault run) (f : α → β)
    (better : ∀ value, good value → good' (f value)) :
    Guarded cond good' fault (run >>= fun value => .ok (f value)) where
  returns := by
    intro holds
    rcases guarded.returns holds with ⟨value, returned, isGood⟩
    rw [returned]
    exact ⟨f value, rfl, better value isGood⟩
  faults := by
    intro fails
    rw [guarded.faults fails]
    rfl

/-- A sequence is guarded by both conditions, the second where the first part ends. -/
theorem bind {good' : β → Prop} {next : α → Except ε β} {cond' : α → Prop}
    (guarded : Guarded cond good fault run)
    (continues : ∀ value, good value → Guarded (cond' value) good' fault (next value)) :
    Guarded (cond ∧ ∀ value, run = .ok value → cond' value) good' fault (run >>= next) := by
  by_cases holds : cond
  · rcases guarded.returns holds with ⟨value, returned, isGood⟩
    have same : cond' value ↔ (cond ∧ ∀ value, run = .ok value → cond' value) := by
      constructor
      · intro rest
        refine ⟨holds, ?_⟩
        intro value' returned'
        rw [returned] at returned'
        cases returned'
        exact rest
      · intro both
        exact both.2 value returned
    have rest := (continues value isGood).iff same
    rw [returned] at rest ⊢
    exact rest
  · refine ⟨fun both => absurd both.1 holds, ?_⟩
    intro _
    rw [guarded.faults holds]
    rfl

/-- A sequence whose second part is guarded alike wherever the first part ends. -/
theorem andThen {good' : β → Prop} {next : α → Except ε β} {cond' : Prop}
    (guarded : Guarded cond good fault run)
    (continues : ∀ value, good value → Guarded cond' good' fault (next value)) :
    Guarded (cond ∧ cond') good' fault (run >>= next) := by
  refine (guarded.bind continues).iff ?_
  constructor
  · intro both
    rcases guarded.returns both.1 with ⟨value, returned, _⟩
    exact ⟨both.1, both.2 value returned⟩
  · intro both
    exact ⟨both.1, fun _ _ => both.2⟩

/-- A loop is guarded by the condition on all of its steps. -/
theorem foldlM {step : α → ι → Except ε α} {cond : α → ι → Prop} :
    ∀ (items : List ι) (start : α),
      (∀ item ∈ items, ∀ value, good value → Guarded (cond value item) good fault (step value item)) →
      good start → Guarded (AllAlong step cond start items) good fault (items.foldlM step start)
  | [], start, _, isGood =>
      { returns := fun _ => ⟨start, rfl, isGood⟩
        faults := fun fails => absurd trivial fails }
  | item :: rest, start, steps, isGood => by
      rw [List.foldlM_cons]
      refine (steps item List.mem_cons_self start isGood).bind ?_
      intro next nextGood
      exact foldlM rest next
        (fun other member => steps other (List.mem_cons_of_mem item member)) nextGood

end Guarded

end PacketForwarding
