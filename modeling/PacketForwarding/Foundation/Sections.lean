import Mathlib

/-! # Critical sections one after the other

Each party passes once through a section that is guarded by one lock. In whatever order
they come, the visits are those of a sequential run. Whether every party gets through is
decided by the visits that give the lock back.
-/

namespace PacketForwarding

/-- What a visit leaves behind. -/
structure Visit (σ ρ : Type*) where
  shared : σ
  result : ρ
  released : Bool

inductive Phase
  | outside
  | inside
  | returned
  deriving DecidableEq

/-- The parties around a lock. The results are in the order of the visits. -/
structure Sections (π σ ρ : Type*) where
  shared : σ
  locked : Bool
  phase : π → Phase
  results : List (π × ρ)

namespace Sections

variable {π σ ρ : Type*} (body : σ → Visit σ ρ)

def start (shared : σ) : Sections π σ ρ :=
  ⟨shared, false, fun _ => .outside, []⟩

variable [DecidableEq π]

def enter (sections : Sections π σ ρ) (party : π) : Sections π σ ρ :=
  { sections with locked := true, phase := Function.update sections.phase party .inside }

def leave (sections : Sections π σ ρ) (party : π) : Sections π σ ρ :=
  let visit := body sections.shared
  { shared := visit.shared
    locked := !visit.released
    phase := Function.update sections.phase party .returned
    results := sections.results ++ [(party, visit.result)] }

/-- A party takes the lock when it is free, and one that is inside makes its visit. -/
inductive Step : Sections π σ ρ → Sections π σ ρ → Prop
  | enter (sections : Sections π σ ρ) (party : π) (outside : sections.phase party = .outside)
      (free : sections.locked = false) : Step sections (sections.enter party)
  | leave (sections : Sections π σ ρ) (party : π) (inside : sections.phase party = .inside) :
      Step sections (sections.leave body party)

abbrev Reaches : Sections π σ ρ → Sections π σ ρ → Prop :=
  Relation.ReflTransGen (Step body)

/-! ## A sequential run -/

/-- What is shared after so many visits. -/
def after (first : σ) : Nat → σ
  | 0 => first
  | count + 1 => (body (after first count)).shared

/-- The visit that so many others precede. -/
def visit (first : σ) (count : Nat) : Visit σ ρ :=
  body (after body first count)

/-- The lock is free, or the one party inside holds it, or the last visit kept it. -/
inductive Holder (first : σ) (sections : Sections π σ ρ) : Prop
  | nobody (free : sections.locked = false) (empty : ∀ party, sections.phase party ≠ .inside)
      (released : ∀ count, count < sections.results.length →
        (visit body first count).released = true)
  | party (holder : π) (held : sections.locked = true) (inside : sections.phase holder = .inside)
      (only : ∀ party, sections.phase party = .inside → party = holder)
      (released : ∀ count, count < sections.results.length →
        (visit body first count).released = true)
  | lost (last : Nat) (held : sections.locked = true)
      (empty : ∀ party, sections.phase party ≠ .inside)
      (length : sections.results.length = last + 1)
      (kept : (visit body first last).released = false)

/-- The visits so far are those of a sequential run, one for each party that returned. -/
structure Serial (first : σ) (sections : Sections π σ ρ) : Prop where
  shared : sections.shared = after body first sections.results.length
  results : sections.results.map Prod.snd =
    (List.range sections.results.length).map fun count => (visit body first count).result
  nodup : (sections.results.map Prod.fst).Nodup
  returned : ∀ party, sections.phase party = .returned ↔ party ∈ sections.results.map Prod.fst
  holder : Holder body first sections

namespace Serial

variable {body} {first : σ} {sections : Sections π σ ρ}

omit [DecidableEq π] in
theorem start (first : σ) : Serial body first (start first : Sections π σ ρ) where
  shared := rfl
  results := rfl
  nodup := List.nodup_nil
  returned := by
    intro party
    simp [Sections.start]
  holder := .nobody rfl (fun _ => by simp [Sections.start])
    fun _ impossible => absurd impossible (Nat.not_lt_zero _)

theorem enter (serial : Serial body first sections) {party : π}
    (outside : sections.phase party = .outside) (free : sections.locked = false) :
    Serial body first (sections.enter party) where
  shared := serial.shared
  results := serial.results
  nodup := serial.nodup
  returned := by
    intro other
    refine Iff.trans ?_ (serial.returned other)
    by_cases same : other = party
    · rw [same, outside]
      simp [Sections.enter]
    · simp [Sections.enter, Function.update_of_ne same]
  holder := by
    cases serial.holder with
    | nobody _ empty released =>
        refine .party party rfl (Function.update_self _ _ _) ?_ released
        intro other inside
        by_contra different
        simp only [Sections.enter, Function.update_of_ne different] at inside
        exact empty other inside
    | party _ held => simp [free] at held
    | lost _ held => simp [free] at held

theorem leave (serial : Serial body first sections) {party : π}
    (inside : sections.phase party = .inside) :
    Serial body first (sections.leave body party) := by
  have length : (sections.leave body party).results.length = sections.results.length + 1 :=
    List.length_append
  have own : body sections.shared = visit body first sections.results.length := by
    rw [visit, serial.shared]
  have notBefore : party ∉ sections.results.map Prod.fst := by
    rw [← serial.returned, inside]
    simp
  exact {
    shared := by
      rw [length, after, ← serial.shared]
      rfl
    results := by
      rw [length, List.range_succ, List.map_append, ← serial.results, List.map_singleton, ← own]
      exact List.map_append
    nodup := by
      have appended : (sections.leave body party).results.map Prod.fst =
        sections.results.map Prod.fst ++ [party] := List.map_append
      rw [appended]
      refine serial.nodup.append (List.nodup_singleton party) ?_
      simpa using notBefore
    returned := by
      intro other
      have appended : (sections.leave body party).results.map Prod.fst =
        sections.results.map Prod.fst ++ [party] := List.map_append
      rw [appended, List.mem_append, List.mem_singleton, ← serial.returned]
      by_cases same : other = party
      · simp [Sections.leave, same]
      · simp [Sections.leave, same]
    holder := by
      have empty : ∀ holder, (∀ other, sections.phase other = .inside → other = holder) →
          ∀ other, (sections.leave body party).phase other ≠ .inside := by
        intro holder only other otherInside
        by_cases same : other = party
        · simp [Sections.leave, same] at otherInside
        · simp only [Sections.leave, Function.update_of_ne same] at otherInside
          exact same ((only other otherInside).trans (only party inside).symm)
      have lock : (sections.leave body party).locked =
          !(visit body first sections.results.length).released := by
        rw [← own]
        rfl
      cases serial.holder with
      | nobody _ nowhere => exact absurd inside (nowhere party)
      | lost _ _ nowhere => exact absurd inside (nowhere party)
      | party holder _ _ only released =>
          cases gaveBack : (visit body first sections.results.length).released with
          | false =>
              exact .lost sections.results.length (by rw [lock, gaveBack]; rfl)
                (empty holder only) length gaveBack
          | true =>
              refine .nobody (by rw [lock, gaveBack]; rfl) (empty holder only) ?_
              intro count before
              rw [length] at before
              rcases Nat.lt_succ_iff_lt_or_eq.mp before with earlier | last
              · exact released count earlier
              · rw [last]
                exact gaveBack }

theorem step {next : Sections π σ ρ} (serial : Serial body first sections)
    (taken : Step body sections next) : Serial body first next := by
  cases taken with
  | enter party outside free => exact serial.enter outside free
  | leave party inside => exact serial.leave inside

/-- In every order, the visits are those of a sequential run. -/
theorem reaches {last : Sections π σ ρ} (reached : Reaches body (Sections.start first) last) :
    Serial body first last := by
  induction reached with
  | refl => exact .start first
  | tail _ taken induction => exact induction.step taken

/-! ## Getting through -/

omit [DecidableEq π] in
theorem length_le [Fintype π] (serial : Serial body first sections) :
    sections.results.length ≤ Fintype.card π := by
  have short := serial.nodup.length_le_card
  rwa [List.length_map] at short

theorem exists_waiting [Fintype π] (serial : Serial body first sections)
    (fewer : sections.results.length < Fintype.card π) :
    ∃ party, sections.phase party ≠ .returned := by
  by_contra none
  push Not at none
  have all : (Finset.univ : Finset π) ⊆ (sections.results.map Prod.fst).toFinset := by
    intro party _
    exact List.mem_toFinset.mpr ((serial.returned party).mp (none party))
  have short := (Finset.card_le_card all).trans (List.toFinset_card_le _)
  rw [List.length_map] at short
  exact absurd fewer (Nat.not_lt.mpr short)

omit [DecidableEq π] in
/-- As long as a party has not returned, fewer visits were made than there are parties. -/
theorem length_lt [Fintype π] (serial : Serial body first sections) {party : π}
    (waiting : sections.phase party ≠ .returned) :
    sections.results.length < Fintype.card π := by
  have notListed : party ∉ sections.results.map Prod.fst := by
    rw [← serial.returned]
    exact waiting
  have short := (List.nodup_cons.mpr ⟨notListed, serial.nodup⟩).length_le_card
  rwa [List.length_cons, List.length_map] at short

omit [DecidableEq π] in
theorem empty_of_free (serial : Serial body first sections) (free : sections.locked = false)
    (party : π) : sections.phase party ≠ .inside := by
  cases serial.holder with
  | nobody _ empty => exact empty party
  | party _ held => simp [free] at held
  | lost _ held => simp [free] at held

end Serial

section Progress

variable {body} {first : σ}

/-- From a free lock, a party gets in and out. -/
theorem reaches_leave {sections : Sections π σ ρ} (free : sections.locked = false) {party : π}
    (outside : sections.phase party = .outside) :
    Reaches body sections ((sections.enter party).leave body party) := by
  have entered : Step body sections (sections.enter party) := .enter sections party outside free
  have left : Step body (sections.enter party) ((sections.enter party).leave body party) :=
    .leave _ party (Function.update_self _ _ _)
  exact (Relation.ReflTransGen.single entered).tail left

theorem leave_returned (sections : Sections π σ ρ) (party : π) :
    (sections.leave body party).phase party = .returned :=
  Function.update_self _ _ _

omit [DecidableEq π] in
theorem outside_of_not {sections : Sections π σ ρ} {party : π}
    (notInside : sections.phase party ≠ .inside) (waiting : sections.phase party ≠ .returned) :
    sections.phase party = .outside := by
  cases phase : sections.phase party with
  | outside => rfl
  | inside => exact absurd phase notInside
  | returned => exact absurd phase waiting

/-- While the visits give the lock back, so many of them can be made. -/
theorem exists_reaches [Fintype π] : ∀ count, count ≤ Fintype.card π →
    (∀ earlier, earlier < count → (visit body first earlier).released = true) →
    ∃ last : Sections π σ ρ, Reaches body (start first) last ∧ last.results.length = count ∧
      last.locked = false := by
  intro count
  induction count with
  | zero =>
      intro _ _
      exact ⟨start first, .refl, rfl, rfl⟩
  | succ count induction =>
      intro enough released
      rcases induction (Nat.le_of_succ_le enough)
        (fun earlier before => released earlier (Nat.lt_succ_of_lt before)) with
        ⟨last, reached, length, free⟩
      have serial := Serial.reaches reached
      rcases serial.exists_waiting (by rw [length]; exact enough) with ⟨party, waiting⟩
      have outside := outside_of_not (serial.empty_of_free free party) waiting
      have own : body last.shared = visit body first count := by
        rw [visit, serial.shared, length]
      refine ⟨_, reached.trans (reaches_leave free outside), ?_, ?_⟩
      · exact List.length_append.trans (congrArg (· + 1) length)
      · change (!(body last.shared).released) = false
        rw [own, released count (Nat.lt_succ_self count)]
        rfl

/-- The lock is held by a party inside, and every party can still return. -/
structure Open (body : σ → Visit σ ρ) (sections : Sections π σ ρ) : Prop where
  held : sections.locked = true → ∃ party, sections.phase party = .inside
  returns : ∀ party, ∃ later, Reaches body sections later ∧ later.phase party = .returned

theorem open_of_released [Fintype π]
    (released : ∀ count, count < Fintype.card π → (visit body first count).released = true)
    {sections : Sections π σ ρ} (reached : Reaches body (start first) sections) :
    Open body sections := by
  have serial := Serial.reaches reached
  have fromFree : ∀ middle : Sections π σ ρ, Serial body first middle → middle.locked = false →
      ∀ party, ∃ later, Reaches body middle later ∧ later.phase party = .returned := by
    intro middle serial free party
    by_cases waiting : middle.phase party = .returned
    · exact ⟨middle, .refl, waiting⟩
    · have outside := outside_of_not (serial.empty_of_free free party) waiting
      exact ⟨_, reaches_leave free outside, leave_returned _ party⟩
  cases serial.holder with
  | nobody free =>
      refine ⟨fun held => ?_, fromFree sections serial free⟩
      rw [free] at held
      cases held
  | lost last _ _ length kept =>
      have inside : last < Fintype.card π := by
        have short := serial.length_le
        omega
      rw [released last inside] at kept
      cases kept
  | party holder held inside =>
      have left : Step body sections (sections.leave body holder) := .leave _ holder inside
      have waiting : sections.phase holder ≠ .returned := by
        rw [inside]
        decide
      have free : (sections.leave body holder).locked = false := by
        change (!(body sections.shared).released) = false
        rw [serial.shared]
        change (!(visit body first sections.results.length).released) = false
        rw [released _ (serial.length_lt waiting)]
        rfl
      refine ⟨fun _ => ⟨holder, inside⟩, ?_⟩
      intro party
      rcases fromFree _ (serial.step left) free party with ⟨later, more, returned⟩
      exact ⟨later, .head left more, returned⟩

/-- Every party gets through in every order if and only if each of their visits gives the
lock back. -/
theorem open_iff [Fintype π] :
    (∀ sections : Sections π σ ρ, Reaches body (start first) sections → Open body sections) ↔
      ∀ count, count < Fintype.card π → (visit body first count).released = true := by
  constructor
  · intro always count
    induction count using Nat.strong_induction_on with
    | _ count induction =>
        intro inside
        have reachable : ∃ last : Sections π σ ρ, Reaches body (start first) last ∧
            last.results.length = count ∧ last.locked = false :=
          exists_reaches count (Nat.le_of_lt inside)
            (fun earlier before => induction earlier before (before.trans inside))
        rcases reachable with ⟨last, reached, length, free⟩
        have serial := Serial.reaches reached
        rcases serial.exists_waiting (by rw [length]; exact inside) with ⟨party, waiting⟩
        have outside := outside_of_not (serial.empty_of_free free party) waiting
        have next := reached.trans (reaches_leave free outside)
        have one : ((last.enter party).leave body party).results.length = count + 1 :=
          List.length_append.trans (congrArg (· + 1) length)
        have own : body last.shared = visit body first count := by
          rw [visit, serial.shared, length]
        cases (Serial.reaches next).holder with
        | nobody _ _ released => exact released count (by rw [one]; exact Nat.lt_succ_self count)
        | party _ _ _ _ released =>
            exact released count (by rw [one]; exact Nat.lt_succ_self count)
        | lost _ held empty =>
            rcases (always _ next).held held with ⟨other, otherInside⟩
            exact absurd otherInside (empty other)
  · intro released sections reached
    exact open_of_released released reached

end Progress

end Sections

end PacketForwarding
