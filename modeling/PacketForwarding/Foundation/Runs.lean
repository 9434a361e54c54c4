import Mathlib

/-! # Maximal runs of equal values

A sequence splits into maximal runs of equal consecutive values. This file says
what the runs are, that they tile every prefix, and what a table of counters has
to satisfy while the runs are being counted from left to right, one element or
one block of elements at a time.
-/

namespace PacketForwarding.Runs

/-- A run starts at `start` when the value changes there. -/
def StartsRun (values : Nat → α) (start : Nat) : Prop :=
  start = 0 ∨ values (start - 1) ≠ values start

/-- The values at `start, ..., start + length - 1` are one maximal run of the
first `count` values. -/
structure MaximalRun (values : Nat → α) (count start length : Nat) : Prop where
  positive : 0 < length
  starts : StartsRun values start
  inside : start + length ≤ count
  constant : ∀ offset, offset < length → values (start + offset) = values start
  closed : start + length = count ∨ values (start + length) ≠ values start

namespace MaximalRun

theorem length_unique {values : Nat → α}
    (left : MaximalRun values count start length)
    (right : MaximalRun values count start length') : length = length' := by
  rcases Nat.lt_trichotomy length length' with shorter | equal | longer
  · rcases left.closed with atEnd | differs
    · have := right.inside
      omega
    · exact absurd (right.constant length shorter) differs
  · exact equal
  · rcases right.closed with atEnd | differs
    · have := left.inside
      omega
    · exact absurd (left.constant length' longer) differs

theorem startsRun_next {values : Nat → α}
    (run : MaximalRun values count start length)
    (more : start + length < count) : StartsRun values (start + length) := by
  right
  have last : values (start + length - 1) = values start := by
    have positive := run.positive
    rw [Nat.add_sub_assoc positive]
    exact run.constant (length - 1) (by omega)
  rcases run.closed with atEnd | differs
  · omega
  · rw [last]
    exact Ne.symm differs

/-- A maximal run does not reach over a position where another run starts. -/
theorem le_of_startsRun {values : Nat → α}
    (run : MaximalRun values count start length) (starts : StartsRun values other)
    (after : start < other) : start + length ≤ other := by
  by_contra reaches
  have atPrevious := run.constant (other - 1 - start) (by omega)
  have atOther := run.constant (other - start) (by omega)
  have previous : start + (other - 1 - start) = other - 1 := by omega
  rw [previous] at atPrevious
  rw [Nat.add_sub_of_le (Nat.le_of_lt after)] at atOther
  rcases starts with zero | changes
  · omega
  · exact changes (atPrevious.trans atOther.symm)

/-- A run that ends before position `shorter` is maximal there as well. -/
theorem truncate {values : Nat → α} {shorter : Nat}
    (run : MaximalRun values count start length)
    (ends : start + length < shorter) (le : shorter ≤ count) :
    MaximalRun values shorter start length where
  positive := run.positive
  starts := run.starts
  inside := by omega
  constant := run.constant
  closed := by
    rcases run.closed with atEnd | differs
    · omega
    · exact Or.inr differs

end MaximalRun

/-- Every position that starts a run starts a maximal one. -/
theorem exists_maximalRun [DecidableEq α] (values : Nat → α) {count start : Nat}
    (inside : start < count) (starts : StartsRun values start) :
    ∃ length, MaximalRun values count start length := by
  let leaves := fun length =>
    0 < length ∧ (start + length = count ∨ values (start + length) ≠ values start)
  have someLeaves : ∃ length, leaves length :=
    ⟨count - start, by omega, Or.inl (by omega)⟩
  have positive := (Nat.find_spec someLeaves).1
  have stays : ∀ offset, offset < Nat.find someLeaves →
      values (start + offset) = values start := by
    intro offset before
    rcases Nat.eq_zero_or_pos offset with zero | offsetPos
    · subst zero
      rfl
    · have notLeft := Nat.find_min someLeaves before
      by_contra differs
      exact notLeft ⟨offsetPos, Or.inr differs⟩
  refine ⟨Nat.find someLeaves, positive, starts, ?_, stays, (Nat.find_spec someLeaves).2⟩
  have bounded : Nat.find someLeaves ≤ count - start :=
    Nat.find_min' someLeaves ⟨by omega, Or.inl (by omega)⟩
  omega

/-! ## Tilings -/

/-- The list of maximal runs, as pairs of start and length, that tiles the
positions from `start` up to `count`. -/
inductive Tiling (values : Nat → α) (count : Nat) : Nat → List (Nat × Nat) → Prop
  | done : Tiling values count count []
  | run : MaximalRun values count start length →
      Tiling values count (start + length) rest →
      Tiling values count start ((start, length) :: rest)

theorem exists_tiling_from [DecidableEq α] (values : Nat → α) (count : Nat) :
    ∀ remaining start, start + remaining = count →
      (0 < remaining → StartsRun values start) →
      ∃ runs, Tiling values count start runs := by
  intro remaining
  induction remaining using Nat.strong_induction_on with
  | _ remaining induction =>
      intro start total starts
      rcases Nat.eq_zero_or_pos remaining with zero | positive
      · subst zero
        have atEnd : start = count := by omega
        rw [atEnd]
        exact ⟨[], .done⟩
      · rcases exists_maximalRun values (by omega : start < count)
          (starts positive) with ⟨length, run⟩
        have lengthPos := run.positive
        have inside := run.inside
        rcases induction (remaining - length) (by omega) (start + length)
          (by omega) (fun more => run.startsRun_next (by omega)) with ⟨rest, tiled⟩
        exact ⟨(start, length) :: rest, .run run tiled⟩

/-- Every prefix of a sequence is tiled by its maximal runs. -/
theorem exists_tiling [DecidableEq α] (values : Nat → α) (count : Nat) :
    ∃ runs, Tiling values count 0 runs :=
  exists_tiling_from values count count 0 (by omega) (fun _ => Or.inl rfl)

namespace Tiling

/-- The runs cover every position exactly once and in order. -/
theorem flatMap_range' {values : Nat → α}
    (tiled : Tiling values count start runs) :
    runs.flatMap (fun run => List.range' run.1 run.2) =
      List.range' start (count - start) := by
  induction tiled with
  | done => simp
  | @run start length rest run tiled induction =>
      have inside := run.inside
      rw [List.flatMap_cons, induction]
      have split : count - start = length + (count - (start + length)) := by omega
      rw [split, ← List.range'_append_1]

theorem maximalRun_of_mem {values : Nat → α}
    (tiled : Tiling values count start runs) (member : (head, length) ∈ runs) :
    MaximalRun values count head length := by
  induction tiled with
  | done => cases member
  | run run tiled induction =>
      rcases List.mem_cons.mp member with equal | member
      · cases equal
        exact run
      · exact induction member

/-- A run of all positions is the only one. -/
theorem eq_singleton {values : Nat → α} (tiled : Tiling values count 0 runs)
    (all : MaximalRun values count 0 count) : runs = [(0, count)] := by
  cases tiled with
  | done => exact absurd all.positive (Nat.lt_irrefl 0)
  | run run rest =>
      have whole := run.length_unique all
      subst whole
      rw [Nat.zero_add] at rest
      cases rest with
      | done => rfl
      | run next _ =>
          have positive := next.positive
          have inside := next.inside
          omega

end Tiling

theorem Tiling.exists_run {values : Nat → α} (tiled : Tiling values count 0 runs) {index : Nat}
    (inside : index < count) :
    ∃ run ∈ runs, run.1 ≤ index ∧ index < run.1 + run.2 := by
  have member : index ∈ runs.flatMap fun run => List.range' run.1 run.2 := by
    rw [tiled.flatMap_range', List.mem_range'_1]
    omega
  rcases List.mem_flatMap.mp member with ⟨run, inRuns, inRun⟩
  exact ⟨run, inRuns, List.mem_range'_1.mp inRun⟩

/-! ## Runs that are given by their joints -/

section Joints

variable (joined : Nat → Prop) [DecidablePred joined]

/-- A label for each element, the same for neighbours that are joined. -/
def label (index : Nat) : Nat :=
  Nat.count (fun other => ¬ joined other) index

/-- Where the run of an element begins. -/
def headOf : Nat → Nat
  | 0 => 0
  | index + 1 => if joined index then headOf index else index + 1

variable {joined}

theorem label_eq_succ_iff (index : Nat) :
    label joined index = label joined (index + 1) ↔ joined index := by
  rw [label, label, Nat.count_succ]
  by_cases joint : joined index
  · simp [joint]
  · simp [joint]

/-- The label of an element depends on the joints before it. -/
theorem label_congr {joined' : Nat → Prop} [DecidablePred joined'] {count : Nat}
    (agree : ∀ index, index < count → (joined index ↔ joined' index)) :
    label joined count = label joined' count := by
  induction count with
  | zero => rfl
  | succ count induction =>
      have earlier := induction fun index below => agree index (Nat.lt_succ_of_lt below)
      rw [label, label] at earlier
      rw [label, label, Nat.count_succ, Nat.count_succ, earlier]
      simp only [agree count (Nat.lt_succ_self count)]

theorem joined_of_run (run : MaximalRun (label joined) count head length) {offset : Nat}
    (inside : offset + 1 < length) : joined (head + offset) := by
  apply (label_eq_succ_iff _).mp
  have here := run.constant offset (Nat.lt_of_succ_lt inside)
  have next := run.constant (offset + 1) inside
  exact here.trans next.symm

theorem headOf_of_run (run : MaximalRun (label joined) count head length) :
    ∀ offset, offset < length → headOf joined (head + offset) = head := by
  intro offset
  induction offset with
  | zero =>
      intro _
      rcases run.starts with first | changes
      · rw [first]
        rfl
      · cases head with
        | zero => rfl
        | succ before =>
            have apart : ¬ joined before := fun joint =>
              changes ((label_eq_succ_iff before).mpr joint)
            exact if_neg apart
  | succ offset induction =>
      intro inside
      have same := induction (Nat.lt_of_succ_lt inside)
      exact (if_pos (joined_of_run run inside)).trans same

theorem lt_of_joined (run : MaximalRun (label joined) count head length) {offset : Nat}
    (inside : offset < length) (more : head + offset + 1 < count) (joint : joined (head + offset)) :
    offset + 1 < length := by
  by_contra last
  have isLast : offset + 1 = length := by omega
  rcases run.closed with atEnd | differs
  · omega
  · apply differs
    rw [← isLast]
    exact ((label_eq_succ_iff _).mpr joint).symm.trans (run.constant offset inside)

/-- The values of each run are those of its head if and only if joined neighbours are equal.
Some heads may be exempt, with all of their runs. -/
theorem uniform_iff {β : Type*} {values : Nat → β} {runs : List (Nat × Nat)}
    (tiled : Tiling (label joined) count 0 runs) (exempt : β → Prop) :
    (∀ run ∈ runs, ¬ exempt (values run.1) →
        ∀ index, run.1 ≤ index → index < run.1 + run.2 → values index = values run.1) ↔
      ∀ index, index + 1 < count → joined index → ¬ exempt (values (headOf joined index)) →
        values index = values (index + 1) := by
  constructor
  · intro uniform index more joint notExempt
    rcases tiled.exists_run (Nat.lt_of_succ_lt more) with ⟨run, member, after, before⟩
    have maximal := tiled.maximalRun_of_mem member
    rcases Nat.exists_eq_add_of_le after with ⟨offset, rfl⟩
    have inside : offset < run.2 := by omega
    rw [headOf_of_run maximal offset inside] at notExempt
    have next := lt_of_joined maximal inside more joint
    rw [uniform run member notExempt (run.1 + offset) after before,
      uniform run member notExempt (run.1 + offset + 1) (by omega) (by omega)]
  · intro equal run member notExempt index after before
    have maximal := tiled.maximalRun_of_mem member
    have fits := maximal.inside
    rcases Nat.exists_eq_add_of_le after with ⟨offset, rfl⟩
    induction offset with
    | zero => rfl
    | succ offset induction =>
        have inside : offset + 1 < run.2 := by omega
        have isHead := headOf_of_run maximal offset (Nat.lt_of_succ_lt inside)
        have same := equal (run.1 + offset) (by omega) (joined_of_run maximal inside)
          (by rw [isHead]; exact notExempt)
        exact same.symm.trans (induction (by omega) (by omega))

end Joints

/-! ## Counting runs from left to right -/

/-- After the first `count` values have been counted, `start` is where the last
run begins, its counter holds the length seen so far, and the counter of every
run that is already over holds its length. Counters at positions that start no
run hold nothing meaningful. -/
structure RunCounter (values : Nat → α) (counter : Nat → Nat)
    (count start : Nat) : Prop where
  inside : start < count
  starts : StartsRun values start
  constant : ∀ index, start ≤ index → index < count → values index = values start
  counted : start + counter start = count
  earlier : ∀ head length, MaximalRun values count head length →
    head + length ≤ start → counter head = length

/-- The counter at the head of every maximal run is its length. -/
def ExactCounts (values : Nat → α) (counter : Nat → Nat) (count : Nat) : Prop :=
  ∀ head length, MaximalRun values count head length → counter head = length

namespace RunCounter

theorem initial (values : Nat → α) {counter : Nat → Nat} (one : counter 0 = 1) :
    RunCounter values counter 1 0 where
  inside := by omega
  starts := Or.inl rfl
  constant := by
    intro index _ below
    have isFirst : index = 0 := by omega
    rw [isFirst]
  counted := by omega
  earlier := by
    intro head length run before
    have := run.positive
    omega

/-- The run that is still open is the last maximal run. -/
theorem maximalRun {values : Nat → α}
    (run : RunCounter values counter count start) :
    MaximalRun values count start (counter start) where
  positive := by
    have := run.inside
    have := run.counted
    omega
  starts := run.starts
  inside := Nat.le_of_eq run.counted
  constant := by
    intro offset inside
    have := run.counted
    exact run.constant _ (by omega) (by omega)
  closed := Or.inl run.counted

/-- No run starts inside the open run. -/
theorem le_of_startsRun {values : Nat → α}
    (run : RunCounter values counter count start) (starts : StartsRun values other)
    (after : start < other) : count ≤ other := by
  by_contra inside
  have atPrevious := run.constant (other - 1) (by omega) (by omega)
  have atOther := run.constant other (by omega) (by omega)
  rcases starts with zero | changes
  · omega
  · exact changes (atPrevious.trans atOther.symm)

/-- Once everything is counted, the counter at the head of every maximal run is
its length. -/
theorem exact {values : Nat → α} (run : RunCounter values counter count start)
    (other : MaximalRun values count head length) : counter head = length := by
  have positive := other.positive
  have inside := other.inside
  rcases Nat.lt_trichotomy head start with before | equal | after
  · exact run.earlier head length other (other.le_of_startsRun run.starts before)
  · subst equal
    exact run.maximalRun.length_unique other
  · have := run.le_of_startsRun other.starts after
    omega

/-- The next values continue the open run. -/
theorem extend {values : Nat → α} (run : RunCounter values counter count start)
    {width : Nat} (same : ∀ index, count ≤ index → index < count + width →
      values index = values start) {counter' : Nat → Nat}
    (incremented : counter' start = counter start + width)
    (others : ∀ index, index < start → counter' index = counter index) :
    RunCounter values counter' (count + width) start where
  inside := by
    have := run.inside
    omega
  starts := run.starts
  constant := by
    intro index after below
    rcases Nat.lt_or_ge index count with earlier | later
    · exact run.constant index after earlier
    · exact same index later below
  counted := by
    have := run.counted
    omega
  earlier := by
    intro head length other before
    have := run.inside
    have := other.positive
    rw [others head (by omega)]
    exact run.earlier head length (other.truncate (by omega) (by omega)) before

/-- After exact counts, the next value starts a new run. -/
theorem opens {values : Nat → α} {counter counter' : Nat → Nat}
    (exact : ExactCounts values counter count)
    (starts : StartsRun values count) (one : counter' count = 1)
    (others : ∀ index, index < count → counter' index = counter index) :
    RunCounter values counter' (count + 1) count where
  inside := by omega
  starts := starts
  constant := by
    intro index after below
    have isLast : index = count := by omega
    rw [isLast]
  counted := by omega
  earlier := by
    intro head length other before
    have positive := other.positive
    rw [others head (by omega)]
    refine exact head length ⟨positive, other.starts, before, other.constant, ?_⟩
    rcases other.closed with atEnd | differs
    · omega
    · exact Or.inr differs

/-- The next value differs from the open run. -/
theorem begin {values : Nat → α} (run : RunCounter values counter count start)
    (changes : values count ≠ values start) {counter' : Nat → Nat}
    (one : counter' count = 1)
    (others : ∀ index, index < count → counter' index = counter index) :
    RunCounter values counter' (count + 1) count := by
  refine opens (fun _ _ other => run.exact other) (Or.inr ?_) one others
  have := run.inside
  rw [run.constant (count - 1) (by omega) (by omega)]
  exact Ne.symm changes

/-- Without the value that starts the last run, the counts are exact. -/
theorem exact_before {values : Nat → α} (run : RunCounter values counter (count + 1) count)
    {counter' : Nat → Nat} (others : ∀ index, index < count → counter' index = counter index) :
    ExactCounts values counter' count := by
  intro head length other
  have positive := other.positive
  have inside := other.inside
  rw [others head (by omega)]
  refine run.earlier head length ⟨positive, other.starts, by omega, other.constant, ?_⟩ inside
  rcases other.closed with atEnd | differs
  · right
    rcases run.starts with zero | changes
    · omega
    · have last := other.constant (length - 1) (by omega)
      have position : head + (length - 1) = count - 1 := by omega
      rw [position] at last
      rw [atEnd, ← last]
      exact Ne.symm changes
  · exact Or.inr differs

/-- Undo the count of the last value of the open run. -/
theorem retract {values : Nat → α}
    (run : RunCounter values counter (count + 1) start) (inside : start < count)
    {counter' : Nat → Nat} (decremented : counter' start + 1 = counter start)
    (others : ∀ index, index < start → counter' index = counter index) :
    RunCounter values counter' count start where
  inside := inside
  starts := run.starts
  constant := by
    intro index after below
    exact run.constant index after (by omega)
  counted := by
    have := run.counted
    omega
  earlier := by
    intro head length other before
    have positive := other.positive
    rw [others head (by omega)]
    refine run.earlier head length
      ⟨positive, other.starts, by omega, other.constant, ?_⟩ before
    rcases other.closed with atEnd | differs
    · omega
    · exact Or.inr differs

/-- Only the values counted so far matter. -/
theorem congr_values {values values' : Nat → α}
    (run : RunCounter values counter count start)
    (agree : ∀ index, index < count → values' index = values index) :
    RunCounter values' counter count start where
  inside := run.inside
  starts := by
    have inside := run.inside
    rcases run.starts with zero | changes
    · exact Or.inl zero
    · right
      rw [agree _ (by omega), agree _ inside]
      exact changes
  constant := by
    intro index after below
    rw [agree _ below, agree _ run.inside]
    exact run.constant index after below
  counted := run.counted
  earlier := by
    intro head length other before
    have inside := run.inside
    have positive := other.positive
    refine run.earlier head length ⟨positive, ?_, other.inside, ?_, ?_⟩ before
    · rcases other.starts with zero | changes
      · exact Or.inl zero
      · right
        rw [← agree _ (by omega), ← agree _ (by omega)]
        exact changes
    · intro offset offsetLt
      rw [← agree _ (by omega), ← agree _ (by omega)]
      exact other.constant offset offsetLt
    · rcases other.closed with atEnd | differs
      · exact Or.inl atEnd
      · right
        rw [← agree _ (by omega), ← agree _ (by omega)]
        exact differs

end RunCounter

/-! ## Counting a block of values at once -/

/-- Among `width` neighbour comparisons, the ones from `index` on hold for
exactly `length` steps before the first failure or the end. -/
structure Stretch (equal : Nat → Prop) (width index length : Nat) : Prop where
  inside : index + length ≤ width
  holds : ∀ offset, offset < length → equal (index + offset)
  stops : index + length < width → ¬ equal (index + length)

/-- How many comparisons hold in a row, among the `room` ones from `index` on. -/
def stretchLength (equal : Nat → Bool) : Nat → Nat → Nat
  | 0, _ => 0
  | room + 1, index => if equal index then 1 + stretchLength equal room (index + 1) else 0

theorem stretch_stretchLength (equal : Nat → Bool) :
    ∀ room index, Stretch (fun offset => equal offset = true) (index + room) index
      (stretchLength equal room index)
  | 0, index => ⟨by simp [stretchLength], by simp [stretchLength], by simp [stretchLength]⟩
  | room + 1, index => by
      have rest := stretch_stretchLength equal room (index + 1)
      have restInside := rest.inside
      by_cases holds : equal index = true
      · rw [stretchLength, if_pos holds]
        refine ⟨by omega, ?_, ?_⟩
        · intro offset before
          rcases Nat.eq_zero_or_pos offset with zero | positive
          · rw [zero]
            exact holds
          · have later := rest.holds (offset - 1) (by omega)
            have position : index + 1 + (offset - 1) = index + offset := by omega
            rw [position] at later
            exact later
        · intro inside
          have stops := rest.stops (by omega)
          rw [Nat.add_assoc] at stops
          exact stops
      · rw [stretchLength, if_neg holds]
        exact ⟨by omega, by omega, fun _ => holds⟩

theorem Stretch.congr {equal equal' : Nat → Prop}
    (stretch : Stretch equal width index length)
    (agree : ∀ offset, offset < width → (equal' offset ↔ equal offset)) :
    Stretch equal' width index length where
  inside := stretch.inside
  holds := by
    intro offset before
    have inside := stretch.inside
    exact (agree _ (by omega)).mpr (stretch.holds offset before)
  stops := fun inside holds => stretch.stops inside ((agree _ inside).mp holds)

/-- The neighbour comparisons of the values that follow position `base`. -/
abbrev NextEqual (values : Nat → α) (base offset : Nat) : Prop :=
  values (base + offset) = values (base + offset + 1)

/-- Comparisons that hold from `index` on leave the values equal. -/
theorem values_eq_of_nextEqual (values : Nat → α) (base index : Nat) :
    ∀ length, (∀ offset, offset < length →
        NextEqual values base (index + offset)) →
      values (base + (index + length)) = values (base + index)
  | 0, _ => rfl
  | length + 1, holds => by
      have previous := values_eq_of_nextEqual values base index length
        (fun offset before => holds offset (by omega))
      have last := holds length (by omega)
      exact last.symm.trans previous

/-- A run of values that begins at `index` and closes inside the block is one
longer than its stretch of comparisons. -/
theorem Stretch.run_length {values : Nat → α}
    (stretch : Stretch (NextEqual values base) width index steps)
    (inside : index + length ≤ width)
    (constant : ∀ offset, offset < length →
      values (base + (index + offset)) = values (base + index))
    (differs : values (base + (index + length)) ≠ values (base + index)) :
    length = 1 + steps := by
  have stretchInside := stretch.inside
  rcases Nat.lt_trichotomy length (1 + steps) with shorter | equal | longer
  · exfalso
    apply differs
    apply values_eq_of_nextEqual values base index length
    intro offset before
    exact stretch.holds offset (by omega)
  · exact equal
  · exfalso
    apply stretch.stops (by omega)
    have left := constant steps (by omega)
    have right := constant (steps + 1) (by omega)
    exact left.trans right.symm

namespace RunCounter

/-- A run that was open when a block began, and closes inside it, grows by the comparisons
that hold from the start of the block. -/
theorem open_length {values : Nat → α} (run : RunCounter values counter (count + 1) start)
    (stretch : Stretch (NextEqual values count) width 0 steps)
    (other : MaximalRun values total start length) (ends : start + length ≤ count + width)
    (differs : values (start + length) ≠ values start) :
    length = count - start + (1 + steps) := by
  have startLe : start ≤ count := Nat.le_of_lt_succ run.inside
  have reaches : count - start < length := by
    by_contra short
    exact differs (run.constant (start + length) (by omega) (by omega))
  have atCount : values count = values start := run.constant count startLe (Nat.lt_succ_self count)
  have inBlock : length - (count - start) = 1 + steps := by
    apply stretch.run_length (by omega)
    · intro offset offsetLt
      have along := other.constant (count - start + offset) (by omega)
      have position : start + (count - start + offset) = count + (0 + offset) := by omega
      rw [position] at along
      exact along.trans atCount.symm
    · have position : count + (0 + (length - (count - start))) = start + length := by omega
      rw [position, Nat.add_zero, atCount]
      exact differs
  omega

/-- The runs that close before the last change inside a block have the counters of the block. -/
theorem block_earlier {values : Nat → α}
    (run : RunCounter values counter (count + 1) start)
    {width head length : Nat} {stretch : Nat → Nat} {counter' : Nat → Nat} (some : 0 < width)
    (stretches : ∀ index, index < width →
      Stretch (NextEqual values count) width index (stretch index))
    (before : ∀ index, index < count → index ≠ start →
      counter' index = counter index)
    (atStart : start < count → counter' start = counter start + stretch 0)
    (inner : ∀ index, index < width → counter' (count + index) = 1 + stretch index)
    (other : MaximalRun values (count + 1 + width) head length)
    (otherBefore : head + length ≤ count + width) : counter' head = length := by
  have startLe : start ≤ count := Nat.le_of_lt_succ run.inside
  have positive := other.positive
  have differs : values (head + length) ≠ values head := by
    rcases other.closed with atEnd | differs
    · omega
    · exact differs
  rcases Nat.lt_trichotomy head start with earlier | equal | later
  · -- the run was over before the block
    have ends := other.le_of_startsRun run.starts earlier
    rw [before head (by omega) (by omega)]
    exact run.earlier head length (other.truncate (by omega) (by omega)) ends
  · -- the run was open when the block began
    subst equal
    have grown := run.open_length (stretches 0 (by omega)) other (by omega) differs
    rcases Nat.lt_or_ge head count with below | atBlock
    · have counted := run.counted
      rw [atStart below]
      omega
    · have same : head = count := by omega
      have counterAt := inner 0 (by omega)
      rw [Nat.add_zero] at counterAt
      rw [same, counterAt]
      omega
  · -- the run starts inside the block
    have beyond := run.le_of_startsRun other.starts later
    have position : head = count + (head - count) := by omega
    rw [position, inner (head - count) (by omega)]
    refine ((stretches (head - count) (by omega)).run_length (by omega) ?_ ?_).symm
    · intro offset offsetLt
      rw [← Nat.add_assoc, ← position]
      exact other.constant offset offsetLt
    · rw [← Nat.add_assoc, ← position]
      exact differs

/-- Count `width` further values at once. The open run grows by the comparisons
that hold from the start of the block, the counters inside the block hold the
remaining lengths, and the last change inside the block opens the new run. -/
theorem block {values : Nat → α}
    (run : RunCounter values counter (count + 1) start)
    {width change : Nat} {stretch : Nat → Nat} {counter' : Nat → Nat}
    (stretches : ∀ index, index < width →
      Stretch (NextEqual values count) width index (stretch index))
    (changePos : 0 < change) (changeLe : change ≤ width)
    (changes : ¬ NextEqual values count (change - 1))
    (settled : Stretch (NextEqual values count) width change (width - change))
    (before : ∀ index, index < count → index ≠ start →
      counter' index = counter index)
    (atStart : start < count → counter' start = counter start + stretch 0)
    (inner : ∀ index, index < width → counter' (count + index) = 1 + stretch index)
    (final : counter' (count + width) = 1) :
    RunCounter values counter' (count + 1 + width) (count + change) := by
  have startLe : start ≤ count := by
    have := run.inside
    omega
  refine ⟨by omega, ?_, ?_, ?_, ?_⟩
  · right
    have next : count + change = count + (change - 1) + 1 := by omega
    rw [next]
    exact changes
  · intro index after below
    have position : index = count + (change + (index - count - change)) := by omega
    rw [position]
    apply values_eq_of_nextEqual values count change
    intro offset offsetLt
    exact settled.holds offset (by omega)
  · rcases Nat.lt_or_ge change width with earlier | atEnd
    · have reached := stretches change earlier
      have reachedInside := reached.inside
      have full : change + stretch change = width := by
        by_contra short
        exact reached.stops (by omega) (settled.holds _ (by omega))
      rw [inner change earlier]
      omega
    · have isWidth : change = width := by omega
      rw [isWidth, final]
      omega
  · intro head length other otherBefore
    exact run.block_earlier (Nat.lt_of_lt_of_le changePos changeLe) stretches before atStart inner
      other (by omega)

end RunCounter

end PacketForwarding.Runs
