import Mathlib

/-! # Threads over one memory

Threads take their steps in any order. A step of a thread depends on what the thread has for
itself and on the memory, and it writes to some locations. Where every thread only writes to
what it owns, and no location has two owners, no location is written by two threads.
-/

namespace PacketForwarding

/-- A step of a thread: what the thread has for itself and the memory, the locations that
are written, and both afterwards. -/
abbrev ThreadStep (ι ℓ τ σ : Type*) := ι → τ → σ → List ℓ → τ → σ → Prop

structure Threads (ι τ σ : Type*) where
  locals : ι → τ
  memory : σ

namespace Threads

variable {ι ℓ τ σ : Type*} [DecidableEq ι]

/-- The steps of the threads so far, each with what it wrote. -/
inductive Run (step : ThreadStep ι ℓ τ σ) (first : Threads ι τ σ) :
    List (ι × List ℓ) → Threads ι τ σ → Prop
  | nil : Run step first [] first
  | snoc {trace : List (ι × List ℓ)} {threads : Threads ι τ σ} {thread : ι} {writes : List ℓ}
      {own : τ} {memory : σ} (run : Run step first trace threads)
      (next : step thread (threads.locals thread) threads.memory writes own memory) :
      Run step first (trace ++ [(thread, writes)])
        ⟨Function.update threads.locals thread own, memory⟩

/-- A run goes on with a step of a thread. -/
theorem Run.next {step : ThreadStep ι ℓ τ σ} {first threads : Threads ι τ σ}
    {trace : List (ι × List ℓ)} (run : Run step first trace threads) {thread : ι} {own own' : τ}
    {memory memory' : σ} {writes : List ℓ}
    (here : threads.locals thread = own ∧ threads.memory = memory)
    (taken : step thread own memory writes own' memory') :
    ∃ last, Run step first (trace ++ [(thread, writes)]) last ∧
      last.locals thread = own' ∧ last.memory = memory' := by
  have next : step thread (threads.locals thread) threads.memory writes own' memory' := by
    rw [here.1, here.2]
    exact taken
  exact ⟨_, run.snoc next, Function.update_self thread own' threads.locals, rfl⟩

/-- Every thread keeps something for itself, whatever the memory is, and with that it only
writes to what it owns. -/
structure Owned (step : ThreadStep ι ℓ τ σ) (inv : ι → τ → Prop) (owns : ι → ℓ → Prop) :
    Prop where
  kept : ∀ thread own memory writes own' memory', inv thread own →
    step thread own memory writes own' memory' → inv thread own'
  within : ∀ thread own memory writes own' memory', inv thread own →
    step thread own memory writes own' memory' → ∀ location ∈ writes, owns thread location
  unique : ∀ one other location, owns one location → owns other location → one = other

namespace Owned

variable {step : ThreadStep ι ℓ τ σ} {inv : ι → τ → Prop} {owns : ι → ℓ → Prop}
  (owned : Owned step inv owns) {first last : Threads ι τ σ} {trace : List (ι × List ℓ)}
  (start : ∀ thread, inv thread (first.locals thread)) (run : Run step first trace last)

include owned start run

theorem locals : ∀ thread, inv thread (last.locals thread) := by
  induction run with
  | nil => exact start
  | snoc run next induction =>
      rename_i stepped _ _ _
      intro thread
      by_cases same : thread = stepped
      · rw [same]
        dsimp only
        rw [Function.update_self]
        exact owned.kept _ _ _ _ _ _ (induction stepped) next
      · dsimp only
        rw [Function.update_of_ne same]
        exact induction thread

theorem writes : ∀ thread writes, (thread, writes) ∈ trace →
    ∀ location ∈ writes, owns thread location := by
  induction run with
  | nil => exact fun _ _ impossible => absurd impossible List.not_mem_nil
  | snoc run next induction =>
      intro thread writes member
      rcases List.mem_append.mp member with earlier | last
      · exact induction thread writes earlier
      · cases List.mem_singleton.mp last
        exact owned.within _ _ _ _ _ _ (owned.locals start run _) next

/-- A location is not written by two threads. -/
theorem single_writer {one other : ι} {writes writes' : List ℓ} {location : ℓ}
    (wrote : (one, writes) ∈ trace) (inside : location ∈ writes)
    (alsoWrote : (other, writes') ∈ trace) (alsoInside : location ∈ writes') : one = other :=
  owned.unique one other location (owned.writes start run one writes wrote location inside)
    (owned.writes start run other writes' alsoWrote location alsoInside)

end Owned

/-- A step leaves alone what it does not write to. -/
def Frames (step : ThreadStep ι ℓ τ σ) (same : ℓ → σ → σ → Prop) : Prop :=
  ∀ thread own memory writes own' memory', step thread own memory writes own' memory' →
    ∀ location, location ∉ writes → same location memory memory'

/-- What a thread keeps about itself and the memory, where it looks at nothing that it does
not own. -/
structure Private (step : ThreadStep ι ℓ τ σ) (inv : ι → τ → Prop) (owns : ι → ℓ → Prop)
    (same : ℓ → σ → σ → Prop) (about : ι → τ → σ → Prop) : Prop where
  kept : ∀ thread own memory writes own' memory', inv thread own → about thread own memory →
    step thread own memory writes own' memory' → about thread own' memory'
  looks : ∀ thread own memory memory', (∀ location, owns thread location →
    same location memory memory') → about thread own memory → about thread own memory'

/-- The steps of the other threads do not matter to it. -/
theorem Private.holds {step : ThreadStep ι ℓ τ σ} {inv : ι → τ → Prop} {owns : ι → ℓ → Prop}
    {same : ℓ → σ → σ → Prop} {about : ι → τ → σ → Prop}
    (facts : Private step inv owns same about) (owned : Owned step inv owns)
    (frames : Frames step same) {first last : Threads ι τ σ} {trace : List (ι × List ℓ)}
    (start : ∀ thread, inv thread (first.locals thread))
    (startAbout : ∀ thread, about thread (first.locals thread) first.memory)
    (run : Run step first trace last) :
    ∀ thread, about thread (last.locals thread) last.memory := by
  induction run with
  | nil => exact startAbout
  | snoc run next induction =>
      rename_i stepped writes _ _
      have invStepped := owned.locals start run stepped
      intro thread
      by_cases same : thread = stepped
      · rw [same]
        dsimp only
        rw [Function.update_self]
        exact facts.kept _ _ _ _ _ _ invStepped (induction stepped) next
      · dsimp only
        rw [Function.update_of_ne same]
        apply facts.looks _ _ _ _ _ (induction thread)
        intro location owns
        apply frames _ _ _ _ _ _ next
        intro member
        have alsoOwns := owned.within _ _ _ _ _ _ invStepped next location member
        exact same (owned.unique thread stepped location owns alsoOwns)

end Threads

end PacketForwarding
