import Mathlib

/-! # Events in rounds

A source has its events in rounds, so many at most in each, and a round begins no earlier than
some interval after the one before. Events are not spread over their round. This file bounds
the number of events in a span of time.
-/

namespace PacketForwarding

structure Pacer (κ : Type*) where
  /-- No round begins before this time. -/
  ready : κ
  /-- The events that the round may still have. -/
  left : Nat
  events : List κ

namespace Pacer

/-- The events from one time to another. -/
def within {κ : Type*} [LinearOrder κ] (first last : κ) (events : List κ) : Nat :=
  events.countP fun time => first ≤ time ∧ time ≤ last

theorem within_le_countP {κ : Type*} [LinearOrder κ] (first last : κ) (events : List κ) :
    within first last events ≤ events.countP (first ≤ ·) := by
  apply List.countP_mono_left
  intro time _ inside
  exact decide_eq_true (of_decide_eq_true inside).1

variable {κ : Type*} [CommRing κ] [LinearOrder κ] [IsStrictOrderedRing κ]

/-- What a source has done until now. -/
inductive Run (burst : Nat) (interval start : κ) : κ → Pacer κ → Prop
  | start : Run burst interval start start ⟨start, 0, []⟩
  | wait {now later : κ} {pacer : Pacer κ} (run : Run burst interval start now pacer)
      (passes : now ≤ later) : Run burst interval start later pacer
  | round {now : κ} {pacer : Pacer κ} (run : Run burst interval start now pacer)
      (ready : pacer.ready ≤ now) :
      Run burst interval start now ⟨now + interval, burst, pacer.events⟩
  | event {now ready : κ} {left : Nat} {events : List κ}
      (run : Run burst interval start now ⟨ready, left + 1, events⟩) :
      Run burst interval start now ⟨ready, left, now :: events⟩

/-- How many events there are from a time on, as many rounds after it began. Some rounds may
have begun before. -/
structure RoundsFrom (burst : Nat) (interval first now : κ) (early rounds : Nat)
    (pacer : Pacer κ) : Prop where
  counted : pacer.events.countP (first ≤ ·) + pacer.left ≤ (early + rounds) * burst
  spaced : 0 < rounds → first + rounds * interval ≤ pacer.ready
  ready : pacer.ready ≤ now + interval
  ahead : now < first → pacer.events.countP (first ≤ ·) = 0 ∧ rounds = 0

section Bounds

variable {burst : Nat} {interval start now : κ} {pacer : Pacer κ}

omit [IsStrictOrderedRing κ] in
theorem Run.start_le (run : Run burst interval start now pacer) : start ≤ now := by
  induction run with
  | start => exact le_refl _
  | wait _ passes induction => exact induction.trans passes
  | round _ _ induction => exact induction
  | event _ induction => exact induction

/-- Only the one round under way can be early, and none if the time is not after the start. -/
theorem Run.roundsFrom (run : Run burst interval start now pacer) (forward : 0 ≤ interval)
    {first : κ} {early : Nat} (isEarly : start < first → 1 ≤ early) :
    ∃ rounds, RoundsFrom burst interval first now early rounds pacer := by
  induction run with
  | start => exact ⟨0, Nat.zero_le _, nofun, by simpa using forward, fun _ => ⟨rfl, rfl⟩⟩
  | wait run passes induction =>
      rcases induction with ⟨rounds, since⟩
      refine ⟨rounds, since.counted, since.spaced, ?_, ?_⟩
      · exact since.ready.trans (add_le_add_left passes interval)
      · exact fun before => since.ahead (passes.trans_lt before)
  | @round now pacer run ready induction =>
      rcases induction with ⟨rounds, since⟩
      have counted := since.counted
      rcases lt_or_ge now first with before | after
      · rcases since.ahead before with ⟨none, noRounds⟩
        have one : 1 * burst ≤ early * burst :=
          Nat.mul_le_mul_right burst (isEarly (run.start_le.trans_lt before))
        refine ⟨0, ?_, nofun, le_refl _, fun _ => ⟨none, rfl⟩⟩
        dsimp only
        rw [none, Nat.add_zero]
        omega
      · refine ⟨rounds + 1, ?_, fun _ => ?_, le_refl _, fun before => ?_⟩
        · rw [← Nat.add_assoc, Nat.succ_mul]
          dsimp only
          omega
        · have previous : first + rounds * interval ≤ now := by
            rcases Nat.eq_zero_or_pos rounds with zero | positive
            · rw [zero, Nat.cast_zero, zero_mul, add_zero]
              exact after
            · exact (since.spaced positive).trans ready
          push_cast
          linarith
        · exact absurd before (not_lt.mpr after)
  | @event now ready left events run induction =>
      rcases induction with ⟨rounds, since⟩
      have counted := since.counted
      dsimp only at counted
      refine ⟨rounds, ?_, since.spaced, since.ready, fun before => ?_⟩
      · rw [List.countP_cons]
        dsimp only
        split
        · omega
        · omega
      · have notYet : ¬ first ≤ now := not_le.mpr before
        rcases since.ahead before with ⟨none, noRounds⟩
        refine ⟨?_, noRounds⟩
        rw [List.countP_cons, none, decide_eq_false notYet]
        rfl

/-- The rounds that begin in a span are as many as intervals fit in it, and one more. -/
theorem RoundsFrom.mul_interval_le {first length : κ} {early rounds : Nat}
    (since : RoundsFrom burst interval first now early rounds pacer) (forward : 0 ≤ interval)
    (span : 0 ≤ length) (inside : now ≤ first + length) :
    (rounds : κ) * interval ≤ length + interval := by
  rcases Nat.eq_zero_or_pos rounds with zero | positive
  · rw [zero, Nat.cast_zero, zero_mul]
    exact add_nonneg span forward
  · have spaced := since.spaced positive
    have ready := since.ready
    linarith

/-- In every span of time there are at most as many events as its length allows, and those of
one round more, or two if it begins after the start. -/
theorem Run.within_le (run : Run burst interval start now pacer) (forward : 0 ≤ interval)
    {first length : κ} {early : Nat} (isEarly : start < first → 1 ≤ early) (span : 0 ≤ length) :
    (within first (first + length) pacer.events : κ) * interval ≤
      burst * (length + (early + 1) * interval) := by
  have least : (0 : κ) ≤ burst * (length + (early + 1) * interval) := by positivity
  induction run with
  | start => simpa [within] using least
  | wait _ _ induction => exact induction
  | round _ _ induction => exact induction
  | @event now ready left events run induction =>
      by_cases inside : first ≤ now ∧ now ≤ first + length
      · rcases run.event.roundsFrom forward isEarly with ⟨rounds, since⟩
        have enough := since.mul_interval_le forward span inside.2
        have counted : within first (first + length) (now :: events) ≤ (early + rounds) * burst :=
          (within_le_countP _ _ _).trans (Nat.le_of_add_right_le since.counted)
        calc (within first (first + length) (now :: events) : κ) * interval
            ≤ ((early + rounds) * burst : Nat) * interval :=
              mul_le_mul_of_nonneg_right (Nat.cast_le.mpr counted) forward
          _ = burst * (early * interval + rounds * interval) := by
              push_cast
              ring
          _ ≤ burst * (early * interval + (length + interval)) := by gcongr
          _ = burst * (length + (early + 1) * interval) := by ring
      · have same : within first (first + length) (now :: events) =
            within first (first + length) events := by
          rw [within, List.countP_cons, decide_eq_false inside]
          rfl
        rw [same]
        exact induction

end Bounds

end Pacer

end PacketForwarding
