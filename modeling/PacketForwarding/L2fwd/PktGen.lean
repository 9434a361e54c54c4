import PacketForwarding.Foundation.Pacing

/-! # The traffic generator

Some threads send bursts of packets. The requested rate is divided among them, and a thread
sleeps after a burst until it may send the next one. A rate of zero stands for full speed. Time
is rational, and it passes between any two steps.
-/

namespace PacketForwarding.L2fwd.PktGen

/-! ## The code -/

/-- `--rate`, `--threads` and `--burst` -/
structure Args where
  rate : Nat
  threads : Nat
  burst : Nat

/-- The rate for each thread. -/
def Args.perThreadRate (args : Args) : Nat :=
  if 0 < args.rate then args.rate / args.threads else 0

/-- How much time a thread has for a burst. -/
def interval (rate burst : Nat) : ℚ :=
  if 0 < rate then 1 / rate * burst else 0

/-- Where a thread is in `send_worker`. -/
inductive WorkerPhase
  /-- `while not stop_event.is_set()` -/
  | head
  /-- `t0` is taken, and so many packets of the burst are left. -/
  | sending (t0 : ℚ) (left : Nat)
  /-- The burst is in the statistics. -/
  | counted (t0 : ℚ)
  /-- `time.sleep` returns at this time or later. -/
  | sleeping (wake : ℚ)
  | exited

structure Worker where
  phase : WorkerPhase
  /-- When each packet was sent, the last one first. -/
  sends : List ℚ

structure Generator (threads : Nat) where
  now : ℚ
  stopEvent : Bool
  txPkts : Nat
  txBytes : Nat
  workers : Fin threads → Worker

/-- `if interval > 0` and what follows. -/
def afterBurst (interval now t0 : ℚ) : WorkerPhase :=
  if 0 < interval then
    let elapsed := now - t0
    let sleepT := interval - elapsed
    if 0 < sleepT then .sleeping (now + sleepT) else .head
  else
    .head

namespace Generator

variable {threads : Nat}

def setPhase (generator : Generator threads) (thread : Fin threads) (phase : WorkerPhase) :
    Generator threads :=
  { generator with
    workers := Function.update generator.workers thread
      { generator.workers thread with phase } }

def send (generator : Generator threads) (thread : Fin threads) (t0 : ℚ) (left : Nat) :
    Generator threads :=
  { generator with
    workers := Function.update generator.workers thread
      ⟨.sending t0 left, generator.now :: (generator.workers thread).sends⟩ }

/-- The next step of a thread, if it can take one. -/
def step (rate burst pktLen : Nat) (generator : Generator threads) (thread : Fin threads) :
    Option (Generator threads) :=
  match (generator.workers thread).phase with
  | .head =>
      if generator.stopEvent then some (generator.setPhase thread .exited)
      else some (generator.setPhase thread (.sending generator.now burst))
  | .sending t0 (left + 1) => some (generator.send thread t0 left)
  | .sending t0 0 =>
      -- with stats_lock
      some { generator.setPhase thread (.counted t0) with
        txPkts := generator.txPkts + burst
        txBytes := generator.txBytes + burst * pktLen }
  | .counted t0 =>
      some (generator.setPhase thread (afterBurst (interval rate burst) generator.now t0))
  | .sleeping wake =>
      if wake ≤ generator.now then some (generator.setPhase thread .head) else none
  | .exited => none

/-- `main` when the threads start. -/
def main (args : Args) : Generator args.threads :=
  ⟨0, false, 0, 0, fun _ => ⟨.head, []⟩⟩

/-- The states of the generator. Threads take their steps in any order and at any time, and
a packet that cannot be sent ends its thread. -/
inductive Reachable (args : Args) (pktLen : Nat) : Generator args.threads → Prop
  | main : Reachable args pktLen (main args)
  | wait {generator : Generator args.threads} (reached : Reachable args pktLen generator)
      {later : ℚ} (passes : generator.now ≤ later) :
      Reachable args pktLen { generator with now := later }
  | signal {generator : Generator args.threads} (reached : Reachable args pktLen generator) :
      Reachable args pktLen { generator with stopEvent := true }
  | step {generator next : Generator args.threads} (reached : Reachable args pktLen generator)
      {thread : Fin args.threads}
      (taken : generator.step args.perThreadRate args.burst pktLen thread = some next) :
      Reachable args pktLen next
  | raise {generator : Generator args.threads} (reached : Reachable args pktLen generator)
      {thread : Fin args.threads} {t0 : ℚ} {left : Nat}
      (sending : (generator.workers thread).phase = .sending t0 left) :
      Reachable args pktLen (generator.setPhase thread .exited)

/-- The packets that all threads sent from one time to another. -/
def sentWithin (generator : Generator threads) (first last : ℚ) : Nat :=
  ∑ thread, Pacer.within first last (generator.workers thread).sends

end Generator

/-! ## A limited thread is a pacer -/

/-- What the pacer of a thread has to be in each phase. -/
def WorkerPhase.Allows (interval now : ℚ) (pacer : Pacer ℚ) : WorkerPhase → Prop
  | .head => pacer.ready ≤ now
  | .sending t0 left => pacer.ready = t0 + interval ∧ pacer.left = left
  | .counted t0 => pacer.ready = t0 + interval
  | .sleeping wake => pacer.ready ≤ wake
  | .exited => True

/-- The thread did what a pacer did. -/
def Worker.Paced (burst : Nat) (interval now : ℚ) (worker : Worker) : Prop :=
  ∃ pacer, Pacer.Run burst interval 0 now pacer ∧ pacer.events = worker.sends ∧
    worker.phase.Allows interval now pacer

theorem WorkerPhase.Allows.later {interval now later : ℚ} {pacer : Pacer ℚ} {phase : WorkerPhase}
    (allows : phase.Allows interval now pacer) (passes : now ≤ later) :
    phase.Allows interval later pacer := by
  cases phase with
  | head => exact le_trans allows passes
  | sending t0 left => exact allows
  | counted t0 => exact allows
  | sleeping wake => exact allows
  | exited => trivial

theorem allows_afterBurst {interval now t0 : ℚ} {pacer : Pacer ℚ} (limited : 0 < interval)
    (ready : pacer.ready = t0 + interval) :
    (afterBurst interval now t0).Allows interval now pacer := by
  rw [afterBurst, if_pos limited]
  dsimp only
  split
  · change pacer.ready ≤ now + (interval - (now - t0))
    rw [ready]
    linarith
  · rename_i notEarly
    change pacer.ready ≤ now
    rw [ready]
    linarith

namespace Generator

section Paced

variable {threads : Nat} {generator next : Generator threads} {thread : Fin threads}
  {rate burst pktLen : Nat}

/-- A step does nothing to the other threads and takes no time. -/
theorem step_frame (taken : generator.step rate burst pktLen thread = some next) :
    next.now = generator.now ∧
      ∀ other, other ≠ thread → next.workers other = generator.workers other := by
  have others (worker : Worker) : ∀ other, other ≠ thread →
      Function.update generator.workers thread worker other = generator.workers other :=
    fun other differs => Function.update_of_ne differs _ _
  rw [step] at taken
  split at taken
  · split at taken
    · cases taken
      exact ⟨rfl, others _⟩
    · cases taken
      exact ⟨rfl, others _⟩
  · cases taken
    exact ⟨rfl, others _⟩
  · cases taken
    exact ⟨rfl, others _⟩
  · cases taken
    exact ⟨rfl, others _⟩
  · split at taken
    · cases taken
      exact ⟨rfl, others _⟩
    · cases taken
  · cases taken

theorem workers_setPhase (phase : WorkerPhase) :
    (generator.setPhase thread phase).workers thread =
      { generator.workers thread with phase } :=
  Function.update_self _ _ _

theorem workers_send (t0 : ℚ) (left : Nat) :
    (generator.send thread t0 left).workers thread =
      ⟨.sending t0 left, generator.now :: (generator.workers thread).sends⟩ :=
  Function.update_self _ _ _

/-- A thread goes on as its pacer. -/
theorem step_paced (limited : 0 < interval rate burst)
    (paced : (generator.workers thread).Paced burst (interval rate burst) generator.now)
    (taken : generator.step rate burst pktLen thread = some next) :
    (next.workers thread).Paced burst (interval rate burst) generator.now := by
  rcases paced with ⟨pacer, run, events, allows⟩
  rw [step] at taken
  split at taken
  · rename_i atHead
    rw [atHead] at allows
    split at taken
    · cases taken
      rw [workers_setPhase]
      exact ⟨pacer, run, events, trivial⟩
    · cases taken
      rw [workers_setPhase]
      exact ⟨_, run.round allows, events, rfl, rfl⟩
  · rename_i t0 left sending
    rw [sending] at allows
    rcases allows with ⟨ready, someLeft⟩
    rcases pacer with ⟨readyAt, pending, past⟩
    dsimp only at events ready someLeft
    subst events someLeft
    cases taken
    rw [workers_send]
    exact ⟨_, run.event, rfl, ready, rfl⟩
  · rename_i t0 sending
    rw [sending] at allows
    cases taken
    rw [workers_setPhase]
    exact ⟨pacer, run, events, allows.1⟩
  · rename_i t0 counted
    rw [counted] at allows
    cases taken
    rw [workers_setPhase]
    exact ⟨pacer, run, events, allows_afterBurst limited allows⟩
  · rename_i wake sleeping
    rw [sleeping] at allows
    split at taken
    · rename_i awake
      cases taken
      rw [workers_setPhase]
      exact ⟨pacer, run, events, le_trans allows awake⟩
    · cases taken
  · cases taken

end Paced

variable {args : Args} {pktLen : Nat} {generator : Generator args.threads}

/-- With a rate for each thread, all threads are paced in every run. -/
theorem Reachable.paced (limited : 0 < interval args.perThreadRate args.burst)
    (reached : Reachable args pktLen generator) :
    ∀ thread, (generator.workers thread).Paced args.burst
      (interval args.perThreadRate args.burst) generator.now := by
  induction reached with
  | main => exact fun _ => ⟨_, .start, rfl, le_refl _⟩
  | wait _ passes induction =>
      intro thread
      rcases induction thread with ⟨pacer, run, events, allows⟩
      exact ⟨pacer, run.wait passes, events, allows.later passes⟩
  | signal _ induction => exact induction
  | @step generator next _ stepped taken induction =>
      intro thread
      rcases step_frame taken with ⟨sameTime, others⟩
      rw [sameTime]
      by_cases same : thread = stepped
      · subst same
        exact step_paced limited (induction thread) taken
      · rw [others thread same]
        exact induction thread
  | @raise generator _ stopped t0 left sending induction =>
      intro thread
      by_cases same : thread = stopped
      · subst same
        rcases induction thread with ⟨pacer, run, events, _⟩
        rw [workers_setPhase]
        exact ⟨pacer, run, events, trivial⟩
      · have other : (generator.setPhase stopped .exited).workers thread =
            generator.workers thread := Function.update_of_ne same _ _
        rw [other]
        exact induction thread

end Generator

/-! ## The limit -/

theorem interval_pos {rate burst : Nat} (limited : 0 < rate) (someBurst : 0 < burst) :
    0 < interval rate burst := by
  rw [interval, if_pos limited]
  positivity

/-- A thread with a rate keeps it but for one burst, or two in a span that begins later than
the thread. -/
theorem Worker.Paced.within_le {rate burst early : Nat} {now first length : ℚ} {worker : Worker}
    (paced : worker.Paced burst (interval rate burst) now) (limited : 0 < rate)
    (someBurst : 0 < burst) (isEarly : 0 < first → 1 ≤ early) (span : 0 ≤ length) :
    (Pacer.within first (first + length) worker.sends : ℚ) ≤
      rate * length + (early + 1) * burst := by
  rcases paced with ⟨pacer, run, events, _⟩
  have bound := run.within_le (interval_pos limited someBurst).le isEarly span
  rw [events, interval, if_pos limited] at bound
  generalize (Pacer.within first (first + length) worker.sends : ℚ) = count at bound ⊢
  have ratePos : (0 : ℚ) < rate := Nat.cast_pos.mpr limited
  have burstPos : (0 : ℚ) < burst := Nat.cast_pos.mpr someBurst
  calc count = count * (1 / rate * burst) * (rate / burst) := by field_simp
    _ ≤ burst * (length + (early + 1) * (1 / rate * burst)) * (rate / burst) :=
        mul_le_mul_of_nonneg_right bound (by positivity)
    _ = rate * length + (early + 1) * burst := by field_simp

theorem perThreadRate_pos {args : Args} (someThread : 0 < args.threads)
    (enough : args.threads ≤ args.rate) :
    0 < args.perThreadRate := by
  rw [Args.perThreadRate, if_pos (Nat.lt_of_lt_of_le someThread enough)]
  exact Nat.div_pos enough someThread

theorem threads_mul_perThreadRate (args : Args) :
    args.threads * args.perThreadRate ≤ args.rate := by
  rw [Args.perThreadRate]
  split
  · exact Nat.mul_div_le _ _
  · exact Nat.zero_le _

namespace Generator

variable {args : Args} {pktLen : Nat}

/-- The rates of the threads add up to no more than what was asked for. -/
theorem Reachable.sentWithin_le {generator : Generator args.threads}
    (reached : Reachable args pktLen generator) (someThread : 0 < args.threads)
    (someBurst : 0 < args.burst) (enough : args.threads ≤ args.rate) {first length : ℚ}
    {early : Nat} (isEarly : 0 < first → 1 ≤ early) (span : 0 ≤ length) :
    (generator.sentWithin first (first + length) : ℚ) ≤
      args.rate * length + (early + 1) * (args.threads * args.burst) := by
  have limited := perThreadRate_pos someThread enough
  have each (thread : Fin args.threads) :
      (Pacer.within first (first + length) (generator.workers thread).sends : ℚ) ≤
        args.perThreadRate * length + (early + 1) * args.burst :=
    (reached.paced (interval_pos limited someBurst) thread).within_le limited someBurst isEarly span
  have divided : (args.threads : ℚ) * args.perThreadRate ≤ args.rate := by
    exact_mod_cast threads_mul_perThreadRate args
  calc (generator.sentWithin first (first + length) : ℚ)
      = ∑ thread, (Pacer.within first (first + length) (generator.workers thread).sends : ℚ) := by
        rw [sentWithin, Nat.cast_sum]
    _ ≤ ∑ _thread : Fin args.threads,
          ((args.perThreadRate : ℚ) * length + (early + 1) * args.burst) :=
        Finset.sum_le_sum fun thread _ => each thread
    _ = args.threads * args.perThreadRate * length +
          (early + 1) * (args.threads * args.burst) := by
        rw [Finset.sum_const, Finset.card_univ, Fintype.card_fin, nsmul_eq_mul]
        ring
    _ ≤ args.rate * length + (early + 1) * (args.threads * args.burst) := by gcongr

/-! ## Full speed -/

/-- The thread is at the head of its loop, and it sent so many packets, all of them now. -/
structure Hurries (count : Nat) (thread : Fin args.threads) (generator : Generator args.threads) :
    Prop where
  start : generator.now = 0
  runs : generator.stopEvent = false
  worker : generator.workers thread = ⟨.head, List.replicate count 0⟩

/-- The packets of a burst may all be sent at once. -/
theorem Reachable.sendAll {thread : Fin args.threads} {t0 : ℚ} {sends : List ℚ} :
    ∀ left {generator : Generator args.threads}, Reachable args pktLen generator →
      generator.workers thread = ⟨.sending t0 left, sends⟩ →
      ∃ next : Generator args.threads, Reachable args pktLen next ∧ next.now = generator.now ∧
        next.stopEvent = generator.stopEvent ∧ next.workers thread =
          ⟨.sending t0 0, List.replicate left generator.now ++ sends⟩ := by
  intro left
  induction left generalizing sends with
  | zero => exact fun reached sending => ⟨_, reached, rfl, rfl, sending⟩
  | succ left induction =>
      intro generator reached sending
      have taken : generator.step args.perThreadRate args.burst pktLen thread =
          some (generator.send thread t0 left) := by
        rw [Generator.step, sending]
      have sent : (generator.send thread t0 left).workers thread =
          ⟨.sending t0 left, generator.now :: sends⟩ := by
        rw [workers_send, sending]
      rcases induction (reached.step taken) sent with ⟨next, reached', sameTime, sameStop, worker⟩
      refine ⟨next, reached', sameTime, sameStop, ?_⟩
      rw [worker, List.replicate_succ']
      simp [send]

theorem Reachable.hurry (unlimited : args.perThreadRate = 0) {thread : Fin args.threads}
    {count : Nat} {generator : Generator args.threads} (reached : Reachable args pktLen generator)
    (hurries : Hurries count thread generator) :
    ∃ next : Generator args.threads, Reachable args pktLen next ∧
      Hurries (args.burst + count) thread next := by
  have toSending : generator.step args.perThreadRate args.burst pktLen thread =
      some (generator.setPhase thread (.sending generator.now args.burst)) := by
    rw [Generator.step, hurries.worker, hurries.runs]
    rfl
  have sending : (generator.setPhase thread (.sending generator.now args.burst)).workers thread =
      ⟨.sending generator.now args.burst, List.replicate count 0⟩ := by
    rw [workers_setPhase, hurries.worker]
  rcases sendAll args.burst (reached.step toSending) sending with
    ⟨sent, reachedSent, sameTime, sameStop, worker⟩
  have toCounted : sent.step args.perThreadRate args.burst pktLen thread =
      some { sent.setPhase thread (.counted generator.now) with
        txPkts := sent.txPkts + args.burst
        txBytes := sent.txBytes + args.burst * pktLen } := by
    rw [Generator.step, worker]
  generalize isCounted : ({ sent.setPhase thread (.counted generator.now) with
    txPkts := sent.txPkts + args.burst
    txBytes := sent.txBytes + args.burst * pktLen } : Generator args.threads) = counted at toCounted
  have atCounted : counted.workers thread =
      { sent.workers thread with phase := .counted generator.now } := by
    rw [← isCounted]
    exact workers_setPhase _
  have noInterval : interval args.perThreadRate args.burst = 0 := by
    rw [unlimited, interval, if_neg (lt_irrefl 0)]
  have toHead : counted.step args.perThreadRate args.burst pktLen thread =
      some (counted.setPhase thread .head) := by
    rw [Generator.step, atCounted, noInterval]
    dsimp only
    rw [afterBurst, if_neg (lt_irrefl _)]
  refine ⟨_, (reachedSent.step toCounted).step toHead, ?_, ?_, ?_⟩
  · rw [← isCounted]
    exact sameTime.trans hurries.start
  · rw [← isCounted]
    exact sameStop.trans hurries.runs
  · rw [workers_setPhase, atCounted, worker]
    have now : (generator.setPhase thread (.sending generator.now args.burst)).now = 0 :=
      hurries.start
    rw [now, ← List.replicate_add]

/-- A thread without a rate sends any number of bursts in no time. -/
theorem exists_hurries (unlimited : args.perThreadRate = 0) (thread : Fin args.threads) :
    ∀ rounds, ∃ generator : Generator args.threads, Reachable args pktLen generator ∧
      Hurries (rounds * args.burst) thread generator := by
  intro rounds
  induction rounds with
  | zero =>
      refine ⟨_, .main, rfl, rfl, ?_⟩
      rw [Nat.zero_mul]
      rfl
  | succ rounds induction =>
      rcases induction with ⟨generator, reached, hurries⟩
      rw [Nat.succ_mul, Nat.add_comm]
      exact reached.hurry unlimited hurries

theorem Hurries.sentWithin_ge {generator : Generator args.threads} {thread : Fin args.threads}
    {count : Nat} (hurries : Hurries count thread generator) :
    count ≤ generator.sentWithin 0 0 := by
  have own : Pacer.within 0 0 (generator.workers thread).sends = count := by
    rw [hurries.worker, Pacer.within, List.countP_replicate]
    rfl
  rw [← own]
  exact Finset.single_le_sum (f := fun thread => Pacer.within 0 0
    (generator.workers thread).sends) (fun _ _ => Nat.zero_le _) (Finset.mem_univ thread)

/-- Without rates, no number of bursts is enough. -/
theorem exists_exceeds (pktLen : Nat) (someThread : 0 < args.threads) (someBurst : 0 < args.burst)
    (few : args.rate < args.threads) (factor : Nat) :
    ∃ generator : Generator args.threads, Reachable args pktLen generator ∧
      ¬ (generator.sentWithin 0 0 : ℚ) ≤ factor * (args.threads * args.burst) := by
  have unlimited : args.perThreadRate = 0 := by
    rw [Args.perThreadRate]
    split
    · exact Nat.div_eq_of_lt few
    · rfl
  rcases @exists_hurries args pktLen unlimited
    ⟨0, someThread⟩ (factor * args.threads + 1) with ⟨generator, reached, hurries⟩
  refine ⟨generator, reached, ?_⟩
  have sent := hurries.sentWithin_ge
  have more : factor * (args.threads * args.burst) < generator.sentWithin 0 0 := by
    rw [Nat.succ_mul] at sent
    rw [← Nat.mul_assoc]
    omega
  rw [not_le]
  exact_mod_cast more

/-- The packets sent in a time span since the start keep to the rate that was asked for, up to
one burst for each thread, if and only if each thread gets a rate. So do those in any other
time span, up to two bursts. -/
theorem rateLimit_iff (args : Args) (pktLen : Nat) (someThread : 1 ≤ args.threads)
    (someBurst : 1 ≤ args.burst) :
    ((∀ generator, Reachable args pktLen generator → ∀ t : ℚ, 0 ≤ t →
        (generator.sentWithin 0 t : ℚ) ≤ args.rate * t + args.threads * args.burst) ↔
      args.threads ≤ args.rate) ∧
    ((∀ generator, Reachable args pktLen generator → ∀ first t : ℚ, 0 ≤ t →
        (generator.sentWithin first (first + t) : ℚ) ≤
          args.rate * t + 2 * (args.threads * args.burst)) ↔
      args.threads ≤ args.rate) := by
  constructor
  · constructor
    · intro keeps
      by_contra few
      rcases exists_exceeds pktLen someThread someBurst (not_le.mp few) 1 with
        ⟨generator, reached, exceeds⟩
      have kept := keeps generator reached 0 (le_refl 0)
      rw [mul_zero, zero_add] at kept
      rw [Nat.cast_one, one_mul] at exceeds
      exact exceeds kept
    · intro enough generator reached t span
      have bound : (generator.sentWithin 0 (0 + t) : ℚ) ≤
          args.rate * t + ((0 : Nat) + 1) * (args.threads * args.burst) :=
        reached.sentWithin_le someThread someBurst enough
          (fun impossible => absurd impossible (lt_irrefl 0)) span
      rw [zero_add, Nat.cast_zero, zero_add, one_mul] at bound
      exact bound
  · constructor
    · intro keeps
      by_contra few
      rcases exists_exceeds pktLen someThread someBurst (not_le.mp few) 2 with
        ⟨generator, reached, exceeds⟩
      have kept := keeps generator reached 0 0 (le_refl 0)
      rw [mul_zero, zero_add, zero_add] at kept
      exact exceeds kept
    · intro enough generator reached first t span
      have bound : (generator.sentWithin first (first + t) : ℚ) ≤
          args.rate * t + ((1 : Nat) + 1) * (args.threads * args.burst) :=
        reached.sentWithin_le someThread someBurst enough (fun _ => le_refl 1) span
      rw [Nat.cast_one, one_add_one_eq_two] at bound
      exact bound

/-- Four threads for a thousand packets in a second. -/
theorem rateLimit_four :
    (∀ generator, Reachable ⟨1000, 4, 64⟩ 64 generator → ∀ t : ℚ, 0 ≤ t →
      (generator.sentWithin 0 t : ℚ) ≤ 1000 * t + 4 * 64) ∧
    (∀ generator, Reachable ⟨1000, 4, 64⟩ 64 generator → ∀ first t : ℚ, 0 ≤ t →
      (generator.sentWithin first (first + t) : ℚ) ≤ 1000 * t + 2 * (4 * 64)) :=
  (rateLimit_iff ⟨1000, 4, 64⟩ 64 (by decide) (by decide)).imp (·.mpr (by decide))
    (·.mpr (by decide))

/-- Of two threads for one packet in a second, one sends three packets at the start. -/
theorem rateLimit_exceeded : ∃ generator, Reachable ⟨1, 2, 1⟩ 64 generator ∧
    ¬ (generator.sentWithin 0 0 : ℚ) ≤ 1 * 0 + 2 * 1 := by
  rcases @exists_exceeds ⟨1, 2, 1⟩ 64 (by decide) (by decide)
    (by decide) 1 with ⟨generator, reached, exceeds⟩
  refine ⟨generator, reached, ?_⟩
  intro kept
  apply exceeds
  norm_num at kept ⊢
  exact kept

end Generator

end PacketForwarding.L2fwd.PktGen
