import PacketForwarding.L3fwd.EventBurst

/-! # The words that are taken for events

The burst loop for exact match has an array of events, and passes it on as an array of
pointers to events. Which words of memory are followed is worked out for every position,
and with it when the mbufs that are reached are those of the events.
-/

namespace PacketForwarding.L3fwd

/-! ## Reading one after the other -/

section Reading

variable {ι α : Type}

theorem mapM_cons_eq_some_iff (read : ι → Option α) (item : ι) (items : List ι)
    (values : List α) :
    (item :: items).mapM read = some values ↔
      ∃ value rest, read item = some value ∧ items.mapM read = some rest ∧
        values = value :: rest := by
  rw [List.mapM_cons]
  cases isRead : read item with
  | none => simp
  | some value =>
      cases areRead : items.mapM read with
      | none => simp
      | some rest => simp [eq_comm]

theorem mapM_eq_some_iff (read : ι → Option α) : ∀ (items : List ι) (values : List α),
    items.mapM read = some values ↔
      List.Forall₂ (fun item value => read item = some value) items values := by
  intro items
  induction items with
  | nil =>
      intro values
      cases values with
      | nil => simp
      | cons value rest => simp
  | cons item items induction =>
      intro values
      rw [mapM_cons_eq_some_iff, List.forall₂_cons_left_iff]
      apply exists_congr
      intro value
      simp only [induction, exists_and_left]

/-- Reading on the condition that something else can be read first. -/
theorem mapM_guarded (ready : ι → Option Unit) (read : ι → Option α) :
    ∀ (items : List ι) (values : List α),
      (items.mapM fun item => ready item >>= fun _ => read item) = some values ↔
        (∀ item ∈ items, (ready item).isSome) ∧ items.mapM read = some values := by
  intro items
  induction items with
  | nil => simp
  | cons item items induction =>
      intro values
      rw [mapM_cons_eq_some_iff, mapM_cons_eq_some_iff, List.forall_mem_cons]
      cases isReady : ready item with
      | none => simp
      | some _ =>
          simp only [induction, Option.isSome_some, true_and]
          constructor
          · rintro ⟨value, rest, isRead, ⟨areReady, areRead⟩, split⟩
            exact ⟨areReady, value, rest, isRead, areRead, split⟩
          · rintro ⟨areReady, value, rest, isRead, areRead, split⟩
            exact ⟨value, rest, isRead, ⟨areReady, areRead⟩, split⟩

theorem mapM_range_eq_some_iff (read : Nat → Option α) (values : List α) :
    (List.range values.length).mapM read = some values ↔
      ∀ i, i < values.length → read i = values[i]? := by
  rw [mapM_eq_some_iff, List.forall₂_iff_get]
  simp only [List.length_range, List.get_eq_getElem, List.getElem_range, true_and]
  constructor
  · intro all i inside
    rw [List.getElem?_eq_getElem inside]
    exact all i inside inside
  · intro all i inside _
    rw [all i inside, List.getElem?_eq_getElem inside]

theorem isSome_mapM_iff (read : ι → Option α) :
    ∀ items : List ι, (items.mapM read).isSome ↔ ∀ item ∈ items, (read item).isSome := by
  intro items
  induction items with
  | nil => simp
  | cons item items induction =>
      rw [List.forall_mem_cons, ← induction, List.mapM_cons]
      cases read item with
      | none => simp
      | some value =>
          cases items.mapM read with
          | none => simp
          | some rest => simp

/-- Two readings in a row are one. -/
theorem mapM_append_eq_some_iff (read : ι → Option α) (items items' : List ι) (values : List α) :
    (items ++ items').mapM read = some values ↔
      ∃ first rest, items.mapM read = some first ∧ items'.mapM read = some rest ∧
        values = first ++ rest := by
  rw [List.mapM_append]
  cases items.mapM read with
  | none => simp
  | some first =>
      cases items'.mapM read with
      | none => simp
      | some rest => simp [eq_comm]

end Reading

/-! ## Memory -/

/-- The words at the addresses that can be read. -/
abbrev WordMemory := BitVec 64 → Option (BitVec 64)

/-- The two words of an event. -/
structure EventWords where
  metadata : BitVec 64
  mbuf : BitVec 64
  deriving Inhabited

/-- `offsetof(struct rte_event, mbuf)` -/
def rteEventMbuf : BitVec 64 := 8#64

/-- An array of events lies at an address. -/
structure LaidOut (memory : WordMemory) (events : BitVec 64) (words : List EventWords) :
    Prop where
  metadata : ∀ i (inside : i < words.length),
    memory (events + BitVec.ofNat 64 (16 * i)) = some words[i].metadata
  mbuf : ∀ i (inside : i < words.length),
    memory (events + BitVec.ofNat 64 (16 * i) + rteEventMbuf) = some words[i].mbuf

theorem laidOut_one {memory : WordMemory} {events metadata mbuf : BitVec 64}
    (first : memory events = some metadata) (second : memory (events + rteEventMbuf) = some mbuf) :
    LaidOut memory events [⟨metadata, mbuf⟩] := by
  have start : events + BitVec.ofNat 64 (16 * 0) = events := BitVec.add_zero events
  constructor
  · intro i inside
    rw [List.length_singleton, Nat.lt_one_iff] at inside
    subst inside
    rw [start]
    exact first
  · intro i inside
    rw [List.length_singleton, Nat.lt_one_iff] at inside
    subst inside
    rw [start]
    exact second

/-! ## The functions that are passed the array -/

/-- `ev[j]->mbuf`, with `ev` an array of pointers to events. -/
def evMbuf (memory : WordMemory) (ev : BitVec 64) (j : Nat) : Option (BitVec 64) := do
  let event ← memory (ev + BitVec.ofNat 64 (8 * j))
  memory (event + rteEventMbuf)

/-- The packets of `l3fwd_em_process_events`. All pointers are followed first. -/
def processEventsMbufs (memory : WordMemory) (ev : BitVec 64) (nbRx : Nat) :
    Option (List (BitVec 64)) :=
  (List.range nbRx).mapM (evMbuf memory ev)

/-- `rte_prefetch0(rte_pktmbuf_mtod(events[j]->mbuf, void *))`. Whether the data of an mbuf
can be found is a parameter. -/
def prefetchEvent (mtod : WordMemory → BitVec 64 → Bool) (memory : WordMemory)
    (events : BitVec 64) (j : Nat) : Option Unit := do
  let mbuf ← evMbuf memory events j
  if mtod memory mbuf then some () else none

/-- The packets of `l3fwd_em_no_opt_process_events`, which processes each before it follows
the next pointer. `memory j` is the memory when the turn of packet `j` comes. -/
def noOptProcessEventsMbufs (mtod : WordMemory → BitVec 64 → Bool) (memory : Nat → WordMemory)
    (events : BitVec 64) (nbRx : Nat) : Option (List (BitVec 64)) := do
  -- prefetch first packets
  let _ ← (List.range (min prefetchOffset nbRx)).mapM (prefetchEvent mtod (memory 0) events)
  -- prefetch and forward already prefetched packets
  let i := nbRx - prefetchOffset
  let first ← (List.range i).mapM fun j =>
    prefetchEvent mtod (memory j) events (j + prefetchOffset) >>= fun _ =>
      evMbuf (memory j) events j
  -- forward remaining prefetched packets
  let rest ← (List.range' i (nbRx - i)).mapM fun j => evMbuf (memory j) events j
  some (first ++ rest)

/-! ## Which words are followed -/

/-- What is taken for the address of event `j`: the two words of event `j / 2` in turn. -/
def castWord (words : List EventWords) (j : Nat) : BitVec 64 :=
  let event := words.getD (j / 2) default
  if j % 2 = 0 then event.metadata else event.mbuf

theorem LaidOut.castWord {memory : WordMemory} {events : BitVec 64} {words : List EventWords}
    (laidOut : LaidOut memory events words) {j : Nat} (inside : j < words.length) :
    memory (events + BitVec.ofNat 64 (8 * j)) = some (castWord words j) := by
  have half : j / 2 < words.length := by omega
  rw [L3fwd.castWord, List.getD_eq_getElem _ _ half]
  split
  · have even : 8 * j = 16 * (j / 2) := by omega
    rw [even]
    exact laidOut.metadata (j / 2) half
  · have odd : BitVec.ofNat 64 (8 * j) = BitVec.ofNat 64 (16 * (j / 2)) + rteEventMbuf := by
      rw [rteEventMbuf, ← BitVec.ofNat_add]
      congr 1
      omega
    rw [odd, ← BitVec.add_assoc]
    exact laidOut.mbuf (j / 2) half

theorem LaidOut.evMbuf {memory : WordMemory} {events : BitVec 64} {words : List EventWords}
    (laidOut : LaidOut memory events words) {j : Nat} (inside : j < words.length) :
    evMbuf memory events j = memory (L3fwd.castWord words j + rteEventMbuf) := by
  rw [L3fwd.evMbuf, laidOut.castWord inside]
  rfl

/-- The word that is taken for the address of event `j` leads to its mbuf all the same. -/
def CastLeads (memory : WordMemory) (words : List EventWords) (j : Nat) : Prop :=
  memory (castWord words j + rteEventMbuf) = some (words.getD j default).mbuf

instance (memory : WordMemory) (words : List EventWords) (j : Nat) :
    Decidable (CastLeads memory words j) :=
  inferInstanceAs (Decidable (_ = _))

/-- What the word leads to is an mbuf whose data can be found. -/
def CastReady (mtod : WordMemory → BitVec 64 → Bool) (memory : WordMemory)
    (words : List EventWords) (j : Nat) : Prop :=
  ∃ mbuf, memory (castWord words j + rteEventMbuf) = some mbuf ∧ mtod memory mbuf = true

theorem LaidOut.evMbuf_eq_iff {memory : WordMemory} {events : BitVec 64}
    {words : List EventWords} (laidOut : LaidOut memory events words) {j : Nat}
    (inside : j < words.length) :
    L3fwd.evMbuf memory events j = (words.map EventWords.mbuf)[j]? ↔
      CastLeads memory words j := by
  rw [laidOut.evMbuf inside, List.getElem?_map, List.getElem?_eq_getElem inside, CastLeads,
    List.getD_eq_getElem _ _ inside]
  rfl

theorem processEventsMbufs_iff {memory : WordMemory} {events : BitVec 64}
    {words : List EventWords} (laidOut : LaidOut memory events words) :
    processEventsMbufs memory events words.length = some (words.map EventWords.mbuf) ↔
      ∀ j, j < words.length → CastLeads memory words j := by
  have read := mapM_range_eq_some_iff (evMbuf memory events) (words.map EventWords.mbuf)
  rw [List.length_map] at read
  rw [processEventsMbufs, read]
  apply forall_congr'
  intro j
  apply imp_congr_right
  intro inside
  exact laidOut.evMbuf_eq_iff inside

theorem LaidOut.prefetchEvent_isSome {mtod : WordMemory → BitVec 64 → Bool}
    {memory : WordMemory} {events : BitVec 64} {words : List EventWords}
    (laidOut : LaidOut memory events words) {j : Nat} (inside : j < words.length) :
    (prefetchEvent mtod memory events j).isSome ↔ CastReady mtod memory words j := by
  rw [L3fwd.prefetchEvent, laidOut.evMbuf inside, CastReady]
  cases memory (L3fwd.castWord words j + rteEventMbuf) with
  | none => simp
  | some mbuf => simp

/-- Every packet is prefetched once, three turns ahead where there are as many. -/
theorem noOptProcessEventsMbufs_eq_some_iff (mtod : WordMemory → BitVec 64 → Bool)
    (memory : Nat → WordMemory) (events : BitVec 64) (nbRx : Nat) (mbufs : List (BitVec 64)) :
    noOptProcessEventsMbufs mtod memory events nbRx = some mbufs ↔
      (∀ j, j < nbRx → (prefetchEvent mtod (memory (j - prefetchOffset)) events j).isSome) ∧
      (List.range nbRx).mapM (fun j => evMbuf (memory j) events j) = some mbufs := by
  have split : List.range nbRx = List.range (nbRx - prefetchOffset) ++
      List.range' (nbRx - prefetchOffset) (nbRx - (nbRx - prefetchOffset)) := by
    have joined := @List.range'_append_1 0 (nbRx - prefetchOffset)
      (nbRx - (nbRx - prefetchOffset))
    have all : nbRx - prefetchOffset + (nbRx - (nbRx - prefetchOffset)) = nbRx := by omega
    rw [Nat.zero_add, all] at joined
    rw [List.range_eq_range', List.range_eq_range', joined]
  have ahead : (∀ j, j < nbRx →
        (prefetchEvent mtod (memory (j - prefetchOffset)) events j).isSome) ↔
      (∀ j ∈ List.range (min prefetchOffset nbRx),
        (prefetchEvent mtod (memory 0) events j).isSome) ∧
      ∀ j ∈ List.range (nbRx - prefetchOffset),
        (prefetchEvent mtod (memory j) events (j + prefetchOffset)).isSome := by
    simp only [List.mem_range]
    constructor
    · intro all
      refine ⟨fun j early => ?_, fun j late => ?_⟩
      · have atStart : j - prefetchOffset = 0 := by omega
        have ready := all j (by omega)
        rwa [atStart] at ready
      · have ready := all (j + prefetchOffset) (by omega)
        rwa [Nat.add_sub_cancel] at ready
    · rintro ⟨early, late⟩ j inside
      rcases Nat.lt_or_ge j prefetchOffset with first | later
      · have atStart : j - prefetchOffset = 0 := by omega
        rw [atStart]
        exact early j (by omega)
      · have ready := late (j - prefetchOffset) (by omega)
        rwa [Nat.sub_add_cancel later] at ready
  rw [split, mapM_append_eq_some_iff, ahead, and_assoc, ← isSome_mapM_iff,
    noOptProcessEventsMbufs]
  cases (List.range (min prefetchOffset nbRx)).mapM (prefetchEvent mtod (memory 0) events) with
  | none => simp
  | some _ =>
      have guarded := mapM_guarded
        (fun j => prefetchEvent mtod (memory j) events (j + prefetchOffset))
        (fun j => evMbuf (memory j) events j) (List.range (nbRx - prefetchOffset))
      simp only [Option.isSome_some, true_and, Option.bind_eq_bind, Option.bind_some,
        Option.bind_eq_some_iff, Option.some.injEq] at guarded ⊢
      constructor
      · rintro ⟨first, isFirst, rest, isRest, joined⟩
        rcases (guarded first).mp isFirst with ⟨ready, read⟩
        exact ⟨ready, first, rest, read, isRest, joined.symm⟩
      · rintro ⟨ready, first, rest, read, isRest, joined⟩
        exact ⟨first, (guarded first).mpr ⟨ready, read⟩, rest, isRest, joined.symm⟩

/-! ## When the mbufs of the events are processed -/

/-- Both functions process exactly the mbufs of the events, each once and in order, if and
only if every word that is taken for an address leads to the right mbuf; the one that looks
ahead must be able to look at what it finds there. -/
theorem emEventLoopBurst_mbufs_iff (mtod : WordMemory → BitVec 64 → Bool)
    (memory : Nat → WordMemory) (events : BitVec 64) (words : List EventWords)
    (laidOut : ∀ j, LaidOut (memory j) events words) :
    (processEventsMbufs (memory 0) events words.length = some (words.map EventWords.mbuf) ↔
      ∀ j, j < words.length → CastLeads (memory 0) words j) ∧
    (noOptProcessEventsMbufs mtod memory events words.length =
        some (words.map EventWords.mbuf) ↔
      ∀ j, j < words.length → CastLeads (memory j) words j ∧
        CastReady mtod (memory (j - prefetchOffset)) words j) := by
  refine ⟨processEventsMbufs_iff (laidOut 0), ?_⟩
  have read := mapM_range_eq_some_iff (fun j => evMbuf (memory j) events j)
    (words.map EventWords.mbuf)
  rw [List.length_map] at read
  rw [noOptProcessEventsMbufs_eq_some_iff, read, ← forall₂_and]
  apply forall₂_congr
  intro j inside
  rw [and_comm, (laidOut j).evMbuf_eq_iff inside,
    (laidOut (j - prefetchOffset)).prefetchEvent_isSome inside]

/-- An event whose first word happens to be its own address. -/
theorem emEventLoopBurst_mbufs_iff_self :
    let memory : WordMemory := fun address =>
      if address = 0x7000#64 then some 0x7000#64
      else if address = 0x7008#64 then some 0x9000#64
      else none
    processEventsMbufs memory 0x7000#64 1 = some [0x9000#64] ∧
      noOptProcessEventsMbufs (fun _ _ => true) (fun _ => memory) 0x7000#64 1 =
        some [0x9000#64] := by
  intro memory
  have laidOut : LaidOut memory 0x7000#64 [⟨0x7000#64, 0x9000#64⟩] :=
    laidOut_one (by decide) (by decide)
  rcases emEventLoopBurst_mbufs_iff (fun _ _ => true) (fun _ => memory) 0x7000#64 _
    (fun _ => laidOut) with ⟨opt, noOpt⟩
  refine ⟨opt.mpr ?_, noOpt.mpr ?_⟩
  · intro j inside
    rw [List.length_singleton, Nat.lt_one_iff] at inside
    subst inside
    decide
  · intro j inside
    rw [List.length_singleton, Nat.lt_one_iff] at inside
    subst inside
    exact ⟨by decide, 0x9000#64, by decide, rfl⟩

/-- An event of the lowest priority, whose first word is no address at all. -/
theorem emEventLoopBurst_mbufs_stray :
    let memory : WordMemory := fun address =>
      if address = 0x7000#64 then some 0x00ff000000000000#64
      else if address = 0x7008#64 then some 0x9000#64
      else if 0x9000#64 ≤ address ∧ address < 0x9080#64 then some 0#64
      else none
    LaidOut memory 0x7000#64 [⟨0x00ff000000000000#64, 0x9000#64⟩] ∧
      processEventsMbufs memory 0x7000#64 1 ≠ some [0x9000#64] ∧
      noOptProcessEventsMbufs (fun _ _ => true) (fun _ => memory) 0x7000#64 1 ≠
        some [0x9000#64] := by
  intro memory
  exact ⟨laidOut_one (by decide) (by decide), by decide, by decide⟩

/-! ## The memory of the workers -/

/-- The words of events as a worker finds them. -/
def EventMemory.eventWords (memory : EventMemory) (events : List RteEvent) : List EventWords :=
  events.map fun ev => ⟨memory.metadata ev, BitVec.ofNat 64 ev.mbuf⟩

/-- A worker that is passed the array reads what lies behind these words. -/
theorem evMbuf_eq_mbufAt {memory : WordMemory} {found : EventMemory}
    (mbufAt : ∀ word, found.mbufAt word = (memory (word + rteEventMbuf)).map BitVec.toNat)
    {base : BitVec 64} {events : List RteEvent}
    (laidOut : LaidOut memory base (found.eventWords events)) {j : Nat}
    (inside : j < events.length) :
    (evMbuf memory base j).map BitVec.toNat = found.mbufAt (found.word events j) := by
  have half : j / 2 < events.length := by omega
  have insideWords : j < (found.eventWords events).length := by
    rw [EventMemory.eventWords, List.length_map]
    exact inside
  have same : castWord (found.eventWords events) j = found.word events j := by
    rw [castWord, EventMemory.word, EventMemory.eventWords,
      List.getD_eq_getElem _ _ (by rw [List.length_map]; exact half),
      List.getD_eq_getElem _ _ half, List.getElem_map]
  rw [laidOut.evMbuf insideWords, mbufAt, same]

end PacketForwarding.L3fwd
