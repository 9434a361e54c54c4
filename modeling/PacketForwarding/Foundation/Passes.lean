import Mathlib

/-! # A pass over a list that may stop

A pass goes through a list and keeps an invariant about what it has seen. It stops at the
first item that is bad, and it goes wrong as soon as there is no room for what it has seen.
What becomes of a whole pass depends on the list alone.
-/

namespace PacketForwarding

variable {α σ ε : Type*}

/-- The items up to the first bad one. -/
theorem exists_first {bad : α → Prop} : ∀ items : List α, (∃ item ∈ items, bad item) →
    ∃ front item behind, items = front ++ item :: behind ∧ (∀ other ∈ front, ¬ bad other) ∧
      bad item := by
  intro items
  induction items with
  | nil =>
      rintro ⟨_, impossible, _⟩
      cases impossible
  | cons head items induction =>
      rintro ⟨item, member, found⟩
      by_cases first : bad head
      · exact ⟨[], head, items, rfl, fun _ impossible => absurd impossible List.not_mem_nil, first⟩
      · have later : item ∈ items := by
          rcases List.mem_cons.mp member with same | later
          · rw [same] at found
            exact absurd found first
          · exact later
        rcases induction ⟨item, later, found⟩ with ⟨front, item, behind, rfl, before, isBad⟩
        refine ⟨head :: front, item, behind, rfl, ?_, isBad⟩
        intro other inside
        rcases List.mem_cons.mp inside with same | earlier
        · rw [same]
          exact first
        · exact before other earlier

/-- The first bad item comes before every other one. -/
theorem find_split {bad : α → Prop} {front behind front' behind' : List α} {item item' : α}
    (same : front ++ item :: behind = front' ++ item' :: behind')
    (good : ∀ other ∈ front, ¬ bad other) (isBad : bad item') :
    front ++ [item] <+: front' ++ [item'] := by
  have shorter : front.length ≤ front'.length := by
    by_contra longer
    have inFront : item' ∈ front := by
      have found : (front ++ item :: behind)[front'.length]? = some item' := by
        rw [same, List.getElem?_append_right (Nat.le_refl _), Nat.sub_self]
        rfl
      rw [List.getElem?_append_left (by omega)] at found
      exact List.mem_of_getElem? found
    exact good item' inFront isBad
  have whole : front ++ [item] <+: front ++ item :: behind := ⟨behind, by simp⟩
  have whole' : front' ++ [item'] <+: front ++ item :: behind := ⟨behind', by simp [same]⟩
  exact List.prefix_of_prefix_length_le whole whole' (by simpa using shorter)

/-- What the steps of a pass do. -/
structure Pass (step : σ → α → Except ε σ) (bad : α → Prop) (room : List α → Prop)
    (holds : List α → σ → Prop) (stops : ε) (wrong : ε → Prop) : Prop where
  room_front : ∀ front behind, room (front ++ behind) → room front
  good : ∀ front state item, room front → holds front state → ¬ bad item →
    (room (front ++ [item]) ∧ ∃ next, step state item = .ok next ∧ holds (front ++ [item]) next) ∨
    (¬ room (front ++ [item]) ∧ ∃ fault, step state item = .error fault ∧ wrong fault)
  bad : ∀ front state item, room front → holds front state → bad item →
    (room (front ++ [item]) ∧ step state item = .error stops) ∨
    (¬ room (front ++ [item]) ∧ ∃ fault, step state item = .error fault ∧ wrong fault)

namespace Pass

variable {step : σ → α → Except ε σ} {bad : α → Prop} {room : List α → Prop}
  {holds : List α → σ → Prop} {stops : ε} {wrong : ε → Prop}
  (pass : Pass step bad room holds stops wrong)

include pass

/-- Without a bad item all is gone through if there is room for it. -/
theorem run_good {start : σ} (starts : holds [] start) (nothing : room []) :
    ∀ items : List α, (∀ item ∈ items, ¬ bad item) →
    (room items ∧ ∃ last, items.foldlM step start = .ok last ∧ holds items last) ∨
    (¬ room items ∧ ∃ fault, items.foldlM step start = .error fault ∧ wrong fault) := by
  intro items
  induction items using List.reverseRecOn with
  | nil =>
      intro _
      exact .inl ⟨nothing, start, rfl, starts⟩
  | append_singleton items item induction =>
      intro good
      have before := induction fun other member => good other (List.mem_append_left _ member)
      have last := good item (List.mem_append_right _ List.mem_cons_self)
      have snoc : (items ++ [item]).foldlM step start =
          items.foldlM step start >>= fun state => step state item := by
        simp [List.foldlM_append]
      rw [snoc]
      rcases before with ⟨fits, state, ran, kept⟩ | ⟨full, fault, ran, isWrong⟩
      · rw [ran]
        exact pass.good items state item fits kept last
      · rw [ran]
        exact .inr ⟨fun fits => full (pass.room_front _ _ fits), fault, rfl, isWrong⟩

/-- At the first bad item the pass stops if there is room for the items up to it. -/
theorem run_bad {start : σ} (starts : holds [] start) (nothing : room [])
    {front behind : List α} {item : α} (good : ∀ other ∈ front, ¬ bad other) (isBad : bad item) :
    (room (front ++ [item]) ∧ (front ++ item :: behind).foldlM step start = .error stops) ∨
    (¬ room (front ++ [item]) ∧
      ∃ fault, (front ++ item :: behind).foldlM step start = .error fault ∧ wrong fault) := by
  rw [List.foldlM_append]
  rcases pass.run_good starts nothing front good with ⟨fits, state, ran, kept⟩ |
    ⟨full, fault, ran, isWrong⟩
  · rw [ran]
    rcases pass.bad front state item fits kept isBad with ⟨room, stopped⟩ |
      ⟨noRoom, fault, stopped, isWrong⟩
    · refine .inl ⟨room, ?_⟩
      change (step state item >>= _) = _
      rw [stopped]
      rfl
    · refine .inr ⟨noRoom, fault, ?_, isWrong⟩
      change (step state item >>= _) = _
      rw [stopped]
      rfl
  · rw [ran]
    exact .inr ⟨fun fits => full (pass.room_front _ _ fits), fault, rfl, isWrong⟩

end Pass

end PacketForwarding
