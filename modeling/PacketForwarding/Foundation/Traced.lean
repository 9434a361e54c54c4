import Mathlib

/-! # Computations that leave a trace

A `Traced` computation has a value and says what it touched on the way, oldest first.
Forgetting what was touched leaves the plain computation, and what a loop touches is what
its rounds touch.
-/

namespace PacketForwarding

structure Traced (τ : Type) (α : Type) where
  value : α
  touched : List τ

namespace Traced

variable {τ α β σ ι : Type}

instance : Monad (Traced τ) where
  pure value := ⟨value, []⟩
  bind run next := ⟨(next run.value).value, run.touched ++ (next run.value).touched⟩

def touch (item : τ) : Traced τ Unit := ⟨(), [item]⟩

def touchAll (items : List τ) : Traced τ Unit := ⟨(), items⟩

@[simp] theorem value_pure (value : α) : (pure value : Traced τ α).value = value := rfl

@[simp] theorem touched_pure (value : α) : (pure value : Traced τ α).touched = [] := rfl

@[simp] theorem value_bind (run : Traced τ α) (next : α → Traced τ β) :
    (run >>= next).value = (next run.value).value := rfl

@[simp] theorem touched_bind (run : Traced τ α) (next : α → Traced τ β) :
    (run >>= next).touched = run.touched ++ (next run.value).touched := rfl

instance : LawfulMonad (Traced τ) where
  map_const := rfl
  id_map run := by
    change (⟨run.value, run.touched ++ []⟩ : Traced τ _) = run
    rw [List.append_nil]
  seqLeft_eq first second := by
    change (⟨first.value, first.touched ++ (second.touched ++ [])⟩ : Traced τ _) =
      ⟨first.value, first.touched ++ [] ++ (second.touched ++ [])⟩
    rw [List.append_nil first.touched]
  seqRight_eq first second := by
    change (⟨second.value, first.touched ++ second.touched⟩ : Traced τ _) =
      ⟨second.value, first.touched ++ [] ++ (second.touched ++ [])⟩
    rw [List.append_nil, List.append_nil]
  pure_seq _ _ := rfl
  bind_pure_comp _ _ := rfl
  bind_map _ _ := rfl
  pure_bind _ _ := rfl
  bind_assoc first second third := by
    change (⟨_, first.touched ++ _ ++ _⟩ : Traced τ _) = ⟨_, first.touched ++ (_ ++ _)⟩
    rw [List.append_assoc]
    rfl

/-- What is touched goes by another name outside. -/
def relabel {υ : Type} (name : τ → υ) (run : Traced τ α) : Traced υ α :=
  ⟨run.value, run.touched.map name⟩

@[simp] theorem value_relabel {υ : Type} (name : τ → υ) (run : Traced τ α) :
    (run.relabel name).value = run.value := rfl

/-- Without its trace, a loop is a fold. -/
theorem value_foldlM (step : σ → ι → Traced τ σ) :
    ∀ (items : List ι) (start : σ),
      (items.foldlM step start).value =
        items.foldl (fun state item => (step state item).value) start := by
  intro items
  induction items with
  | nil => exact fun _ => rfl
  | cons item items induction =>
      intro start
      rw [List.foldlM_cons, value_bind, induction, List.foldl_cons]

/-- What every round keeps, a loop keeps. -/
theorem value_foldlM_keeps {step : σ → ι → Traced τ σ} {keeps : σ → Prop} {items : List ι}
    {start : σ} (starts : keeps start)
    (rounds : ∀ item ∈ items, ∀ state, keeps state → keeps (step state item).value) :
    keeps (items.foldlM step start).value := by
  induction items generalizing start with
  | nil => exact starts
  | cons item items induction =>
      rw [List.foldlM_cons, value_bind]
      exact induction (rounds item List.mem_cons_self start starts)
        fun other member => rounds other (List.mem_cons_of_mem item member)

/-- What one round touches in any state, a loop with that round touches. -/
theorem touched_foldlM_of_mem {step : σ → ι → Traced τ σ} {items : List ι} {item : ι}
    (member : item ∈ items) {name : τ} (touches : ∀ state, name ∈ (step state item).touched)
    (start : σ) : name ∈ (items.foldlM step start).touched := by
  induction items generalizing start with
  | nil => cases member
  | cons first items induction =>
      rw [List.foldlM_cons, touched_bind, List.mem_append]
      rcases List.mem_cons.mp member with same | later
      · subst same
        exact Or.inl (touches start)
      · exact Or.inr (induction later _)

@[simp] theorem touched_touch (item : τ) : (touch item).touched = [item] := rfl

@[simp] theorem touched_touchAll (items : List τ) : (touchAll items).touched = items := rfl

/-- Everything that is touched has the property. -/
def Only (p : τ → Prop) (run : Traced τ α) : Prop :=
  ∀ item ∈ run.touched, p item

section Only

variable {p : τ → Prop}

theorem only_pure (value : α) : Only p (pure value) := by
  intro item member
  cases member

@[simp] theorem only_pure_iff (value : α) : Only p (pure value) ↔ True :=
  iff_true_intro (only_pure value)

@[simp] theorem only_touch_iff (item : τ) : Only p (touch item) ↔ p item :=
  List.forall_mem_singleton

@[simp] theorem only_touchAll_iff (items : List τ) :
    Only p (touchAll items) ↔ ∀ item ∈ items, p item := Iff.rfl

@[simp] theorem only_bind_iff (run : Traced τ α) (next : α → Traced τ β) :
    Only p (run >>= next) ↔ Only p run ∧ Only p (next run.value) :=
  List.forall_mem_append

@[simp] theorem only_map_iff (f : α → β) (run : Traced τ α) :
    Only p (f <$> run) ↔ Only p run := by
  rw [← bind_pure_comp, only_bind_iff]
  exact and_iff_left (only_pure _)

@[simp] theorem only_relabel_iff {υ : Type} {p : υ → Prop} (name : τ → υ) (run : Traced τ α) :
    Only p (run.relabel name) ↔ Only (fun item => p (name item)) run :=
  List.forall_mem_map

/-- A loop touches what its rounds touch. What a round touches may depend on an invariant
of what is still ahead. -/
theorem only_foldlM_iff {step : σ → ι → Traced τ σ} {good : ι → Prop}
    (inv : List ι → σ → Prop)
    (keeps : ∀ item rest state, inv (item :: rest) state → inv rest (step state item).value)
    (round : ∀ item rest state, inv (item :: rest) state →
      (Only p (step state item) ↔ good item)) :
    ∀ (items : List ι) (start : σ), inv items start →
      (Only p (items.foldlM step start) ↔ ∀ item ∈ items, good item) := by
  intro items
  induction items with
  | nil =>
      intro start _
      exact iff_of_true (only_pure start) (List.forall_mem_nil good)
  | cons item items induction =>
      intro start holds
      rw [List.foldlM_cons, only_bind_iff, round item items start holds,
        induction _ (keeps item items start holds), List.forall_mem_cons]

theorem only_foldlM {step : σ → ι → Traced τ σ} (items : List ι) (start : σ)
    (rounds : ∀ item ∈ items, ∀ state, Only p (step state item)) :
    Only p (items.foldlM step start) := by
  have all := @only_foldlM_iff τ σ ι p step (fun _ => True)
    (fun rest _ => ∀ item ∈ rest, ∀ state, Only p (step state item))
    (fun item rest _ inside other member => inside other (List.mem_cons_of_mem item member))
    (fun item rest state inside => iff_true_intro (inside item List.mem_cons_self state))
    items start rounds
  exact all.mpr fun _ _ => trivial

/-- Where the rounds touch the same whatever the state, no invariant is needed. -/
theorem only_foldlM_iff_forall {step : σ → ι → Traced τ σ} {good : ι → Prop}
    (round : ∀ state item, Only p (step state item) ↔ good item) (items : List ι) (start : σ) :
    Only p (items.foldlM step start) ↔ ∀ item ∈ items, good item :=
  only_foldlM_iff (fun _ _ => True) (fun _ _ _ _ => trivial)
    (fun item _ state _ => round state item) items start trivial

end Only

end Traced

end PacketForwarding
