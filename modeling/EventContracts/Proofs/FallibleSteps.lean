import Mathlib.Tactic.Lemma

/-! Steps that may fail and that change a state. What a step has done to the state stays done when
it fails, and no step after it is taken; so what all steps keep, or all make true of one more item,
is known of a succession of them. -/

namespace EventContracts

section Monads

variable {ε σ α β : Type} {m : Type → Type} [Monad m]

/-- What is done after a step, in the state that it leaves. -/
def goOn (next : α → ExceptT ε (StateT σ m) β) : Except ε α × σ → m (Except ε β × σ)
  | (.ok a, later) => next a later
  | (.error cause, later) => pure (.error cause, later)

lemma bind_step (action : ExceptT ε (StateT σ m) α) (next : α → ExceptT ε (StateT σ m) β)
    (start : σ) : (action >>= next) start = action start >>= goOn next := by
  simp only [bind, ExceptT.bind, ExceptT.mk, StateT.bind]
  congr
  funext ⟨result, later⟩
  cases result with
  | ok a => rfl
  | error cause => rfl

lemma pure_step (a : α) (start : σ) :
    (pure a : ExceptT ε (StateT σ m) α) start = pure (.ok a, start) := rfl

variable [LawfulMonad m]

lemma get_step (start : σ) :
    (getThe σ : ExceptT ε (StateT σ m) σ) start = pure (.ok start, start) :=
  pure_bind _ _

lemma modify_step (f : σ → σ) (start : σ) :
    (modifyThe σ f : ExceptT ε (StateT σ m) PUnit) start = pure (.ok ⟨⟩, f start) :=
  pure_bind _ _

end Monads

section Steps

variable {ε σ α β : Type} {start middle later : σ} {P : ε → Prop}

lemma bind_of_ok {action : ExceptT ε (StateM σ) α} {a : α} (made : action start = (.ok a, middle))
    (next : α → ExceptT ε (StateM σ) β) : (action >>= next) start = next a middle := by
  rw [bind_step, made]
  rfl

/-- A step that fails is the last one. -/
lemma bind_of_error {action : ExceptT ε (StateM σ) α} {cause : ε}
    (failed : action start = (.error cause, later)) (next : α → ExceptT ε (StateM σ) β) :
    (action >>= next) start = (.error cause, later) := by
  rw [bind_step, failed]
  rfl

lemma bind_ok {action : ExceptT ε (StateM σ) α} {next : α → ExceptT ε (StateM σ) β} {b : β}
    (h : (action >>= next) start = (.ok b, later)) :
    ∃ a middle, action start = (.ok a, middle) ∧ next a middle = (.ok b, later) := by
  rcases made : action start with ⟨cause | a, middle⟩
  · rw [bind_of_error made] at h
    cases h
  · rw [bind_of_ok made] at h
    exact ⟨a, middle, rfl, h⟩

lemma exists_of_isOk {action : ExceptT ε (StateM σ) α} (h : (action start).1.isOk = true) :
    ∃ a later, action start = (.ok a, later) := by
  rcases made : action start with ⟨cause | a, later⟩
  · rw [made] at h
    cases h
  · exact ⟨a, later, rfl⟩

/-- What each step makes true of one more item is true of all items in the end. -/
lemma foldlM_prefix {step : β → α → ExceptT ε (StateM σ) β} (holds : List α → β → σ → Prop)
    (grown : ∀ done b a b' s s', holds done b s → step b a s = (.ok b', s') →
      holds (done ++ [a]) b' s')
    {items : List α} {b b' : β} (here : holds [] b start)
    (h : items.foldlM step b start = (.ok b', later)) : holds items b' later := by
  suffices after : ∀ done, holds done b start → holds (done ++ items) b' later from after [] here
  clear here
  intro done here
  induction items generalizing done b start with
  | nil =>
    cases h
    rwa [List.append_nil]
  | cons a items ih =>
    rw [List.foldlM_cons] at h
    obtain ⟨c, middle, first, rest⟩ := bind_ok h
    have all := ih rest _ (grown done b a c start middle here first)
    rwa [List.append_assoc] at all

lemma forM_prefix {step : α → ExceptT ε (StateM σ) PUnit} (holds : List α → σ → Prop)
    (grown : ∀ done a s s', holds done s → step a s = (.ok ⟨⟩, s') → holds (done ++ [a]) s')
    {items : List α} (here : holds [] start) (h : items.forM step start = (.ok ⟨⟩, later)) :
    holds items later := by
  suffices after : ∀ done, holds done start → holds (done ++ items) later from after [] here
  clear here
  intro done here
  induction items generalizing done start with
  | nil =>
    cases h
    rwa [List.append_nil]
  | cons a items ih =>
    obtain ⟨_, middle, first, rest⟩ := bind_ok h
    have all := ih rest _ (grown done a start middle here first)
    rwa [List.append_assoc] at all

/-- What every step keeps is kept by a succession of them. -/
lemma foldlM_ok {step : β → α → ExceptT ε (StateM σ) β} (holds : β → σ → Prop)
    (kept : ∀ b a b' s s', holds b s → step b a s = (.ok b', s') → holds b' s') {items : List α}
    {b b' : β} (here : holds b start) (h : items.foldlM step b start = (.ok b', later)) :
    holds b' later :=
  foldlM_prefix (fun _ => holds) (fun _ => kept) here h

lemma forM_ok {step : α → ExceptT ε (StateM σ) PUnit} (holds : σ → Prop)
    (kept : ∀ a s s', holds s → step a s = (.ok ⟨⟩, s') → holds s') {items : List α}
    (here : holds start) (h : items.forM step start = (.ok ⟨⟩, later)) : holds later :=
  forM_prefix (fun _ => holds) (fun _ => kept) here h

/-- A succession of steps succeeds when each of them does in the state that the earlier ones leave
for it. -/
lemma foldlM_succeeds (step : β → α → ExceptT ε (StateM σ) β) (b : β) (start : σ)
    (ready : List α → σ → Prop)
    (each : ∀ a rest b s, ready (a :: rest) s →
      ∃ b' s', step b a s = (.ok b', s') ∧ ready rest s') {items : List α}
    (here : ready items start) :
    ∃ b' later, items.foldlM step b start = (.ok b', later) ∧ ready [] later := by
  induction items generalizing b start with
  | nil => exact ⟨b, start, rfl, here⟩
  | cons a items ih =>
    obtain ⟨b', middle, first, next⟩ := each a items b start here
    rw [List.foldlM_cons, bind_of_ok first]
    exact ih b' middle next

lemma forM_succeeds (step : α → ExceptT ε (StateM σ) PUnit) (start : σ)
    (ready : List α → σ → Prop)
    (each : ∀ a rest s, ready (a :: rest) s → ∃ s', step a s = (.ok ⟨⟩, s') ∧ ready rest s')
    {items : List α} (here : ready items start) :
    ∃ later, items.forM step start = (.ok ⟨⟩, later) ∧ ready [] later := by
  induction items generalizing start with
  | nil => exact ⟨start, rfl, here⟩
  | cons a items ih =>
    obtain ⟨middle, first, next⟩ := each a items start here
    obtain ⟨later, rest, done⟩ := ih middle next
    exact ⟨later, (bind_of_ok first _).trans rest, done⟩

/-- A succession of steps fails at one of them, after those before it have succeeded. -/
lemma forM_error {step : α → ExceptT ε (StateM σ) PUnit} {items : List α} {cause : ε}
    (h : items.forM step start = (.error cause, later)) :
    ∃ done a rest middle, items = done ++ a :: rest ∧ done.forM step start = (.ok ⟨⟩, middle) ∧
      step a middle = (.error cause, later) := by
  induction items generalizing start with
  | nil => cases h
  | cons a items ih =>
    change (step a >>= fun _ => items.forM step) start = _ at h
    rcases made : step a start with ⟨other | _, next⟩
    · rw [bind_of_error made] at h
      cases h
      exact ⟨[], a, items, start, rfl, rfl, made⟩
    · rw [bind_of_ok made] at h
      obtain ⟨done, failed, rest, middle, rfl, before, stopped⟩ := ih h
      exact ⟨a :: done, failed, rest, middle, rfl, (bind_of_ok made _).trans before, stopped⟩

/-- Whether a step fails for certain causes only. -/
def FailsBy (P : ε → Prop) (action : ExceptT ε (StateM σ) α) : Prop :=
  ∀ start cause later, action start = (.error cause, later) → P cause

lemma FailsBy.pure (a : α) : FailsBy P (Pure.pure a : ExceptT ε (StateM σ) α) :=
  fun _ _ _ h => by cases h

lemma FailsBy.bind {action : ExceptT ε (StateM σ) α} {next : α → ExceptT ε (StateM σ) β}
    (first : FailsBy P action) (rest : ∀ a, FailsBy P (next a)) : FailsBy P (action >>= next) := by
  intro start cause later h
  rcases made : action start with ⟨other | a, middle⟩
  · rw [bind_of_error made] at h
    cases h
    exact first start _ _ made
  · rw [bind_of_ok made] at h
    exact rest a middle cause later h

lemma FailsBy.foldlM {step : β → α → ExceptT ε (StateM σ) β} (each : ∀ b a, FailsBy P (step b a))
    (items : List α) (b : β) : FailsBy P (items.foldlM step b) := by
  induction items generalizing b with
  | nil => exact .pure b
  | cons a items ih =>
    rw [List.foldlM_cons]
    exact .bind (each b a) ih

lemma FailsBy.forM {step : α → ExceptT ε (StateM σ) PUnit} (each : ∀ a, FailsBy P (step a))
    (items : List α) : FailsBy P (items.forM step) := by
  intro start cause later h
  obtain ⟨-, a, -, middle, -, -, failed⟩ := forM_error h
  exact each a middle cause later failed

lemma FailsBy.modify (f : σ → σ) :
    FailsBy P (MonadState.modifyGet fun s => ((), f s) : ExceptT ε (StateM σ) Unit) :=
  fun _ _ _ h => by cases h

end Steps

end EventContracts
