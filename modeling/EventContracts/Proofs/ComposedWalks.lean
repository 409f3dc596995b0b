import EventContracts.Proofs.DepictionReplay
import EventContracts.Proofs.ValidationDepth

/-! Walks that are put together. The walk over a layer takes the walks over its parts, in order, and
validates on the way; apart from that it stops for nothing but an interrupted validation. So when it
succeeds, the walks over all of the parts do, and it can only fail where one of them does or where a
validation has no answer. -/

namespace EventContracts

namespace Walk

variable {U α β γ : Type}

lemma bind_assoc (w : Walk U α) (f : α → Walk U β) (g : β → Walk U γ) :
    (w >>= f) >>= g = w >>= fun a => f a >>= g := by
  induction w with
  | done a => rfl
  | halt cause => rfl
  | ask node input next ih => exact congrArg (ask node input) (funext ih)
  | refer target direction next ih => exact congrArg (refer target direction) (funext ih)

/-- Whether a validation was interrupted, and a walk stops for that reason. -/
def Stops (outcome : Outcome) (w : Walk U α) : Prop :=
  ∃ cause, outcome = .error (.interrupted cause) ∧ w = .halt (.interrupted cause)

lemma Stops.bind {outcome : Outcome} {w : Walk U α} (stops : Stops outcome w)
    (f : α → Walk U β) : Stops outcome (w >>= f) := by
  obtain ⟨cause, interrupted, rfl⟩ := stops
  exact ⟨cause, interrupted, rfl⟩

/-- A walk that takes other walks, its parts, from the first to the last one, and that validates
certain nodes on the way. -/
inductive Composed (seen : Node → Prop) : List (Walk U U) → Walk U α → Prop where
  | done (a : α) : Composed seen [] (.done a)
  | ask {parts : List (Walk U U)} {node : Node} {input : Option Json} {next : Outcome → Walk U α}
      (mem : seen node) (rest : ∀ outcome, ¬ Stops outcome (next outcome) →
        Composed seen parts (next outcome)) : Composed seen parts (.ask node input next)
  | part {part : Walk U U} {parts : List (Walk U U)} {next : U → Walk U α}
      (rest : ∀ view, Composed seen parts (next view)) :
      Composed seen (part :: parts) (part >>= next)

/-- A walk that stops only when a validation is interrupted, that validates certain nodes only, and
that asks for certain views only. -/
inductive Calm (seen : Node → Prop) (asked : String → Direction → Prop) : Walk U α → Prop where
  | done (a : α) : Calm seen asked (.done a)
  | ask {node : Node} {input : Option Json} {next : Outcome → Walk U α} (mem : seen node)
      (rest : ∀ outcome, ¬ Stops outcome (next outcome) → Calm seen asked (next outcome)) :
      Calm seen asked (.ask node input next)
  | refer {target : String} {direction : Direction} {next : U → Walk U α}
      (mem : asked target direction) (rest : ∀ view, Calm seen asked (next view)) :
      Calm seen asked (.refer target direction next)

namespace Composed

variable {seen other : Node → Prop} {parts more : List (Walk U U)} {w : Walk U α}

lemma pure (a : α) : Composed seen [] (Pure.pure a : Walk U α) := .done a

/-- What is done after a walk is put together with it. -/
lemma bind {f : α → Walk U β} (composed : Composed seen parts w)
    (next : ∀ a, Composed seen more (f a)) : Composed seen (parts ++ more) (w >>= f) := by
  induction composed with
  | done a => exact next a
  | ask mem _ ih =>
    refine .ask mem ?_
    intro outcome goes
    exact ih outcome fun stops => goes (stops.bind f)
  | part _ ih =>
    rw [bind_assoc]
    exact .part ih

/-- What takes no parts can come after a walk. -/
lemma andThen {f : α → Walk U β} (composed : Composed seen parts w)
    (next : ∀ a, Composed seen [] (f a)) : Composed seen parts (w >>= f) := by
  have all := composed.bind next
  rwa [List.append_nil] at all

/-- A part is put together of itself. -/
lemma last (part : Walk U U) : Composed seen [part] part := by
  have same : (part >>= Walk.done) = part := by
    induction part with
    | done a => rfl
    | halt cause => rfl
    | ask node input next ih => exact congrArg (Walk.ask node input) (funext ih)
    | refer target direction next ih => exact congrArg (Walk.refer target direction) (funext ih)
  have composed : Composed seen [part] (part >>= Walk.done) := .part .done
  rwa [same] at composed

lemma view {target : String} {direction : Direction} :
    Composed seen [Walk.view target direction] (Walk.view (U := U) target direction) := .last _

lemma accepts {node : Node} {input : Option Json} (mem : seen node) :
    Composed seen [] (Walk.accepts (U := U) node input) := by
  refine .ask mem ?_
  intro outcome goes
  match outcome with
  | .ok _ => exact .done true
  | .error (.invalid _) => exact .done false
  | .error (.interrupted cause) => exact absurd ⟨cause, rfl, rfl⟩ goes

lemma fieldOptional {node : Node} {direction : Direction} (mem : seen node) :
    Composed seen [] (Walk.fieldOptional (U := U) direction node) := by
  rw [Walk.fieldOptional]
  split
  · exact .done _
  · exact .accepts mem

lemma probe {node : Node} {sample : Json} (mem : seen node) :
    Composed seen [] (Walk.probe (U := U) node sample) := by
  refine .ask mem ?_
  intro outcome goes
  change Composed seen [] (Walk.check outcome.probed)
  change ¬ Stops outcome (Walk.check outcome.probed) at goes
  cases probed : outcome.probed with
  | ok result => exact .done result
  | error cause =>
    rw [probed] at goes
    have interrupted : outcome = .error (.interrupted cause) := by
      unfold Outcome.probed at probed
      split at probed <;> cases probed
      rfl
    exact absurd ⟨cause, interrupted, rfl⟩ goes

lemma mono (wider : ∀ node, seen node → other node) (composed : Composed seen parts w) :
    Composed other parts w := by
  induction composed with
  | done a => exact .done a
  | ask mem _ ih => exact .ask (wider _ mem) ih
  | part _ ih => exact .part ih

end Composed

lemma Calm.bind {seen : Node → Prop} {asked : String → Direction → Prop} {w : Walk U α}
    {f : α → Walk U β} (calm : Calm seen asked w) (next : ∀ a, Calm seen asked (f a)) :
    Calm seen asked (w >>= f) := by
  induction calm with
  | done a => exact next a
  | ask mem _ ih =>
    refine .ask mem ?_
    intro outcome goes
    exact ih outcome fun stops => goes (stops.bind f)
  | refer mem _ ih => exact .refer mem ih

/-- A walk that is put together of calm walks is calm. -/
lemma Composed.calm {seen : Node → Prop} {asked : String → Direction → Prop}
    {parts : List (Walk U U)} {w : Walk U α} (composed : Composed seen parts w)
    (each : ∀ part ∈ parts, Calm seen asked part) : Calm seen asked w := by
  induction composed with
  | done a => exact .done a
  | ask mem _ ih => exact .ask mem fun outcome goes => ih outcome goes each
  | part _ ih =>
    refine (each _ List.mem_cons_self).bind ?_
    intro view
    exact ih view fun part mem => each part (List.mem_cons_of_mem _ mem)

end Walk

namespace Depicter

variable {U α : Type} {depicter : Depicter U} {setting : Setting} {table later : AliasTable U}
  {seen : Node → Prop} {asked : String → Direction → Prop}

/-- When a walk is replayed, its parts are. -/
lemma replay_part {parts : List (Walk U U)} {w : Walk U α} {a : α}
    (composed : Walk.Composed seen parts w) (replayed : depicter.replay setting table w = .ok a)
    {part : Walk U U} (mem : part ∈ parts) :
    ∃ view, depicter.replay setting table part = .ok view := by
  induction composed with
  | done _ => cases mem
  | @ask parts node input next _ _ ih =>
    rw [replay_ask] at replayed
    refine ih _ ?_ replayed mem
    rintro ⟨cause, -, stopped⟩
    rw [stopped] at replayed
    cases replayed
  | part _ ih =>
    rw [replay_bind] at replayed
    obtain ⟨view, first, rest⟩ := exists_of_bind replayed
    rcases List.mem_cons.mp mem with rfl | mem
    · exact ⟨view, first⟩
    · exact ih view rest mem

/-- A run of a calm walk validates only what it may, when the bodies of references are calm too. -/
lemma Runs.validated {w : Walk U U} {visits : List Visit} {result : Except Halt U}
    (h : depicter.Runs setting table w visits result later) (calm : w.Calm seen asked)
    (bodies : ∀ target direction, asked target direction →
      (depicter.walk (setting.resolve target) direction).Calm seen asked) :
    ∀ node input, .validation node input ∈ visits → seen node := by
  induction h with
  | done => exact fun _ _ mem => absurd mem List.not_mem_nil
  | halt => exact fun _ _ mem => absurd mem List.not_mem_nil
  | @ask _ node input next _ _ _ run ih =>
    cases calm with
    | ask mem rest =>
      intro other input' inside
      rcases List.mem_cons.mp inside with same | inside
      · cases same
        exact mem
      · by_cases stops : Walk.Stops (setting.library.validate node input)
          (next (setting.library.validate node input))
        · obtain ⟨cause, -, halted⟩ := stops
          rw [halted] at run
          cases run
          cases inside
        · exact ih (rest _ stops) other input' inside
  | known _ _ ih =>
    cases calm with
    | refer _ rest => exact ih (rest _)
  | produced _ _ _ bodyIH restIH =>
    cases calm with
    | refer mem rest =>
      intro node input inside
      rcases List.mem_cons.mp inside with same | inside
      · cases same
      · rcases List.mem_append.mp inside with inside | inside
        · exact bodyIH (bodies _ _ mem) node input inside
        · exact restIH (rest _) node input inside
  | failed _ _ bodyIH =>
    cases calm with
    | refer mem _ =>
      intro node input inside
      rcases List.mem_cons.mp inside with same | inside
      · cases same
      · exact bodyIH (bodies _ _ mem) node input inside

/-- A run of a calm walk succeeds, when the bodies of references are calm and all validations on the
way have an answer. -/
lemma Runs.succeeds {w : Walk U U} {visits : List Visit} {result : Except Halt U}
    (h : depicter.Runs setting table w visits result later) (calm : w.Calm seen asked)
    (bodies : ∀ target direction, asked target direction →
      (depicter.walk (setting.resolve target) direction).Calm seen asked)
    (answered : ∀ node input, .validation node input ∈ visits →
      ∀ cause, setting.library.validate node input ≠ .error (.interrupted cause)) :
    ∃ view, result = .ok view := by
  induction h with
  | done => exact ⟨_, rfl⟩
  | halt => cases calm
  | ask _ ih =>
    cases calm with
    | ask _ rest =>
      refine ih (rest _ ?_) fun node input mem => answered node input (List.mem_cons_of_mem _ mem)
      rintro ⟨cause, interrupted, -⟩
      exact answered _ _ List.mem_cons_self cause interrupted
  | known _ _ ih =>
    cases calm with
    | refer _ rest => exact ih (rest _) answered
  | produced _ _ _ _ ih =>
    cases calm with
    | refer _ rest =>
      refine ih (rest _) fun node input mem => answered node input ?_
      exact List.mem_cons_of_mem _ (List.mem_append_right _ mem)
  | failed _ _ ih =>
    cases calm with
    | refer mem _ =>
      obtain ⟨view, failed⟩ := ih (bodies _ _ mem) fun node input mem =>
        answered node input (List.mem_cons_of_mem _ mem)
      cases failed

end Depicter

end EventContracts
