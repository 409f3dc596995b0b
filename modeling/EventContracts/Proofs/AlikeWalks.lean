import EventContracts.Proofs.DepictionRuns
import Mathlib.Logic.Equiv.Basic

/-! Walks that differ in the names of aliases only. They ask the same questions in the same order
and stop for the same reason; answered alike, they have alike results. Alike walks ask for the views
of some targets only, and they give up for want of depth only when a validation did. -/

namespace EventContracts

/-- The answer of a validation that used up the allowed depth. -/
abbrev Outcome.unfinished : Outcome := .error (.interrupted .unfinished)

/-- The halt of a computation that used up the allowed depth. -/
abbrev Halt.unfinished : Halt := .interrupted .unfinished

/-- Whether a walk comes to a halt by itself: there is no view of a kind, or a validation
crashed. -/
def Halt.Genuine : Halt → Prop
  | error cause => ∃ kind direction, cause = .unsupportedKind kind direction
  | interrupted cause => cause = .crash

/-- Whether a tree has a reference to a target. -/
inductive Node.Refers (target : String) : Node → Prop where
  | here {key : String} {notes : Notes} : Refers target (.mk (.reference key target) notes)
  | child {kind : Kind Node} {notes : Notes} {child : Node} (mem : child ∈ kind.children)
      (refers : Refers target child) : Refers target (.mk kind notes)

lemma Node.refers_mk {target : String} {kind : Kind Node} {notes : Notes} :
    Refers target (.mk kind notes) ↔
      (∃ key, kind = .reference key target) ∨ ∃ child ∈ kind.children, Refers target child := by
  constructor
  · rintro (_ | ⟨mem, refers⟩)
    · exact .inl ⟨_, rfl⟩
    · exact .inr ⟨_, mem, refers⟩
  · rintro (⟨key, rfl⟩ | ⟨child, mem, refers⟩)
    · exact .here
    · exact .child mem refers

namespace Walk

variable {U α β γ δ : Type}

/-- Whether a walk asks for the views of certain targets only. -/
inductive Asks (asked : String → Prop) : Walk U α → Prop where
  | done (a : α) : Asks asked (.done a)
  | halt (cause : Halt) : Asks asked (.halt cause)
  | ask {node : Node} {input : Option Json} {next : Outcome → Walk U α}
      (rest : ∀ outcome, Asks asked (next outcome)) : Asks asked (.ask node input next)
  | refer {target : String} {direction : Direction} {next : U → Walk U α} (mem : asked target)
      (rest : ∀ view, Asks asked (next view)) : Asks asked (.refer target direction next)

lemma Asks.mono {asked other : String → Prop} (wider : ∀ target, asked target → other target)
    {w : Walk U α} (asks : w.Asks asked) : w.Asks other := by
  induction asks with
  | done a => exact .done a
  | halt cause => exact .halt cause
  | ask _ ih => exact .ask ih
  | refer mem _ ih => exact .refer (wider _ mem) ih

/-- Walks that are alike up to a renaming of views, with results that correspond. -/
inductive Alike (asked : String → Prop) (rename : U → U) (g : α → β) :
    Walk U α → Walk U β → Prop where
  | done (a : α) : Alike asked rename g (.done a) (.done (g a))
  | halt {cause : Halt} (genuine : cause.Genuine) :
      Alike asked rename g (.halt cause) (.halt cause)
  | ask {node : Node} {input : Option Json} {next : Outcome → Walk U α}
      {next' : Outcome → Walk U β} (stops : next .unfinished = .halt .unfinished)
      (stops' : next' .unfinished = .halt .unfinished)
      (rest : ∀ outcome, outcome ≠ .unfinished →
        Alike asked rename g (next outcome) (next' outcome)) :
      Alike asked rename g (.ask node input next) (.ask node input next')
  | refer {target : String} {direction : Direction} {next : U → Walk U α} {next' : U → Walk U β}
      (mem : asked target) (rest : ∀ view, Alike asked rename g (next view) (next' (rename view))) :
      Alike asked rename g (.refer target direction next) (.refer target direction next')

namespace Alike

variable {asked other : String → Prop} {rename : U → U} {g : α → β} {h : γ → δ}
  {w : Walk U α} {w' : Walk U β}

lemma pure {a : α} {b : β} (eq : b = g a) :
    Alike asked rename g (Pure.pure a : Walk U α) (Pure.pure b : Walk U β) := by
  rw [eq]
  exact .done a

lemma asks (alike : Alike asked rename g w w') : w.Asks asked := by
  induction alike with
  | done a => exact .done a
  | halt _ => exact .halt _
  | ask stops _ _ ih =>
    refine .ask ?_
    intro outcome
    by_cases unfinished : outcome = .unfinished
    · rw [unfinished, stops]
      exact .halt _
    · exact ih outcome unfinished
  | refer mem _ ih => exact .refer mem ih

lemma mono (wider : ∀ target, asked target → other target) (alike : Alike asked rename g w w') :
    Alike other rename g w w' := by
  induction alike with
  | done a => exact .done a
  | halt genuine => exact .halt genuine
  | ask stops stops' _ ih => exact .ask stops stops' ih
  | refer mem _ ih => exact .refer (wider _ mem) ih

lemma bind {f : α → Walk U γ} {f' : β → Walk U δ} (alike : Alike asked rename g w w')
    (next : ∀ a, Alike asked rename h (f a) (f' (g a))) :
    Alike asked rename h (w >>= f) (w' >>= f') := by
  induction alike with
  | done a => exact next a
  | halt genuine => exact .halt genuine
  | ask stops stops' _ ih =>
    refine .ask ?_ ?_ ih
    · rw [stops]; rfl
    · rw [stops']; rfl
  | refer mem _ ih => exact .refer mem ih

/-- A validation, followed by something that stops when it is unfinished. -/
lemma outcome {node : Node} {input : Option Json} {f : Outcome → Walk U γ}
    {f' : Outcome → Walk U δ} (stops : f .unfinished = .halt .unfinished)
    (stops' : f' .unfinished = .halt .unfinished)
    (next : ∀ outcome, outcome ≠ .unfinished → Alike asked rename h (f outcome) (f' outcome)) :
    Alike asked rename h (Walk.outcome node input >>= f) (Walk.outcome node input >>= f') :=
  .ask stops stops' next

lemma view {target : String} {direction : Direction} (mem : asked target) :
    Alike asked rename rename (Walk.view target direction) (Walk.view target direction) :=
  .refer mem fun view => .done view

lemma unsupported {node : Node} {direction : Direction} :
    Alike asked rename g (Walk.unsupported node direction) (Walk.unsupported node direction) :=
  .halt ⟨_, _, rfl⟩

lemma accepts {node : Node} {input : Option Json} :
    Alike asked rename id (Walk.accepts (U := U) node input) (Walk.accepts node input) := by
  refine .outcome rfl rfl ?_
  intro outcome finished
  match outcome with
  | .ok _ => exact .done true
  | .error (.invalid _) => exact .done false
  | .error (.interrupted .crash) => exact .halt rfl
  | .error (.interrupted .unfinished) => exact absurd rfl finished

lemma fieldOptional {node : Node} {direction : Direction} :
    Alike asked rename id (Walk.fieldOptional (U := U) direction node)
      (Walk.fieldOptional direction node) := by
  rw [Walk.fieldOptional]
  split
  · exact .done _
  · exact .accepts

lemma probe {node : Node} {sample : Json} :
    Alike asked rename id (Walk.probe (U := U) node sample) (Walk.probe node sample) := by
  refine .outcome rfl rfl ?_
  intro outcome finished
  match outcome with
  | .ok none => exact .done _
  | .ok (some .null) => exact .done _
  | .ok (some (.bool _)) => exact .done _
  | .ok (some (.number _)) => exact .done _
  | .ok (some (.string _)) => exact .done _
  | .ok (some (.array _)) => exact .done _
  | .ok (some (.object _)) => exact .done _
  | .error (.invalid _) => exact .done _
  | .error (.interrupted .crash) => exact .done _
  | .error (.interrupted .unfinished) => exact absurd rfl finished

end Alike

end Walk

/-- What the views have in common: nothing is made of a schema that nothing is known about, and with
other names for the aliases the walk over a node asks the same and has the renamed result. Texts
that are no names of aliases may stand in a view as well, so they have to be kept. -/
structure Depicter.Uniform {U : Type} (depicter : Depicter U) (rename : (String → String) → U → U) :
    Prop where
  unknown : ∀ name direction, ∃ cause, depicter.walk (.of (.custom name)) direction = .halt cause
  refer : ∀ f name, rename f (depicter.refer name) = depicter.refer (f name)
  alike : ∀ f, Function.Injective f →
    (∀ s, (∀ i, s ≠ AliasTable.numberedName depicter.stem i) → f s = s) → ∀ node direction,
    Walk.Alike node.Refers (rename f) (rename f) (depicter.walk node direction)
      (depicter.walk node direction)

namespace Depicter.Uniform

variable {U : Type} {depicter : Depicter U} {rename : (String → String) → U → U}

lemma self (uniform : depicter.Uniform rename) (node : Node) (direction : Direction) :
    Walk.Alike node.Refers (rename id) (rename id) (depicter.walk node direction)
      (depicter.walk node direction) :=
  uniform.alike id Function.injective_id (fun _ _ => rfl) node direction

lemma asks (uniform : depicter.Uniform rename) (node : Node) (direction : Direction) :
    (depicter.walk node direction).Asks node.Refers :=
  (uniform.self node direction).asks

end Depicter.Uniform

end EventContracts
