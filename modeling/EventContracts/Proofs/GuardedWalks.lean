import EventContracts.Proofs.MetKinds

/-! Where a crash can stop a walk. A walk tries transforms on samples, and a crash is caught there;
it also asks on the way whether schemas accept certain values, and a crash is not caught then. So a
depiction ends with a crash only where a validation of the second sort crashes, at a node that is
reached through the parts of layers and with references followed; and when a depiction succeeds, no
such validation crashes at any node that is reached. -/

namespace EventContracts

namespace Walk

variable {U α β : Type}

/-- A walk that a crash stops at certain validations only, that asks for certain views only, and
whose result is of a certain form when all views that it asks for are references. -/
inductive Guarded (refer : String → U) (exposed : Node → Option Json → Prop)
    (asked : String → Direction → Prop) (form : α → Prop) : Walk U α → Prop where
  | done {a : α} (is : form a) : Guarded refer exposed asked form (.done a)
  | halt {cause : Halt} (other : cause ≠ .interrupted .crash) :
      Guarded refer exposed asked form (.halt cause)
  | stops {node : Node} {input : Option Json} {next : Outcome → Walk U α}
      (mem : exposed node input) (rest : ∀ outcome, outcome ≠ .error (.interrupted .crash) →
        Guarded refer exposed asked form (next outcome)) :
      Guarded refer exposed asked form (.ask node input next)
  | caught {node : Node} {input : Option Json} {next : Outcome → Walk U α}
      (rest : ∀ outcome, Guarded refer exposed asked form (next outcome)) :
      Guarded refer exposed asked form (.ask node input next)
  | refer {target : String} {direction : Direction} {next : U → Walk U α}
      (mem : asked target direction)
      (rest : ∀ name, Guarded refer exposed asked form (next (refer name))) :
      Guarded refer exposed asked form (.refer target direction next)

namespace Guarded

variable {refer : String → U} {exposed : Node → Option Json → Prop}
  {asked : String → Direction → Prop} {form : α → Prop} {other : β → Prop} {w : Walk U α}

lemma pure {a : α} (is : form a) : Guarded refer exposed asked form (Pure.pure a : Walk U α) :=
  .done is

/-- What is done after a walk is guarded with it. -/
lemma bind {f : α → Walk U β} (guarded : Guarded refer exposed asked form w)
    (next : ∀ a, form a → Guarded refer exposed asked other (f a)) :
    Guarded refer exposed asked other (w >>= f) := by
  induction guarded with
  | done is => exact next _ is
  | halt other => exact .halt other
  | stops mem _ ih => exact .stops mem ih
  | caught _ ih => exact .caught ih
  | refer mem _ ih => exact .refer mem ih

lemma unsupported {node : Node} {direction : Direction} :
    Guarded refer exposed asked form (Walk.unsupported (U := U) node direction) := by
  refine .halt ?_
  intro same
  cases same

lemma accepts {node : Node} {input : Option Json} (mem : exposed node input) :
    Guarded refer exposed asked (fun _ => True) (Walk.accepts (U := U) node input) := by
  refine .stops mem ?_
  intro outcome answered
  match outcome with
  | .ok _ => exact .done trivial
  | .error (.invalid _) => exact .done trivial
  | .error (.interrupted .crash) => exact absurd rfl answered
  | .error (.interrupted .unfinished) => exact .halt nofun

lemma fieldOptional {node : Node} {direction : Direction}
    (mem : (direction.isOutput && node.coerces) = false → exposed node none) :
    Guarded refer exposed asked (fun _ => True) (Walk.fieldOptional (U := U) direction node) := by
  rw [Walk.fieldOptional]
  split
  · exact .done trivial
  · rename_i asks
    exact .accepts (mem (Bool.eq_false_iff.mpr asks))

/-- Trying a transform on a sample catches a crash. -/
lemma probe {node : Node} {sample : Json} :
    Guarded refer exposed asked (fun _ => True) (Walk.probe (U := U) node sample) := by
  refine .caught ?_
  intro outcome
  match outcome with
  | .ok (some (.number _)) | .ok (some (.string _)) | .ok (some (.bool _)) => exact .done trivial
  | .ok none | .ok (some .null) | .ok (some (.array _)) | .ok (some (.object _)) =>
    exact .done trivial
  | .error (.invalid _) => exact .done trivial
  | .error (.interrupted .crash) => exact .done trivial
  | .error (.interrupted .unfinished) => exact .halt nofun

end Guarded

end Walk

/-- Whether a node is reached in a direction, through the parts of layers and with references
followed. -/
inductive Reaches (definitions : Definitions)
    (parts : Direction → Kind Node → List (Node × Direction)) (root : Node)
    (direction : Direction) : Node → Direction → Prop where
  | here : Reaches definitions parts root direction root direction
  | part {kind notes flow part} (mem : part ∈ parts flow kind)
      (reached : Reaches definitions parts root direction (.mk kind notes) flow) :
      Reaches definitions parts root direction part.1 part.2
  | follow {key target notes flow}
      (reached : Reaches definitions parts root direction
        (.mk (.reference key target) notes) flow) :
      Reaches definitions parts root direction (definitions.resolve target) flow

/-- Whether one of the validations crashes that are asked for at reached nodes. -/
def Library.Crashes (library : Library) (parts : Direction → Kind Node → List (Node × Direction))
    (checks : Direction → Node → List (Node × Option Json)) (root : Node) (direction : Direction) :
    Prop :=
  ∃ node flow, Reaches library.definitions parts root direction node flow ∧
    ∃ check ∈ checks flow node,
      library.validate check.1 check.2 = .error (.interrupted .crash)

namespace Depicter

variable {U : Type} {depicter : Depicter U} {setting : Setting} {table later : AliasTable U}
  {exposed : Node → Option Json → Prop} {asked : String → Direction → Prop}
  {form : Direction → Node → U → Prop} {node : Node} {direction : Direction}

/-- A run of a guarded walk ends with a crash only where a validation crashes, when the bodies of
references are guarded too. -/
lemma Runs.crashed {w : Walk U U} {visits : List Visit} {result : Except Halt U} {is : U → Prop}
    (h : depicter.Runs setting table w visits result later)
    (guarded : w.Guarded depicter.refer exposed asked is)
    (bodies : ∀ target direction, asked target direction →
      (depicter.walk (setting.resolve target) direction).Guarded depicter.refer exposed asked
        (form direction (setting.resolve target)))
    (crash : result = .error (.interrupted .crash)) :
    ∃ node input, exposed node input ∧
      setting.library.validate node input = .error (.interrupted .crash) := by
  induction h generalizing is with
  | done => cases crash
  | halt =>
    cases guarded with
    | halt other => exact absurd (Except.error.inj crash) other
  | @ask _ node input _ _ _ _ _ ih =>
    cases guarded with
    | stops mem rest =>
      by_cases crashed : setting.library.validate node input = .error (.interrupted .crash)
      · exact ⟨node, input, mem, crashed⟩
      · exact ih (rest _ crashed) crash
    | caught rest => exact ih (rest _) crash
  | known _ _ ih =>
    cases guarded with
    | refer _ rest => exact ih (rest _) crash
  | produced _ _ _ _ ih =>
    cases guarded with
    | refer _ rest => exact ih (rest _) crash
  | failed _ _ ih =>
    cases guarded with
    | refer mem _ => exact ih (bodies _ _ mem) crash

variable {parts : Direction → Kind Node → List (Node × Direction)} {bad : Kind Node → Bool}
  {checks : Direction → Node → List (Node × Option Json)}

/-- What walks over nodes do about crashes: they are stopped by the validations that they ask for at
a node, besides those that stop the walks over its parts, and when they succeed, none of the former
has crashed. -/
structure Guards (depicter : Depicter U)
    (parts : Direction → Kind Node → List (Node × Direction))
    (checks : Direction → Node → List (Node × Option Json))
    (form : Direction → Node → U → Prop) : Prop where
  guarded : ∀ {exposed : Node → Option Json → Prop} {asked : String → Direction → Prop}
    {kind : Kind Node} {notes : Notes} {direction : Direction},
    (∀ check ∈ checks direction (.mk kind notes), exposed check.1 check.2) →
    (∀ key target, kind = .reference key target → asked target direction) →
    (∀ part ∈ parts direction kind, (depicter.walk part.1 part.2).Guarded depicter.refer exposed
      asked (form part.2 part.1)) →
    (depicter.walk (.mk kind notes) direction).Guarded depicter.refer exposed asked
      (form direction (.mk kind notes))
  answered : ∀ {setting : Setting} {table : AliasTable U} {direction : Direction} {node : Node}
    {view : U}, depicter.replay setting table (depicter.walk node direction) = .ok view →
    ∀ check ∈ checks direction node,
      setting.library.validate check.1 check.2 ≠ .error (.interrupted .crash)

/-- The walk over a node is stopped by what is asked for at the nodes that are reached from it. The
recursion goes from a layer to its parts, which are smaller. -/
lemma guarded_walk (guards : depicter.Guards parts checks form)
    (composes : depicter.Composes parts bad) {seen : Node → Direction → Prop}
    (steps : ∀ kind notes flow, seen (.mk kind notes) flow →
      ∀ part ∈ parts flow kind, seen part.1 part.2)
    (follows : ∀ key target notes flow, seen (.mk (.reference key target) notes) flow →
      seen (setting.resolve target) flow)
    (node : Node) (direction : Direction) (here : seen node direction) :
    (depicter.walk node direction).Guarded depicter.refer
      (fun other input => ∃ node flow, seen node flow ∧ (other, input) ∈ checks flow node)
      (fun target flow => seen (setting.resolve target) flow) (form direction node) := by
  match node with
  | .mk kind notes =>
    refine guards.guarded ?_ ?_ ?_
    · exact fun check mem => ⟨_, _, here, mem⟩
    · rintro key target rfl
      exact follows key target notes direction here
    · intro part mem
      have smaller := (composes.near _ _ _ mem).sizeOf_lt notes
      exact guarded_walk guards composes steps follows part.1 part.2
        (steps kind notes direction here part mem)
termination_by sizeOf node
decreasing_by simpa using smaller

/-- A depiction that ends with a crash has reached a node where a validation crashes. -/
lemma Guards.crashes (guards : depicter.Guards parts checks form)
    (composes : depicter.Composes parts bad)
    (unknown : ∀ name direction, ∃ cause,
      depicter.walk (.of (.custom name)) direction = .halt cause)
    (crash : depicter.depict setting node direction table =
      (.error (.interrupted .crash), later)) :
    setting.library.Crashes parts checks node direction := by
  obtain ⟨visits, run⟩ := runs_depict setting unknown table node direction
  rw [crash] at run
  have guarded (other : Node) (flow : Direction)
      (reached : Reaches setting.library.definitions parts node direction other flow) :=
    guarded_walk guards composes (fun kind notes flow reached part mem => .part mem reached)
      (fun key target notes flow reached => .follow reached) other flow reached
  obtain ⟨other, input, ⟨reached, flow, way, mem⟩, crashed⟩ :=
    run.crashed (guarded node direction .here)
      (fun target flow reached => guarded (setting.resolve target) flow reached) rfl
  exact ⟨reached, flow, way, (other, input), mem, crashed⟩

/-- What a steady table replays for a node is replayed for every node that is reached. -/
lemma Steady.reached {names : String → Prop} (steady : depicter.Steady setting names table)
    (distinguishes : setting.Distinguishes names) (closed : setting.Closed names)
    (composes : depicter.Composes parts bad)
    (inScope : ∀ target, node.Refers target → names target) {view : U}
    (replayed : depicter.replay setting table (depicter.walk node direction) = .ok view)
    {other : Node} {flow : Direction}
    (reached : Reaches setting.library.definitions parts node direction other flow) :
    (∀ target, other.Refers target → names target) ∧
      ∃ view, depicter.replay setting table (depicter.walk other flow) = .ok view := by
  have known {kind : Kind Node} {notes : Notes} {flow : Direction} {view : U}
      (done : depicter.replay setting table (depicter.walk (.mk kind notes) flow) = .ok view) :
      bad kind = false := by
    cases is : bad kind with
    | true =>
      obtain ⟨cause, halts⟩ := composes.halts kind notes flow is
      rw [halts] at done
      cases done
    | false => rfl
  induction reached with
  | here => exact ⟨inScope, view, replayed⟩
  | @part kind notes flow part mem _ ih =>
    obtain ⟨scope, view, done⟩ := ih
    refine ⟨fun target refers => scope target ((composes.near _ _ _ mem).refers refers), ?_⟩
    exact replay_part (composes.composed kind notes flow (known done)) done
      (walk_mem_steps composes mem)
  | @follow key target notes flow _ ih =>
    obtain ⟨scope, view, done⟩ := ih
    -- the body was walked for this reference, or for an earlier one that stands for the same
    obtain ⟨inner, asked⟩ := replay_part (composes.composed _ notes flow (known done)) done
      (List.mem_singleton.mpr rfl)
    obtain ⟨name, found, -⟩ := replay_refer_ok asked
    obtain ⟨entry, here, -⟩ := AliasTable.get?_of_nameOf? found
    have mem := scope target .here
    exact ⟨closed target mem, _, steady.replays distinguishes mem here⟩

/-- A depiction that succeeds has reached no node where a validation crashes. -/
lemma Guards.not_crashes {rename : (String → String) → U → U} {names : String → Prop}
    (guards : depicter.Guards parts checks form) (composes : depicter.Composes parts bad)
    (uniform : depicter.Uniform rename) (steady : depicter.Steady setting names table)
    (distinguishes : setting.Distinguishes names) (closed : setting.Closed names)
    (inScope : ∀ target, node.Refers target → names target) {view : U}
    (ok : depicter.depict setting node direction table = (.ok view, later)) :
    ¬ setting.library.Crashes parts checks node direction := by
  rintro ⟨other, flow, reached, check, mem, crashed⟩
  obtain ⟨-, steady', replayed⟩ := steady.depict uniform closed inScope ok
  obtain ⟨-, view', done⟩ := steady'.reached distinguishes closed composes inScope
    (replayed later (.refl later)) reached
  exact guards.answered done check mem crashed

end Depicter

end EventContracts
