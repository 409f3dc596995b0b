import EventContracts.Document.Depiction
import EventContracts.Event
import EventContracts.Proofs.ComposedWalks
import EventContracts.TypeScript.Depiction

/-! What the two views walk. The typed view goes into every part of a layer, with arguments for the
items of a function and one side of a pipeline. The documented view leaves out the keys of records,
and the values of records whose keys are listed and none. A layer of a kind without view stops the
walk; every other one is put together of the walks over its parts. -/

namespace EventContracts

/-- The parts of the arguments of a function, each with the direction in which it is reached: the
items of a tuple, or what else the arguments are. -/
def Node.argumentParts (direction : Direction) (args : Node) : List (Node × Direction) :=
  match args.tupleParts? with
  | some (items, rest) =>
    items.map (fun item => (item, TypeScript.paramDirection direction item)) ++
      rest.toList.map (·, direction)
  | none => [(args, TypeScript.paramDirection direction args)]

namespace Kind

/-- Whether nothing is known about a kind. -/
def isCustom {α : Type} : Kind α → Bool
  | custom _ => true
  | _ => false

/-- Whether a kind has no documented view. -/
def isUndocumented {α : Type} : Kind α → Bool
  | custom _ => true
  | void => true
  | function .. => true
  | _ => false

/-- The parts of a layer in a direction, each with the direction in which it is reached. -/
def parts (direction : Direction) : Kind Node → List (Node × Direction)
  | pipeline input output => [(if direction.isOutput then output else input, direction)]
  | function args returns => args.argumentParts direction ++ [(returns, direction)]
  | kind => kind.children.map (·, direction)

/-- The parts of a layer that are documented. -/
def documentedParts (direction : Direction) : Kind Node → List (Node × Direction)
  | record key value => if key.listedKeys? = some [] then [] else [(value, direction)]
  | kind => kind.parts direction

/-- Whether a node is a child of a layer, or a child of one. -/
def Near (kind : Kind Node) (node : Node) : Prop :=
  node ∈ kind.children ∨ ∃ middle ∈ kind.children, node ∈ middle.kind.children

lemma near_of_mem_parts {direction : Direction} {kind : Kind Node} {part : Node × Direction}
    (mem : part ∈ kind.parts direction) : kind.Near part.1 := by
  cases kind with
  | pipeline input output =>
    obtain rfl := List.mem_singleton.mp mem
    cases direction <;> simp [Near, children, Direction.isOutput]
  | function args returns =>
    obtain ⟨argsKind, argsNotes⟩ := args
    rcases List.mem_append.mp mem with mem | mem
    · cases argsKind with
      | tuple items rest =>
        refine .inr ⟨.mk (.tuple items rest) argsNotes, by simp [children], ?_⟩
        simp only [Node.argumentParts, Node.tupleParts?, Node.kind, List.mem_append, List.mem_map]
          at mem
        rcases mem with ⟨item, inside, rfl⟩ | ⟨further, inside, rfl⟩
        · simp [Node.kind, children, inside]
        · simpa [Node.kind, children] using Or.inr (Option.mem_toList.mp inside)
      | _ =>
        obtain rfl := List.mem_singleton.mp mem
        exact .inl (by simp [children])
    · obtain rfl := List.mem_singleton.mp mem
      exact .inl (by simp [children])
  | _ =>
    obtain ⟨child, inside, rfl⟩ := List.mem_map.mp mem
    exact .inl inside

lemma documentedParts_subset (direction : Direction) (kind : Kind Node) :
    kind.documentedParts direction ⊆ kind.parts direction := by
  cases kind with
  | record key value =>
    simp only [documentedParts, parts, children, List.map_cons, List.map_nil]
    split <;> simp
  | _ => exact List.Subset.refl _

end Kind

namespace Depicter

variable {U : Type}

/-- The walks that the walk over a layer takes: one for the view of a reference, or those over its
parts. -/
def steps (depicter : Depicter U) (parts : Direction → Kind Node → List (Node × Direction))
    (direction : Direction) : Kind Node → List (Walk U U)
  | .reference _ target => [Walk.view target direction]
  | kind => (parts direction kind).map fun part => depicter.walk part.1 part.2

/-- What walks over nodes do: they stop at certain kinds, and they are put together of the walks
over the parts of all others, which are not far away. Only a node and its children are validated. -/
structure Composes (depicter : Depicter U)
    (parts : Direction → Kind Node → List (Node × Direction)) (bad : Kind Node → Bool) : Prop where
  near : ∀ direction kind part, part ∈ parts direction kind → kind.Near part.1
  halts : ∀ kind notes direction, bad kind →
    ∃ cause, depicter.walk (.mk kind notes) direction = .halt cause
  composed : ∀ kind notes direction, bad kind = false →
    Walk.Composed (fun node => node = .mk kind notes ∨ node ∈ kind.children)
      (depicter.steps parts direction kind) (depicter.walk (.mk kind notes) direction)

end Depicter

namespace Document

variable {seen : Node → Prop}

lemma composed_validExamples {node : Node} (mem : seen node) (direction : Direction)
    (samples : List Json) : Walk.Composed seen [] (validExamples node direction samples) := by
  induction samples with
  | nil => exact .done _
  | cons sample samples ih =>
    have first : Walk.Composed (U := SchemaObject) seen [] (do
        Walk.check (shown direction sample (← Walk.outcome node (some sample)))) := by
      refine .ask mem ?_
      intro outcome goes
      match outcome with
      | .ok _ => exact .done _
      | .error (.invalid _) => exact .done _
      | .error (.interrupted cause) => exact absurd ⟨cause, rfl, rfl⟩ goes
    have all := first.bind fun shown => ih.bind fun more => .pure (shown ++ more)
    rw [Walk.bind_assoc] at all
    exact all

lemma composed_annotate {node : Node} (mem : seen node) (direction : Direction) (s : SchemaObject) :
    Walk.Composed seen [] (annotate node direction s) := by
  have laid : Walk.Composed seen [] (do
      let nullable ← nullable node direction
      let examples ← validExamples node direction node.notes.examples
      return s.overlay {
        description := node.notes.description
        typeNames := if nullable then s.typeNames.map TypeNames.withNull else none
        examples := if examples.isEmpty then none else some examples } : Path SchemaObject) := by
    have nullable : Walk.Composed seen [] (nullable node direction) := by
      rw [Document.nullable]
      split
      · exact .done _
      · exact .accepts mem
    exact nullable.bind fun _ => (composed_validExamples mem direction _).bind fun _ => .pure _
  rw [annotate]
  split
  · exact .done _
  · exact laid

lemma composed_transformed {node : Node} (mem : seen node) (input : SchemaObject) :
    Walk.Composed seen [] (transformed node input) := by
  rw [transformed]
  split
  · exact .done _
  · exact (Walk.Composed.probe mem).bind fun _ => .pure _

lemma composed_walkItems (direction : Direction) (nodes : List Node) :
    Walk.Composed seen (nodes.map fun node => walk direction node)
      (walkItems direction nodes) := by
  induction nodes with
  | nil => exact .done _
  | cons node nodes ih =>
    exact (Walk.Composed.last _).bind fun first => ih.andThen fun more => .pure (first :: more)

lemma composed_walkShape (direction : Direction) (shape : List (String × Node))
    (mem : ∀ field ∈ shape, seen field.2) :
    Walk.Composed seen (shape.map fun field => walk direction field.2)
      (walkShape direction shape) := by
  induction shape with
  | nil => exact .done _
  | cons field shape ih =>
    refine (Walk.Composed.last _).bind fun s => ?_
    refine (Walk.Composed.fieldOptional (mem field List.mem_cons_self)).bind fun optional => ?_
    exact (ih fun other inside => mem other (List.mem_cons_of_mem _ inside)).andThen
      fun more => .pure _

/-- The documented view goes into the documented parts and stops at kinds without view. -/
lemma composes : depicter.Composes Kind.documentedParts Kind.isUndocumented where
  near _ kind _ mem := Kind.near_of_mem_parts (kind.documentedParts_subset _ mem)
  halts kind notes direction bad := by
    cases kind with
    | void | function _ _ | custom _ => exact ⟨_, rfl⟩
    | _ => cases bad
  composed kind notes direction documented := by
    change Walk.Composed _ _ (walk direction (.mk kind notes))
    unfold walk
    refine .andThen ?_ (composed_annotate (.inl rfl) direction)
    cases kind with
    | void | function _ _ | custom _ => cases documented
    | string _ | number _ | bigint _ | boolean _ | date _ | null | any | unknown | literal _
    | choice _ => exact .done _
    | array item _ _ => exact (Walk.Composed.last _).andThen fun item => .pure _
    | tuple items rest =>
      have parts : depicter.steps Kind.documentedParts direction (.tuple items rest) =
          items.map (fun node => walk direction node) ++
            rest.toList.map fun node => walk direction node := by
        simp [Depicter.steps, Kind.documentedParts, Kind.parts, Kind.children, depicter,
          Function.comp_def]
      rw [parts]
      refine (composed_walkItems direction items).bind fun items => ?_
      cases rest with
      | none => exact .done _
      | some rest => exact (Walk.Composed.last _).andThen fun further => .pure _
    | object shape =>
      have parts : depicter.steps Kind.documentedParts direction (.object shape) =
          shape.map fun field => walk direction field.2 := by
        simp [Depicter.steps, Kind.documentedParts, Kind.parts, Kind.children, depicter]
      rw [parts]
      refine (composed_walkShape direction shape ?_).andThen fun found => .pure _
      exact fun field mem => .inr (List.mem_map_of_mem mem)
    | record key value =>
      simp only [Depicter.steps, Kind.documentedParts]
      cases listed : key.listedKeys? with
      | none => exact (Walk.Composed.last _).andThen fun value => .pure _
      | some keys =>
        cases keys with
        | nil => exact .done _
        | cons first keys => exact (Walk.Composed.last _).andThen fun value => .pure _
    | union options | taggedUnion _ options =>
      simp only [Depicter.steps, Kind.documentedParts, Kind.parts, Kind.children, List.map_map]
      exact (composed_walkItems direction options).andThen fun options => .pure _
    | intersection left right =>
      exact (Walk.Composed.last _).bind fun left =>
        (Walk.Composed.last _).andThen fun right => .pure _
    | optional inner | readonly inner | branded inner _ | fallback inner _ => exact .last _
    | nullable inner | default inner _ => exact (Walk.Composed.last _).andThen fun inner => .pure _
    | effect inner effect =>
      refine (Walk.Composed.last _).andThen fun input => ?_
      cases effect with
      | refine _ => exact .done _
      | transform _ =>
        cases direction with
        | input => exact .done _
        | output =>
          dsimp only
          split
          · exact .done _
          · exact composed_transformed (.inl rfl) input
    | preprocess inner _ => exact (Walk.Composed.last _).andThen fun input => .pure _
    | pipeline input output =>
      cases direction with
      | input => exact .last _
      | output => exact .last _
    | reference key target => exact .view

end Document

namespace TypeScript

variable {seen : Node → Prop} {style : OptionalStyle}

lemma composed_transformed {node : Node} (mem : seen node) (input : TypeExpr) :
    Walk.Composed seen [] (transformed node input) := by
  rw [transformed]
  split
  · exact .done _
  · exact (Walk.Composed.probe mem).bind fun _ => .pure _

lemma composed_walkItems (nodes : List Node) (direction : Direction) :
    Walk.Composed seen (nodes.map fun node => walk style node direction)
      (walkItems style nodes direction) := by
  induction nodes with
  | nil => exact .done _
  | cons node nodes ih =>
    exact (Walk.Composed.last _).bind fun first => ih.andThen fun more => .pure (first :: more)

lemma composed_walkMembers (shape : List (String × Node)) (direction : Direction)
    (mem : ∀ field ∈ shape, seen field.2) :
    Walk.Composed seen (shape.map fun field => walk style field.2 direction)
      (walkMembers style shape direction) := by
  induction shape with
  | nil => exact .done _
  | cons field shape ih =>
    refine (Walk.Composed.fieldOptional (mem field List.mem_cons_self)).bind fun optional => ?_
    refine (Walk.Composed.last _).bind fun type => ?_
    exact (ih fun other inside => mem other (List.mem_cons_of_mem _ inside)).andThen
      fun more => .pure _

lemma composed_walkParams (nodes : List Node) (position : Nat) (direction : Direction) :
    Walk.Composed seen
      (nodes.map fun node => walk style node (paramDirection direction node))
      (walkParams style nodes position direction) := by
  induction nodes generalizing position with
  | nil => exact .done _
  | cons node nodes ih =>
    exact (Walk.Composed.last _).bind fun first => (ih _).andThen fun more => .pure _

/-- The typed view goes into all parts and stops at what nothing is known about. -/
lemma composes (style : OptionalStyle) : (depicter style).Composes Kind.parts Kind.isCustom where
  near _ _ _ mem := Kind.near_of_mem_parts mem
  halts kind notes direction bad := by
    cases kind with
    | custom _ => exact ⟨_, rfl⟩
    | _ => cases bad
  composed kind notes direction known := by
    change Walk.Composed _ _ (walk style (.mk kind notes) direction)
    unfold walk
    refine .andThen ?_ fun t => .pure (annotate notes t)
    cases kind with
    | custom _ => cases known
    | string _ | number _ | bigint _ | boolean _ | date _ | null | any | unknown | void | literal _
    | choice _ => exact .done _
    | array item _ _ => exact (Walk.Composed.last _).andThen fun item => .pure _
    | tuple items rest =>
      have parts : (depicter style).steps Kind.parts direction (.tuple items rest) =
          items.map (fun node => walk style node direction) ++
            rest.toList.map fun node => walk style node direction := by
        simp [Depicter.steps, Kind.parts, Kind.children, depicter, Function.comp_def]
      rw [parts]
      refine (composed_walkItems items direction).bind fun items => ?_
      cases rest with
      | none => exact .done _
      | some rest => exact (Walk.Composed.last _).andThen fun further => .pure _
    | object shape =>
      have parts : (depicter style).steps Kind.parts direction (.object shape) =
          shape.map fun field => walk style field.2 direction := by
        simp [Depicter.steps, Kind.parts, Kind.children, depicter]
      rw [parts]
      refine (composed_walkMembers shape direction ?_).andThen fun members => .pure _
      exact fun field mem => .inr (List.mem_map_of_mem mem)
    | union options | taggedUnion _ options =>
      simp only [Depicter.steps, Kind.parts, Kind.children, List.map_map]
      exact (composed_walkItems options direction).andThen fun options => .pure _
    | record key value =>
      exact (Walk.Composed.last _).bind fun key =>
        (Walk.Composed.last _).andThen fun value => .pure _
    | intersection left right =>
      exact (Walk.Composed.last _).bind fun left =>
        (Walk.Composed.last _).andThen fun right => .pure _
    | default inner _ | fallback inner _ | branded inner _ | readonly inner | preprocess inner _ =>
      exact .last _
    | optional inner | nullable inner =>
      exact (Walk.Composed.last _).andThen fun inner => .pure _
    | effect inner effect =>
      refine (Walk.Composed.last _).andThen fun input => ?_
      cases effect with
      | refine _ => exact .done _
      | transform _ =>
        cases direction with
        | input => exact .done _
        | output => exact composed_transformed (.inl rfl) input
    | pipeline input output =>
      cases direction with
      | input => exact .last _
      | output => exact .last _
    | reference key target => exact .view
    | function args returns =>
      simp only [Depicter.steps, Kind.parts, List.map_append]
      have finish (seen : Node → Prop) (params : List (Param TypeExpr)) :
          Walk.Composed seen [walk style returns direction] (do
            let returns ← walk style returns direction
            pure (TypeExpr.function params returns)) :=
        (Walk.Composed.last _).andThen fun returns => .pure _
      obtain ⟨argsKind, argsNotes⟩ := args
      cases argsKind with
      | tuple items rest =>
        have params : (items.map (fun item => (item, paramDirection direction item))).map
            (fun part => (depicter style).walk part.1 part.2) =
              items.map fun item => walk style item (paramDirection direction item) := by
          simp [depicter]
        simp only [Node.argumentParts, Node.tupleParts?, Node.kind, List.map_append, params,
          List.append_assoc]
        refine (composed_walkParams items 0 direction).bind fun params => ?_
        cases rest with
        | none => exact finish _ (params ++ [])
        | some rest => exact (Walk.Composed.last _).bind fun t => finish _ _
      | _ => exact (Walk.Composed.last _).bind fun t => finish _ _

end TypeScript

end EventContracts
