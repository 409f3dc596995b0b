import EventContracts.Proofs.AlikeWalks
import EventContracts.Proofs.TypeRenaming

/-! The typed view does not depend on the names of its aliases: with other names for the aliases,
the walk over a node asks the same and has the renamed result. `Date` is no alias and keeps its
name. -/

namespace EventContracts.TypeScript

variable {f : String → String} {asked : String → Prop} {style : OptionalStyle}

/-- A walk whose result is renamed with the aliases. -/
abbrev Renames (asked : String → Prop) (f : String → String) (w : Path TypeExpr) : Prop :=
  Walk.Alike asked (TypeExpr.rename f) (TypeExpr.rename f) w w

lemma annotate_rename (notes : Notes) (t : TypeExpr) :
    annotate notes (t.rename f) = (annotate notes t).rename f := by
  simp only [annotate]
  split
  · exact TypeExpr.withComment_rename _ t
  · rfl

lemma sampleType?_rename (inj : Function.Injective f) (date : f "Date" = "Date") (t : TypeExpr) :
    (t.rename f).sampleType? = t.sampleType? := by
  simp only [TypeExpr.sampleType?]
  rw [TypeExpr.bare_rename]
  cases t.bare with
  | reference name =>
    have same : f name = "Date" ↔ name = "Date" := by
      rw [← date, inj.eq_iff, date]
    simp [TypeExpr.rename, same]
  | keyword word => cases word <;> rfl
  | tuple items rest => simp
  | _ => rfl

lemma alike_transformed (inj : Function.Injective f) (date : f "Date" = "Date") (node : Node)
    (input : TypeExpr) :
    Walk.Alike asked (TypeExpr.rename f) (TypeExpr.rename f) (transformed node input)
      (transformed node (input.rename f)) := by
  simp only [transformed]
  rw [sampleType?_rename inj date]
  split
  · exact .pure rfl
  · refine .bind .probe fun result => .pure ?_
    rcases result with _ | primitive
    · rfl
    · cases primitive <;> rfl

lemma alike_walkItems (nodes : List Node)
    (ih : ∀ node ∈ nodes, ∀ direction, Renames asked f (walk style node direction))
    (direction : Direction) :
    Walk.Alike asked (TypeExpr.rename f) (List.map (TypeExpr.rename f))
      (walkItems style nodes direction) (walkItems style nodes direction) := by
  induction nodes with
  | nil => exact .pure rfl
  | cons node nodes rest =>
    refine .bind (ih node List.mem_cons_self direction) ?_
    intro first
    exact .bind (rest fun n mem => ih n (List.mem_cons_of_mem _ mem)) fun more => .pure rfl

lemma alike_walkMembers (shape : List (String × Node))
    (ih : ∀ node ∈ shape.map Prod.snd, ∀ direction, Renames asked f (walk style node direction))
    (direction : Direction) :
    Walk.Alike asked (TypeExpr.rename f) (TypeExpr.renameMembers f)
      (walkMembers style shape direction) (walkMembers style shape direction) := by
  induction shape with
  | nil => exact .pure rfl
  | cons field shape rest =>
    obtain ⟨key, node⟩ := field
    refine .bind .fieldOptional ?_
    intro optional
    refine .bind (ih node List.mem_cons_self direction) ?_
    intro type
    exact .bind (rest fun n mem => ih n (List.mem_cons_of_mem _ mem)) fun more => .pure rfl

lemma alike_walkParams (nodes : List Node)
    (ih : ∀ node ∈ nodes, ∀ direction, Renames asked f (walk style node direction))
    (position : Nat) (direction : Direction) :
    Walk.Alike asked (TypeExpr.rename f) (TypeExpr.renameParams f)
      (walkParams style nodes position direction) (walkParams style nodes position direction) := by
  induction nodes generalizing position with
  | nil => exact .pure rfl
  | cons node nodes rest =>
    refine .bind (ih node List.mem_cons_self _) ?_
    intro type
    exact .bind (rest (fun n mem => ih n (List.mem_cons_of_mem _ mem)) _) fun more => .pure rfl

/-- The walk over a layer, when the walks over its children and over theirs are alike. The items of
the arguments of a function are walked without the tuple that holds them. -/
lemma alike_layer (inj : Function.Injective f) (date : f "Date" = "Date") (kind : Kind Node)
    (notes : Notes) (direction : Direction)
    (self : ∀ key target, kind = .reference key target → asked target)
    (child : ∀ node ∈ kind.children, ∀ direction, Renames asked f (walk style node direction))
    (grandchild : ∀ node ∈ kind.children, ∀ inner ∈ node.kind.children, ∀ direction,
      Renames asked f (walk style inner direction)) :
    Renames asked f (walk style (.mk kind notes) direction) := by
  unfold Renames walk
  refine .bind ?_ fun t => .pure (annotate_rename notes t)
  cases kind with
  | string _ | number _ | bigint _ | boolean _ | null | any | unknown | void | literal _ =>
    exact .pure rfl
  | date _ => exact .pure (by rw [TypeExpr.rename, date])
  | choice values =>
    refine .pure ?_
    rw [← TypeExpr.unionOf_rename inj, List.map_map]
    rfl
  | array item _ _ => exact .bind (child item (by simp [Kind.children]) _) fun t => .pure rfl
  | tuple items rest =>
    refine .bind (alike_walkItems items (fun node mem => child node (by simp [Kind.children, mem]))
      direction) fun items => ?_
    cases rest with
    | none => exact .pure (by simp [TypeExpr.renameList_eq_map])
    | some rest =>
      refine .bind (child rest (by simp [Kind.children]) _) fun t => .pure ?_
      simp [TypeExpr.renameList_eq_map]
  | object shape => exact .bind (alike_walkMembers shape child direction) fun members => .pure rfl
  | record key value =>
    refine .bind (child key (by simp [Kind.children]) _) ?_
    intro key
    exact .bind (child value (by simp [Kind.children]) _) fun value => .pure rfl
  | union options | taggedUnion _ options =>
    exact .bind (alike_walkItems options child direction) fun types =>
      .pure (TypeExpr.unionOf_rename inj types)
  | intersection left right =>
    refine .bind (child left (by simp [Kind.children]) _) ?_
    intro left
    exact .bind (child right (by simp [Kind.children]) _) fun right => .pure rfl
  | optional inner =>
    refine .bind (child inner (by simp [Kind.children]) _) fun t => .pure ?_
    split
    · exact TypeExpr.unionOf_rename inj [t, .keyword .undefined]
    · rfl
  | nullable inner =>
    exact .bind (child inner (by simp [Kind.children]) _) fun t =>
      .pure (TypeExpr.unionOf_rename inj [t, .keyword .null])
  | default inner _ | fallback inner _ | branded inner _ | readonly inner | preprocess inner _ =>
    exact child inner (by simp [Kind.children]) _
  | effect inner effect =>
    refine .bind (child inner (by simp [Kind.children]) _) ?_
    intro t
    cases effect with
    | refine _ => exact .pure rfl
    | transform _ =>
      cases direction with
      | input => exact .pure rfl
      | output => exact alike_transformed inj date _ t
  | pipeline input output =>
    cases direction with
    | input => exact child input (by simp [Kind.children]) _
    | output => exact child output (by simp [Kind.children]) _
  | reference key target => exact .view (self key target rfl)
  | custom name => exact .unsupported
  | function args returns =>
    have finish : ∀ params params' : List (Param TypeExpr),
        params' = TypeExpr.renameParams f params →
        Walk.Alike asked (TypeExpr.rename f) (TypeExpr.rename f)
          (do
            let returns ← walk style returns direction
            pure (TypeExpr.function params returns))
          (do
            let returns ← walk style returns direction
            pure (TypeExpr.function params' returns)) :=
      fun params params' eq =>
        .bind (child returns (by simp [Kind.children]) _) fun t => .pure (by rw [eq]; rfl)
    obtain ⟨argsKind, argsNotes⟩ := args
    cases argsKind with
    | tuple items rest =>
      have inner := grandchild (.mk (.tuple items rest) argsNotes) (by simp [Kind.children])
      refine .bind (alike_walkParams items (fun node mem =>
        inner node (by simp [Node.kind, Kind.children, mem])) 0 direction) fun params => ?_
      cases rest with
      | none => exact finish (params ++ []) _ (TypeExpr.renameParams_append params []).symm
      | some rest =>
        refine .bind (inner rest (by simp [Node.kind, Kind.children]) _) ?_
        intro t
        exact finish (params ++ [⟨"rest", t, true⟩]) _
          (TypeExpr.renameParams_append params _).symm
    | _ =>
      refine .bind (child _ (by simp [Kind.children]) _) ?_
      intro t
      exact finish [⟨_, t, false⟩] _ rfl

/-- The walk over a node does the same under other names for the aliases. -/
theorem alike_walk (inj : Function.Injective f) (date : f "Date" = "Date") (node : Node)
    (direction : Direction) : Renames node.Refers f (walk style node direction) := by
  suffices h : (∀ direction, Renames node.Refers f (walk style node direction)) ∧
      ∀ child ∈ node.kind.children, ∀ direction,
        Renames child.Refers f (walk style child direction) from h.1 direction
  induction node using Node.induct with
  | step kind notes ih =>
    refine ⟨fun direction => ?_, fun child mem => (ih child mem).1⟩
    refine alike_layer inj date kind notes direction ?_ ?_ ?_
    · rintro key target rfl
      exact .here
    · exact fun child mem direction => ((ih child mem).1 direction).mono fun _ => .child mem
    · intro child mem inner mem' direction
      obtain ⟨childKind, childNotes⟩ := child
      exact ((ih _ mem).2 inner mem' direction).mono fun _ refers => .child mem (.child mem' refers)

lemma date_ne_numberedName (i : Nat) : "Date" ≠ AliasTable.numberedName "Type" i := by
  intro h
  have first := congrArg (fun s : String => s.toList.head?) h
  simp [AliasTable.numberedName] at first

lemma uniform (style : OptionalStyle) : (depicter style).Uniform TypeExpr.rename where
  unknown _ _ := ⟨_, rfl⟩
  refer _ _ := rfl
  alike _ inj kept := alike_walk inj (kept "Date" date_ne_numberedName)

end EventContracts.TypeScript
