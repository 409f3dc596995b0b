import EventContracts.Proofs.CycleBreaking
import EventContracts.Proofs.GuardedWalks
import EventContracts.Proofs.InheritedExamples
import EventContracts.Proofs.RequiredFields

/-! Which crashes of transforms escape a depiction. Trying a transform on a sample catches them. But
both views ask whether a field may be left out by validating an absent value, and the documented
view asks whether a node allows null and what its examples show; a transform that crashes there
ends the whole depiction. -/

namespace EventContracts

open Depicter

/-- The questions whether fields may be left out: what their schemas make of an absent value. A
coercing field is not asked for in output. -/
def Kind.absentChecks (direction : Direction) : Kind Node → List (Node × Option Json)
  | object shape => (shape.filter fun field => !(direction.isOutput && field.2.coerces)).map
      fun field => (field.2, none)
  | _ => []

lemma Kind.mem_absentChecks {direction : Direction} {shape : List (String × Node)}
    {field : String × Node} (mem : field ∈ shape)
    (visible : (direction.isOutput && field.2.coerces) = false) :
    (field.2, none) ∈ (object shape).absentChecks direction := by
  refine List.mem_map_of_mem (List.mem_filter.mpr ⟨mem, ?_⟩)
  rw [visible]
  rfl

/-- The questions about a node whose view is shown: whether it allows null, and what it makes of its
examples. -/
def Node.shownChecks (direction : Direction) (node : Node) : List (Node × Option Json) :=
  (if direction.isOutput && node.coerces then [] else [(node, some .null)]) ++
    node.notes.examples.map fun sample => (node, some sample)

/-- What the documented view asks for at a node. Nothing is laid over a reference. -/
def Document.checks (direction : Direction) (node : Node) : List (Node × Option Json) :=
  node.kind.absentChecks direction ++
    if node.leads direction then [] else node.shownChecks direction

/-- What the typed view asks for at a node. -/
def TypeScript.checks (direction : Direction) (node : Node) : List (Node × Option Json) :=
  node.kind.absentChecks direction

/-- A question that has been answered did not crash. -/
lemma Setting.fieldOptional_answered {setting : Setting} {direction : Direction} {node : Node}
    {optional : Bool} (asked : setting.fieldOptional direction node = .ok optional)
    (visible : (direction.isOutput && node.coerces) = false) :
    setting.library.validate node none ≠ .error (.interrupted .crash) := by
  intro crashed
  rw [Setting.fieldOptional, if_neg (by rw [visible]; exact Bool.false_ne_true), crashed] at asked
  cases asked

/-- The fields of an object have answered when each question whether one may be left out has. -/
lemma Kind.absentChecks_answered {setting : Setting} {direction : Direction}
    {shape : List (String × Node)}
    (asked : ∀ field ∈ shape, ∃ optional, setting.fieldOptional direction field.2 = .ok optional)
    {check : Node × Option Json} (mem : check ∈ (object shape).absentChecks direction) :
    setting.library.validate check.1 check.2 ≠ .error (.interrupted .crash) := by
  obtain ⟨field, kept, rfl⟩ := List.mem_map.mp mem
  obtain ⟨inside, visible⟩ := List.mem_filter.mp kept
  obtain ⟨optional, answer⟩ := asked field inside
  exact Setting.fieldOptional_answered answer (by rwa [Bool.not_eq_true'] at visible)

namespace Document

variable {exposed : Node → Option Json → Prop} {asked : String → Direction → Prop}
  {direction : Direction} {node : Node}

lemma guarded_nullable
    (mem : (direction.isOutput && node.coerces) = false → exposed node (some .null)) :
    (nullable node direction).Guarded depicter.refer exposed asked fun _ => True := by
  rw [nullable]
  split
  · exact .done trivial
  · rename_i asks
    exact .accepts (mem (Bool.eq_false_iff.mpr asks))

lemma guarded_validExamples {samples : List Json}
    (mem : ∀ sample ∈ samples, exposed node (some sample)) :
    (validExamples node direction samples).Guarded depicter.refer exposed asked
      fun _ => True := by
  induction samples with
  | nil => exact .done trivial
  | cons sample samples ih =>
    have first : Walk.Guarded depicter.refer exposed asked (fun _ => True) (do
        Walk.check (shown direction sample (← Walk.outcome node (some sample)))) := by
      refine .stops (mem sample List.mem_cons_self) ?_
      intro outcome answered
      match outcome with
      | .ok _ => exact .done trivial
      | .error (.invalid _) => exact .done trivial
      | .error (.interrupted .crash) => exact absurd rfl answered
      | .error (.interrupted .unfinished) => exact .halt nofun
    have rest := ih fun other inside => mem other (List.mem_cons_of_mem _ inside)
    rw [validExamples, ← Walk.bind_assoc]
    exact first.bind fun _ _ => rest.bind fun _ _ => .pure trivial

/-- What is laid over a view keeps it a reference or not. -/
lemma guarded_annotate {s : SchemaObject} (leads : s.isReference = node.leads direction)
    (mem : ∀ check ∈ checks direction node, exposed check.1 check.2) :
    (annotate node direction s).Guarded depicter.refer exposed asked
      fun s' => s'.isReference = node.leads direction := by
  rw [annotate]
  split
  · exact .done leads
  · rename_i single
    have shown : ∀ check ∈ node.shownChecks direction, exposed check.1 check.2 := by
      intro check inside
      refine mem check (List.mem_append_right _ ?_)
      rw [if_neg (by rwa [← leads])]
      exact inside
    have null : (direction.isOutput && node.coerces) = false → exposed node (some .null) := by
      intro visible
      refine shown (node, some .null) (List.mem_append_left _ ?_)
      rw [if_neg (by rw [visible]; exact Bool.false_ne_true)]
      exact List.mem_singleton_self _
    have examples : ∀ sample ∈ node.notes.examples, exposed node (some sample) :=
      fun sample inside => shown (node, some sample)
        (List.mem_append_right _ (List.mem_map_of_mem inside))
    exact (guarded_nullable null).bind fun _ _ =>
      (guarded_validExamples examples).bind fun _ _ => .pure leads

/-- A crash is caught when a transform is tried. -/
lemma guarded_transformed {input : SchemaObject} :
    (transformed node input).Guarded depicter.refer exposed asked
      fun s => s.isReference = false := by
  rw [transformed]
  split
  · exact .done rfl
  · refine Walk.Guarded.probe.bind fun result _ => .pure ?_
    cases result <;> rfl

lemma guarded_walkItems {nodes : List Node}
    (each : ∀ node ∈ nodes, (walk direction node).Guarded depicter.refer exposed asked
      fun s => s.isReference = node.leads direction) :
    (walkItems direction nodes).Guarded depicter.refer exposed asked fun _ => True := by
  induction nodes with
  | nil => exact .done trivial
  | cons node nodes ih =>
    exact (each node List.mem_cons_self).bind fun _ _ =>
      (ih fun other inside => each other (List.mem_cons_of_mem _ inside)).bind fun _ _ =>
        .pure trivial

lemma guarded_walkShape {shape : List (String × Node)}
    (each : ∀ field ∈ shape, (walk direction field.2).Guarded depicter.refer exposed asked
      fun s => s.isReference = field.2.leads direction)
    (mem : ∀ field ∈ shape,
      (direction.isOutput && field.2.coerces) = false → exposed field.2 none) :
    (walkShape direction shape).Guarded depicter.refer exposed asked fun _ => True := by
  induction shape with
  | nil => exact .done trivial
  | cons field shape ih =>
    have rest := ih (fun other inside => each other (List.mem_cons_of_mem _ inside))
      (fun other inside => mem other (List.mem_cons_of_mem _ inside))
    exact (each field List.mem_cons_self).bind fun _ _ =>
      (Walk.Guarded.fieldOptional (mem field List.mem_cons_self)).bind fun _ _ =>
        rest.bind fun _ _ => .pure trivial

/-- The documented view of a layer is stopped by what it asks for there, and by what stops the views
of its documented parts. -/
lemma guarded_layer {kind : Kind Node} {notes : Notes}
    (mem : ∀ check ∈ checks direction (.mk kind notes), exposed check.1 check.2)
    (refers : ∀ key target, kind = .reference key target → asked target direction)
    (parts : ∀ part ∈ kind.documentedParts direction,
      (walk part.2 part.1).Guarded depicter.refer exposed asked
        fun s => s.isReference = part.1.leads part.2) :
    (walk direction (.mk kind notes)).Guarded depicter.refer exposed asked
      fun s => s.isReference = (Node.mk kind notes).leads direction := by
  have child (node : Node) (inside : (node, direction) ∈ kind.documentedParts direction) :
      (walk direction node).Guarded depicter.refer exposed asked
        fun s => s.isReference = node.leads direction := parts _ inside
  unfold walk
  refine Walk.Guarded.bind ?_ fun s leads => guarded_annotate leads mem
  cases kind with
  | void | function _ _ | custom _ => exact .unsupported
  | string _ | number _ | bigint _ | boolean _ | date _ | null | any | unknown | literal _
  | choice _ => exact .done rfl
  | array item _ _ => exact (child item (.head _)).bind fun _ _ => .pure rfl
  | tuple items rest =>
    have each : (walkItems direction items).Guarded depicter.refer exposed asked
        fun _ => True :=
      guarded_walkItems fun node inside =>
        child node (by simp [Kind.documentedParts, Kind.parts, Kind.children, inside])
    refine each.bind fun _ _ => ?_
    cases rest with
    | none => exact .done rfl
    | some rest =>
      have further := child rest (by simp [Kind.documentedParts, Kind.parts, Kind.children])
      exact further.bind fun _ _ => .pure rfl
  | object shape =>
    have fields : (walkShape direction shape).Guarded depicter.refer exposed asked
        fun _ => True := by
      refine guarded_walkShape ?_ ?_
      · exact fun field inside =>
          child field.2 (List.mem_map_of_mem (List.mem_map_of_mem inside))
      · exact fun field inside visible =>
          mem _ (List.mem_append_left _ (Kind.mem_absentChecks inside visible))
    exact fields.bind fun _ _ => .pure rfl
  | record key value =>
    have inside (other : key.listedKeys? ≠ some []) :=
      child value (by simp [Kind.documentedParts, other])
    dsimp only
    cases listed : key.listedKeys? with
    | none => exact (inside (by simp [listed])).bind fun _ _ => .pure rfl
    | some keys =>
      cases keys with
      | nil => exact .done rfl
      | cons first keys => exact (inside (by simp [listed])).bind fun _ _ => .pure rfl
  | union options | taggedUnion _ options =>
    have each : (walkItems direction options).Guarded depicter.refer exposed asked
        fun _ => True :=
      guarded_walkItems fun node inside => child node (List.mem_map_of_mem inside)
    exact each.bind fun _ _ => .pure rfl
  | intersection left right =>
    exact (child left (.head _)).bind fun l _ => (child right (.tail _ (.head _))).bind
      fun r _ => .pure (SchemaObject.isReference_intersect l r)
  | optional inner | readonly inner | branded inner _ | fallback inner _ =>
    exact child inner (.head _)
  | nullable inner =>
    exact (child inner (.head _)).bind fun s leads =>
      .pure ((isReference_orNull s).trans leads)
  | default inner _ => exact (child inner (.head _)).bind fun _ leads => .pure leads
  | effect inner effect =>
    refine (child inner (.head _)).bind fun input leads => ?_
    cases effect with
    | refine _ => exact .pure leads
    | transform _ =>
      cases direction with
      | input => exact .pure leads
      | output =>
        dsimp only
        split
        · exact .pure leads
        · rename_i single
          have plain : inner.leads .output = false :=
            leads.symm.trans (Bool.eq_false_iff.mpr single)
          simp only [Node.leads, plain]
          exact guarded_transformed
  | preprocess inner _ =>
    refine (child inner (.head _)).bind fun input leads => .pure ?_
    split
    · exact leads
    · exact (SchemaObject.isReference_preprocessed input).trans leads
  | pipeline input output =>
    cases direction with
    | input => exact child input (.head _)
    | output => exact child output (.head _)
  | reference key target => exact .refer (refers key target rfl) fun name => .done rfl

variable {setting : Setting} {table : AliasTable SchemaObject}

lemma validExamples_answered {samples shown : List Json}
    (h : depicter.replay setting table (validExamples node direction samples) = .ok shown) :
    ∀ sample ∈ samples,
      setting.library.validate node (some sample) ≠ .error (.interrupted .crash) := by
  induction samples generalizing shown with
  | nil => exact nofun
  | cons first samples ih =>
    obtain ⟨outcome, tried, h⟩ := replay_bind_ok h
    obtain rfl := Except.ok.inj tried
    obtain ⟨_, checked, h⟩ := replay_bind_ok h
    obtain ⟨_, rest, -⟩ := replay_bind_ok h
    intro sample mem
    rcases List.mem_cons.mp mem with rfl | mem
    · intro crashed
      rw [crashed] at checked
      cases checked
    · exact ih rest sample mem

/-- What is laid over a view that is no reference has been answered. -/
lemma shownChecks_answered {s s' : SchemaObject} (single : s.isReference = false)
    (h : depicter.replay setting table (annotate node direction s) = .ok s') :
    ∀ check ∈ node.shownChecks direction,
      setting.library.validate check.1 check.2 ≠ .error (.interrupted .crash) := by
  rw [annotate, if_neg (by rw [single]; exact Bool.false_ne_true)] at h
  obtain ⟨null, nullable, h⟩ := replay_bind_ok h
  obtain ⟨shown, examples, -⟩ := replay_bind_ok h
  intro check mem
  rcases List.mem_append.mp mem with mem | mem
  · split at mem
    · cases mem
    · rename_i visible
      obtain rfl := List.mem_singleton.mp mem
      rw [Document.nullable, if_neg visible] at nullable
      intro crashed
      rw [Walk.accepts, Walk.outcome] at nullable
      change depicter.replay setting table (.ask node (some .null) _) = _ at nullable
      rw [replay_ask, crashed] at nullable
      cases nullable
  · obtain ⟨sample, inside, rfl⟩ := List.mem_map.mp mem
    exact validExamples_answered examples sample inside

/-- What has been asked for at the node of a view has been answered. -/
lemma checks_answered {s : SchemaObject}
    (h : depicter.replay setting table (walk direction node) = .ok s) :
    ∀ check ∈ checks direction node,
      setting.library.validate check.1 check.2 ≠ .error (.interrupted .crash) := by
  obtain ⟨kind, notes⟩ := node
  intro check mem
  rcases List.mem_append.mp mem with absent | shown
  · cases kind with
    | object shape => exact Kind.absentChecks_answered (mem_required h).1 absent
    | _ => cases absent
  · have drawn : Drawn false direction _ s := drawn_of_replay nofun h
    obtain ⟨view, -, annotated⟩ := layer_of_replay h
    have kept : s.isReference = view.isReference := by
      rcases replay_annotate annotated with rfl | ⟨null, description, examples, rfl⟩ <;> rfl
    split at shown
    · cases shown
    · rename_i other
      refine shownChecks_answered ?_ annotated check shown
      rw [← kept, drawn.leads]
      exact Bool.eq_false_iff.mpr other

lemma guards : depicter.Guards Kind.documentedParts checks
    fun direction node s => s.isReference = node.leads direction where
  guarded mem refers parts := guarded_layer mem refers parts
  answered h := checks_answered h

end Document

namespace TypeScript

variable {style : OptionalStyle} {exposed : Node → Option Json → Prop}
  {asked : String → Direction → Prop} {direction : Direction}

/-- A crash is caught when a transform is tried. -/
lemma guarded_transformed {node : Node} {input : TypeExpr} :
    (transformed node input).Guarded (depicter style).refer exposed asked fun _ => True := by
  rw [transformed]
  split
  · exact .done trivial
  · exact Walk.Guarded.probe.bind fun _ _ => .pure trivial

lemma guarded_walkItems {nodes : List Node}
    (each : ∀ node ∈ nodes, (walk style node direction).Guarded (depicter style).refer exposed
      asked fun _ => True) :
    (walkItems style nodes direction).Guarded (depicter style).refer exposed asked
      fun _ => True := by
  induction nodes with
  | nil => exact .done trivial
  | cons node nodes ih =>
    exact (each node List.mem_cons_self).bind fun _ _ =>
      (ih fun other inside => each other (List.mem_cons_of_mem _ inside)).bind fun _ _ =>
        .pure trivial

lemma guarded_walkParams {nodes : List Node} {position : Nat}
    (each : ∀ node ∈ nodes, (walk style node (paramDirection direction node)).Guarded
      (depicter style).refer exposed asked fun _ => True) :
    (walkParams style nodes position direction).Guarded (depicter style).refer exposed asked
      fun _ => True := by
  induction nodes generalizing position with
  | nil => exact .done trivial
  | cons node nodes ih =>
    exact (each node List.mem_cons_self).bind fun _ _ =>
      (ih fun other inside => each other (List.mem_cons_of_mem _ inside)).bind fun _ _ =>
        .pure trivial

lemma guarded_walkMembers {shape : List (String × Node)}
    (each : ∀ field ∈ shape, (walk style field.2 direction).Guarded (depicter style).refer
      exposed asked fun _ => True)
    (mem : ∀ field ∈ shape,
      (direction.isOutput && field.2.coerces) = false → exposed field.2 none) :
    (walkMembers style shape direction).Guarded (depicter style).refer exposed asked
      fun _ => True := by
  induction shape with
  | nil => exact .done trivial
  | cons field shape ih =>
    have rest := ih (fun other inside => each other (List.mem_cons_of_mem _ inside))
      (fun other inside => mem other (List.mem_cons_of_mem _ inside))
    exact (Walk.Guarded.fieldOptional (mem field List.mem_cons_self)).bind fun _ _ =>
      (each field List.mem_cons_self).bind fun _ _ => rest.bind fun _ _ => .pure trivial

/-- The typed view of a layer is stopped by what it asks for there, and by what stops the views of
its parts. -/
lemma guarded_layer {kind : Kind Node} {notes : Notes}
    (mem : ∀ check ∈ checks direction (.mk kind notes), exposed check.1 check.2)
    (refers : ∀ key target, kind = .reference key target → asked target direction)
    (parts : ∀ part ∈ kind.parts direction, (walk style part.1 part.2).Guarded
      (depicter style).refer exposed asked fun _ => True) :
    (walk style (.mk kind notes) direction).Guarded (depicter style).refer exposed asked
      fun _ => True := by
  have child (node : Node) (flow : Direction) (inside : (node, flow) ∈ kind.parts direction) :
      (walk style node flow).Guarded (depicter style).refer exposed asked fun _ => True :=
    parts _ inside
  unfold walk
  suffices layer : Walk.Guarded (depicter style).refer exposed asked (fun _ => True) _ from
    layer.bind fun _ _ => .pure trivial
  cases kind with
  | custom _ => exact .unsupported
  | string _ | number _ | bigint _ | boolean _ | date _ | null | any | unknown | void | literal _
  | choice _ => exact .done trivial
  | array item _ _ => exact (child item _ (.head _)).bind fun _ _ => .pure trivial
  | tuple items rest =>
    have each : (walkItems style items direction).Guarded (depicter style).refer exposed asked
        fun _ => True :=
      guarded_walkItems fun node inside =>
        child node _ (by simp [Kind.parts, Kind.children, inside])
    refine each.bind fun _ _ => ?_
    cases rest with
    | none => exact .done trivial
    | some rest =>
      have further := child rest direction (by simp [Kind.parts, Kind.children])
      exact further.bind fun _ _ => .pure trivial
  | object shape =>
    have fields : (walkMembers style shape direction).Guarded (depicter style).refer exposed
        asked fun _ => True := by
      refine guarded_walkMembers ?_ ?_
      · exact fun field inside =>
          child field.2 _ (List.mem_map_of_mem (List.mem_map_of_mem inside))
      · exact fun field inside visible => mem _ (Kind.mem_absentChecks inside visible)
    exact fields.bind fun _ _ => .pure trivial
  | union options | taggedUnion _ options =>
    have each : (walkItems style options direction).Guarded (depicter style).refer exposed asked
        fun _ => True :=
      guarded_walkItems fun node inside => child node _ (List.mem_map_of_mem inside)
    exact each.bind fun _ _ => .pure trivial
  | record first second | intersection first second =>
    exact (child first _ (.head _)).bind fun _ _ =>
      (child second _ (.tail _ (.head _))).bind fun _ _ => .pure trivial
  | default inner _ | fallback inner _ | branded inner _ | readonly inner | preprocess inner _ =>
    exact child inner _ (.head _)
  | optional inner | nullable inner =>
    exact (child inner _ (.head _)).bind fun _ _ => .pure trivial
  | effect inner effect =>
    refine (child inner _ (.head _)).bind fun input _ => ?_
    cases effect with
    | refine _ => exact .pure trivial
    | transform _ =>
      cases direction with
      | input => exact .pure trivial
      | output => exact guarded_transformed
  | pipeline input output =>
    cases direction with
    | input => exact child input _ (.head _)
    | output => exact child output _ (.head _)
  | reference key target => exact .refer (refers key target rfl) fun _ => .done trivial
  | function args returns =>
    have finish (params : List (Param TypeExpr)) :
        Walk.Guarded (depicter style).refer exposed asked (fun _ => True) (do
          let returns ← walk style returns direction
          pure (TypeExpr.function params returns)) :=
      (child returns _ (List.mem_append_right _ (.head _))).bind fun _ _ => .pure trivial
    have argument (node : Node) (flow : Direction)
        (inside : (node, flow) ∈ args.argumentParts direction) :
        (walk style node flow).Guarded (depicter style).refer exposed asked fun _ => True :=
      child node flow (List.mem_append_left _ inside)
    obtain ⟨argsKind, argsNotes⟩ := args
    cases argsKind with
    | tuple items rest =>
      have each : (walkParams style items 0 direction).Guarded (depicter style).refer exposed
          asked fun _ => True :=
        guarded_walkParams fun node inside =>
          argument node _ (List.mem_append_left _ (List.mem_map_of_mem inside))
      refine each.bind fun params _ => ?_
      cases rest with
      | none => exact finish (params ++ [])
      | some rest =>
        have further := argument rest direction (List.mem_append_right _ (.head _))
        exact further.bind fun t _ => finish _
    | _ => exact (argument _ _ (.head _)).bind fun t _ => finish _

lemma guards (style : OptionalStyle) : (depicter style).Guards Kind.parts checks
    fun _ _ _ => True where
  guarded mem refers parts := guarded_layer mem refers parts
  answered {setting table direction node type} h := by
    obtain ⟨kind, notes⟩ := node
    intro check mem
    cases kind with
    | object shape =>
      obtain ⟨members, -, shown⟩ := members_of_walk h
      refine Kind.absentChecks_answered ?_ mem
      intro field inside
      obtain ⟨_, -, -, optional, answer, -⟩ :=
        exists_of_forall₂ (replay_walkMembers shown) inside
      exact ⟨optional, answer⟩
    | _ => cases mem

end TypeScript

/-- How depictions of a node end in a direction when they give neither a view nor an error of the
library: with the crash of a validation that is asked for at a node that they reach, or not at all,
because a validation follows references without end. -/
structure Depicter.Escapes {U : Type} (depicter : Depicter U)
    (parts : Direction → Kind Node → List (Node × Direction))
    (checks : Direction → Node → List (Node × Option Json)) (setting : Setting) (node : Node)
    (direction : Direction) : Prop where
  crashed : ∀ table later,
    depicter.depict setting node direction table = (.error (.interrupted .crash), later) →
      setting.library.Crashes parts checks node direction
  endless : ∀ table later,
    depicter.depict setting node direction table = (.error .unfinished, later) →
      ∃ other input, setting.library.validate other input = .unfinished
  viewed : setting.Distinguishes (setting.Mentions [(node, direction)]) → ∀ view later,
    depicter.depict setting node direction depicter.noAliases = (.ok view, later) →
      ¬ setting.library.Crashes parts checks node direction

lemma Depicter.Guards.escapes {U : Type} {depicter : Depicter U}
    {parts : Direction → Kind Node → List (Node × Direction)} {bad : Kind Node → Bool}
    {checks : Direction → Node → List (Node × Option Json)} {form : Direction → Node → U → Prop}
    {rename : (String → String) → U → U} (guards : depicter.Guards parts checks form)
    (composes : depicter.Composes parts bad) (uniform : depicter.Uniform rename)
    (setting : Setting) (node : Node) (direction : Direction) :
    depicter.Escapes parts checks setting node direction where
  crashed _ _ crash := guards.crashes composes uniform.unknown crash
  endless table later unfinished := by
    obtain ⟨visits, run⟩ := runs_depict setting uniform.unknown table node direction
    rw [unfinished] at run
    obtain ⟨other, input, -, found⟩ := run.unfinished uniform ⟨_, uniform.self _ _⟩ rfl
    exact ⟨other, input, found⟩
  viewed distinguishes _ _ ok :=
    guards.not_crashes composes uniform (.empty depicter setting _) distinguishes
      (setting.closed_mentions _) (fun _ refers => .inl ⟨_, List.mem_singleton_self _, refers⟩) ok

/-- A crash of a transform takes a depiction down exactly where the transform is not only tried:
where a view asks whether a field may be left out, or the documented view whether null is allowed
and what examples show. When a view is made, none of these validations crashes at any node of the
schema, whatever its transforms do when they are tried. -/
theorem crashes_escape_outside_probes (setting : Setting) (style : OptionalStyle) (node : Node)
    (direction : Direction) :
    Document.depicter.Escapes Kind.documentedParts Document.checks setting node direction ∧
      (TypeScript.depicter style).Escapes Kind.parts TypeScript.checks setting node direction :=
  ⟨Document.guards.escapes Document.composes Document.uniform setting node direction,
    (TypeScript.guards style).escapes (TypeScript.composes style) (TypeScript.uniform style) setting
      node direction⟩

def kilnSetting : Setting where
  library := {}
  fingerprint node := node.kindName

/-- An object with a field whose transform crashes, for which it has to be a text. -/
def glaze : Node := .of (.object [("glaze", .of (.effect (.of (.string {})) (.transform .crash)))])

/-- A text with a preprocessor that crashes, whatever it is given. -/
def firing : Node := .of (.preprocess (.of (.string {})) .crash)

/-- A crash that happens to samples only does not show; one that happens to null does. -/
theorem glaze_crashes_when_tried_only :
    ¬ kilnSetting.library.Crashes Kind.documentedParts Document.checks glaze .output ∧
      ¬ kilnSetting.library.Crashes Kind.parts TypeScript.checks glaze .output ∧
      kilnSetting.library.Crashes Kind.documentedParts Document.checks firing .output := by
  have alone : kilnSetting.Distinguishes (kilnSetting.Mentions [(glaze, .output)]) := by
    intro a _ mentioned
    simp [Setting.Mentions, kilnSetting, glaze, Node.of, Node.refers_mk, Kind.children] at mentioned
  obtain ⟨documented, typed⟩ := crashes_escape_outside_probes kilnSetting {} glaze .output
  obtain ⟨crashing, -⟩ := crashes_escape_outside_probes kilnSetting {} firing .output
  exact ⟨documented.viewed alone _ _ rfl, typed.viewed alone _ _ rfl,
    crashing.crashed Document.noComponents _ rfl⟩

/-- Both views end with a crash: of a schema that is asked whether it allows null, of one that has
an example, and of one that may be left out. -/
theorem crashes_escape :
    (Document.depict kilnSetting .input firing Document.noComponents).1 =
        .error (.interrupted .crash) ∧
      (Document.depict kilnSetting .input (.mk (.effect (.of (.string {})) (.transform .crash))
        { examples := [.string "ash"] }) Document.noComponents).1 =
          .error (.interrupted .crash) ∧
      (TypeScript.depict kilnSetting {} .input (.of (.object [("firing", firing)]))
        TypeScript.noAliases).1 = .error (.interrupted .crash) :=
  ⟨rfl, rfl, rfl⟩

end EventContracts
