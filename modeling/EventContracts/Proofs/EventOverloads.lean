import EventContracts.Event
import EventContracts.Proofs.DepictionReplay
import EventContracts.Proofs.JsonTexts
import EventContracts.Proofs.TypedWalks

/-! Further arguments before an acknowledgement are written out: a handler has one signature for
every number of them, and each is followed by the callback. The signatures have different lengths,
so the union of their types keeps all of them in order. -/

namespace EventContracts.TypeScript

open Depicter

namespace TypeExpr

lemma length_eq_of_sameParams {as bs : List (Param TypeExpr)} (same : sameParams as bs = true) :
    as.length = bs.length := by
  induction as generalizing bs with
  | nil =>
    cases bs with
    | nil => rfl
    | cons b bs => simp [sameParams] at same
  | cons a as ih =>
    cases bs with
    | nil => simp [sameParams] at same
    | cons b bs =>
      obtain ⟨name, type, rest⟩ := a
      simp only [sameParams, Bool.and_eq_true] at same
      rw [List.length_cons, List.length_cons, ih same.2]

/-- Types of which no two are the same are all kept, in order. -/
lemma distinct_of_different {types : List TypeExpr}
    (different : types.Pairwise fun a b => ¬ a.same b) : distinct types = types := by
  suffices h : ∀ found : List TypeExpr, (found ++ types).Pairwise (fun a b => ¬ a.same b) →
      types.foldl (fun found t => if found.any (·.same t) then found else found ++ [t]) found =
        found ++ types from h [] different
  clear different
  induction types with
  | nil =>
    intro found _
    rw [List.append_nil]
    rfl
  | cons t types ih =>
    intro found different
    have fresh : ¬ found.any (·.same t) := by
      intro repeated
      obtain ⟨a, mem, same⟩ := List.any_eq_true.mp repeated
      have apart := (List.pairwise_append.mp different).2.2
      exact apart a mem t List.mem_cons_self same
    rw [List.foldl_cons, if_neg fresh, ih (found ++ [t])]
    · rw [List.append_assoc, List.singleton_append]
    · rwa [List.append_assoc, List.singleton_append]

/-- The union of functions with different numbers of parameters has all of them as members. -/
lemma unionOf_functions {signatures : List (List (Param TypeExpr))} (returns : TypeExpr)
    (arities : (signatures.map List.length).Nodup) (several : 1 < signatures.length) :
    unionOf (signatures.map fun params => function params returns) =
      union (signatures.map fun params => function params returns) := by
  have parts : (signatures.map fun params => function params returns).flatMap unionParts =
      signatures.map fun params => function params returns := by
    rw [List.flatMap_map]
    exact List.flatMap_pure_eq_map _ signatures
  have different : (signatures.map fun params => function params returns).Pairwise
      fun a b => ¬ a.same b := by
    rw [List.pairwise_map]
    refine (List.pairwise_map.mp arities).imp ?_
    intro as bs lengths same
    simp only [TypeExpr.same, Bool.and_eq_true] at same
    exact lengths (length_eq_of_sameParams same.1)
  rw [unionOf, parts, distinct_of_different different]
  rcases signatures with _ | ⟨params, _ | ⟨params', more⟩⟩
  · simp at several
  · simp at several
  · rfl

end TypeExpr

/-- Parameters for one argument each, which are named by their positions from one on. -/
def positional : Nat → List TypeExpr → List (Param TypeExpr)
  | _, [] => []
  | position, type :: types =>
    ⟨"p" ++ toString position, type, false⟩ :: positional (position + 1) types

lemma positional_append (position : Nat) (first second : List TypeExpr) :
    positional position (first ++ second) =
      positional position first ++ positional (position + first.length) second := by
  induction first generalizing position with
  | nil => rfl
  | cons type first ih =>
    rw [List.cons_append, positional, positional, ih, List.cons_append, List.length_cons,
      Nat.add_right_comm]
    rfl

lemma types_positional (position : Nat) (types : List TypeExpr) :
    (positional position types).map Param.type = types := by
  induction types generalizing position with
  | nil => rfl
  | cons type types ih => rw [positional, List.map_cons, ih]

lemma length_positional (position : Nat) (types : List TypeExpr) :
    (positional position types).length = types.length := by
  rw [← List.length_map (f := Param.type), types_positional]

lemma names_positional (position : Nat) (types : List TypeExpr) :
    (positional position types).map Param.name =
      (List.range' position types.length).map fun i => "p" ++ toString i := by
  induction types generalizing position with
  | nil => rfl
  | cons type types ih => rw [positional, List.map_cons, ih]; rfl

lemma rest_positional {position : Nat} {types : List TypeExpr} {param : Param TypeExpr}
    (mem : param ∈ positional position types) : param.rest = false := by
  induction types generalizing position with
  | nil => cases mem
  | cons type types ih =>
    rcases List.mem_cons.mp mem with rfl | mem
    · rfl
    · exact ih mem

/-- A parameter that takes any number of further arguments. -/
def variadic (type : TypeExpr) : Param TypeExpr := ⟨"rest", type, true⟩

/-- The parameters of the signature with a number of further arguments: the fixed ones, the further
ones with numbered comments, and the callback. -/
def signature (items : List TypeExpr) (label : String) (further callback : TypeExpr) (count : Nat) :
    List (Param TypeExpr) :=
  positional 0 (items ++ (List.range count).map fun i =>
    further.withComment (label ++ s!" #{i + 1}")) ++ [⟨"cb", callback, false⟩]

section Signatures

variable {items : List TypeExpr} {label : String} {further callback : TypeExpr} {count : Nat}

lemma length_signature :
    (signature items label further callback count).length = items.length + count + 1 := by
  simp [signature, length_positional]

lemma rest_signature {param : Param TypeExpr}
    (mem : param ∈ signature items label further callback count) : param.rest = false := by
  rcases List.mem_append.mp mem with mem | mem
  · exact rest_positional mem
  · obtain rfl := List.mem_singleton.mp mem
    rfl

lemma positionName_injective : Function.Injective fun i : Nat => "p" ++ toString i := by
  intro i j same
  exact Number.toString_nat_injective ((String.append_right_inj "p").mp same)

/-- Names that count positions begin like no other name of a parameter. -/
lemma positionName_ne (position : Nat) {other : String} (first : other.toList.head? ≠ some 'p') :
    "p" ++ toString position ≠ other := by
  rintro rfl
  exact first (by simp)

lemma names_signature_nodup :
    ((signature items label further callback count).map Param.name).Nodup := by
  rw [signature, List.map_append, names_positional]
  refine List.nodup_append.mpr
    ⟨(List.nodup_range').map positionName_injective, List.nodup_singleton _, ?_⟩
  intro name mem last inside
  obtain ⟨i, -, rfl⟩ := List.mem_map.mp mem
  obtain rfl := List.mem_singleton.mp inside
  exact positionName_ne i (show "cb".toList.head? ≠ some 'p' by decide)

lemma take_signature :
    (signature items label further callback count).take items.length = positional 0 items := by
  rw [signature, positional_append, List.append_assoc,
    List.take_left' (length_positional 0 items)]

lemma further_signature :
    (((signature items label further callback count).drop items.length).take count).map Param.type =
      (List.range count).map fun i => further.withComment (label ++ s!" #{i + 1}") := by
  rw [signature, positional_append, List.append_assoc,
    List.drop_left' (length_positional 0 items), List.take_left' (by simp [length_positional]),
    types_positional]

lemma getLast?_signature :
    (signature items label further callback count).getLast? = some ⟨"cb", callback, false⟩ := by
  simp [signature]

end Signatures

section Replays

variable {setting : Setting} {style : OptionalStyle} {table : AliasTable TypeExpr}
  {direction : Direction}

variable (setting style table) in
/-- Whether a walk over a node that a table answers for has a type as result. -/
def Replays (direction : Direction) (node : Node) (type : TypeExpr) : Prop :=
  (depicter style).replay setting table (walk style node direction) = .ok type

lemma replays_rightUnique : Relator.RightUnique (Replays setting style table direction) := by
  intro node type other here there
  exact Except.ok.inj (here.symm.trans there)

lemma replay_walkItems {nodes : List Node} {types : List TypeExpr}
    (h : (depicter style).replay setting table (walkItems style nodes direction) = .ok types) :
    List.Forall₂ (Replays setting style table direction) nodes types := by
  induction nodes generalizing types with
  | nil =>
    obtain rfl := Except.ok.inj h
    exact .nil
  | cons node nodes ih =>
    obtain ⟨t, first, h⟩ := replay_bind_ok h
    obtain ⟨more, rest, h⟩ := replay_bind_ok h
    obtain rfl := Except.ok.inj h
    exact .cons first (ih rest)

/-- The parameters of arguments that stand before others, or that are no functions: only a function
at the end has a name of its own. -/
lemma replay_walkParams {nodes tail : List Node} {position : Nat} {params : List (Param TypeExpr)}
    (plain : tail = [] → ∀ node ∈ nodes, node.isFunction = false)
    (h : (depicter style).replay setting table
      (walkParams style (nodes ++ tail) position direction) = .ok params) :
    ∃ types more, params = positional position types ++ more ∧
      List.Forall₂ (fun node => Replays setting style table (paramDirection direction node) node)
        nodes types ∧
      (depicter style).replay setting table
        (walkParams style tail (position + nodes.length) direction) = .ok more := by
  induction nodes generalizing position params with
  | nil => exact ⟨[], params, rfl, .nil, h⟩
  | cons node nodes ih =>
    rw [List.cons_append] at h
    obtain ⟨t, first, h⟩ := replay_bind_ok h
    obtain ⟨others, rest, h⟩ := replay_bind_ok h
    obtain rfl := Except.ok.inj h
    obtain ⟨types, more, rfl, each, last⟩ :=
      ih (fun none other mem => plain none other (List.mem_cons_of_mem _ mem)) rest
    have name : paramName position (nodes ++ tail).isEmpty node = "p" ++ toString position := by
      rw [paramName]
      refine if_neg ?_
      intro named
      obtain ⟨function, ending⟩ := Bool.and_eq_true_iff.mp named
      obtain ⟨-, none⟩ := List.append_eq_nil_iff.mp (List.isEmpty_iff.mp ending)
      rw [plain none node List.mem_cons_self] at function
      cases function
    refine ⟨t :: types, more, ?_, .cons first each, ?_⟩
    · rw [name]
      rfl
    · rwa [List.length_cons, ← Nat.add_assoc, Nat.add_right_comm]

/-- The type of a function that takes a tuple of arguments and returns nothing. -/
lemma replay_function {items : List Node} {rest : Option Node} {notes : Notes} {type : TypeExpr}
    (h : Replays setting style table direction
      (.of (.function (.mk (.tuple items rest) notes) (.of .void))) type) :
    ∃ params further, type =
        .function (params ++ further.toList.map variadic) (.keyword .void) ∧
      (depicter style).replay setting table (walkParams style items 0 direction) = .ok params ∧
      Option.Rel (Replays setting style table direction) rest further := by
  unfold Replays Node.of walk at h
  obtain ⟨function, drawn, same⟩ := replay_bind_ok h
  obtain rfl := Except.ok.inj same
  obtain ⟨params, fixed, drawn⟩ := replay_bind_ok drawn
  cases rest with
  | none =>
    obtain ⟨returns, void, drawn⟩ := replay_bind_ok drawn
    obtain rfl := Except.ok.inj void
    obtain rfl := Except.ok.inj drawn
    exact ⟨params, none, rfl, fixed, .none⟩
  | some rest =>
    obtain ⟨t, further, drawn⟩ := replay_bind_ok drawn
    obtain ⟨returns, void, drawn⟩ := replay_bind_ok drawn
    obtain rfl := Except.ok.inj void
    obtain rfl := Except.ok.inj drawn
    exact ⟨params, some t, rfl, fixed, .some further⟩

variable (setting) in
/-- Validation does not read notes. -/
lemma validate_described (node : Node) (text : String) (input : Option Json) :
    setting.library.validate (node.described text) input =
      setting.library.validate node input := by
  obtain ⟨kind, notes⟩ := node
  simp only [Library.validate, Node.validate_eq, Node.described]
  unfold Node.validateWith
  rfl

variable (setting style table) in
/-- What a transform gives when it is tried does not depend on notes. -/
lemma replay_transformed_described (node : Node) (text : String) (input : TypeExpr) :
    (depicter style).replay setting table (transformed (node.described text) input) =
      (depicter style).replay setting table (transformed node input) := by
  rw [transformed, transformed]
  cases input.sampleType? with
  | none => rfl
  | some sampled =>
    have validated := validate_described setting node text (some sampled.sample)
    rw [replay_bind, replay_bind]
    refine congrArg (· >>= _) ?_
    change (depicter style).replay setting table (.ask _ _ _) =
      (depicter style).replay setting table (.ask _ _ _)
    rw [replay_ask, replay_ask, validated]

variable (setting style table direction) in
/-- A description that is given to a node takes the place of the one that it has. -/
lemma replay_described (node : Node) (text : String) :
    (depicter style).replay setting table (walk style (node.described text) direction) =
      ((depicter style).replay setting table (walk style node direction)).map
        (TypeExpr.withComment text) := by
  have comments (notes : Notes) {layer layer' : Path TypeExpr}
      (same : (depicter style).replay setting table layer' =
        (depicter style).replay setting table layer) :
      (depicter style).replay setting table
          (layer' >>= fun t => return annotate { notes with description := some text } t) =
        ((depicter style).replay setting table (layer >>= fun t => return annotate notes t)).map
          (TypeExpr.withComment text) := by
    rw [replay_bind, replay_bind, same]
    cases (depicter style).replay setting table layer with
    | error cause => rfl
    | ok t =>
      obtain ⟨description, examples⟩ := notes
      cases description with
      | none => rfl
      | some description => cases t <;> rfl
  have tried := replay_transformed_described setting style table node text
  obtain ⟨kind, notes⟩ := node
  unfold Node.described walk
  cases kind with
  | effect inner effect =>
    cases effect with
    | refine _ => exact comments notes rfl
    | transform t =>
      cases direction with
      | input => exact comments notes rfl
      | output =>
        have same : (depicter style).replay setting table
              (walk style inner .output >>= transformed
                ((Node.mk (.effect inner (.transform t)) notes).described text)) =
            (depicter style).replay setting table
              (walk style inner .output >>= transformed
                (Node.mk (.effect inner (.transform t)) notes)) := by
          rw [replay_bind, replay_bind]
          exact congrArg _ (funext tried)
        exact comments notes same
  | _ => exact comments notes rfl

/-- A signature that ends with a callback: its data flows the other way. -/
lemma replay_signature {items : List Node} {callback : Node} {type : TypeExpr}
    (function : callback.isFunction = true)
    (h : Replays setting style table direction (.procedure (items ++ [callback]) none) type) :
    ∃ types last,
      type = .function (positional 0 types ++ [⟨"cb", last, false⟩]) (.keyword .void) ∧
      List.Forall₂ (fun node => Replays setting style table (paramDirection direction node) node)
        items types ∧
      Replays setting style table direction.flip callback last := by
  obtain ⟨params, further, rfl, fixed, closed⟩ := replay_function h
  cases closed
  obtain ⟨types, more, rfl, each, ending⟩ := replay_walkParams (by simp) fixed
  obtain ⟨last, called, ending⟩ := replay_bind_ok ending
  obtain rfl := Except.ok.inj ending
  refine ⟨types, last, ?_, each, ?_⟩
  · simp [paramName, function]
  · rwa [paramDirection, if_pos function] at called

variable {items : List Node} {rest callback : Node} {count : Nat}

/-- A further argument has the type of the schema of further arguments, with a numbered comment. -/
lemma replays_numbered (plain : rest.isFunction = false) {position : Nat} {type : TypeExpr} :
    Replays setting style table (paramDirection direction (Event.numbered rest position))
        (Event.numbered rest position) type ↔
      ∃ further, Replays setting style table direction rest further ∧
        type = further.withComment
          (rest.notes.description.getD "Rest argument" ++ s!" #{position}") := by
  have here : paramDirection direction (Event.numbered rest position) = direction :=
    if_neg (by rw [Event.numbered, Node.described]; exact ne_true_of_eq_false plain)
  rw [here, Replays, Event.numbered, replay_described]
  constructor
  · intro h
    cases typed : (depicter style).replay setting table (walk style rest direction) with
    | error cause =>
      rw [typed] at h
      cases h
    | ok further =>
      rw [typed] at h
      exact ⟨further, typed, (Except.ok.inj h).symm⟩
  · rintro ⟨further, typed, rfl⟩
    rw [typed]
    rfl

/-- The signature of a handler with a number of further arguments. -/
def overload (items : List Node) (rest callback : Node) (count : Nat) : Node :=
  .procedure (items ++ (List.range count).map (fun i => Event.numbered rest (i + 1)) ++ [callback])
    none

/-- What the parts of a signature have as types. -/
lemma types_of_overload {type : TypeExpr} (plain : rest.isFunction = false)
    (function : callback.isFunction = true)
    (h : Replays setting style table direction (overload items rest callback count) type) :
    (∃ types,
      List.Forall₂ (fun node => Replays setting style table (paramDirection direction node) node)
        items types) ∧
    (0 < count → ∃ further, Replays setting style table direction rest further) ∧
    ∃ last, Replays setting style table direction.flip callback last := by
  obtain ⟨types, last, -, each, called⟩ := replay_signature function h
  refine ⟨⟨types.take items.length, ?_⟩, ?_, last, called⟩
  · have fixed := List.forall₂_take items.length each
    rwa [List.take_left] at fixed
  · intro some
    have mem : Event.numbered rest 1 ∈
        items ++ (List.range count).map fun i => Event.numbered rest (i + 1) :=
      List.mem_append_right _ (List.mem_map.mpr ⟨0, List.mem_range.mpr some, rfl⟩)
    obtain ⟨type, -, numbered⟩ := exists_of_forall₂ each mem
    obtain ⟨further, typed, -⟩ := (replays_numbered plain).mp numbered
    exact ⟨further, typed⟩

/-- The type of a signature is made of the types of its parts. -/
lemma type_of_overload {itemTypes : List TypeExpr} {further last type : TypeExpr}
    (plain : rest.isFunction = false) (function : callback.isFunction = true)
    (fixed : List.Forall₂
      (fun node => Replays setting style table (paramDirection direction node) node)
      items itemTypes)
    (typed : 0 < count → Replays setting style table direction rest further)
    (called : Replays setting style table direction.flip callback last)
    (h : Replays setting style table direction (overload items rest callback count) type) :
    type = .function
      (signature itemTypes (rest.notes.description.getD "Rest argument") further last count)
      (.keyword .void) := by
  obtain ⟨types, last', rfl, each, called'⟩ := replay_signature function h
  obtain rfl := replays_rightUnique called called'
  have numbered : List.Forall₂
      (fun node => Replays setting style table (paramDirection direction node) node)
      ((List.range count).map fun i => Event.numbered rest (i + 1))
      ((List.range count).map fun i => further.withComment
        (rest.notes.description.getD "Rest argument" ++ s!" #{i + 1}")) := by
    rw [List.forall₂_map_left_iff, List.forall₂_map_right_iff, List.forall₂_same]
    intro i mem
    have some : 0 < count := Nat.zero_lt_of_lt (List.mem_range.mp mem)
    exact (replays_numbered plain).mpr ⟨further, typed some, rfl⟩
  have unique : Relator.RightUnique fun node =>
      Replays setting style table (paramDirection direction node) node :=
    fun _ _ _ here there => replays_rightUnique here there
  rw [List.right_unique_forall₂' unique each (List.rel_append fixed numbered)]
  rfl

end Replays

/-- Whether a node has a type in a direction: depicting it gives the type, and everything that the
type refers to is declared already. -/
def Typed (setting : Setting) (style : OptionalStyle) (table : AliasTable TypeExpr)
    (direction : Direction) (node : Node) (type : TypeExpr) : Prop :=
  depict setting style direction node table = (.ok type, table)

/-- What the parameters of a signature are, with a number of further arguments after the given
number of fixed ones: the fixed ones are those of the first signature, the further ones have
numbered comments, and the callback is the last. -/
structure Overload (first : List (Param TypeExpr)) (items : Nat) (label : String)
    (further callback : TypeExpr) (count : Nat) (params : List (Param TypeExpr)) : Prop where
  length : params.length = items + count + 1
  plain : ∀ param ∈ params, param.rest = false
  names : (params.map Param.name).Nodup
  fixed : params.take items = first.take items
  further : ((params.drop items).take count).map Param.type =
    (List.range count).map fun i => further.withComment (label ++ s!" #{i + 1}")
  callback : params.getLast? = some ⟨"cb", callback, false⟩

lemma overload_signature {types : List TypeExpr} {label : String} {further callback : TypeExpr}
    {count : Nat} :
    Overload (signature types label further callback 0) types.length label further callback count
      (signature types label further callback count) where
  length := length_signature
  plain := fun _ mem => rest_signature mem
  names := names_signature_nodup
  fixed := by rw [take_signature, take_signature]
  further := further_signature
  callback := getLast?_signature

variable {setting : Setting} {style : OptionalStyle} {table : AliasTable TypeExpr}
  {direction : Direction}

lemma typed_of_replays {node : Node} {type : TypeExpr}
    (h : Replays setting style table direction node type) :
    Typed setting style table direction node type :=
  depict_of_replay (uniform style).unknown h

/-- The type of a callback that takes the arguments of a tuple. -/
lemma type_of_callback {items : List Node} {rest : Option Node} {notes : Notes}
    {type : TypeExpr} (plain : ∀ item ∈ items, item.isFunction = false)
    (h : Replays setting style table direction
      (.of (.function (.mk (.tuple items rest) notes) (.of .void))) type) :
    ∃ types further, type = .function
        (positional 0 types ++ further.toList.map variadic) (.keyword .void) ∧
      List.Forall₂ (Typed setting style table direction) items types ∧
      Option.Rel (Typed setting style table direction) rest further := by
  obtain ⟨params, further, rfl, fixed, more⟩ := replay_function h
  rw [← List.append_nil items] at fixed
  obtain ⟨types, ending, rfl, each, closed⟩ := replay_walkParams (fun _ => plain) fixed
  obtain rfl := Except.ok.inj closed
  refine ⟨types, further, by rw [List.append_nil], ?_, ?_⟩
  · refine ((List.forall₂_and_left items types).mpr ⟨plain, each⟩).imp ?_
    rintro item type ⟨itemPlain, typed⟩
    rw [paramDirection, if_neg (ne_true_of_eq_false itemPlain)] at typed
    exact typed_of_replays typed
  · cases more with
    | none => exact .none
    | some typed => exact .some (typed_of_replays typed)

/-- The signatures of a handler that takes further arguments: all of them in order, or the only
one. -/
lemma signatures_of_handler {items : List Node} {rest ack : Node} {notes : Notes} {most : Nat}
    {type : TypeExpr}
    (h : Replays setting style table direction
      (Event.handler (.mk (.tuple items (some rest)) notes) (some ack) most) type) :
    ∃ types, List.Forall₂ (fun count => Replays setting style table direction
        (overload items rest (.of (.function ack (.of .void))) count))
        (List.range (most + 1)) types ∧
      type = match types with
        | [only] => only
        | types => .unionOf types := by
  cases most with
  | zero => exact ⟨[type], .cons h .nil, rfl⟩
  | succ most =>
    change Replays setting style table direction (.of (.union
      ((List.range (most + 2)).map (overload items rest (.of (.function ack (.of .void))))))) type
      at h
    unfold Replays Node.of walk at h
    obtain ⟨union, drawn, same⟩ := replay_bind_ok h
    obtain rfl := Except.ok.inj same
    obtain ⟨types, each, drawn⟩ := replay_bind_ok drawn
    obtain rfl := Except.ok.inj drawn
    have each := List.forall₂_map_left_iff.mp (replay_walkItems each)
    refine ⟨types, each, ?_⟩
    have several := each.length_eq
    rcases types with _ | ⟨first, _ | ⟨second, more⟩⟩
    · simp at several
    · simp at several
    · rfl

/-- Further arguments are written out exactly. A handler whose type can be depicted, with further
arguments that are no functions and an acknowledgement whose items are none, has one signature for
every number of further arguments up to the bound, in order; its type is the union of all of them,
or the only one. Types are those that the nodes have after the handler was depicted. -/
theorem overloads_are_exact (setting : Setting) (style : OptionalStyle) (direction : Direction)
    (items ackItems : List Node) (rest : Node) (ackRest : Option Node) (notes ackNotes : Notes)
    (most : Nat) (table later : AliasTable TypeExpr) (type : TypeExpr)
    (plain : rest.isFunction = false) (ackPlain : ∀ item ∈ ackItems, item.isFunction = false)
    (depicted : depict setting style direction
      (Event.handler (.mk (.tuple items (some rest)) notes)
        (some (.mk (.tuple ackItems ackRest) ackNotes)) most) table = (.ok type, later)) :
    ∃ (signatures : List (List (Param TypeExpr))) (further : TypeExpr)
      (ackTypes : List TypeExpr) (ackFurther : Option TypeExpr),
      signatures.length = most + 1 ∧
      (most = 0 → [type] = signatures.map fun params => .function params (.keyword .void)) ∧
      (0 < most → type = .union (signatures.map fun params => .function params (.keyword .void))) ∧
      (∀ count params, signatures[count]? = some params →
        Overload (signatures.headD []) items.length
          (rest.notes.description.getD "Rest argument") further
          (.function (positional 0 ackTypes ++ ackFurther.toList.map variadic) (.keyword .void))
          count params) ∧
      List.Forall₂ (fun item param =>
          Typed setting style later (paramDirection direction item) item param.type)
        items ((signatures.headD []).take items.length) ∧
      (0 < most → Typed setting style later direction rest further) ∧
      List.Forall₂ (Typed setting style later direction.flip) ackItems ackTypes ∧
      Option.Rel (Typed setting style later direction.flip) ackRest ackFurther := by
  have drawn := replay_of_depict (uniform style).unknown depicted
  obtain ⟨types, each, rfl⟩ := signatures_of_handler drawn
  obtain ⟨longest, -, whole⟩ := exists_of_forall₂ each (List.mem_range.mpr (Nat.lt_succ_self most))
  obtain ⟨⟨itemTypes, fixed⟩, more, last, called⟩ := types_of_overload plain rfl whole
  obtain ⟨ackTypes, ackFurther, rfl, acked, ackMore⟩ := type_of_callback ackPlain called
  have known : ∃ further, 0 < most → Replays setting style later direction rest further := by
    by_cases some : 0 < most
    · obtain ⟨further, typed⟩ := more some
      exact ⟨further, fun _ => typed⟩
    · exact ⟨.keyword .any, fun some' => absurd some' some⟩
  obtain ⟨further, typed⟩ := known
  let label := rest.notes.description.getD "Rest argument"
  let callback := TypeExpr.function (positional 0 ackTypes ++ ackFurther.toList.map variadic)
    (.keyword .void)
  let signatures := (List.range (most + 1)).map (signature itemTypes label further callback)
  have made : signatures.map (fun params => TypeExpr.function params (.keyword .void)) = types := by
    rw [List.map_map, ← List.forall₂_eq_eq_eq, List.forall₂_map_left_iff]
    refine ((List.forall₂_and_left _ types).mpr ⟨fun count mem => List.mem_range.mp mem, each⟩).imp
      ?_
    rintro count t ⟨bound, drawn⟩
    have some : 0 < count → Replays setting style later direction rest further :=
      fun positive => typed (by omega)
    exact (type_of_overload plain rfl fixed some called drawn).symm
  have first : signatures.headD [] = signature itemTypes label further callback 0 := by
    simp [signatures, List.range_succ_eq_map]
  have length : itemTypes.length = items.length := fixed.length_eq.symm
  refine ⟨signatures, further, ackTypes, ackFurther, ?_, ?_, ?_, ?_, ?_, ?_, acked, ackMore⟩
  · simp [signatures]
  · rintro rfl
    rw [made]
    have only := each.length_eq
    rcases types with _ | ⟨first, _ | ⟨second, others⟩⟩
    · simp at only
    · rfl
    · simp at only
  · intro some
    have arities : (signatures.map List.length).Nodup := by
      rw [List.map_map]
      refine List.nodup_range.map ?_
      intro i j same
      simp only [Function.comp_apply, length_signature] at same
      omega
    have several : 1 < signatures.length := by
      simp only [signatures, List.length_map, List.length_range]
      omega
    rw [← made]
    rw [← TypeExpr.unionOf_functions _ arities several]
    match signatures, several with
    | _ :: _ :: _, _ => rfl
  · intro count params found
    obtain ⟨bound, rfl⟩ : count < most + 1 ∧
        signature itemTypes label further callback count = params := by
      simpa [signatures, List.getElem?_eq_some_iff] using found
    rw [first, ← length]
    exact overload_signature
  · rw [first, ← length, take_signature, ← List.forall₂_map_right_iff (f := Param.type),
      types_positional]
    exact fixed.imp fun item type typed => typed_of_replays typed
  · exact fun some => typed_of_replays (typed some)

/-- Lots that refer to lots. -/
def auctionSetting : Setting where
  library := { definitions := [("Lot", .of (.object [
    ("title", .of (.string {})),
    ("next", .of (.optional (.of (.reference "lot" "Lot"))))]))] }
  fingerprint node := node.kindName

/-- A lot, followed by bids. -/
def lotWithBids : Node :=
  .of (.tuple [.of (.reference "lot" "Lot")]
    (some (.mk (.number {}) { description := some "Bid" })))

/-- A verdict, followed by lots. -/
def verdictWithLots : Node :=
  .of (.tuple [.of (.boolean false)] (some (.of (.reference "lot" "Lot"))))

theorem auction_overloads_are_exact :
    ∃ (type : TypeExpr) (later : AliasTable TypeExpr) (signatures : List (List (Param TypeExpr))),
      depict auctionSetting {} .output (Event.handler lotWithBids (some verdictWithLots) 2)
        noAliases = (.ok type, later) ∧
      type = .union (signatures.map fun params => .function params (.keyword .void)) ∧
      signatures.map List.length = [2, 3, 4] := by
  obtain ⟨type, later, depicted⟩ : ∃ type later, depict auctionSetting {} .output
      (Event.handler lotWithBids (some verdictWithLots) 2) noAliases = (.ok type, later) :=
    exists_of_isOk (by decide +kernel)
  obtain ⟨signatures, _, _, _, three, -, union, each, -⟩ :=
    overloads_are_exact auctionSetting {} .output [.of (.reference "lot" "Lot")]
      [.of (.boolean false)] (.mk (.number {}) { description := some "Bid" })
      (some (.of (.reference "lot" "Lot"))) {} {} 2 noAliases later type rfl (by simp; rfl)
      depicted
  refine ⟨type, later, signatures, depicted, union (by decide), ?_⟩
  have lengths (count : Nat) (here : count < signatures.length) :
      signatures[count].length = 1 + count + 1 :=
    (each count _ (List.getElem?_eq_getElem here)).length
  apply List.ext_getElem
  · simp [three]
  · intro count here _
    rw [List.length_map] at here
    rw [List.getElem_map, lengths count here]
    rw [three] at here
    interval_cases count <;> rfl

end EventContracts.TypeScript
