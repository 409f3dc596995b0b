import EventContracts.Proofs.EventOverloads
import EventContracts.Proofs.FormedSchemas
import EventContracts.Proofs.KeyedJson

/-! Types of the typed view are in normal form at every depth: unions are flat, have no member
twice and more than one, comments do not stand on comments, and parameters have different names.
Every rule that makes a union flattens the types that it is given, and these are in normal form
already. -/

namespace EventContracts

namespace Json

lemma sameFields_iff {fields other : List (String × Json)} :
    sameFields fields other ↔
      ∀ field ∈ fields, ∃ v, Fields.get? field.1 other = some v ∧ field.2.same v := by
  induction fields with
  | nil => simp [sameFields]
  | cons field rest ih =>
    obtain ⟨key, v⟩ := field
    rw [sameFields, Bool.and_eq_true, ih, List.forall_mem_cons]
    refine and_congr_left fun _ => ?_
    cases Fields.get? key other <;> simp

lemma sameItems_symm {items other : List Json}
    (each : ∀ v ∈ items, ∀ w, v.same w → w.same v) (same : sameItems items other) :
    sameItems other items := by
  induction items generalizing other with
  | nil =>
    cases other with
    | nil => rfl
    | cons w other => simp [sameItems] at same
  | cons v items ih =>
    cases other with
    | nil => simp [sameItems] at same
    | cons w other =>
      rw [sameItems, Bool.and_eq_true] at same ⊢
      constructor
      · exact each v List.mem_cons_self w same.1
      · exact ih (fun u mem => each u (List.mem_cons_of_mem _ mem)) same.2

/-- Objects with the same number of fields are equal both ways, when the first has no key twice: it
has every key of the second one then. -/
lemma sameFields_symm {fields other : List (String × Json)} (keys : (Fields.names fields).Nodup)
    (each : ∀ v ∈ fields.map Prod.snd, ∀ w, v.same w → w.same v)
    (length : fields.length = other.length) (same : sameFields fields other) :
    sameFields other fields := by
  rw [sameFields_iff] at same ⊢
  have subset : Fields.names fields ⊆ Fields.names other := by
    intro name mem
    obtain ⟨field, inside, rfl⟩ := List.mem_map.mp mem
    obtain ⟨v, found, -⟩ := same field inside
    exact List.mem_map.mpr ⟨_, Fields.mem_of_get? found, rfl⟩
  have perm : (Fields.names fields).Perm (Fields.names other) :=
    (keys.subperm subset).perm_of_length_le (by simp [Fields.names, length])
  rintro ⟨key, w⟩ mem
  obtain ⟨⟨key', v⟩, inside, rfl⟩ :=
    List.mem_map.mp (perm.mem_iff.mpr (List.mem_map.mpr ⟨_, mem, rfl⟩))
  obtain ⟨w', found, equal⟩ := same _ inside
  have one : w' = w := by
    rw [Fields.get?_of_mem (perm.nodup_iff.mp keys) mem] at found
    exact (Option.some.inj found).symm
  subst one
  exact ⟨v, Fields.get?_of_mem keys inside, each v (List.mem_map.mpr ⟨_, inside, rfl⟩) _ equal⟩

lemma same_symm (v : Json) : v.Keyed → ∀ w, v.same w → w.same v := by
  induction v using Json.induct with
  | step v ih =>
    rintro ⟨keys, parts⟩ w same
    have each (part : Json) (mem : part ∈ v.parts) (w : Json) : part.same w → w.same part :=
      ih part mem (parts part mem) w
    cases v <;> cases w <;> simp only [Json.same, Bool.false_eq_true, Bool.and_eq_true,
      beq_iff_eq] at same ⊢
    case bool.bool => exact same.symm
    case string.string => exact same.symm
    case number.number n m =>
      cases n <;> cases m <;> simp only [Number.same, Double.same, Bool.false_eq_true,
        beq_iff_eq] at same ⊢ <;> exact same.symm
    case array.array items other => exact sameItems_symm each same
    case object.object fields other =>
      exact ⟨same.1.symm, sameFields_symm (keys fields rfl) each same.1 same.2⟩

end Json

namespace TypeScript

namespace TypeExpr

/-- Whether something holds of a type at every depth. -/
inductive Throughout (P : TypeExpr → Prop) : TypeExpr → Prop where
  | mk {t : TypeExpr} (here : P t) (parts : ∀ part ∈ t.parts, Throughout P part) : Throughout P t

variable {P : TypeExpr → Prop} {t : TypeExpr} {types members : List TypeExpr}

lemma Throughout.here (h : t.Throughout P) : P t := by
  cases h with
  | mk here _ => exact here

lemma Throughout.part (h : t.Throughout P) {part : TypeExpr} (mem : part ∈ t.parts) :
    part.Throughout P := by
  cases h with
  | mk _ parts => exact parts part mem

lemma Throughout.bare (h : t.Throughout P) : t.bare.Throughout P := by
  induction h with
  | @mk t here parts ih =>
    cases t with
    | documented comment inner => exact ih inner (List.mem_singleton_self _)
    | _ => exact .mk here parts

/-- Whether the literals in a type are values without repeated keys. -/
def Keyed (t : TypeExpr) : Prop := t.Throughout fun part => ∀ v, part = literal v → v.Keyed

mutual

lemma same_symm : ∀ a b : TypeExpr, a.Keyed → same a b → same b a
  | keyword _, b, _, h => by
    cases b <;> simp only [same, Bool.false_eq_true, beq_iff_eq] at h ⊢
    exact h.symm
  | literal v, b, keyed, h => by
    cases b <;> simp only [same, Bool.false_eq_true] at h ⊢
    exact Json.same_symm v (keyed.here v rfl) _ h
  | reference _, b, _, h => by
    cases b <;> simp only [same, Bool.false_eq_true, beq_iff_eq] at h ⊢
    exact h.symm
  | array a, b, keyed, h => by
    cases b <;> simp only [same, Bool.false_eq_true] at h ⊢
    exact same_symm a _ (keyed.part (by simp [parts])) h
  | tuple as none, b, keyed, h => by
    cases b with
    | tuple bs s =>
      cases s with
      | none =>
        simp only [same, Bool.and_true] at h ⊢
        exact sameList_symm as bs (fun a mem => keyed.part (by simp [parts, mem])) h
      | some s => simp [same] at h
    | _ => simp [same] at h
  | tuple as (some r), b, keyed, h => by
    cases b with
    | tuple bs s =>
      cases s with
      | none => simp [same] at h
      | some s =>
        simp only [same, Bool.and_eq_true] at h ⊢
        exact ⟨sameList_symm as bs (fun a mem => keyed.part (by simp [parts, mem])) h.1,
          same_symm r s (keyed.part (by simp [parts])) h.2⟩
    | _ => simp [same] at h
  | object as, b, keyed, h => by
    cases b <;> simp only [same, Bool.false_eq_true] at h ⊢
    exact sameMembers_symm as _ (fun a mem => keyed.part (List.mem_map_of_mem mem)) h
  | record a x, b, keyed, h => by
    cases b <;> simp only [same, Bool.false_eq_true, Bool.and_eq_true] at h ⊢
    exact ⟨same_symm a _ (keyed.part (by simp [parts])) h.1,
      same_symm x _ (keyed.part (by simp [parts])) h.2⟩
  | union as, b, keyed, h => by
    cases b <;> simp only [same, Bool.false_eq_true] at h ⊢
    exact sameList_symm as _ (fun a mem => keyed.part mem) h
  | intersection as, b, keyed, h => by
    cases b <;> simp only [same, Bool.false_eq_true] at h ⊢
    exact sameList_symm as _ (fun a mem => keyed.part mem) h
  | function as x, b, keyed, h => by
    cases b <;> simp only [same, Bool.false_eq_true, Bool.and_eq_true] at h ⊢
    exact ⟨sameParams_symm as _ (fun a mem =>
        keyed.part (List.mem_append_left _ (List.mem_map_of_mem mem))) h.1,
      same_symm x _ (keyed.part (by simp [parts])) h.2⟩
  | documented _ a, b, keyed, h => by
    cases b <;> simp only [same, Bool.false_eq_true, Bool.and_eq_true, beq_iff_eq] at h ⊢
    exact ⟨h.1.symm, same_symm a _ (keyed.part (by simp [parts])) h.2⟩
termination_by structural a => a

lemma sameList_symm :
    ∀ as bs : List TypeExpr, (∀ a ∈ as, a.Keyed) → sameList as bs → sameList bs as
  | [], bs, _, h => by cases bs <;> simp_all [sameList]
  | a :: as, bs, keyed, h => by
    cases bs with
    | nil => simp [sameList] at h
    | cons b bs =>
      simp only [sameList, Bool.and_eq_true] at h ⊢
      exact ⟨same_symm a b (keyed a List.mem_cons_self) h.1,
        sameList_symm as bs (fun c mem => keyed c (List.mem_cons_of_mem _ mem)) h.2⟩
termination_by structural as => as

lemma sameMembers_symm : ∀ as bs : List (Member TypeExpr), (∀ a ∈ as, a.type.Keyed) →
    sameMembers as bs → sameMembers bs as
  | [], bs, _, h => by cases bs <;> simp_all [sameMembers]
  | ⟨_, a, _⟩ :: as, bs, keyed, h => by
    cases bs with
    | nil => simp [sameMembers] at h
    | cons b bs =>
      simp only [sameMembers, Bool.and_eq_true, beq_iff_eq] at h ⊢
      obtain ⟨⟨⟨name, type⟩, optional⟩, rest⟩ := h
      exact ⟨⟨⟨name.symm, same_symm a _ (keyed _ List.mem_cons_self) type⟩, optional.symm⟩,
        sameMembers_symm as bs (fun c mem => keyed c (List.mem_cons_of_mem _ mem)) rest⟩
termination_by structural as => as

lemma sameParams_symm : ∀ as bs : List (Param TypeExpr), (∀ a ∈ as, a.type.Keyed) →
    sameParams as bs → sameParams bs as
  | [], bs, _, h => by cases bs <;> simp_all [sameParams]
  | ⟨_, a, _⟩ :: as, bs, keyed, h => by
    cases bs with
    | nil => simp [sameParams] at h
    | cons b bs =>
      simp only [sameParams, Bool.and_eq_true, beq_iff_eq] at h ⊢
      obtain ⟨⟨⟨name, type⟩, rest⟩, more⟩ := h
      exact ⟨⟨⟨name.symm, same_symm a _ (keyed _ List.mem_cons_self) type⟩, rest.symm⟩,
        sameParams_symm as bs (fun c mem => keyed c (List.mem_cons_of_mem _ mem)) more⟩
termination_by structural as => as

end

/-- What is asked of a type by itself. A member differs from every later one, and the later one from
it. -/
structure Normal (t : TypeExpr) : Prop where
  several : ∀ members, t = union members → 2 ≤ members.length
  flat : ∀ members, t = union members → ∀ m ∈ members, ∀ inner, m.bare ≠ union inner
  different : ∀ members, t = union members →
    members.Pairwise fun a b => ¬ a.same b ∧ (b.Keyed → ¬ b.same a)
  sides : ∀ members, t = intersection members → members.length = 2
  single : ∀ comment inner, t = documented comment inner → inner.comment? = none
  named : ∀ params returns, t = function params returns → (params.map Param.name).Nodup

/-- The types of which nothing is asked. -/
def isSimple : TypeExpr → Bool
  | union _ => false
  | intersection _ => false
  | function .. => false
  | documented .. => false
  | _ => true

/-- What is left to ask of a union. -/
lemma Normal.ofUnion {members : List TypeExpr} (several : 2 ≤ members.length)
    (flat : ∀ m ∈ members, ∀ inner, m.bare ≠ .union inner)
    (different : members.Pairwise fun a b => ¬ a.same b ∧ (b.Keyed → ¬ b.same a)) :
    (TypeExpr.union members).Normal := by
  constructor
  case several | flat | different =>
    intro _ same
    obtain rfl := union.inj same
    assumption
  all_goals
    intros
    contradiction

lemma Normal.simple (simple : t.isSimple) : t.Normal := by
  cases t with
  | union _ | intersection _ | function _ _ | documented _ _ => cases simple
  | _ => exact ⟨nofun, nofun, nofun, nofun, nofun, nofun⟩

lemma Throughout.simple (simple : t.isSimple)
    (parts : ∀ part ∈ t.parts, part.Throughout Normal) : t.Throughout Normal :=
  .mk (.simple simple) parts

lemma Throughout.leaf (simple : t.isSimple) (none : t.parts = []) : t.Throughout Normal :=
  .simple simple (by simp [none])

lemma normal_function {params : List (Param TypeExpr)} {returns : TypeExpr}
    (names : (params.map Param.name).Nodup)
    (types : ∀ t ∈ params.map Param.type, t.Throughout Normal)
    (returned : returns.Throughout Normal) : (function params returns).Throughout Normal := by
  refine .mk ⟨nofun, nofun, nofun, nofun, nofun, ?_⟩ ?_
  · rintro _ _ same
    obtain ⟨rfl, -⟩ := function.inj same
    exact names
  · exact List.forall_mem_append.mpr ⟨types, List.forall_mem_singleton.mpr returned⟩

lemma normal_intersection {left right : TypeExpr} (first : left.Throughout Normal)
    (second : right.Throughout Normal) : (intersection [left, right]).Throughout Normal := by
  refine .mk ⟨nofun, nofun, nofun, ?_, nofun, nofun⟩ ?_
  · rintro _ same
    obtain rfl := intersection.inj same
    rfl
  · exact List.forall_mem_cons.mpr ⟨first, List.forall_mem_singleton.mpr second⟩

/-- A comment takes the place of the one that was there, so it stands on none. -/
lemma Throughout.withComment (normal : t.Throughout Normal) (comment : String) :
    (t.withComment comment).Throughout Normal := by
  have documented {inner : TypeExpr} (bare : inner.comment? = none)
      (normal : inner.Throughout Normal) : (documented comment inner).Throughout Normal := by
    refine .mk ⟨nofun, nofun, nofun, nofun, ?_, nofun⟩ ?_
    · rintro _ _ same
      obtain ⟨-, rfl⟩ := documented.inj same
      exact bare
    · intro part mem
      obtain rfl := List.mem_singleton.mp mem
      exact normal
  cases t with
  | documented old inner =>
    exact documented (normal.here.single old inner rfl) (normal.part (List.mem_singleton_self _))
  | _ => exact documented rfl normal

/-- What a type in normal form brings into a union is in normal form, and no union. -/
lemma normal_of_mem_unionParts (normal : t.Throughout Normal) {part : TypeExpr}
    (mem : part ∈ t.unionParts) : part.Throughout Normal ∧ ∀ inner, part.bare ≠ union inner := by
  have bare := normal.bare
  rw [unionParts] at mem
  split at mem
  · rename_i members isUnion
    rw [isUnion] at bare
    exact ⟨bare.part mem, bare.here.flat members rfl part mem⟩
  · rename_i other
    obtain rfl := List.mem_singleton.mp mem
    exact ⟨normal, other⟩

/-- Members are kept in a list of which each differs from those after it. -/
lemma distinct_spec (types : List TypeExpr) :
    (distinct types).Pairwise (fun a b => ¬ a.same b) ∧ distinct types ⊆ types := by
  suffices h : ∀ found : List TypeExpr, found.Pairwise (fun a b => ¬ a.same b) →
      (types.foldl (fun found t => if found.any (·.same t) then found else found ++ [t])
        found).Pairwise (fun a b => ¬ a.same b) ∧
      types.foldl (fun found t => if found.any (·.same t) then found else found ++ [t]) found ⊆
        found ++ types from h [] .nil
  induction types with
  | nil =>
    intro found apart
    exact ⟨apart, by simp⟩
  | cons t types ih =>
    intro found apart
    rw [List.foldl_cons]
    by_cases repeated : found.any (·.same t)
    · rw [if_pos repeated]
      obtain ⟨kept, subset⟩ := ih found apart
      refine ⟨kept, fun a mem => ?_⟩
      rcases List.mem_append.mp (subset mem) with mem | mem
      · exact List.mem_append_left _ mem
      · exact List.mem_append_right _ (List.mem_cons_of_mem _ mem)
    · rw [if_neg repeated]
      have fresh : ∀ a ∈ found, ¬ a.same t := by
        intro a mem same
        exact repeated (List.any_eq_true.mpr ⟨a, mem, same⟩)
      obtain ⟨kept, subset⟩ := ih (found ++ [t]) (by
        rw [List.pairwise_append]
        refine ⟨apart, List.pairwise_singleton _ _, ?_⟩
        rintro a mem b last
        obtain rfl := List.mem_singleton.mp last
        exact fresh a mem)
      refine ⟨kept, ?_⟩
      rwa [List.append_assoc, List.singleton_append] at subset

/-- The union of types in normal form is in normal form. -/
lemma normal_unionOf (each : ∀ t ∈ types, t.Throughout Normal) :
    (unionOf types).Throughout Normal := by
  obtain ⟨apart, subset⟩ := distinct_spec (types.flatMap unionParts)
  have known : ∀ part ∈ distinct (types.flatMap unionParts),
      part.Throughout Normal ∧ ∀ inner, part.bare ≠ union inner := by
    intro part mem
    obtain ⟨t, inside, mem⟩ := List.mem_flatMap.mp (subset mem)
    exact normal_of_mem_unionParts (each t inside) mem
  rw [unionOf]
  generalize distinct (types.flatMap unionParts) = parts at apart known
  rcases parts with _ | ⟨a, _ | ⟨b, more⟩⟩
  · exact .leaf rfl rfl
  · exact (known a (List.mem_singleton_self a)).1
  · refine .mk (.ofUnion ?_ (fun m mem => (known m mem).2) ?_) fun part mem => (known part mem).1
    · simp
    · exact apart.imp fun different =>
        ⟨different, fun keyed same => different (same_symm _ _ keyed same)⟩

/-- A type in normal form, or one word beside it. -/
lemma normal_orKeyword {t : TypeExpr} (normal : t.Throughout Normal) (word : Keyword) :
    (unionOf [t, keyword word]).Throughout Normal := by
  apply normal_unionOf
  intro part mem
  rcases List.mem_pair.mp mem with rfl | rfl
  · exact normal
  · exact .leaf rfl rfl

end TypeExpr

section Walks

open Depicter TypeExpr

variable {setting : Setting} {style : OptionalStyle} {table : AliasTable TypeExpr}
  {direction : Direction} {t : TypeExpr}

lemma normal_annotate {notes : Notes} (normal : t.Throughout Normal) :
    (annotate notes t).Throughout Normal := by
  rw [annotate]
  split
  · exact normal.withComment _
  · exact normal

lemma normal_transformed {node : Node} {input : TypeExpr}
    (h : (depicter style).replay setting table (transformed node input) = .ok t) :
    t.Throughout Normal := by
  rw [transformed] at h
  split at h
  · obtain rfl := Except.ok.inj h
    exact .leaf rfl rfl
  · obtain ⟨result, -, h⟩ := replay_bind_ok h
    obtain rfl := Except.ok.inj h
    rcases result with _ | primitive
    · exact .leaf rfl rfl
    · cases primitive <;> exact .leaf rfl rfl

lemma normal_walkItems {nodes : List Node} {types : List TypeExpr}
    (each : ∀ node ∈ nodes, ∀ t, Replays setting style table direction node t →
      t.Throughout Normal)
    (h : (depicter style).replay setting table (walkItems style nodes direction) = .ok types) :
    ∀ t ∈ types, t.Throughout Normal := by
  intro t mem
  obtain ⟨node, inside, walked⟩ := exists_of_forall₂ (replay_walkItems h).flip mem
  exact each node inside t walked

lemma normal_walkMembers {shape : List (String × Node)} {members : List (Member TypeExpr)}
    (each : ∀ node ∈ shape.map Prod.snd, ∀ t, Replays setting style table direction node t →
      t.Throughout Normal)
    (h : (depicter style).replay setting table (walkMembers style shape direction) = .ok members) :
    ∀ t ∈ members.map Member.type, t.Throughout Normal := by
  induction shape generalizing members with
  | nil =>
    obtain rfl := Except.ok.inj h
    exact nofun
  | cons field shape ih =>
    obtain ⟨optional, -, h⟩ := replay_bind_ok h
    obtain ⟨type, walked, h⟩ := replay_bind_ok h
    obtain ⟨more, rest, h⟩ := replay_bind_ok h
    obtain rfl := Except.ok.inj h
    refine List.forall_mem_cons.mpr ⟨each _ List.mem_cons_self _ walked, ?_⟩
    exact ih (fun node mem => each node (List.mem_cons_of_mem _ mem)) rest

lemma paramName_cases (position : Nat) (isLast : Bool) (node : Node) :
    paramName position isLast node = "p" ++ toString position ∨
      isLast = true ∧ paramName position isLast node = "cb" := by
  rw [paramName]
  split
  · rename_i named
    exact .inr ⟨(Bool.and_eq_true_iff.mp named).2, rfl⟩
  · exact .inl rfl

/-- The parameters of arguments from a position on. Their names count the positions, and only the
last one may be called otherwise. -/
lemma normal_walkParams {nodes : List Node} {position : Nat} {params : List (Param TypeExpr)}
    (each : ∀ node ∈ nodes, ∀ t,
      Replays setting style table (paramDirection direction node) node t → t.Throughout Normal)
    (h : (depicter style).replay setting table (walkParams style nodes position direction) =
      .ok params) :
    (∀ t ∈ params.map Param.type, t.Throughout Normal) ∧ (params.map Param.name).Nodup ∧
      ∀ name ∈ params.map Param.name,
        name = "cb" ∨ ∃ i, position ≤ i ∧ name = "p" ++ toString i := by
  induction nodes generalizing position params with
  | nil =>
    obtain rfl := Except.ok.inj h
    exact ⟨nofun, List.nodup_nil, nofun⟩
  | cons node nodes ih =>
    obtain ⟨type, walked, h⟩ := replay_bind_ok h
    obtain ⟨more, rest, h⟩ := replay_bind_ok h
    obtain rfl := Except.ok.inj h
    obtain ⟨types, nodup, names⟩ :=
      ih (fun other mem => each other (List.mem_cons_of_mem _ mem)) rest
    refine ⟨List.forall_mem_cons.mpr ⟨each node List.mem_cons_self type walked, types⟩,
      List.nodup_cons.mpr ⟨?_, nodup⟩, List.forall_mem_cons.mpr ⟨?_, ?_⟩⟩
    · intro mem
      rcases paramName_cases position nodes.isEmpty node with counted | ⟨last, -⟩
      · rw [counted] at mem
        rcases names _ mem with same | ⟨i, above, same⟩
        · exact positionName_ne position (by decide) same
        · have := positionName_injective same
          omega
      · obtain rfl := List.isEmpty_iff.mp last
        obtain rfl := Except.ok.inj rest
        cases mem
    · rcases paramName_cases position nodes.isEmpty node with counted | ⟨-, last⟩
      · exact .inr ⟨position, le_refl _, counted⟩
      · exact .inl last
    · intro name mem
      rcases names name mem with last | ⟨i, above, counted⟩
      · exact .inl last
      · exact .inr ⟨i, by omega, counted⟩

/-- The type of a handler, when those of its arguments and of what it returns are in normal form.
The items of a tuple are its parameters, and further arguments come after them under another
name. -/
lemma normal_handler {args returns : Node} {notes : Notes}
    (argument : ∀ part ∈ args.argumentParts direction, ∀ t,
      Replays setting style table part.2 part.1 t → t.Throughout Normal)
    (returned : ∀ t, Replays setting style table direction returns t → t.Throughout Normal)
    (h : Replays setting style table direction (.mk (.function args returns) notes) t) :
    t.Throughout Normal := by
  unfold Replays walk at h
  obtain ⟨t, drawn, h⟩ := replay_bind_ok h
  obtain rfl := Except.ok.inj h
  refine normal_annotate ?_
  have finish (params : List (Param TypeExpr)) (names : (params.map Param.name).Nodup)
      (types : ∀ t ∈ params.map Param.type, t.Throughout Normal)
      (drawn : (depicter style).replay setting table (do
        let returns ← walk style returns direction
        pure (TypeExpr.function params returns)) = .ok t) : t.Throughout Normal := by
    obtain ⟨type, walked, drawn⟩ := replay_bind_ok drawn
    obtain rfl := Except.ok.inj drawn
    exact normal_function names types (returned type walked)
  obtain ⟨argsKind, argsNotes⟩ := args
  cases argsKind with
  | tuple items rest =>
    obtain ⟨params, walked, drawn⟩ := replay_bind_ok drawn
    obtain ⟨types, nodup, names⟩ := normal_walkParams (fun node mem =>
      argument _ (List.mem_append_left _ (List.mem_map_of_mem mem))) walked
    cases rest with
    | none => exact finish (params ++ []) (by simpa using nodup) (by simpa using types) drawn
    | some rest =>
      obtain ⟨further, walked, drawn⟩ := replay_bind_ok drawn
      refine finish (params ++ [variadic further]) ?_ ?_ drawn
      · rw [List.map_append, List.nodup_append]
        refine ⟨nodup, List.nodup_singleton _, ?_⟩
        intro name mem other inside same
        have rest : name = "rest" := same.trans (List.mem_singleton.mp inside)
        rcases names name mem with cb | ⟨i, -, counted⟩
        · rw [rest] at cb
          exact absurd cb (by decide)
        · exact positionName_ne i (by decide) (counted.symm.trans rest)
      · rw [List.map_append]
        refine List.forall_mem_append.mpr ⟨types, List.forall_mem_singleton.mpr ?_⟩
        exact argument _ (List.mem_append_right _ (List.mem_singleton_self _)) _ walked
  | _ =>
    obtain ⟨type, walked, drawn⟩ := replay_bind_ok drawn
    exact finish [⟨_, type, false⟩] (List.nodup_singleton _)
      (List.forall_mem_singleton.mpr (argument _ (List.mem_singleton_self _) _ walked)) drawn

/-- The type of a layer, when those of its parts are in normal form. -/
lemma normal_layer {kind : Kind Node} {notes : Notes}
    (each : ∀ part ∈ kind.parts direction, ∀ t, Replays setting style table part.2 part.1 t →
      t.Throughout Normal)
    (h : Replays setting style table direction (.mk kind notes) t) : t.Throughout Normal := by
  have child {node : Node} {t : TypeExpr} (mem : (node, direction) ∈ kind.parts direction)
      (h : Replays setting style table direction node t) : t.Throughout Normal :=
    each _ mem t h
  by_cases handler : ∃ args returns, kind = .function args returns
  · obtain ⟨args, returns, rfl⟩ := handler
    exact normal_handler (fun part mem => each part (List.mem_append_left _ mem))
      (fun _ => child (List.mem_append_right _ (List.mem_singleton_self _))) h
  unfold Replays walk at h
  obtain ⟨t, drawn, h⟩ := replay_bind_ok h
  obtain rfl := Except.ok.inj h
  refine normal_annotate ?_
  cases kind with
  | function args returns => exact absurd ⟨args, returns, rfl⟩ handler
  | string _ | number _ | bigint _ | boolean _ | date _ | null | any | unknown | void
  | literal _ =>
    obtain rfl := Except.ok.inj drawn
    exact .leaf rfl rfl
  | choice values =>
    obtain rfl := Except.ok.inj drawn
    refine normal_unionOf ?_
    intro t mem
    obtain ⟨value, -, rfl⟩ := List.mem_map.mp mem
    exact .leaf rfl rfl
  | array item _ _ =>
    obtain ⟨t, walked, drawn⟩ := replay_bind_ok drawn
    obtain rfl := Except.ok.inj drawn
    refine .simple rfl ?_
    intro part mem
    obtain rfl := List.mem_singleton.mp mem
    exact child (by simp [Kind.parts, Kind.children]) walked
  | tuple items rest =>
    obtain ⟨types, walked, drawn⟩ := replay_bind_ok drawn
    have normal := normal_walkItems
      (fun node mem t => child (by simp [Kind.parts, Kind.children, mem])) walked
    cases rest with
    | none =>
      obtain rfl := Except.ok.inj drawn
      exact .simple rfl fun part mem => normal part (by simpa [parts] using mem)
    | some rest =>
      obtain ⟨further, walked, drawn⟩ := replay_bind_ok drawn
      obtain rfl := Except.ok.inj drawn
      refine .simple rfl ?_
      intro part mem
      rcases List.mem_append.mp mem with mem | mem
      · exact normal part mem
      · obtain rfl := List.mem_singleton.mp mem
        exact child (by simp [Kind.parts, Kind.children]) walked
  | object shape =>
    obtain ⟨members, walked, drawn⟩ := replay_bind_ok drawn
    obtain rfl := Except.ok.inj drawn
    exact .simple rfl (normal_walkMembers
      (fun node mem t => child (List.mem_map_of_mem mem)) walked)
  | record key value =>
    obtain ⟨k, first, drawn⟩ := replay_bind_ok drawn
    obtain ⟨v, second, drawn⟩ := replay_bind_ok drawn
    obtain rfl := Except.ok.inj drawn
    refine .simple rfl ?_
    intro part mem
    rcases List.mem_pair.mp mem with rfl | rfl
    · exact child (by simp [Kind.parts, Kind.children]) first
    · exact child (by simp [Kind.parts, Kind.children]) second
  | union options | taggedUnion _ options =>
    obtain ⟨types, walked, drawn⟩ := replay_bind_ok drawn
    obtain rfl := Except.ok.inj drawn
    exact normal_unionOf (normal_walkItems
      (fun node mem t => child (List.mem_map_of_mem mem)) walked)
  | intersection left right =>
    obtain ⟨l, first, drawn⟩ := replay_bind_ok drawn
    obtain ⟨r, second, drawn⟩ := replay_bind_ok drawn
    obtain rfl := Except.ok.inj drawn
    exact normal_intersection (child (by simp [Kind.parts, Kind.children]) first)
      (child (by simp [Kind.parts, Kind.children]) second)
  | optional inner =>
    obtain ⟨t, walked, drawn⟩ := replay_bind_ok drawn
    obtain rfl := Except.ok.inj drawn
    have normal := child (List.mem_singleton_self _) walked
    split
    · exact normal_orKeyword normal _
    · exact normal
  | nullable inner =>
    obtain ⟨t, walked, drawn⟩ := replay_bind_ok drawn
    obtain rfl := Except.ok.inj drawn
    have normal := child (List.mem_singleton_self _) walked
    exact normal_orKeyword normal _
  | default inner _ | fallback inner _ | branded inner _ | readonly inner | preprocess inner _ =>
    exact child (List.mem_singleton_self _) drawn
  | effect inner effect =>
    obtain ⟨input, walked, drawn⟩ := replay_bind_ok drawn
    have normal := child (List.mem_singleton_self _) walked
    cases effect with
    | refine _ =>
      obtain rfl := Except.ok.inj drawn
      exact normal
    | transform _ =>
      cases direction with
      | input =>
        obtain rfl := Except.ok.inj drawn
        exact normal
      | output => exact normal_transformed drawn
  | pipeline input output =>
    cases direction with
    | input => exact child (List.mem_singleton_self _) drawn
    | output => exact child (List.mem_singleton_self _) drawn
  | reference key target =>
    obtain ⟨name, -, drawn⟩ := replay_refer_ok drawn
    obtain rfl := Except.ok.inj drawn
    exact .leaf rfl rfl
  | custom name => cases drawn

/-- Types are in normal form, by induction on the size of the node: the items of the arguments of a
function are walked without the tuple that holds them. -/
lemma normal_of_replays {node : Node} (h : Replays setting style table direction node t) :
    t.Throughout Normal := by
  induction size : sizeOf node using Nat.strong_induction_on generalizing node direction t with
  | h n ih =>
    subst size
    obtain ⟨kind, notes⟩ := node
    refine normal_layer ?_ h
    intro part mem t walked
    exact ih _ ((Kind.near_of_mem_parts mem).sizeOf_lt notes) walked rfl

end Walks

/-- The results of any calls, whether earlier ones succeed or not, and the definitions of all
aliases are in normal form: at every depth, a union has two members or more, none of which is a
union under its comments and no two of which are equal; an intersection has two sides; no comment
stands on a comment; and the parameters of a function have different names. -/
theorem generated_types_are_normal (setting : Setting) (style : OptionalStyle)
    (calls : List (Node × Direction)) (t : TypeExpr)
    (produces : (depicter style).Produces setting calls t) : t.Throughout TypeExpr.Normal := by
  have closed : setting.Closed fun _ => True := fun _ _ _ _ => trivial
  rcases produces.replayed (uniform style) closed (fun _ _ _ _ => trivial) with
    rfl | ⟨final, node, direction, -, replayed⟩
  · exact .leaf rfl rfl
  · exact normal_of_replays replayed

/-- Colours are listed, or they have a name that may be missing. -/
def easelSetting : Setting where
  library := { definitions := [("Colour", .of (.union [
    .mk (.choice ["red", "blue"]) { description := some "Primary" },
    .of (.nullable (.of (.choice ["blue", "green"])))]))] }
  fingerprint node := node.kindName

/-- A painter is told colours and answers with the ones that were missing. -/
def painter : Node :=
  .of (.function
    (.of (.tuple [
      .mk (.optional (.of (.reference "colour" "Colour"))) { description := some "Ground" },
      .of (.function (.of (.tuple [.of (.reference "colour" "Colour")] none)) (.of .void))]
      (some (.of (.reference "colour" "Colour"))))) (.of .void))

/-- The union of both, without the colour that is in both. -/
def colours : TypeExpr :=
  .union [.literal (.string "red"), .literal (.string "blue"), .literal (.string "green"),
    .keyword .null]

theorem easel_types_are_normal :
    (∃ params, (depicter {}).Produces easelSetting [(painter, .input)]
        (.function params (.keyword .void)) ∧
      params.map Param.name = ["p0", "cb", "rest"] ∧
      (TypeExpr.function params (.keyword .void)).Throughout TypeExpr.Normal) ∧
    (depicter {}).Produces easelSetting [(painter, .input)] colours ∧
    colours.Throughout TypeExpr.Normal := by
  have normal := generated_types_are_normal easelSetting {} [(painter, .input)]
  have declared : (depicter {}).Produces easelSetting [(painter, .input)] colours :=
    .inr ⟨"Type1", List.mem_cons_self⟩
  exact ⟨⟨_, .inl List.mem_cons_self, rfl, normal _ (.inl List.mem_cons_self)⟩, declared,
    normal _ declared⟩

end TypeScript

end EventContracts
