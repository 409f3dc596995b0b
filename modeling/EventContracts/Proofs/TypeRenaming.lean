import EventContracts.TypeScript.Depiction
import Mathlib.Logic.Function.Basic

/-! Other names for the references in a type. Equality of types, and with it the union of types, is
not changed by a renaming that keeps different names different. -/

namespace EventContracts.TypeScript.TypeExpr

mutual

/-- The same type with other names for its references. -/
def rename (f : String → String) : TypeExpr → TypeExpr
  | keyword word => keyword word
  | literal value => literal value
  | reference name => reference (f name)
  | array item => array (rename f item)
  | tuple items rest => tuple (renameList f items) (match rest with
    | some rest => some (rename f rest)
    | none => none)
  | object members => object (renameMembers f members)
  | record key value => record (rename f key) (rename f value)
  | union members => union (renameList f members)
  | intersection members => intersection (renameList f members)
  | function params returns => function (renameParams f params) (rename f returns)
  | documented comment inner => documented comment (rename f inner)
termination_by structural t => t

/-- The types of a list with other names for their references. -/
def renameList (f : String → String) : List TypeExpr → List TypeExpr
  | [] => []
  | t :: ts => rename f t :: renameList f ts
termination_by structural ts => ts

/-- The members of an object type with other names for their references. -/
def renameMembers (f : String → String) : List (Member TypeExpr) → List (Member TypeExpr)
  | [] => []
  | ⟨name, type, optional⟩ :: members =>
    ⟨name, rename f type, optional⟩ :: renameMembers f members
termination_by structural members => members

/-- The parameters of a function type with other names for their references. -/
def renameParams (f : String → String) : List (Param TypeExpr) → List (Param TypeExpr)
  | [] => []
  | ⟨name, type, rest⟩ :: params => ⟨name, rename f type, rest⟩ :: renameParams f params
termination_by structural params => params

end

variable {f : String → String}

@[simp] lemma rename_tuple (items : List TypeExpr) (rest : Option TypeExpr) :
    rename f (tuple items rest) = tuple (renameList f items) (rest.map (rename f)) := by
  cases rest <;> rfl

lemma renameList_eq_map (ts : List TypeExpr) : renameList f ts = ts.map (rename f) := by
  induction ts with
  | nil => rfl
  | cons t ts ih => rw [renameList, ih]; rfl

lemma renameParams_append (params more : List (Param TypeExpr)) :
    renameParams f (params ++ more) = renameParams f params ++ renameParams f more := by
  induction params with
  | nil => rfl
  | cons param params ih => simp [renameParams, ih]

mutual

lemma same_rename (inj : Function.Injective f) :
    ∀ a b : TypeExpr, same (rename f a) (rename f b) = same a b
  | keyword _, b => by cases b <;> simp [rename, same]
  | literal _, b => by cases b <;> simp [rename, same]
  | reference _, b => by cases b <;> simp [rename, same, inj.eq_iff]
  | array a, b => by cases b <;> simp [rename, same, same_rename inj a]
  | tuple as none, b => by
    cases b with
    | tuple bs s => cases s <;> simp [rename, same, sameList_rename inj as]
    | _ => simp [rename, same]
  | tuple as (some r), b => by
    cases b with
    | tuple bs s => cases s <;> simp [rename, same, sameList_rename inj as, same_rename inj r]
    | _ => simp [rename, same]
  | object as, b => by cases b <;> simp [rename, same, sameMembers_rename inj as]
  | record a x, b => by cases b <;> simp [rename, same, same_rename inj a, same_rename inj x]
  | union as, b => by cases b <;> simp [rename, same, sameList_rename inj as]
  | intersection as, b => by cases b <;> simp [rename, same, sameList_rename inj as]
  | function as x, b => by
    cases b <;> simp [rename, same, sameParams_rename inj as, same_rename inj x]
  | documented _ a, b => by cases b <;> simp [rename, same, same_rename inj a]
termination_by structural a => a

lemma sameList_rename (inj : Function.Injective f) :
    ∀ as bs : List TypeExpr, sameList (renameList f as) (renameList f bs) = sameList as bs
  | [], bs => by cases bs <;> simp [renameList, sameList]
  | a :: as, bs => by
    cases bs <;> simp [renameList, sameList, same_rename inj a, sameList_rename inj as]
termination_by structural as => as

lemma sameMembers_rename (inj : Function.Injective f) :
    ∀ as bs : List (Member TypeExpr),
      sameMembers (renameMembers f as) (renameMembers f bs) = sameMembers as bs
  | [], bs => by cases bs <;> simp [renameMembers, sameMembers]
  | ⟨_, a, _⟩ :: as, bs => by
    cases bs <;> simp [renameMembers, sameMembers, same_rename inj a, sameMembers_rename inj as]
termination_by structural as => as

lemma sameParams_rename (inj : Function.Injective f) :
    ∀ as bs : List (Param TypeExpr),
      sameParams (renameParams f as) (renameParams f bs) = sameParams as bs
  | [], bs => by cases bs <;> simp [renameParams, sameParams]
  | ⟨_, a, _⟩ :: as, bs => by
    cases bs <;> simp [renameParams, sameParams, same_rename inj a, sameParams_rename inj as]
termination_by structural as => as

end

lemma bare_rename (t : TypeExpr) : (rename f t).bare = rename f t.bare := by
  match t with
  | documented _ inner => exact bare_rename inner
  | tuple items rest => rw [rename_tuple]; simp [bare]
  | keyword _ | literal _ | reference _ | array _ | object _ | record _ _ | union _
  | intersection _ | function _ _ => rfl

lemma withComment_rename (comment : String) (t : TypeExpr) :
    (rename f t).withComment comment = rename f (t.withComment comment) := by
  cases t with
  | tuple items rest => rw [rename_tuple]; simp [withComment, rename]
  | _ => rfl

lemma unionParts_rename (t : TypeExpr) :
    (rename f t).unionParts = t.unionParts.map (rename f) := by
  simp only [unionParts]
  rw [bare_rename]
  cases t.bare with
  | union members => exact renameList_eq_map members
  | tuple items rest => simp
  | _ => rfl

lemma distinct_rename (inj : Function.Injective f) (parts : List TypeExpr) :
    distinct (parts.map (rename f)) = (distinct parts).map (rename f) := by
  suffices h : ∀ found : List TypeExpr,
      (parts.map (rename f)).foldl
          (fun found t => if found.any (·.same t) then found else found ++ [t])
          (found.map (rename f)) =
        (parts.foldl (fun found t => if found.any (·.same t) then found else found ++ [t])
          found).map (rename f) from h []
  induction parts with
  | nil => exact fun found => rfl
  | cons part parts ih =>
    intro found
    simp only [List.map_cons, List.foldl_cons, List.any_map, Function.comp_def, same_rename inj]
    by_cases repeated : found.any (·.same part)
    · rw [if_pos repeated, if_pos repeated]
      exact ih found
    · rw [if_neg repeated, if_neg repeated]
      simpa using ih (found ++ [part])

lemma unionOf_rename (inj : Function.Injective f) (types : List TypeExpr) :
    unionOf (types.map (rename f)) = rename f (unionOf types) := by
  have parts : (types.map (rename f)).flatMap unionParts =
      (types.flatMap unionParts).map (rename f) := by
    simp [List.flatMap_map, List.map_flatMap, unionParts_rename]
  simp only [unionOf]
  rw [parts, distinct_rename inj]
  match distinct (types.flatMap unionParts) with
  | [] => rfl
  | [t] => rfl
  | t :: u :: more => simp [rename, renameList_eq_map]

/-- The types that a type is made of. -/
def parts : TypeExpr → List TypeExpr
  | array item => [item]
  | tuple items rest => items ++ rest.toList
  | object members => members.map Member.type
  | record key value => [key, value]
  | union members => members
  | intersection members => members
  | function params returns => params.map Param.type ++ [returns]
  | documented _ inner => [inner]
  | _ => []

/-- Whether a type mentions a name, at any depth. -/
inductive Mentions (name : String) : TypeExpr → Prop where
  | here : Mentions name (reference name)
  | part {t part : TypeExpr} (mem : part ∈ t.parts) (mentions : Mentions name part) :
      Mentions name t

lemma parts_rename (t : TypeExpr) : (rename f t).parts = t.parts.map (rename f) := by
  have members (ms : List (Member TypeExpr)) :
      (renameMembers f ms).map Member.type = (ms.map Member.type).map (rename f) := by
    induction ms with
    | nil => rfl
    | cons m ms ih => simp [renameMembers, ih]
  have params (ps : List (Param TypeExpr)) :
      (renameParams f ps).map Param.type = (ps.map Param.type).map (rename f) := by
    induction ps with
    | nil => rfl
    | cons p ps ih => simp [renameParams, ih]
  cases t with
  | tuple items rest => cases rest <;> simp [parts, renameList_eq_map]
  | object ms => exact members ms
  | function ps returns => simp [rename, parts, params]
  | union ts => exact renameList_eq_map ts
  | intersection ts => exact renameList_eq_map ts
  | _ => rfl

/-- A renaming that changes nothing in a type keeps every name that the type mentions. -/
lemma Mentions.fixed {name : String} {t : TypeExpr} (h : Mentions name t)
    (same : rename f t = t) : f name = name := by
  induction h with
  | here => exact reference.inj same
  | @part t part mem _ ih =>
    have all : t.parts.map (rename f) = t.parts := by rw [← parts_rename, same]
    exact ih (List.map_inj_left.mp (all.trans (List.map_id _).symm) part mem)

end EventContracts.TypeScript.TypeExpr
