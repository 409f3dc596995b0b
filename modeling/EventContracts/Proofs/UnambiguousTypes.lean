import EventContracts.Proofs.BracketedTypes

/-! Printed types are unambiguous: a type with an operator in it stands in parentheses wherever
another operator could take one of its parts, so each level of the reader finds what was printed for
it. Two types with one text are one type, comments aside. -/

namespace EventContracts.TypeScript.TypeExpr

variable {type : Reader TypeExpr} {fuel n depth : Nat} {chars rest : List Char} {t : TypeExpr}

lemma suffixes_other (other : rest.head? ≠ some '[') : suffixes t rest = (t, rest) := by
  rw [suffixes]
  rintro tail rfl
  exact other rfl

lemma readPostfix_atom (h : readAtom type fuel chars = some (t, rest)) :
    readPostfix type fuel chars = some (suffixes t rest) := by
  rw [readPostfix, h]
  rfl

lemma readIntersection_one (h : readPostfix type (fuel + 1) chars = some (t, rest))
    (ends : expect " & ".toList rest = none) :
    readIntersection type (fuel + 1) chars = some (t, rest) := by
  rw [readIntersection, chain_one h ends]
  rfl

lemma readUnion_one (h : readIntersection type (fuel + 1) chars = some (t, rest))
    (ends : expect " | ".toList rest = none) :
    readUnion type (fuel + 1) chars = some (t, rest) := by
  rw [readUnion, chain_one h ends]
  rfl

lemma joined_of_two {combine : List TypeExpr → TypeExpr} {ts : List TypeExpr}
    (two : 2 ≤ ts.length) : joined combine ts = combine ts := by
  match ts, two with
  | _ :: _ :: _, _ => rfl

/-- How a type is read on each level, with types nested to a depth inside of it: one without
operators in front of anything that can follow a type, one that can be a member of a union in front
of its bar, and every one in front of what closes it. -/
structure ReadsBack (n : Nat) (t : TypeExpr) : Prop where
  asPostfix : t.parensInArray = false → ∀ depth rest, Ends rest →
    readPostfix (read n) (n + 1) (print depth t ++ rest) = some (suffixes (plain t) rest)
  asIntersection : t.parensInUnion = false → ∀ depth rest, Follows rest →
    readIntersection (read n) (n + 1) (print depth t ++ rest) = some (plain t, rest)
  asUnion : Understands (read (n + 1)) t

lemma ReadsBack.of_union (array : t.parensInArray = true) (union : t.parensInUnion = true)
    (h : ∀ depth rest, Closes rest →
      readUnion (read n) (n + 1) (print depth t ++ rest) = some (plain t, rest)) :
    ReadsBack n t where
  asPostfix bare := by
    rw [array] at bare
    cases bare
  asIntersection bare := by
    rw [union] at bare
    cases bare
  asUnion := h

lemma ReadsBack.of_intersection (array : t.parensInArray = true)
    (h : ∀ depth rest, Follows rest →
      readIntersection (read n) (n + 1) (print depth t ++ rest) = some (plain t, rest)) :
    ReadsBack n t where
  asPostfix bare := by
    rw [array] at bare
    cases bare
  asIntersection _ := h
  asUnion depth rest closes := readUnion_one (h depth rest (.inl closes)) closes.not_or

lemma ReadsBack.of_suffixed
    (h : ∀ depth rest, Ends rest →
      readPostfix (read n) (n + 1) (print depth t ++ rest) = some (suffixes (plain t) rest)) :
    ReadsBack n t := by
  have member (depth : Nat) (rest : List Char) (follows : Follows rest) :
      readIntersection (read n) (n + 1) (print depth t ++ rest) = some (plain t, rest) := by
    refine readIntersection_one ?_ follows.not_and
    rw [h depth rest follows.ends, suffixes_other follows.head?_ne]
  exact ⟨fun _ => h, fun _ => member,
    fun depth rest closes => readUnion_one (member depth rest (.inl closes)) closes.not_or⟩

/-- The item of an array and the member of an intersection are read with the brackets after them. -/
lemma readPostfix_operand (legible : t.Legible) (understands : Understands (read n) t)
    (back : ReadsBack n t) (ends : Ends rest) :
    readPostfix (read n) (n + 1) (operand t.parensInArray (print depth t) ++ rest) =
      some (suffixes (plain t) rest) := by
  cases parens : t.parensInArray with
  | true => exact readPostfix_atom (readAtom_parens legible understands)
  | false => exact back.asPostfix parens depth rest ends

lemma readIntersection_operand (legible : t.Legible) (understands : Understands (read n) t)
    (back : ReadsBack n t) (follows : Follows rest) :
    readIntersection (read n) (n + 1) (operand t.parensInUnion (print depth t) ++ rest) =
      some (plain t, rest) := by
  cases parens : t.parensInUnion with
  | true =>
    refine readIntersection_one ?_ follows.not_and
    rw [readPostfix_atom (readAtom_parens legible understands), suffixes_other follows.head?_ne]
  | false => exact back.asIntersection parens depth rest follows

/-- What is read for an operand that has no brackets after it. -/
lemma readPostfix_alone (legible : t.Legible) (understands : Understands (read n) t)
    (back : ReadsBack n t) (ends : Ends rest) (alone : rest.head? ≠ some '[') :
    readPostfix (read n) (n + 1) (operand t.parensInArray (print depth t) ++ rest) =
      some (plain t, rest) := by
  rw [readPostfix_operand legible understands back ends, suffixes_other alone]

section Layers

variable {members : List TypeExpr}

lemma readsBack_array (legible : t.Legible) (understands : Understands (read n) t)
    (back : ReadsBack n t) : ReadsBack n (array t) := by
  refine .of_suffixed ?_
  intro depth rest ends
  have brackets : Ends ('[' :: ']' :: rest) := by
    rintro c ⟨⟩
    decide
  have found : readPostfix (read n) (n + 1)
      (operand t.parensInArray (print depth t) ++ '[' :: ']' :: rest) =
        some (suffixes (plain t) ('[' :: ']' :: rest)) :=
    readPostfix_operand legible understands back brackets
  rw [print_array, List.append_assoc]
  exact found

lemma readsBack_intersection (two : 2 ≤ members.length) (enough : members.length ≤ n + 1)
    (each : ∀ t ∈ members, t.Legible ∧ Understands (read n) t ∧ ReadsBack n t) :
    ReadsBack n (intersection members) := by
  refine .of_intersection rfl ?_
  intro depth rest follows
  have nonempty : members ≠ [] := List.ne_nil_of_length_pos (by omega)
  have found : chain (readPostfix (read n) (n + 1)) " & ".toList (n + 1)
      (joinParts " & ".toList (members.map fun t => operand t.parensInArray (print depth t)) ++
        rest) = some (members.map plain, rest) := by
    refine chain_join nonempty enough ?_ follows.not_and
    intro t mem
    obtain ⟨legible, understands, back⟩ := each t mem
    constructor
    · exact readPostfix_alone legible understands back follows.ends follows.head?_ne
    · intro tail
      refine readPostfix_alone legible understands back ?_ (by simp)
      rintro c ⟨⟩
      decide
  have combined : joined intersection (members.map plain) = plain (intersection members) := by
    rw [joined_of_two (by simpa using two), ← plainList_eq_map]
    rfl
  rw [print_intersection, readIntersection, found]
  exact congrArg (fun t => some (t, rest)) combined

lemma readsBack_union (two : 2 ≤ members.length) (enough : members.length ≤ n + 1)
    (each : ∀ t ∈ members, t.Legible ∧ Understands (read n) t ∧ ReadsBack n t) :
    ReadsBack n (union members) := by
  refine .of_union rfl rfl ?_
  intro depth rest closes
  have nonempty : members ≠ [] := List.ne_nil_of_length_pos (by omega)
  have found : chain (readIntersection (read n) (n + 1)) " | ".toList (n + 1)
      (joinParts " | ".toList (members.map fun t => operand t.parensInUnion (print depth t)) ++
        rest) = some (members.map plain, rest) := by
    refine chain_join nonempty enough ?_ closes.not_or
    intro t mem
    obtain ⟨legible, understands, back⟩ := each t mem
    constructor
    · exact readIntersection_operand legible understands back (.inl closes)
    · exact fun tail => readIntersection_operand legible understands back (.inr ⟨tail, rfl⟩)
  have combined : joined union (members.map plain) = plain (union members) := by
    rw [joined_of_two (by simpa using two), ← plainList_eq_map]
    rfl
  rw [print_union, readUnion, found]
  exact congrArg (fun t => some (t, rest)) combined

lemma readsBack_function {params : List (Param TypeExpr)} {returns : TypeExpr}
    (names : ∀ p ∈ params, IsName p.name) (enough : params.length ≤ n + 1)
    (each : ∀ p ∈ params, Understands (read n) (if p.rest then array p.type else p.type))
    (result : Understands (read n) returns) : ReadsBack n (function params returns) := by
  refine .of_union rfl rfl ?_
  intro depth rest closes
  have alone : rest.head? ≠ some '[' := closes.head?_ne (by decide)
  have follows : Follows rest := .inl closes
  have found : readPostfix (read n) (n + 1) (print depth (function params returns) ++ rest) =
      some (plain (function params returns), rest) := by
    rw [readPostfix_atom (readAtom_function names each result enough closes), suffixes_other alone]
  exact readUnion_one (readIntersection_one found follows.not_and) closes.not_or

end Layers

lemma length_lt_sizeOf {α : Type} [SizeOf α] (items : List α) : items.length < sizeOf items := by
  induction items with
  | nil => simp
  | cons a items ih =>
    simp only [List.length_cons, List.cons.sizeOf_spec]
    omega

lemma sizeOf_pos (t : TypeExpr) : 0 < sizeOf t := by
  cases t <;> simp

/-- Every type is read back, by induction on its size. -/
lemma readsBack (legible : t.Legible) (enough : sizeOf t ≤ n + 1) : ReadsBack n t := by
  induction size : sizeOf t using Nat.strong_induction_on generalizing t n with
  | _ _ ih =>
    subst size
    have inner (s : TypeExpr) (smaller : sizeOf s < sizeOf t) (legible : s.Legible) :
        s.Legible ∧ Understands (read n) s ∧ ReadsBack n s := by
      obtain ⟨m, rfl⟩ : ∃ m, n = m + 1 := ⟨n - 1, by have := sizeOf_pos s; omega⟩
      exact ⟨legible, (ih _ smaller legible (by omega) rfl).asUnion,
        ih _ smaller legible (by omega) rfl⟩
    clear ih
    have all := legible
    obtain ⟨layer, parts⟩ := legible
    cases t with
    | keyword word => exact .of_suffixed fun depth rest ends =>
        readPostfix_atom (readAtom_keyword word ends)
    | literal value => exact .of_suffixed fun depth rest ends =>
        readPostfix_atom (readAtom_literal layer ends)
    | reference name => exact .of_suffixed fun depth rest ends =>
        readPostfix_atom (readAtom_reference layer ends)
    | array item =>
      obtain ⟨legible, understands, back⟩ :=
        inner item (by simp) (parts item (by simp [TypeExpr.parts]))
      exact readsBack_array legible understands back
    | tuple items last =>
      simp only [tuple.sizeOf_spec] at inner enough
      have count := length_lt_sizeOf items
      refine .of_suffixed fun depth rest ends =>
        readPostfix_atom (readAtom_tuple all ?_ ?_ (by omega))
      · intro t mem
        have := List.sizeOf_lt_of_mem mem
        exact (inner t (by omega) (parts t (by simp [TypeExpr.parts, mem]))).2.1
      · rintro t ⟨⟩
        refine (inner (array t) ?_ (parts t (by simp [TypeExpr.parts])).array).2.1
        simp only [array.sizeOf_spec, Option.some.sizeOf_spec]
        omega
    | object members =>
      simp only [object.sizeOf_spec] at inner enough
      have count := length_lt_sizeOf members
      refine .of_suffixed fun depth rest ends => readPostfix_atom (readAtom_object ?_ (by omega))
      intro m mem
      have := List.sizeOf_lt_of_mem mem
      refine (inner m.type ?_ (parts m.type (List.mem_map_of_mem mem))).2.1
      cases m
      simp only [Member.mk.sizeOf_spec] at this ⊢
      omega
    | record key value =>
      simp only [record.sizeOf_spec] at inner
      obtain ⟨-, first, -⟩ := inner key (by omega) (parts key (by simp [TypeExpr.parts]))
      obtain ⟨-, second, -⟩ := inner value (by omega) (parts value (by simp [TypeExpr.parts]))
      exact .of_suffixed fun depth rest ends => readPostfix_atom (readAtom_record first second)
    | union members =>
      simp only [union.sizeOf_spec] at inner enough
      have count := length_lt_sizeOf members
      refine readsBack_union layer (by omega) ?_
      intro t mem
      have := List.sizeOf_lt_of_mem mem
      exact inner t (by omega) (parts t mem)
    | intersection members =>
      simp only [intersection.sizeOf_spec] at inner enough
      have count := length_lt_sizeOf members
      refine readsBack_intersection layer (by omega) ?_
      intro t mem
      have := List.sizeOf_lt_of_mem mem
      exact inner t (by omega) (parts t mem)
    | function params returns =>
      simp only [function.sizeOf_spec] at inner enough
      have count := length_lt_sizeOf params
      refine readsBack_function layer (by omega) ?_ ?_
      · intro p mem
        have small : sizeOf p.type + 1 < sizeOf params := by
          have := List.sizeOf_lt_of_mem mem
          cases p
          simp only [Param.mk.sizeOf_spec] at this ⊢
          omega
        have legible := parts p.type (List.mem_append_left _ (List.mem_map_of_mem mem))
        split
        · exact (inner (array p.type) (by simp only [array.sizeOf_spec]; omega) legible.array).2.1
        · exact (inner p.type (by omega) legible).2.1
      · exact (inner returns (by omega) (parts returns (by simp [TypeExpr.parts]))).2.1
    | documented comment t =>
      obtain ⟨-, -, back⟩ := inner t (by simp) (parts t (by simp [TypeExpr.parts]))
      exact ⟨back.asPostfix, back.asIntersection, back.asUnion⟩

/-- Printed types are unambiguous: two types with one text are equal without the comments in them,
as long as their unions and intersections have two members or more, their references and parameters
have names of their own, and their literals are texts, booleans or whole numbers. -/
theorem printed_types_are_unambiguous (t u : TypeExpr) (legible : t.Legible) (also : u.Legible)
    (same : t.text = u.text) : t.plain = u.plain := by
  have chars : print 0 t = print 0 u := String.ofList_injective same
  have closes : Closes [] := by
    rintro c ⟨⟩
  have first := (readsBack legible (n := sizeOf t + sizeOf u) (by omega)).asUnion 0 [] closes
  have second := (readsBack also (n := sizeOf t + sizeOf u) (by omega)).asUnion 0 [] closes
  rw [chars, second] at first
  exact (Prod.mk.inj (Option.some.inj first)).1.symm

/-- Names and leaves, with a comment on the names. -/
def leaves : TypeExpr := array (union [documented "A name" (keyword .string), reference "Leaf"])

/-- Names and leaves, with comments on the leaves and on the whole. -/
def documentedLeaves : TypeExpr :=
  documented "Leaves" (array (union [keyword .string, documented "A leaf" (reference "Leaf")]))

theorem leaves_are_unambiguous :
    leaves.text = "(string | Leaf)[]" ∧ documentedLeaves.text = "(string | Leaf)[]" ∧
      leaves.plain = documentedLeaves.plain := by
  have word : (keyword .string).Legible := ⟨trivial, nofun⟩
  have leaf : (reference "Leaf").Legible :=
    ⟨⟨by decide, by decide, by decide, by rintro (_ | _) <;> decide⟩, nofun⟩
  have commented {t : TypeExpr} (comment : String) (legible : t.Legible) :
      (documented comment t).Legible := ⟨trivial, by simpa [TypeExpr.parts] using legible⟩
  have either {t u : TypeExpr} (legible : t.Legible) (also : u.Legible) :
      (union [t, u]).Legible := ⟨le_refl 2, by simp [TypeExpr.parts, legible, also]⟩
  exact ⟨by decide, by decide, printed_types_are_unambiguous leaves documentedLeaves
    (either (commented _ word) leaf).array (commented _ (either word (commented _ leaf)).array)
    (by decide)⟩

end EventContracts.TypeScript.TypeExpr
