import EventContracts.Proofs.BracketedTypes

/-! Comments in printed texts. A comment is on one line and goes up to the first end of a comment in
it, whatever is written in it and after it. What is printed for types and declarations is what is
printed for them without their comments, with the comments put in: before members and declarations
on lines of their own, before parameters with a space after them, and nowhere else. -/

namespace EventContracts.TypeScript

lemma newline_notMem_escapeComment (text : List Char) : '\n' ∉ escapeComment text := by
  fun_induction escapeComment text with
  | case1 => exact List.not_mem_nil
  | case2 text ih => simpa using ih
  | case3 c text other ih =>
    rw [List.mem_cons, not_or]
    refine ⟨?_, ih⟩
    split
    · decide
    · exact fun same => absurd same.symm ‹_›

/-- What is left after the first end of a comment ends with what is left after any other one. -/
lemma suffix_afterComment (before after : List Char) :
    ∃ rest, afterComment (before ++ "*/".toList ++ after) = some rest ∧ after <:+ rest := by
  rw [List.append_assoc]
  induction before with
  | nil => exact ⟨after, rfl, List.suffix_refl after⟩
  | cons c before ih =>
    by_cases first : c = '*' ∧ (before ++ ("*/".toList ++ after)).head? = some '/'
    · obtain ⟨rfl, slash⟩ := first
      cases before with
      | nil => cases slash
      | cons d before =>
        obtain rfl : d = '/' := Option.some.inj slash
        exact ⟨before ++ ("*/".toList ++ after), rfl, before ++ "*/".toList, List.append_assoc ..⟩
    · rw [List.cons_append, afterComment_skip (not_and_or.mp first)]
      exact ih

/-- Whether a text is one whole comment on one line: it starts and ends like one, and whatever text
follows it, no end of a comment in the two together comes before its own. -/
structure Closed (comment : List Char) : Prop where
  opens : "/**".toList <+: comment
  closes : "*/".toList <:+ comment
  oneLine : '\n' ∉ comment
  first : ∀ rest before after, comment ++ rest = before ++ "*/".toList ++ after → after <:+ rest

lemma closed_docComment (comment : String) : Closed (docComment comment) where
  opens := ⟨_, rfl⟩
  closes := ⟨"/** ".toList ++ escapeComment comment.toList ++ [' '], by simp [docComment]⟩
  oneLine := by
    have text := newline_notMem_escapeComment comment.toList
    simp [docComment, text]
  first rest before after same := by
    obtain ⟨left, found, suffix⟩ := suffix_afterComment before after
    rw [← same, afterComment_docComment] at found
    rwa [Option.some.inj found]

/-- Whether a text is another one with comments put into it, in their order: each on a line of its
own, or with a space after it. -/
inductive Commented : List String → List Char → List Char → Prop where
  | done : Commented [] [] []
  | char {comments : List String} {text code : List Char} (c : Char)
      (rest : Commented comments text code) : Commented comments (c :: text) (c :: code)
  | line {comments : List String} {text code : List Char} (depth : Nat) (comment : String)
      (rest : Commented comments text code) :
      Commented (comment :: comments) (indent depth ++ docComment comment ++ '\n' :: text) code
  | space {comments : List String} {text code : List Char} (comment : String)
      (rest : Commented comments text code) :
      Commented (comment :: comments) (docComment comment ++ ' ' :: text) code

/-- Whether this holds of the parts of a text, one after the other. -/
inductive CommentedParts : List String → List (List Char) → List (List Char) → Prop where
  | nil : CommentedParts [] [] []
  | cons {first more : List String} {text code : List Char} {texts codes : List (List Char)}
      (part : Commented first text code) (parts : CommentedParts more texts codes) :
      CommentedParts (first ++ more) (text :: texts) (code :: codes)

section Commented

variable {first more comments : List String} {text text' code code' : List Char}
  {texts texts' codes codes' : List (List Char)}

lemma commented_self (code : List Char) : Commented [] code code := by
  induction code with
  | nil => exact .done
  | cons c code ih => exact .char c ih

lemma Commented.append (front : Commented first text code) (back : Commented more text' code') :
    Commented (first ++ more) (text ++ text') (code ++ code') := by
  induction front with
  | done => exact back
  | char c _ ih => exact .char c ih
  | line depth comment _ ih =>
    rw [List.append_assoc]
    exact .line depth comment ih
  | space comment _ ih =>
    rw [List.append_assoc]
    exact .space comment ih

/-- Text without comments may stand around one with comments. -/
lemma Commented.between (inner : Commented comments text code) (before after : List Char) :
    Commented comments (before ++ text ++ after) (before ++ code ++ after) := by
  simpa using ((commented_self before).append inner).append (commented_self after)

lemma Commented.operand (inner : Commented comments text code) (parens : Bool) :
    Commented comments (operand parens text) (operand parens code) := by
  cases parens with
  | false => exact inner
  | true => exact inner.between ['('] [')']

lemma CommentedParts.append (front : CommentedParts first texts codes)
    (back : CommentedParts more texts' codes') :
    CommentedParts (first ++ more) (texts ++ texts') (codes ++ codes') := by
  induction front with
  | nil => exact back
  | cons part _ ih =>
    rw [List.append_assoc]
    exact .cons part ih

lemma CommentedParts.join (parts : CommentedParts comments texts codes) (separator : List Char) :
    Commented comments (joinParts separator texts) (joinParts separator codes) := by
  induction parts with
  | nil => exact .done
  | @cons first more text code texts codes part parts ih =>
    cases parts with
    | nil => simpa [joinParts] using part
    | cons next parts =>
      simpa [joinParts] using part.append (ih.between separator [])

/-- A comment in front of a parameter, if there is one. -/
lemma commented_commentBefore (comment? : Option String) :
    Commented comment?.toList (TypeExpr.commentBefore comment?) [] := by
  cases comment? with
  | none => exact .done
  | some comment => exact .space comment .done

/-- A comment on a line of its own, if there is one. -/
lemma commented_commentLine (comment? : Option String) (depth : Nat) :
    Commented comment?.toList (commentLine comment? depth) [] := by
  cases comment? with
  | none => exact .done
  | some comment => exact .line depth comment .done

end Commented

namespace TypeExpr

mutual

/-- The comments that are shown in a type: those of members and parameters. -/
def shown : TypeExpr → List String
  | keyword _ => []
  | literal _ => []
  | reference _ => []
  | array item => shown item
  | tuple items rest => shownList items ++ (match rest with
    | some rest => shown rest
    | none => [])
  | object members => shownMembers members
  | record key value => shown key ++ shown value
  | union members => shownList members
  | intersection members => shownList members
  | function params returns => shownParams params ++ shown returns
  | documented _ inner => shown inner
termination_by structural t => t

/-- The comments that are shown in types. -/
def shownList : List TypeExpr → List String
  | [] => []
  | t :: ts => shown t ++ shownList ts
termination_by structural ts => ts

/-- The comments that are shown before and in members. -/
def shownMembers : List (Member TypeExpr) → List String
  | [] => []
  | ⟨_, type, _⟩ :: members => type.comment?.toList ++ shown type ++ shownMembers members
termination_by structural members => members

/-- The comments that are shown before and in parameters. -/
def shownParams : List (Param TypeExpr) → List String
  | [] => []
  | ⟨_, type, _⟩ :: params => type.comment?.toList ++ shown type ++ shownParams params
termination_by structural params => params

end

lemma comment?_plain : ∀ t : TypeExpr, (plain t).comment? = none
  | documented _ inner => comment?_plain inner
  | keyword _ | literal _ | reference _ | array _ | tuple _ none | tuple _ (some _) | object _
  | record _ _ | union _ | intersection _ | function _ _ => rfl

lemma parensInArray_plain : ∀ t : TypeExpr, (plain t).parensInArray = t.parensInArray
  | documented _ inner => parensInArray_plain inner
  | keyword _ | literal _ | reference _ | array _ | tuple _ none | tuple _ (some _) | object _
  | record _ _ | union _ | intersection _ | function _ _ => rfl

lemma parensInUnion_plain : ∀ t : TypeExpr, (plain t).parensInUnion = t.parensInUnion
  | documented _ inner => parensInUnion_plain inner
  | keyword _ | literal _ | reference _ | array _ | tuple _ none | tuple _ (some _) | object _
  | record _ _ | union _ | intersection _ | function _ _ => rfl

section Layers

variable {depth : Nat}

variable (depth) in
/-- Whether a type is printed as it is without its comments, with those that are shown put in. -/
def CommentedAt (t : TypeExpr) : Prop := Commented t.shown (print depth t) (print depth (plain t))

lemma commented_array {item : TypeExpr} (inner : CommentedAt depth item) :
    CommentedAt depth (array item) := by
  have code : print depth (plain (array item)) =
      operand item.parensInArray (print depth (plain item)) ++ ['[', ']'] := by
    rw [← parensInArray_plain]
    rfl
  rw [CommentedAt, code]
  exact (inner.operand item.parensInArray).between [] ['[', ']']

lemma commented_tuple {items : List TypeExpr} {rest : Option TypeExpr}
    (inner : CommentedParts (shownList items) (printItems depth items)
      (printItems depth (plainList items)))
    (last : ∀ t ∈ rest, CommentedAt depth t) : CommentedAt depth (tuple items rest) := by
  cases rest with
  | none => exact ((inner.append .nil).join ", ".toList).between ['['] [']']
  | some t =>
    have dotted := (commented_array (last t rfl)).between "...".toList []
    have all := ((inner.append (.cons dotted .nil)).join ", ".toList).between ['['] [']']
    rw [CommentedAt, plain_tuple, print_tuple, print_tuple]
    simpa [printItems_eq_map, plainList_eq_map, shown, plain] using all

lemma print_object_cons (m : Member TypeExpr) (members : List (Member TypeExpr)) :
    print depth (object (m :: members)) =
      ['\x7b', '\n'] ++ printLines depth (m :: members) ++ (indent depth ++ ['\x7d']) := by
  simp [print_object, braces, printLines_cons]

lemma commented_object {members : List (Member TypeExpr)}
    (lines : Commented (shownMembers members) (printLines depth members)
      (printLines depth (plainMembers members))) : CommentedAt depth (object members) := by
  cases members with
  | nil => exact commented_self _
  | cons m members =>
    obtain ⟨name, t, optional⟩ := m
    have code : plain (object (⟨name, t, optional⟩ :: members)) =
        object (⟨name, plain t, optional⟩ :: plainMembers members) := rfl
    rw [CommentedAt, code, print_object_cons, print_object_cons]
    exact lines.between ['\x7b', '\n'] (indent depth ++ ['\x7d'])

lemma commented_record {key value : TypeExpr} (first : CommentedAt depth key)
    (second : CommentedAt depth value) : CommentedAt depth (record key value) := by
  have front := first.between "Record<".toList ", ".toList
  exact (front.append second).between [] ['>']

lemma commented_function {params : List (Param TypeExpr)} {returns : TypeExpr}
    (inner : CommentedParts (shownParams params) (printParams depth params)
      (printParams depth (plainParams params)))
    (result : CommentedAt depth returns) : CommentedAt depth (function params returns) := by
  have front := (inner.join ", ".toList).between ['('] ") => ".toList
  exact front.append result

lemma commented_param (p : Param TypeExpr) (type : CommentedAt depth p.type) :
    Commented (p.type.comment?.toList ++ shown p.type) (printParam depth p)
      (printParam depth ⟨p.name, plain p.type, p.rest⟩) := by
  have whole : Commented (shown p.type) (print depth (if p.rest then array p.type else p.type))
      (print depth (if p.rest then array (plain p.type) else plain p.type)) := by
    split
    · exact commented_array type
    · exact type
  have named := whole.between
    ((if p.rest then "...".toList else []) ++ (p.name.toList ++ ": ".toList)) []
  rw [printParam_eq, printParam_eq]
  simpa [comment?_plain, commentBefore] using (commented_commentBefore p.type.comment?).append named

lemma commented_lines_cons {members : List (Member TypeExpr)} (m : Member TypeExpr)
    (type : CommentedAt (depth + 1) m.type)
    (more : Commented (shownMembers members) (printLines depth members)
      (printLines depth (plainMembers members))) :
    Commented (m.type.comment?.toList ++ shown m.type ++ shownMembers members)
      (printLines depth (m :: members))
      (printLines depth (⟨m.name, plain m.type, m.optional⟩ :: plainMembers members)) := by
  have named := type.between (indent (depth + 1) ++ (memberName m.name ++
    ((if m.optional then ['?'] else []) ++ ": ".toList))) [';', '\n']
  have line := (commented_commentLine m.type.comment? (depth + 1)).append named
  rw [printLines_cons, printLines_cons]
  simpa [printMember, comment?_plain, commentLine] using line.append more

end Layers

mutual

/-- Every type is printed as it is without comments, with the comments put in. -/
lemma commented_print : ∀ (t : TypeExpr) (depth : Nat), CommentedAt depth t
  | keyword _, _ => commented_self _
  | literal _, _ => commented_self _
  | reference _, _ => commented_self _
  | array item, depth => commented_array (commented_print item depth)
  | tuple items none, depth => commented_tuple (commented_items items depth) nofun
  | tuple items (some rest), depth =>
    commented_tuple (commented_items items depth) fun t same => by
      cases same
      exact commented_print rest depth
  | object members, depth => commented_object (commented_lines members depth)
  | record key value, depth =>
    commented_record (commented_print key depth) (commented_print value depth)
  | union members, depth => (commented_union members depth).join _
  | intersection members, depth => (commented_intersection members depth).join _
  | function params returns, depth =>
    commented_function (commented_params params depth) (commented_print returns depth)
  | documented _ inner, depth => commented_print inner depth
termination_by structural t => t

/-- So are the items of a tuple. -/
lemma commented_items : ∀ (ts : List TypeExpr) (depth : Nat),
    CommentedParts (shownList ts) (printItems depth ts) (printItems depth (plainList ts))
  | [], _ => .nil
  | t :: ts, depth => .cons (commented_print t depth) (commented_items ts depth)
termination_by structural ts => ts

/-- So are the members of a union. -/
lemma commented_union : ∀ (ts : List TypeExpr) (depth : Nat),
    CommentedParts (shownList ts) (printUnion depth ts) (printUnion depth (plainList ts))
  | [], _ => .nil
  | t :: ts, depth => by
    have here := (commented_print t depth).operand t.parensInUnion
    simp only [plainList, printUnion, parensInUnion_plain]
    exact .cons here (commented_union ts depth)
termination_by structural ts => ts

/-- So are the members of an intersection. -/
lemma commented_intersection : ∀ (ts : List TypeExpr) (depth : Nat),
    CommentedParts (shownList ts) (printIntersection depth ts)
      (printIntersection depth (plainList ts))
  | [], _ => .nil
  | t :: ts, depth => by
    have here := (commented_print t depth).operand t.parensInArray
    simp only [plainList, printIntersection, parensInIntersection, parensInArray_plain]
    exact .cons here (commented_intersection ts depth)
termination_by structural ts => ts

/-- So are the parameters of a function. -/
lemma commented_params : ∀ (params : List (Param TypeExpr)) (depth : Nat),
    CommentedParts (shownParams params) (printParams depth params)
      (printParams depth (plainParams params))
  | [], _ => .nil
  | ⟨name, type, dots⟩ :: params, depth =>
    .cons (commented_param ⟨name, type, dots⟩ (commented_print type depth))
      (commented_params params depth)
termination_by structural params => params

/-- So are the lines of the members of an object type. -/
lemma commented_lines : ∀ (members : List (Member TypeExpr)) (depth : Nat),
    Commented (shownMembers members) (printLines depth members)
      (printLines depth (plainMembers members))
  | [], _ => .done
  | ⟨name, type, optional⟩ :: members, depth =>
    commented_lines_cons ⟨name, type, optional⟩ (commented_print type (depth + 1))
      (commented_lines members depth)
termination_by structural members => members

end

lemma comment?_bare : ∀ t : TypeExpr, t.bare.comment? = none
  | documented _ inner => comment?_bare inner
  | keyword _ | literal _ | reference _ | array _ | tuple _ _ | object _ | record _ _ | union _
  | intersection _ | function _ _ => rfl

lemma parensInArray_bare : ∀ t : TypeExpr, t.bare.parensInArray = t.parensInArray
  | documented _ inner => parensInArray_bare inner
  | keyword _ | literal _ | reference _ | array _ | tuple _ _ | object _ | record _ _ | union _
  | intersection _ | function _ _ => rfl

lemma print_bare (depth : Nat) : ∀ t : TypeExpr, print depth t.bare = print depth t
  | documented _ inner => print_bare depth inner
  | keyword _ | literal _ | reference _ | array _ | tuple _ _ | object _ | record _ _ | union _
  | intersection _ | function _ _ => rfl

end TypeExpr

namespace Declaration

/-- The comments that are shown before and in a declaration. -/
def shown : Declaration → List String
  | typeAlias _ type => type.comment?.toList ++ type.shown
  | interface _ members => TypeExpr.shownMembers members

/-- A declaration without the comments in it. -/
def plain : Declaration → Declaration
  | typeAlias name type => typeAlias name type.plain
  | interface name members => interface name (TypeExpr.plainMembers members)

lemma print_typeAlias (name : String) (type : TypeExpr) :
    (typeAlias name type).print = commentLine type.comment? 0 ++
      ("export type ".toList ++ name.toList ++ " = ".toList ++ type.print 0 ++ [';']) := by
  have unfolded : (typeAlias name type).print = commentLine type.comment? 0 ++
      "export type ".toList ++ name.toList ++ " = ".toList ++ type.print 0 ++ [';'] := rfl
  rw [unfolded]
  simp only [List.append_assoc]

lemma commented_print (d : Declaration) : Commented d.shown d.print d.plain.print := by
  cases d with
  | typeAlias name type =>
    have inner := (TypeExpr.commented_print type 0).between
      ("export type ".toList ++ name.toList ++ " = ".toList) [';']
    rw [plain, print_typeAlias, print_typeAlias, TypeExpr.comment?_plain]
    exact (commented_commentLine type.comment? 0).append inner
  | interface name members =>
    exact (commented_self ("export interface ".toList ++ name.toList ++ [' '])).append
      (TypeExpr.commented_print (.object members) 0)

lemma commented_textAll (declarations : List Declaration) :
    Commented (declarations.flatMap shown) (textAll declarations).toList
      (textAll (declarations.map plain)).toList := by
  have parts : CommentedParts (declarations.flatMap shown) (declarations.map print)
      ((declarations.map plain).map print) := by
    induction declarations with
    | nil => exact .nil
    | cons d declarations ih => exact .cons d.commented_print ih
  have text (ds : List Declaration) :
      (textAll ds).toList = joinParts "\n\n".toList (ds.map print) ++ ['\n'] := String.toList_ofList
  rw [text, text]
  exact (parts.join "\n\n".toList).between [] ['\n']

end Declaration

section Positions

variable (comment name : String) (t : TypeExpr)

/-- Before a member, a comment is on the line above it. -/
lemma printLines_documented (depth : Nat) (optional : Bool) (more : List (Member TypeExpr)) :
    TypeExpr.printLines depth (⟨name, .documented comment t, optional⟩ :: more) =
      indent (depth + 1) ++ docComment comment ++
        '\n' :: TypeExpr.printLines depth (⟨name, t.bare, optional⟩ :: more) := by
  have body : TypeExpr.print (depth + 1) (.documented comment t) = t.bare.print (depth + 1) :=
    (t.print_bare (depth + 1)).symm
  rw [TypeExpr.printLines_cons, TypeExpr.printLines_cons, TypeExpr.printMember,
    TypeExpr.printMember, TypeExpr.comment?_bare, body]
  simp [TypeExpr.comment?, commentLine]

/-- Before a parameter, a comment is on its line. -/
lemma printParams_documented (depth : Nat) (rest : Bool) (more : List (Param TypeExpr)) :
    TypeExpr.printParams depth (⟨name, .documented comment t, rest⟩ :: more) =
      (TypeExpr.printParams depth (⟨name, t.bare, rest⟩ :: more)).modifyHead
        (docComment comment ++ ' ' :: ·) := by
  have body : TypeExpr.print depth (.documented comment t) = t.bare.print depth :=
    (t.print_bare depth).symm
  have parens : (TypeExpr.documented comment t).parensInArray = t.bare.parensInArray :=
    t.parensInArray_bare.symm
  have head : TypeExpr.printParam depth ⟨name, .documented comment t, rest⟩ =
      docComment comment ++ ' ' :: TypeExpr.printParam depth ⟨name, t.bare, rest⟩ := by
    rw [TypeExpr.printParam, TypeExpr.printParam, TypeExpr.comment?_bare, body, parens]
    simp [TypeExpr.comment?, TypeExpr.commentBefore]
  exact congrArg (· :: TypeExpr.printParams depth more) head

/-- Before a declaration, a comment is on the line above it. -/
lemma print_documented :
    (Declaration.typeAlias name (.documented comment t)).print =
      docComment comment ++ '\n' :: (Declaration.typeAlias name t.bare).print := by
  have body : TypeExpr.print 0 (.documented comment t) = t.bare.print 0 := (t.print_bare 0).symm
  rw [Declaration.print_typeAlias, Declaration.print_typeAlias, TypeExpr.comment?_bare, body]
  simp [TypeExpr.comment?, commentLine, indent]

end Positions

/-- No description breaks out of its comment. Every comment that is printed is on one line and has
the first end of a comment in it at its own end; what follows it, before a member, a parameter or a
declaration, is what is printed there for the type without it; and the text of all declarations is
their text without comments, with the comments put in. -/
theorem descriptions_stay_in_comments (comment name : String) (t : TypeExpr) (depth : Nat)
    (declarations : List Declaration) :
    Closed (docComment comment) ∧
    (∀ optional more,
      TypeExpr.printLines depth (⟨name, .documented comment t, optional⟩ :: more) =
        indent (depth + 1) ++ docComment comment ++
          '\n' :: TypeExpr.printLines depth (⟨name, t.bare, optional⟩ :: more)) ∧
    (∀ rest more,
      TypeExpr.printParams depth (⟨name, .documented comment t, rest⟩ :: more) =
        (TypeExpr.printParams depth (⟨name, t.bare, rest⟩ :: more)).modifyHead
          (docComment comment ++ ' ' :: ·)) ∧
    (Declaration.typeAlias name (.documented comment t)).print =
      docComment comment ++ '\n' :: (Declaration.typeAlias name t.bare).print ∧
    TypeExpr.print depth (.documented comment t) = TypeExpr.print depth t.bare ∧
    Commented (declarations.flatMap Declaration.shown) (Declaration.textAll declarations).toList
      (Declaration.textAll (declarations.map Declaration.plain)).toList := by
  refine ⟨closed_docComment comment, ?_, ?_, ?_, ?_, ?_⟩
  · exact printLines_documented comment name t depth
  · exact printParams_documented comment name t depth
  · exact print_documented comment name t
  · exact (t.print_bare depth).symm
  · exact Declaration.commented_textAll declarations

/-- A description that tries to end its comment, on two lines and with what looks like the start of
another comment. -/
def boldDescription : String := "*/ sail: any;\n/**//"

theorem bold_description_stays_in_comment :
    docComment boldDescription = "/** *\\/ sail: any; /**\\// */".toList ∧
      (Declaration.typeAlias "Ship" (.documented boldDescription (.keyword .string))).print =
        "/** *\\/ sail: any; /**\\// */".toList ++ '\n' :: "export type Ship = string;".toList ∧
      ∀ before after,
        "/** *\\/ sail: any; /**\\// */".toList ++ '\n' :: "export type Ship = string;".toList =
            before ++ "*/".toList ++ after →
          after <:+ '\n' :: "export type Ship = string;".toList := by
  obtain ⟨closed, -, -, printed, -, -⟩ :=
    descriptions_stay_in_comments boldDescription "Ship" (.keyword .string) 0 []
  have comment : docComment boldDescription = "/** *\\/ sail: any; /**\\// */".toList := by
    decide +kernel
  have alone : (Declaration.typeAlias "Ship" (TypeExpr.keyword .string).bare).print =
      "export type Ship = string;".toList := by decide +kernel
  rw [comment] at closed printed
  rw [alone] at printed
  exact ⟨comment, printed, closed.first _⟩

end EventContracts.TypeScript
