import EventContracts.Proofs.TypeReading

/-! The texts of types. A type is printed without its comments up to what stands for them, it starts
with a character that tells what it is not, and what can follow it does not go on with it; so the
reader takes a type without operators as it is. -/

namespace EventContracts.TypeScript.TypeExpr

mutual

/-- A type without the comments in it. -/
def plain : TypeExpr → TypeExpr
  | keyword word => keyword word
  | literal value => literal value
  | reference name => reference name
  | array item => array (plain item)
  | tuple items rest => tuple (plainList items) (match rest with
    | some rest => some (plain rest)
    | none => none)
  | object members => object (plainMembers members)
  | record key value => record (plain key) (plain value)
  | union members => union (plainList members)
  | intersection members => intersection (plainList members)
  | function params returns => function (plainParams params) (plain returns)
  | documented _ inner => plain inner
termination_by structural t => t

/-- Types without the comments in them. -/
def plainList : List TypeExpr → List TypeExpr
  | [] => []
  | t :: ts => plain t :: plainList ts
termination_by structural ts => ts

/-- Members of an object type without the comments in them. -/
def plainMembers : List (Member TypeExpr) → List (Member TypeExpr)
  | [] => []
  | ⟨name, type, optional⟩ :: members => ⟨name, plain type, optional⟩ :: plainMembers members
termination_by structural members => members

/-- Parameters without the comments in them. -/
def plainParams : List (Param TypeExpr) → List (Param TypeExpr)
  | [] => []
  | ⟨name, type, rest⟩ :: params => ⟨name, plain type, rest⟩ :: plainParams params
termination_by structural params => params

end

lemma plainList_eq_map (ts : List TypeExpr) : plainList ts = ts.map plain := by
  induction ts with
  | nil => rfl
  | cons t ts ih => rw [plainList, ih]; rfl

lemma plainParams_eq_map (params : List (Param TypeExpr)) :
    plainParams params = params.map fun p => ⟨p.name, plain p.type, p.rest⟩ := by
  induction params with
  | nil => rfl
  | cons p params ih => rw [plainParams, ih]; rfl

lemma plain_tuple (items : List TypeExpr) (rest : Option TypeExpr) :
    plain (tuple items rest) = tuple (items.map plain) (rest.map plain) := by
  rw [← plainList_eq_map]
  cases rest <;> rfl

/-- Whether a name can be told apart from the words that stand for themselves. -/
structure IsName (name : String) : Prop where
  bare : Identifier.isBare name = true
  notTrue : name ≠ "true"
  notFalse : name ≠ "false"
  notKeyword : ∀ word : Keyword, name ≠ word.text

/-- What is asked of a type apart from its parts. -/
def LegibleLayer : TypeExpr → Prop
  | literal (.string _) => True
  | literal (.bool _) => True
  | literal (.number (.whole _)) => True
  | literal _ => False
  | reference name => IsName name
  | union members => 2 ≤ members.length
  | intersection members => 2 ≤ members.length
  | function params _ => ∀ param ∈ params, IsName param.name
  | _ => True

/-- Whether all unions and intersections in a type have two members or more, all references and
parameters have names of their own, and all literals are texts, booleans or whole numbers. -/
inductive Legible : TypeExpr → Prop where
  | mk {t : TypeExpr} (layer : t.LegibleLayer) (parts : ∀ part ∈ t.parts, part.Legible) : Legible t

lemma Legible.array {t : TypeExpr} (legible : t.Legible) : (array t).Legible :=
  ⟨trivial, by simpa [TypeExpr.parts] using legible⟩

/-- The characters that follow a type inside of another one, unless it is an operand. -/
def closers : List Char := [',', '>', ']', ')', ';']

/-- Whether a text can follow a type that is not an operand. -/
def Closes (rest : List Char) : Prop := ∀ c ∈ rest.head?, c ∈ closers

/-- Whether a text can follow a type. -/
def Ends (rest : List Char) : Prop := ∀ c ∈ rest.head?, c ∈ '[' :: ' ' :: closers

/-- Whether a text can follow a member of a union. -/
def Follows (rest : List Char) : Prop := Closes rest ∨ ∃ tail, rest = " | ".toList ++ tail

variable {rest : List Char}

lemma closes_cons {c : Char} (closer : c ∈ closers) : Closes (c :: rest) := by
  rintro d ⟨⟩
  exact closer

lemma closes_comma (tail : List Char) : Closes (", ".toList ++ tail) := closes_cons (by decide)

lemma Closes.ends (closes : Closes rest) : Ends rest := fun c mem =>
  List.mem_cons_of_mem _ (List.mem_cons_of_mem _ (closes c mem))

lemma Follows.ends (follows : Follows rest) : Ends rest := by
  rcases follows with closes | ⟨tail, rfl⟩
  · exact closes.ends
  · rintro c ⟨⟩
    decide

/-- A character that cannot follow a type is not what comes next. -/
lemma Ends.head?_ne (ends : Ends rest) {c : Char} (other : c ∉ '[' :: ' ' :: closers) :
    rest.head? ≠ some c :=
  fun same => other (ends c same)

lemma Closes.head?_ne (closes : Closes rest) {c : Char} (other : c ∉ closers) :
    rest.head? ≠ some c :=
  fun same => other (closes c same)

lemma Follows.head?_ne (follows : Follows rest) : rest.head? ≠ some '[' := by
  rcases follows with closes | ⟨tail, rfl⟩
  · exact closes.head?_ne (by decide)
  · simp

lemma Follows.not_and (follows : Follows rest) : expect " & ".toList rest = none := by
  rcases follows with closes | ⟨tail, rfl⟩
  · exact expect_none (closes.head?_ne (by decide))
  · rfl

lemma Closes.not_or (closes : Closes rest) : expect " | ".toList rest = none :=
  expect_none (closes.head?_ne (by decide))

lemma Ends.not_word (ends : Ends rest) : ∀ c ∈ rest.head?, isWordChar c = false := by
  have none : ('[' :: ' ' :: closers).any isWordChar = false := by decide
  exact fun c mem => Bool.eq_false_of_not_eq_true (List.any_eq_false.mp none c (ends c mem))

section Printed

variable (depth : Nat)

lemma print_keyword (word : Keyword) : print depth (keyword word) = word.text.toList := rfl

lemma print_literal (value : Json) : print depth (literal value) = value.compact.toList := rfl

lemma print_reference (name : String) : print depth (reference name) = name.toList := rfl

lemma print_array (item : TypeExpr) :
    print depth (array item) = operand item.parensInArray (print depth item) ++ ['[', ']'] := rfl

lemma print_record (key value : TypeExpr) :
    print depth (record key value) =
      "Record<".toList ++ print depth key ++ ", ".toList ++ print depth value ++ ['>'] := rfl

lemma print_object (members : List (Member TypeExpr)) :
    print depth (object members) = braces depth (printLines depth members) := rfl

lemma printItems_eq_map (ts : List TypeExpr) : printItems depth ts = ts.map (print depth) := by
  induction ts with
  | nil => rfl
  | cons t ts ih => exact congrArg (print depth t :: ·) ih

/-- The printed items of a tuple: what stands after dots is printed as an array. -/
lemma print_tuple (items : List TypeExpr) (rest : Option TypeExpr) :
    print depth (tuple items rest) =
      ['['] ++ joinParts ", ".toList (items.map (print depth) ++
        rest.toList.map fun t => "...".toList ++ print depth (array t)) ++ [']'] := by
  rw [← printItems_eq_map]
  cases rest <;> rfl

/-- The members of a union, in parentheses where need be. -/
lemma print_union (members : List TypeExpr) :
    print depth (union members) = joinParts " | ".toList
      (members.map fun t => operand t.parensInUnion (print depth t)) := by
  have parts : printUnion depth members =
      members.map fun t => operand t.parensInUnion (print depth t) := by
    induction members with
    | nil => rfl
    | cons t ts ih => exact congrArg (operand t.parensInUnion (print depth t) :: ·) ih
  exact congrArg (joinParts " | ".toList) parts

/-- The members of an intersection, in parentheses where need be. -/
lemma print_intersection (members : List TypeExpr) :
    print depth (intersection members) = joinParts " & ".toList
      (members.map fun t => operand t.parensInArray (print depth t)) := by
  have parts : printIntersection depth members =
      members.map fun t => operand t.parensInArray (print depth t) := by
    induction members with
    | nil => rfl
    | cons t ts ih => exact congrArg (operand t.parensInArray (print depth t) :: ·) ih
  exact congrArg (joinParts " & ".toList) parts

/-- The comment in front of a parameter. -/
def commentBefore : Option String → List Char
  | some comment => docComment comment ++ [' ']
  | none => []

/-- A printed parameter. -/
def printParam (p : Param TypeExpr) : List Char :=
  commentBefore p.type.comment? ++
  if p.rest then
    "...".toList ++ p.name.toList ++ ": ".toList ++
      operand p.type.parensInArray (print depth p.type) ++ ['[', ']']
  else p.name.toList ++ ": ".toList ++ print depth p.type

lemma print_function (params : List (Param TypeExpr)) (returns : TypeExpr) :
    print depth (function params returns) =
      ['('] ++ joinParts ", ".toList (params.map (printParam depth)) ++ ") => ".toList ++
        print depth returns := by
  have parts : printParams depth params = params.map (printParam depth) := by
    induction params with
    | nil => rfl
    | cons p params ih =>
      obtain ⟨name, type, rest⟩ := p
      exact congrArg (printParam depth ⟨name, type, rest⟩ :: ·) ih
  rw [← parts]
  rfl

end Printed

/-- How a printed type starts: not with the end of a list, a comment or dots, and not with a name
and a colon. -/
structure Starts (code : List Char) : Prop where
  first : ∃ c tail, code = c :: tail ∧ c ∉ [')', ']', '/', '.']
  name : ∀ rest, Ends rest → ((code ++ rest).dropWhile isWordChar).head? ≠ some ':'

lemma Starts.symbol {c : Char} {tail : List Char} (symbol : isWordChar c = false)
    (other : c ∉ [')', ']', '/', '.', ':']) : Starts (c :: tail) where
  first := ⟨c, tail, rfl, fun mem => other (by revert mem; simp; tauto)⟩
  name rest _ := by
    have : c ≠ ':' := by
      rintro rfl
      exact other (by decide)
    simpa [List.dropWhile_cons, symbol] using this

lemma Starts.word {word : List Char} (nonempty : word ≠ [])
    (all : ∀ c ∈ word, isWordChar c = true) : Starts word where
  first := by
    obtain ⟨c, tail, rfl⟩ := List.exists_cons_of_ne_nil nonempty
    have symbols : [')', ']', '/', '.'].any isWordChar = false := by decide
    refine ⟨c, tail, rfl, ?_⟩
    intro mem
    exact List.any_eq_false.mp symbols c mem (all c List.mem_cons_self)
  name rest ends := by
    rw [(span_append all ends.not_word).2]
    exact ends.head?_ne (by decide)

lemma Starts.append {code more : List Char} (starts : Starts code)
    (ends : ∀ rest, Ends (more ++ rest)) : Starts (code ++ more) where
  first := by
    obtain ⟨c, tail, rfl, other⟩ := starts.first
    exact ⟨c, tail ++ more, rfl, other⟩
  name rest _ := by
    rw [List.append_assoc]
    exact starts.name _ (ends rest)

lemma Starts.operand {code : List Char} (starts : Starts code) (parens : Bool) :
    Starts (operand parens code) := by
  cases parens with
  | false => exact starts
  | true => exact .symbol (by decide) (by decide)

lemma Starts.not_params {code : List Char} (starts : Starts code) (ends : Ends rest) :
    startsParams (code ++ rest) = false := by
  obtain ⟨c, tail, rfl, other⟩ := starts.first
  have name := starts.name rest ends
  rw [List.cons_append] at name ⊢
  simp only [List.mem_cons, List.not_mem_nil, or_false, not_or] at other
  rw [startsParams]
  · simpa using name
  · exact fun _ same => other.1 (List.cons.inj same).1
  · exact fun _ same => other.2.2.1 (List.cons.inj same).1
  · exact fun _ same => other.2.2.2 (List.cons.inj same).1

lemma isWordChar_of_isDigit {c : Char} (digit : c.isDigit = true) : isWordChar c = true := by
  simp [isWordChar, digit]

lemma starts_whole (n : Int) : Starts (Number.text (.whole n)).toList := by
  rw [Number.text_whole]
  split
  · rw [String.toList_append]
    exact .symbol (c := '-') (by decide) (by decide)
  · rw [String.empty_append]
    exact .word (by simp) fun c mem => isWordChar_of_isDigit (Json.isDigit_of_mem_toString mem)

lemma starts_join {separator first : List Char} {more : List (List Char)} (starts : Starts first)
    (ends : ∀ rest, Ends (separator ++ rest)) : Starts (joinParts separator (first :: more)) := by
  cases more with
  | nil => exact starts
  | cons second more =>
    rw [joinParts, List.append_assoc]
    · refine starts.append ?_
      intro rest
      rw [List.append_assoc]
      exact ends _
    · rintro ⟨⟩

lemma starts_print {t : TypeExpr} (legible : t.Legible) (depth : Nat) :
    Starts (print depth t) := by
  have ends {c : Char} (chars : List Char) (mem : c ∈ '[' :: ' ' :: closers) (rest : List Char) :
      Ends (c :: chars ++ rest) := by
    rintro d ⟨⟩
    exact mem
  induction legible generalizing depth with
  | @mk t layer parts ih =>
    cases t with
    | keyword word =>
      have letters : word.text.toList ≠ [] ∧ word.text.toList.all isWordChar = true := by
        cases word <;> decide
      exact .word letters.1 (List.all_eq_true.mp letters.2)
    | literal value =>
      match value with
      | .string s =>
        change Starts (Json.quote s).toList
        rw [Json.toList_quote]
        exact .symbol (by decide) (by decide)
      | .bool b =>
        have letters : (Json.bool b).compact.toList ≠ [] ∧
            (Json.bool b).compact.toList.all isWordChar = true := by
          cases b <;> decide
        exact .word letters.1 (List.all_eq_true.mp letters.2)
      | .number (.whole n) => exact starts_whole n
    | reference name =>
      have isName : IsName name := layer
      obtain ⟨c, tail, chars, start, all⟩ := isBare_chars isName.bare
      have nonempty : name.toList ≠ [] := by simp [chars]
      exact .word nonempty all
    | array item =>
      exact ((ih item (by simp [TypeExpr.parts]) depth).operand _).append (ends _ (by decide))
    | tuple items rest =>
      rw [print_tuple]
      exact .symbol (c := '[') (by decide) (by decide)
    | function params returns =>
      rw [print_function]
      exact .symbol (c := '(') (by decide) (by decide)
    | object members =>
      rw [print_object, braces]
      split
      · exact .symbol (by decide) (by decide)
      · exact .symbol (by decide) (by decide)
    | record key value =>
      refine ⟨⟨'R', _, rfl, by decide⟩, ?_⟩
      rintro rest - colon
      cases colon
    | union members =>
      cases members with
      | nil => cases layer
      | cons first more =>
        rw [print_union]
        exact starts_join ((ih first (by simp [TypeExpr.parts]) depth).operand _)
          (ends _ (by decide))
    | intersection members =>
      cases members with
      | nil => cases layer
      | cons first more =>
        rw [print_intersection]
        exact starts_join ((ih first (by simp [TypeExpr.parts]) depth).operand _)
          (ends _ (by decide))
    | documented _ inner => exact ih inner (by simp [TypeExpr.parts]) depth

section Atoms

variable {type : Reader TypeExpr} {fuel depth : Nat}

variable (type) in
/-- Whether a reader takes a printed type as it is without comments, in front of what can follow
it. -/
def Understands (t : TypeExpr) : Prop :=
  ∀ depth rest, Closes rest → type (print depth t ++ rest) = some (plain t, rest)

lemma readAtom_start {c : Char} (start : Identifier.isStart c = true) :
    readAtom type fuel (c :: rest) = readWord type (c :: rest) := by
  have other {d : Char} (symbol : Identifier.isStart d = false) : c ≠ d := by
    rintro rfl
    rw [symbol] at start
    cases start
  rw [readAtom, if_neg (other rfl), if_neg (other rfl), if_neg (other rfl), if_neg (other rfl),
    if_pos start]

/-- A word is read up to what follows it. -/
lemma readAtom_word {word : List Char} {c : Char} {tail : List Char} (chars : word = c :: tail)
    (start : Identifier.isStart c = true) (all : ∀ c ∈ word, isWordChar c = true)
    (ends : Ends rest) :
    readAtom type fuel (word ++ rest) = some (ofWord (String.ofList word), rest) := by
  obtain ⟨front, back⟩ := span_append all ends.not_word
  subst chars
  rw [List.cons_append, readAtom_start start, ← List.cons_append, readWord, front, back,
    expect_none (ends.head?_ne (by decide))]

lemma readAtom_keyword (word : Keyword) (ends : Ends rest) :
    readAtom type fuel (print depth (keyword word) ++ rest) = some (keyword word, rest) := by
  have read (c : Char) (tail : List Char) (chars : word.text.toList = c :: tail)
      (start : Identifier.isStart c = true) : readAtom type fuel (word.text.toList ++ rest) =
        some (ofWord (String.ofList word.text.toList), rest) := by
    have letters : word.text.toList.all isWordChar = true := by
      cases word <;> decide
    exact readAtom_word chars start (List.all_eq_true.mp letters) ends
  rw [print_keyword]
  cases word <;> exact read _ _ rfl (by decide)

lemma readAtom_reference {name : String} (isName : IsName name) (ends : Ends rest) :
    readAtom type fuel (print depth (reference name) ++ rest) = some (reference name, rest) := by
  obtain ⟨c, tail, chars, start, all⟩ := isBare_chars isName.bare
  have unknown : Keyword.ofText? name = none := by
    refine List.find?_eq_none.mpr ?_
    intro word _ same
    exact isName.notKeyword word (beq_iff_eq.mp same).symm
  rw [print_reference, readAtom_word chars start all ends, String.ofList_toList, ofWord,
    if_neg isName.notTrue, if_neg isName.notFalse, unknown]

/-- A digit starts no word. -/
lemma isStart_of_isDigit {c : Char} (digit : c.isDigit = true) : Identifier.isStart c = false := by
  have range : 48 ≤ c.toNat ∧ c.toNat ≤ 57 := by
    simp only [Char.isDigit, Bool.and_eq_true, decide_eq_true_eq, ge_iff_le, UInt32.le_iff_toNat_le]
      at digit
    exact digit
  obtain ⟨least, most⟩ := range
  have code : c = Char.ofNat c.toNat := (Char.ofNat_toNat c).symm
  generalize c.toNat = n at least most code
  subst code
  interval_cases n <;> rfl

lemma readAtom_int {c : Char} (int : c = '-' ∨ c.isDigit = true) :
    readAtom type fuel (c :: rest) = readInt (c :: rest) := by
  have symbol {d : Char} (negative : '-' ≠ d) (digit : d.isDigit = false) : c ≠ d := by
    rintro rfl
    rcases int with rfl | int
    · exact negative rfl
    · rw [digit] at int
      cases int
  have start : Identifier.isStart c = false := by
    rcases int with rfl | int
    · rfl
    · exact isStart_of_isDigit int
  rw [readAtom, if_neg (symbol (by decide) rfl), if_neg (symbol (by decide) rfl),
    if_neg (symbol (by decide) rfl), if_neg (symbol (by decide) rfl), if_neg (by simp [start])]

lemma readAtom_whole (n : Int) (ends : Ends rest) :
    readAtom type fuel ((Number.text (.whole n)).toList ++ rest) =
      some (literal (.number (.whole n)), rest) := by
  have stops : ∀ c ∈ rest.head?, c.isDigit = false := by
    intro c mem
    have := ends.not_word c mem
    simp only [isWordChar, Bool.or_eq_false_iff] at this
    exact this.2
  have digits : ∀ c ∈ (toString n.natAbs).toList, c.isDigit = true :=
    fun c mem => Json.isDigit_of_mem_toString mem
  obtain ⟨front, back⟩ := span_append digits stops
  have size : DecimalText.ofDigits (toString n.natAbs).toList = n.natAbs := by
    rw [Nat.toString_eq_ofList_toDigits, String.toList_ofList, DecimalText.ofDigits_toDigits]
  obtain ⟨c, tail, chars⟩ : ∃ c tail, (toString n.natAbs).toList = c :: tail :=
    List.exists_cons_of_ne_nil (by simp)
  have first : c.isDigit = true := digits c (chars ▸ List.mem_cons_self)
  rw [Number.text_whole, String.toList_append, List.append_assoc]
  by_cases negative : n < 0
  · have sign : (if decide (n < 0) then "-" else "").toList = ['-'] := by simp [negative]
    rw [sign, List.cons_append, List.nil_append, readAtom_int (.inl rfl), readInt]
    have skipped : expect ['-'] ('-' :: ((toString n.natAbs).toList ++ rest)) =
        some ((toString n.natAbs).toList ++ rest) := expect_append ['-'] _
    simp only [skipped, front, back, size]
    congr 5
    simp only [if_true]
    omega
  · have sign : (if decide (n < 0) then "-" else "").toList = [] := by simp [negative]
    have plain : expect ['-'] ((toString n.natAbs).toList ++ rest) = none := by
      refine expect_none ?_
      rw [chars]
      rintro ⟨⟩
      cases first
    have read : readAtom type fuel ((toString n.natAbs).toList ++ rest) =
        readInt ((toString n.natAbs).toList ++ rest) := by
      rw [chars]
      exact readAtom_int (.inr first)
    rw [sign, List.nil_append, read, readInt]
    simp only [plain, front, back, size]
    congr 5
    simp only [Bool.false_eq_true, if_false]
    omega

lemma readAtom_literal {value : Json} (layer : LegibleLayer (literal value)) (ends : Ends rest) :
    readAtom type fuel (print depth (literal value) ++ rest) = some (literal value, rest) := by
  rw [print_literal]
  match value, layer with
  | .string s, _ =>
    change readAtom type fuel ((Json.quote s).toList ++ rest) = _
    rw [Json.toList_quote, List.cons_append, List.append_assoc]
    change (Json.unquote (s.toList.flatMap Json.escapeChar ++ '"' :: rest)).map _ = _
    rw [Json.unquote_quote]
    simp
  | .bool true, _ =>
    exact readAtom_word (c := 't') rfl (by decide) (List.all_eq_true.mp (by decide)) ends
  | .bool false, _ =>
    exact readAtom_word (c := 'f') rfl (by decide) (List.all_eq_true.mp (by decide)) ends
  | .number (.whole n), _ => exact readAtom_whole n ends

/-- What stands in parentheses is read as a type, when it does not start like parameters. -/
lemma readAtom_parens {t : TypeExpr} (legible : t.Legible) (understands : Understands type t) :
    readAtom type fuel (operand true (print depth t) ++ rest) = some (plain t, rest) := by
  have closes : Closes (')' :: rest) := closes_cons (by decide)
  have params := (starts_print legible depth).not_params closes.ends
  have chars : operand true (print depth t) ++ rest = '(' :: (print depth t ++ ')' :: rest) := by
    simp [operand]
  have close : expect [')'] (')' :: rest) = some rest := expect_append [')'] rest
  rw [chars, readAtom, if_pos rfl, if_neg (by simp [params]), understands depth _ closes]
  simp [close]

lemma readAtom_record {key value : TypeExpr} (first : Understands type key)
    (second : Understands type value) :
    readAtom type fuel (print depth (record key value) ++ rest) =
      some (record (plain key) (plain value), rest) := by
  generalize body : print depth key ++ (", ".toList ++ (print depth value ++ ('>' :: rest))) = chars
  have printed : print depth (record key value) ++ rest = "Record<".toList ++ chars := by
    simp [print_record, ← body]
  have word : ("Record<".toList ++ chars).dropWhile isWordChar = '<' :: chars := rfl
  have bracket : expect ['<'] ('<' :: chars) = some chars := expect_append ['<'] chars
  have last : expect ['>'] ('>' :: rest) = some rest := expect_append ['>'] rest
  have start : readAtom type fuel ("Record<".toList ++ chars) =
      readWord type ("Record<".toList ++ chars) := readAtom_start (c := 'R') (by decide)
  rw [printed, start, readWord, word, bracket, ← body]
  dsimp only
  rw [first depth _ (closes_comma _)]
  simp only [Option.bind_eq_bind, Option.bind_some, expect_append]
  rw [second depth _ (closes_cons (by decide))]
  simp [last]

end Atoms

end EventContracts.TypeScript.TypeExpr
