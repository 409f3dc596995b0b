import EventContracts.Proofs.PrintedTypes
import Mathlib.Data.List.DropRight

/-! Types in brackets: tuples, functions and objects. The parts of such a type are separated from
one another and closed by a bracket, so the reader takes them one after the other, when it
understands each of them. -/

namespace EventContracts.TypeScript.TypeExpr

variable {rest : List Char} {type : Reader TypeExpr} {fuel depth : Nat}

lemma spread_dots (chars : List Char) : spread ("...".toList ++ chars) = (true, chars) := by
  rw [spread, expect_append]

lemma spread_plain {chars : List Char} (other : chars.head? ≠ some '.') :
    spread chars = (false, chars) := by
  have none : expect "...".toList chars = none := expect_none other
  rw [spread, none]

/-- A printed item of a tuple, which may stand after dots. -/
def printElement (depth : Nat) (element : Bool × TypeExpr) : List Char :=
  if element.1 then "...".toList ++ print depth (array element.2) else print depth element.2

lemma first_printElement (depth : Nat) {element : Bool × TypeExpr} (legible : element.2.Legible) :
    ∃ c tail, printElement depth element = c :: tail ∧ c ≠ ']' := by
  obtain ⟨dots, t⟩ := element
  cases dots with
  | true => exact ⟨'.', _, rfl, by decide⟩
  | false =>
    obtain ⟨c, tail, chars, other⟩ := (starts_print legible depth).first
    refine ⟨c, tail, chars, ?_⟩
    rintro rfl
    exact other (by decide)

lemma readElement_print {element : Bool × TypeExpr} (legible : element.2.Legible)
    (understands : Understands type (if element.1 then array element.2 else element.2))
    (closes : Closes rest) :
    readElement type (printElement depth element ++ rest) =
      some ((element.1, plain element.2), rest) := by
  obtain ⟨dots, t⟩ := element
  have read := understands depth rest closes
  cases dots with
  | true =>
    simp only [if_true] at read
    simp only [printElement, if_true, List.append_assoc, readElement, spread_dots, read]
    rfl
  | false =>
    obtain ⟨c, tail, chars, other⟩ := (starts_print legible depth).first
    have alone : spread (print depth t ++ rest) = (false, print depth t ++ rest) := by
      refine spread_plain ?_
      rw [chars]
      rintro ⟨⟩
      exact other (by decide)
    simp only [Bool.false_eq_true, if_false] at read
    simp only [printElement, Bool.false_eq_true, if_false, readElement, alone, read]
    rfl

lemma tupleOf_append (items : List TypeExpr) (last : Option TypeExpr) :
    tupleOf (items.map (fun t => (false, t)) ++ last.toList.map fun t => (true, t)) =
      tuple items last := by
  have absent : (items.map fun t => (false, t)).find? (·.1) = none := by
    simp [List.find?_eq_none]
  rw [tupleOf, List.find?_append, absent]
  cases last <;> simp [Function.comp_def, List.filter_map]

lemma joinParts_cons (separator first : List Char) (more : List (List Char)) :
    ∃ tail, joinParts separator (first :: more) = first ++ tail := by
  cases more with
  | nil => exact ⟨[], (List.append_nil first).symm⟩
  | cons second more => exact ⟨separator ++ joinParts separator (second :: more),
      List.append_assoc ..⟩

lemma readTuple_items {chars : List Char} (other : chars.head? ≠ some ']') :
    readTuple type fuel chars = (do
      let (elements, chars) ← chain (readElement type) ", ".toList fuel chars
      let chars ← expect [']'] chars
      return (tupleOf elements, chars)) := by
  rw [readTuple]
  rintro tail rfl
  exact other rfl

/-- The items of a tuple are read back. -/
lemma readTuple_elements {elements : List (Bool × TypeExpr)} (legible : ∀ e ∈ elements, e.2.Legible)
    (each : ∀ e ∈ elements, Understands type (if e.1 then array e.2 else e.2))
    (enough : elements.length ≤ fuel) :
    readTuple type fuel (joinParts ", ".toList (elements.map (printElement depth)) ++ ']' :: rest) =
      some (tupleOf (elements.map fun e => (e.1, plain e.2)), rest) := by
  cases elements with
  | nil => rfl
  | cons e more =>
    have other : (joinParts ", ".toList ((e :: more).map (printElement depth)) ++
        ']' :: rest).head? ≠ some ']' := by
      obtain ⟨c, chars, first, differs⟩ := first_printElement depth (legible e List.mem_cons_self)
      obtain ⟨tail, joined⟩ := joinParts_cons ", ".toList (printElement depth e)
        (more.map (printElement depth))
      rw [List.map_cons, joined, first]
      exact fun same => differs (Option.some.inj same)
    have ends : expect ", ".toList (']' :: rest) = none := expect_none (c := ',') (by simp)
    have read : chain (readElement type) ", ".toList fuel
        (joinParts ", ".toList ((e :: more).map (printElement depth)) ++ ']' :: rest) =
          some ((e :: more).map (fun e => (e.1, plain e.2)), ']' :: rest) :=
      chain_join (List.cons_ne_nil e more) enough
        (fun e mem => ⟨readElement_print (legible e mem) (each e mem) (closes_cons (by decide)),
          fun tail => readElement_print (legible e mem) (each e mem) (closes_comma tail)⟩) ends
    have close : expect [']'] (']' :: rest) = some rest := expect_append [']'] rest
    simp only [readTuple_items other, read, Option.bind_eq_bind, Option.bind_some, close]
    rfl

lemma readAtom_tuple {items : List TypeExpr} {last : Option TypeExpr}
    (legible : (tuple items last).Legible) (each : ∀ t ∈ items, Understands type t)
    (final : ∀ t ∈ last, Understands type (array t)) (enough : items.length + 1 ≤ fuel) :
    readAtom type fuel (print depth (tuple items last) ++ rest) =
      some (plain (tuple items last), rest) := by
  obtain ⟨-, parts⟩ := legible
  generalize given : items.map (fun t => (false, t)) ++ last.toList.map (fun t => (true, t)) =
    elements
  have cases {P : Bool × TypeExpr → Prop} (plain : ∀ t ∈ items, P (false, t))
      (dots : ∀ t ∈ last, P (true, t)) : ∀ e ∈ elements, P e := by
    intro e mem
    rw [← given] at mem
    rcases List.mem_append.mp mem with mem | mem
    · obtain ⟨t, inside, rfl⟩ := List.mem_map.mp mem
      exact plain t inside
    · obtain ⟨t, inside, rfl⟩ := List.mem_map.mp mem
      exact dots t (Option.mem_toList.mp inside)
  have codes : elements.map (printElement depth) = items.map (print depth) ++
      last.toList.map fun t => "...".toList ++ print depth (array t) := by
    simp [← given, printElement, Function.comp_def]
  have printed : print depth (tuple items last) ++ rest =
      '[' :: (joinParts ", ".toList (elements.map (printElement depth)) ++ ']' :: rest) := by
    simp [print_tuple, codes]
  have view : tupleOf (elements.map fun e => (e.1, plain e.2)) = plain (tuple items last) := by
    rw [plain_tuple, ← tupleOf_append, ← given]
    cases last <;> simp [Function.comp_def]
  have short : elements.length ≤ fuel := by
    have : last.toList.length ≤ 1 := by cases last <;> simp
    simp only [← given, List.length_append, List.length_map]
    omega
  have read : readTuple type fuel
      (joinParts ", ".toList (elements.map (printElement depth)) ++ ']' :: rest) =
        some (tupleOf (elements.map fun e => (e.1, plain e.2)), rest) :=
    readTuple_elements (cases (fun t mem => parts t (by simp [TypeExpr.parts, mem]))
      fun t mem => parts t (by simp [TypeExpr.parts, Option.mem_def.mp mem])) (cases each final)
      short
  rw [printed, ← view, ← read]
  rfl

lemma skipComment_plain {chars : List Char} (other : chars.head? ≠ some '/') :
    skipComment chars = some chars := by
  rw [skipComment]
  rintro tail rfl
  exact other rfl

/-- A parameter is found after its comment, if it has one. -/
lemma skipComment_commentBefore (comment? : Option String) {c : Char} (tail : List Char)
    (symbol : c ∉ ['/', ' ', '\n']) :
    skipComment (commentBefore comment? ++ c :: tail) = some (c :: tail) := by
  simp only [List.mem_cons, List.not_mem_nil, or_false, not_or] at symbol
  cases comment? with
  | none => exact skipComment_plain fun same => symbol.1 (Option.some.inj same)
  | some comment =>
    rw [commentBefore, List.append_assoc, skipComment_docComment]
    exact congrArg some (skipBlank_cons symbol.2.1 symbol.2.2)

/-- A name is read up to its colon, in front of which no character of a name stands. -/
lemma span_name {name : String} (isName : Identifier.isBare name = true) (tail : List Char) :
    (name.toList ++ (": ".toList ++ tail)).takeWhile isWordChar = name.toList ∧
      (name.toList ++ (": ".toList ++ tail)).dropWhile isWordChar = ": ".toList ++ tail := by
  obtain ⟨-, -, -, -, all⟩ := isBare_chars isName
  refine span_append all ?_
  rintro c ⟨⟩
  decide

/-- A parameter after its comment is its name, with dots or without, and its type. -/
lemma printParam_eq (p : Param TypeExpr) :
    printParam depth p = commentBefore p.type.comment? ++
      ((if p.rest then "...".toList else []) ++ (p.name.toList ++ (": ".toList ++
        print depth (if p.rest then array p.type else p.type)))) := by
  obtain ⟨name, type, rest⟩ := p
  cases rest <;> simp [printParam, print_array]

/-- A name after dots or without them does not start like a comment or the end of a list. -/
lemma first_dotted {name : String} (isName : Identifier.isBare name = true) (dots : Bool)
    (tail : List Char) : ∃ c more, (if dots then "...".toList else []) ++ (name.toList ++ tail) =
      c :: more ∧ c ∉ ['/', ' ', '\n', ')'] := by
  cases dots with
  | true => exact ⟨'.', _, rfl, by decide⟩
  | false =>
    obtain ⟨c, more, chars, start, -⟩ := isBare_chars isName
    have symbols : ['/', ' ', '\n', ')'].any Identifier.isStart = false := by decide
    refine ⟨c, more ++ tail, by simp [chars], ?_⟩
    intro mem
    exact List.any_eq_false.mp symbols c mem start

lemma spread_dotted {name : String} (isName : Identifier.isBare name = true) (dots : Bool)
    (tail : List Char) : spread ((if dots then "...".toList else []) ++ (name.toList ++ tail)) =
      (dots, name.toList ++ tail) := by
  cases dots with
  | true => exact spread_dots _
  | false =>
    obtain ⟨c, more, chars, start, -⟩ := isBare_chars isName
    refine spread_plain ?_
    simp only [Bool.false_eq_true, if_false, List.nil_append, chars]
    rintro ⟨⟩
    cases start

lemma readParam_print {p : Param TypeExpr} (isName : IsName p.name)
    (understands : Understands type (if p.rest then array p.type else p.type))
    (closes : Closes rest) :
    readParam type (printParam depth p ++ rest) = some (⟨p.name, plain p.type, p.rest⟩, rest) := by
  have read := understands depth rest closes
  generalize body : print depth (if p.rest then array p.type else p.type) ++ rest = more at read
  have printed : printParam depth p ++ rest = commentBefore p.type.comment? ++
      ((if p.rest then "...".toList else []) ++ (p.name.toList ++ (": ".toList ++ more))) := by
    simp only [printParam_eq, ← body, List.append_assoc]
  obtain ⟨c, tail, first, symbol⟩ := first_dotted isName.bare p.rest (": ".toList ++ more)
  have found := skipComment_commentBefore p.type.comment? tail
    (fun mem => symbol (by revert mem; simp; tauto) : c ∉ ['/', ' ', '\n'])
  obtain ⟨front, back⟩ := span_name isName.bare more
  rw [← first] at found
  simp only [readParam, printed, found, spread_dotted isName.bare, front, back, expect_append, read,
    Option.bind_eq_bind, Option.bind_some, String.ofList_toList]
  obtain ⟨name, t, dots⟩ := p
  cases dots <;> rfl

/-- What is printed for parameters starts like them. -/
lemma startsParams_print (depth : Nat) {params : List (Param TypeExpr)}
    (names : ∀ p ∈ params, IsName p.name) (tail : List Char) : startsParams
      (joinParts ", ".toList (params.map (printParam depth)) ++ (')' :: tail)) = true := by
  cases params with
  | nil => rfl
  | cons p params =>
    obtain ⟨more, joined⟩ := joinParts_cons ", ".toList (printParam depth p)
      (params.map (printParam depth))
    rw [List.map_cons, joined, printParam_eq]
    obtain ⟨name, t, dots⟩ := p
    cases t.comment? with
    | some comment => rfl
    | none =>
      cases dots with
      | true => rfl
      | false =>
        obtain ⟨-, back⟩ := span_name (names _ List.mem_cons_self).bare
          (print depth t ++ more ++ ')' :: tail)
        simp only [commentBefore, Bool.false_eq_true, if_false, List.nil_append,
          List.append_assoc] at back ⊢
        unfold startsParams
        split
        · rfl
        · rfl
        · rfl
        · rw [back]
          rfl

lemma readParams_print (depth : Nat) {params : List (Param TypeExpr)}
    (names : ∀ p ∈ params, IsName p.name)
    (each : ∀ p ∈ params, Understands type (if p.rest then array p.type else p.type))
    (enough : params.length ≤ fuel) (tail : List Char) :
    readParams type fuel (joinParts ", ".toList (params.map (printParam depth)) ++ (')' :: tail)) =
      some (plainParams params, ')' :: tail) := by
  cases params with
  | nil => rfl
  | cons p params =>
    have other : (joinParts ", ".toList ((p :: params).map (printParam depth)) ++
        ')' :: tail).head? ≠ some ')' := by
      obtain ⟨more, joined⟩ := joinParts_cons ", ".toList (printParam depth p)
        (params.map (printParam depth))
      obtain ⟨c, chars, first, symbol⟩ := first_dotted (names p List.mem_cons_self).bare p.rest
        (": ".toList ++ print depth (if p.rest then array p.type else p.type))
      rw [List.map_cons, joined, printParam_eq, first]
      cases p.type.comment? with
      | some comment => simp [commentBefore, docComment]
      | none =>
        rintro same
        obtain rfl := Option.some.inj same
        exact symbol (by decide)
    have ends : expect ", ".toList (')' :: tail) = none := expect_none (c := ',') (by simp)
    have read : chain (readParam type) ", ".toList fuel
        (joinParts ", ".toList ((p :: params).map (printParam depth)) ++ ')' :: tail) =
          some ((p :: params).map (fun p => ⟨p.name, plain p.type, p.rest⟩), ')' :: tail) :=
      chain_join (List.cons_ne_nil p params) enough
        (fun p mem => ⟨readParam_print (names p mem) (each p mem) (closes_cons (by decide)),
          fun tail => readParam_print (names p mem) (each p mem) (closes_comma tail)⟩) ends
    rw [readParams, read, plainParams_eq_map]
    rintro rest same
    exact other (by rw [same]; rfl)

/-- A function is read up to what closes its result. -/
lemma readAtom_function {params : List (Param TypeExpr)} {returns : TypeExpr}
    (names : ∀ p ∈ params, IsName p.name)
    (each : ∀ p ∈ params, Understands type (if p.rest then array p.type else p.type))
    (result : Understands type returns) (enough : params.length ≤ fuel) (closes : Closes rest) :
    readAtom type fuel (print depth (function params returns) ++ rest) =
      some (plain (function params returns), rest) := by
  have read := result depth rest closes
  generalize body : print depth returns ++ rest = more at read
  have printed : print depth (function params returns) ++ rest =
      '(' :: (joinParts ", ".toList (params.map (printParam depth)) ++
        (") => ".toList ++ more)) := by
    simp [print_function, ← body]
  have arrow : ") => ".toList ++ more = ')' :: (" => ".toList ++ more) := rfl
  have inner := readParams_print depth names each enough (" => ".toList ++ more)
  have starts := startsParams_print depth names (" => ".toList ++ more)
  rw [← arrow] at inner starts
  rw [printed, readAtom, if_pos rfl, if_pos starts, readFunction]
  simp only [inner, expect_append, read, Option.bind_eq_bind, Option.bind_some]
  rfl

lemma readMemberName_print (name : String) (stops : ∀ c ∈ rest.head?, isWordChar c = false) :
    readMemberName (memberName name ++ rest) = some (name, rest) := by
  by_cases bare : Identifier.isBare name = true
  · obtain ⟨c, tail, chars, start, all⟩ := isBare_chars bare
    obtain ⟨front, back⟩ := span_append all stops
    rw [memberName, if_pos bare, readMemberName, front, back, String.ofList_toList]
    rintro more same
    rw [chars] at same
    obtain rfl := (List.cons.inj same).1
    cases start
  · rw [memberName, if_neg bare, Json.toList_quote, List.cons_append, List.append_assoc]
    change (Json.unquote (name.toList.flatMap Json.escapeChar ++ '"' :: rest)).map _ = _
    rw [Json.unquote_quote]
    simp

/-- The name of a member starts like a word or a text. -/
lemma first_memberName (name : String) :
    ∃ c tail, memberName name = c :: tail ∧ c ∉ ['\x7d', '/', ' ', '\n'] := by
  by_cases bare : Identifier.isBare name = true
  · obtain ⟨c, tail, chars, start, -⟩ := isBare_chars bare
    have symbols : ['\x7d', '/', ' ', '\n'].any Identifier.isStart = false := by decide
    refine ⟨c, tail, by rw [memberName, if_pos bare, chars], ?_⟩
    intro mem
    exact List.any_eq_false.mp symbols c mem start
  · exact ⟨'"', _, by rw [memberName, if_neg bare, Json.toList_quote], by decide⟩

/-- A member after its comment. -/
def printMember (depth : Nat) (m : Member TypeExpr) : List Char :=
  memberName m.name ++ ((if m.optional then ['?'] else []) ++ (": ".toList ++
    (print depth m.type ++ [';'])))

lemma printLines_cons (m : Member TypeExpr) (members : List (Member TypeExpr)) :
    printLines depth (m :: members) = commentLine m.type.comment? (depth + 1) ++
      (indent (depth + 1) ++ (printMember (depth + 1) m ++ '\n' :: printLines depth members)) := by
  obtain ⟨name, t, optional⟩ := m
  have unfolded : printLines depth (⟨name, t, optional⟩ :: members) =
      commentLine t.comment? (depth + 1) ++ indent (depth + 1) ++ memberName name ++
        (if optional then ['?'] else []) ++ ": ".toList ++ print (depth + 1) t ++ [';', '\n'] ++
        printLines depth members := rfl
  rw [unfolded]
  simp [printMember]

lemma readMember_print {m : Member TypeExpr} (understands : Understands type m.type)
    {chars : List Char} (found : skipComment chars = some (printMember depth m ++ rest)) :
    readMember type chars = some (⟨m.name, plain m.type, m.optional⟩, rest) := by
  obtain ⟨name, t, optional⟩ := m
  have read := understands depth (';' :: rest) (closes_cons (by decide))
  have last : expect [';'] (';' :: rest) = some rest := expect_append [';'] rest
  generalize body : print depth t ++ ';' :: rest = more at read
  have printed : printMember depth ⟨name, t, optional⟩ ++ rest = memberName name ++
      ((if optional then ['?'] else []) ++ (": ".toList ++ more)) := by
    simp [printMember, ← body]
  rw [readMember, found, printed]
  cases optional with
  | true =>
    have stops : ∀ c ∈ ('?' :: (": ".toList ++ more)).head?, isWordChar c = false := by
      rintro c ⟨⟩
      decide
    have named := readMemberName_print name stops
    have mark : expect ['?'] ('?' :: (": ".toList ++ more)) = some (": ".toList ++ more) :=
      expect_append ['?'] _
    simp only [if_true, List.cons_append, List.nil_append, named, mark, expect_append, read, last,
      Option.bind_eq_bind, Option.bind_some]
    rfl
  | false =>
    have stops : ∀ c ∈ (": ".toList ++ more).head?, isWordChar c = false := by
      rintro c ⟨⟩
      decide
    have named := readMemberName_print name stops
    have mark : expect ['?'] (": ".toList ++ more) = none := expect_none (c := '?') (by simp)
    simp only [Bool.false_eq_true, if_false, List.nil_append, named, mark, expect_append, read,
      last, Option.bind_eq_bind, Option.bind_some]
    rfl

lemma readMembers_skip (chars : List Char) :
    readMembers type fuel chars = readMembers type fuel (skipBlank chars) := by
  have twice : skipBlank (skipBlank chars) = skipBlank chars := List.dropWhile_idempotent _ _
  cases fuel with
  | zero => rfl
  | succ fuel => rw [readMembers, readMembers, twice]

lemma readMembers_cons {chars : List Char} (other : (skipBlank chars).head? ≠ some '\x7d') :
    readMembers type (fuel + 1) chars = (do
      let (member, chars) ← readMember type (skipBlank chars)
      let (more, chars) ← readMembers type fuel chars
      return (member :: more, chars)) := by
  rw [readMembers]
  split
  · rename_i same
    rw [same] at other
    exact absurd rfl other
  · rfl

/-- In front of a member there is space, and a comment on a line of its own if it has one. -/
lemma skipBlank_line (m : Member TypeExpr) (comment? : Option String) (tail : List Char) :
    let line := commentLine comment? depth ++ (indent depth ++ (printMember depth m ++ tail))
    (skipBlank line).head? ≠ some '\x7d' ∧
      skipComment (skipBlank line) = some (printMember depth m ++ tail) := by
  obtain ⟨c, more, first, symbol⟩ := first_memberName m.name
  simp only [List.mem_cons, List.not_mem_nil, or_false, not_or] at symbol
  obtain ⟨brace, slash, space, line⟩ := symbol
  have name : skipBlank (printMember depth m ++ tail) = printMember depth m ++ tail := by
    rw [printMember, first]
    exact skipBlank_cons space line
  intro all
  cases comment? with
  | none =>
    have found : skipBlank all = printMember depth m ++ tail :=
      (skipBlank_indent depth _).trans name
    have head : (printMember depth m ++ tail).head? = some c := by
      rw [printMember, first]
      rfl
    rw [found, head]
    refine ⟨fun same => brace (Option.some.inj same), skipComment_plain ?_⟩
    rw [head]
    exact fun same => slash (Option.some.inj same)
  | some comment =>
    have found : skipBlank all =
        docComment comment ++ ('\n' :: (indent depth ++ (printMember depth m ++ tail))) := by
      have line : all = indent depth ++
          (docComment comment ++ ('\n' :: (indent depth ++ (printMember depth m ++ tail)))) := by
        simp [all, commentLine]
      rw [line, skipBlank_indent]
      exact skipBlank_cons (by decide) (by decide)
    have skipped : skipBlank ('\n' :: (indent depth ++ (printMember depth m ++ tail))) =
        printMember depth m ++ tail := (skipBlank_indent depth _).trans name
    rw [found, skipComment_docComment, skipped]
    exact ⟨nofun, rfl⟩

/-- The lines of an object type are read back up to its brace. -/
lemma readMembers_print {members : List (Member TypeExpr)}
    (each : ∀ m ∈ members, Understands type m.type) (enough : members.length + 1 ≤ fuel) :
    readMembers type fuel (printLines depth members ++ (indent depth ++ '\x7d' :: rest)) =
      some (plainMembers members, rest) := by
  induction members generalizing fuel with
  | nil =>
    obtain ⟨fuel, rfl⟩ : ∃ n, fuel = n + 1 := ⟨fuel - 1, by omega⟩
    have found : skipBlank (indent depth ++ '\x7d' :: rest) = '\x7d' :: rest :=
      (skipBlank_indent depth _).trans (skipBlank_cons (by decide) (by decide))
    change readMembers type (fuel + 1) (indent depth ++ '\x7d' :: rest) = _
    rw [readMembers, found]
    rfl
  | cons m members ih =>
    obtain ⟨fuel, rfl⟩ : ∃ n, fuel = n + 1 := ⟨fuel - 1, by omega⟩
    have more := ih (fun x mem => each x (List.mem_cons_of_mem _ mem)) (by simpa using enough)
    generalize tail : printLines depth members ++ (indent depth ++ '\x7d' :: rest) = chars at more
    have printed : printLines depth (m :: members) ++ (indent depth ++ '\x7d' :: rest) =
        commentLine m.type.comment? (depth + 1) ++
          (indent (depth + 1) ++ (printMember (depth + 1) m ++ '\n' :: chars)) := by
      simp [printLines_cons, ← tail]
    obtain ⟨other, found⟩ := skipBlank_line m m.type.comment? ('\n' :: chars)
    have next : readMembers type fuel ('\n' :: chars) = readMembers type fuel chars := by
      rw [readMembers_skip, readMembers_skip chars]
      rfl
    rw [printed, readMembers_cons other, readMember_print (each m List.mem_cons_self) found]
    simp only [Option.bind_eq_bind, Option.bind_some, next, more]
    rfl

lemma readAtom_object {members : List (Member TypeExpr)}
    (each : ∀ m ∈ members, Understands type m.type) (enough : members.length + 1 ≤ fuel) :
    readAtom type fuel (print depth (object members) ++ rest) =
      some (plain (object members), rest) := by
  have read : readMembers type fuel (printLines depth members ++ (indent depth ++ '\x7d' :: rest)) =
      some (plainMembers members, rest) := readMembers_print each enough
  have opened (chars : List Char)
      (h : readMembers type fuel chars = some (plainMembers members, rest)) :
      readAtom type fuel ('\x7b' :: chars) = some (plain (object members), rest) := by
    change (readMembers type fuel chars).map _ = _
    rw [h]
    rfl
  rw [print_object, braces]
  split
  · rename_i empty
    rw [List.isEmpty_iff.mp empty, List.nil_append, readMembers_skip, skipBlank_indent] at read
    refine opened _ ?_
    rw [readMembers_skip]
    exact read
  · have printed : ['\x7b', '\n'] ++ printLines depth members ++ indent depth ++ ['\x7d'] ++ rest =
        '\x7b' :: '\n' :: (printLines depth members ++ (indent depth ++ '\x7d' :: rest)) := by
      simp
    rw [printed]
    refine opened _ ?_
    rw [readMembers_skip] at read ⊢
    exact read

end EventContracts.TypeScript.TypeExpr
