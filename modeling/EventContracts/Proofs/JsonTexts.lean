import EventContracts.Proofs.QuotedTexts
import EventContracts.Proofs.ShortestDoubles
import EventContracts.Proofs.SpecConversion

/-! Different values have different texts. The first character tells the kind of a value; numbers
end where their characters do, and containers at their brackets, so a text starts with the text of
at most one value. Doubles are told apart by the number that is read from their digits. -/

namespace EventContracts

namespace Number

/-- Whether a character can be in the text of a number. -/
def isTextChar (c : Char) : Bool := c.isDigit || c = '-' || c = '+' || c = '.' || c = 'e'

/-- Whether all characters of a text can be in the text of a number. -/
def Written (text : String) : Prop := ∀ c ∈ text.toList, isTextChar c

lemma Written.append {s t : String} (first : Written s) (second : Written t) :
    Written (s ++ t) := by
  intro c mem
  rw [String.toList_append] at mem
  exact (List.mem_append.mp mem).elim (first c) (second c)

lemma written_symbols : ∀ text ∈ ["", "-", "+", ".", "0.", "e"], Written text := by
  have each : ∀ text ∈ ["", "-", "+", ".", "0.", "e"],
      (String.toList text).all isTextChar = true := by
    decide
  exact fun text mem => List.all_eq_true.mp (each text mem)

/-- Whether a number is whole, or a double in the unique form of its format. -/
def Regular : Number → Prop
  | whole _ => True
  | double d => d.Regular

end Number

namespace Json

open NumberStyle Digits

variable {d e : Double}

lemma readsBack_shortest (regular : d.Regular) :
    (Digits.shortest d).ReadsBack (numberStyle.magnitude (Digits.shortest d)) :=
  readsBack_magnitude (shortest_decimal d) (shortest_nonempty regular)

/-- A text that a number is read from does not start with a sign. -/
lemma head?_magnitude (regular : d.Regular) :
    (numberStyle.magnitude (Digits.shortest d)).toList.head? ≠ some '-' := by
  obtain ⟨significand, power, read, -⟩ := readsBack_shortest regular
  intro sign
  match chars : (numberStyle.magnitude (Digits.shortest d)).toList with
  | [] =>
    rw [chars] at sign
    cases sign
  | c :: rest =>
    rw [chars] at sign read
    obtain rfl := Option.some.inj sign
    cases read

lemma magnitude_injective (regular : d.Regular) (also : e.Regular)
    (same : numberStyle.magnitude (Digits.shortest d) =
      numberStyle.magnitude (Digits.shortest e)) :
    d.mantissa = e.mantissa ∧ d.exponent = e.exponent := by
  obtain ⟨significand, power, read, number⟩ := readsBack_shortest regular
  obtain ⟨other, power', read', number'⟩ := readsBack_shortest also
  rw [same, read'] at read
  obtain ⟨rfl, rfl⟩ := Prod.mk.inj (Option.some.inj read)
  have rounds := shortest_rounds regular
  have rounds' := shortest_rounds also
  rw [← number] at rounds
  rw [← number'] at rounds'
  exact rounds.unique regular also rounds'

/-- A sign is read from a text before a magnitude. -/
lemma sign_append_inj {text text' : String} (plain : text.toList.head? ≠ some '-')
    (plain' : text'.toList.head? ≠ some '-') {negative negative' : Bool}
    (same : (if negative then "-" else "") ++ text = (if negative' then "-" else "") ++ text') :
    negative = negative' ∧ text = text' := by
  have chars := congrArg String.toList same
  cases negative <;> cases negative' <;> simp at chars
  · exact ⟨rfl, String.toList_inj.mp chars⟩
  · rw [chars] at plain
    exact absurd rfl plain
  · rw [← chars] at plain'
    exact absurd rfl plain'
  · exact ⟨rfl, String.toList_inj.mp chars⟩

/-- The text of a double tells which one it is. -/
theorem text_injective (regular : d.Regular) (also : e.Regular)
    (same : numberStyle.text d = numberStyle.text e) : d = e := by
  obtain ⟨signs, magnitudes⟩ :=
    sign_append_inj (head?_magnitude regular) (head?_magnitude also) same
  obtain ⟨mantissas, exponents⟩ := magnitude_injective regular also magnitudes
  cases d
  cases e
  simp_all

lemma written_digitText {digits : List Nat} (decimal : Decimal digits) :
    Number.Written (digitText digits) := by
  intro c mem
  rw [toList_digitText] at mem
  simp [Number.isTextChar, isDigit_digitChars decimal c mem]

lemma isDigit_of_mem_toString {n : Nat} {c : Char} (mem : c ∈ (toString n).toList) :
    c.isDigit := by
  rw [Nat.toString_eq_ofList_toDigits, String.toList_ofList] at mem
  exact Nat.isDigit_of_mem_toDigits (by omega) (by omega) mem

lemma written_nat (n : Nat) : Number.Written (toString n) := by
  intro c mem
  simp [Number.isTextChar, isDigit_of_mem_toString mem]

/-- A double is written with the characters of numbers, and a point or an exponent. -/
lemma magnitude_chars {decimal : Digits} (proper : Decimal decimal.digits) :
    Number.Written (numberStyle.magnitude decimal) ∧
      ∃ c ∈ (numberStyle.magnitude decimal).toList, c = '.' ∨ c = 'e' := by
  have zeros (count : Nat) : Decimal (List.replicate count 0) := by
    intro d mem
    rw [List.eq_of_mem_replicate mem]
    omega
  have both {front back : List Nat} (first : Decimal front) (second : Decimal back) :
      Decimal (front ++ back) := by
    intro d mem
    exact (List.mem_append.mp mem).elim (first d) (second d)
  have symbols {text : String} (mem : text ∈ ["", "-", "+", ".", "0.", "e"]) :
      Number.Written text :=
    Number.written_symbols text mem
  rw [magnitude]
  dsimp only
  split
  · split
    · refine ⟨?_, '.', by simp, .inl rfl⟩
      exact (symbols (by simp)).append (written_digitText (both (zeros _) proper))
    · have shown := both proper (zeros (decimal.point.toNat - decimal.digits.length))
      refine ⟨?_, '.', by simp, .inl rfl⟩
      refine ((written_digitText fun d mem => shown d (List.mem_of_mem_take mem)).append
        (symbols (by simp))).append (written_digitText ?_)
      split
      · simp [Decimal]
      · exact fun d mem => shown d (List.mem_of_mem_drop mem)
  · refine ⟨?_, 'e', by simp, .inr rfl⟩
    refine ((Number.Written.append ?_ (symbols (by simp))).append ?_).append (written_nat _)
    · split
      · exact symbols (by simp)
      · rename_i d one
        exact written_digitText (one ▸ proper)
      · rename_i d rest _ more
        rw [more] at proper
        refine (Number.Written.append ?_ (symbols (by simp))).append (written_digitText ?_)
        · exact written_digitText fun x inside => proper x (by simp_all)
        · exact fun x inside => proper x (List.mem_cons_of_mem _ inside)
    · split
      · exact symbols (by decide)
      · exact symbols (by simp)

end Json

namespace Number

variable {n m : Number}

lemma text_whole (n : Int) :
    text (.whole n) = (if decide (n < 0) then "-" else "") ++ toString n.natAbs := by
  rw [text, Int.toString_eq_repr, Int.repr_eq_if]
  by_cases negative : n < 0
  · have size : (-n).toNat = n.natAbs := by omega
    rw [if_neg (by omega), if_pos (by simpa using negative), size]
    rfl
  · have size : n.toNat = n.natAbs := by omega
    rw [if_pos (by omega), if_neg (by simpa using negative), size, String.empty_append]
    rfl

lemma toString_nat_injective {n m : Nat} (same : toString n = toString m) : n = m := by
  rw [Nat.toString_eq_ofList_toDigits, Nat.toString_eq_ofList_toDigits] at same
  have digits := congrArg (DecimalText.ofDigits ∘ String.toList) same
  simpa [DecimalText.ofDigits_toDigits] using digits

lemma head?_toString (n : Nat) : (toString n).toList.head? ≠ some '-' := by
  intro sign
  cases Json.isDigit_of_mem_toString (List.mem_of_head? sign)

lemma text_whole_injective {a b : Int} (same : text (.whole a) = text (.whole b)) : a = b := by
  rw [text_whole, text_whole] at same
  obtain ⟨signs, sizes⟩ := Json.sign_append_inj (head?_toString _) (head?_toString _) same
  have sizes := toString_nat_injective sizes
  have signs : a < 0 ↔ b < 0 := by simpa using signs
  omega

lemma text_whole_chars (n : Int) :
    ∀ c ∈ (text (.whole n)).toList, isTextChar c ∧ c ≠ '.' ∧ c ≠ 'e' := by
  intro c mem
  rw [text_whole, String.toList_append] at mem
  rcases List.mem_append.mp mem with mem | mem
  · split at mem
    · obtain rfl : c = '-' := by simpa using mem
      exact ⟨rfl, by decide, by decide⟩
    · simp at mem
  · have digit := Json.isDigit_of_mem_toString mem
    refine ⟨by simp [isTextChar, digit], ?_, ?_⟩
    · rintro rfl
      cases digit
    · rintro rfl
      cases digit

lemma text_double_chars (d : Double) :
    Written (text (.double d)) ∧ ∃ c ∈ (text (.double d)).toList, c = '.' ∨ c = 'e' := by
  obtain ⟨plain, c, inside, marks⟩ := Json.magnitude_chars (Digits.shortest_decimal d)
  rw [text, NumberStyle.text]
  constructor
  · refine Written.append ?_ plain
    split
    · exact written_symbols "-" (by simp)
    · exact written_symbols "" (by simp)
  · refine ⟨c, ?_, marks⟩
    rw [String.toList_append]
    exact List.mem_append_right _ inside

lemma text_chars (n : Number) : Written n.text := by
  cases n with
  | whole n => exact fun c mem => (text_whole_chars n c mem).1
  | double d => exact (text_double_chars d).1

lemma text_ne_nil (n : Number) : n.text.toList ≠ [] := by
  cases n with
  | whole n =>
    rw [text_whole, Nat.toString_eq_ofList_toDigits]
    simp
  | double d =>
    obtain ⟨c, mem, -⟩ := (text_double_chars d).2
    exact List.ne_nil_of_mem mem

/-- The text of a number tells which one it is, and whether it is held as a whole number. -/
theorem text_injective (regular : n.Regular) (also : m.Regular) (same : n.text = m.text) :
    n = m := by
  cases n with
  | whole a =>
    cases m with
    | whole b => rw [text_whole_injective same]
    | double e =>
      obtain ⟨c, mem, marks⟩ := (text_double_chars e).2
      rw [← same] at mem
      obtain ⟨-, point, mark⟩ := text_whole_chars a c mem
      exact absurd marks (by simp [point, mark])
  | double d =>
    cases m with
    | whole b =>
      obtain ⟨c, mem, marks⟩ := (text_double_chars d).2
      rw [same] at mem
      obtain ⟨-, point, mark⟩ := text_whole_chars b c mem
      exact absurd marks (by simp [point, mark])
    | double e => rw [Json.text_injective regular also same]

end Number

namespace Json

/-- Whether all numbers in a value are regular. -/
inductive Regular : Json → Prop where
  | mk {v : Json} (number : ∀ n, v = .number n → n.Regular)
      (parts : ∀ part ∈ v.parts, part.Regular) : Regular v

/-- Whether no character of a number comes next. -/
def Stops (rest : List Char) : Prop := ∀ c ∈ rest.head?, Number.isTextChar c = false

/-- What kind of value starts with a character. -/
def leadOf (c : Char) : Nat :=
  if c = 'n' then 0
  else if c = 't' then 1
  else if c = 'f' then 2
  else if c = '"' then 3
  else if c = '[' then 4
  else if c = '\x7b' then 5
  else 6

/-- What kind of value a value is. -/
def lead : Json → Nat
  | null => 0
  | bool true => 1
  | bool false => 2
  | string _ => 3
  | array _ => 4
  | object _ => 5
  | number _ => 6

lemma leadOf_number {c : Char} (h : Number.isTextChar c) : leadOf c = 6 := by
  have other {d : Char} (outside : Number.isTextChar d = false) : c ≠ d := by
    rintro rfl
    rw [outside] at h
    cases h
  rw [leadOf, if_neg (other rfl), if_neg (other rfl), if_neg (other rfl), if_neg (other rfl),
    if_neg (other rfl), if_neg (other rfl)]

lemma compact_number (n : Number) : (number n).compact = n.text := by
  rw [compact]

lemma compactItems_eq (items : List Json) : compactItems items = items.map compact := by
  induction items with
  | nil => rfl
  | cons v items ih => rw [compactItems, ih]; rfl

lemma compactFields_eq (fields : List (String × Json)) :
    compactFields fields = fields.map fun field => quote field.1 ++ ":" ++ field.2.compact := by
  induction fields with
  | nil => rfl
  | cons field fields ih =>
    obtain ⟨key, v⟩ := field
    rw [compactFields, ih]
    rfl

/-- The characters of a list of items, separated by commas, before a bracket. -/
def listed (close : Char) (codes : List (List Char)) (rest : List Char) : List Char :=
  [','].intercalate codes ++ close :: rest

lemma toList_array (items : List Json) :
    (array items).compact.toList = '[' :: listed ']' (items.map fun v => v.compact.toList) [] := by
  rw [compact, compactItems_eq]
  simp [listed, String.toList_intercalate, Function.comp_def]

lemma toList_object (fields : List (String × Json)) :
    (object fields).compact.toList = '\x7b' :: listed '\x7d' (fields.map fun field =>
      (quote field.1).toList ++ ':' :: field.2.compact.toList) [] := by
  rw [compact, compactFields_eq]
  simp [listed, String.toList_intercalate, Function.comp_def]

/-- A value starts with a character that tells its kind, and not with a closing bracket. -/
lemma lead_compact (v : Json) :
    ∃ c rest, v.compact.toList = c :: rest ∧ leadOf c = v.lead ∧ c ≠ ']' := by
  match v with
  | null => exact ⟨_, _, rfl, rfl, by decide⟩
  | bool true => exact ⟨_, _, rfl, rfl, by decide⟩
  | bool false => exact ⟨_, _, rfl, rfl, by decide⟩
  | string s => exact ⟨_, _, toList_quote s, rfl, by decide⟩
  | array items => exact ⟨_, _, toList_array items, rfl, by decide⟩
  | object fields => exact ⟨_, _, toList_object fields, rfl, by decide⟩
  | number n =>
    obtain ⟨c, rest, chars⟩ := List.exists_cons_of_ne_nil n.text_ne_nil
    have first : Number.isTextChar c := n.text_chars c (chars ▸ List.mem_cons_self)
    refine ⟨c, rest, by rw [compact_number, chars], leadOf_number first, ?_⟩
    rintro rfl
    cases first

lemma stops_cons {c : Char} {rest : List Char} (stops : Number.isTextChar c = false) :
    Stops (c :: rest) := by
  rintro d ⟨⟩
  exact stops

section Listed

variable {α : Type} {code : α → List Char} {good : α → Prop} {close : Char}

lemma listed_cons (close : Char) (first : List Char) (codes : List (List Char))
    (rest : List Char) :
    listed close (first :: codes) rest =
      first ++ if codes.isEmpty then close :: rest else ',' :: listed close codes rest := by
  cases codes with
  | nil => simp [listed]
  | cons second codes => simp [listed, List.intercalate_cons_cons]

/-- Lists of items with one text are one list, when texts start with the text of at most one item:
an item ends before a comma or the bracket, and no item starts with the bracket. -/
lemma listed_inj (comma : close ≠ ',') (stops : Number.isTextChar close = false)
    {items others : List α} {rest rest' : List Char}
    (each : ∀ a ∈ items, ∀ b, good b → ∀ rest rest', Stops rest → Stops rest' →
      code a ++ rest = code b ++ rest' → a = b ∧ rest = rest')
    (opens : ∀ a, ∃ c tail, code a = c :: tail ∧ c ≠ close)
    (others_good : ∀ b ∈ others, good b)
    (same : listed close (items.map code) rest = listed close (others.map code) rest') :
    items = others ∧ rest = rest' := by
  have apart (a : α) (codes : List (List Char)) (tail tail' : List Char) :
      close :: tail ≠ listed close (code a :: codes) tail' := by
    obtain ⟨c, more, starts, differs⟩ := opens a
    rw [listed_cons, starts]
    intro same
    exact differs (List.cons.inj same).1.symm
  have follows (codes : List (List Char)) (tail : List Char) :
      Stops (if codes.isEmpty then close :: tail else ',' :: listed close codes tail) := by
    split
    · exact stops_cons stops
    · exact stops_cons rfl
  induction items generalizing others with
  | nil =>
    cases others with
    | nil => exact ⟨rfl, (List.cons.inj same).2⟩
    | cons b others => exact absurd same (apart b _ rest rest')
  | cons a items ih =>
    cases others with
    | nil => exact absurd same.symm (apart a _ rest' rest)
    | cons b others =>
      simp only [List.map_cons, listed_cons] at same
      obtain ⟨rfl, after⟩ := each a List.mem_cons_self b (others_good b List.mem_cons_self) _ _
        (follows _ rest) (follows _ rest') same
      cases items with
      | nil =>
        cases others with
        | nil => exact ⟨rfl, (List.cons.inj after).2⟩
        | cons c others => exact absurd (List.cons.inj after).1 comma
      | cons c items =>
        cases others with
        | nil => exact absurd (List.cons.inj after).1.symm comma
        | cons e others =>
          obtain ⟨rest_items, tails⟩ := ih
            (fun x mem => each x (List.mem_cons_of_mem _ mem))
            (fun x mem => others_good x (List.mem_cons_of_mem _ mem)) (List.cons.inj after).2
          exact ⟨by rw [rest_items], tails⟩

end Listed

lemma number_append_inj {n m : Number} (regular : n.Regular) (also : m.Regular)
    {rest rest' : List Char} (stops : Stops rest) (stops' : Stops rest')
    (same : n.text.toList ++ rest = m.text.toList ++ rest') : n = m ∧ rest = rest' := by
  obtain ⟨front, back⟩ := span_append n.text_chars stops
  obtain ⟨front', back'⟩ := span_append m.text_chars stops'
  rw [same, front'] at front
  rw [same, back'] at back
  exact ⟨Number.text_injective regular also (String.toList_inj.mp front.symm), back.symm⟩

/-- Whether no other text that starts with the text of a value starts with that of another one. -/
def Prefixed (v : Json) : Prop :=
  ∀ w : Json, w.Regular → ∀ rest rest', Stops rest → Stops rest' →
    v.compact.toList ++ rest = w.compact.toList ++ rest' → v = w ∧ rest = rest'

lemma array_append_inj {items others : List Json} {rest rest' : List Char}
    (each : ∀ v ∈ items, v.Prefixed) (regular : ∀ w ∈ others, w.Regular)
    (same : (array items).compact.toList ++ rest = (array others).compact.toList ++ rest') :
    items = others ∧ rest = rest' := by
  rw [toList_array, toList_array] at same
  have inner : listed ']' (items.map fun v => v.compact.toList) rest =
      listed ']' (others.map fun v => v.compact.toList) rest' := by
    simpa [listed] using same
  have opens (v : Json) : ∃ c tail, v.compact.toList = c :: tail ∧ c ≠ ']' := by
    obtain ⟨c, tail, starts, -, opens⟩ := lead_compact v
    exact ⟨c, tail, starts, opens⟩
  exact listed_inj (by decide) rfl each opens regular inner

/-- A field ends where its value does. -/
lemma object_append_inj {fields others : List (String × Json)} {rest rest' : List Char}
    (each : ∀ field ∈ fields, field.2.Prefixed) (regular : ∀ field ∈ others, field.2.Regular)
    (same : (object fields).compact.toList ++ rest = (object others).compact.toList ++ rest') :
    fields = others ∧ rest = rest' := by
  rw [toList_object, toList_object] at same
  let code (field : String × Json) := (quote field.1).toList ++ ':' :: field.2.compact.toList
  have inner : listed '\x7d' (fields.map code) rest = listed '\x7d' (others.map code) rest' := by
    simpa [listed] using same
  have opens (field : String × Json) : ∃ c tail, code field = c :: tail ∧ c ≠ '\x7d' :=
    ⟨_, _, congrArg (· ++ ':' :: field.2.compact.toList) (toList_quote field.1), by decide⟩
  have codes (field : String × Json) (mem : field ∈ fields) (other : String × Json)
      (also : other.2.Regular) (rest rest' : List Char) (stops : Stops rest)
      (stops' : Stops rest') (same : code field ++ rest = code other ++ rest') :
      field = other ∧ rest = rest' := by
    simp only [code, List.append_assoc] at same
    obtain ⟨keys, after⟩ := quote_append_inj same
    obtain ⟨values, tails⟩ := each field mem other.2 also _ _ stops stops' (List.cons.inj after).2
    exact ⟨Prod.ext keys values, tails⟩
  exact listed_inj (by decide) rfl codes opens regular inner

/-- A text starts with the text of at most one value, by induction on the value. -/
lemma prefixed {v : Json} (regular : v.Regular) : v.Prefixed := by
  induction regular with
  | @mk v number parts ih =>
    intro w also rest rest' stops stops' same
    have leads : v.lead = w.lead := by
      obtain ⟨c, tail, starts, kind, -⟩ := lead_compact v
      obtain ⟨d, tail', starts', kind', -⟩ := lead_compact w
      rw [starts, starts'] at same
      rw [← kind, ← kind', (List.cons.inj same).1]
    obtain ⟨number', parts'⟩ := also
    cases v with
    | null =>
      match w, leads with
      | null, _ => exact ⟨rfl, List.append_cancel_left same⟩
    | bool b =>
      match b, w, leads with
      | true, bool true, _ => exact ⟨rfl, List.append_cancel_left same⟩
      | false, bool false, _ => exact ⟨rfl, List.append_cancel_left same⟩
    | number n =>
      obtain ⟨m, rfl⟩ : ∃ m, w = .number m := by
        clear same
        match w, leads with
        | .number m, _ => exact ⟨m, rfl⟩
      rw [compact_number, compact_number] at same
      obtain ⟨rfl, tails⟩ := number_append_inj (number n rfl) (number' m rfl) stops stops' same
      exact ⟨rfl, tails⟩
    | string s =>
      obtain ⟨t, rfl⟩ : ∃ t, w = string t := by
        clear same
        match w, leads with
        | string t, _ => exact ⟨t, rfl⟩
      obtain ⟨rfl, tails⟩ := quote_append_inj same
      exact ⟨rfl, tails⟩
    | array items =>
      obtain ⟨others, rfl⟩ : ∃ others, w = array others := by
        clear same
        match w, leads with
        | array others, _ => exact ⟨others, rfl⟩
      obtain ⟨rfl, tails⟩ := array_append_inj ih parts' same
      exact ⟨rfl, tails⟩
    | object fields =>
      obtain ⟨others, rfl⟩ : ∃ others, w = object others := by
        clear same
        match w, leads with
        | object others, _ => exact ⟨others, rfl⟩
      obtain ⟨rfl, tails⟩ := object_append_inj
        (fun field mem => ih field.2 (List.mem_map_of_mem mem))
        (fun field mem => parts' field.2 (List.mem_map_of_mem mem)) same
      exact ⟨rfl, tails⟩

/-- The compact text of a value tells which value it is. -/
theorem compact_injective {v w : Json} (regular : v.Regular) (also : w.Regular)
    (same : v.compact = w.compact) : v = w := by
  have none : Stops [] := by
    rintro c ⟨⟩
  have chars : v.compact.toList ++ [] = w.compact.toList ++ [] := by rw [same]
  exact (prefixed regular w also [] [] none none chars).1

end Json

end EventContracts
