import EventContracts.Json.Writer
import Mathlib.Tactic.IntervalCases
import Mathlib.Tactic.Lemma

/-! String literals can be read back. Every escape sequence tells how long it is and which character
it stands for, and a quote that is not escaped ends the literal; so a literal is found again at the
start of any text. -/

namespace EventContracts.Json

/-- The number of a hexadecimal digit. -/
def hexValue (c : Char) : Nat := if c.toNat < 58 then c.toNat - 48 else c.toNat - 87

/-- The character that a letter after a backslash stands for. -/
def unescape (c : Char) : Char :=
  if c = 'n' then '\n'
  else if c = 'r' then '\r'
  else if c = 't' then '\t'
  else if c = 'b' then '\x08'
  else if c = 'f' then '\x0c'
  else c

/-- The characters of a literal whose opening quote was read, and what follows its end. -/
def unquote : List Char → Option (List Char × List Char)
  | [] => none
  | '"' :: rest => some ([], rest)
  | '\\' :: 'u' :: '0' :: '0' :: high :: low :: rest =>
    (unquote rest).map fun (text, rest) =>
      (Char.ofNat (16 * hexValue high + hexValue low) :: text, rest)
  | '\\' :: c :: rest => (unquote rest).map fun (text, rest) => (unescape c :: text, rest)
  | c :: rest => (unquote rest).map fun (text, rest) => (c :: text, rest)

lemma hexValue_hexDigit {n : Nat} (small : n < 16) : hexValue (hexDigit n) = n := by
  interval_cases n <;> rfl

lemma unquote_plain {c : Char} {rest : List Char} (quote : c ≠ '"') (backslash : c ≠ '\\') :
    unquote (c :: rest) = (unquote rest).map fun (text, rest) => (c :: text, rest) := by
  rw [unquote]
  · exact fun same => quote same
  · rintro high low tail ⟨⟩
    exact absurd rfl backslash
  · rintro other tail ⟨⟩
    exact absurd rfl backslash

/-- One character is read from its escape sequence. -/
lemma unquote_escapeChar (c : Char) (rest : List Char) :
    unquote (escapeChar c ++ rest) = (unquote rest).map fun (text, rest) => (c :: text, rest) := by
  by_cases quote : c = '"'
  · rw [quote]
    rfl
  by_cases backslash : c = '\\'
  · rw [backslash]
    rfl
  by_cases newline : c = '\n'
  · rw [newline]
    rfl
  by_cases carriage : c = '\r'
  · rw [carriage]
    rfl
  by_cases tab : c = '\t'
  · rw [tab]
    rfl
  by_cases backspace : c = '\x08'
  · rw [backspace]
    rfl
  by_cases feed : c = '\x0c'
  · rw [feed]
    rfl
  simp only [escapeChar, quote, backslash, newline, carriage, tab, backspace, feed, if_false]
  by_cases control : c.toNat < 32
  · rw [if_pos control]
    have high := hexValue_hexDigit (show c.toNat / 16 < 16 by omega)
    have low := hexValue_hexDigit (Nat.mod_lt c.toNat (show 0 < 16 by omega))
    have whole : 16 * (c.toNat / 16) + c.toNat % 16 = c.toNat := Nat.div_add_mod _ _
    simp only [List.cons_append, List.nil_append, unquote, high, low, whole, Char.ofNat_toNat]
  · rw [if_neg control]
    exact unquote_plain quote backslash

/-- A literal is read back, whatever follows it. -/
lemma unquote_quote (text rest : List Char) :
    unquote (text.flatMap escapeChar ++ '"' :: rest) = some (text, rest) := by
  induction text with
  | nil => rfl
  | cons c text ih =>
    rw [List.flatMap_cons, List.append_assoc, unquote_escapeChar, ih]
    rfl

lemma toList_quote (text : String) :
    (quote text).toList = '"' :: (text.toList.flatMap escapeChar ++ ['"']) :=
  String.toList_ofList

/-- A text starts with at most one literal. -/
lemma quote_append_inj {s t : String} {rest rest' : List Char}
    (same : (quote s).toList ++ rest = (quote t).toList ++ rest') : s = t ∧ rest = rest' := by
  simp only [toList_quote, List.cons_append, List.append_assoc, List.nil_append,
    List.cons.injEq, true_and] at same
  have read := congrArg unquote same
  rw [unquote_quote, unquote_quote] at read
  obtain ⟨texts, rests⟩ := Prod.mk.inj (Option.some.inj read)
  exact ⟨String.toList_inj.mp texts, rests⟩

end EventContracts.Json
