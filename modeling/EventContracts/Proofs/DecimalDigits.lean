import EventContracts.Decimal.Notation
import EventContracts.Decimal.Reading
import EventContracts.Json.Numeral
import EventContracts.Json.Writer
import Mathlib.Algebra.Order.Field.Basic
import Mathlib.Data.List.Induction
import Mathlib.Data.List.TakeWhile
import Mathlib.Data.Rat.Cast.Order
import Mathlib.Tactic.FieldSimp
import Mathlib.Tactic.Lemma
import Mathlib.Tactic.Ring

/-! Decimal notation keeps the number: whatever layout a decimal is written in, the significand and
the power of ten that are read from its text make up its value. -/

namespace EventContracts

/-- The characters of a kind are read up to the first one that is not of the kind. -/
lemma span_append {p : Char → Bool} {word rest : List Char} (all : ∀ c ∈ word, p c = true)
    (stops : ∀ c ∈ rest.head?, p c = false) :
    (word ++ rest).takeWhile p = word ∧ (word ++ rest).dropWhile p = rest := by
  rw [List.takeWhile_append_of_pos all, List.dropWhile_append_of_pos all]
  cases rest with
  | nil => simp
  | cons c rest => simp [stops c rfl]

/-- Whether all numbers are decimal digits. -/
def Digits.Decimal (digits : List Nat) : Prop := ∀ d ∈ digits, d < 10

namespace Number

@[simp] lemma ofDigits_nil : ofDigits [] = 0 := rfl

lemma foldl_digits (start : Nat) (digits : List Nat) :
    digits.foldl (fun n d => n * 10 + d) start = start * 10 ^ digits.length + ofDigits digits := by
  induction digits using List.reverseRecOn with
  | nil => simp
  | append_singleton digits d ih =>
    simp only [ofDigits, List.foldl_append, List.foldl_cons, List.foldl_nil,
      List.length_append, List.length_singleton] at ih ⊢
    rw [ih]
    ring

lemma ofDigits_append (digits more : List Nat) :
    ofDigits (digits ++ more) = ofDigits digits * 10 ^ more.length + ofDigits more := by
  rw [ofDigits, List.foldl_append, foldl_digits]
  rfl

lemma ofDigits_replicate_zero (count : Nat) : ofDigits (List.replicate count 0) = 0 := by
  induction count with
  | zero => rfl
  | succ count ih => rw [List.replicate_succ', ofDigits_append, ih]; rfl

end Number

namespace NumberStyle

open Number Digits

variable {digits : List Nat}

lemma toNat_digit {d : Nat} (small : d < 10) : (Char.ofNat ('0'.toNat + d)).toNat = 48 + d := by
  have : d = 0 ∨ d = 1 ∨ d = 2 ∨ d = 3 ∨ d = 4 ∨ d = 5 ∨ d = 6 ∨ d = 7 ∨ d = 8 ∨ d = 9 := by omega
  rcases this with rfl | rfl | rfl | rfl | rfl | rfl | rfl | rfl | rfl | rfl <;> rfl

lemma isDigit_digit {d : Nat} (small : d < 10) : (Char.ofNat ('0'.toNat + d)).isDigit := by
  have : d = 0 ∨ d = 1 ∨ d = 2 ∨ d = 3 ∨ d = 4 ∨ d = 5 ∨ d = 6 ∨ d = 7 ∨ d = 8 ∨ d = 9 := by omega
  rcases this with rfl | rfl | rfl | rfl | rfl | rfl | rfl | rfl | rfl | rfl <;> rfl

/-- The characters of digits. -/
def digitChars (digits : List Nat) : List Char := digits.map fun d => Char.ofNat ('0'.toNat + d)

lemma toList_digitText : (digitText digits).toList = digitChars digits := String.toList_ofList

@[simp] lemma length_digitChars : (digitChars digits).length = digits.length := List.length_map _

lemma digitChars_append (more : List Nat) :
    digitChars (digits ++ more) = digitChars digits ++ digitChars more := List.map_append

lemma isDigit_digitChars (decimal : Decimal digits) : ∀ c ∈ digitChars digits, c.isDigit := by
  intro c mem
  obtain ⟨d, inside, rfl⟩ := List.mem_map.mp mem
  exact isDigit_digit (decimal d inside)

lemma ofDigits_digitChars (decimal : Decimal digits) :
    DecimalText.ofDigits (digitChars digits) = ofDigits digits := by
  induction digits using List.reverseRecOn with
  | nil => rfl
  | append_singleton digits d ih =>
    have small : d < 10 := decimal d (by simp)
    have before := ih fun e mem => decimal e (List.mem_append_left _ mem)
    rw [ofDigits_append, digitChars_append, DecimalText.ofDigits, List.foldl_append]
    rw [DecimalText.ofDigits] at before
    rw [before]
    have value : (Char.ofNat ('0'.toNat + d)).toNat - 48 = d := by
      rw [toNat_digit small]
      omega
    simp only [digitChars, List.map_cons, List.map_nil, List.foldl_cons, List.foldl_nil, value]
    simp [ofDigits]

end NumberStyle

lemma DecimalText.ofDigits_toDigits (n : Nat) : ofDigits (Nat.toDigits 10 n) = n := by
  have read : Nat.ofDigitChars 10 (Nat.toDigits 10 n) 0 = n :=
    Nat.ofDigitChars_toDigits (by omega) (by omega)
  rw [Nat.ofDigitChars_eq_foldl] at read
  simp only [Nat.mul_comm 10] at read
  exact read

namespace Digits

open Number NumberStyle

/-- The value of a decimal. -/
def number (decimal : Digits) : ℚ :=
  ofDigits decimal.digits * 10 ^ (decimal.point - decimal.digits.length)

lemma decimal_ofNat (n : Nat) : Decimal (ofNat n) := by
  intro d mem
  obtain ⟨c, inside, rfl⟩ := List.mem_map.mp mem
  have digit := Nat.isDigit_of_mem_toDigits (by omega) (by omega) inside
  simp only [Char.isDigit, Bool.and_eq_true, decide_eq_true_eq] at digit
  have most : c.toNat ≤ 57 := digit.2
  change c.toNat - 48 < 10
  omega

lemma ofDigits_ofNat (n : Nat) : ofDigits (ofNat n) = n := by
  rw [ofDigits, ofNat, List.foldl_map]
  exact DecimalText.ofDigits_toDigits n

/-- Zeros at the end only shift the digits before them. -/
lemma ofDigits_trimZeros (digits : List Nat) : ∃ count,
    digits.length = (trimZeros digits).length + count ∧
      ofDigits digits = ofDigits (trimZeros digits) * 10 ^ count := by
  have split : digits = trimZeros digits ++ (digits.reverse.takeWhile (· == 0)).reverse := by
    rw [trimZeros, ← List.reverse_append, List.takeWhile_append_dropWhile, List.reverse_reverse]
  have zeros : (digits.reverse.takeWhile (· == 0)).reverse =
      List.replicate (digits.reverse.takeWhile (· == 0)).length 0 := by
    rw [List.eq_replicate_iff]
    refine ⟨by simp, fun d mem => ?_⟩
    simpa using List.mem_takeWhile_imp (List.mem_reverse.mp mem)
  refine ⟨(digits.reverse.takeWhile (· == 0)).length, ?_, ?_⟩
  · conv_lhs => rw [split]
    simp
  · conv_lhs => rw [split, zeros, ofDigits_append, ofDigits_replicate_zero]
    simp

lemma decimal_trimZeros {digits : List Nat} (decimal : Decimal digits) :
    Decimal (trimZeros digits) := by
  intro d mem
  rw [trimZeros, List.mem_reverse] at mem
  exact decimal d (List.mem_reverse.mp ((List.dropWhile_sublist _).mem mem))

end Digits

namespace DecimalText

open Number NumberStyle Digits

variable {digits : List Nat}

/-- The power of ten at the end of a number: none, or an exponent after its mark. -/
inductive Ends : List Char → Int → Prop where
  | plain : Ends [] 0
  | exponent {chars : List Char} {power : Int} (read : exponent? chars = some power) :
      Ends ('e' :: chars) power

lemma Ends.stops {tail : List Char} {power : Int} (ends : Ends tail power) :
    ∀ c ∈ tail.head?, c.isDigit = false := by
  cases ends with
  | plain => exact nofun
  | exponent _ => rintro c ⟨⟩; rfl

/-- Digits with a point among them. -/
lemma parts?_point {whole fraction : List Nat} {tail : List Char} {power : Int}
    (decimal : Decimal whole) (also : Decimal fraction) (nonempty : whole ≠ [])
    (ends : Ends tail power) :
    parts? (digitChars whole ++ '.' :: (digitChars fraction ++ tail)) =
      some (Number.ofDigits (whole ++ fraction), power - fraction.length) := by
  have both : Decimal (whole ++ fraction) := by
    intro d mem
    rcases List.mem_append.mp mem with mem | mem
    · exact decimal d mem
    · exact also d mem
  have given : (digitChars whole).isEmpty = false := by
    simpa [List.isEmpty_iff, digitChars] using nonempty
  have point : ∀ c ∈ ('.' :: (digitChars fraction ++ tail)).head?, c.isDigit = false := by
    rintro c ⟨⟩
    rfl
  obtain ⟨before, after⟩ := span_append (isDigit_digitChars decimal) point
  obtain ⟨among, behind⟩ := span_append (isDigit_digitChars also) ends.stops
  unfold parts?
  simp only [before, after, among, behind, given, Bool.false_and, Bool.false_eq_true, if_false,
    ← digitChars_append, ofDigits_digitChars both, length_digitChars]
  cases ends with
  | plain => rfl
  | exponent read => simp [read]

/-- Digits without a point. -/
lemma parts?_whole {whole : List Nat} {chars : List Char} {power : Int} (decimal : Decimal whole)
    (nonempty : whole ≠ []) (read : exponent? chars = some power) :
    parts? (digitChars whole ++ 'e' :: chars) = some (Number.ofDigits whole, power) := by
  have given : (digitChars whole).isEmpty = false := by
    simpa [List.isEmpty_iff, digitChars] using nonempty
  have mark : ∀ c ∈ ('e' :: chars).head?, c.isDigit = false := by
    rintro c ⟨⟩
    rfl
  obtain ⟨before, after⟩ := span_append (isDigit_digitChars decimal) mark
  unfold parts?
  simp only [before, after, given, Bool.false_and, Bool.false_eq_true, if_false]
  simp [read, ofDigits_digitChars decimal]

/-- An exponent is read with its sign, which it always has. -/
lemma exponent?_text (n : Int) :
    exponent? ((if n ≥ 0 then "+" else "-") ++ toString n.natAbs).toList = some n := by
  have digits : (toString n.natAbs).toList = Nat.toDigits 10 n.natAbs := by
    rw [Nat.toString_eq_ofList_toDigits, String.toList_ofList]
  have given : (Nat.toDigits 10 n.natAbs).isEmpty = false := by
    simp
  have plain : (Nat.toDigits 10 n.natAbs).all Char.isDigit = true := by
    rw [List.all_eq_true]
    exact fun c mem => Nat.isDigit_of_mem_toDigits (by omega) (by omega) mem
  by_cases sign : n ≥ 0
  · have chars : (("+" : String) ++ toString n.natAbs).toList =
        '+' :: Nat.toDigits 10 n.natAbs := by
      rw [String.toList_append, digits]
      rfl
    have value : (n.natAbs : Int) = n := by omega
    rw [if_pos sign, chars, exponent?]
    simp only [given, plain, ofDigits_toDigits, value, Bool.not_true, Bool.or_false,
      Bool.false_eq_true, if_false]
  · have chars : (("-" : String) ++ toString n.natAbs).toList =
        '-' :: Nat.toDigits 10 n.natAbs := by
      rw [String.toList_append, digits]
      rfl
    have value : -(n.natAbs : Int) = n := by omega
    rw [if_neg sign, chars, exponent?]
    simp only [given, plain, ofDigits_toDigits, value, Bool.not_true, Bool.or_false,
      Bool.false_eq_true, if_false, if_true]

end DecimalText

namespace Digits

open Number NumberStyle

variable {decimal : Digits}

/-- Whether a number is read from the text of a decimal as its value. -/
def ReadsBack (decimal : Digits) (text : String) : Prop :=
  ∃ significand power, DecimalText.parts? text.toList = some (significand, power) ∧
    (significand : ℚ) * 10 ^ power = decimal.number

/-- A decimal with its point before the first digit. -/
lemma readsBack_fraction (proper : Decimal decimal.digits) (small : decimal.point ≤ 0) :
    decimal.ReadsBack
      ("0." ++ digitText (List.replicate (-decimal.point).toNat 0 ++ decimal.digits)) := by
  have zero : Decimal [0] := by simp [Decimal]
  have shown : Decimal (List.replicate (-decimal.point).toNat 0 ++ decimal.digits) := by
    intro d mem
    rcases List.mem_append.mp mem with mem | mem
    · rw [List.eq_of_mem_replicate mem]
      omega
    · exact proper d mem
  have chars : ("0." ++ digitText (List.replicate (-decimal.point).toNat 0 ++
      decimal.digits)).toList = digitChars [0] ++ '.' ::
        (digitChars (List.replicate (-decimal.point).toNat 0 ++ decimal.digits) ++ []) := by
    simp [toList_digitText, digitChars]
  refine ⟨_, _, by rw [chars, DecimalText.parts?_point zero shown (by simp) .plain], ?_⟩
  have digits : ofDigits ([0] ++ (List.replicate (-decimal.point).toNat 0 ++ decimal.digits)) =
      ofDigits decimal.digits := by
    rw [ofDigits_append, ofDigits_append, ofDigits_replicate_zero]
    simp [ofDigits]
  rw [digits, number]
  congr 2
  simp only [List.length_append, List.length_replicate]
  omega

/-- A decimal with its point after the first digit. Zeros are added where there are no digits. -/
lemma readsBack_positional (proper : Decimal decimal.digits) (large : 0 < decimal.point) :
    let shown := decimal.digits ++
      List.replicate (decimal.point.toNat - decimal.digits.length) 0
    decimal.ReadsBack (digitText (shown.take decimal.point.toNat) ++ "." ++
      digitText (if (shown.drop decimal.point.toNat).isEmpty then [0]
        else shown.drop decimal.point.toNat)) := by
  intro shown
  have decimal_shown : Decimal shown := by
    intro d mem
    rcases List.mem_append.mp mem with mem | mem
    · exact proper d mem
    · rw [List.eq_of_mem_replicate mem]
      omega
  have whole : Decimal (shown.take decimal.point.toNat) :=
    fun d mem => decimal_shown d (List.mem_of_mem_take mem)
  have length : shown.length =
      decimal.digits.length + (decimal.point.toNat - decimal.digits.length) := by
    simp [shown]
  have nonempty : shown.take decimal.point.toNat ≠ [] := by
    rw [← List.length_pos_iff, List.length_take]
    omega
  have layout (fraction : List Nat) : (digitText (shown.take decimal.point.toNat) ++ "." ++
      digitText fraction).toList = digitChars (shown.take decimal.point.toNat) ++ '.' ::
        (digitChars fraction ++ []) := by
    simp [toList_digitText]
  by_cases done : (shown.drop decimal.point.toNat).isEmpty
  · rw [if_pos done]
    have zero : Decimal [0] := by simp [Decimal]
    refine ⟨_, _, by rw [layout, DecimalText.parts?_point whole zero nonempty .plain], ?_⟩
    have fits : shown.length ≤ decimal.point.toNat :=
      List.drop_eq_nil_iff.mp (List.isEmpty_iff.mp done)
    rw [List.take_of_length_le fits, ofDigits_append, ofDigits_append, ofDigits_replicate_zero,
      number]
    have shift : decimal.point - decimal.digits.length =
        ((decimal.point.toNat - decimal.digits.length : Nat) : Int) := by omega
    rw [shift, zpow_natCast]
    simp [ofDigits]
  · rw [if_neg done]
    have fraction : Decimal (shown.drop decimal.point.toNat) :=
      fun d mem => decimal_shown d (List.mem_of_mem_drop mem)
    refine ⟨_, _, by rw [layout, DecimalText.parts?_point whole fraction nonempty .plain], ?_⟩
    have more : decimal.point.toNat < shown.length := by
      rw [List.isEmpty_iff, List.drop_eq_nil_iff] at done
      omega
    have same : shown = decimal.digits := by
      have none : decimal.point.toNat - decimal.digits.length = 0 := by omega
      simp [shown, none]
    rw [List.take_append_drop, same, number]
    congr 2
    rw [List.length_drop, ← same]
    omega

/-- A decimal with an exponent, and a point when there is more than one digit. -/
lemma readsBack_scientific (proper : Decimal decimal.digits) (nonempty : decimal.digits ≠ []) :
    decimal.ReadsBack ((match decimal.digits with
        | [] => ""
        | [d] => digitText [d]
        | d :: rest => digitText [d] ++ "." ++ digitText rest) ++ "e" ++
      (if decimal.point - 1 ≥ 0 then "+" else "-") ++ toString (decimal.point - 1).natAbs) := by
  have power := DecimalText.exponent?_text (decimal.point - 1)
  obtain ⟨digits, point⟩ := decimal
  dsimp only at proper nonempty power ⊢
  match digits with
  | [] => exact absurd rfl nonempty
  | [d] =>
    refine ⟨ofDigits [d], point - 1, ?_, ?_⟩
    · rw [← DecimalText.parts?_whole proper nonempty power]
      simp [toList_digitText]
    · rw [number]
      simp
  | d :: e :: rest =>
    have first : Decimal [d] := fun x mem => proper x (by simp_all)
    have others : Decimal (e :: rest) := fun x mem => proper x (List.mem_cons_of_mem _ mem)
    refine ⟨ofDigits ([d] ++ e :: rest), point - 1 - (e :: rest).length, ?_, ?_⟩
    · rw [← DecimalText.parts?_point first others (by simp) (.exponent power)]
      simp [toList_digitText]
    · rw [number]
      congr 2
      simp only [List.length_cons]
      omega

/-- The magnitude of a decimal is read back from its text. -/
theorem readsBack_magnitude (proper : Decimal decimal.digits) (nonempty : decimal.digits ≠ []) :
    decimal.ReadsBack (Json.numberStyle.magnitude decimal) := by
  rw [magnitude]
  dsimp only
  split
  · split
    · exact readsBack_fraction proper ‹_›
    · exact readsBack_positional proper (by omega)
  · exact readsBack_scientific proper nonempty

end Digits

end EventContracts
