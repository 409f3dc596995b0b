import EventContracts.Proofs.CalendarDates
import EventContracts.Proofs.DecimalDigits
import EventContracts.Proofs.ValidationDepth

/-!
# Timestamps that are read again

A date is written anew in universal time, in years of four digits as the reader has them and in
others with a sign. A timestamp of the first kind is read as the instant that it was written for, so
a date settles after one validation; one of the second kind is no timestamp at all.
-/

namespace EventContracts

namespace Instant

open DecimalText

lemma ofDigits_eq (digits : List Char) :
    ofDigits digits = Number.ofDigits (digits.map fun c => c.toNat - 48) := by
  rw [ofDigits, Number.ofDigits, List.foldl_map]

lemma ofDigits_lt {digits : List Char} (all : ∀ c ∈ digits, c.isDigit = true) :
    ofDigits digits < 10 ^ digits.length := by
  induction digits using List.reverseRecOn with
  | nil => decide
  | append_singleton digits c ih =>
    have before := ih fun d mem => all d (List.mem_append_left _ mem)
    have last := all c (by simp)
    simp only [Char.isDigit, Bool.and_eq_true, decide_eq_true_eq] at last
    have most : c.toNat ≤ 57 := last.2
    rw [ofDigits, List.foldl_append, List.length_append, List.length_singleton, Nat.pow_succ]
    rw [ofDigits] at before
    simp only [List.foldl_cons, List.foldl_nil]
    omega

/-- The digits at the front of a text. -/
lemma takeDigits_append {digits : List Char} (all : ∀ c ∈ digits, c.isDigit = true)
    (rest : List Char) :
    takeDigits digits.length (digits ++ rest) = some (ofDigits digits, rest) := by
  induction digits with
  | nil => rfl
  | cons c digits ih =>
    have first := all c List.mem_cons_self
    have more := ih fun d mem => all d (List.mem_cons_of_mem _ mem)
    have value : ofDigits (c :: digits) =
        (c.toNat - 48) * Nat.pow 10 digits.length + ofDigits digits := by
      have split := Number.ofDigits_append [c.toNat - 48] (digits.map fun c => c.toNat - 48)
      rw [List.length_map] at split
      rw [ofDigits_eq, ofDigits_eq, List.map_cons, ← List.singleton_append, split]
      simp [Number.ofDigits]
    simp only [List.length_cons, List.cons_append, takeDigits, first, if_true, more,
      Option.map_some, value]

section Padded

variable {width n : Nat}

lemma toList_padded (width n : Nat) : (padded width n).toList =
    List.replicate (width - (Nat.toDigits 10 n).length) '0' ++ Nat.toDigits 10 n := by
  have digits : (toString n).toList = Nat.toDigits 10 n := Nat.toList_repr
  simp only [padded, String.toList_append, String.toList_ofList, ← String.length_toList, digits]

lemma isDigit_padded : ∀ c ∈ (padded width n).toList, c.isDigit = true := by
  intro c mem
  rw [toList_padded] at mem
  rcases List.mem_append.mp mem with mem | mem
  · obtain rfl := List.eq_of_mem_replicate mem
    rfl
  · exact Nat.isDigit_of_mem_toDigits (by omega) (by omega) mem

lemma length_padded (wide : 0 < width) (small : n < 10 ^ width) :
    (padded width n).toList.length = width := by
  have least := (Nat.length_toDigits_le_iff (b := 10) (by omega) wide).mpr small
  rw [toList_padded, List.length_append, List.length_replicate]
  omega

lemma ofDigits_padded : ofDigits (padded width n).toList = n := by
  have zeros (count : Nat) : (List.replicate count '0').map (fun c => c.toNat - 48) =
      List.replicate count 0 := List.map_replicate
  rw [toList_padded, ofDigits_eq, List.map_append, Number.ofDigits_append, zeros,
    Number.ofDigits_replicate_zero, ← ofDigits_eq, ofDigits_toDigits, Nat.zero_mul, Nat.zero_add]

lemma takeDigits_padded (wide : 0 < width) (small : n < 10 ^ width) (rest : List Char) :
    takeDigits width ((padded width n).toList ++ rest) = some (n, rest) := by
  have digits : ∀ c ∈ (padded width n).toList, c.isDigit = true := isDigit_padded
  have taken := takeDigits_append digits rest
  rwa [length_padded wide small, ofDigits_padded] at taken

/-- A fraction with fewer digits than nine is filled up. -/
lemma takeFraction_padded (wide : 0 < width) (few : width ≤ 9) (small : n < 10 ^ width)
    {rest : List Char} (stops : ∀ c ∈ rest.head?, c.isDigit = false) :
    takeFraction ((padded width n).toList ++ rest) = some (n * 10 ^ (9 - width), rest) := by
  have digits : ∀ c ∈ (padded width n).toList, c.isDigit = true := isDigit_padded
  obtain ⟨word, after⟩ := span_append digits stops
  have long := length_padded wide small
  have value : ofDigits ((padded width n).toList ++ List.replicate (9 - width) '0') =
      n * 10 ^ (9 - width) := by
    have zeros : (List.replicate (9 - width) '0').map (fun c => c.toNat - 48) =
        List.replicate (9 - width) 0 := List.map_replicate
    rw [ofDigits_eq, List.map_append, Number.ofDigits_append, zeros,
      Number.ofDigits_replicate_zero, ← ofDigits_eq, ofDigits_padded, List.length_replicate,
      Nat.add_zero]
  have nonempty : (padded width n).toList.isEmpty = false := by
    cases is : (padded width n).toList with
    | nil =>
      rw [is, List.length_nil] at long
      omega
    | cons _ _ => rfl
  simp only [takeFraction, word, after, nonempty, long, List.take_of_length_le (long.trans_le few)]
  rw [← value]
  rfl

end Padded

/-- The fraction that is written is read back. -/
lemma read_fractionText {nanos : Nat} (small : nanos < 1000000000) :
    nanos = 0 ∧ (fractionText nanos).toList = [] ∨
      ∃ digits, (fractionText nanos).toList = '.' :: digits ∧
        ∀ rest : List Char, (∀ c ∈ rest.head?, c.isDigit = false) →
          takeFraction (digits ++ rest) = some (nanos, rest) := by
  have point (width value : Nat) :
      ("." ++ padded width value).toList = '.' :: (padded width value).toList := by
    rw [String.toList_append]
    rfl
  unfold fractionText
  by_cases none : nanos = 0
  · exact .inl ⟨none, by rw [if_pos none]; rfl⟩
  rw [if_neg none]
  right
  by_cases milli : nanos % 1000000 = 0
  · rw [if_pos milli]
    refine ⟨_, point 3 _, fun rest stops => ?_⟩
    rw [takeFraction_padded (by decide) (by decide) (by omega) stops]
    rw [show 10 ^ (9 - 3) = 1000000 from rfl, Nat.div_mul_cancel (Nat.dvd_of_mod_eq_zero milli)]
  rw [if_neg milli]
  by_cases micro : nanos % 1000 = 0
  · rw [if_pos micro]
    refine ⟨_, point 6 _, fun rest stops => ?_⟩
    rw [takeFraction_padded (by decide) (by decide) (by omega) stops]
    rw [show 10 ^ (9 - 6) = 1000 from rfl, Nat.div_mul_cancel (Nat.dvd_of_mod_eq_zero micro)]
  rw [if_neg micro]
  refine ⟨_, point 9 _, fun rest stops => ?_⟩
  rw [takeFraction_padded (by decide) (by decide) small stops, Nat.sub_self, Nat.pow_zero,
    Nat.mul_one]

/-- Whether seconds and nanoseconds are as they are read: a leap second stands after the last second
of a minute. -/
def Proper (t : Instant) : Prop :=
  t.nanos < 2000000000 ∧ (1000000000 ≤ t.nanos → t.seconds % 60 = 59)

lemma readOffset_minutes {chars : List Char} {offset : Int} (h : readOffset chars = some offset) :
    offset % 60 = 0 := by
  unfold readOffset at h
  split at h
  · obtain rfl := Option.some.inj h
    rfl
  · obtain rfl := Option.some.inj h
    rfl
  · extract_lets signed at h
    obtain ⟨negative, h⟩ : ∃ negative, signed negative = some offset := by
      repeat' split at h
      all_goals
        obtain ⟨negative, -, h⟩ := Option.bind_eq_some_iff.mp h
        exact ⟨negative, h⟩
    obtain ⟨⟨hours, _⟩, -, h⟩ := Option.bind_eq_some_iff.mp h
    obtain ⟨_, -, h⟩ := Option.bind_eq_some_iff.mp h
    obtain ⟨⟨minutes, _⟩, -, h⟩ := Option.bind_eq_some_iff.mp h
    dsimp only at h
    split at h
    · cases h
    · obtain rfl := Option.some.inj h
      split <;> omega
  · cases h

lemma takeFraction_lt {chars rest : List Char} {nanos : Nat}
    (h : takeFraction chars = some (nanos, rest)) : nanos < 1000000000 := by
  unfold takeFraction at h
  extract_lets digits kept at h
  split at h
  · cases h
  · obtain ⟨rfl, -⟩ := Prod.mk.inj (Option.some.inj h)
    have all : ∀ c ∈ kept, c.isDigit = true := by
      intro c mem
      rcases List.mem_append.mp mem with mem | mem
      · exact List.mem_takeWhile_imp (List.mem_of_mem_take mem)
      · obtain rfl := List.eq_of_mem_replicate mem
        rfl
    have nine : kept.length = 9 := by
      simp only [kept, List.length_append, List.length_take, List.length_replicate]
      omega
    have small := ofDigits_lt all
    rw [nine] at small
    exact small

/-- What is read is proper: offsets are whole minutes. -/
lemma proper_of_read {text : String} {t : Instant} (h : read text = some t) : t.Proper := by
  unfold read at h
  obtain ⟨⟨year, _⟩, -, h⟩ := Option.bind_eq_some_iff.mp h
  obtain ⟨_, -, h⟩ := Option.bind_eq_some_iff.mp h
  obtain ⟨⟨month, _⟩, -, h⟩ := Option.bind_eq_some_iff.mp h
  obtain ⟨_, -, h⟩ := Option.bind_eq_some_iff.mp h
  obtain ⟨⟨day, date⟩, -, h⟩ := Option.bind_eq_some_iff.mp h
  dsimp -zeta only at h
  extract_lets timed at h
  obtain ⟨_, h⟩ : ∃ rest, timed rest = some t := by
    repeat' split at h
    all_goals
      obtain ⟨rest, -, h⟩ := Option.bind_eq_some_iff.mp h
      exact ⟨rest, h⟩
  obtain ⟨⟨hour, _⟩, -, h⟩ := Option.bind_eq_some_iff.mp h
  obtain ⟨_, -, h⟩ := Option.bind_eq_some_iff.mp h
  obtain ⟨⟨minute, _⟩, -, h⟩ := Option.bind_eq_some_iff.mp h
  obtain ⟨_, -, h⟩ := Option.bind_eq_some_iff.mp h
  obtain ⟨⟨second, _⟩, -, h⟩ := Option.bind_eq_some_iff.mp h
  dsimp -zeta only at h
  extract_lets placed at h
  obtain ⟨⟨nanos, rest⟩, small, h⟩ : ∃ found, found.1 < 1000000000 ∧ placed found = some t := by
    split at h
    · obtain ⟨⟨nanos, rest⟩, taken, h⟩ := Option.bind_eq_some_iff.mp h
      exact ⟨_, takeFraction_lt taken, h⟩
    · exact ⟨(0, _), (by decide : 0 < 1000000000), h⟩
  obtain ⟨offset, zone, h⟩ := Option.bind_eq_some_iff.mp h
  have minutes := readOffset_minutes zone
  dsimp only at h small
  split at h
  · cases h
  · obtain rfl := Option.some.inj h
    unfold Proper
    dsimp only
    by_cases leap : second = 60
    · rw [if_pos leap]
      refine ⟨by dsimp only; omega, fun _ => ?_⟩
      dsimp only
      omega
    · rw [if_neg leap]
      refine ⟨by dsimp only; omega, fun late => ?_⟩
      dsimp only at late
      omega

lemma proper_of_milliseconds {n : Int} {t : Instant} (h : ofMilliseconds n = some t) :
    t.Proper := by
  unfold ofMilliseconds at h
  split at h
  · obtain rfl := Option.some.inj h
    have small : (n % 1000).toNat < 1000 := by omega
    constructor
    · dsimp only
      omega
    · intro late
      dsimp only at late
      omega
  · cases h

lemma takeChar_cons (c : Char) (rest : List Char) : takeChar c (c :: rest) = some rest := if_pos rfl

lemma bind_of_some {α β : Type} {first : Option α} {a : α} {next : α → Option β}
    (is : first = some a) : (first >>= next) = next a := by
  rw [is]
  rfl

/-- The timestamp of a date and a time in universal time. -/
def textOf (year month day hour minute second nanos : Nat) : String :=
  padded 4 year ++ "-" ++ padded 2 month ++ "-" ++ padded 2 day ++ "T" ++ padded 2 hour ++ ":" ++
    padded 2 minute ++ ":" ++ padded 2 second ++ fractionText nanos ++ "+00:00"

lemma read_textOf {year month day hour minute second nanos : Nat} (years : year ≤ 9999)
    (date : IsDate year month day) (hours : hour ≤ 23) (minutes : minute ≤ 59)
    (seconds : second ≤ 60) (small : nanos < 1000000000) :
    read (textOf year month day hour minute second nanos) = some
      ⟨daysFromDate year month day * 86400 +
        (hour * 3600 + minute * 60 + if second = 60 then 59 else second),
        if second = 60 then nanos + 1000000000 else nanos⟩ := by
  obtain ⟨firstMonth, lastMonth, firstDay, lastDay⟩ := date
  have most : daysInMonth year month ≤ 31 := daysInMonth_le _ _
  have dash : "-".toList = ['-'] := rfl
  have colon : ":".toList = [':'] := rfl
  have tee : "T".toList = ['T'] := rfl
  have chars : (textOf year month day hour minute second nanos).toList =
      (padded 4 year).toList ++ ('-' :: ((padded 2 month).toList ++ ('-' ::
      ((padded 2 day).toList ++ ('T' :: ((padded 2 hour).toList ++ (':' ::
      ((padded 2 minute).toList ++ (':' :: ((padded 2 second).toList ++
      ((fractionText nanos).toList ++ "+00:00".toList))))))))))) := by
    simp only [textOf, String.toList_append, dash, colon, tee, List.append_assoc, List.cons_append,
      List.nil_append]
  have two {n : Nat} (small : n < 10 ^ 2) (rest : List Char) :
      takeDigits 2 ((padded 2 n).toList ++ rest) = some (n, rest) :=
    takeDigits_padded (by decide) small rest
  have zone : "+00:00".toList = ['+', '0', '0', ':', '0', '0'] := rfl
  have offset : readOffset ['+', '0', '0', ':', '0', '0'] = some 0 := by decide
  have sign : ∀ c ∈ ['+', '0', '0', ':', '0', '0'].head?, c.isDigit = false := by
    rintro _ ⟨⟩
    rfl
  have inRange : ¬ (month < 1 ∨ month > 12 ∨ day < 1 ∨ day > daysInMonth year month ∨ hour > 23 ∨
      minute > 59 ∨ second > 60) := by omega
  unfold read
  rw [chars]
  refine (bind_of_some (takeDigits_padded (by decide) (by omega) _)).trans ?_
  refine (bind_of_some (takeChar_cons _ _)).trans ?_
  refine (bind_of_some (two (by omega) _)).trans ?_
  refine (bind_of_some (takeChar_cons _ _)).trans ?_
  refine (bind_of_some (two (by omega) _)).trans ?_
  refine (if_pos (.inl rfl)).trans ?_
  refine (bind_of_some rfl).trans ?_
  refine (bind_of_some (two (by omega) _)).trans ?_
  refine (bind_of_some (takeChar_cons _ _)).trans ?_
  refine (bind_of_some (two (by omega) _)).trans ?_
  refine (bind_of_some (takeChar_cons _ _)).trans ?_
  refine (bind_of_some (two (by omega) _)).trans ?_
  rw [zone]
  rcases read_fractionText small with ⟨none, is⟩ | ⟨digits, is, reads⟩
  · rw [is]
    refine (bind_of_some rfl).trans ?_
    refine (bind_of_some offset).trans ?_
    refine (if_neg inRange).trans ?_
    by_cases leap : second = 60 <;> simp [leap, none]
  · rw [is]
    refine (bind_of_some (reads _ sign)).trans ?_
    refine (bind_of_some offset).trans ?_
    refine (if_neg inRange).trans ?_
    by_cases leap : second = 60 <;> simp [leap]

/-- Whether an instant lies in a year of at most four digits, from the start of the year 0 to the
end of the year 9999. -/
def HasPlainYear (t : Instant) : Prop := -62167219200 ≤ t.seconds ∧ t.seconds < 253402300800

instance (t : Instant) : Decidable t.HasPlainYear := inferInstanceAs (Decidable (_ ∧ _))

/-- A timestamp starts with the year, which has four digits and no sign in a plain year only. -/
lemma text_spec (t : Instant) : ∃ (year : Int) (month day : Nat), IsDate year month day ∧
    daysFromDate year month day = t.seconds / 86400 ∧
    (t.HasPlainYear ↔ 0 ≤ year ∧ year ≤ 9999) ∧
    t.text = yearText year ++ "-" ++ padded 2 month ++ "-" ++ padded 2 day ++ "T" ++
      padded 2 ((t.seconds % 86400).toNat / 3600) ++ ":" ++
      padded 2 ((t.seconds % 86400).toNat / 60 % 60) ++ ":" ++
      padded 2 ((t.seconds % 86400).toNat % 60 + if 1000000000 ≤ t.nanos then 1 else 0) ++
      fractionText (if 1000000000 ≤ t.nanos then t.nanos - 1000000000 else t.nanos) ++
      "+00:00" := by
  obtain ⟨year, month, day, is, date, days⟩ := dateOfDays_spec (t.seconds / 86400)
  refine ⟨year, month, day, date, days, ?_, ?_⟩
  · rw [four_digits_iff date, days, HasPlainYear]
    omega
  · rw [text, is]

/-- What is written in a plain year is read as the same instant. -/
lemma read_text {t : Instant} (proper : t.Proper) (plain : t.HasPlainYear) :
    read t.text = some t := by
  obtain ⟨seconds, nanos⟩ := t
  obtain ⟨small, leap⟩ := proper
  obtain ⟨year, month, day, date, days, years, is⟩ := text_spec ⟨seconds, nanos⟩
  obtain ⟨first, last⟩ := years.mp plain
  obtain ⟨year, rfl⟩ := Int.eq_ofNat_of_zero_le first
  dsimp only at small leap days is
  have ofYear : yearText year = padded 4 year := if_pos ⟨first, last⟩
  obtain ⟨ofDay, known⟩ : ∃ ofDay, (seconds % 86400).toNat = ofDay := ⟨_, rfl⟩
  rw [known, ofYear] at is
  rw [is]
  by_cases late : 1000000000 ≤ nanos
  · have sixty : ofDay % 60 + 1 = 60 := by
      have := leap late
      omega
    rw [if_pos late, if_pos late, sixty]
    refine (read_textOf (by omega) date (by omega) (by omega) (by omega) (by omega)).trans ?_
    rw [if_pos rfl, if_pos rfl, days]
    congr 2 <;> omega
  · have fewer : ofDay % 60 ≠ 60 := by omega
    rw [if_neg late, if_neg late, Nat.add_zero]
    refine (read_textOf (by omega) date (by omega) (by omega) (by omega) (by omega)).trans ?_
    rw [if_neg fewer, if_neg fewer, days]
    congr 2
    omega

/-- What is written in any other year is not read, for a sign is no digit. -/
lemma read_text_signed {t : Instant} (signed : ¬ t.HasPlainYear) : read t.text = none := by
  obtain ⟨year, month, day, -, -, years, is⟩ := text_spec t
  obtain ⟨sign, noDigit, rest, starts⟩ : ∃ sign : Char, sign.isDigit = false ∧
      ∃ rest, (yearText year).toList = sign :: rest := by
    rw [yearText, if_neg fun range => signed (years.mpr range)]
    by_cases negative : year < 0
    · exact ⟨'-', rfl, _, by rw [if_pos negative, String.toList_append]; rfl⟩
    · exact ⟨'+', rfl, _, by rw [if_neg negative, String.toList_append]; rfl⟩
  have refused (more : List Char) : takeDigits 4 (sign :: more) = none :=
    if_neg (by rw [noDigit]; exact Bool.false_ne_true)
  unfold read
  rw [is]
  simp only [String.toList_append, starts, List.cons_append, refused]
  rfl

end Instant

/-- The instant that a date is given as: a timestamp, or a number of milliseconds when dates are
coerced. -/
def instantGiven (coerce : Bool) : Option Json → Option Instant
  | some (.string s) => Instant.read s
  | some (.number (.whole n)) => if coerce then Instant.ofMilliseconds n else none
  | _ => none

lemma instantGiven_proper {coerce : Bool} {input : Option Json} {t : Instant}
    (h : instantGiven coerce input = some t) : t.Proper := by
  unfold instantGiven at h
  split at h
  · exact Instant.proper_of_read h
  · split at h
    · exact Instant.proper_of_milliseconds h
    · cases h
  · cases h

lemma validateDate_eq (coerce : Bool) (input : Option Json) : validateDate coerce input =
    match instantGiven coerce input with
    | some t => .ok (.string t.text)
    | none => wrongType "date" input := rfl

/-- A timestamp that was written is a date again in a plain year. -/
lemma validateDate_text {t : Instant} (proper : t.Proper) (coerce : Bool) :
    validateDate coerce (some (.string t.text)) =
      if t.HasPlainYear then .ok (.string t.text)
      else wrongType "date" (some (.string t.text)) := by
  have given : instantGiven coerce (some (.string t.text)) = Instant.read t.text := rfl
  rw [validateDate_eq, given]
  by_cases plain : t.HasPlainYear
  · rw [Instant.read_text proper plain, if_pos plain]
  · rw [Instant.read_text_signed plain, if_neg plain]

lemma validate_dateTime {patterns : PatternReader} (text : String) :
    StringChecks.validate patterns { format := some .dateTime } (some (.string text)) =
      if (Instant.read text).isSome then .ok (.string text)
      else Failure.refuse (.format "date-time") := by
  have matched : StringFormat.dateTime.matchesText text = (Instant.read text).isSome := rfl
  simp only [StringChecks.validate, StringChecks.subject, bind, Except.bind, matched]
  cases (Instant.read text).isSome <;> rfl

/-- A timestamp that was written has the format of one in a plain year. -/
lemma validate_dateTime_text {patterns : PatternReader} {t : Instant} (proper : t.Proper) :
    StringChecks.validate patterns { format := some .dateTime } (some (.string t.text)) =
      if t.HasPlainYear then .ok (.string t.text) else Failure.refuse (.format "date-time") := by
  rw [validate_dateTime]
  by_cases plain : t.HasPlainYear
  · rw [Instant.read_text proper plain, if_pos plain]
    rfl
  · rw [Instant.read_text_signed plain, if_neg plain]
    rfl

/-- A date settles in plain years only. Whatever a schema of dates makes of a timestamp or of a
number is the timestamp of an instant; in a plain year it is a date, which is kept as it is, and has
the format of timestamps, and in any other year it is neither. -/
theorem dates_settle_in_plain_years (library : Library) {coerce : Bool} {notes : Notes}
    {input made : Option Json}
    (h : library.validate (.mk (.date coerce) notes) input = .ok made) :
    ∃ t, instantGiven coerce input = some t ∧ made = some (.string t.text) ∧
      ∀ (again : Bool) (others : Notes),
        library.validate (.mk (.date again) others) made =
            (if t.HasPlainYear then .ok made else wrongType "date" made) ∧
          library.validate (.mk (.string { format := some .dateTime }) others) made =
            (if t.HasPlainYear then .ok made else Failure.refuse (.format "date-time")) := by
  rw [Library.validate, Node.validate_eq] at h
  obtain ⟨w, valid, rfl⟩ : ∃ w, validateDate coerce input = .ok w ∧ some w = made := by
    cases valid : validateDate coerce input with
    | ok w =>
      simp only [Node.validateWith, valid] at h
      exact ⟨w, rfl, Except.ok.inj h⟩
    | error failure =>
      simp only [Node.validateWith, valid] at h
      cases h
  rw [validateDate_eq] at valid
  cases given : instantGiven coerce input with
  | none =>
    rw [given] at valid
    cases valid
  | some t =>
    rw [given] at valid
    obtain rfl := Except.ok.inj valid
    have proper := instantGiven_proper given
    refine ⟨t, rfl, rfl, fun again others => ⟨?_, ?_⟩⟩
    · rw [Library.validate, Node.validate_eq]
      simp only [Node.validateWith, validateDate_text proper]
      by_cases plain : t.HasPlainYear
      · rw [if_pos plain, if_pos plain]
        rfl
      · rw [if_neg plain, if_neg plain]
        rfl
    · rw [Library.validate, Node.validate_eq]
      simp only [Node.validateWith, validate_dateTime_text proper]
      by_cases plain : t.HasPlainYear
      · rw [if_pos plain, if_pos plain]
        rfl
      · rw [if_neg plain, if_neg plain]
        rfl

/-- A leap second in a zone where the next year has begun. -/
theorem leap_second_settles :
    ({} : Library).validate (.of (.date false)) (some (.string "2017-01-01T08:59:60.5+09:00")) =
        .ok (some (.string "2016-12-31T23:59:60.500+00:00")) ∧
      ({} : Library).validate (.of (.date false)) (some (.string "2016-12-31T23:59:60.500+00:00")) =
        .ok (some (.string "2016-12-31T23:59:60.500+00:00")) := by
  have made : ({} : Library).validate (.of (.date false))
      (some (.string "2017-01-01T08:59:60.5+09:00")) =
        .ok (some (.string "2016-12-31T23:59:60.500+00:00")) := by
    rfl
  obtain ⟨t, given, -, settled⟩ := dates_settle_in_plain_years {} made
  refine ⟨made, (settled false {}).1.trans (if_pos ?_)⟩
  have read : instantGiven false (some (.string "2017-01-01T08:59:60.5+09:00")) =
      some ⟨1483228799, 1500000000⟩ := by
    decide +kernel
  obtain rfl := Option.some.inj (given.symm.trans read)
  decide

/-- The last minute of the year 9999 lies in the next year where clocks are ahead of it. -/
theorem last_year_is_left :
    ¬ ∀ s t : String, ({} : Library).validate (.of (.date false)) (some (.string s)) =
        .ok (some (.string t)) →
      ({} : Library).validate (.of (.date false)) (some (.string t)) = .ok (some (.string t)) := by
  intro settles
  have made : ({} : Library).validate (.of (.date false))
      (some (.string "9999-12-31T23:59:59-23:59")) =
        .ok (some (.string "+10000-01-01T23:58:59+00:00")) := by
    rfl
  have refused : ({} : Library).validate (.of (.date false))
      (some (.string "+10000-01-01T23:58:59+00:00")) =
        wrongType "date" (some (.string "+10000-01-01T23:58:59+00:00")) := by
    rfl
  have again := settles _ _ made
  rw [refused] at again
  cases again

end EventContracts
