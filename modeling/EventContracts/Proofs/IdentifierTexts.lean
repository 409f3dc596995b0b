import EventContracts.Contract
import EventContracts.Text.Identifier
import EventContracts.TypeScript.Assembly
import Mathlib.Data.List.Basic

/-! Which identifiers texts become. The characters of an identifier are the letters and digits of
its text, with some letters made capitals, so an identifier starts with a digit if the first word of
its text does. The identifier of an identifier is the same one again, since it is one word as a text
and starts with no small letter. -/

namespace EventContracts

namespace Identifier

section Letters

variable {c : Char}

lemma isLower_iff : c.isLower ↔ 97 ≤ c.toNat ∧ c.toNat ≤ 122 :=
  Bool.and_eq_true_iff.trans (and_congr decide_eq_true_iff decide_eq_true_iff)

lemma isUpper_iff : c.isUpper ↔ 65 ≤ c.toNat ∧ c.toNat ≤ 90 :=
  decide_eq_true_iff

lemma isDigit_iff : c.isDigit ↔ 48 ≤ c.toNat ∧ c.toNat ≤ 57 :=
  Bool.and_eq_true_iff.trans (and_congr decide_eq_true_iff decide_eq_true_iff)

lemma isAlpha_iff : c.isAlpha ↔ c.isUpper ∨ c.isLower :=
  Bool.or_eq_true_iff

lemma toUpper_of_not_isLower (h : c.isLower = false) : c.toUpper = c :=
  dif_neg fun inside => Bool.eq_false_iff.mp h (isLower_iff.mpr inside)

lemma toLower_of_not_isUpper (h : c.isUpper = false) : c.toLower = c :=
  dif_neg fun inside => Bool.eq_false_iff.mp h (isUpper_iff.mpr inside)

/-- A small letter of ASCII comes thirty-two places after its capital. -/
lemma toNat_toUpper (h : c.isLower) : c.toUpper.toNat + 32 = c.toNat := by
  have inside := isLower_iff.mp h
  have moved : c.toUpper = _ := dif_pos inside
  have shift : ('A'.val - 'a'.val).toNat = 2 ^ 32 - 32 := by decide
  rw [moved]
  change (c.val + ('A'.val - 'a'.val)).toNat + 32 = c.val.toNat
  rw [UInt32.toNat_add, shift]
  change 97 ≤ c.val.toNat ∧ c.val.toNat ≤ 122 at inside
  omega

lemma toNat_toLower (h : c.isUpper) : c.toLower.toNat = c.toNat + 32 := by
  have inside := isUpper_iff.mp h
  have moved : c.toLower = _ := dif_pos inside
  have shift : ('a'.val - 'A'.val).toNat = 32 := by decide
  rw [moved]
  change (c.val + ('a'.val - 'A'.val)).toNat = c.val.toNat + 32
  rw [UInt32.toNat_add, shift]
  change 65 ≤ c.val.toNat ∧ c.val.toNat ≤ 90 at inside
  omega

lemma isUpper_toUpper (h : c.isLower) : c.toUpper.isUpper := by
  have place := toNat_toUpper h
  have letter := isLower_iff.mp h
  exact isUpper_iff.mpr (by omega)

lemma not_isLower_of_isUpper (h : c.isUpper) : c.isLower = false := by
  refine Bool.eq_false_iff.mpr fun lower => ?_
  have capital := isUpper_iff.mp h
  have letter := isLower_iff.mp lower
  omega

lemma isLower_toUpper (c : Char) : c.toUpper.isLower = false := by
  cases lower : c.isLower with
  | false => rwa [toUpper_of_not_isLower lower]
  | true => exact not_isLower_of_isUpper (isUpper_toUpper lower)

lemma toUpper_of_isUpper (h : c.isUpper) : c.toUpper = c :=
  toUpper_of_not_isLower (not_isLower_of_isUpper h)

lemma toLower_toUpper (c : Char) : c.toUpper.toLower = c.toLower := by
  cases lower : c.isLower with
  | false => rw [toUpper_of_not_isLower lower]
  | true =>
    have notUpper : c.isUpper = false := Bool.eq_false_iff.mpr fun upper => by
      rw [not_isLower_of_isUpper upper] at lower
      cases lower
    rw [toLower_of_not_isUpper notUpper]
    apply Char.toNat_inj.mp
    rw [toNat_toLower (isUpper_toUpper lower), toNat_toUpper lower]

lemma isAlpha_toUpper (c : Char) : c.toUpper.isAlpha = c.isAlpha := by
  cases lower : c.isLower with
  | false => rw [toUpper_of_not_isLower lower]
  | true =>
    have before : c.isAlpha := isAlpha_iff.mpr (.inr lower)
    have after : c.toUpper.isAlpha := isAlpha_iff.mpr (.inl (isUpper_toUpper lower))
    rw [before, after]

lemma isDigit_of_isAlpha (h : c.isAlpha) : c.isDigit = false := by
  refine Bool.eq_false_iff.mpr fun digit => ?_
  have place := isDigit_iff.mp digit
  rcases isAlpha_iff.mp h with upper | lower
  · have letter := isUpper_iff.mp upper
    omega
  · have letter := isLower_iff.mp lower
    omega

lemma isDigit_toUpper (c : Char) : c.toUpper.isDigit = c.isDigit := by
  cases lower : c.isLower with
  | false => rw [toUpper_of_not_isLower lower]
  | true =>
    have alpha : c.isAlpha := isAlpha_iff.mpr (.inr lower)
    rw [isDigit_of_isAlpha alpha, isDigit_of_isAlpha (isAlpha_toUpper c ▸ alpha)]

lemma isWordChar_toUpper (c : Char) : isWordChar c.toUpper = isWordChar c := by
  rw [isWordChar, isWordChar, isAlpha_toUpper, isDigit_toUpper]

lemma isStart_of_isWordChar (word : isWordChar c) : isStart c = !c.isDigit := by
  cases digit : c.isDigit with
  | false =>
    rw [isWordChar, digit, Bool.or_false] at word
    simp [isStart, word]
  | true =>
    have notAlpha : c.isAlpha = false := Bool.eq_false_iff.mpr fun alpha => by
      rw [isDigit_of_isAlpha alpha] at digit
      cases digit
    have notUnderscore : c ≠ '_' := by
      rintro rfl
      exact absurd digit (by decide)
    have notDollar : c ≠ '$' := by
      rintro rfl
      exact absurd digit (by decide)
    simp [isStart, notAlpha, notUnderscore, notDollar]

end Letters

lemma flatten_runs (cs : List Char) : (runs cs).flatten = cs.filter isWordChar := by
  fun_induction runs cs with grind

/-- Word characters without anything between them are one run. -/
lemma runs_of_wordChars {cs : List Char} (all : ∀ c ∈ cs, isWordChar c) (nonempty : cs ≠ []) :
    runs cs = [cs] := by
  induction cs with
  | nil => exact absurd rfl nonempty
  | cons c rest ih =>
    have here : isWordChar c := all c List.mem_cons_self
    cases rest with
    | nil => simp [runs, here]
    | cons d more =>
      have next : isWordChar d := all d (by simp)
      have tail := ih (fun e mem => all e (List.mem_cons_of_mem _ mem)) (List.cons_ne_nil _ _)
      rw [runs.eq_def]
      simp only [here, tail, next, if_true]

/-- Only the first word of a run can start with a small letter. -/
lemma capitalize_cutFrom (afterCapital : Bool) (cs : List Char) :
    (cutFrom afterCapital cs).1 ++ (cutFrom afterCapital cs).2.flatMap capitalize = cs := by
  induction cs generalizing afterCapital with
  | nil => rfl
  | cons c rest ih =>
    specialize ih c.isUpper
    by_cases cut : c.isUpper && !afterCapital
    · have upper : c.isUpper := by simp_all
      simp only [cutFrom, cut, if_true, List.flatMap_cons, capitalize, toUpper_of_isUpper upper]
      simpa using ih
    · simp only [cutFrom, cut]
      simpa using ih

lemma capitalize_words (run : List Char) : (words run).flatMap capitalize = capitalize run := by
  cases run with
  | nil => rfl
  | cons c rest =>
    have cut := capitalize_cutFrom c.isUpper rest
    simp only [words, List.flatMap_cons, capitalize, List.cons_append, cut]

lemma ofText_eq (text : String) : ofText text = (runs text.toList).flatMap capitalize := by
  rw [ofText, List.flatMap_assoc]
  simp only [capitalize_words]

lemma mem_ofText {text : String} {c : Char} (h : c ∈ ofText text) : isWordChar c := by
  rw [ofText_eq] at h
  obtain ⟨run, mem, inside⟩ := List.mem_flatMap.mp h
  have all : ∀ d ∈ run, isWordChar d := by
    intro d here
    have kept : d ∈ (runs text.toList).flatten := List.mem_flatten.mpr ⟨run, mem, here⟩
    rw [flatten_runs] at kept
    exact (List.mem_filter.mp kept).2
  cases run with
  | nil => cases inside
  | cons d rest =>
    rcases List.mem_cons.mp inside with rfl | inside
    · rw [isWordChar_toUpper]
      exact all d List.mem_cons_self
    · exact all c (List.mem_cons_of_mem _ inside)

lemma ofText_of_wordChars {cs : List Char} (all : ∀ c ∈ cs, isWordChar c) :
    ofText (String.ofList cs) = capitalize cs := by
  rw [ofText_eq, String.toList_ofList]
  cases cs with
  | nil => rfl
  | cons c rest => simp [runs_of_wordChars all (List.cons_ne_nil c rest)]

lemma head?_ofText (text : String) :
    (ofText text).head? = (text.toList.find? isWordChar).map Char.toUpper := by
  rw [ofText_eq]
  generalize text.toList = cs
  fun_induction runs cs with simp_all [capitalize]

/-- Whether a text has the form of an identifier: letters and digits, and no small letter first. -/
structure Clean (cs : List Char) : Prop where
  wordChars : ∀ c ∈ cs, isWordChar c
  notLower : ∀ c ∈ cs.head?, c.isLower = false

lemma clean_nil : Clean [] where
  wordChars _ mem := absurd mem List.not_mem_nil
  notLower _ := nofun

/-- Where the first text is empty, the second one has to be clean for its first letter. -/
lemma Clean.append {cs ds : List Char} (first : Clean cs) (second : Clean ds) :
    Clean (cs ++ ds) where
  wordChars c mem := (List.mem_append.mp mem).elim (first.wordChars c) (second.wordChars c)
  notLower := by
    cases cs with
    | nil => exact second.notLower
    | cons c cs => exact first.notLower

lemma clean_ofText (text : String) : Clean (ofText text) where
  wordChars _ := mem_ofText
  notLower c head := by
    rw [head?_ofText] at head
    obtain ⟨d, -, rfl⟩ := Option.map_eq_some_iff.mp head
    exact isLower_toUpper d

/-- A clean text is one run, and making its first letter a capital changes nothing. -/
lemma Clean.ofText_eq {text : String} (clean : Clean text.toList) : ofText text = text.toList := by
  have word := ofText_of_wordChars clean.wordChars
  rw [String.ofList_toList] at word
  rw [word]
  cases chars : text.toList with
  | nil => rfl
  | cons c rest =>
    have notLower : c.isLower = false := clean.notLower c (by simp [chars])
    rw [capitalize, toUpper_of_not_isLower notLower]

lemma toList_ofParts (parts : List String) : (ofParts parts).toList = parts.flatMap ofText :=
  String.toList_ofList

lemma ofParts_append (before after : List String) :
    ofParts (before ++ after) = ofParts before ++ ofParts after := by
  simp [ofParts]

lemma clean_ofParts (parts : List String) : Clean (ofParts parts).toList := by
  rw [toList_ofParts]
  induction parts with
  | nil => exact clean_nil
  | cons text parts ih => exact (clean_ofText text).append ih

/-- A clean text goes into an identifier as it is. -/
lemma ofParts_cons_of_clean {text : String} (clean : Clean text.toList) (parts : List String) :
    ofParts (text :: parts) = text ++ ofParts parts := by
  simp [ofParts, clean.ofText_eq]

lemma map_toLower_capitalize (word : List Char) :
    (capitalize word).map Char.toLower = word.map Char.toLower := by
  cases word with
  | nil => rfl
  | cons c rest => simp [capitalize, toLower_toUpper]

/-- Up to case, the identifier of a text holds the letters and digits of the text. -/
lemma map_toLower_ofText (text : String) :
    (ofText text).map Char.toLower = (text.toList.filter isWordChar).map Char.toLower := by
  rw [ofText_eq, List.map_flatMap, ← flatten_runs, List.map_flatten, List.flatMap_def]
  simp only [map_toLower_capitalize]

lemma map_toLower_ofParts (parts : List String) :
    (ofParts parts).toList.map Char.toLower =
      ((parts.flatMap String.toList).filter isWordChar).map Char.toLower := by
  rw [toList_ofParts, List.map_flatMap, List.filter_flatMap, List.map_flatMap]
  simp only [map_toLower_ofText]

/-- Whether the first word of a text starts with a digit. -/
def startsWithDigit (text : String) : Bool := (text.toList.find? isWordChar).any Char.isDigit

lemma toList_ofNamespace (path : String) :
    (ofNamespace path).toList = if (ofText path).isEmpty then "Root".toList else ofText path := by
  have one : ofParts [path] = String.ofList (ofText path) := by simp [ofParts]
  cases chars : ofText path <;> simp [ofNamespace, one, chars]

lemma mem_ofNamespace {path : String} {c : Char} (h : c ∈ (ofNamespace path).toList) :
    isWordChar c := by
  rw [toList_ofNamespace] at h
  split at h
  · have root : "Root".toList = ['R', 'o', 'o', 't'] := by rfl
    have letters : ['R', 'o', 'o', 't'].all isWordChar := by decide
    rw [root] at h
    exact List.all_eq_true.mp letters c h
  · exact mem_ofText h

lemma clean_ofNamespace (path : String) : Clean (ofNamespace path).toList where
  wordChars _ := mem_ofNamespace
  notLower := by
    rw [toList_ofNamespace]
    split
    · rintro c ⟨⟩
      rfl
    · exact (clean_ofText path).notLower

/-- What stands for a namespace in an identifier is its identifier as it is. -/
lemma ofText_ofNamespace (path : String) :
    ofText (ofNamespace path) = (ofNamespace path).toList :=
  (clean_ofNamespace path).ofText_eq

lemma head?_ofNamespace (path : String) :
    (ofNamespace path).toList.head?.any Char.isDigit = startsWithDigit path := by
  have head := head?_ofText path
  rw [toList_ofNamespace]
  cases chars : ofText path with
  | nil =>
    rw [chars] at head
    have none : path.toList.find? isWordChar = none := Option.map_eq_none_iff.mp head.symm
    rw [startsWithDigit, none]
    rfl
  | cons c rest =>
    rw [chars] at head
    obtain ⟨d, found, rfl⟩ := Option.map_eq_some_iff.mp head.symm
    simp [startsWithDigit, found, isDigit_toUpper]

lemma ofNamespace_ne_nil (path : String) : (ofNamespace path).toList ≠ [] := by
  rw [toList_ofNamespace]
  cases ofText path <;> simp

/-- Word characters can stand as a bare name unless the first of them is a digit. -/
lemma isBare_ofList {cs : List Char} (all : ∀ c ∈ cs, isWordChar c) (nonempty : cs ≠ []) :
    isBare (String.ofList cs) = !cs.head?.any Char.isDigit := by
  cases cs with
  | nil => exact absurd rfl nonempty
  | cons c rest =>
    have tail : rest.all fun d => isStart d || d.isDigit := by
      rw [List.all_eq_true]
      intro d mem
      simp [isStart_of_isWordChar (all d (List.mem_cons_of_mem _ mem))]
    simp only [isBare, String.toList_ofList, tail, Bool.and_true, List.head?_cons, Option.any_some]
    exact isStart_of_isWordChar (all c List.mem_cons_self)

/-- A name that goes on from the identifier of a namespace can stand bare unless the first word of
the path starts with a digit. -/
lemma isBare_ofNamespace_append (path : String) {suffix : List Char}
    (all : ∀ c ∈ suffix, isWordChar c) :
    isBare (ofNamespace path ++ String.ofList suffix) = !startsWithDigit path := by
  have whole : ofNamespace path ++ String.ofList suffix =
      String.ofList ((ofNamespace path).toList ++ suffix) := by simp
  have some := ofNamespace_ne_nil path
  rw [whole, isBare_ofList ?_ (by simp [some]), ← head?_ofNamespace,
    List.head?_append_of_ne_nil _ some]
  intro c mem
  exact (List.mem_append.mp mem).elim mem_ofNamespace (all c)

/-- Identifiers are stable. The identifier of a list of texts holds their ASCII letters and digits,
up to case, and nothing else, and does not start with a small letter; it is its own identifier; and
it is that of any front of the list with that of the rest after it. So the identifier of a namespace
stands as it is in front of the name of an event. -/
theorem identifiers_are_stable (parts : List String) :
    (∀ c ∈ (ofParts parts).toList, c.isAlphanum) ∧
    (∀ c ∈ (ofParts parts).toList.head?, c.isLower = false) ∧
    (ofParts parts).toList.map Char.toLower =
      ((parts.flatMap String.toList).filter Char.isAlphanum).map Char.toLower ∧
    ofParts [ofParts parts] = ofParts parts ∧
    (∀ before after, parts = before ++ after →
      ofParts parts = ofParts before ++ ofParts after) ∧
    (∀ path, ofParts (ofNamespace path :: parts) = ofNamespace path ++ ofParts parts) ∧
    ∀ path event, TypeScript.Draft.eventName (ofNamespace path) event =
      ofNamespace path ++ ofParts [event.name, TypeScript.Draft.eventWord event.direction] := by
  have clean := clean_ofParts parts
  refine ⟨clean.wordChars, clean.notLower, map_toLower_ofParts parts, ?_, ?_, ?_, ?_⟩
  · rw [ofParts_cons_of_clean clean]
    exact String.append_empty
  · rintro before after rfl
    exact ofParts_append before after
  · exact fun path => ofParts_cons_of_clean (clean_ofNamespace path) parts
  · exact fun path event => ofParts_cons_of_clean (clean_ofNamespace path) _

/-- Capitals of two texts come to stand together, and a letter outside of ASCII is left out. -/
theorem shared_capitals_are_stable :
    ofParts ["/chat-räume", "B", "HTTPStatus"] = "ChatRUmeBHTTPStatus" ∧
      ofParts ["ChatRUmeBHTTPStatus"] = "ChatRUmeBHTTPStatus" ∧
      "ChatRUmeBHTTPStatus" = ofParts ["/chat-räume"] ++ ofParts ["B", "HTTPStatus"] ∧
      'C'.isAlphanum ∧ 'C'.isLower = false := by
  have id : ofParts ["/chat-räume", "B", "HTTPStatus"] = "ChatRUmeBHTTPStatus" := by decide +kernel
  obtain ⟨letters, first, -, again, split, -⟩ :=
    identifiers_are_stable ["/chat-räume", "B", "HTTPStatus"]
  rw [id] at letters first again split
  exact ⟨id, again, split ["/chat-räume"] ["B", "HTTPStatus"] rfl, letters 'C' (by simp),
    first 'C' (by simp)⟩

end Identifier

/-- The identifiers of the namespaces of a contract. -/
def Contract.namespaceIds (contract : Contract) : List String :=
  contract.namespaces.map fun ns => Identifier.ofNamespace ns.path

end EventContracts
