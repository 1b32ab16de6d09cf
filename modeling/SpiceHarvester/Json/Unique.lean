import SpiceHarvester.Json.Strip

/-!
# A text denotes one value

The grammar is unambiguous: what is in front of a text is a single part of its kind,
and what is left behind it is determined (`Reads.unique`). So a text that is read field
by field can be taken apart field by field.

The first character of a value says of which form it is. The lemmas on values say, for
each first character, what the reading is; the proof of the theorem is an induction on
one reading that takes the other one apart by them.
-/

set_option autoImplicit false

namespace SpiceHarvester

namespace JsonText

section Unique

variable {spaced : Bool} {s t r r' rest rest' : List Char}

/-! ## Tokens -/

/-- The text does not begin with whitespace. -/
def Starts (text : List Char) : Prop :=
  ∀ c ∈ text.head?, ¬ (c = ' ' ∨ c = '\n' ∨ c = '\r' ∨ c = '\t')

theorem starts_cons {c : Char} (other : ¬ (c = ' ' ∨ c = '\n' ∨ c = '\r' ∨ c = '\t')) :
    Starts (c :: s) := by
  rintro d found
  cases found
  exact other

/-- What follows the whitespace is determined. -/
theorem Space.unique (space : Space spaced s r) (space' : Space spaced s r') (starts : Starts r)
    (starts' : Starts r') : r = r' := by
  induction space with
  | nil =>
      cases space' with
      | nil => rfl
      | cons _ white _ => exact absurd white (starts _ rfl)
  | cons _ white _ ih =>
      cases space' with
      | nil => exact absurd white (starts' _ rfl)
      | cons _ _ later => exact ih later starts

/-- Two signs behind the same whitespace are the same. -/
theorem Space.unique_cons {c d : Char} (space : Space spaced s (c :: r))
    (space' : Space spaced s (d :: r')) (starts : Starts (c :: r)) (starts' : Starts (d :: r')) :
    c = d ∧ r = r' :=
  List.cons.inj (space.unique space' starts starts')

theorem eq_of_toNat {c d : Char} (same : c.toNat = d.toNat) : c = d := by
  rw [← Char.ofNat_toNat c, same, Char.ofNat_toNat]

/-- No character is the first half of a pair. -/
theorem not_high_toNat (c : Char) : ¬ IsHigh c.toNat := by
  have valid : c.toNat < 0xD800 ∨ (0xDFFF < c.toNat ∧ c.toNat < 0x110000) := c.valid
  intro high
  have first := high.1
  have last := high.2
  omega

theorem shortEscapes_unique {letter c d : Char} (escape : (letter, c) ∈ shortEscapes)
    (escape' : (letter, d) ∈ shortEscapes) : c = d := by
  have all : ∀ pair ∈ shortEscapes, ∀ pair' ∈ shortEscapes, pair.1 = pair'.1 → pair.2 = pair'.2 := by
    decide
  exact all _ escape _ escape' rfl

/-- Four digits in front of a text are determined, and so is their value. -/
theorem digits_unique {digits digits' : List Char} {value value' : ℕ} (four : digits.length = 4)
    (four' : digits'.length = 4) (same : digits ++ s = digits' ++ t)
    (found : hexValue digits = some value) (found' : hexValue digits' = some value') :
    value = value' ∧ s = t := by
  obtain ⟨rfl, rest⟩ := List.append_inj same (four.trans four'.symm)
  rw [found, Option.some.injEq] at found'
  exact ⟨found', rest⟩

/-- The characters of a string and what is left behind it are determined. -/
theorem Chars.unique {text text' : List Char} (chars : Chars s text rest)
    (chars' : Chars s text' rest') : text = text' ∧ rest = rest' := by
  induction chars generalizing text' with
  | close =>
      cases chars' with
      | close => exact ⟨rfl, rfl⟩
      | plain _ quote _ _ => exact absurd rfl quote
  | plain _ quote backslash _ ih =>
      cases chars' with
      | close => exact absurd rfl quote
      | plain _ _ _ later =>
          obtain ⟨rfl, rfl⟩ := ih later
          exact ⟨rfl, rfl⟩
      | short _ _ => exact absurd rfl backslash
      | code _ _ _ => exact absurd rfl backslash
      | pair _ _ _ _ _ _ _ _ => exact absurd rfl backslash
  | short escape _ ih =>
      cases chars' with
      | plain _ _ backslash _ => exact absurd rfl backslash
      | short escape' later =>
          obtain ⟨rfl, rfl⟩ := ih later
          rw [shortEscapes_unique escape escape']
          exact ⟨rfl, rfl⟩
      | code _ _ _ => exact absurd rfl (of_mem_shortEscapes escape).1
      | pair _ _ _ _ _ _ _ _ => exact absurd rfl (of_mem_shortEscapes escape).1
  | @code digits c s text rest four value later ih =>
      generalize same : '\\' :: 'u' :: (digits ++ s) = whole at chars'
      cases chars' with
      | close => cases same
      | plain _ _ backslash _ =>
          obtain ⟨rfl, _⟩ := List.cons.inj same
          exact absurd rfl backslash
      | short escape _ =>
          obtain ⟨rfl, _⟩ := List.cons.inj (List.cons.inj same).2
          exact absurd rfl (of_mem_shortEscapes escape).1
      | code four' value' later' =>
          have digits := (List.cons.inj (List.cons.inj same).2).2
          obtain ⟨equal, rfl⟩ := digits_unique four four' digits value value'
          obtain ⟨rfl, rfl⟩ := ih later'
          rw [eq_of_toNat equal]
          exact ⟨rfl, rfl⟩
      | pair four' _ value' _ isHigh _ _ _ =>
          have digits := (List.cons.inj (List.cons.inj same).2).2
          obtain ⟨same, _⟩ := digits_unique four four' digits value value'
          rw [← same] at isHigh
          exact absurd isHigh (not_high_toNat c)
  | @pair digits digits' high low c s text rest four four₂ value value₂ isHigh isLow both later ih =>
      generalize same : '\\' :: 'u' :: (digits ++ '\\' :: 'u' :: (digits' ++ s)) = whole at chars'
      cases chars' with
      | close => cases same
      | plain _ _ backslash _ =>
          obtain ⟨rfl, _⟩ := List.cons.inj same
          exact absurd rfl backslash
      | short escape _ =>
          obtain ⟨rfl, _⟩ := List.cons.inj (List.cons.inj same).2
          exact absurd rfl (of_mem_shortEscapes escape).1
      | code four' value' _ =>
          have digits := (List.cons.inj (List.cons.inj same).2).2
          obtain ⟨same, _⟩ := digits_unique four four' digits value value'
          rw [same] at isHigh
          exact absurd isHigh (not_high_toNat _)
      | pair four' four₂' value' value₂' _ _ both' later' =>
          have digits := (List.cons.inj (List.cons.inj same).2).2
          obtain ⟨rfl, behind⟩ := digits_unique four four' digits value value'
          have digits' := (List.cons.inj (List.cons.inj behind).2).2
          obtain ⟨rfl, rfl⟩ := digits_unique four₂ four₂' digits' value₂ value₂'
          obtain ⟨rfl, rfl⟩ := ih later'
          rw [eq_of_toNat (both.trans both'.symm)]
          exact ⟨rfl, rfl⟩

theorem Chars.unique_string {text text' : String} (chars : Chars s text.toList rest)
    (chars' : Chars s text'.toList rest') : text = text' ∧ rest = rest' := by
  obtain ⟨same, behind⟩ := chars.unique chars'
  exact ⟨String.toList_inj.mp same, behind⟩

/-! ## Numbers -/

/-- A character of a number. -/
def numeric (c : Char) : Bool := c.isDigit || c ∈ ['-', '+', '.', 'e', 'E']

theorem numeric_of_isNumber {text : List Char} (number : IsNumber text) :
    ∀ c ∈ text, numeric c = true := by
  obtain ⟨sign, whole, fraction, exponent, rfl, sign', ⟨whole', _⟩, fraction', exponent'⟩ := number
  have digits : ∀ {text : List Char}, IsDigits text → ∀ c ∈ text, numeric c = true :=
    fun all c member => by rw [numeric, all.2 c member, Bool.true_or]
  intro c member
  simp only [List.mem_append] at member
  rcases member with member | member | member | member
  · rcases sign' with rfl | rfl
    · cases member
    · rw [List.mem_singleton.mp member]
      rfl
  · exact digits whole' c member
  · rcases fraction' with rfl | ⟨text, all, rfl⟩
    · cases member
    · rcases List.mem_cons.mp member with rfl | member
      · rfl
      · exact digits all c member
  · rcases exponent' with rfl | ⟨e, sign, text, letter, sign', all, rfl⟩
    · cases member
    · rcases List.mem_cons.mp member with rfl | member
      · rcases letter with rfl | rfl <;> rfl
      · rcases List.mem_append.mp member with member | member
        · rcases sign' with rfl | rfl | rfl
          · cases member
          all_goals
            rw [List.mem_singleton.mp member]
            rfl
        · exact digits all c member

/-- A number ends where no character of a number stands. -/
theorem Ends.takeWhile (ends : Ends rest) : rest.takeWhile numeric = [] := by
  cases rest with
  | nil => rfl
  | cons c rest =>
      have sign := ends c rfl
      rw [List.takeWhile_cons_of_neg]
      rcases sign with rfl | rfl | rfl | rfl | rfl | rfl | rfl <;> decide

theorem takeWhile_number {text : List Char} (number : IsNumber text) (ends : Ends rest) :
    (text ++ rest).takeWhile numeric = text := by
  rw [List.takeWhile_append_of_pos (numeric_of_isNumber number), ends.takeWhile, List.append_nil]

/-- A number starts with a sign or a digit. -/
theorem number_cons {text : List Char} (number : IsNumber text) :
    ∃ c s, text = c :: s ∧ (c = '-' ∨ c.isDigit = true) := by
  obtain ⟨sign, whole, fraction, exponent, rfl, sign', ⟨⟨some, digits⟩, _⟩, _, _⟩ := number
  rcases sign' with rfl | rfl
  · obtain ⟨c, whole, rfl⟩ := List.exists_cons_of_ne_nil some
    exact ⟨c, _, rfl, .inr (digits c List.mem_cons_self)⟩
  · exact ⟨'-', _, rfl, .inl rfl⟩

theorem not_number {literal : String} {c : Char} (number : IsNumber literal.toList)
    (same : c :: s = literal.toList ++ rest) : c = '-' ∨ c.isDigit = true := by
  obtain ⟨d, s', text, first⟩ := number_cons number
  rw [text, List.cons_append] at same
  obtain ⟨rfl, _⟩ := List.cons.inj same
  exact first

/-! ## Values by their first character -/

theorem Reads.value_null {x : Json} (reads : Reads spaced (.value x) ('n' :: s) rest) :
    x = .null ∧ s = 'u' :: 'l' :: 'l' :: rest := by
  generalize same : 'n' :: s = whole at reads
  cases reads with
  | nullLiteral => exact ⟨rfl, (List.cons.inj same).2⟩
  | number number _ => exact absurd (not_number number same) (by decide)
  | _ => exact absurd (List.cons.inj same).1 (by decide)

theorem Reads.value_true {x : Json} (reads : Reads spaced (.value x) ('t' :: s) rest) :
    x = .bool true ∧ s = 'r' :: 'u' :: 'e' :: rest := by
  generalize same : 't' :: s = whole at reads
  cases reads with
  | trueLiteral => exact ⟨rfl, (List.cons.inj same).2⟩
  | number number _ => exact absurd (not_number number same) (by decide)
  | _ => exact absurd (List.cons.inj same).1 (by decide)

theorem Reads.value_false {x : Json} (reads : Reads spaced (.value x) ('f' :: s) rest) :
    x = .bool false ∧ s = 'a' :: 'l' :: 's' :: 'e' :: rest := by
  generalize same : 'f' :: s = whole at reads
  cases reads with
  | falseLiteral => exact ⟨rfl, (List.cons.inj same).2⟩
  | number number _ => exact absurd (not_number number same) (by decide)
  | _ => exact absurd (List.cons.inj same).1 (by decide)

theorem Reads.value_string {x : Json} (reads : Reads spaced (.value x) ('"' :: s) rest) :
    ∃ value, x = .string value ∧ Chars s value.toList rest := by
  generalize same : '"' :: s = whole at reads
  cases reads with
  | string chars =>
      rw [(List.cons.inj same).2]
      exact ⟨_, rfl, chars⟩
  | number number _ => exact absurd (not_number number same) (by decide)
  | _ => exact absurd (List.cons.inj same).1 (by decide)

theorem Reads.value_array {x : Json} (reads : Reads spaced (.value x) ('[' :: s) rest) :
    (x = .array [] ∧ Space spaced s (']' :: rest)) ∨
      ∃ items, x = .array items ∧ Reads spaced (.items items) s rest := by
  generalize same : '[' :: s = whole at reads
  cases reads with
  | noItems space =>
      rw [(List.cons.inj same).2]
      exact .inl ⟨rfl, space⟩
  | array reads =>
      rw [(List.cons.inj same).2]
      exact .inr ⟨_, rfl, reads⟩
  | number number _ => exact absurd (not_number number same) (by decide)
  | _ => exact absurd (List.cons.inj same).1 (by decide)

theorem Reads.value_object {x : Json} (reads : Reads spaced (.value x) ('\x7b' :: s) rest) :
    (x = .object [] ∧ Space spaced s ('\x7d' :: rest)) ∨
      ∃ fields, x = .object fields ∧ Reads spaced (.fields fields) s rest := by
  generalize same : '\x7b' :: s = whole at reads
  cases reads with
  | noFields space =>
      rw [(List.cons.inj same).2]
      exact .inl ⟨rfl, space⟩
  | object reads =>
      rw [(List.cons.inj same).2]
      exact .inr ⟨_, rfl, reads⟩
  | number number _ => exact absurd (not_number number same) (by decide)
  | _ => exact absurd (List.cons.inj same).1 (by decide)

theorem Reads.value_number {x : Json} {literal : String} (number : IsNumber literal.toList)
    (ends : Ends rest) (reads : Reads spaced (.value x) (literal.toList ++ rest) rest') :
    x = .number literal ∧ rest = rest' := by
  obtain ⟨c, s, first, sign⟩ := number_cons number
  generalize same : literal.toList ++ rest = whole at reads
  have head : ∀ {d : Char} {t : List Char}, ¬ (d = '-' ∨ d.isDigit = true) →
      literal.toList ++ rest ≠ d :: t :=
    fun other same => other (not_number number same.symm)
  cases reads with
  | number number' ends' =>
      have text := takeWhile_number number ends
      rw [same, takeWhile_number number' ends'] at text
      rw [String.toList_inj.mp text] at same
      rw [String.toList_inj.mp text]
      exact ⟨rfl, List.append_cancel_left same⟩
  | _ => exact absurd same (head (by decide))

/-- A value starts with no sign and no whitespace. -/
theorem Reads.value_cons {x : Json} (reads : Reads spaced (.value x) s rest) :
    ∃ c t, s = c :: t ∧ Starts s ∧ c ≠ ']' ∧ c ≠ '\x7d' := by
  cases reads with
  | @number literal _ number _ =>
      obtain ⟨c, t, text, sign⟩ := number_cons number
      refine ⟨c, t ++ rest, by rw [text, List.cons_append], ?_, ?_, ?_⟩
      · rw [text]
        refine starts_cons fun white => ?_
        rcases white with rfl | rfl | rfl | rfl <;> revert sign <;> decide
      · rintro rfl
        revert sign
        decide
      · rintro rfl
        revert sign
        decide
  | _ => exact ⟨_, _, rfl, starts_cons (by decide), by decide, by decide⟩

theorem Reads.value_starts {x : Json} (reads : Reads spaced (.value x) s rest) : Starts s := by
  obtain ⟨_, _, _, starts, _, _⟩ := reads.value_cons
  exact starts

/-- Items are not the end of an array. -/
theorem Reads.items_ne_close {items : List Json} (reads : Reads spaced (.items items) s rest) :
    ¬ Space spaced s (']' :: r) := by
  intro close
  have apart : ∀ {x : Json} {s₁ s₂ : List Char}, Space spaced s s₁ →
      Reads spaced (.value x) s₁ s₂ → False := by
    intro x s₁ s₂ before value
    obtain ⟨c, t, same, starts, other, _⟩ := value.value_cons
    rw [same] at before starts
    exact other (before.unique_cons close starts (starts_cons (by decide))).1
  cases reads with
  | lastItem before value _ => exact apart before value
  | item before value _ _ => exact apart before value

theorem Reads.fields_ne_close {fields : List (String × Json)}
    (reads : Reads spaced (.fields fields) s rest) : ¬ Space spaced s ('\x7d' :: r) := by
  intro close
  have apart : ∀ {t : List Char}, ¬ Space spaced s ('"' :: t) := fun before =>
    absurd (before.unique_cons close (starts_cons (by decide)) (starts_cons (by decide))).1
      (by decide)
  cases reads with
  | lastField before _ _ _ _ _ => exact apart before
  | field before _ _ _ _ _ _ => exact apart before

/-! ## Parts -/

/-- Both are values, or items, or fields. -/
def Part.SameKind : Part → Part → Prop
  | .value _, .value _ => True
  | .items _, .items _ => True
  | .fields _, .fields _ => True
  | _, _ => False

/-- The key of a field, and what is behind the colon. -/
theorem colon_unique {key key' : String} {s₁ s₂ s₃ s₁' s₂' s₃' : List Char}
    (before : Space spaced s ('"' :: s₁)) (chars : Chars s₁ key.toList s₂)
    (colon : Space spaced s₂ (':' :: s₃)) (before' : Space spaced s ('"' :: s₁'))
    (chars' : Chars s₁' key'.toList s₂') (colon' : Space spaced s₂' (':' :: s₃')) :
    key = key' ∧ s₃ = s₃' := by
  obtain ⟨_, rfl⟩ := before.unique_cons before' (starts_cons (by decide)) (starts_cons (by decide))
  obtain ⟨rfl, rfl⟩ := chars.unique_string chars'
  obtain ⟨_, rfl⟩ := colon.unique_cons colon' (starts_cons (by decide)) (starts_cons (by decide))
  exact ⟨rfl, rfl⟩

/-- The key of a field, and where its value begins. -/
theorem key_unique {key key' : String} {s₁ s₂ s₃ s₄ s₁' s₂' s₃' s₄' : List Char}
    (before : Space spaced s ('"' :: s₁)) (chars : Chars s₁ key.toList s₂)
    (colon : Space spaced s₂ (':' :: s₃)) (between : Space spaced s₃ s₄) (starts : Starts s₄)
    (before' : Space spaced s ('"' :: s₁')) (chars' : Chars s₁' key'.toList s₂')
    (colon' : Space spaced s₂' (':' :: s₃')) (between' : Space spaced s₃' s₄')
    (starts' : Starts s₄') : key = key' ∧ s₄ = s₄' := by
  obtain ⟨rfl, rfl⟩ := colon_unique before chars colon before' chars' colon'
  exact ⟨rfl, between.unique between' starts starts'⟩

/-- **What is in front of a text is a single part of its kind, and what is left behind
it is determined.** -/
theorem Reads.unique {part part' : Part} (reads : Reads spaced part s rest)
    (reads' : Reads spaced part' s rest') (kind : part.SameKind part') :
    part = part' ∧ rest = rest' := by
  have sign : ∀ {c : Char} {t : List Char}, c = ',' ∨ c = ']' ∨ c = '\x7d' →
      Starts (c :: t) := by
    intro c t sign
    rcases sign with rfl | rfl | rfl <;> exact starts_cons (by decide)
  induction reads generalizing part' rest' with
  | nullLiteral =>
      cases part' with
      | value x =>
          obtain ⟨rfl, same⟩ := reads'.value_null
          cases same
          exact ⟨rfl, rfl⟩
      | _ => cases kind
  | trueLiteral =>
      cases part' with
      | value x =>
          obtain ⟨rfl, same⟩ := reads'.value_true
          cases same
          exact ⟨rfl, rfl⟩
      | _ => cases kind
  | falseLiteral =>
      cases part' with
      | value x =>
          obtain ⟨rfl, same⟩ := reads'.value_false
          cases same
          exact ⟨rfl, rfl⟩
      | _ => cases kind
  | number number ends =>
      cases part' with
      | value x =>
          obtain ⟨rfl, rfl⟩ := reads'.value_number number ends
          exact ⟨rfl, rfl⟩
      | _ => cases kind
  | string chars =>
      cases part' with
      | value x =>
          obtain ⟨value, rfl, chars'⟩ := reads'.value_string
          obtain ⟨rfl, rfl⟩ := chars.unique_string chars'
          exact ⟨rfl, rfl⟩
      | _ => cases kind
  | noItems space =>
      cases part' with
      | value x =>
          rcases reads'.value_array with ⟨rfl, space'⟩ | ⟨items, rfl, items'⟩
          · obtain ⟨_, rfl⟩ := space.unique_cons space' (sign (by decide)) (sign (by decide))
            exact ⟨rfl, rfl⟩
          · exact absurd space items'.items_ne_close
      | _ => cases kind
  | array reads ih =>
      cases part' with
      | value x =>
          rcases reads'.value_array with ⟨rfl, space'⟩ | ⟨items, rfl, items'⟩
          · exact absurd space' reads.items_ne_close
          · obtain ⟨same, rfl⟩ := ih items' trivial
            cases same
            exact ⟨rfl, rfl⟩
      | _ => cases kind
  | lastItem before reads after ih =>
      cases reads' with
      | lastItem before' reads' after' =>
          obtain rfl := before.unique before' reads.value_starts reads'.value_starts
          obtain ⟨same, rfl⟩ := ih reads' trivial
          cases same
          obtain ⟨_, rfl⟩ := after.unique_cons after' (sign (by decide)) (sign (by decide))
          exact ⟨rfl, rfl⟩
      | item before' reads' after' _ =>
          obtain rfl := before.unique before' reads.value_starts reads'.value_starts
          obtain ⟨_, rfl⟩ := ih reads' trivial
          have same := (after.unique_cons after' (sign (by decide)) (sign (by decide))).1
          exact absurd same (by decide)
      | _ => cases kind
  | item before reads after _ ih ih' =>
      cases reads' with
      | lastItem before' reads' after' =>
          obtain rfl := before.unique before' reads.value_starts reads'.value_starts
          obtain ⟨_, rfl⟩ := ih reads' trivial
          have same := (after.unique_cons after' (sign (by decide)) (sign (by decide))).1
          exact absurd same (by decide)
      | item before' reads' after' later' =>
          obtain rfl := before.unique before' reads.value_starts reads'.value_starts
          obtain ⟨same, rfl⟩ := ih reads' trivial
          cases same
          obtain ⟨_, rfl⟩ := after.unique_cons after' (sign (by decide)) (sign (by decide))
          obtain ⟨same, rfl⟩ := ih' later' trivial
          cases same
          exact ⟨rfl, rfl⟩
      | _ => cases kind
  | noFields space =>
      cases part' with
      | value x =>
          rcases reads'.value_object with ⟨rfl, space'⟩ | ⟨fields, rfl, fields'⟩
          · obtain ⟨_, rfl⟩ := space.unique_cons space' (sign (by decide)) (sign (by decide))
            exact ⟨rfl, rfl⟩
          · exact absurd space fields'.fields_ne_close
      | _ => cases kind
  | object reads ih =>
      cases part' with
      | value x =>
          rcases reads'.value_object with ⟨rfl, space'⟩ | ⟨fields, rfl, fields'⟩
          · exact absurd space' reads.fields_ne_close
          · obtain ⟨same, rfl⟩ := ih fields' trivial
            cases same
            exact ⟨rfl, rfl⟩
      | _ => cases kind
  | lastField before chars colon between reads after ih =>
      cases reads' with
      | lastField before' chars' colon' between' reads' after' =>
          obtain ⟨rfl, rfl⟩ := key_unique before chars colon between reads.value_starts before'
            chars' colon' between' reads'.value_starts
          obtain ⟨same, rfl⟩ := ih reads' trivial
          cases same
          obtain ⟨_, rfl⟩ := after.unique_cons after' (sign (by decide)) (sign (by decide))
          exact ⟨rfl, rfl⟩
      | field before' chars' colon' between' reads' after' _ =>
          obtain ⟨rfl, rfl⟩ := key_unique before chars colon between reads.value_starts before'
            chars' colon' between' reads'.value_starts
          obtain ⟨_, rfl⟩ := ih reads' trivial
          have same := (after.unique_cons after' (sign (by decide)) (sign (by decide))).1
          exact absurd same (by decide)
      | _ => cases kind
  | field before chars colon between reads after _ ih ih' =>
      cases reads' with
      | lastField before' chars' colon' between' reads' after' =>
          obtain ⟨rfl, rfl⟩ := key_unique before chars colon between reads.value_starts before'
            chars' colon' between' reads'.value_starts
          obtain ⟨_, rfl⟩ := ih reads' trivial
          have same := (after.unique_cons after' (sign (by decide)) (sign (by decide))).1
          exact absurd same (by decide)
      | field before' chars' colon' between' reads' after' later' =>
          obtain ⟨rfl, rfl⟩ := key_unique before chars colon between reads.value_starts before'
            chars' colon' between' reads'.value_starts
          obtain ⟨same, rfl⟩ := ih reads' trivial
          cases same
          obtain ⟨_, rfl⟩ := after.unique_cons after' (sign (by decide)) (sign (by decide))
          obtain ⟨same, rfl⟩ := ih' later' trivial
          cases same
          exact ⟨rfl, rfl⟩
      | _ => cases kind

/-- A text denotes one value. -/
theorem Denotes.unique {text : List Char} {x y : Json} (denotes : Denotes spaced text x)
    (denotes' : Denotes spaced text y) : x = y := by
  obtain ⟨s, rest, before, reads, _⟩ := denotes
  obtain ⟨s', rest', before', reads', _⟩ := denotes'
  obtain rfl := before.unique before' reads.value_starts reads'.value_starts
  obtain ⟨same, _⟩ := reads.unique reads' trivial
  cases same
  rfl

end Unique

end JsonText

end SpiceHarvester
