import SpiceHarvester.Core
import SpiceHarvester.Json.Marshal
import SpiceHarvester.Json.Unique

/-!
# Texts that are written as they are

A value that `encoding/json` writes without a backslash is not touched by the removal
of `\u0000`. Fields of such values may stand in front of others: whatever the text is
behind them, it is read as an object that starts with these fields
(`fields_of_headText`).
-/

set_option autoImplicit false

namespace SpiceHarvester

open JsonText

/-! ## Texts without a backslash -/

/-- The text has no backslash. -/
def NoBackslash (text : List Char) : Prop := ∀ c ∈ text, c ≠ '\\'

theorem NoBackslash.append {text text' : List Char} (clean : NoBackslash text)
    (clean' : NoBackslash text') : NoBackslash (text ++ text') := by
  intro c member
  rcases List.mem_append.mp member with member | member
  · exact clean c member
  · exact clean' c member

theorem NoBackslash.cons {c : Char} {text : List Char} (other : c ≠ '\\')
    (clean : NoBackslash text) : NoBackslash (c :: text) := by
  intro d member
  rcases List.mem_cons.mp member with rfl | member
  · exact other
  · exact clean d member

/-- Letters, digits, colons and signs are written as they are. -/
theorem escapeChar_alphanum {c : Char} (plain : c.isAlphanum = true ∨ c = ':' ∨ c = '-') :
    escapeChar c = [c] ∧ c ≠ '\\' := by
  have all : ∀ n ∈ List.range 128, ((Char.ofNat n).isAlphanum = true ∨ Char.ofNat n = ':' ∨
      Char.ofNat n = '-') → escapeChar (Char.ofNat n) = [Char.ofNat n] ∧ Char.ofNat n ≠ '\\' := by
    decide +kernel
  have small : c.toNat < 128 := by
    rcases plain with plain | rfl | rfl
    · delta Char.isAlphanum Char.isAlpha Char.isUpper Char.isLower Char.isDigit at plain
      simp only [Bool.or_eq_true, Bool.and_eq_true, decide_eq_true_eq] at plain
      have : c.val.toNat < 128 := by
        rcases plain with (⟨_, high⟩ | ⟨_, high⟩) | ⟨_, high⟩
        · exact Nat.lt_of_le_of_lt (UInt32.le_iff_toNat_le.mp high) (by decide)
        · exact Nat.lt_of_le_of_lt (UInt32.le_iff_toNat_le.mp high) (by decide)
        · exact Nat.lt_of_le_of_lt (UInt32.le_iff_toNat_le.mp high) (by decide)
      exact this
    · decide
    · decide
  have found := all c.toNat (List.mem_range.mpr small)
  rw [Char.ofNat_toNat] at found
  exact found plain

theorem isDigit_alphanum {c : Char} (digit : c.isDigit = true) : c.isAlphanum = true := by
  rw [Char.isAlphanum, digit, Bool.or_true]

theorem noBackslash_marshalText {text : List Char}
    (plain : ∀ c ∈ text, c.isAlphanum = true ∨ c = ':' ∨ c = '-') :
    NoBackslash (marshalText text) := by
  refine .cons (by decide) (.append ?_ (by simp [NoBackslash]))
  intro c member
  obtain ⟨d, found, member⟩ := List.mem_flatMap.mp member
  obtain ⟨itself, other⟩ := escapeChar_alphanum (plain d found)
  rw [itself, List.mem_singleton] at member
  rw [member]
  exact other

/-- A value that is written without a backslash has no U+0000 in its strings. -/
theorem Json.strip_of_noBackslash {x : Json} (encodable : x.Encodable)
    (clean : NoBackslash x.marshal) : x.strip = x := by
  have denotes := Json.denotes_marshal encodable
  have same := dropNul_append clean []
  rw [List.append_nil, show dropNul [] = [] from rfl, List.append_nil] at same
  have clear : ¬ Clash false x.marshal := by
    have clash := clash_append clean []
    rw [List.append_nil] at clash
    exact clash.mp
  have stripped := denotes.dropNul clear
  rw [same] at stripped
  exact stripped.unique denotes

theorem noBackslash_digits (n : ℕ) : NoBackslash (toString n).toList := fun _ member =>
  (inert_of_isDigit (isDigit_of_mem_toString member)).1

theorem noBackslash_marshalText_digits (n : ℕ) : NoBackslash (marshalText (toString n).toList) :=
  noBackslash_marshalText fun _ member => .inl (isDigit_alphanum (isDigit_of_mem_toString member))

/-- A printed number other than 0 does not start with a zero. -/
theorem head_toDigits {n : ℕ} (positive : 0 < n) : (Nat.toDigits 10 n).head? ≠ some '0' := by
  induction n using Nat.strong_induction_on with
  | _ n ih =>
      by_cases small : n < 10
      · rw [Nat.toDigits_of_lt_base small]
        have all : ∀ n ∈ List.range 10, 0 < n → [n.digitChar].head? ≠ some '0' := by decide
        exact all n (List.mem_range.mpr small) positive
      · rw [Nat.toDigits_of_base_le (by decide) (by omega), List.head?_append_of_ne_nil]
        · exact ih (n / 10) (by omega) (by omega)
        · exact Nat.toDigits_ne_nil

/-- A printed number is a JSON number. -/
theorem isNumber_toString (n : ℕ) : IsNumber (toString n).toList := by
  refine ⟨[], (toString n).toList, [], [], by simp, .inl rfl, ⟨⟨?_, ?_⟩, ?_⟩, .inl rfl, .inl rfl⟩
  · rw [toList_toString_nat]
    exact Nat.toDigits_ne_nil
  · exact fun _ => isDigit_of_mem_toString
  · intro head
    rw [toList_toString_nat] at head ⊢
    by_cases positive : 0 < n
    · exact absurd head (head_toDigits positive)
    · obtain rfl : n = 0 := by omega
      rfl

/-! ## Fields -/

/-- A field that is written without a backslash. -/
structure CleanField (entry : String × Json) : Prop where
  key : NoBackslash (marshalText entry.1.toList)
  encodable : entry.2.Encodable
  field : NoBackslash entry.2.marshal

theorem CleanField.strip {entry : String × Json} (clean : CleanField entry) :
    (stripString entry.1, entry.2.strip) = entry := by
  have key := Json.strip_of_noBackslash (x := .string entry.1) trivial clean.key
  rw [Json.strip, Json.string.injEq] at key
  rw [key, Json.strip_of_noBackslash clean.encodable clean.field]

theorem stripFields_append (fields fields' : List (String × Json)) :
    stripFields (fields ++ fields') = stripFields fields ++ stripFields fields' := by
  induction fields with
  | nil => rfl
  | cons entry rest ih =>
      rw [List.cons_append, stripFields, stripFields, ih, List.cons_append]

theorem stripFields_of_clean {fields : List (String × Json)}
    (clean : ∀ entry ∈ fields, CleanField entry) : stripFields fields = fields := by
  induction fields with
  | nil => rfl
  | cons entry rest ih =>
      rw [stripFields, (clean entry List.mem_cons_self).strip,
        ih fun entry member => clean entry (List.mem_cons_of_mem _ member)]

/-- Fields with a comma behind each. -/
def headText : List (String × Json) → List Char
  | [] => []
  | (key, field) :: fields =>
      marshalText key.toList ++ (':' :: (field.marshal ++ (',' :: headText fields)))

theorem noBackslash_headText {fields : List (String × Json)}
    (clean : ∀ entry ∈ fields, CleanField entry) : NoBackslash (headText fields) := by
  induction fields with
  | nil => exact fun c member => by cases member
  | cons entry rest ih =>
      have first := clean entry List.mem_cons_self
      have later := ih fun entry member => clean entry (List.mem_cons_of_mem _ member)
      exact first.key.append (.cons (by decide) (first.field.append (.cons (by decide) later)))

/-- What is written of the fields is read as the fields, in front of other fields. -/
theorem reads_headText {fields later : List (String × Json)} {s rest : List Char}
    (clean : ∀ entry ∈ fields, CleanField entry) (reads : Reads false (.fields later) s rest) :
    Reads false (.fields (fields ++ later)) (headText fields ++ s) rest := by
  induction fields with
  | nil => exact reads
  | cons entry others ih =>
      have first := clean entry List.mem_cons_self
      have behind := ih fun entry member => clean entry (List.mem_cons_of_mem _ member)
      rw [headText, List.append_assoc, marshalText_append, List.cons_append, List.cons_append,
        List.append_assoc, List.cons_append]
      exact .field .nil (chars_marshalText _ _) .nil .nil
        (entry.2.reads_marshal first.encodable _ (ends_cons (by decide))) .nil behind

/-- Fields that start with what is written of some fields start with these. -/
theorem fields_of_headText {fields all : List (String × Json)} {s rest : List Char}
    (clean : ∀ entry ∈ fields, CleanField entry)
    (reads : Reads true (.fields all) (headText fields ++ s) rest) :
    ∃ later, all = fields ++ later ∧ Reads true (.fields later) s rest := by
  induction fields generalizing all with
  | nil => exact ⟨all, rfl, reads⟩
  | cons entry others ih =>
      have first := clean entry List.mem_cons_self
      have behind : ∀ entry ∈ others, CleanField entry :=
        fun entry member => clean entry (List.mem_cons_of_mem _ member)
      rw [headText, List.append_assoc, marshalText_append, List.cons_append, List.append_assoc,
        List.cons_append] at reads
      have chars := chars_marshalText entry.1.toList
        (':' :: (entry.2.marshal ++ ',' :: (headText others ++ s)))
      have value := (entry.2.reads_marshal first.encodable (',' :: (headText others ++ s))
        (ends_cons (by decide))).spaced
      have comma : ∀ {t : List Char}, Starts (',' :: t) := starts_cons (by decide)
      cases reads with
      | lastField before chars' colon between field after =>
          obtain ⟨rfl, rfl⟩ := key_unique .nil chars .nil .nil value.value_starts before chars' colon
            between field.value_starts
          obtain ⟨_, rfl⟩ := value.unique field trivial
          have same := (Space.unique_cons .nil after comma (starts_cons (by decide))).1
          exact absurd same (by decide)
      | field before chars' colon between field after later =>
          obtain ⟨rfl, rfl⟩ := key_unique .nil chars .nil .nil value.value_starts before chars' colon
            between field.value_starts
          obtain ⟨same, rfl⟩ := value.unique field trivial
          obtain ⟨_, rfl⟩ := Space.unique_cons .nil after comma comma
          cases same
          obtain ⟨fields, rfl, reads⟩ := ih behind later
          exact ⟨fields, rfl, reads⟩

theorem cleanField {key : String} {field : Json} (plain : NoBackslash (marshalText key.toList))
    (encodable : field.Encodable) (clean : NoBackslash field.marshal) : CleanField (key, field) :=
  ⟨plain, encodable, clean⟩

theorem marshalFields_of_clean {fields : List (String × Json)}
    (clean : ∀ entry ∈ fields, CleanField entry) :
    EncodableFields fields ∧ NoBackslash (marshalFields fields) := by
  induction fields with
  | nil => exact ⟨trivial, no_backslash rfl⟩
  | cons entry rest ih =>
      have first := clean entry List.mem_cons_self
      obtain ⟨encodable, plain⟩ := ih fun entry member => clean entry (List.mem_cons_of_mem _ member)
      refine ⟨⟨first.encodable, encodable⟩, ?_⟩
      exact .cons (by decide) (first.key.append (.cons (by decide) (first.field.append plain)))

/-- An object of clean fields is clean. -/
theorem object_of_clean {fields : List (String × Json)}
    (clean : ∀ entry ∈ fields, CleanField entry) :
    (Json.object fields).Encodable ∧ NoBackslash (Json.object fields).marshal := by
  cases fields with
  | nil => exact ⟨trivial, no_backslash rfl⟩
  | cons entry rest =>
      have first := clean entry List.mem_cons_self
      obtain ⟨encodable, plain⟩ :=
        marshalFields_of_clean fun entry member => clean entry (List.mem_cons_of_mem _ member)
      refine ⟨⟨first.encodable, encodable⟩, ?_⟩
      exact .cons (by decide) (first.key.append (.cons (by decide) (first.field.append plain)))

theorem cleanField_number {key : String} (plain : NoBackslash (marshalText key.toList)) (n : ℕ) :
    CleanField (key, .number (toString n)) :=
  cleanField plain (isNumber_toString n) (noBackslash_digits n)

/-! ## Clashes -/

theorem prefix_concat_iff_of_not_mem {c : Char} (other : c ∉ zeros) (text : List Char) :
    zeros <+: text ++ [c] ↔ zeros <+: text := by
  rw [List.prefix_concat_iff]
  refine or_iff_right fun same => other ?_
  rw [same]
  exact List.mem_append_right _ List.mem_cons_self

theorem clash_concat {c : Char} (other : c ∉ zeros) (escaped : Bool) (text : List Char) :
    Clash escaped (text ++ [c]) ↔ Clash escaped text := by
  induction text generalizing escaped with
  | nil =>
      have none : ¬ zeros <+: [] := by decide
      cases escaped <;> simp [Clash, none]
  | cons d rest ih =>
      cases escaped with
      | false => exact ih _
      | true =>
          rw [List.cons_append, Clash, Clash, ih, prefix_concat_iff_of_not_mem other]

end SpiceHarvester
