import SpiceHarvester.Json.Grammar
import Mathlib.Data.List.Infix

/-!
# Texts without NUL escapes

What becomes of a JSON text when every occurrence of `\u0000` is removed from it
(`dropNul`). An occurrence whose backslash is the first one of an escape denotes the
character U+0000, and its removal leaves a text of the value without that character.
An occurrence whose backslash is the second one of an escaped backslash denotes
itself, and the removal cuts an escape in two: the text clashes with the removal
(`Clash`). A text that does not clash denotes, after the removal, its value
without U+0000 (`Denotes.dropNul`).
-/

set_option autoImplicit false

namespace SpiceHarvester

/-! ## Values without U+0000 -/

/-- A string without U+0000. -/
def stripString (text : String) : String :=
  String.ofList (text.toList.filter fun c => c ≠ Char.ofNat 0)

mutual

/-- A value with every U+0000 removed from its strings. -/
def Json.strip : Json → Json
  | .null => .null
  | .bool value => .bool value
  | .number literal => .number literal
  | .string value => .string (stripString value)
  | .array items => .array (stripItems items)
  | .object fields => .object (stripFields fields)

def stripItems : List Json → List Json
  | [] => []
  | item :: items => item.strip :: stripItems items

def stripFields : List (String × Json) → List (String × Json)
  | [] => []
  | (key, field) :: fields => (stripString key, field.strip) :: stripFields fields

end

namespace JsonText

def Part.strip : Part → Part
  | .value x => .value x.strip
  | .items xs => .items (stripItems xs)
  | .fields entries => .fields (stripFields entries)

/-! ## Removing the escape -/

/-- `bytes.ReplaceAll` with nothing in place of the pattern: what is left of a text
when `skip` more characters of an occurrence have to go. -/
def removeAll (pattern : List Char) : ℕ → List Char → List Char
  | _, [] => []
  | 0, c :: rest =>
      if pattern.isPrefixOf (c :: rest) then removeAll pattern (pattern.length - 1) rest
      else c :: removeAll pattern 0 rest
  | skip + 1, _ :: rest => removeAll pattern skip rest

/-- The text `u0000`. -/
def zeros : List Char := ['u', '0', '0', '0', '0']

def dropNul (text : List Char) : List Char := removeAll ('\\' :: zeros) 0 text

theorem dropNul_cons {c : Char} (other : c ≠ '\\') (s : List Char) :
    dropNul (c :: s) = c :: dropNul s := by
  unfold dropNul
  rw [removeAll, if_neg]
  simp [List.isPrefixOf, Ne.symm other]

theorem dropNul_zeros (s : List Char) : dropNul ('\\' :: (zeros ++ s)) = dropNul s := rfl

theorem dropNul_backslash {s : List Char} (other : ¬ zeros <+: s) :
    dropNul ('\\' :: s) = '\\' :: dropNul s := by
  unfold dropNul
  rw [removeAll, if_neg]
  rw [List.isPrefixOf_iff_prefix, List.prefix_cons_iff]
  simpa using other

theorem dropNul_append {text : List Char} (other : ∀ c ∈ text, c ≠ '\\') (s : List Char) :
    dropNul (text ++ s) = text ++ dropNul s := by
  induction text with
  | nil => rfl
  | cons c rest ih =>
      rw [List.cons_append, dropNul_cons (other c List.mem_cons_self),
        ih fun c member => other c (List.mem_cons_of_mem _ member), List.cons_append]

/-! ## Clashes -/

/-- An escaped backslash is followed by `u0000`. The flag says that a backslash has
opened an escape. -/
def Clash : Bool → List Char → Prop
  | _, [] => False
  | false, c :: rest => Clash (c = '\\') rest
  | true, c :: rest => (c = '\\' ∧ zeros <+: rest) ∨ Clash false rest

theorem clash_cons {c : Char} (other : c ≠ '\\') (s : List Char) :
    Clash false (c :: s) ↔ Clash false s := by
  rw [Clash, decide_eq_false other]

theorem clash_escape (letter : Char) (s : List Char) :
    Clash false ('\\' :: letter :: s) ↔ (letter = '\\' ∧ zeros <+: s) ∨ Clash false s := by
  rw [Clash, decide_eq_true rfl, Clash]

theorem clash_append {text : List Char} (other : ∀ c ∈ text, c ≠ '\\') (s : List Char) :
    Clash false (text ++ s) ↔ Clash false s := by
  induction text with
  | nil => rfl
  | cons c rest ih =>
      rw [List.cons_append, clash_cons (other c List.mem_cons_self),
        ih fun c member => other c (List.mem_cons_of_mem _ member)]

/-! ## Texts that do not clash -/

theorem Space.dropNul {spaced : Bool} {s rest : List Char} (space : Space spaced s rest) :
    Space spaced (dropNul s) (dropNul rest) ∧ (Clash false rest → Clash false s) := by
  induction space with
  | nil => exact ⟨.nil, id⟩
  | cons allowed space _ ih =>
      have inert := inert_of_space space
      rw [dropNul_cons inert.1, clash_cons inert.1]
      exact ⟨.cons allowed space ih.1, ih.2⟩

/-- The letter of a short escape, and the character it denotes. -/
theorem of_mem_shortEscapes {letter c : Char} (escape : (letter, c) ∈ shortEscapes) :
    letter ≠ 'u' ∧ c ≠ Char.ofNat 0 := by
  have all : ∀ pair ∈ shortEscapes, pair.1 ≠ 'u' ∧ pair.2 ≠ Char.ofNat 0 := by decide
  exact all _ escape

theorem not_zeros_of_ne {c : Char} (other : c ≠ 'u') (s : List Char) : ¬ zeros <+: c :: s := by
  unfold zeros
  rw [List.cons_prefix_cons]
  exact fun same => other same.1.symm

/-- Four digits of another value do not start with `0000`. -/
theorem not_zeros_of_hexValue {digits : List Char} {value : ℕ} (four : digits.length = 4)
    (found : hexValue digits = some value) (other : value ≠ 0) (s : List Char) :
    ¬ zeros <+: 'u' :: (digits ++ s) := by
  intro same
  have same : List.replicate 4 '0' <+: digits ++ s := (List.cons_prefix_cons.mp same).2
  have equal : List.replicate 4 '0' = digits :=
    (List.prefix_of_prefix_length_le same (List.prefix_append digits s)
      (by rw [four, List.length_replicate])).eq_of_length (by rw [four, List.length_replicate])
  rw [← equal] at found
  cases found
  exact other rfl

/-- The characters of a string without U+0000. -/
def stripChars (text : List Char) : List Char := text.filter fun c => c ≠ Char.ofNat 0

theorem stripChars_cons {c : Char} (other : c ≠ Char.ofNat 0) (text : List Char) :
    stripChars (c :: text) = c :: stripChars text :=
  List.filter_cons_of_pos (by simpa using other)

theorem toList_stripString (text : String) :
    (stripString text).toList = stripChars text.toList := by
  rw [stripString, String.toList_ofList]
  rfl

theorem ne_nul_of_le {c : Char} (printable : 0 < c.toNat) : c ≠ Char.ofNat 0 := by
  rintro rfl
  exact absurd printable (by decide)

/-- A string that does not clash loses its U+0000. -/
theorem Chars.dropNul {s text rest : List Char} (chars : Chars s text rest) :
    (¬ Clash false s → Chars (dropNul s) (stripChars text) (dropNul rest)) ∧
      (Clash false rest → Clash false s) := by
  induction chars with
  | close =>
      rw [dropNul_cons (by decide), clash_cons (by decide)]
      exact ⟨fun _ => .close, id⟩
  | plain printable quote backslash later ih =>
      rw [dropNul_cons backslash, clash_cons backslash,
        stripChars_cons (ne_nul_of_le (Nat.lt_of_lt_of_le (by decide) printable))]
      exact ⟨fun clear => .plain printable quote backslash (ih.1 clear), ih.2⟩
  | @short letter c s text rest escape later ih =>
      obtain ⟨letter', other⟩ := of_mem_shortEscapes escape
      rw [clash_escape, not_or, stripChars_cons other]
      refine ⟨fun ⟨apart, clear⟩ => ?_, fun clash => .inr (ih.2 clash)⟩
      have dropped : JsonText.dropNul (letter :: s) = letter :: JsonText.dropNul s := by
        by_cases backslash : letter = '\\'
        · rw [backslash, dropNul_backslash fun same => apart ⟨backslash, same⟩]
        · exact dropNul_cons backslash s
      rw [dropNul_backslash (not_zeros_of_ne letter' s), dropped]
      exact .short escape (ih.1 clear)
  | @code digits c s text rest four value later ih =>
      have inert : ∀ d ∈ digits, d ≠ '\\' := fun d member => (inert_of_hexValue value d member).1
      rw [clash_escape, clash_append inert]
      refine ⟨fun apart => ?_, fun clash => .inr (ih.2 clash)⟩
      have clear := (not_or.mp apart).2
      by_cases nul : c = Char.ofNat 0
      · subst nul
        have same := zeros_of_hexValue value
        rw [four] at same
        have dropped : JsonText.dropNul ('\\' :: 'u' :: (digits ++ s)) = JsonText.dropNul s := by
          rw [same]
          exact dropNul_zeros s
        rw [dropped]
        exact ih.1 clear
      · have positive : c.toNat ≠ 0 := fun zero => nul (by rw [← Char.ofNat_toNat c, zero])
        rw [dropNul_backslash (not_zeros_of_hexValue four value positive s), dropNul_cons (by decide),
          dropNul_append inert, stripChars_cons nul]
        exact .code four value (ih.1 clear)
  | @pair digits digits' high low c s text rest four four' value value' isHigh isLow both later ih =>
      have inert : ∀ d ∈ digits, d ≠ '\\' := fun d member => (inert_of_hexValue value d member).1
      have inert' : ∀ d ∈ digits', d ≠ '\\' :=
        fun d member => (inert_of_hexValue value' d member).1
      have high' : high ≠ 0 := by
        have := isHigh.1
        omega
      have low' : low ≠ 0 := by
        have := isLow.1
        omega
      rw [clash_escape, clash_append inert, clash_escape, clash_append inert']
      refine ⟨fun apart => ?_, fun clash => .inr (.inr (ih.2 clash))⟩
      have clear := (not_or.mp (not_or.mp apart).2).2
      rw [dropNul_backslash (not_zeros_of_hexValue four value high' _), dropNul_cons (by decide),
        dropNul_append inert, dropNul_backslash (not_zeros_of_hexValue four' value' low' s),
        dropNul_cons (by decide), dropNul_append inert',
        stripChars_cons (ne_nul_of_le (by omega))]
      exact .pair four four' value value' isHigh isLow both (ih.1 clear)

theorem Ends.dropNul {rest : List Char} (ends : Ends rest) : Ends (dropNul rest) := by
  cases rest with
  | nil => exact ends
  | cons c rest =>
      have sign := ends c rfl
      have other : c ≠ '\\' := by
        rintro rfl
        simp at sign
      rw [dropNul_cons other]
      exact ends

theorem Chars.dropNul_string {s rest : List Char} {text : String}
    (chars : Chars s text.toList rest) (clear : ¬ Clash false s) :
    Chars (JsonText.dropNul s) (stripString text).toList (JsonText.dropNul rest) := by
  rw [toList_stripString]
  exact chars.dropNul.1 clear

/-- A part of a text that does not clash loses its U+0000. -/
theorem Reads.dropNul {spaced : Bool} {part : Part} {s rest : List Char}
    (reads : Reads spaced part s rest) :
    (¬ Clash false s → Reads spaced part.strip (dropNul s) (dropNul rest)) ∧
      (Clash false rest → Clash false s) := by
  induction reads with
  | nullLiteral => exact ⟨fun _ => .nullLiteral, id⟩
  | trueLiteral => exact ⟨fun _ => .trueLiteral, id⟩
  | falseLiteral => exact ⟨fun _ => .falseLiteral, id⟩
  | number number ends =>
      have inert := fun c member => (inert_of_isNumber number c member).1
      rw [dropNul_append inert, clash_append inert]
      exact ⟨fun _ => .number number ends.dropNul, id⟩
  | string chars =>
      rw [dropNul_cons (by decide), clash_cons (by decide)]
      exact ⟨fun clear => .string (chars.dropNul_string clear), chars.dropNul.2⟩
  | noItems space =>
      have space := space.dropNul
      rw [dropNul_cons (by decide), clash_cons (by decide)] at space
      rw [dropNul_cons (by decide), clash_cons (by decide)]
      exact ⟨fun _ => .noItems space.1, space.2⟩
  | array reads ih =>
      rw [dropNul_cons (by decide), clash_cons (by decide)]
      exact ⟨fun clear => .array (ih.1 clear), ih.2⟩
  | lastItem before reads after ih =>
      have before := before.dropNul
      have after := after.dropNul
      rw [dropNul_cons (by decide), clash_cons (by decide)] at after
      refine ⟨fun clear => .lastItem before.1 (ih.1 ?_) after.1, ?_⟩
      · exact fun clash => clear (before.2 clash)
      · exact fun clash => before.2 (ih.2 (after.2 clash))
  | item before reads after later ih ih' =>
      have before := before.dropNul
      have after := after.dropNul
      rw [dropNul_cons (by decide), clash_cons (by decide)] at after
      refine ⟨fun clear => .item before.1 (ih.1 ?_) after.1 (ih'.1 ?_), ?_⟩
      · exact fun clash => clear (before.2 clash)
      · exact fun clash => clear (before.2 (ih.2 (after.2 clash)))
      · exact fun clash => before.2 (ih.2 (after.2 (ih'.2 clash)))
  | noFields space =>
      have space := space.dropNul
      rw [dropNul_cons (by decide), clash_cons (by decide)] at space
      rw [dropNul_cons (by decide), clash_cons (by decide)]
      exact ⟨fun _ => .noFields space.1, space.2⟩
  | object reads ih =>
      rw [dropNul_cons (by decide), clash_cons (by decide)]
      exact ⟨fun clear => .object (ih.1 clear), ih.2⟩
  | lastField before chars colon between reads after ih =>
      have before := before.dropNul
      have colon := colon.dropNul
      have between := between.dropNul
      have after := after.dropNul
      rw [dropNul_cons (by decide), clash_cons (by decide)] at before colon after
      have key : Clash false _ → Clash false _ := fun clash => before.2 (chars.dropNul.2 clash)
      have field : Clash false _ → Clash false _ := fun clash => key (colon.2 (between.2 clash))
      refine ⟨fun clear => .lastField before.1 (chars.dropNul_string ?_) colon.1 between.1
        (ih.1 ?_) after.1, ?_⟩
      · exact fun clash => clear (before.2 clash)
      · exact fun clash => clear (field clash)
      · exact fun clash => field (ih.2 (after.2 clash))
  | field before chars colon between reads after later ih ih' =>
      have before := before.dropNul
      have colon := colon.dropNul
      have between := between.dropNul
      have after := after.dropNul
      rw [dropNul_cons (by decide), clash_cons (by decide)] at before colon after
      have key : Clash false _ → Clash false _ := fun clash => before.2 (chars.dropNul.2 clash)
      have field : Clash false _ → Clash false _ := fun clash => key (colon.2 (between.2 clash))
      have next : Clash false _ → Clash false _ := fun clash => field (ih.2 (after.2 clash))
      refine ⟨fun clear => .field before.1 (chars.dropNul_string ?_) colon.1 between.1
        (ih.1 ?_) after.1 (ih'.1 ?_), ?_⟩
      · exact fun clash => clear (before.2 clash)
      · exact fun clash => clear (field clash)
      · exact fun clash => clear (next clash)
      · exact fun clash => next (ih'.2 clash)

/-- **A text that does not clash denotes its value without U+0000 after the removal.** -/
theorem Denotes.dropNul {spaced : Bool} {text : List Char} {x : Json}
    (denotes : Denotes spaced text x) (clear : ¬ Clash false text) :
    Denotes spaced (dropNul text) x.strip := by
  obtain ⟨s, rest, before, reads, after⟩ := denotes
  have before := before.dropNul
  exact ⟨_, _, before.1, reads.dropNul.1 fun clash => clear (before.2 clash), after.dropNul.1⟩

end JsonText

end SpiceHarvester
