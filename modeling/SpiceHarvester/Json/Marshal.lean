import SpiceHarvester.Api.Keys
import SpiceHarvester.Json.Units

/-!
# `json.Marshal` and `marshalJsonForDb`

The text that `encoding/json` writes of a value, and what `marshalJsonForDb` of
`pkg/db` makes of it: PostgreSQL does not take the escape `\u0000` in a `jsonb`, and
every occurrence of it is removed from the text.

The text stored is a `jsonb` of the value without U+0000 exactly if no string of the
value contains the text `\u0000` itself, and in a raw message, exactly if no escaped
backslash is followed by `u0000` (`marshalJsonForDb_iff`). A text comment of these six
characters makes a text that is no JSON at all (`literal_escape_refused`).
-/

set_option autoImplicit false

namespace SpiceHarvester

open JsonText

/-! ## Writing a value -/

/-- A string with its quotes, as `encoding/json` writes it. -/
def marshalText (text : List Char) : List Char := '"' :: (text.flatMap escapeChar ++ ['"'])

mutual

/-- `json.Marshal`. The fields of an object come in the order they are visited. -/
def Json.marshal : Json → List Char
  | .null => ['n', 'u', 'l', 'l']
  | .bool true => ['t', 'r', 'u', 'e']
  | .bool false => ['f', 'a', 'l', 's', 'e']
  | .number literal => literal.toList
  | .string value => marshalText value.toList
  | .array [] => ['[', ']']
  | .array (item :: items) => '[' :: (item.marshal ++ marshalItems items)
  | .object [] => ['{', '}']
  | .object ((key, field) :: fields) =>
      '{' :: (marshalText key.toList ++ ':' :: (field.marshal ++ marshalFields fields))

/-- The items behind the first one. -/
def marshalItems : List Json → List Char
  | [] => [']']
  | item :: items => ',' :: (item.marshal ++ marshalItems items)

def marshalFields : List (String × Json) → List Char
  | [] => ['}']
  | (key, field) :: fields =>
      ',' :: (marshalText key.toList ++ ':' :: (field.marshal ++ marshalFields fields))

end

/-- `marshalJsonForDb`. -/
def Json.marshalJsonForDb (x : Json) : List Char := dropNul x.marshal

mutual

/-- `json.Marshal` accepts the value: every number is one. -/
def Json.Encodable : Json → Prop
  | .number literal => IsNumber literal.toList
  | .array items => EncodableItems items
  | .object fields => EncodableFields fields
  | _ => True

def EncodableItems : List Json → Prop
  | [] => True
  | item :: items => item.Encodable ∧ EncodableItems items

def EncodableFields : List (String × Json) → Prop
  | [] => True
  | (_, field) :: fields => field.Encodable ∧ EncodableFields fields

end

/-- The text contains the six characters `\u0000`. -/
def MentionsNul (text : List Char) : Prop := '\\' :: zeros <:+: text

mutual

/-- A string or a key of the value contains the six characters `\u0000`. -/
def Json.Mentions : Json → Prop
  | .string value => MentionsNul value.toList
  | .array items => MentionsItems items
  | .object fields => MentionsFields fields
  | _ => False

def MentionsItems : List Json → Prop
  | [] => False
  | item :: items => item.Mentions ∨ MentionsItems items

def MentionsFields : List (String × Json) → Prop
  | [] => False
  | (key, field) :: fields => MentionsNul key.toList ∨ field.Mentions ∨ MentionsFields fields

end

/-- PostgreSQL takes the text as a `jsonb` of the value: the text denotes it, and no
escape in it denotes U+0000. -/
structure Jsonb (text : List Char) (value : Json) : Prop where
  denotes : Denotes true text value
  nulFree : value.strip = value

/-! ## Characters of a string -/

theorem hexDigit_digitChar {value : ℕ} (small : value < 16) :
    hexDigit (Nat.digitChar value) = some value := by
  have all : ∀ value ∈ List.range 16, hexDigit (Nat.digitChar value) = some value := by decide
  exact all value (List.mem_range.mpr small)

/-- The four digits of a code. -/
theorem hexValue_digits {value : ℕ} (small : value < 16 ^ 4) :
    hexValue ((List.range 4).reverse.map fun place =>
      Nat.digitChar (value / 16 ^ place % 16)) = some value := by
  have digit := fun n : ℕ => hexDigit_digitChar (Nat.mod_lt n (by decide : 0 < 16))
  have four : (List.range 4).reverse = [3, 2, 1, 0] := rfl
  unfold hexValue
  rw [four]
  simp only [List.map_cons, List.map_nil, List.foldlM_cons, List.foldlM_nil, digit, Option.map_some,
    Option.bind_eq_bind, Option.bind_some, Option.pure_def, Option.some.injEq]
  omega

/-- How `encoding/json` writes a character: as itself, as a short escape, or as a code. -/
theorem escapeChar_cases (c : Char) :
    (escapeChar c = [c] ∧ 32 ≤ c.toNat ∧ Inert c) ∨
      (∃ letter, escapeChar c = ['\\', letter] ∧ (letter, c) ∈ shortEscapes) ∨
      ∃ digits, escapeChar c = '\\' :: 'u' :: digits ∧ digits.length = 4 ∧
        hexValue digits = some c.toNat := by
  have ofNat : ∀ n, c.toNat = n → c = Char.ofNat n := fun n same => by
    rw [← Char.ofNat_toNat c, same]
  unfold escapeChar
  split
  · rename_i special
    refine .inr (.inl ⟨c, rfl, ?_⟩)
    rcases special with rfl | rfl <;> decide
  rename_i special
  split
  · rename_i same
    exact .inr (.inl ⟨'b', rfl, by rw [ofNat 8 same]; decide⟩)
  split
  · rename_i same
    exact .inr (.inl ⟨'f', rfl, by rw [ofNat 12 same]; decide⟩)
  split
  · rename_i same
    exact .inr (.inl ⟨'n', rfl, by rw [same]; decide⟩)
  split
  · rename_i same
    exact .inr (.inl ⟨'r', rfl, by rw [same]; decide⟩)
  split
  · rename_i same
    exact .inr (.inl ⟨'t', rfl, by rw [same]; decide⟩)
  split
  · rename_i control
    refine .inr (.inr ⟨_, rfl, rfl, ?_⟩)
    have digits := hexValue_digits (show c.toNat < 16 ^ 4 by omega)
    have high : c.toNat / 16 ^ 3 % 16 = 0 ∧ c.toNat / 16 ^ 2 % 16 = 0 ∧
        c.toNat / 16 ^ 1 % 16 = c.toNat / 16 := by omega
    change hexValue [Nat.digitChar (c.toNat / 16 ^ 3 % 16), Nat.digitChar (c.toNat / 16 ^ 2 % 16),
      Nat.digitChar (c.toNat / 16 ^ 1 % 16), Nat.digitChar (c.toNat / 16 ^ 0 % 16)] = _ at digits
    rw [high.1, high.2.1, high.2.2, Nat.pow_zero, Nat.div_one] at digits
    exact digits
  · rename_i printable
    unfold escapeHTML
    split
    · rename_i html
      refine .inr (.inr ⟨_, rfl, rfl, hexValue_digits ?_⟩)
      rcases html with rfl | rfl | rfl | same | same
      · decide
      · decide
      · decide
      · omega
      · omega
    · exact .inl ⟨rfl, Nat.not_lt.mp printable, fun same => special (.inr same),
        fun same => special (.inl same)⟩

/-- What is written of a character is read as that character. -/
theorem chars_escapeChar {c : Char} {s text rest : List Char} (later : Chars s text rest) :
    Chars (escapeChar c ++ s) (c :: text) rest := by
  rcases escapeChar_cases c with ⟨same, printable, inert⟩ | ⟨letter, same, escape⟩ |
    ⟨digits, same, four, value⟩
  · rw [same]
    exact .plain printable inert.2 inert.1 later
  · rw [same]
    exact .short escape later
  · rw [same]
    exact .code four value later

theorem chars_marshalText (text s : List Char) :
    Chars (text.flatMap escapeChar ++ '"' :: s) text s := by
  induction text with
  | nil => exact .close
  | cons c rest ih =>
      rw [List.flatMap_cons, List.append_assoc]
      exact chars_escapeChar ih

/-! ## Values -/

theorem marshalText_append (text s : List Char) :
    marshalText text ++ s = '"' :: (text.flatMap escapeChar ++ '"' :: s) := by
  rw [marshalText, List.cons_append, List.append_assoc, List.singleton_append]

theorem ends_cons {c : Char} {rest : List Char} (sign : c = ',' ∨ c = ']' ∨ c = '}') :
    Ends (c :: rest) := by
  rintro d found
  cases found
  rcases sign with rfl | rfl | rfl <;> decide

mutual

/-- What is written of a value is read as that value. -/
theorem Json.reads_marshal : ∀ x : Json, x.Encodable → ∀ rest, Ends rest →
    Reads false (.value x) (x.marshal ++ rest) rest
  | .null, _, _, _ => .nullLiteral
  | .bool true, _, _, _ => .trueLiteral
  | .bool false, _, _, _ => .falseLiteral
  | .number _, number, _, ends => .number number ends
  | .string value, _, rest, _ => by
      rw [Json.marshal, marshalText_append]
      exact .string (chars_marshalText value.toList rest)
  | .array [], _, _, _ => .noItems .nil
  | .array (item :: items), encodable, rest, _ => by
      rw [Json.marshal, List.cons_append, List.append_assoc]
      exact .array (reads_marshalItems items encodable.2 (item.reads_marshal encodable.1) rest)
  | .object [], _, _, _ => .noFields .nil
  | .object ((key, field) :: fields), encodable, rest, _ => by
      rw [Json.marshal, List.cons_append, List.append_assoc, marshalText_append, List.cons_append,
        List.append_assoc]
      exact .object (reads_marshalFields fields encodable.2 key (field.reads_marshal encodable.1) rest)

theorem reads_marshalItems : ∀ items : List Json, EncodableItems items → ∀ {item : Json}
    {s : List Char}, (∀ rest, Ends rest → Reads false (.value item) (s ++ rest) rest) → ∀ rest,
    Reads false (.items (item :: items)) (s ++ (marshalItems items ++ rest)) rest
  | [], _, _, _, first, _ => .lastItem .nil (first _ (ends_cons (by decide))) .nil
  | next :: items, encodable, _, _, first, rest => by
      rw [marshalItems, List.cons_append, List.append_assoc]
      exact .item .nil (first _ (ends_cons (by decide))) .nil
        (reads_marshalItems items encodable.2 (next.reads_marshal encodable.1) rest)

theorem reads_marshalFields : ∀ fields : List (String × Json), EncodableFields fields →
    ∀ (key : String) {field : Json} {s : List Char},
    (∀ rest, Ends rest → Reads false (.value field) (s ++ rest) rest) → ∀ rest,
    Reads false (.fields ((key, field) :: fields))
      ('"' :: (key.toList.flatMap escapeChar ++ '"' :: ':' :: (s ++ (marshalFields fields ++ rest))))
      rest
  | [], _, _, _, _, first, _ =>
      .lastField .nil (chars_marshalText _ _) .nil .nil (first _ (ends_cons (by decide))) .nil
  | (key', next) :: fields, encodable, _, _, _, first, rest => by
      rw [marshalFields, List.cons_append, List.append_assoc, marshalText_append, List.cons_append,
        List.append_assoc]
      exact .field .nil (chars_marshalText _ _) .nil .nil (first _ (ends_cons (by decide))) .nil
        (reads_marshalFields fields encodable.2 key' (next.reads_marshal encodable.1) rest)

end

/-- **`json.Marshal` writes a compact text of the value.** -/
theorem Json.denotes_marshal {x : Json} (encodable : x.Encodable) : Denotes false x.marshal x := by
  have reads := x.reads_marshal encodable [] (fun _ none => by cases none)
  rw [List.append_nil] at reads
  exact ⟨_, _, .nil, reads, .nil⟩

/-! ## Clashes -/

theorem clash_code {digits : List Char} {value : ℕ} (found : hexValue digits = some value)
    (s : List Char) : Clash false ('\\' :: 'u' :: (digits ++ s)) ↔ Clash false s := by
  rw [clash_escape, clash_append fun d member => (inert_of_hexValue found d member).1]
  exact or_iff_right fun same => absurd same.1 (by decide)

/-- Characters that are written as themselves are found as themselves. -/
theorem prefix_flatMap_escapeChar {plain : List Char} (itself : ∀ c ∈ plain, escapeChar c = [c] ∧ Inert c)
    (text s : List Char) : plain <+: text.flatMap escapeChar ++ '"' :: s ↔ plain <+: text := by
  induction plain generalizing text with
  | nil => exact iff_of_true (List.nil_prefix) (List.nil_prefix)
  | cons p plain ih =>
      obtain ⟨written, inert⟩ := itself p List.mem_cons_self
      have later : ∀ c ∈ plain, escapeChar c = [c] ∧ Inert c :=
        fun c member => itself c (List.mem_cons_of_mem _ member)
      cases text with
      | nil =>
          refine iff_of_false (fun found => ?_) (fun found => ?_)
          · exact inert.2 (List.cons_prefix_cons.mp found).1
          · cases List.prefix_nil.mp found
      | cons c text =>
          rw [List.flatMap_cons, List.append_assoc, List.cons_prefix_cons]
          by_cases same : p = c
          · rw [← same, written, List.singleton_append, List.cons_prefix_cons, ih later]
          · refine iff_of_false (fun found => ?_) fun both => same both.1
            rcases escapeChar_cases c with ⟨plain, _, _⟩ | ⟨letter, escaped, _⟩ |
              ⟨digits, escaped, _, _⟩
            · rw [plain, List.singleton_append, List.cons_prefix_cons] at found
              exact same found.1
            · rw [escaped, List.cons_append, List.cons_prefix_cons] at found
              exact inert.1 found.1
            · rw [escaped, List.cons_append, List.cons_prefix_cons] at found
              exact inert.1 found.1

theorem zeros_prefix_flatMap (text s : List Char) :
    zeros <+: text.flatMap escapeChar ++ '"' :: s ↔ zeros <+: text :=
  prefix_flatMap_escapeChar (by simp [zeros, escapeChar, escapeHTML, Inert]) text s

/-- What is written of a string clashes exactly if the string contains the text
`\u0000`. -/
theorem clash_flatMap (text s : List Char) :
    Clash false (text.flatMap escapeChar ++ '"' :: s) ↔ MentionsNul text ∨ Clash false s := by
  induction text with
  | nil =>
      have empty : ¬ MentionsNul [] := fun found => by cases List.infix_nil.mp found
      rw [List.flatMap_nil, List.nil_append, clash_cons (by decide), or_iff_right empty]
  | cons c text ih =>
      have apart : c ≠ '\\' → (MentionsNul (c :: text) ↔ MentionsNul text) := by
        intro other
        unfold MentionsNul
        rw [List.infix_cons_iff, List.cons_prefix_cons]
        exact or_iff_right fun found => other found.1.symm
      rw [List.flatMap_cons, List.append_assoc]
      rcases escapeChar_cases c with ⟨written, _, inert⟩ | ⟨letter, written, escape⟩ |
        ⟨digits, written, _, value⟩
      · rw [written, List.singleton_append, clash_cons inert.1, ih, apart inert.1]
      · rw [written, List.cons_append, List.singleton_append, clash_escape, ih,
          zeros_prefix_flatMap]
        have letters : ∀ pair ∈ shortEscapes, pair.1 = '\\' ↔ pair.2 = '\\' := by decide
        rw [letters _ escape]
        by_cases backslash : c = '\\'
        · subst backslash
          unfold MentionsNul
          rw [List.infix_cons_iff, List.cons_prefix_cons, or_assoc]
        · rw [apart backslash]
          exact or_iff_right fun found => backslash found.1
      · have other : c ≠ '\\' := by
          rintro rfl
          cases written
        rw [written, List.cons_append, List.cons_append, clash_code value, ih, apart other]

theorem clash_marshalText (text s : List Char) :
    Clash false (marshalText text ++ s) ↔ MentionsNul text ∨ Clash false s := by
  rw [marshalText_append, clash_cons (by decide), clash_flatMap]

mutual

/-- What is written of a value clashes exactly if a string of it contains the text
`\u0000`. -/
theorem Json.clash_marshal : ∀ x : Json, x.Encodable → ∀ s,
    Clash false (x.marshal ++ s) ↔ x.Mentions ∨ Clash false s
  | .null, _, _ => (clash_append (no_backslash rfl) _).trans (or_iff_right id).symm
  | .bool true, _, _ => (clash_append (no_backslash rfl) _).trans (or_iff_right id).symm
  | .bool false, _, _ => (clash_append (no_backslash rfl) _).trans (or_iff_right id).symm
  | .number _, number, _ =>
      (clash_append (fun c member => (inert_of_isNumber number c member).1) _).trans
        (or_iff_right id).symm
  | .string value, _, s => clash_marshalText value.toList s
  | .array [], _, _ => (clash_append (no_backslash rfl) _).trans (or_iff_right id).symm
  | .array (item :: items), encodable, s => by
      rw [Json.marshal, List.cons_append, clash_cons (by decide), List.append_assoc,
        item.clash_marshal encodable.1, clash_marshalItems items encodable.2, Json.Mentions,
        MentionsItems, or_assoc]
  | .object [], _, _ => (clash_append (no_backslash rfl) _).trans (or_iff_right id).symm
  | .object ((key, field) :: fields), encodable, s => by
      rw [Json.marshal, List.cons_append, clash_cons (by decide), List.append_assoc,
        clash_marshalText, List.cons_append, clash_cons (by decide), List.append_assoc,
        field.clash_marshal encodable.1, clash_marshalFields fields encodable.2, Json.Mentions,
        MentionsFields, or_assoc, or_assoc]

theorem clash_marshalItems : ∀ items : List Json, EncodableItems items → ∀ s,
    Clash false (marshalItems items ++ s) ↔ MentionsItems items ∨ Clash false s
  | [], _, _ => (clash_append (no_backslash rfl) _).trans (or_iff_right id).symm
  | item :: items, encodable, s => by
      rw [marshalItems, List.cons_append, clash_cons (by decide), List.append_assoc,
        item.clash_marshal encodable.1, clash_marshalItems items encodable.2, MentionsItems, or_assoc]

theorem clash_marshalFields : ∀ fields : List (String × Json), EncodableFields fields → ∀ s,
    Clash false (marshalFields fields ++ s) ↔ MentionsFields fields ∨ Clash false s
  | [], _, _ => (clash_append (no_backslash rfl) _).trans (or_iff_right id).symm
  | (key, field) :: fields, encodable, s => by
      rw [marshalFields, List.cons_append, clash_cons (by decide), List.append_assoc,
        clash_marshalText, List.cons_append, clash_cons (by decide), List.append_assoc,
        field.clash_marshal encodable.1, clash_marshalFields fields encodable.2, MentionsFields,
        or_assoc, or_assoc]

end

/-! ## What is stored -/

theorem stripString_idem (text : String) : stripString (stripString text) = stripString text := by
  unfold stripString
  rw [String.toList_ofList, List.filter_filter]
  simp

mutual

theorem Json.strip_idem : ∀ x : Json, x.strip.strip = x.strip
  | .null => rfl
  | .bool _ => rfl
  | .number _ => rfl
  | .string value => by rw [Json.strip, Json.strip, stripString_idem]
  | .array items => by rw [Json.strip, Json.strip, stripItems_idem]
  | .object fields => by rw [Json.strip, Json.strip, stripFields_idem]

theorem stripItems_idem : ∀ items : List Json, stripItems (stripItems items) = stripItems items
  | [] => rfl
  | item :: items => by rw [stripItems, stripItems, item.strip_idem, stripItems_idem items]

theorem stripFields_idem : ∀ fields : List (String × Json),
    stripFields (stripFields fields) = stripFields fields
  | [] => rfl
  | (key, field) :: fields => by
      rw [stripFields, stripFields, stripString_idem, field.strip_idem, stripFields_idem fields]

end

namespace JsonText

theorem Space.spaced {s rest : List Char} (space : Space false s rest) : Space true s rest := by
  rw [space.eq_of_compact]
  exact .nil

theorem Reads.spaced {part : Part} {s rest : List Char} (reads : Reads false part s rest) :
    Reads true part s rest := by
  induction reads with
  | nullLiteral => exact .nullLiteral
  | trueLiteral => exact .trueLiteral
  | falseLiteral => exact .falseLiteral
  | number number ends => exact .number number ends
  | string chars => exact .string chars
  | noItems space => exact .noItems space.spaced
  | array _ ih => exact .array ih
  | lastItem before _ after ih => exact .lastItem before.spaced ih after.spaced
  | item before _ after _ ih ih' => exact .item before.spaced ih after.spaced ih'
  | noFields space => exact .noFields space.spaced
  | object _ ih => exact .object ih
  | lastField before chars colon between _ after ih =>
      exact .lastField before.spaced chars colon.spaced between.spaced ih after.spaced
  | field before chars colon between _ after _ ih ih' =>
      exact .field before.spaced chars colon.spaced between.spaced ih after.spaced ih'

theorem Denotes.spaced {text : List Char} {x : Json} (denotes : Denotes false text x) :
    Denotes true text x := by
  obtain ⟨s, rest, before, reads, after⟩ := denotes
  exact ⟨s, rest, before.spaced, reads.spaced, after.spaced⟩

end JsonText

/-- A compact text becomes a `jsonb` of its value without U+0000 exactly if it does not
clash. -/
theorem jsonb_dropNul_iff {text : List Char} {x : Json} (denotes : Denotes false text x) :
    Jsonb (dropNul text) x.strip ↔ ¬ Clash false text :=
  ⟨fun stored => denotes.clear_of_dropNul stored.denotes,
    fun clear => ⟨(denotes.dropNul clear).spaced, x.strip_idem⟩⟩

/-- **What `marshalJsonForDb` returns is a `jsonb` of the value without U+0000 exactly if
no string of the value contains the text `\u0000`.** The text of a value with raw
messages in it is compact too; there it is exactly if no escaped backslash is followed
by `u0000`. -/
theorem marshalJsonForDb_iff (x : Json) :
    (x.Encodable → (Jsonb x.marshalJsonForDb x.strip ↔ ¬ x.Mentions)) ∧
      ∀ text, Denotes false text x → (Jsonb (dropNul text) x.strip ↔ ¬ Clash false text) := by
  refine ⟨fun encodable => ?_, fun text => jsonb_dropNul_iff⟩
  have clash := x.clash_marshal encodable []
  rw [List.append_nil] at clash
  unfold Json.marshalJsonForDb
  rw [jsonb_dropNul_iff (Json.denotes_marshal encodable), clash]
  exact not_congr (or_iff_left id)

/-! ## A text comment of six characters -/

/-- The body of a text comment. -/
def textComment (text : String) : Json := .object [("Text", .string text)]

theorem textComment_encodable (text : String) : (textComment text).Encodable := ⟨trivial, trivial⟩

theorem textComment_mentions (text : String) :
    (textComment text).Mentions ↔ MentionsNul text.toList := by
  have key : ¬ MentionsNul "Text".toList := by
    unfold MentionsNul
    decide
  rw [textComment, Json.Mentions, MentionsFields, MentionsFields, or_false, Json.Mentions]
  exact or_iff_right key

/-- A comment with a NUL character and a backslash loses the NUL. -/
theorem nul_comment_stored :
    (textComment "a\x00\\b").marshalJsonForDb = "\x7b\"Text\":\"a\\\\b\"\x7d".toList ∧
      Jsonb (textComment "a\x00\\b").marshalJsonForDb (textComment "a\x00\\b").strip := by
  refine ⟨by decide +kernel,
    ((marshalJsonForDb_iff _).1 (textComment_encodable _)).mpr fun mentions => ?_⟩
  have mentions := (textComment_mentions _).mp mentions
  unfold MentionsNul at mentions
  exact absurd mentions (by decide +kernel)

/-- A comment that is the text `\u0000` itself is written as `\\u0000`, and a single
backslash is left of it, which escapes the closing quote. PostgreSQL does not take the
text, whatever value it were to stand for. -/
theorem literal_escape_refused :
    (textComment "\\u0000").Encodable ∧
      (textComment "\\u0000").marshalJsonForDb = "\x7b\"Text\":\"\\\"\x7d".toList ∧
      ∀ value, ¬ Jsonb (textComment "\\u0000").marshalJsonForDb value := by
  have written : (textComment "\\u0000").marshalJsonForDb =
      "\x7b\"Text\":\"\\\"\x7d".toList := by decide +kernel
  refine ⟨textComment_encodable _, written, fun value stored => ?_⟩
  obtain ⟨s, rest, before, reads, after⟩ := stored.denotes
  obtain ⟨n₂, found₂, _⟩ := after.units_le (n := 0) rfl
  obtain ⟨n₁, found₁, _⟩ := reads.units_le found₂
  obtain ⟨n, found, _⟩ := before.units_le found₁
  have unended : units .outside "\x7b\"Text\":\"\\\"\x7d".toList = none := by decide +kernel
  rw [written, unended] at found
  cases found

end SpiceHarvester
