import SpiceHarvester.Core
import Mathlib.Data.List.Basic

/-!
# Texts of JSON values

The grammar of JSON as a relation between a text, the value it denotes and what is
left of the text behind it (`Reads`). A string denotes the characters of its escapes;
an escape of half a surrogate pair denotes none. Whitespace between tokens is allowed
or not, by a parameter: a compact text has none.

Every text that is read starts out of a string and without a backslash there. The
lemmas at the end say which characters a token may have, for those who go through a
text character by character.
-/

set_option autoImplicit false

namespace SpiceHarvester

namespace JsonText

/-! ## Tokens -/

/-- The value of a hexadecimal digit. -/
def hexDigit (c : Char) : Option ℕ :=
  if c.isDigit then some (c.toNat - 48)
  else if 97 ≤ c.toNat ∧ c.toNat ≤ 102 then some (c.toNat - 87)
  else if 65 ≤ c.toNat ∧ c.toNat ≤ 70 then some (c.toNat - 55)
  else none

/-- The value of hexadecimal digits, the highest first. -/
def hexValue (digits : List Char) : Option ℕ :=
  digits.foldlM (fun value digit => (hexDigit digit).map fun next => value * 16 + next) 0

/-- The escapes of one letter, and the characters they denote. -/
def shortEscapes : List (Char × Char) :=
  [('"', '"'), ('\\', '\\'), ('/', '/'), ('b', Char.ofNat 8), ('f', Char.ofNat 12), ('n', '\n'),
    ('r', '\r'), ('t', '\t')]

def IsHigh (unit : ℕ) : Prop := 0xD800 ≤ unit ∧ unit < 0xDC00

def IsLow (unit : ℕ) : Prop := 0xDC00 ≤ unit ∧ unit < 0xE000

/-- The rest of a string behind its opening quote: the text, the characters denoted and
what is left behind the closing quote. -/
inductive Chars : List Char → List Char → List Char → Prop where
  | close {rest : List Char} : Chars ('"' :: rest) [] rest
  | plain {c : Char} {s text rest : List Char} (printable : 32 ≤ c.toNat) (quote : c ≠ '"')
      (backslash : c ≠ '\\') (later : Chars s text rest) : Chars (c :: s) (c :: text) rest
  | short {letter c : Char} {s text rest : List Char} (escape : (letter, c) ∈ shortEscapes)
      (later : Chars s text rest) : Chars ('\\' :: letter :: s) (c :: text) rest
  | code {digits : List Char} {c : Char} {s text rest : List Char} (four : digits.length = 4)
      (value : hexValue digits = some c.toNat) (later : Chars s text rest) :
      Chars ('\\' :: 'u' :: (digits ++ s)) (c :: text) rest
  | pair {digits digits' : List Char} {high low : ℕ} {c : Char} {s text rest : List Char}
      (four : digits.length = 4) (four' : digits'.length = 4)
      (value : hexValue digits = some high) (value' : hexValue digits' = some low)
      (isHigh : IsHigh high) (isLow : IsLow low)
      (both : c.toNat = 0x10000 + (high - 0xD800) * 0x400 + (low - 0xDC00))
      (later : Chars s text rest) :
      Chars ('\\' :: 'u' :: (digits ++ '\\' :: 'u' :: (digits' ++ s))) (c :: text) rest

/-- At least one digit. -/
def IsDigits (text : List Char) : Prop := text ≠ [] ∧ ∀ c ∈ text, c.isDigit = true

/-- A number: a sign, digits without a leading zero, a fraction and an exponent. -/
def IsNumber (text : List Char) : Prop :=
  ∃ sign whole fraction exponent, text = sign ++ (whole ++ (fraction ++ exponent)) ∧
    (sign = [] ∨ sign = ['-']) ∧
    (IsDigits whole ∧ (whole.head? = some '0' → whole = ['0'])) ∧
    (fraction = [] ∨ ∃ digits, IsDigits digits ∧ fraction = '.' :: digits) ∧
    (exponent = [] ∨ ∃ e sign digits, (e = 'e' ∨ e = 'E') ∧
      (sign = [] ∨ sign = ['+'] ∨ sign = ['-']) ∧ IsDigits digits ∧
      exponent = e :: (sign ++ digits))

/-- Whitespace, which a compact text does not have. -/
inductive Space (spaced : Bool) : List Char → List Char → Prop where
  | nil {s : List Char} : Space spaced s s
  | cons {c : Char} {s rest : List Char} (allowed : spaced = true)
      (space : c = ' ' ∨ c = '\n' ∨ c = '\r' ∨ c = '\t') (later : Space spaced s rest) :
      Space spaced (c :: s) rest

/-- A number ends where another token or whitespace begins, or the text ends. -/
def Ends (rest : List Char) : Prop :=
  ∀ c ∈ rest.head?, c = ',' ∨ c = ']' ∨ c = '}' ∨ c = ' ' ∨ c = '\n' ∨ c = '\r' ∨ c = '\t'

/-! ## Values -/

/-- What a part of a text denotes: a value, the items of an array or the fields of an
object, at least one. -/
inductive Part where
  | value (value : Json)
  | items (items : List Json)
  | fields (fields : List (String × Json))

/-- The text in front of what is left denotes the part. -/
inductive Reads (spaced : Bool) : Part → List Char → List Char → Prop where
  | nullLiteral {rest : List Char} :
      Reads spaced (.value .null) ('n' :: 'u' :: 'l' :: 'l' :: rest) rest
  | trueLiteral {rest : List Char} :
      Reads spaced (.value (.bool true)) ('t' :: 'r' :: 'u' :: 'e' :: rest) rest
  | falseLiteral {rest : List Char} :
      Reads spaced (.value (.bool false)) ('f' :: 'a' :: 'l' :: 's' :: 'e' :: rest) rest
  | number {literal : String} {rest : List Char} (number : IsNumber literal.toList)
      (ends : Ends rest) :
      Reads spaced (.value (.number literal)) (literal.toList ++ rest) rest
  | string {value : String} {s rest : List Char} (chars : Chars s value.toList rest) :
      Reads spaced (.value (.string value)) ('"' :: s) rest
  | noItems {s rest : List Char} (space : Space spaced s (']' :: rest)) :
      Reads spaced (.value (.array [])) ('[' :: s) rest
  | array {items : List Json} {s rest : List Char} (reads : Reads spaced (.items items) s rest) :
      Reads spaced (.value (.array items)) ('[' :: s) rest
  | lastItem {item : Json} {s s₁ s₂ rest : List Char} (before : Space spaced s s₁)
      (reads : Reads spaced (.value item) s₁ s₂) (after : Space spaced s₂ (']' :: rest)) :
      Reads spaced (.items [item]) s rest
  | item {item : Json} {items : List Json} {s s₁ s₂ s₃ rest : List Char}
      (before : Space spaced s s₁) (reads : Reads spaced (.value item) s₁ s₂)
      (after : Space spaced s₂ (',' :: s₃)) (later : Reads spaced (.items items) s₃ rest) :
      Reads spaced (.items (item :: items)) s rest
  | noFields {s rest : List Char} (space : Space spaced s ('}' :: rest)) :
      Reads spaced (.value (.object [])) ('{' :: s) rest
  | object {fields : List (String × Json)} {s rest : List Char}
      (reads : Reads spaced (.fields fields) s rest) :
      Reads spaced (.value (.object fields)) ('{' :: s) rest
  | lastField {key : String} {field : Json} {s s₁ s₂ s₃ s₄ s₅ rest : List Char}
      (before : Space spaced s ('"' :: s₁)) (chars : Chars s₁ key.toList s₂)
      (colon : Space spaced s₂ (':' :: s₃)) (between : Space spaced s₃ s₄)
      (reads : Reads spaced (.value field) s₄ s₅) (after : Space spaced s₅ ('}' :: rest)) :
      Reads spaced (.fields [(key, field)]) s rest
  | field {key : String} {field : Json} {fields : List (String × Json)}
      {s s₁ s₂ s₃ s₄ s₅ s₆ rest : List Char} (before : Space spaced s ('"' :: s₁))
      (chars : Chars s₁ key.toList s₂) (colon : Space spaced s₂ (':' :: s₃))
      (between : Space spaced s₃ s₄) (reads : Reads spaced (.value field) s₄ s₅)
      (after : Space spaced s₅ (',' :: s₆)) (later : Reads spaced (.fields fields) s₆ rest) :
      Reads spaced (.fields ((key, field) :: fields)) s rest

/-- The text is JSON and denotes the value. -/
def Denotes (spaced : Bool) (text : List Char) (value : Json) : Prop :=
  ∃ s rest, Space spaced text s ∧ Reads spaced (.value value) s rest ∧ Space spaced rest []

/-! ## Which characters a token has -/

/-- A character that neither opens an escape nor ends a string. -/
def Inert (c : Char) : Prop := c ≠ '\\' ∧ c ≠ '"'

theorem no_backslash {text : List Char} (all : (text.all fun c => c != '\\') = true) :
    ∀ c ∈ text, c ≠ '\\' :=
  fun c member => bne_iff_ne.mp (List.all_eq_true.mp all c member)

instance (c : Char) : Decidable (Inert c) := inferInstanceAs (Decidable (_ ∧ _))

theorem inert_of_isDigit {c : Char} (digit : c.isDigit = true) : Inert c := by
  constructor <;> rintro rfl <;> cases digit

theorem inert_of_hexDigit {c : Char} (digit : (hexDigit c).isSome) : Inert c := by
  constructor <;> rintro rfl <;> cases digit

theorem hexDigit_zero {c : Char} (digit : hexDigit c = some 0) : c = '0' := by
  unfold hexDigit at digit
  by_cases isDigit : c.isDigit = true
  · rw [if_pos isDigit, Option.some.injEq] at digit
    rw [Char.isDigit, Bool.and_eq_true, decide_eq_true_eq, decide_eq_true_eq] at isDigit
    have low : 48 ≤ c.toNat := isDigit.1
    have zero : c.toNat = 48 := by omega
    rw [← Char.ofNat_toNat c, zero]
  · rw [if_neg isDigit] at digit
    split at digit
    · rw [Option.some.injEq] at digit
      omega
    · split at digit
      · rw [Option.some.injEq] at digit
        omega
      · cases digit

/-- What the digits after the ones read so far are. -/
theorem hexDigits_of_foldlM {digits : List Char} {before value : ℕ}
    (folded : digits.foldlM (fun value digit =>
      (hexDigit digit).map fun next => value * 16 + next) before = some value) :
    (∀ c ∈ digits, (hexDigit c).isSome) ∧
      (value = 0 → before = 0 ∧ digits = List.replicate digits.length '0') := by
  induction digits generalizing before with
  | nil =>
      rw [List.foldlM_nil, Option.pure_def, Option.some.injEq] at folded
      exact ⟨fun c member => (by cases member), fun zero => ⟨folded.trans zero, rfl⟩⟩
  | cons digit rest ih =>
      rw [List.foldlM_cons] at folded
      obtain ⟨middle, first, folded⟩ := Option.bind_eq_some_iff.mp folded
      obtain ⟨next, found, rfl⟩ := Option.map_eq_some_iff.mp first
      obtain ⟨digits, zeros⟩ := ih folded
      refine ⟨?_, fun zero => ?_⟩
      · intro c member
        rcases List.mem_cons.mp member with rfl | member
        · exact Option.isSome_of_mem found
        · exact digits c member
      · obtain ⟨both, same⟩ := zeros zero
        have none : next = 0 := by omega
        rw [none] at found
        refine ⟨by omega, ?_⟩
        rw [hexDigit_zero found, List.length_cons, List.replicate_succ, ← same]

theorem hexDigits_of_hexValue {digits : List Char} {value : ℕ}
    (found : hexValue digits = some value) : ∀ c ∈ digits, (hexDigit c).isSome :=
  (hexDigits_of_foldlM found).1

theorem inert_of_hexValue {digits : List Char} {value : ℕ} (found : hexValue digits = some value) :
    ∀ c ∈ digits, Inert c :=
  fun c member => inert_of_hexDigit (hexDigits_of_hexValue found c member)

theorem zeros_of_hexValue {digits : List Char} (found : hexValue digits = some 0) :
    digits = List.replicate digits.length '0' :=
  ((hexDigits_of_foldlM found).2 rfl).2

theorem inert_of_isNumber {text : List Char} (number : IsNumber text) : ∀ c ∈ text, Inert c := by
  obtain ⟨sign, whole, fraction, exponent, rfl, sign', ⟨whole', _⟩, fraction', exponent'⟩ := number
  have digits : ∀ {text : List Char}, IsDigits text → ∀ c ∈ text, Inert c :=
    fun all c member => inert_of_isDigit (all.2 c member)
  intro c member
  simp only [List.mem_append] at member
  rcases member with member | member | member | member
  · rcases sign' with rfl | rfl
    · cases member
    · rw [List.mem_singleton.mp member]
      exact ⟨by decide, by decide⟩
  · exact digits whole' c member
  · rcases fraction' with rfl | ⟨text, all, rfl⟩
    · cases member
    · rcases List.mem_cons.mp member with rfl | member
      · exact ⟨by decide, by decide⟩
      · exact digits all c member
  · rcases exponent' with rfl | ⟨e, sign, text, letter, sign', all, rfl⟩
    · cases member
    · rcases List.mem_cons.mp member with rfl | member
      · rcases letter with rfl | rfl <;> exact ⟨by decide, by decide⟩
      · rcases List.mem_append.mp member with member | member
        · rcases sign' with rfl | rfl | rfl
          · cases member
          all_goals
            rw [List.mem_singleton.mp member]
            exact ⟨by decide, by decide⟩
        · exact digits all c member

theorem inert_of_space {c : Char} (space : c = ' ' ∨ c = '\n' ∨ c = '\r' ∨ c = '\t') :
    Inert c := by
  rcases space with rfl | rfl | rfl | rfl <;> exact ⟨by decide, by decide⟩

end JsonText

end SpiceHarvester
