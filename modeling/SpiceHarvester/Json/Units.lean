import SpiceHarvester.Json.Strip

/-!
# Counting the units of a text

A clash is not harmless by accident: a compact text that clashes with the removal of
`\u0000` does not denote its value without U+0000 afterwards, in any reading
(`Denotes.clear_of_dropNul`).

The proof counts. A text is gone through with a mode: outside of strings, inside, or in
an escape. Its units (`units`) are the characters outside of strings, and inside of
them the characters and escapes; a surrogate pair is one unit. A value has a least
number of units (`Json.size`), which every text of it has (`Reads.units_le`). A clash
leaves out the five characters behind an escaped backslash, and the backslash that is
left over opens an escape: whoever reads on from there gets at most five units more out
of the next escape (`Mode.debt`), and so one unit too few in the end.
-/

set_option autoImplicit false

namespace SpiceHarvester

/-! ## The units of a value -/

mutual

/-- The least number of units of a text of the value. -/
def Json.size : Json → ℕ
  | .null => 4
  | .bool true => 4
  | .bool false => 5
  | .number literal => literal.toList.length
  | .string value => value.toList.length + 2
  | .array items => 1 + max 1 (sizeItems items)
  | .object fields => 1 + max 1 (sizeFields fields)

/-- The units of each item and of the sign behind it. -/
def sizeItems : List Json → ℕ
  | [] => 0
  | item :: items => item.size + 1 + sizeItems items

def sizeFields : List (String × Json) → ℕ
  | [] => 0
  | (key, field) :: fields => key.toList.length + 2 + 1 + field.size + 1 + sizeFields fields

end

namespace JsonText

def Part.size : Part → ℕ
  | .value x => x.size
  | .items xs => sizeItems xs
  | .fields entries => sizeFields entries

/-! ## The units of a text -/

/-- Where in a text one is: outside of strings, inside of one, behind the backslash of
an escape, or behind some of its hexadecimal digits. -/
inductive Mode where
  | outside
  | inside
  | escape
  | hex (digits : List Char)

instance (unit : ℕ) : Decidable (IsLow unit) := inferInstanceAs (Decidable (_ ∧ _))

/-- The second half of a surrogate pair does not count. -/
def weight (digits : List Char) : ℕ :=
  if (hexValue digits).any fun unit => decide (IsLow unit) then 0 else 1

/-- The units of a text read on from a mode. There are none when it ends inside a
string, or when a backslash stands where none may. -/
def units : Mode → List Char → Option ℕ
  | .outside, [] => some 0
  | .outside, c :: s =>
      if c = '\\' then none
      else (units (if c = '"' then .inside else .outside) s).map (· + 1)
  | .inside, c :: s =>
      if c = '\\' then units .escape s
      else (units (if c = '"' then .outside else .inside) s).map (· + 1)
  | .escape, c :: s =>
      if c = 'u' then units (.hex []) s
      else if c ∈ shortEscapes.map Prod.fst then (units .inside s).map (· + 1)
      else none
  | .hex digits, c :: s =>
      if (hexDigit c).isNone then none
      else if digits.length = 3 then (units .inside s).map (· + weight (digits ++ [c]))
      else units (.hex (digits ++ [c])) s
  | _, [] => none

section Units

variable {c : Char} {s rest text : List Char} {n : ℕ}

theorem units_outside (inert : Inert c) :
    units .outside (c :: s) = (units .outside s).map (· + 1) := by
  rw [units, if_neg inert.1, if_neg inert.2]

theorem units_outside_append (inert : ∀ c ∈ text, Inert c) :
    units .outside (text ++ s) = (units .outside s).map (· + text.length) := by
  induction text with
  | nil => exact Option.map_id'.symm
  | cons c rest ih =>
      rw [List.cons_append, units_outside (inert c List.mem_cons_self),
        ih fun c member => inert c (List.mem_cons_of_mem _ member), Option.map_map]
      rfl

theorem units_inside_append (inert : ∀ c ∈ text, Inert c) :
    units .inside (text ++ s) = (units .inside s).map (· + text.length) := by
  induction text with
  | nil => exact Option.map_id'.symm
  | cons c rest ih =>
      have first := inert c List.mem_cons_self
      rw [List.cons_append, units, if_neg first.1, if_neg first.2,
        ih fun c member => inert c (List.mem_cons_of_mem _ member), Option.map_map]
      rfl

/-- Four hexadecimal digits end an escape. -/
theorem units_hex {digits : List Char} {value : ℕ} (four : digits.length = 4)
    (found : hexValue digits = some value) :
    units (.hex []) (digits ++ s) = (units .inside s).map (· + weight digits) := by
  match digits, four with
  | [a, b, c, d], _ =>
      have digit : ∀ e ∈ [a, b, c, d], (hexDigit e).isNone = false := fun e member => by
        rw [← Option.not_isSome, hexDigits_of_hexValue found e member]
        rfl
      simp [units, digit a (by simp), digit b (by simp), digit c (by simp), digit d (by simp)]

/-- A code, read as an escape and read as characters. -/
theorem units_code {digits : List Char} {value : ℕ} (four : digits.length = 4)
    (found : hexValue digits = some value) :
    units .escape ('u' :: (digits ++ s)) = (units .inside s).map (· + weight digits) ∧
      units .inside ('u' :: (digits ++ s)) = (units .inside s).map (· + 5) := by
  constructor
  · rw [units, if_pos rfl, units_hex four found]
  · have inert := inert_of_hexValue found
    rw [← List.cons_append, units_inside_append, List.length_cons, four]
    intro c member
    rcases List.mem_cons.mp member with rfl | member
    · exact ⟨by decide, by decide⟩
    · exact inert c member

/-- The letter of a short escape ends it. -/
theorem units_short {letter : Char} (escape : (letter, c) ∈ shortEscapes) :
    units .escape (letter :: s) = (units .inside s).map (· + 1) := by
  have member : letter ∈ shortEscapes.map Prod.fst := List.mem_map_of_mem escape
  rw [units, if_neg (of_mem_shortEscapes escape).1, if_pos member]

theorem units_escape : units .inside ('\\' :: s) = units .escape s := by
  rw [units, if_pos rfl]

end Units

/-! ## A text has the units of its value -/

theorem weight_of_not_low {digits : List Char} {value : ℕ} (found : hexValue digits = some value)
    (other : ¬ IsLow value) : weight digits = 1 := by
  unfold weight
  rw [found, Option.any_some, decide_eq_false other]
  rfl

theorem weight_of_low {digits : List Char} {value : ℕ} (found : hexValue digits = some value)
    (low : IsLow value) : weight digits = 0 := by
  unfold weight
  rw [found, Option.any_some, decide_eq_true low]
  rfl

theorem weight_le_one (digits : List Char) : weight digits ≤ 1 := by
  unfold weight
  split <;> decide

/-- No character is half of a pair. -/
theorem not_low_toNat (c : Char) : ¬ IsLow c.toNat := by
  have valid : c.toNat < 0xD800 ∨ (0xDFFF < c.toNat ∧ c.toNat < 0x110000) := c.valid
  intro low
  have first := low.1
  have last := low.2
  omega

theorem not_low_of_high {unit : ℕ} (high : IsHigh unit) : ¬ IsLow unit := by
  intro low
  have first := low.1
  have last := high.2
  omega

/-- There is at least one item, or field. -/
theorem one_le_sizeItems {spaced : Bool} {items : List Json} {s rest : List Char}
    (reads : Reads spaced (.items items) s rest) : 1 ≤ sizeItems items := by
  cases reads <;> rw [sizeItems] <;> omega

theorem one_le_sizeFields {spaced : Bool} {fields : List (String × Json)} {s rest : List Char}
    (reads : Reads spaced (.fields fields) s rest) : 1 ≤ sizeFields fields := by
  cases reads <;> rw [sizeFields] <;> omega

section Units

variable {spaced : Bool} {s rest text : List Char} {n : ℕ}

theorem Space.units_le (space : Space spaced s rest) (left : units .outside rest = some n) :
    ∃ n', units .outside s = some n' ∧ n ≤ n' := by
  induction space with
  | nil => exact ⟨n, left, Nat.le_refl n⟩
  | cons _ space _ ih =>
      obtain ⟨n', found, le⟩ := ih left
      exact ⟨n' + 1, by rw [units_outside (inert_of_space space), found]; rfl, by omega⟩

theorem Chars.units_le (chars : Chars s text rest) (left : units .outside rest = some n) :
    ∃ n', units .inside s = some n' ∧ text.length + 1 + n ≤ n' := by
  induction chars with
  | close =>
      refine ⟨n + 1, ?_, by rw [List.length_nil]; omega⟩
      rw [units, if_neg (by decide), if_pos rfl, left]
      rfl
  | plain _ quote backslash _ ih =>
      obtain ⟨n', found, le⟩ := ih left
      refine ⟨n' + 1, ?_, by rw [List.length_cons]; omega⟩
      rw [units, if_neg backslash, if_neg quote, found]
      rfl
  | short escape _ ih =>
      obtain ⟨n', found, le⟩ := ih left
      refine ⟨n' + 1, ?_, by rw [List.length_cons]; omega⟩
      rw [units_escape, units_short escape, found]
      rfl
  | code four value _ ih =>
      obtain ⟨n', found, le⟩ := ih left
      refine ⟨n' + 1, ?_, by rw [List.length_cons]; omega⟩
      rw [units_escape, (units_code four value).1, weight_of_not_low value (not_low_toNat _), found]
      rfl
  | pair four four' value value' isHigh isLow _ _ ih =>
      obtain ⟨n', found, le⟩ := ih left
      refine ⟨n' + 1, ?_, by rw [List.length_cons]; omega⟩
      rw [units_escape, (units_code four value).1, units_escape, (units_code four' value').1,
        weight_of_not_low value (not_low_of_high isHigh), weight_of_low value' isLow, found]
      rfl

/-- What is read has at least the units of the value. -/
theorem Reads.units_le {part : Part} (reads : Reads spaced part s rest)
    (left : units .outside rest = some n) :
    ∃ n', units .outside s = some n' ∧ part.size + n ≤ n' := by
  have sign : ∀ {c : Char} {s : List Char} {n : ℕ}, Inert c → units .outside s = some n →
      units .outside (c :: s) = some (n + 1) := by
    intro c s n inert found
    rw [units_outside inert, found]
    rfl
  have quote : ∀ {s : List Char} {n : ℕ}, units .inside s = some n →
      units .outside ('"' :: s) = some (n + 1) := by
    intro s n found
    rw [units, if_neg (by decide), if_pos rfl, found]
    rfl
  induction reads generalizing n with
  | nullLiteral => exact ⟨n + 4, by simp [units, left], by simp [Part.size, Json.size]; omega⟩
  | trueLiteral => exact ⟨n + 4, by simp [units, left], by simp [Part.size, Json.size]; omega⟩
  | falseLiteral => exact ⟨n + 5, by simp [units, left], by simp [Part.size, Json.size]; omega⟩
  | number number _ =>
      rw [units_outside_append (inert_of_isNumber number), left, Part.size, Json.size]
      exact ⟨_, rfl, (Nat.add_comm _ n).le⟩
  | string chars =>
      obtain ⟨n', found, le⟩ := chars.units_le left
      refine ⟨n' + 1, quote found, ?_⟩
      rw [Part.size, Json.size]
      omega
  | noItems space =>
      obtain ⟨n', found, le⟩ := space.units_le (sign ⟨by decide, by decide⟩ left)
      refine ⟨n' + 1, sign ⟨by decide, by decide⟩ found, ?_⟩
      rw [Part.size, Json.size, sizeItems]
      omega
  | @array items _ _ reads ih =>
      obtain ⟨n', found, le⟩ := ih left
      refine ⟨n' + 1, sign ⟨by decide, by decide⟩ found, ?_⟩
      rw [Part.size] at le
      rw [Part.size, Json.size, Nat.max_eq_right (one_le_sizeItems reads)]
      omega
  | lastItem before reads after ih =>
      obtain ⟨n₂, found₂, le₂⟩ := after.units_le (sign ⟨by decide, by decide⟩ left)
      obtain ⟨n₁, found₁, le₁⟩ := ih found₂
      obtain ⟨n₀, found₀, le₀⟩ := before.units_le found₁
      refine ⟨n₀, found₀, ?_⟩
      rw [Part.size] at le₁
      rw [Part.size, sizeItems, sizeItems]
      omega
  | item before reads after later ih ih' =>
      obtain ⟨n₃, found₃, le₃⟩ := ih' left
      obtain ⟨n₂, found₂, le₂⟩ := after.units_le (sign ⟨by decide, by decide⟩ found₃)
      obtain ⟨n₁, found₁, le₁⟩ := ih found₂
      obtain ⟨n₀, found₀, le₀⟩ := before.units_le found₁
      refine ⟨n₀, found₀, ?_⟩
      rw [Part.size] at le₁
      rw [Part.size] at le₃
      rw [Part.size, sizeItems]
      omega
  | noFields space =>
      obtain ⟨n', found, le⟩ := space.units_le (sign ⟨by decide, by decide⟩ left)
      refine ⟨n' + 1, sign ⟨by decide, by decide⟩ found, ?_⟩
      rw [Part.size, Json.size, sizeFields]
      omega
  | object reads ih =>
      obtain ⟨n', found, le⟩ := ih left
      refine ⟨n' + 1, sign ⟨by decide, by decide⟩ found, ?_⟩
      rw [Part.size] at le
      rw [Part.size, Json.size, Nat.max_eq_right (one_le_sizeFields reads)]
      omega
  | lastField before chars colon between reads after ih =>
      obtain ⟨n₅, found₅, le₅⟩ := after.units_le (sign ⟨by decide, by decide⟩ left)
      obtain ⟨n₄, found₄, le₄⟩ := ih found₅
      obtain ⟨n₃, found₃, le₃⟩ := between.units_le found₄
      obtain ⟨n₂, found₂, le₂⟩ := colon.units_le (sign ⟨by decide, by decide⟩ found₃)
      obtain ⟨n₁, found₁, le₁⟩ := chars.units_le found₂
      obtain ⟨n₀, found₀, le₀⟩ := before.units_le (quote found₁)
      refine ⟨n₀, found₀, ?_⟩
      rw [Part.size] at le₄
      rw [Part.size, sizeFields, sizeFields]
      omega
  | field before chars colon between reads after later ih ih' =>
      obtain ⟨n₆, found₆, le₆⟩ := ih' left
      obtain ⟨n₅, found₅, le₅⟩ := after.units_le (sign ⟨by decide, by decide⟩ found₆)
      obtain ⟨n₄, found₄, le₄⟩ := ih found₅
      obtain ⟨n₃, found₃, le₃⟩ := between.units_le found₄
      obtain ⟨n₂, found₂, le₂⟩ := colon.units_le (sign ⟨by decide, by decide⟩ found₃)
      obtain ⟨n₁, found₁, le₁⟩ := chars.units_le found₂
      obtain ⟨n₀, found₀, le₀⟩ := before.units_le (quote found₁)
      refine ⟨n₀, found₀, ?_⟩
      rw [Part.size] at le₄
      rw [Part.size] at le₆
      rw [Part.size, sizeFields]
      omega

end Units

/-! ## A clash costs a unit -/

/-- What the units of an escape that a left-over backslash has opened may exceed those
of the text by. -/
def Mode.debt : Mode → ℕ
  | .escape => 5
  | _ => 0

/-- After the removal, the units of a text from any mode on are at most `u` more than
those of what is left behind, up to the debt. They are fewer if there is a clash in
between. -/
def Pays (s : List Char) (u : ℕ) (rest : List Char) : Prop :=
  ∀ mode n, units mode (dropNul s) = some n → ∃ mode' n', units mode' (dropNul rest) = some n' ∧
    n + mode'.debt ≤ u + n' + mode.debt ∧
    (Clash false s → Clash false rest ∨ n + mode'.debt < u + n' + mode.debt)

namespace Pays

variable {s s' rest : List Char} {u u' : ℕ}

theorem refl (s : List Char) : Pays s 0 s := fun mode n found =>
  ⟨mode, n, found, by omega, .inl⟩

theorem of_eq (pays : Pays s u rest) (same : u = u') : Pays s u' rest := same ▸ pays

theorem trans (first : Pays s u s') (second : Pays s' u' rest) : Pays s (u + u') rest := by
  intro mode n found
  obtain ⟨mode₁, n₁, found₁, le₁, clash₁⟩ := first mode n found
  obtain ⟨mode₂, n₂, found₂, le₂, clash₂⟩ := second mode₁ n₁ found₁
  refine ⟨mode₂, n₂, found₂, by omega, fun clash => ?_⟩
  rcases clash₁ clash with clash | lt
  · rcases clash₂ clash with clash | lt
    · exact .inl clash
    · exact .inr (by omega)
  · exact .inr (by omega)

/-- A character that is no backslash is one unit at most, in every mode. -/
theorem cons {c : Char} (other : c ≠ '\\') : Pays (c :: s) 1 s := by
  intro mode n found
  rw [dropNul_cons other] at found
  have stays : ∃ mode' n', units mode' (dropNul s) = some n' ∧ mode'.debt = 0 ∧ n ≤ n' + 1 := by
    cases mode with
    | outside =>
        rw [units, if_neg other, Option.map_eq_some_iff] at found
        obtain ⟨n', found, rfl⟩ := found
        refine ⟨_, n', found, ?_, Nat.le_refl _⟩
        split <;> rfl
    | inside =>
        rw [units, if_neg other, Option.map_eq_some_iff] at found
        obtain ⟨n', found, rfl⟩ := found
        refine ⟨_, n', found, ?_, Nat.le_refl _⟩
        split <;> rfl
    | escape =>
        rw [units] at found
        split at found
        · exact ⟨_, n, found, rfl, Nat.le_succ n⟩
        · split at found
          · rw [Option.map_eq_some_iff] at found
            obtain ⟨n', found, rfl⟩ := found
            exact ⟨_, n', found, rfl, Nat.le_refl _⟩
          · cases found
    | hex digits =>
        rw [units] at found
        split at found
        · cases found
        · split at found
          · rw [Option.map_eq_some_iff] at found
            obtain ⟨n', found, rfl⟩ := found
            exact ⟨_, n', found, rfl, Nat.add_le_add_left (weight_le_one _) n'⟩
          · exact ⟨_, n, found, rfl, Nat.le_succ n⟩
  obtain ⟨mode', n', found', none, le⟩ := stays
  refine ⟨mode', n', found', by omega, fun clash => .inl ((clash_cons other s).mp clash)⟩

theorem append {text : List Char} (other : ∀ c ∈ text, c ≠ '\\') : Pays (text ++ s) text.length s := by
  induction text with
  | nil => exact .refl s
  | cons c rest ih =>
      rw [List.length_cons, Nat.add_comm]
      exact (cons (other c List.mem_cons_self)).trans
        (ih fun c member => other c (List.mem_cons_of_mem _ member))

/-- A backslash may stand inside of a string and behind another one. -/
theorem backslash {s : List Char} {mode : Mode} {n : ℕ}
    (found : units mode ('\\' :: s) = some n) :
    (mode = .inside ∧ units .escape s = some n) ∨
      (mode = .escape ∧ ∃ n', units .inside s = some n' ∧ n = n' + 1) := by
  cases mode with
  | outside => cases found
  | inside => exact .inl ⟨rfl, found⟩
  | escape =>
      rw [units, if_neg (by decide), if_pos (by decide), Option.map_eq_some_iff] at found
      obtain ⟨n', found, rfl⟩ := found
      exact .inr ⟨rfl, n', found, rfl⟩
  | hex digits => cases found

/-- The removal leaves a short escape that does not clash. -/
theorem dropNul_short {letter c : Char} (escape : (letter, c) ∈ shortEscapes)
    (apart : ¬ (letter = '\\' ∧ zeros <+: s)) :
    dropNul ('\\' :: letter :: s) = '\\' :: letter :: dropNul s := by
  rw [dropNul_backslash (not_zeros_of_ne (of_mem_shortEscapes escape).1 s)]
  by_cases same : letter = '\\'
  · rw [same, dropNul_backslash fun clash => apart ⟨same, clash⟩]
  · rw [dropNul_cons same]

/-- A short escape that does not clash is one unit. Behind a left-over backslash, its
own backslash is escaped, and its letter is a character, ends the string or opens an
escape. -/
theorem short {letter c : Char} (escape : (letter, c) ∈ shortEscapes)
    (apart : ¬ (letter = '\\' ∧ zeros <+: s)) : Pays ('\\' :: letter :: s) 1 s := by
  intro mode n found
  have clash : Clash false ('\\' :: letter :: s) → Clash false s := fun clash =>
    ((clash_escape letter s).mp clash).resolve_left apart
  rw [dropNul_short escape apart] at found
  rcases backslash found with ⟨rfl, inner⟩ | ⟨rfl, n₁, inner, rfl⟩
  · rw [units_short escape, Option.map_eq_some_iff] at inner
    obtain ⟨n', left, rfl⟩ := inner
    exact ⟨.inside, n', left, by simp only [Mode.debt]; omega, fun held => .inl (clash held)⟩
  · by_cases same : letter = '\\'
    · rw [same, units_escape] at inner
      exact ⟨.escape, n₁, inner, by simp only [Mode.debt]; omega, fun held => .inl (clash held)⟩
    · rw [units, if_neg same, Option.map_eq_some_iff] at inner
      obtain ⟨n', left, rfl⟩ := inner
      refine ⟨_, n', left, ?_, fun held => .inl (clash held)⟩
      split <;> simp only [Mode.debt] <;> omega

/-- An escaped backslash that clashes stands for six units, and its removal leaves a
backslash. -/
theorem clash (s : List Char) : Pays ('\\' :: '\\' :: (zeros ++ s)) 6 s := by
  intro mode n found
  have left : dropNul ('\\' :: '\\' :: (zeros ++ s)) = '\\' :: dropNul s := by
    rw [dropNul_backslash (not_zeros_of_ne (by decide) _), dropNul_zeros]
  rw [left] at found
  rcases backslash found with ⟨rfl, inner⟩ | ⟨rfl, n', inner, rfl⟩
  · exact ⟨.escape, n, inner, by simp only [Mode.debt]; omega,
      fun _ => .inr (by simp only [Mode.debt]; omega)⟩
  · exact ⟨.inside, n', inner, by simp only [Mode.debt]; omega,
      fun _ => .inr (by simp only [Mode.debt]; omega)⟩

/-- The removal leaves a code of another character than U+0000. -/
theorem dropNul_code {digits : List Char} {value : ℕ} (four : digits.length = 4)
    (found : hexValue digits = some value) (other : value ≠ 0) :
    dropNul ('\\' :: 'u' :: (digits ++ s)) = '\\' :: 'u' :: (digits ++ dropNul s) := by
  rw [dropNul_backslash (not_zeros_of_hexValue four found other s), dropNul_cons (by decide),
    dropNul_append fun d member => (inert_of_hexValue found d member).1]

/-- A code that stays is what it weighs. Behind a left-over backslash it is six units. -/
theorem code {digits : List Char} {value : ℕ} (four : digits.length = 4)
    (found : hexValue digits = some value) (other : value ≠ 0) :
    Pays ('\\' :: 'u' :: (digits ++ s)) 1 s := by
  intro mode n read
  have clash : Clash false ('\\' :: 'u' :: (digits ++ s)) → Clash false s := by
    rw [clash_escape, clash_append fun d member => (inert_of_hexValue found d member).1]
    exact fun held => held.resolve_left fun same => absurd same.1 (by decide)
  rw [dropNul_code four found other] at read
  obtain ⟨escaped, inside⟩ := units_code (s := dropNul s) four found
  rcases backslash read with ⟨rfl, inner⟩ | ⟨rfl, n₁, inner, rfl⟩
  · rw [escaped, Option.map_eq_some_iff] at inner
    obtain ⟨n', left, rfl⟩ := inner
    have le := weight_le_one digits
    exact ⟨.inside, n', left, by simp only [Mode.debt]; omega, fun held => .inl (clash held)⟩
  · rw [inside, Option.map_eq_some_iff] at inner
    obtain ⟨n', left, rfl⟩ := inner
    exact ⟨.inside, n', left, by simp only [Mode.debt]; omega, fun held => .inl (clash held)⟩

/-- A pair is one unit. -/
theorem pair {digits digits' : List Char} {high low : ℕ} (four : digits.length = 4)
    (four' : digits'.length = 4) (value : hexValue digits = some high)
    (value' : hexValue digits' = some low) (isHigh : IsHigh high) (isLow : IsLow low) :
    Pays ('\\' :: 'u' :: (digits ++ '\\' :: 'u' :: (digits' ++ s))) 1 s := by
  intro mode n read
  have first : high ≠ 0 := fun zero => absurd (zero ▸ isHigh.1) (by decide)
  have second : low ≠ 0 := fun zero => absurd (zero ▸ isLow.1) (by decide)
  have clash : Clash false ('\\' :: 'u' :: (digits ++ '\\' :: 'u' :: (digits' ++ s))) →
      Clash false s := by
    rw [clash_escape, clash_append fun d member => (inert_of_hexValue value d member).1,
      clash_escape, clash_append fun d member => (inert_of_hexValue value' d member).1]
    intro held
    have held := held.resolve_left fun same => absurd same.1 (by decide)
    exact held.resolve_left fun same => absurd same.1 (by decide)
  rw [dropNul_code four value first, dropNul_code four' value' second] at read
  have low : units .inside ('\\' :: 'u' :: (digits' ++ dropNul s)) = units .inside (dropNul s) := by
    rw [units_escape, (units_code four' value').1, weight_of_low value' isLow]
    exact Option.map_id'
  obtain ⟨escaped, inside⟩ := units_code (s := '\\' :: 'u' :: (digits' ++ dropNul s)) four value
  rcases backslash read with ⟨rfl, inner⟩ | ⟨rfl, n₁, inner, rfl⟩
  · rw [escaped, low, Option.map_eq_some_iff] at inner
    obtain ⟨n', left, rfl⟩ := inner
    have le := weight_le_one digits
    exact ⟨.inside, n', left, by simp only [Mode.debt]; omega, fun held => .inl (clash held)⟩
  · rw [inside, low, Option.map_eq_some_iff] at inner
    obtain ⟨n', left, rfl⟩ := inner
    exact ⟨.inside, n', left, by simp only [Mode.debt]; omega, fun held => .inl (clash held)⟩

/-- The code of U+0000 is removed. -/
theorem nul (s : List Char) : Pays ('\\' :: (zeros ++ s)) 0 s := by
  intro mode n read
  rw [dropNul_zeros] at read
  refine ⟨mode, n, read, by omega, fun held => .inl ?_⟩
  have held := ((clash_escape 'u' _).mp held).resolve_left fun same => absurd same.1 (by decide)
  exact (clash_append (no_backslash rfl) s).mp held

end Pays

/-- The characters behind an escaped backslash that clashes. -/
theorem Chars.of_zeros {s text rest : List Char} (chars : Chars (zeros ++ s) text rest) :
    ∃ text', text = zeros ++ text' ∧ Chars s text' rest := by
  have inert : ∀ {c : Char} {s text rest : List Char}, c ≠ '\\' → c ≠ '"' →
      Chars (c :: s) text rest → ∃ text', text = c :: text' ∧ Chars s text' rest := by
    intro c s text rest backslash quote chars
    cases chars with
    | close => exact absurd rfl quote
    | plain _ _ _ later => exact ⟨_, rfl, later⟩
    | short _ _ => exact absurd rfl backslash
    | code _ _ _ => exact absurd rfl backslash
    | pair _ _ _ _ _ _ _ _ => exact absurd rfl backslash
  obtain ⟨_, rfl, chars₁⟩ := inert (by decide) (by decide) chars
  obtain ⟨_, rfl, chars₂⟩ := inert (by decide) (by decide) chars₁
  obtain ⟨_, rfl, chars₃⟩ := inert (by decide) (by decide) chars₂
  obtain ⟨_, rfl, chars₄⟩ := inert (by decide) (by decide) chars₃
  obtain ⟨text', rfl, chars₅⟩ := inert (by decide) (by decide) chars₄
  exact ⟨text', rfl, chars₅⟩

/-- What a string pays. The induction is on the length of its text: a clash takes the
characters behind the escaped backslash with it. -/
theorem Chars.pays {s text rest : List Char} (chars : Chars s text rest) :
    Pays s ((stripChars text).length + 1) rest := by
  induction length : s.length using Nat.strong_induction_on generalizing s text with
  | _ n ih =>
      subst length
      cases chars with
      | close => exact .cons (by decide)
      | @plain c s text _ printable quote backslash later =>
          rw [stripChars_cons (ne_nul_of_le (Nat.lt_of_lt_of_le (by decide) printable)),
            List.length_cons, Nat.add_comm _ 1]
          exact (Pays.cons backslash).trans (ih s.length (by simp only [List.length_cons]; omega) later rfl)
      | @short letter c s text _ escape later =>
          by_cases clash : letter = '\\' ∧ zeros <+: s
          · obtain ⟨rfl, s, rfl⟩ := clash
            obtain ⟨text, rfl, after⟩ := later.of_zeros
            have same : c = '\\' := by
              have all : ∀ pair ∈ shortEscapes, pair.1 = '\\' → pair.2 = '\\' := by decide
              exact all _ escape rfl
            have length : (stripChars (c :: (zeros ++ text))).length =
                6 + (stripChars text).length := by
              rw [same, ← List.cons_append, stripChars, List.filter_append, List.length_append]
              rfl
            rw [length, Nat.add_assoc]
            exact (Pays.clash s).trans (ih s.length (by simp only [List.length_cons, List.length_append]; omega) after rfl)
          · rw [stripChars_cons (of_mem_shortEscapes escape).2, List.length_cons, Nat.add_comm _ 1]
            exact (Pays.short escape clash).trans
              (ih s.length (by simp only [List.length_cons]; omega) later rfl)
      | @code digits c s text _ four value later =>
          by_cases nul : c = Char.ofNat 0
          · subst nul
            have same := zeros_of_hexValue value
            rw [four] at same
            have dropped : stripChars (Char.ofNat 0 :: text) = stripChars text :=
              List.filter_cons_of_neg (by simp)
            rw [dropped, same, ← Nat.zero_add (_ + 1)]
            exact (Pays.nul s).trans (ih s.length (by simp only [List.length_cons, List.length_append]; omega) later rfl)
          · have positive : c.toNat ≠ 0 := fun zero => nul (by rw [← Char.ofNat_toNat c, zero])
            rw [stripChars_cons nul, List.length_cons, Nat.add_comm _ 1]
            exact (Pays.code four value positive).trans (ih s.length (by simp only [List.length_cons, List.length_append]; omega) later rfl)
      | @pair digits digits' high low c s text _ four four' value value' isHigh isLow both later =>
          rw [stripChars_cons (ne_nul_of_le (by omega)), List.length_cons, Nat.add_comm _ 1]
          exact (Pays.pair four four' value value' isHigh isLow).trans
            (ih s.length (by simp only [List.length_cons, List.length_append]; omega) later rfl)

/-- A compact text has no whitespace. -/
theorem Space.eq_of_compact {s rest : List Char} (space : Space false s rest) : s = rest := by
  cases space with
  | nil => rfl
  | cons allowed _ _ => cases allowed

theorem one_le_sizeItems_strip {spaced : Bool} {items : List Json} {s rest : List Char}
    (reads : Reads spaced (.items items) s rest) : 1 ≤ sizeItems (stripItems items) := by
  cases reads <;> rw [stripItems, sizeItems] <;> omega

theorem one_le_sizeFields_strip {spaced : Bool} {fields : List (String × Json)}
    {s rest : List Char} (reads : Reads spaced (.fields fields) s rest) :
    1 ≤ sizeFields (stripFields fields) := by
  cases reads <;> rw [stripFields, sizeFields] <;> omega

theorem length_stripString (text : String) :
    (stripString text).toList.length = (stripChars text.toList).length := by
  rw [toList_stripString]

/-- What a part of a compact text pays. -/
theorem Reads.pays {part : Part} {s rest : List Char} (reads : Reads false part s rest) :
    Pays s part.strip.size rest := by
  have sign : ∀ {c : Char} {s rest : List Char} {u : ℕ}, c ≠ '\\' → Pays s u rest →
      Pays (c :: s) (1 + u) rest := fun other pays => (Pays.cons other).trans pays
  induction reads with
  | @nullLiteral rest =>
      change Pays (['n', 'u', 'l', 'l'] ++ rest) 4 rest
      exact .append (no_backslash rfl)
  | @trueLiteral rest =>
      change Pays (['t', 'r', 'u', 'e'] ++ rest) 4 rest
      exact .append (no_backslash rfl)
  | @falseLiteral rest =>
      change Pays (['f', 'a', 'l', 's', 'e'] ++ rest) 5 rest
      exact .append (no_backslash rfl)
  | number number _ => exact .append fun c member => (inert_of_isNumber number c member).1
  | string chars =>
      refine (sign (by decide) chars.pays).of_eq ?_
      rw [Part.strip, Json.strip, Part.size, Json.size, length_stripString]
      omega
  | noItems space =>
      rw [space.eq_of_compact]
      exact sign (by decide) (.cons (by decide))
  | array reads ih =>
      have some : 1 ≤ sizeItems (stripItems _) := one_le_sizeItems_strip reads
      refine (sign (by decide) ih).of_eq ?_
      rw [Part.strip, Json.strip, Part.size, Part.strip, Part.size, Json.size, Nat.max_eq_right some]
  | lastItem before reads after ih =>
      rw [after.eq_of_compact] at ih
      rw [before.eq_of_compact]
      exact ih.trans (.cons (by decide))
  | item before reads after later ih ih' =>
      rw [after.eq_of_compact] at ih
      rw [before.eq_of_compact]
      exact (ih.trans (.cons (by decide))).trans ih'
  | noFields space =>
      rw [space.eq_of_compact]
      exact sign (by decide) (.cons (by decide))
  | object reads ih =>
      have some : 1 ≤ sizeFields (stripFields _) := one_le_sizeFields_strip reads
      refine (sign (by decide) ih).of_eq ?_
      rw [Part.strip, Json.strip, Part.size, Part.strip, Part.size, Json.size, Nat.max_eq_right some]
  | lastField before chars colon between reads after ih =>
      have key := chars.pays
      rw [colon.eq_of_compact, between.eq_of_compact] at key
      rw [after.eq_of_compact] at ih
      rw [before.eq_of_compact]
      refine ((sign (by decide) (key.trans (sign (by decide) ih))).trans (.cons (by decide))).of_eq ?_
      rw [Part.strip, Part.size, Part.strip, Part.size, stripFields, stripFields, sizeFields,
        sizeFields, length_stripString]
      omega
  | field before chars colon between reads after later ih ih' =>
      have key := chars.pays
      rw [colon.eq_of_compact, between.eq_of_compact] at key
      rw [after.eq_of_compact] at ih
      rw [before.eq_of_compact]
      refine (((sign (by decide) (key.trans (sign (by decide) ih))).trans
        (.cons (by decide))).trans ih').of_eq ?_
      rw [Part.strip, Part.size, Part.strip, Part.size, Part.strip, Part.size, stripFields,
        sizeFields, length_stripString]
      omega

/-- After a removal that a compact text clashes with, the text denotes only values of
less units than its value without U+0000. -/
theorem Denotes.size_lt_of_clash {text : List Char} {x y : Json} (denotes : Denotes false text x)
    (clash : Clash false text) (dropped : Denotes true (JsonText.dropNul text) y) :
    y.size < x.strip.size := by
  obtain ⟨s, rest, before, reads, after⟩ := denotes
  obtain rfl := before.eq_of_compact
  obtain rfl := after.eq_of_compact
  obtain ⟨s', rest', before', reads', after'⟩ := dropped
  -- The reading of the text without the escapes has enough units.
  obtain ⟨n₂, found₂, le₂⟩ := after'.units_le (n := 0) rfl
  obtain ⟨n₁, found₁, le₁⟩ := reads'.units_le found₂
  obtain ⟨n, found, le⟩ := before'.units_le found₁
  rw [Part.size] at le₁
  -- The clash has left too few.
  obtain ⟨mode, left, empty, _, strict⟩ := reads.pays .outside n found
  have nothing : left = 0 := by
    cases mode with
    | outside =>
        cases empty
        rfl
    | inside => cases empty
    | escape => cases empty
    | hex digits => cases empty
  rcases strict clash with held | fewer
  · cases held
  · rw [Part.strip, Part.size, nothing] at fewer
    simp only [Mode.debt] at fewer
    omega

/-- **A compact text that denotes its value without U+0000 after the removal does not
clash with it.** -/
theorem Denotes.clear_of_dropNul {text : List Char} {x : Json} (denotes : Denotes false text x)
    (stripped : Denotes true (JsonText.dropNul text) x.strip) : ¬ Clash false text :=
  fun clash => Nat.lt_irrefl _ (denotes.size_lt_of_clash clash stripped)

end JsonText

end SpiceHarvester
