import SpiceHarvester.Core.Printable
import Mathlib.Tactic.Ring

/-!
# The texts of accounts and of UUIDs

What the service uses of other packages, as those packages write it: the raw form
of an account is its workchain in decimal and its address in hexadecimal, and a
UUID is printed in five groups of hexadecimal digits. The names of the operations
are those of the generated `abi` package. Parsing the raw form of an account gives
the account back (`parseRaw_toRaw`), and so does parsing the hexadecimal text of a hash
(`parseHex_hexText`) and the text of a UUID (`parseUUID_uuidString`).
-/

set_option autoImplicit false

namespace SpiceHarvester

namespace Texts

/-! ## Hexadecimal digits -/

/-- The digits of a number in base 16, the highest of `count` first. -/
def hexDigits (count n : ℕ) : List Char :=
  (List.range count).reverse.map fun place => Nat.digitChar (n / 16 ^ place % 16)

/-- The value of a digit. -/
def hexValue (digit : Char) : Option ℕ :=
  (List.range 16).find? fun value => decide (Nat.digitChar value = digit)

/-- A number in base 16, after the digits that make up `value`. -/
def readHex (value : ℕ) (digits : List Char) : Option ℕ :=
  digits.foldlM (fun value digit => (hexValue digit).map fun next => value * 16 + next) value

theorem hexValue_digitChar {value : ℕ} (small : value < 16) :
    hexValue (Nat.digitChar value) = some value := by
  have all : ∀ value ∈ List.range 16, hexValue (Nat.digitChar value) = some value := by decide
  exact all value (List.mem_range.mpr small)

theorem readHex_hexDigits (count n value : ℕ) :
    readHex value (hexDigits count n) = some (value * 16 ^ count + n % 16 ^ count) := by
  induction count generalizing value with
  | zero => simp [readHex, hexDigits, Nat.mod_one]
  | succ count ih =>
      have first : hexDigits (count + 1) n =
          Nat.digitChar (n / 16 ^ count % 16) :: hexDigits count n := by
        simp only [hexDigits, List.range_succ, List.reverse_append, List.reverse_singleton,
          List.singleton_append, List.map_cons]
      have digit := hexValue_digitChar (Nat.mod_lt (n / 16 ^ count) (by decide : 0 < 16))
      rw [first, readHex, List.foldlM_cons, digit]
      change readHex (value * 16 + n / 16 ^ count % 16) (hexDigits count n) = _
      rw [ih, Nat.mod_pow_succ]
      congr 1
      ring

theorem length_hexDigits (count n : ℕ) : (hexDigits count n).length = count := by
  simp [hexDigits]

theorem hexDigits_alphanum {count n : ℕ} {digit : Char} (member : digit ∈ hexDigits count n) :
    digit.isAlphanum = true := by
  have all : ∀ value ∈ List.range 16, (Nat.digitChar value).isAlphanum = true := by decide
  obtain ⟨place, _, rfl⟩ := List.mem_map.mp member
  exact all _ (List.mem_range.mpr (Nat.mod_lt _ (by decide)))

/-! ## Hashes and amounts -/

/-- `Bits256.Hex`. -/
def hexText (bits : Bits256) : String := String.ofList (hexDigits 64 bits.toNat)

/-- The parser of such a text. -/
def parseHex (text : String) : Except String Bits256 :=
  match readHex 0 text.toList with
  | some bits =>
      if text.toList.length = 64 then .ok (BitVec.ofNat 256 bits) else .error "invalid hash"
  | none => .error "invalid hash"

/-- **The text of a hash is parsed back.** -/
theorem parseHex_hexText (bits : Bits256) : parseHex (hexText bits) = .ok bits := by
  have small : bits.toNat % 16 ^ 64 = bits.toNat := Nat.mod_eq_of_lt (by simpa using bits.isLt)
  simp only [parseHex, hexText, String.toList_ofList, readHex_hexDigits, length_hexDigits, if_pos,
    zero_mul, zero_add, small, BitVec.ofNat_toNat, BitVec.setWidth_eq]

theorem hexText_alphanum (bits : Bits256) : ∀ c ∈ (hexText bits).toList, c.isAlphanum = true := by
  intro c member
  rw [hexText, String.toList_ofList] at member
  exact hexDigits_alphanum member

/-- The parser of a `VarUInteger32`, which is written in decimal. -/
def parseVarUInteger (text : String) : Except String ℕ :=
  match parseDecimal.parseDigits text.toList with
  | some value => .ok value
  | none => .error "invalid integer"

theorem parseVarUInteger_toString (value : ℕ) : parseVarUInteger (toString value) = .ok value := by
  rw [parseVarUInteger, parseDigits_toString]

theorem toString_alphanum (value : ℕ) : ∀ c ∈ (toString value).toList, c.isAlphanum = true := by
  intro c member
  rw [Char.isAlphanum, isDigit_of_mem_toString member, Bool.or_true]

/-! ## Accounts -/

/-- `AccountID.ToRaw`. -/
def toRaw (account : AccountID) : String :=
  toString account.workchain ++ ":" ++ String.ofList (hexDigits 64 account.address.toNat)

/-- `ton.ParseAccountID` of a raw form. -/
def parseRaw (text : String) : Except String AccountID :=
  let workchain := text.toList.takeWhile fun char => char != ':'
  let address := text.toList.drop (workchain.length + 1)
  match parseDecimal (String.ofList workchain), readHex 0 address with
  | some workchain, some bits =>
      if address.length = 64 then .ok ⟨workchain, BitVec.ofNat 256 bits⟩
      else .error "invalid account ID"
  | _, _ => .error "invalid account ID"

theorem toList_toString_negSucc (n : ℕ) :
    (toString (Int.negSucc n)).toList = '-' :: (toString (n + 1)).toList := by
  change ("-" ++ toString (n + 1)).toList = _
  rw [String.toList_append]
  rfl

/-- A printed integer is parsed back. -/
theorem parseDecimal_toString_int (n : ℤ) : parseDecimal (toString n) = some n := by
  cases n with
  | ofNat n => exact parseDecimal_toString n
  | negSucc n =>
      unfold parseDecimal
      rw [toList_toString_negSucc]
      change (parseDecimal.parseDigits (toString (n + 1)).toList).map (fun value => -(value : ℤ)) = _
      rw [parseDigits_toString]
      rfl

theorem toString_int_ne_colon {n : ℤ} {char : Char} (member : char ∈ (toString n).toList) :
    (char != ':') = true := by
  have digits : ∀ m : ℕ, ∀ char ∈ (toString m).toList, (char != ':') = true := by
    intro m char member
    have digit := isDigit_of_mem_toString member
    rw [bne_iff_ne]
    rintro rfl
    cases digit
  cases n with
  | ofNat n => exact digits n char member
  | negSucc n =>
      rw [toList_toString_negSucc, List.mem_cons] at member
      obtain rfl | member := member
      · rfl
      · exact digits _ char member

/-- **The raw form of an account is parsed back.** -/
theorem parseRaw_toRaw (account : AccountID) : parseRaw (toRaw account) = .ok account := by
  have text : (toRaw account).toList =
      (toString account.workchain).toList ++ ':' :: hexDigits 64 account.address.toNat := by
    rw [toRaw, String.toList_append, String.toList_append, String.toList_ofList (l := hexDigits _ _),
      List.append_assoc]
    rfl
  have head : (toRaw account).toList.takeWhile (fun char => char != ':') =
      (toString account.workchain).toList := by
    rw [text, List.takeWhile_append_of_pos fun _ => toString_int_ne_colon,
      List.takeWhile_cons_of_neg (by decide), List.append_nil]
  have tail : (toRaw account).toList.drop ((toString account.workchain).toList.length + 1) =
      hexDigits 64 account.address.toNat := by
    rw [text, List.drop_append]
    simp
  have bits : account.address.toNat % 16 ^ 64 = account.address.toNat :=
    Nat.mod_eq_of_lt (by simpa using account.address.isLt)
  simp only [parseRaw, head, tail, String.ofList_toList, parseDecimal_toString_int,
    readHex_hexDigits, length_hexDigits, if_pos, zero_mul, zero_add, bits, BitVec.ofNat_toNat,
    BitVec.setWidth_eq]

/-! ## UUIDs -/

/-- `uuid.UUID.String`. -/
def uuidString (id : UUID) : String :=
  let digits := hexDigits 32 id.toNat
  String.ofList (digits.take 8 ++ '-' :: (digits.drop 8).take 4 ++ '-' :: (digits.drop 12).take 4 ++
    '-' :: (digits.drop 16).take 4 ++ '-' :: digits.drop 20)

/-- `uuid.Parse` of the printed form. -/
def parseUUID (text : String) : Except String UUID :=
  let digits := text.toList.filter fun char => char != '-'
  match readHex 0 digits with
  | some bits => if digits.length = 32 then .ok (BitVec.ofNat 128 bits) else .error "invalid UUID"
  | none => .error "invalid UUID format"

theorem filter_hexDigits (count n : ℕ) :
    (hexDigits count n).filter (fun char => char != '-') = hexDigits count n := by
  have all : ∀ value ∈ List.range 16, (Nat.digitChar value != '-') = true := by decide
  refine List.filter_eq_self.mpr fun digit member => ?_
  obtain ⟨place, _, rfl⟩ := List.mem_map.mp member
  exact all _ (List.mem_range.mpr (Nat.mod_lt _ (by decide)))

/-- A text is parsed as a UUID if its digits are those of the UUID. -/
theorem parseUUID_of_digits {text : String} {id : UUID}
    (digits : text.toList.filter (fun char => char != '-') = hexDigits 32 id.toNat) :
    parseUUID text = .ok id := by
  have bits : id.toNat % 16 ^ 32 = id.toNat := Nat.mod_eq_of_lt (by simpa using id.isLt)
  unfold parseUUID
  simp only [digits, readHex_hexDigits, length_hexDigits, if_pos, zero_mul, zero_add, bits,
    BitVec.ofNat_toNat, BitVec.setWidth_eq]

/-- **The text of a UUID is parsed back**: without its hyphens it is the digits. -/
theorem parseUUID_uuidString (id : UUID) : parseUUID (uuidString id) = .ok id := by
  refine parseUUID_of_digits ?_
  have hyphen : ∀ rest : List Char, ('-' :: rest).filter (fun char => char != '-') =
      rest.filter fun char => char != '-' := fun _ => rfl
  have groups : ∀ digits : List Char, digits.take 8 ++ ((digits.drop 8).take 4 ++
      ((digits.drop 12).take 4 ++ ((digits.drop 16).take 4 ++ digits.drop 20))) = digits := by
    intro digits
    have step : ∀ m n : ℕ, (digits.drop m).take n ++ digits.drop (m + n) = digits.drop m := by
      intro m n
      rw [← List.drop_drop, List.take_append_drop]
    rw [step 16 4, step 12 4, step 8 4, List.take_append_drop]
  rw [uuidString, String.toList_ofList]
  simp only [List.filter_append, hyphen, List.append_assoc, List.cons_append]
  rw [← List.filter_append, ← List.filter_append, ← List.filter_append, ← List.filter_append,
    groups, filter_hexDigits]

theorem uuidString_ne (id : UUID) : uuidString id ≠ "" := by
  intro empty
  have chars := congrArg String.toList empty
  simp [uuidString] at chars

/-! ## The libraries -/

/-- The bytes of the cell of an invoice payload without a URL: the header of a bag
with one cell, the length of the cell and its bits, which end with a 1. -/
def payloadBytes (id : UUID) : List UInt8 :=
  [0xb5, 0xee, 0x9c, 0x72, 0x01, 0x01, 0x01, 0x01, 0x00, 0x17, 0x00, 0x00, 0x29] ++
    [0x7a, 0xa2, 0x3e, 0xb5] ++
    ((List.range 16).reverse.map fun place => UInt8.ofNat (id.toNat / 256 ^ place)) ++ [0x40]

/-- The texts as the packages write them. -/
@[reducible] def libraries : Libraries where
  toRaw := toRaw
  parseAccountID := parseRaw
  parse_toRaw := parseRaw_toRaw
  toHuman account _ _ := toRaw account
  hex := hexText
  parseBits256 := parseHex
  parse_hex := parseHex_hexText
  hex_alphanum := hexText_alphanum
  varUIntegerText value := toString value
  parseVarUInteger := parseVarUInteger
  parse_varUIntegerText := parseVarUInteger_toString
  varUIntegerText_alphanum := toString_alphanum
  uuidString := uuidString
  parseUUID := parseUUID
  invoicePayloadBoc id adnlAddress :=
    match adnlAddress with
    | none => .ok (payloadBytes id)
    | some _ => .error "not supported"
  invoicePayloadMsgOp := "InvoicePayload"
  textCommentMsgOp := "TextComment"
  jettonNotifyMsgOp := "JettonNotify"
  invoicePayloadJettonOp := "InvoicePayload"
  textCommentJettonOp := "TextComment"

end Texts

end SpiceHarvester
