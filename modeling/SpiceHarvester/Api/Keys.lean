import SpiceHarvester.Core
import Mathlib.Data.List.Sort

/-!
# The keys of `pkg/api/handlers.go`

`convertNewKey` checks that the owner of an account has certified an encryption
key, and `encryptData` encrypts under such a key. The signature scheme, the
wallets and the encryption are given; the texts that a request carries are
decoded here.
-/

set_option autoImplicit false

namespace SpiceHarvester

/-- What the handlers use of other packages: `ed25519.Verify`, the addresses of
wallets and `toncrypto.Encrypt`. -/
class Cryptography where
  verify : (pubkey message signature : List UInt8) → Bool
  WalletVersion : Type
  versionFromString : String → Except String WalletVersion
  generateWalletAddress : (pubkey : List UInt8) → WalletVersion → Except String AccountID
  encrypt : (receiverPubkey ourEncryptionKey data salt : List UInt8) → Except String (List UInt8)

def bytesOf (text : String) : List UInt8 := text.toUTF8.data.toList

/-! ## `hex.DecodeString` -/

/-- The value of a hexadecimal digit. -/
def hexDigit? (byte : UInt8) : Option UInt8 :=
  if 48 ≤ byte ∧ byte ≤ 57 then some (byte - 48)
  else if 97 ≤ byte ∧ byte ≤ 102 then some (byte - 87)
  else if 65 ≤ byte ∧ byte ≤ 70 then some (byte - 55)
  else none

/-- The verb `%#U` of a byte: its code point, and the character in quotes when it
can be printed. -/
def unicodeVerb (byte : UInt8) : String :=
  let digit := fun value : ℕ => (Nat.digitChar value).toUpper
  let printable := 32 ≤ byte ∧ byte < 127 ∨ 160 < byte ∧ byte ≠ 173
  let quoted := if printable then [' ', Char.ofNat 39, Char.ofNat byte.toNat, Char.ofNat 39] else []
  "U+00" ++ String.ofList ([digit (byte.toNat / 16), digit (byte.toNat % 16)] ++ quoted)

def invalidByteError (byte : UInt8) : String := "encoding/hex: invalid byte: " ++ unicodeVerb byte

/-- `hex.Decode`: the first invalid byte is reported, or else an odd length. -/
def hexDecode : List UInt8 → Except String (List UInt8)
  | [] => .ok []
  | [last] =>
      match hexDigit? last with
      | none => .error (invalidByteError last)
      | some _ => .error "encoding/hex: odd length hex string"
  | high :: low :: rest =>
      match hexDigit? high, hexDigit? low with
      | none, _ => .error (invalidByteError high)
      | some _, none => .error (invalidByteError low)
      | some a, some b => (hexDecode rest).map fun bytes => (a * 16 + b) :: bytes

def hexDecodeString (text : String) : Except String (List UInt8) := hexDecode (bytesOf text)

example : (hexDecodeString "6d657461").toOption = some (bytesOf "meta") := by decide +kernel

/-! ## `json.Marshal` of a `map[string]json.RawMessage` -/

/-- A character as `encoding/json` writes it for HTML. -/
def escapeHTML (char : Char) : List Char :=
  if char = '<' ∨ char = '>' ∨ char = '&' ∨ char.toNat = 8232 ∨ char.toNat = 8233 then
    '\\' :: 'u' :: (List.range 4).reverse.map fun place =>
      Nat.digitChar (char.toNat / 16 ^ place % 16)
  else [char]

/-- A character of a string as `encoding/json` writes it. -/
def escapeChar (char : Char) : List Char :=
  if char = '"' ∨ char = '\\' then ['\\', char]
  else if char.toNat = 8 then ['\\', 'b']
  else if char.toNat = 12 then ['\\', 'f']
  else if char = '\n' then ['\\', 'n']
  else if char = '\r' then ['\\', 'r']
  else if char = '\t' then ['\\', 't']
  else if char.toNat < 32 then
    ['\\', 'u', '0', '0', Nat.digitChar (char.toNat / 16), Nat.digitChar (char.toNat % 16)]
  else escapeHTML char

/-- A string as `encoding/json` writes it. -/
def quote (text : String) : String :=
  String.ofList ('"' :: text.toList.flatMap escapeChar ++ ['"'])

/-- `appendCompact`: a well-formed JSON text without the space between its
tokens. -/
def compact (inString escaped : Bool) : List Char → List Char
  | [] => []
  | char :: rest =>
      if inString then
        escapeHTML char ++ compact (escaped || char ≠ '"') (!escaped && char = '\\') rest
      else if char = ' ' ∨ char = '\n' ∨ char = '\r' ∨ char = '\t' then
        compact false false rest
      else char :: compact (char = '"') false rest

def marshalField (field : String × String) : List Char :=
  '"' :: field.1.toList.flatMap escapeChar ++ ['"', ':'] ++ compact false false field.2.toList

/-- The fields of a map in the order of their keys, written as an object. The
texts of a map that has been read from a `jsonb` are well-formed, so that no error
occurs. -/
def marshalRawMap (fields : RawMap) : List UInt8 :=
  let sorted := fields.insertionSort fun field field' => bytesOf field.1 ≤ bytesOf field'.1
  bytesOf (String.ofList ('{' :: List.intercalate [','] (sorted.map marshalField) ++ ['}']))

example : marshalRawMap [("b", "[1, 2]"), ("a", "\"<\"")] =
    bytesOf "\x7b\"a\":\"\\u003c\",\"b\":[1,2]\x7d" := by decide +kernel

/-! ## Keys -/

/-- `NewKey`. -/
structure NewKey where
  walletVersion : String
  publicKey : String
  cert : String

/-- A check of a request: its error, unless the condition holds. -/
def ensure (condition : Prop) [Decidable condition] (message : String) : Except String Unit :=
  if condition then .ok () else .error message

theorem of_ensure {condition : Prop} [Decidable condition] {message : String} {value : Unit}
    (passed : ensure condition message = .ok value) : condition := by
  unfold ensure at passed
  split at passed
  · assumption
  · cases passed

section Convert

variable [Cryptography]

/-- `convertNewKey`. -/
def convertNewKey (account : AccountID) (newKey : NewKey) : Except String (List UInt8) := do
  let pubkey ← hexDecodeString newKey.publicKey
  ensure (pubkey.length = 32) "invalid public key"
  let ver ← Cryptography.versionFromString newKey.walletVersion
  let addr ← Cryptography.generateWalletAddress pubkey ver
  ensure (addr = account) "invalid public key"
  let cert ← hexDecodeString newKey.cert
  ensure (cert.length = 4 + 32 + 64) "invalid cert len"
  ensure (cert.take 4 = bytesOf "meta") "invalid cert role"
  ensure (Cryptography.verify pubkey (cert.take (4 + 32)) (cert.drop (cert.length - 64)) = true)
    "invalid cert signature"
  return (cert.drop 4).take 32

/-- The data of a request certify the key for the account: the account is the wallet, in
the stated version, of the public key, whose signature over `meta` and the key verifies. -/
def NewKey.Certifies (newKey : NewKey) (account : AccountID) (key : List UInt8) : Prop :=
  ∃ pubkey ver signature, hexDecodeString newKey.publicKey = .ok pubkey ∧ pubkey.length = 32 ∧
    Cryptography.versionFromString newKey.walletVersion = .ok ver ∧
    Cryptography.generateWalletAddress pubkey ver = .ok account ∧
    hexDecodeString newKey.cert = .ok (bytesOf "meta" ++ key ++ signature) ∧
    key.length = 32 ∧ signature.length = 64 ∧
    Cryptography.verify pubkey (bytesOf "meta" ++ key) signature = true

/-- **What `convertNewKey` accepts is certified by the request.** -/
theorem certifies_of_convertNewKey {account : AccountID} {newKey : NewKey} {key : List UInt8}
    (converted : convertNewKey account newKey = .ok key) : newKey.Certifies account key := by
  obtain ⟨pubkey, decoded, converted⟩ := except_bind converted
  obtain ⟨_, long, converted⟩ := except_bind converted
  obtain ⟨ver, version, converted⟩ := except_bind converted
  obtain ⟨addr, generated, converted⟩ := except_bind converted
  obtain ⟨_, own, converted⟩ := except_bind converted
  obtain ⟨cert, decoded', converted⟩ := except_bind converted
  obtain ⟨_, length, converted⟩ := except_bind converted
  obtain ⟨_, role, converted⟩ := except_bind converted
  obtain ⟨_, signed, converted⟩ := except_bind converted
  cases converted
  have length := of_ensure length
  have front : cert.take (4 + 32) = bytesOf "meta" ++ (cert.drop 4).take 32 := by
    rw [← of_ensure role, ← List.take_add]
  have parts : cert = bytesOf "meta" ++ (cert.drop 4).take 32 ++ cert.drop (cert.length - 64) := by
    rw [← front, length]
    exact (List.take_append_drop (4 + 32) cert).symm
  refine ⟨pubkey, ver, cert.drop (cert.length - 64), decoded, of_ensure long, version,
    of_ensure own ▸ generated, parts ▸ decoded', ?_, ?_, ?_⟩
  · simp [length]
  · simp [length]
  · rw [← front]
    exact of_ensure signed

/-- The owner of the account has certified the key: the account is the wallet, in
some version, of a public key whose signature over `meta` and the key verifies. -/
def Certified (account : AccountID) (key : List UInt8) : Prop :=
  ∃ pubkey ver signature, pubkey.length = 32 ∧ key.length = 32 ∧ signature.length = 64 ∧
    Cryptography.generateWalletAddress pubkey ver = .ok account ∧
    Cryptography.verify pubkey (bytesOf "meta" ++ key) signature = true

/-- **What `convertNewKey` accepts is certified.** -/
theorem certified_of_convertNewKey {account : AccountID} {newKey : NewKey} {key : List UInt8}
    (converted : convertNewKey account newKey = .ok key) : Certified account key := by
  obtain ⟨pubkey, ver, signature, _, long, _, generated, _, length, length', signed⟩ :=
    certifies_of_convertNewKey converted
  exact ⟨pubkey, ver, signature, long, length, length', generated, signed⟩

/-- `encryptData`. The salt is the address `0:0`. -/
def encryptData [Libraries] (receiverPubkey data ourEncryptionKey : List UInt8) :
    Except String (List UInt8) :=
  Cryptography.encrypt receiverPubkey ourEncryptionKey data
    (bytesOf (Libraries.toHuman ⟨0, 0⟩ true false))

end Convert

end SpiceHarvester
