import SpiceHarvester.Core
import Mathlib.Data.List.Nodup

/-!
# `internal/config`

The currencies that `Load` reads from the environment: TON, and the jettons of `JETTONS`.
A ticker is listed once, and so is the address of a jetton.
-/

set_option autoImplicit false

namespace SpiceHarvester

namespace StartUp

/-- `core.DefaultTonTicker`. -/
def defaultTonTicker : String := "TON"

/-- The map of the currencies by their tickers. -/
structure Tickers where
  entries : List (String × ExtendedCurrency)
  distinct : (entries.map Prod.fst).Nodup
  ton : (defaultTonTicker, ⟨.ton, 0⟩) ∈ entries

namespace Tickers

/-- "TON tracking by default". -/
def default : Tickers where
  entries := [(defaultTonTicker, ⟨.ton, 0⟩)]
  distinct := List.nodup_singleton _
  ton := List.mem_singleton.mpr rfl

/-- A further ticker. -/
def add (tickers : Tickers) (ticker : String) (extended : ExtendedCurrency)
    (new : ticker ∉ tickers.entries.map Prod.fst) : Tickers where
  entries := tickers.entries ++ [(ticker, extended)]
  distinct := by
    rw [List.map_append, List.map_singleton]
    exact tickers.distinct.append (List.nodup_singleton _) (List.disjoint_singleton.mpr new)
  ton := List.mem_append_left _ tickers.ton

end Tickers

/-- Where tickers are listed once, the currency of an entry is found under its ticker. -/
theorem lookup_of_mem {entries : List (String × ExtendedCurrency)}
    (distinct : (entries.map Prod.fst).Nodup) {entry : String × ExtendedCurrency}
    (member : entry ∈ entries) : entries.lookup entry.1 = some entry.2 := by
  induction entries with
  | nil => cases member
  | cons first rest ih =>
      rw [List.map_cons, List.nodup_cons] at distinct
      rcases List.mem_cons.mp member with rfl | later
      · exact List.lookup_cons_self
      · have ne : (entry.1 == first.1) = false := by
          refine beq_eq_false_iff_ne.mpr fun same => distinct.1 ?_
          exact same ▸ List.mem_map_of_mem later
        rw [List.lookup_cons, ne]
        exact ih distinct.2 later

/-- What `main` uses of `config.Config` to find the accounts to track. -/
structure Config where
  recipient : AccountID
  currencies : Tickers

variable [Libraries]

/-- `strconv.Atoi`. -/
def atoi (text : String) : Except String ℤ :=
  match parseDecimal text with
  | none => .error ("strconv.Atoi: parsing \"" ++ text ++ "\": invalid syntax")
  | some value =>
      if -2 ^ 63 ≤ value ∧ value < 2 ^ 63 then .ok value
      else .error ("strconv.Atoi: parsing \"" ++ text ++ "\": value out of range")

/-- `strings.Split`, by a character. -/
def split (text : String) (separator : Char) : List String :=
  (text.toList.splitOn separator).map String.ofList

/-- The body of the loop of `Load` over the jettons of `JETTONS`, whose text is `v`. -/
def addJetton (v : String) (loaded : Tickers × List AccountID) (s : String) :
    Except String (Tickers × List AccountID) := do
  let [ticker, decimals, address] := split s ' ' | throw ("invalid jetton config: " ++ v)
  let addr ← Libraries.parseAccountID address
  let dec ← atoi decimals
  if dec < 0 ∨ 255 < dec then
    throw ("invalid jetton decimals (must be 0..255): " ++ decimals)
  if new : ticker ∉ loaded.1.entries.map Prod.fst then
    if addr ∈ loaded.2 then
      throw ("duplicated jetton address: " ++ v)
    return (loaded.1.add ticker ⟨.jetton addr, dec⟩ new, addr :: loaded.2)
  else
    throw ("duplicated jetton ticker: " ++ v)

/-- The parser of `JETTONS`, which runs unless the variable is empty. -/
def loadJettons (v : String) : Except String Tickers :=
  if v = "" then .ok .default
  else ((split v ',').foldlM (addJetton v) (.default, [])).map Prod.fst

/-- `Load`, as far as it goes for `RECIPIENT` and `JETTONS`. On an error it panics. -/
def load (recipient jettons : String) : Except String Config := do
  let recipient ← Libraries.parseAccountID recipient
  let currencies ← loadJettons jettons
  return ⟨recipient, currencies⟩

end StartUp

end SpiceHarvester
