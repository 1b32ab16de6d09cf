import SpiceHarvester.Db.Statement
import SpiceHarvester.Interleaving.Program

/-!
# `pkg/db/currencies.go`

A function of the service is a program over the statements (`Action`). The two
functions here look up the row of a currency and read a currency back from its
row. Every row is the row of a currency (`Currencies.saved`), so the lookup finds
exactly the rows of its currency (`Currencies.of_eq_some`), and what is read back
is the currency saved (`CurrencyRow.decode_of_saved`). Only the number of an
extra currency from 2 ^ 31 on is not read back: it does not fit the 32 signed
bits that the parser allows (`Currencies.Decodable`).
-/

set_option autoImplicit false

namespace SpiceHarvester

open Interleaving Sql

/-- A function of the service: it calls statements and returns a value or an
error. -/
abbrev Action (α : Type) := Prog Stmt Stmt.Val Err α

/-- Call one statement. -/
def perform (op : Stmt) : Action op.Val := Prog.query op

/-- What a query of one row makes of an answer: `core.ErrNotFound` when there is
no row. -/
def orNotFound {α : Type} (answer : Except Err α) : Except Err α :=
  answer.mapError fun error => if error = .noRows then .notFound else error

/-- Query one row. -/
def queryRow (op : Stmt) : Action op.Val := .call op fun answer => .ret (orNotFound answer)

variable [Libraries]

/-! ## The functions -/

/-- The condition on `info` that `getCurrencyID` adds to the one on `type`. -/
def Currency.condition (currency : Currency) : Option String :=
  match currency with
  | .ton => none
  | other => some other.info

/-- `getCurrencyID`. -/
def getCurrencyID (currency : Currency) : Action UUID :=
  queryRow (.selectCurrencyID currency.type currency.condition)

/-- The currency that a row of `payments.currencies` stands for, or the error of
the parser. -/
def CurrencyRow.decode (row : CurrencyRow) : Except Err Currency :=
  match row.type with
  | .ton => .ok .ton
  | .extra =>
      match parseDecimal row.info with
      | some id =>
          if -2 ^ 31 ≤ id ∧ id < 2 ^ 31 then .ok (.extra (.ofInt id))
          else .error (.invalid "value out of range")
      | none => .error (.invalid "invalid syntax")
  | .jetton =>
      match Libraries.parseAccountID row.info with
      | .ok master => .ok (.jetton master)
      | .error message => .error (.invalid message)

/-- `getCurrencyByID`. -/
def getCurrencyByID (id : UUID) : Action Currency := do
  let row ← queryRow (.selectCurrency id)
  .ret row.decode

/-! ## Looking up and reading back -/

/-- The row that `getCurrencyID` finds. -/
def Currencies.of (currencies : Currencies) (currency : Currency) : Option UUID :=
  currencies.idOf currency.type currency.condition

/-- Every extra currency of the table has a number that `getCurrencyByID` can
parse. -/
def Currencies.Decodable (currencies : Currencies) : Prop :=
  ∀ row ∈ currencies.table.rows, ∀ id : UInt32, row.type = .extra →
    row.info = (Currency.extra id).info → id.toNat < 2 ^ 31

/-- The payments of a call whose currency is tracked: those that `processPayment`
looks up. A call that reports a parsing error has none. -/
def PaymentCall.tracked (currencies : Currencies) (call : PaymentCall) : List Payment :=
  match call.parsingError with
  | some _ => []
  | none => call.payments.filter fun payment => (currencies.of payment.currency).isSome

/-- A call that has a payment to look up reports no parsing error. -/
theorem PaymentCall.parsed_of_tracked {currencies : Currencies} {call : PaymentCall}
    {before rest : List Payment} {payment : Payment}
    (tracked : call.tracked currencies = before ++ payment :: rest) : call.parsingError = none := by
  cases parsing : call.parsingError with
  | none => rfl
  | some error =>
      rw [PaymentCall.tracked, parsing] at tracked
      exact absurd tracked.symm (List.append_ne_nil_of_right_ne_nil before (List.cons_ne_nil _ _))

theorem PaymentCall.mem_tracked (currencies : Currencies) {call : PaymentCall} {payment : Payment}
    (member : payment ∈ call.tracked currencies) : payment ∈ call.payments := by
  unfold tracked at member
  split at member
  · cases member
  · exact (List.mem_filter.mp member).1

theorem CurrencyRow.meets_condition {row : CurrencyRow} {currency other : Currency}
    (type : row.type = other.type) (info : row.info = other.info) :
    row.type = currency.type ∧ (currency.condition = none ∨ currency.condition = some row.info) ↔
      row.type = currency.type ∧ row.info = currency.info := by
  constructor
  · rintro ⟨sameType, holds⟩
    refine ⟨sameType, ?_⟩
    cases currency with
    | ton =>
        cases other with
        | ton => exact info
        | jetton master => rw [type] at sameType; cases sameType
        | extra id => rw [type] at sameType; cases sameType
    | jetton master => simpa [Currency.condition, eq_comm] using holds
    | extra id => simpa [Currency.condition, eq_comm] using holds
  · rintro ⟨sameType, sameInfo⟩
    refine ⟨sameType, ?_⟩
    cases currency with
    | ton => exact .inl rfl
    | jetton master => exact .inr (by rw [sameInfo]; rfl)
    | extra id => exact .inr (by rw [sameInfo]; rfl)

namespace Currencies

variable {currencies : Currencies} {currency : Currency} {id : UUID}

/-- **`getCurrencyID` finds the row of its currency, and no other.** -/
theorem of_eq_some : currencies.of currency = some id ↔
    ∃ row, currencies.table.find id = some row ∧ row.type = currency.type ∧
      row.info = currency.info := by
  have meets : ∀ row ∈ currencies.table.rows,
      (row.type = currency.type ∧
        (currency.condition = none ∨ currency.condition = some row.info)) ↔
      row.type = currency.type ∧ row.info = currency.info := by
    intro row member
    obtain ⟨other, type, info⟩ := currencies.saved row member
    exact CurrencyRow.meets_condition type info
  rw [Currencies.of, idOf, Option.map_eq_some_iff]
  constructor
  · rintro ⟨row, found, rfl⟩
    have member := List.mem_of_find?_eq_some found
    have holds := List.find?_some found
    simp only [Bool.and_eq_true, decide_eq_true_eq] at holds
    exact ⟨row, Table.find_of_mem member, (meets row member).mp holds⟩
  · rintro ⟨row, found, same⟩
    obtain ⟨member, rfl⟩ := Table.find_eq_some.mp found
    have holds := (meets row member).mpr same
    have some : (currencies.table.rows.find? fun row =>
        decide (row.type = currency.type) && decide
          (currency.condition = none ∨ currency.condition = some row.info)).isSome := by
      rw [List.find?_isSome]
      exact ⟨row, member, by simpa using holds⟩
    obtain ⟨other, found'⟩ := Option.isSome_iff_exists.mp some
    have member' := List.mem_of_find?_eq_some found'
    have holds' := List.find?_some found'
    simp only [Bool.and_eq_true, decide_eq_true_eq] at holds'
    have same' := (meets other member').mp holds'
    have equal : other = row :=
      List.inj_on_of_nodup_map currencies.distinct member' member
        (by rw [same'.1, same'.2, same.1, same.2])
    exact ⟨other, found', congrArg CurrencyRow.id equal⟩

/-- A row stands for one currency. -/
theorem of_injective {other : Currency} (found : currencies.of currency = some id)
    (found' : currencies.of other = some id) : currency = other := by
  obtain ⟨row, stored, type, info⟩ := of_eq_some.mp found
  obtain ⟨row', stored', type', info'⟩ := of_eq_some.mp found'
  rw [stored, Option.some.injEq] at stored'
  subst stored'
  exact Currency.eq_of_type_info (type.symm.trans type') (info.symm.trans info')

/-- The row that is found is stored. -/
theorem isSome_of (found : currencies.of currency = some id) :
    (currencies.table.find id).isSome := by
  obtain ⟨row, stored, _⟩ := of_eq_some.mp found
  rw [stored]
  rfl

end Currencies

/-- **A row is read back as the currency it was saved for.** -/
theorem CurrencyRow.decode_of_saved {row : CurrencyRow} {currency : Currency}
    (type : row.type = currency.type) (info : row.info = currency.info)
    (small : ∀ id, currency = .extra id → id.toNat < 2 ^ 31) : row.decode = .ok currency := by
  unfold decode
  cases currency with
  | ton => rw [type]; rfl
  | jetton master =>
      rw [type, info]
      simp only [Currency.type, Currency.info, Libraries.parse_toRaw]
  | extra id =>
      have bound := small id rfl
      rw [type, info]
      simp only [Currency.type, Currency.info, parseDecimal_toString]
      rw [if_pos (by omega)]
      congr 2
      rw [UInt32.ofInt, Int.emod_eq_of_lt (by omega) (by omega), Int.toNat_natCast,
        UInt32.ofNat_toNat]

/-- A number that is read back has at most 31 bits. -/
theorem CurrencyRow.decode_extra {row : CurrencyRow} {id : UInt32}
    (type : row.type = .extra) (info : row.info = (Currency.extra id).info) {currency : Currency}
    (decoded : row.decode = .ok currency) : id.toNat < 2 ^ 31 := by
  unfold decode at decoded
  rw [type, info] at decoded
  simp only [Currency.info, parseDecimal_toString] at decoded
  split at decoded
  · omega
  · cases decoded

namespace Currencies

variable {currencies : Currencies} {id : UUID} {row : CurrencyRow}

/-- A currency that has been read back is found again. -/
theorem of_decode (found : currencies.table.find id = some row) {currency : Currency}
    (decoded : row.decode = .ok currency) : currencies.of currency = some id := by
  obtain ⟨member, _⟩ := Table.find_eq_some.mp found
  obtain ⟨saved, type, info⟩ := currencies.saved row member
  have same : row.decode = .ok saved := CurrencyRow.decode_of_saved type info (by
    rintro extra rfl
    exact CurrencyRow.decode_extra type info decoded)
  rw [decoded, Except.ok.injEq] at same
  exact of_eq_some.mpr ⟨row, found, same ▸ type, same ▸ info⟩

/-- Where every currency is decodable, reading back does not fail. -/
theorem decode_of_decodable (decodable : currencies.Decodable)
    (found : currencies.table.find id = some row) : ∃ currency, row.decode = .ok currency := by
  obtain ⟨member, _⟩ := Table.find_eq_some.mp found
  obtain ⟨currency, type, info⟩ := currencies.saved row member
  refine ⟨currency, CurrencyRow.decode_of_saved type info ?_⟩
  rintro extra rfl
  exact decodable row member extra type info

/-- `getCurrencyByID` reads the currency back, if it is stored. -/
def Legible (currencies : Currencies) (id : UUID) : Prop :=
  ∀ row, currencies.table.find id = some row → ∃ currency, row.decode = .ok currency

theorem Decodable.legible (decodable : currencies.Decodable) (id : UUID) : currencies.Legible id :=
  fun _ found => decode_of_decodable decodable found

end Currencies

/-! ## Payments for an invoice -/

/-- The payment names the invoice, in its currency and to its recipient. -/
def Payment.Pays (currencies : Currencies) (payment : Payment) (row : InvoiceRow) : Prop :=
  payment.invoiceID = row.id ∧ currencies.of payment.currency = some row.currency ∧
    payment.recipient = row.recipient

instance (currencies : Currencies) (payment : Payment) (row : InvoiceRow) :
    Decidable (payment.Pays currencies row) :=
  inferInstanceAs (Decidable (_ ∧ _ ∧ _))

/-- Two payments for one invoice have the same currency and recipient. -/
theorem Payment.same_of_pays {currencies : Currencies} {row : InvoiceRow}
    {payment payment' : Payment} (pays : payment.Pays currencies row)
    (pays' : payment'.Pays currencies row) :
    payment.currency = payment'.currency ∧ payment.recipient = payment'.recipient :=
  ⟨Currencies.of_injective pays.2.1 pays'.2.1, pays.2.2.trans pays'.2.2.symm⟩

end SpiceHarvester
