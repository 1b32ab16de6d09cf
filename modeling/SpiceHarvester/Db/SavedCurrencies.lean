import SpiceHarvester.Schedule
import SpiceHarvester.StartUp.Calls

/-!
# Currencies, saved and read back

`saveCurrency` writes the type of a currency and its info, `getCurrencyID` looks a row up by
both, and `getCurrencyByID` parses the info again. The number of an extra currency has 32
bits and no sign, and the parser reads 32 bits with a sign: the numbers from 2 ^ 31 on are
saved and found, but not read back (`readsBack_iff`).
-/

set_option autoImplicit false

namespace SpiceHarvester

open Interleaving Sql

section ReadBack

variable [Libraries]

/-- `getCurrencyID`, and `getCurrencyByID` of its row. -/
def readBack (currency : Currency) : Action Currency := do
  let id ← getCurrencyID currency
  getCurrencyByID id

/-- Without a fault, a currency is read back from its row, which is that of no other. -/
def Currencies.ReadsBack (currencies : Currencies) (currency : Currency) : Prop :=
  ∀ (choice : Choice) (w : World Unit), w.db.currencies = currencies →
    (readBack currency).eval (Stmt.run choice ()) w = some (.ok currency, w) ∧
    ∀ other id, other ≠ currency →
      (getCurrencyID other).eval (Stmt.run choice ()) w = some (.ok id, w) →
      (getCurrencyID currency).eval (Stmt.run choice ()) w ≠ some (.ok id, w)

variable {choice : Choice} {w : World Unit} {currency : Currency} {id : UUID}

/-! ## What is saved -/

/-- The currency has a row once it is saved. -/
theorem of_save {currencies : Currencies} (fresh : id ∉ currencies.table.rows.map CurrencyRow.id) :
    ∃ rowID, (StartUp.save currencies id currency).of currency = some rowID := by
  have listed : ∃ row ∈ (StartUp.save currencies id currency).table.rows,
      row.type = currency.type ∧ row.info = currency.info := by
    unfold StartUp.save
    split
    · rename_i conflict
      obtain ⟨row, member, same⟩ := List.mem_map.mp (conflict.resolve_left fresh)
      exact ⟨row, member, congrArg Prod.fst same, congrArg Prod.snd same⟩
    · exact ⟨_, List.mem_append_right _ List.mem_cons_self, rfl, rfl⟩
  obtain ⟨row, member, same⟩ := listed
  exact ⟨row.id, Currencies.of_eq_some.mpr ⟨row, Table.find_of_mem member, same⟩⟩

/-! ## What is read back -/

/-- `getCurrencyID` answers with the row of the currency. -/
theorem eval_getCurrencyID : (getCurrencyID currency).eval (Stmt.run choice ()) w =
    some (orNotFound (orNoRows (w.db.currencies.of currency)), w) := rfl

theorem found_of_eval
    (answered : (getCurrencyID currency).eval (Stmt.run choice ()) w = some (.ok id, w)) :
    w.db.currencies.of currency = some id := by
  rw [eval_getCurrencyID] at answered
  cases found : w.db.currencies.of currency with
  | none =>
      rw [found] at answered
      cases answered
  | some other =>
      rw [found] at answered
      cases answered
      rfl

/-- What is read back is what the row stands for. -/
theorem eval_readBack {row : CurrencyRow} (looked : w.db.currencies.of currency = some id)
    (found : w.db.currencies.table.find id = some row) :
    (readBack currency).eval (Stmt.run choice ()) w = some (row.decode, w) := by
  have first : (getCurrencyID currency).eval (Stmt.run choice ()) w = some (.ok id, w) := by
    rw [eval_getCurrencyID, looked]
    rfl
  have later : (queryRow (.selectCurrency id)).eval (Stmt.run choice ()) w = some (.ok row, w) := by
    change some (orNotFound (orNoRows (w.db.currencies.table.find id)), w) = _
    rw [found]
    rfl
  rw [readBack, Prog.eval_bind first, getCurrencyByID, Prog.eval_bind later]
  rfl

/-- The rows of a saved currency are its own, and are read back as what they stand for. -/
theorem readsBack_of_decode {currencies : Currencies} {row : CurrencyRow}
    (looked : currencies.of currency = some id) (found : currencies.table.find id = some row) :
    currencies.ReadsBack currency ↔ row.decode = .ok currency := by
  constructor
  · intro back
    let w : World Unit := .idle ⟨currencies, .empty, [], .empty, .empty, .empty⟩
    let choice : Choice := ⟨0, [], [], [], true, .error .failed, .error .failed⟩
    have read := (back choice w rfl).1
    have ran : (readBack currency).eval (Stmt.run choice ()) w = some (row.decode, w) :=
      eval_readBack looked found
    exact congrArg Prod.fst (Option.some.inj (ran.symm.trans read))
  · rintro decoded choice w rfl
    refine ⟨by rw [eval_readBack looked found, decoded], fun other rowID ne answered same => ne ?_⟩
    exact Currencies.of_injective (found_of_eval answered) (found_of_eval same)

/-- **A saved currency is read back, exactly if its number fits 31 bits**, when it is an extra
currency. The database draws an ID that is new. -/
theorem readsBack_iff {currencies : Currencies} {id : UUID}
    (fresh : id ∉ currencies.table.rows.map CurrencyRow.id) (currency : Currency) :
    (StartUp.save currencies id currency).ReadsBack currency ↔
      ∀ n, currency = .extra n → n.toNat < 2 ^ 31 := by
  obtain ⟨rowID, looked⟩ := of_save fresh
  obtain ⟨row, found, type, info⟩ := Currencies.of_eq_some.mp looked
  rw [readsBack_of_decode looked found]
  constructor
  · rintro decoded n rfl
    exact CurrencyRow.decode_extra type info decoded
  · exact CurrencyRow.decode_of_saved type info

end ReadBack

/-! ## A large number -/

namespace Shop

attribute [local instance] Texts.libraries

/-- An extra currency with a small number, and one with a large number. -/
theorem small_extra_reads_back :
    (2 : UUID) ∉ currencies.table.rows.map CurrencyRow.id ∧
      (StartUp.save currencies 2 (.extra 100)).ReadsBack (.extra 100) :=
  ⟨by decide, (readsBack_iff (by decide) (.extra 100)).mpr fun n same => by
    cases same
    decide⟩

/-- The number 2 ^ 31 is saved, and its row cannot be read. -/
theorem large_extra_unreadable :
    (2 : UUID) ∉ currencies.table.rows.map CurrencyRow.id ∧
      ¬ (StartUp.save currencies 2 (.extra 2147483648)).ReadsBack (.extra 2147483648) := by
  have fresh : (2 : UUID) ∉ currencies.table.rows.map CurrencyRow.id := by decide
  refine ⟨fresh, fun back => ?_⟩
  obtain ⟨rowID, looked⟩ : ∃ rowID, (StartUp.save currencies 2 (.extra 2147483648)).of
      (.extra 2147483648) = some rowID := of_save fresh
  obtain ⟨row, found, type, info⟩ := Currencies.of_eq_some.mp looked
  have small := CurrencyRow.decode_extra type info ((readsBack_of_decode looked found).mp back)
  revert small
  decide

end Shop

end SpiceHarvester
