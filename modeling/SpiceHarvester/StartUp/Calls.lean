import SpiceHarvester.Db.Statement
import SpiceHarvester.StartUp.Config

/-!
# What `main` calls on its way to serving

The statements and the calls of the lite server that `main` makes until it serves the
API, and what they do to the tables that say which accounts are tracked. The order in
which a range visits a map is an answer of its own. Every call that leaves the process
may fail, with or without an effect.

A jetton has one wallet for each owner: this is what `get_wallet_address` of its master
contract answers, when it answers (`Chain`).
-/

set_option autoImplicit false

namespace SpiceHarvester

open Sql

namespace StartUp

/-! ## Calls -/

/-- A row of `payments.jetton_wallets`. -/
structure JettonWalletRow where
  currency : UUID
  address : AccountID
  owner : AccountID
  deriving DecidableEq

/-- What `main`, and `runIndexer` beside it, call. -/
inductive Call where
  | now
  | rangeCurrencies (currencies : List (String × ExtendedCurrency))
  | rangeAccounts (accounts : List Account)
  | insertCurrency (currency : Currency)
  | selectCurrencyID (type : CurrencyType) (info : Option String)
  | selectTracked (owner : AccountID) (jettons : List String)
  | selectStartLt (account : AccountID)
  | insertAccount (row : AccountRow)
  | begin
  | insertAccountTx (row : AccountRow)
  | insertWalletTx (row : JettonWalletRow)
  | commit
  | rollback
  | getJettonWallet (jetton owner : AccountID)
  | getAccountState (account : AccountID)
  | selectLastProcessed (account : AccountID)
  | goLoader (account : Account)
  | goIndexer (account : Account) (lastIndexed : ℕ)

/-- What a call answers when it does not fail. -/
@[reducible] def Call.Val : Call → Type
  | .now => Time
  | .rangeCurrencies _ => List (String × ExtendedCurrency)
  | .rangeAccounts _ => List Account
  | .selectCurrencyID .. => UUID
  | .selectTracked .. => List (AccountID × ℕ × String)
  | .selectStartLt _ => ℕ
  | .getJettonWallet .. => AccountID
  | .getAccountState _ => TxID
  | .selectLastProcessed _ => ℕ
  | _ => Unit

/-- What stays within the process does not fail. -/
def Call.canFail : Call → Bool
  | .now | .rangeCurrencies _ | .rangeAccounts _ | .rollback | .goLoader _ | .goIndexer .. => false
  | _ => true

/-! ## State -/

variable [Libraries]

/-- The tables that say which accounts are tracked. -/
structure Tables where
  currencies : Currencies
  accounts : Table AccountRow.address
  wallets : List JettonWalletRow

/-- The rows that the open transaction of `createJettonAccount` has inserted. -/
structure Pending where
  account : Option AccountRow
  wallet : Option JettonWalletRow

/-- The process: its tables, its open transaction, and the workers that run in it. -/
structure Process where
  config : Config
  tables : Tables
  tx : Option Pending
  loaders : List Account
  indexers : List (Account × ℕ)

/-- The process just after its start. -/
def Process.start (config : Config) (tables : Tables) : Process := ⟨config, tables, none, [], []⟩

/-- The wallets of the jettons. -/
structure Chain where
  wallet : (jetton owner : AccountID) → AccountID

/-- What the outside fixes about the next answer. -/
structure Choice where
  clock : Time
  currencies : List (String × ExtendedCurrency)
  accounts : List Account
  rows : List (AccountID × ℕ × String)
  id : UUID
  state : TxID

/-! ## Effects -/

/-- `INSERT INTO payments.currencies ... ON CONFLICT DO NOTHING`, with the ID that the
database draws. -/
def save (currencies : Currencies) (id : UUID) (currency : Currency) : Currencies :=
  if conflict : id ∈ currencies.table.rows.map CurrencyRow.id ∨
      (currency.type, currency.info) ∈ currencies.table.rows.map (fun row => (row.type, row.info)) then
    currencies
  else {
    table := {
      rows := currencies.table.rows ++ [⟨id, currency.type, currency.info⟩]
      unique := by
        rw [List.map_append, List.map_singleton]
        exact currencies.table.unique.append (List.nodup_singleton _)
          (List.disjoint_singleton.mpr fun taken => conflict (.inl taken)) }
    distinct := by
      rw [List.map_append, List.map_singleton]
      exact currencies.distinct.append (List.nodup_singleton _)
        (List.disjoint_singleton.mpr fun taken => conflict (.inr taken))
    saved := by
      intro row member
      rcases List.mem_append.mp member with old | new
      · exact currencies.saved row old
      · rw [List.mem_singleton.mp new]
        exact ⟨currency, rfl, rfl⟩ }

/-- The rows of `GetTrackedAccounts`. Its outer joins find a row, by the foreign keys. -/
def Tables.tracked (tables : Tables) (owner : AccountID) (jettons : List String) :
    List (AccountID × ℕ × String) :=
  tables.wallets.filterMap fun wallet => do
    let currency ← tables.currencies.table.find wallet.currency
    let account ← tables.accounts.find wallet.address
    if wallet.owner = owner ∧ currency.info ∈ jettons then
      some (account.address, account.startTxLt, currency.info)
    else none

/-- `COMMIT` of the rows that have been inserted. -/
def Tables.commit (tables : Tables) (pending : Pending) : Option Tables :=
  match pending.account with
  | none => some { tables with wallets := tables.wallets ++ pending.wallet.toList }
  | some row => (tables.accounts.insert? row).map fun accounts =>
      { tables with accounts := accounts, wallets := tables.wallets ++ pending.wallet.toList }

/-- The account is stored, or about to be by the open transaction. -/
def Process.knows (process : Process) (address : AccountID) : Bool :=
  (process.tables.accounts.find address).isSome ||
    process.tx.any fun pending => pending.account.any fun row => decide (row.address = address)

/-- What a call answers and does. There is no result when the choice is not one it has. -/
def Call.run (chain : Chain) (choice : Choice) :
    (op : Call) → Process → Option (Except Err op.Val × Process)
  | .now, p => some (.ok choice.clock, p)
  | .rangeCurrencies currencies, p =>
      if choice.currencies.Perm currencies then some (.ok choice.currencies, p) else none
  | .rangeAccounts accounts, p =>
      if choice.accounts.Perm accounts then some (.ok choice.accounts, p) else none
  | .insertCurrency currency, p =>
      some (.ok (), { p with tables := { p.tables with
        currencies := save p.tables.currencies choice.id currency } })
  | .selectCurrencyID type info, p => some (orNoRows (p.tables.currencies.idOf type info), p)
  | .selectTracked owner jettons, p =>
      if choice.rows.Perm (p.tables.tracked owner jettons) then some (.ok choice.rows, p) else none
  | .selectStartLt account, p =>
      some (orNoRows ((p.tables.accounts.find account).map AccountRow.startTxLt), p)
  | .insertAccount row, p =>
      match p.tables.accounts.insert? row with
      | some accounts => some (.ok (), { p with tables := { p.tables with accounts := accounts } })
      | none => some (.error .failed, p)
  | .begin, p => some (.ok (), { p with tx := some ⟨none, none⟩ })
  | .insertAccountTx row, p =>
      if p.knows row.address then some (.error .failed, p)
      else some (.ok (), { p with tx := p.tx.map fun pending => { pending with account := some row } })
  | .insertWalletTx row, p =>
      if p.knows row.address && (p.tables.currencies.table.find row.currency).isSome then
        some (.ok (), { p with tx := p.tx.map fun pending => { pending with wallet := some row } })
      else some (.error .failed, p)
  | .commit, p =>
      match p.tx.bind p.tables.commit with
      | some tables => some (.ok (), { p with tables := tables, tx := none })
      | none => some (.error .failed, { p with tx := none })
  | .rollback, p => some (.ok (), { p with tx := none })
  | .getJettonWallet jetton owner, p => some (.ok (chain.wallet jetton owner), p)
  | .getAccountState _, p => some (.ok choice.state, p)
  | .selectLastProcessed account, p =>
      some (orNoRows ((p.tables.accounts.find account).map AccountRow.lastProcessedLt), p)
  | .goLoader account, p => some (.ok (), { p with loaders := p.loaders ++ [account] })
  | .goIndexer account lastIndexed, p =>
      some (.ok (), { p with indexers := p.indexers ++ [(account, lastIndexed)] })

/-- A call under a fault: refused before it takes effect, or effective without its answer. -/
def Call.runUnder (chain : Chain) (fault : Fault) (choice : Choice) (op : Call) (p : Process) :
    Option (Except Err op.Val × Process) :=
  match fault with
  | .none => op.run chain choice p
  | .refused => if op.canFail then some (.error .failed, p) else none
  | .lost => if op.canFail then (op.run chain choice p).map fun done => (.error .failed, done.2) else none

/-- A call, whatever fails and whatever the outside answers. -/
def Call.Does (chain : Chain) (op : Call) (p : Process) (answer : Except Err op.Val)
    (p' : Process) : Prop :=
  ∃ fault choice, op.runUnder chain fault choice p = some (answer, p')

/-- A call that takes effect, or one that does not. -/
theorem Call.Does.cases {chain : Chain} {op : Call} {p p' : Process} {answer : Except Err op.Val}
    (does : op.Does chain p answer p') :
    (∃ choice, op.run chain choice p = some (answer, p')) ∨
      op.canFail = true ∧ answer = .error .failed ∧
        (p' = p ∨ ∃ choice lost, op.run chain choice p = some (lost, p')) := by
  obtain ⟨fault, choice, runs⟩ := does
  cases fault with
  | none => exact .inl ⟨choice, runs⟩
  | refused =>
      simp only [runUnder, Option.ite_none_right_eq_some, Option.some.injEq, Prod.mk.injEq] at runs
      exact .inr ⟨runs.1, runs.2.1.symm, .inl runs.2.2.symm⟩
  | lost =>
      simp only [runUnder, Option.ite_none_right_eq_some, Option.map_eq_some_iff, Prod.mk.injEq]
        at runs
      obtain ⟨may, ⟨lost, p₁⟩, ran, rfl, rfl⟩ := runs
      exact .inr ⟨may, rfl, .inr ⟨choice, lost, ran⟩⟩

end StartUp

end SpiceHarvester
