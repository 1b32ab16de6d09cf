import SpiceHarvester.Db.Currencies
import SpiceHarvester.Interleaving.Alone
import SpiceHarvester.Interleaving.Contract
import SpiceHarvester.StartUp.Calls

/-!
# Which accounts are tracked

`SaveCurrencies`, `GetTrackedAccounts` and `CreateAccount` of `pkg/db`, and
`getAccountsForTracking` of `cmd/api`, as programs over the calls. What `main` does up to
the loop that hands the accounts over is `prepare`; any error in it ends the process.

Then `main` sends one account after the other over a channel without a buffer, and
`runIndexer` tracks what it has received before it receives again (`HandOff.Step`).
-/

set_option autoImplicit false

namespace SpiceHarvester

open Interleaving Sql

namespace StartUp

/-- A function of the start-up. -/
abbrev Action (α : Type) := Prog Call Call.Val Err α

def perform (op : Call) : Action op.Val := Prog.query op

/-- Query one row. -/
def queryRow (op : Call) : Action op.Val := .call op fun answer => .ret (orNotFound answer)

/-- `map[ton.AccountID]core.AccountInfo`. -/
abbrev Tracked := Table Account.accountID

variable [Libraries]

/-! ## `pkg/db` -/

/-- `SaveCurrencies`. -/
def saveCurrencies (currencies : List (String × ExtendedCurrency)) : Action Unit := do
  let order : List (String × ExtendedCurrency) ← perform (.rangeCurrencies currencies)
  order.forM fun entry => perform (.insertCurrency entry.2.currency)

/-- The jettons among the currencies, as text. -/
def jettons (currencies : List (String × ExtendedCurrency)) : List String :=
  currencies.filterMap fun entry =>
    match entry.2.currency with
    | .jetton master => some (Libraries.toRaw master)
    | _ => none

/-- The loop of `GetTrackedAccounts` over its rows. -/
def scanTracked (owner : AccountID) (accounts : Tracked) :
    List (AccountID × ℕ × String) → Except Err Tracked
  | [] => .ok accounts
  | (address, startLt, info) :: rest =>
      match Libraries.parseAccountID info with
      | .error message => .error (.invalid message)
      | .ok jetton => scanTracked owner (accounts.put ⟨address, ⟨startLt, owner, some jetton⟩⟩) rest

/-- `GetAccountStartLT`. -/
def getAccountStartLT (account : AccountID) : Action ℕ := queryRow (.selectStartLt account)

/-- `GetTrackedAccounts`. -/
def getTrackedAccounts (recipient : AccountID) (currencies : List (String × ExtendedCurrency)) :
    Action Tracked := do
  let rows : List (AccountID × ℕ × String) ← perform (.selectTracked recipient (jettons currencies))
  let accounts ← .ret (scanTracked recipient .empty rows)
  match ← (getAccountStartLT recipient).attempt with
  | .error .notFound => return accounts
  | .error error => Prog.fail error
  | .ok startLt => return accounts.put ⟨recipient, ⟨startLt, recipient, none⟩⟩

/-- The row that `CreateAccount` inserts. -/
def accountRow (account : Account) (lastTx : TxID) (now : Time) : AccountRow where
  address := account.accountID
  lastProcessedLt := account.info.maxDepthLt
  lastTxLt := lastTx.lt
  lastTxHash := lastTx.hash
  startTxLt := account.info.maxDepthLt
  lastCheckedBlock := 0
  indexerTimestamp := timestamptz now

/-- The transaction of `createJettonAccount`. -/
def writeJettonAccount (account : Account) (lastTx : TxID) (currencyID : UUID) : Action Unit := do
  perform .begin
  let now ← perform .now
  perform (.insertAccountTx (accountRow account lastTx now))
  perform (.insertWalletTx ⟨currencyID, account.accountID, account.info.recipient⟩)
  perform .commit

/-- `createJettonAccount`. The deferred rollback does nothing after a commit. -/
def createJettonAccount (account : Account) (jetton : AccountID) (lastTx : TxID) :
    Action Unit := do
  let currencyID ← queryRow
    (.selectCurrencyID (Currency.jetton jetton).type (Currency.jetton jetton).condition)
  let result ← (writeJettonAccount account lastTx currencyID).attempt
  perform .rollback
  .ret result

/-- `CreateAccount`. -/
def createAccount (account : Account) (lastTx : TxID) : Action Unit :=
  match account.info.jetton with
  | some jetton => createJettonAccount account jetton lastTx
  | none => do
      let now ← perform .now
      perform (.insertAccount (accountRow account lastTx now))

/-- `LastProcessedLT`. -/
def lastProcessedLT (account : AccountID) : Action ℕ := perform (.selectLastProcessed account)

/-! ## `cmd/api` -/

/-- The accounts found so far, and those of them that are new. -/
structure Found where
  accounts : Tracked
  new : Tracked

/-- A new account, without its last transaction. -/
def Found.add (found : Found) (account : Account) : Found :=
  ⟨found.accounts.put account, found.new.put account⟩

/-- The body of the loop of `getAccountsForTracking` over the currencies. -/
def discover (recipient : AccountID) (found : Found) (currency : Currency) : Action Found :=
  match currency with
  | .extra _ => return found
  | .ton =>
      if (found.accounts.find recipient).isSome then return found
      else return found.add ⟨recipient, ⟨0, recipient, none⟩⟩
  | .jetton master => do
      if found.accounts.rows.any fun account =>
          decide (account.info.recipient = recipient ∧ account.info.jetton = some master) then
        return found
      else
        let wallet : AccountID ← perform (.getJettonWallet master recipient)
        return found.add ⟨wallet, ⟨0, recipient, some master⟩⟩

/-- The loop over the currencies. -/
def discoverAll (recipient : AccountID) : Found → List (String × ExtendedCurrency) → Action Found
  | found, [] => return found
  | found, entry :: rest => do
      let found ← discover recipient found entry.2.currency
      discoverAll recipient found rest

/-- The body of the loop of `getAccountsForTracking` over the new accounts. -/
def register (accounts : Tracked) (account : Account) : Action Tracked := do
  let txID : TxID ← perform (.getAccountState account.accountID)
  let account := { account with info := { account.info with maxDepthLt := txID.lt } }
  createAccount account txID
  return accounts.put account

/-- The loop over the new accounts. -/
def registerAll : Tracked → List Account → Action Tracked
  | accounts, [] => return accounts
  | accounts, account :: rest => do
      let accounts ← register accounts account
      registerAll accounts rest

/-- `getAccountsForTracking`. -/
def getAccountsForTracking (recipient : AccountID)
    (currencies : List (String × ExtendedCurrency)) : Action Tracked := do
  let accounts ← getTrackedAccounts recipient currencies
  let order : List (String × ExtendedCurrency) ← perform (.rangeCurrencies currencies)
  let found ← discoverAll recipient ⟨accounts, .empty⟩ order
  let new : List Account ← perform (.rangeAccounts found.new.rows)
  registerAll found.accounts new

/-- `main` up to its loop over the accounts: the accounts in the order of this loop. -/
def prepare (config : Config) : Action (List Account) := do
  saveCurrencies config.currencies.entries
  let accounts ← getAccountsForTracking config.recipient config.currencies.entries
  perform (.rangeAccounts accounts.rows)

/-! ## `pkg/indexer` -/

/-- `newIndexerWorker`: what it keeps in `lastIndexed`. -/
def newIndexerWorker (account : Account) : Action ℕ := lastProcessedLT account.accountID

/-- `trackAccount`. -/
def trackAccount (account : Account) : Action Unit := do
  let lastIndexed ← newIndexerWorker account
  perform (.goLoader account)
  perform (.goIndexer account lastIndexed)

/-! ## Runs -/

/-- Everything else that runs writes other columns of the accounts. -/
structure Tables.Works (tables tables' : Tables) : Prop where
  currencies : tables'.currencies = tables.currencies
  wallets : tables'.wallets = tables.wallets
  accounts : ∀ address, (tables'.accounts.find address).isSome = (tables.accounts.find address).isSome

/-- The process, and what `main` still has to run of `prepare`. -/
abbrev Starting : Type := Interleaving.Config Unit Call Call.Val Err (List Account) Process

/-- One process after the other, each with its own configuration: it starts, runs
`prepare`, and stops at any point. The rows of the workers may change until the next one
starts. -/
def system (chain : Chain) : System Unit Call Call.Val Err (List Account) Process where
  spawn _ p program p' :=
    ∃ config, program = prepare config ∧ p' = .start config p.tables
  exec _ op p answer p' := op.Does chain p answer p'
  retire _ _ p p' := p' = p
  crash p p' := ∃ tables, p.tables.Works tables ∧ p' = .start p.config tables

/-- After the migration there are no rows. -/
def Tables.empty : Tables := ⟨⟨⟨[], List.nodup_nil⟩, List.nodup_nil, by simp⟩, .empty, []⟩

/-- The state of `main` in its loop over the accounts and of `runIndexer`: the accounts
that `main` has still to send, and the one that `runIndexer` has received and not yet
handled. -/
structure HandOff where
  process : Process
  unsent : List Account
  taken : Option Account

/-- A step of `main` and `runIndexer`, with the calls that are made. An error of
`trackAccount` is logged. -/
inductive HandOff.Step (chain : Chain) : HandOff → List (Called Call Call.Val Err) → HandOff → Prop
  | send {p : Process} {account : Account} {rest : List Account} :
      Step chain ⟨p, account :: rest, none⟩ [] ⟨p, rest, some account⟩
  | track {p p' : Process} {unsent : List Account} {account : Account}
      {log : List (Called Call Call.Val Err)} {result : Except Err Unit}
      (runs : Alone (Call.Does chain) (trackAccount account) p log result p') :
      Step chain ⟨p, unsent, some account⟩ log ⟨p', unsent, none⟩
  | work {p : Process} {tables : Tables} {unsent : List Account} {taken : Option Account}
      (works : p.tables.Works tables) :
      Step chain ⟨p, unsent, taken⟩ [] ⟨{ p with tables := tables }, unsent, taken⟩

/-- Any number of steps. -/
inductive HandOff.Steps (chain : Chain) (start : HandOff) :
    List (Called Call Call.Val Err) → HandOff → Prop
  | refl : Steps chain start [] start
  | tail {log log' : List (Called Call Call.Val Err)} {h h' : HandOff}
      (before : Steps chain start log h) (step : HandOff.Step chain h log' h') :
      Steps chain start (log ++ log') h'

end StartUp

end SpiceHarvester
