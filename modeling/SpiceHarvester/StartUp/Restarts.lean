import SpiceHarvester.Core.Texts
import SpiceHarvester.Interleaving.Stopped
import SpiceHarvester.Schedule
import SpiceHarvester.StartUp.Discovery

/-!
# Start after start

The service is started again and again, each time with a configuration of its own. A start
runs `getAccountsForTracking` after `SaveCurrencies` (`track`); it fails or is stopped at
any point, or it comes to its end and the service runs until the next start. The workers
of a service that runs write other columns of the accounts (`Tables.Serves`).

Where the wallets of the jettons are distinct accounts, a start that returns has found one
account for each jetton and that of the recipient, with the logical times from which their
rows are indexed (`Tracks`). Once it has, a start with the same configuration finds all of
them in the tables (`Settled`), and creates none.
-/

set_option autoImplicit false

namespace SpiceHarvester

open Interleaving Sql

namespace StartUp

section Starts

variable [Libraries]

/-! ## The history of the starts -/

/-- `main` up to the return of `getAccountsForTracking`. -/
def track (config : Config) : Action Tracked := do
  saveCurrencies config.currencies.entries
  getAccountsForTracking config.recipient config.currencies.entries

theorem prepare_eq (config : Config) :
    prepare config = track config >>= fun accounts => perform (.rangeAccounts accounts.rows) := by
  rw [prepare, track, bind_assoc]

/-- What the workers of a service that runs leave alone. -/
structure Tables.Serves (tables tables' : Tables) : Prop where
  currencies : tables'.currencies = tables.currencies
  wallets : tables'.wallets = tables.wallets
  startLts : ∀ address, (tables'.accounts.find address).map AccountRow.startTxLt =
    (tables.accounts.find address).map AccountRow.startTxLt

/-- The rows of accounts that are new. -/
def Tables.created (tables tables' : Tables) : List AccountRow :=
  tables'.accounts.rows.filter fun row => (tables.accounts.find row.address).isNone

/-- A process, with the rows of accounts that have been created up to now. -/
structure Recorded where
  process : Process
  created : List AccountRow

/-- A call, with the rows that it creates. -/
structure Recorded.Does (chain : Chain) (op : Call) (s : Recorded) (answer : Except Err op.Val)
    (s' : Recorded) : Prop where
  does : op.Does chain s.process answer s'.process
  created : s'.created = s.created ++ s.process.tables.created s'.process.tables

/-- Between two starts: the tables, and the rows of accounts that the starts have created. -/
structure History where
  tables : Tables
  created : List AccountRow

/-- The next process, just after its start. -/
def History.start (h : History) (config : Config) : Recorded :=
  ⟨.start config h.tables, h.created⟩

/-- What a start leaves behind. -/
def Recorded.stop (s : Recorded) : History := ⟨s.process.tables, s.created⟩

/-- A start, stopped at any point, or the work of the service. -/
inductive History.Step (chain : Chain) : History → History → Prop where
  | start {h : History} {config : Config} {rest : Action Tracked} {s : Recorded}
      (runs : Partly (Recorded.Does chain) (track config) (h.start config) rest s) : Step chain h s.stop
  | serve {h : History} {tables : Tables} (serves : h.tables.Serves tables) :
      Step chain h ⟨tables, h.created⟩

/-- Any number of starts. -/
abbrev History.Steps (chain : Chain) : History → History → Prop :=
  Relation.ReflTransGen (History.Step chain)

/-- The jetton is configured. -/
def Config.Lists (config : Config) (master : AccountID) : Prop :=
  ∃ entry ∈ config.currencies.entries, entry.2.currency = .jetton master

/-- The jettons have wallets of their own. -/
structure Chain.Distinct (chain : Chain) (recipient : AccountID) : Prop where
  wallets : ∀ {master master'}, chain.wallet master recipient = chain.wallet master' recipient →
    master = master'
  own : ∀ master, chain.wallet master recipient ≠ recipient

/-- The accounts are those of the recipient and of its wallets for the jettons of the
configuration, each with the logical time that is stored for it. -/
structure Tracks (chain : Chain) (config : Config) (tables : Tables) (accounts : Tracked) : Prop where
  own : ∃ row, tables.accounts.find config.recipient = some row ∧
    accounts.find config.recipient =
      some ⟨config.recipient, ⟨row.startTxLt, config.recipient, none⟩⟩
  wallets : ∀ master, config.Lists master →
    ∃ row, tables.accounts.find (chain.wallet master config.recipient) = some row ∧
      accounts.find (chain.wallet master config.recipient) =
        some ⟨chain.wallet master config.recipient,
          ⟨row.startTxLt, config.recipient, some master⟩⟩
  only : ∀ account ∈ accounts.rows, account.accountID = config.recipient ∨
    ∃ master, config.Lists master ∧ account.accountID = chain.wallet master config.recipient

/-! ## What lasts -/

/-- The rows of before are still there, as they were. -/
structure Tables.Extends (tables tables' : Tables) : Prop where
  currencies : ∀ {id row}, tables.currencies.table.find id = some row →
    tables'.currencies.table.find id = some row
  accounts : ∀ row ∈ tables.accounts.rows, row ∈ tables'.accounts.rows
  wallets : ∀ row ∈ tables.wallets, row ∈ tables'.wallets

theorem Tables.Extends.find {tables tables' : Tables} (extends_ : tables.Extends tables')
    {address : AccountID} {row : AccountRow} (found : tables.accounts.find address = some row) :
    tables'.accounts.find address = some row := by
  obtain ⟨member, key⟩ := Table.find_eq_some.mp found
  exact Table.find_eq_some.mpr ⟨extends_.accounts row member, key⟩

theorem Tables.Extends.refl (tables : Tables) : tables.Extends tables :=
  ⟨fun found => found, fun _ member => member, fun _ member => member⟩

theorem Tables.Extends.trans {tables tables' tables'' : Tables} (first : tables.Extends tables')
    (later : tables'.Extends tables'') : tables.Extends tables'' where
  currencies := fun found => later.currencies (first.currencies found)
  accounts := fun row member => later.accounts row (first.accounts row member)
  wallets := fun row member => later.wallets row (first.wallets row member)

omit [Libraries] in
theorem mem_of_insert {accounts accounts' : Table AccountRow.address} {row : AccountRow}
    (inserted : accounts.insert? row = some accounts') :
    ∀ other ∈ accounts.rows, other ∈ accounts'.rows := by
  unfold Table.insert? at inserted
  split at inserted
  · cases inserted
  · cases inserted
    exact fun other member => List.mem_append_left _ member

theorem Process.Writes.extends {p : Process} {tables : Tables} (writes : p.Writes tables) :
    p.tables.Extends tables := by
  cases writes with
  | nothing => exact .refl _
  | currency id currency => exact ⟨find_save, fun _ member => member, fun _ member => member⟩
  | account inserted => exact ⟨fun found => found, mem_of_insert inserted, fun _ member => member⟩
  | @commit pending _ opened committed =>
      unfold Tables.commit at committed
      split at committed
      · cases committed
        exact ⟨fun found => found, fun _ member => member,
          fun row member => List.mem_append_left _ member⟩
      · obtain ⟨accounts, inserted, rfl⟩ := Option.map_eq_some_iff.mp committed
        exact ⟨fun found => found, mem_of_insert inserted,
          fun row member => List.mem_append_left _ member⟩

variable {chain : Chain} {p p' : Process}

/-- **No call of a start changes a row.** -/
theorem Call.Does.extends {op : Call} {answer : Except Err op.Val}
    (does : op.Does chain p answer p') : p.tables.Extends p'.tables := by
  rcases does.cases with ⟨_, ran⟩ | ⟨_, _, rfl | ⟨_, _, ran⟩⟩
  · exact (run_writes ran).2.extends
  · exact .refl _
  · exact (run_writes ran).2.extends

/-! ## What is recorded of an account -/

/-- An account without a jetton is the recipient. -/
def Own (account : Account) : Prop :=
  account.info.jetton = none → account.accountID = account.info.recipient

theorem Tables.HasWallet.extends {tables tables' : Tables} {address recipient master : AccountID}
    (has : tables.HasWallet address recipient master) (extends_ : tables.Extends tables') :
    tables'.HasWallet address recipient master := by
  obtain ⟨wallet, member, same, owner, found⟩ := has
  exact ⟨wallet, extends_.wallets wallet member, same, owner, extends_.currencies found⟩

theorem Process.Records.extends {account : Account} (extends_ : p.tables.Extends p'.tables)
    (records : p.Records account) : p'.Records account where
  row := by
    obtain ⟨row, found, startLt⟩ := records.row
    exact ⟨row, extends_.find found, startLt⟩
  wallet := fun master jetton => (records.wallet master jetton).extends extends_

section Functions

variable {config : Config}

/-- The rows of `GetTrackedAccounts` are those of recorded accounts. -/
theorem tracked_records (sound : p.Sound chain) {row : AccountID × ℕ × String}
    (member : row ∈ p.tables.tracked config.recipient (jettons config.currencies.entries)) :
    ∃ master, row.2.2 = Libraries.toRaw master ∧
      p.Records ⟨row.1, ⟨row.2.1, config.recipient, some master⟩⟩ := by
  obtain ⟨wallet, stored, joined⟩ := List.mem_filterMap.mp member
  obtain ⟨currency, found, joined⟩ := Option.bind_eq_some_iff.mp joined
  obtain ⟨account, found', joined⟩ := Option.bind_eq_some_iff.mp joined
  simp only [Option.ite_none_right_eq_some, Option.some.injEq] at joined
  obtain ⟨⟨owner, _⟩, rfl⟩ := joined
  obtain ⟨master, right, _⟩ := sound.wallets wallet stored
  rw [found, Option.some.injEq] at right
  have key : account.address = wallet.address := Table.key_of_find found'
  refine ⟨master, by rw [right]; rfl, ⟨account, key ▸ found', rfl⟩, fun other same => ?_⟩
  cases same
  exact ⟨wallet, stored, key.symm, owner, found.trans (congrArg some right)⟩

/-- Every account found so far is recorded, or among the new ones. -/
structure Traced (accounts : Tracked) (new : AccountID → Prop) (p : Process) : Prop where
  own : ∀ account ∈ accounts.rows, Own account
  held : ∀ account ∈ accounts.rows, p.Records account ∨ new account.accountID

theorem Traced.extends {accounts : Tracked} {new : AccountID → Prop}
    (extends_ : p.tables.Extends p'.tables) (traced : Traced accounts new p) :
    Traced accounts new p' where
  own := traced.own
  held := fun account member => (traced.held account member).imp_left (.extends extends_)

/-- An account is put to the others, which are recorded or still new. -/
theorem Traced.put {accounts : Tracked} {new new' : AccountID → Prop} {account : Account}
    (traced : Traced accounts new p) (own : Own account)
    (held : p.Records account ∨ new' account.accountID)
    (still : ∀ address, address ≠ account.accountID → new address → new' address) :
    Traced (accounts.put account) new' p where
  own := by
    intro other member
    rcases Table.mem_put.mp member with ⟨old, _⟩ | rfl
    · exact traced.own other old
    · exact own
  held := by
    intro other member
    rcases Table.mem_put.mp member with ⟨old, ne⟩ | rfl
    · exact (traced.held other old).imp_right (still _ ne)
    · exact held

theorem scanTracked_traced {rows : List (AccountID × ℕ × String)} {accounts accounts' : Tracked}
    (traced : Traced accounts (fun _ => False) p)
    (right : ∀ row ∈ rows, ∃ master, row.2.2 = Libraries.toRaw master ∧
      p.Records ⟨row.1, ⟨row.2.1, config.recipient, some master⟩⟩)
    (scanned : scanTracked config.recipient accounts rows = .ok accounts') :
    Traced accounts' (fun _ => False) p := by
  induction rows generalizing accounts with
  | nil =>
      cases scanned
      exact traced
  | cons row rest ih =>
      obtain ⟨address, startLt, info⟩ := row
      obtain ⟨master, same, records⟩ := right _ List.mem_cons_self
      simp only [scanTracked, show info = Libraries.toRaw master from same,
        Libraries.parse_toRaw] at scanned
      have own : Own ⟨address, ⟨startLt, config.recipient, some master⟩⟩ :=
        fun none => absurd none (Option.some_ne_none master)
      exact ih (traced.put own (.inl records) fun _ _ none => none)
        (fun row member => right row (.tail _ member)) scanned

theorem getTrackedAccounts_traced :
    Ensures chain (fun _ => True) (getTrackedAccounts config.recipient config.currencies.entries)
      fun accounts p => Traced accounts (fun _ => False) p := by
  refine .bind (R := fun rows p => ∀ row ∈ rows, ∃ master, row.2.2 = Libraries.toRaw master ∧
      p.Records ⟨row.1, ⟨row.2.1, config.recipient, some master⟩⟩)
    (.call (fun _ _ => trivial) ?_) fun rows => ?_
  · intro p choice rows p' sound _ runs row member
    simp only [Call.run, Option.ite_none_right_eq_some, Option.some.injEq, Prod.mk.injEq,
      Except.ok.injEq] at runs
    obtain ⟨perm, rfl, rfl⟩ := runs
    exact tracked_records sound (perm.mem_iff.mp member)
  refine .bind (R := fun accounts p => Traced accounts (fun _ => False) p)
    (.ret fun right accounts scanned => ?_) fun accounts => ?_
  · rename_i p
    have none : Traced .empty (fun _ => False) p :=
      ⟨fun _ member => absurd member List.not_mem_nil, fun _ member => absurd member List.not_mem_nil⟩
    exact scanTracked_traced none right scanned
  refine .weaken (Contract.Returns.attempt_bind (F := Traced accounts fun _ => False)
    (R := fun startLt p => ∃ row, p.tables.accounts.find config.recipient = some row ∧
      row.startTxLt = startLt) (P := fun _ => True) startUp_undisturbed
    (Ensures.queryRow (.call (fun _ _ => trivial) ?_)) (fun does => .extends does.extends)
    fun result => ?_) (fun traced => ⟨traced, trivial⟩) fun traced => traced
  · intro p choice startLt p' _ _ runs
    simp only [Call.run, Option.some.injEq, Prod.mk.injEq] at runs
    obtain ⟨answer, rfl⟩ := runs
    cases found : p.tables.accounts.find config.recipient with
    | none =>
        rw [found] at answer
        cases answer
    | some row =>
        rw [found] at answer
        cases answer
        exact ⟨row, rfl, rfl⟩
  · split
    · exact Ensures.pure fun holds => holds.1
    · exact Ensures.ret fun _ value impossible => by cases impossible
    · rename_i startLt
      refine Ensures.pure fun {p} holds => holds.1.put (fun _ => rfl) (.inl ?_) fun _ _ none => none
      refine ⟨holds.2 startLt rfl, ?_⟩
      rintro _ ⟨⟩

/-- The accounts found so far, with the new ones among them. -/
structure Found.Traced (found : Found) (p : Process) : Prop where
  accounts : StartUp.Traced found.accounts (fun address => (found.new.find address).isSome) p
  new : ∀ account ∈ found.new.rows, Own account

theorem Found.Traced.add {found : Found} {account : Account} (traced : found.Traced p)
    (own : Own account) : (found.add account).Traced p where
  accounts := traced.accounts.put own (.inr (isSome_put.mpr (.inl rfl)))
    fun _ _ new => isSome_put.mpr (.inr new)
  new := by
    intro other member
    rcases Table.mem_put.mp member with ⟨old, _⟩ | rfl
    · exact traced.new other old
    · exact own

theorem discover_traced (found : Found) (currency : Currency) :
    Ensures chain found.Traced (discover config.recipient found currency)
      fun found' p => found'.Traced p := by
  cases currency with
  | extra id => exact .pure fun traced => traced
  | ton =>
      simp only [discover]
      split
      · exact .pure fun traced => traced
      · exact .pure fun traced => traced.add fun _ => rfl
  | jetton master =>
      simp only [discover]
      split
      · exact .pure fun traced => traced
      · refine .bind (R := fun _ => found.Traced) (.call (fun _ _ => trivial) ?_) fun wallet =>
          .pure fun traced => traced.add fun none => absurd none (Option.some_ne_none master)
        intro p choice wallet p' _ traced runs
        exact ⟨traced.accounts.extends (Call.run_writes runs).2.extends, traced.new⟩

theorem discoverAll_traced (found : Found) (order : List (String × ExtendedCurrency)) :
    Ensures chain found.Traced (discoverAll config.recipient found order)
      fun found' p => found'.Traced p := by
  induction order generalizing found with
  | nil => exact .pure fun traced => traced
  | cons entry rest ih => exact .bind (discover_traced found entry.2.currency) ih

theorem register_traced {accounts : Tracked} {account : Account} {rest : List Account}
    (expected : Expected chain config account) (own : Own account) :
    Ensures chain (Traced accounts fun address => ∃ new ∈ account :: rest, new.accountID = address)
      (register accounts account) fun accounts' p =>
        Traced accounts' (fun address => ∃ new ∈ rest, new.accountID = address) p := by
  refine .bind (R := fun _ => Traced accounts fun address =>
    ∃ new ∈ account :: rest, new.accountID = address) (.call (fun _ _ => trivial) ?_) fun txID => ?_
  · intro p choice answer p' _ traced runs
    exact traced.extends (Call.run_writes runs).2.extends
  refine .bind (R := fun _ p => Traced accounts (fun address =>
      ∃ new ∈ account :: rest, new.accountID = address) p ∧
      p.Records { account with info := { account.info with maxDepthLt := txID.lt } })
    (.weaken (Contract.Returns.frame startUp_undisturbed
      (createAccount_ensures (expected.refresh txID.lt) txID) fun does => .extends does.extends)
      (fun traced => ⟨traced, trivial⟩) fun holds => holds) fun _ => .pure fun holds => ?_
  refine holds.1.put own (.inl holds.2) fun address ne new => ?_
  obtain ⟨other, member, same⟩ := new
  rcases List.mem_cons.mp member with rfl | later
  · exact absurd same.symm ne
  · exact ⟨other, later, same⟩

theorem registerAll_traced (accounts : Tracked) {new : List Account}
    (right : ∀ account ∈ new, Expected chain config account ∧ Own account) :
    Ensures chain (Traced accounts fun address => ∃ account ∈ new, account.accountID = address)
      (registerAll accounts new) fun accounts' p => Traced accounts' (fun _ => False) p := by
  induction new generalizing accounts with
  | nil =>
      refine .pure fun traced => ⟨traced.own, fun account member => .inl ?_⟩
      rcases traced.held account member with records | ⟨_, none, _⟩
      · exact records
      · cases none
  | cons account rest ih =>
      obtain ⟨expected, own⟩ := right account List.mem_cons_self
      exact .bind (register_traced expected own) fun accounts' =>
        ih accounts' fun account member => right account (.tail _ member)

theorem getAccountsForTracking_traced :
    Ensures chain (fun _ => True)
      (getAccountsForTracking config.recipient config.currencies.entries)
      fun accounts p => Traced accounts (fun _ => False) p := by
  refine .bind (.weaken (.both getTrackedAccounts_ensures getTrackedAccounts_traced)
    (fun holds => ⟨holds, holds⟩) fun holds => holds) fun accounts => ?_
  refine .bind (R := fun order p => order.Perm config.currencies.entries ∧
    Known chain config p accounts ∧ Traced accounts (fun _ => False) p)
    (.call (fun _ _ => trivial) ?_) fun order => ?_
  · intro p choice order p' _ known runs
    simp only [Call.run, Option.ite_none_right_eq_some, Option.some.injEq, Prod.mk.injEq,
      Except.ok.injEq] at runs
    obtain ⟨perm, rfl, rfl⟩ := runs
    exact ⟨perm, known⟩
  rintro p sound ⟨perm, known, traced⟩
  have sought : Sought chain config ⟨accounts, .empty⟩ p :=
    ⟨fun account member => ⟨(known account member).1, .inl (known account member).2⟩,
      fun _ none => by cases none⟩
  have start : Found.Traced ⟨accounts, .empty⟩ p :=
    ⟨⟨traced.own, fun account member => (traced.held account member).imp_right False.elim⟩,
      fun _ none => by cases none⟩
  have discovered : Ensures chain (fun p => Sought chain config ⟨accounts, .empty⟩ p ∧
      Found.Traced ⟨accounts, .empty⟩ p) (discoverAll config.recipient ⟨accounts, .empty⟩ order)
      fun found p => Sought chain config found p ∧ found.Traced p :=
    .weaken (.both (discoverAll_ensures _ fun entry member => perm.mem_iff.mp member)
      (discoverAll_traced _ order)) (fun holds => holds) fun holds => ⟨holds.1.1, holds.2⟩
  refine discovered.bind (fun found => ?_) p sound ⟨sought, start⟩
  refine .bind (R := fun new p => new.Perm found.new.rows ∧ Sought chain config found p ∧
    found.Traced p) (.call (fun _ _ => trivial) ?_) fun new => ?_
  · intro p choice new p' _ holds runs
    simp only [Call.run, Option.ite_none_right_eq_some, Option.some.injEq, Prod.mk.injEq,
      Except.ok.injEq] at runs
    obtain ⟨perm, rfl, rfl⟩ := runs
    exact ⟨perm, holds⟩
  rintro p sound ⟨perm, sought, traced⟩
  have right : ∀ account ∈ new, Expected chain config account ∧ Own account := fun account member =>
    ⟨(sought.new account (perm.mem_iff.mp member)).1, traced.new account (perm.mem_iff.mp member)⟩
  refine registerAll_traced found.accounts right p sound
    ⟨traced.accounts.own, fun account member => (traced.accounts.held account member).imp_right ?_⟩
  intro held
  obtain ⟨other, found⟩ := Option.isSome_iff_exists.mp held
  exact ⟨other, perm.mem_iff.mpr (Table.find_eq_some.mp found).1, Table.key_of_find found⟩

omit [Libraries] in
theorem Config.lists_of_receiver {account : Account} (expected : Expected chain config account) :
    account.accountID = config.recipient ∨
      ∃ master, config.Lists master ∧ account.accountID = chain.wallet master config.recipient := by
  obtain ⟨entry, listed, same⟩ := expected.listed
  cases currency : entry.2.currency with
  | ton => exact .inl (by rw [← same, currency]; rfl)
  | extra id => exact .inl (by rw [← same, currency]; rfl)
  | jetton master => exact .inr ⟨master, ⟨entry, listed, currency⟩, by rw [← same, currency]; rfl⟩

theorem Process.Records.entry {accounts : Tracked} {account : Account} {address : AccountID}
    {jetton : Option AccountID} (records : p.Records account)
    (found : accounts.find address = some account) (kind : account.info.jetton = jetton) :
    ∃ row, p.tables.accounts.find address = some row ∧
      accounts.find address = some ⟨address, ⟨row.startTxLt, account.info.recipient, jetton⟩⟩ := by
  obtain ⟨row, stored, startLt⟩ := records.row
  have key : account.accountID = address := Table.key_of_find found
  obtain ⟨address', ⟨lt, recipient, jetton'⟩⟩ := account
  cases key
  cases kind
  cases startLt
  exact ⟨row, stored, found⟩

theorem track_calls : Ensures chain (fun _ => True) (track config) fun _ _ => True :=
  .bind (saveCurrencies_ensures _) fun _ =>
    .weaken getAccountsForTracking_ensures (fun _ => trivial) fun _ => trivial

/-- **A start that returns has found the accounts of the configuration**, with what is
stored of them. -/
theorem track_ensures (distinct : chain.Distinct config.recipient) :
    Ensures chain (fun _ => True) (track config) fun accounts p =>
      Tracks chain config p.tables accounts ∧ ∀ account ∈ accounts.rows,
        Expected chain config account ∧ p.Records account := by
  refine .bind (saveCurrencies_ensures _) fun _ => .weaken
    (.both getAccountsForTracking_ensures getAccountsForTracking_traced)
    (fun _ => ⟨trivial, trivial⟩) ?_
  rintro accounts p ⟨⟨known, covers⟩, traced⟩
  have right : ∀ account ∈ accounts.rows, Expected chain config account ∧ p.Records account :=
    fun account member => ⟨(known account member).1, (traced.held account member).resolve_right id⟩
  refine ⟨⟨?_, ?_, fun account member => Config.lists_of_receiver (right account member).1⟩, right⟩
  · have covered : (accounts.find config.recipient).isSome := covers _ config.currencies.ton
    obtain ⟨account, found⟩ := Option.isSome_iff_exists.mp covered
    obtain ⟨expected, records⟩ := right account (Table.find_eq_some.mp found).1
    have key : account.accountID = config.recipient := Table.key_of_find found
    have kind : account.info.jetton = none := by
      cases jetton : account.info.jetton with
      | none => rfl
      | some master =>
          have wallet := expected.wallet master jetton
          rw [key, expected.recipient] at wallet
          exact absurd wallet.symm (distinct.own master)
    have entry := records.entry found kind
    rw [expected.recipient] at entry
    exact entry
  · rintro master ⟨entry, listed, currency⟩
    have covered := covers entry listed
    rw [currency] at covered
    obtain ⟨account, found⟩ := Option.isSome_iff_exists.mp covered
    have member := (Table.find_eq_some.mp found).1
    obtain ⟨expected, records⟩ := right account member
    have key : account.accountID = chain.wallet master config.recipient := Table.key_of_find found
    have kind : account.info.jetton = some master := by
      cases jetton : account.info.jetton with
      | none =>
          have own := traced.own account member jetton
          rw [key, expected.recipient] at own
          exact absurd own (distinct.own master)
      | some other =>
          have wallet := expected.wallet other jetton
          rw [key, expected.recipient] at wallet
          rw [distinct.wallets wallet]
    have entry := records.entry found kind
    rw [expected.recipient] at entry
    exact entry

/-! ## Where all is found -/

/-- Everything that a start needs is in the tables. -/
structure Settled (chain : Chain) (config : Config) (tables : Tables) : Prop where
  own : (tables.accounts.find config.recipient).isSome
  wallets : ∀ master, config.Lists master →
    (tables.accounts.find (chain.wallet master config.recipient)).isSome ∧
      tables.HasWallet (chain.wallet master config.recipient) config.recipient master

theorem Tracks.settled {accounts : Tracked}
    (tracks : Tracks chain config p.tables accounts)
    (records : ∀ account ∈ accounts.rows, p.Records account) : Settled chain config p.tables where
  own := by
    obtain ⟨row, found, _⟩ := tracks.own
    exact Option.isSome_iff_exists.mpr ⟨row, found⟩
  wallets := by
    intro master listed
    obtain ⟨row, found, held⟩ := tracks.wallets master listed
    have record := records _ (Table.find_eq_some.mp held).1
    exact ⟨Option.isSome_iff_exists.mpr ⟨row, found⟩, record.wallet master rfl⟩

/-- A call that creates no account. -/
def Call.finds : Call → Bool
  | .insertAccount _ | .begin | .insertAccountTx _ | .insertWalletTx _ | .commit => false
  | .goLoader _ | .goIndexer .. => false
  | _ => true

theorem Call.run_finds {choice : Choice} {op : Call} {answer : Except Err op.Val}
    (finds : op.finds) (runs : op.run chain choice p = some (answer, p')) :
    p'.tables.accounts = p.tables.accounts ∧ p'.tables.wallets = p.tables.wallets := by
  cases op with
  | insertAccount | begin | insertAccountTx | insertWalletTx | commit | goLoader | goIndexer =>
      cases finds
  | rangeCurrencies | rangeAccounts | selectTracked =>
      simp only [run, Option.ite_none_right_eq_some, Option.some.injEq, Prod.mk.injEq] at runs
      obtain ⟨_, _, rfl⟩ := runs
      exact ⟨rfl, rfl⟩
  | _ =>
      cases runs
      exact ⟨rfl, rfl⟩

theorem Call.Does.finds {op : Call} {answer : Except Err op.Val} (finds : op.finds)
    (does : op.Does chain p answer p') :
    p'.tables.accounts = p.tables.accounts ∧ p'.tables.wallets = p.tables.wallets := by
  rcases does.cases with ⟨_, ran⟩ | ⟨_, _, rfl | ⟨_, _, ran⟩⟩
  · exact run_finds finds ran
  · exact ⟨rfl, rfl⟩
  · exact run_finds finds ran

/-- A start that creates nothing. -/
def finding (chain : Chain) (config : Config) (before : Tables) : Contract (system chain) where
  rely _ p p' := p' = p
  inv p := p.Sound chain ∧ Settled chain config p.tables ∧
    p.tables.accounts = before.accounts ∧ p.tables.wallets = before.wallets
  pre _ op _ := op.finds
  post _ _ _ := True

theorem Settled.extends {tables tables' : Tables} (settled : Settled chain config tables)
    (extends_ : tables.Extends tables') : Settled chain config tables' where
  own := by
    obtain ⟨row, found⟩ := Option.isSome_iff_exists.mp settled.own
    exact Option.isSome_iff_exists.mpr ⟨row, extends_.find found⟩
  wallets := by
    intro master listed
    obtain ⟨stored, has⟩ := settled.wallets master listed
    obtain ⟨row, found⟩ := Option.isSome_iff_exists.mp stored
    exact ⟨Option.isSome_iff_exists.mpr ⟨row, extends_.find found⟩, has.extends extends_⟩

theorem finding_undisturbed {before : Tables} : (finding chain config before).Undisturbed :=
  fun _ _ _ => Iff.rfl

theorem finding_exec {before : Tables} {op : Call} {answer : Except Err op.Val}
    (inv : (finding chain config before).inv p) (finds : op.finds)
    (does : op.Does chain p answer p') : (finding chain config before).inv p' := by
  obtain ⟨sound, settled, accounts, wallets⟩ := inv
  obtain ⟨sameAccounts, sameWallets⟩ := does.finds finds
  have may : op.may chain p := by
    cases op with
    | insertWalletTx | goLoader | goIndexer => cases finds
    | _ => exact trivial
  exact ⟨sound.does may does, settled.extends does.extends, sameAccounts.trans accounts,
    sameWallets.trans wallets⟩

theorem saveCurrencies_finds {before : Tables} (currencies : List (String × ExtendedCurrency)) :
    (finding chain config before).Returns () (fun _ => True) (saveCurrencies currencies)
      fun _ _ => True := by
  refine .bind finding_undisturbed (.query finding_undisturbed (fun _ _ => rfl)
    fun _ _ _ => trivial) fun order => ?_
  induction order with
  | nil => exact .pure finding_undisturbed fun _ => trivial
  | cons entry rest ih =>
      exact .bind finding_undisturbed (.query finding_undisturbed (fun _ _ => rfl)
        fun _ _ _ => trivial) fun _ => ih

/-- The wallet for the jetton is among the accounts. -/
def HasJetton (chain : Chain) (recipient : AccountID) (accounts : Tracked) (master : AccountID) :
    Prop :=
  ∃ account ∈ accounts.rows, account.accountID = chain.wallet master recipient ∧
    account.info.recipient = recipient ∧ account.info.jetton = some master

omit [Libraries] in
theorem HasJetton.put {recipient master : AccountID} {accounts : Tracked} {account : Account}
    (has : HasJetton chain recipient accounts master)
    (same : account.accountID = chain.wallet master recipient →
      account.info.recipient = recipient ∧ account.info.jetton = some master) :
    HasJetton chain recipient (accounts.put account) master := by
  obtain ⟨other, member, address, owner, jetton⟩ := has
  by_cases replaced : account.accountID = other.accountID
  · have address' := replaced.trans address
    exact ⟨account, Table.mem_put.mpr (.inr rfl), address', same address'⟩
  · exact ⟨other, Table.mem_put.mpr (.inl ⟨member, Ne.symm replaced⟩), address, owner, jetton⟩

/-- Every row that is read leaves its wallet among the accounts. -/
theorem scanTracked_has (distinct : chain.Distinct config.recipient)
    {rows : List (AccountID × ℕ × String)} {accounts accounts' : Tracked}
    (right : ∀ row ∈ rows, ∃ master, row.2.2 = Libraries.toRaw master ∧
      row.1 = chain.wallet master config.recipient)
    (scanned : scanTracked config.recipient accounts rows = .ok accounts') (master : AccountID)
    (has : HasJetton chain config.recipient accounts master ∨
      ∃ row ∈ rows, row.2.2 = Libraries.toRaw master) :
    HasJetton chain config.recipient accounts' master := by
  induction rows generalizing accounts with
  | nil =>
      cases scanned
      rcases has with has | ⟨_, none, _⟩
      · exact has
      · cases none
  | cons row rest ih =>
      obtain ⟨address, startLt, info⟩ := row
      obtain ⟨read, same, wallet⟩ := right _ List.mem_cons_self
      simp only [scanTracked, show info = Libraries.toRaw read from same,
        Libraries.parse_toRaw] at scanned
      refine ih (fun row member => right row (.tail _ member)) scanned ?_
      rcases has with has | ⟨row, member, text⟩
      · refine .inl (has.put fun address' => ⟨rfl, ?_⟩)
        rw [distinct.wallets (wallet.symm.trans address')]
      · rcases List.mem_cons.mp member with rfl | later
        · have equal : read = master := toRaw_injective (same.symm.trans text)
          subst equal
          exact .inl ⟨_, Table.mem_put.mpr (.inr rfl), wallet, rfl, rfl⟩
        · exact .inr ⟨row, later, text⟩

/-- What is settled is among the rows of `GetTrackedAccounts`. -/
theorem Settled.tracked (settled : Settled chain config p.tables) {master : AccountID}
    (listed : config.Lists master) :
    ∃ row ∈ p.tables.tracked config.recipient (jettons config.currencies.entries),
      row.2.2 = Libraries.toRaw master := by
  obtain ⟨stored, wallet, member, address, owner, found⟩ := settled.wallets master listed
  obtain ⟨account, found'⟩ := Option.isSome_iff_exists.mp stored
  obtain ⟨entry, member', currency⟩ := listed
  have text : (Currency.jetton master).info ∈ jettons config.currencies.entries :=
    List.mem_filterMap.mpr ⟨entry, member', by rw [currency]; rfl⟩
  refine ⟨⟨account.address, account.startTxLt, (Currency.jetton master).info⟩,
    List.mem_filterMap.mpr ⟨wallet, member, ?_⟩, rfl⟩
  rw [found, address, found']
  exact if_pos ⟨owner, text⟩

/-- The accounts of the configuration, all of them found. -/
structure Complete (chain : Chain) (config : Config) (accounts : Tracked) : Prop where
  own : (accounts.find config.recipient).isSome
  wallets : ∀ master, config.Lists master → HasJetton chain config.recipient accounts master

/-- The time of a stored account is read, unless the statement fails. -/
theorem getAccountStartLT_finds {before : Tables} :
    (finding chain config before).Triple () (fun _ => True) (getAccountStartLT config.recipient)
      fun result _ => result ≠ .error .notFound := by
  intro p inv _ p' others inv'
  refine ⟨rfl, fun answer s does => ?_⟩
  intro s' later inv''
  obtain ⟨row, found⟩ := Option.isSome_iff_exists.mp inv'.2.1.own
  rcases Call.Does.cases does with ⟨_, ran⟩ | ⟨_, failed, _⟩
  · simp only [Call.run, found, Option.map_some, Option.some.injEq, Prod.mk.injEq] at ran
    rw [← ran.1]
    intro impossible
    cases impossible
  · rw [failed]
    intro impossible
    cases impossible

theorem getTrackedAccounts_finds (distinct : chain.Distinct config.recipient) {before : Tables} :
    (finding chain config before).Returns () (fun _ => True)
      (getTrackedAccounts config.recipient config.currencies.entries)
      fun accounts _ => Complete chain config accounts := by
  have alone : (finding chain config before).Undisturbed := finding_undisturbed
  refine .bind (R := fun rows _ => (∀ row ∈ rows, ∃ master, row.2.2 = Libraries.toRaw master ∧
      row.1 = chain.wallet master config.recipient) ∧
      ∀ master, config.Lists master → ∃ row ∈ rows, row.2.2 = Libraries.toRaw master) alone
    (.query alone (fun _ _ => rfl) ?_) fun rows => ?_
  · rintro p rows p' ⟨sound, settled, _⟩ _ does
    rcases Call.Does.cases does with ⟨choice, runs⟩ | ⟨_, impossible, _⟩
    · simp only [Call.run, Option.ite_none_right_eq_some, Option.some.injEq, Prod.mk.injEq,
        Except.ok.injEq] at runs
      obtain ⟨perm, rfl, rfl⟩ := runs
      refine ⟨fun row member => ?_, fun master listed => ?_⟩
      · obtain ⟨master, text, _, expected⟩ := tracked_expected sound (perm.mem_iff.mp member)
        exact ⟨master, text, (expected 0).wallet master rfl⟩
      · obtain ⟨row, member, text⟩ := settled.tracked listed
        exact ⟨row, perm.mem_iff.mpr member, text⟩
    · cases impossible
  refine .bind (R := fun accounts _ => ∀ master, config.Lists master →
      HasJetton chain config.recipient accounts master) alone
    (.ret alone fun holds accounts scanned master listed =>
      scanTracked_has distinct holds.1 scanned master (.inr (holds.2 master listed)))
    fun accounts => ?_
  refine Contract.Triple.weaken (Contract.Triple.attempt_bind alone.closed
    (Contract.Triple.frame getAccountStartLT_finds (alone.stable _) fun _ _ has => has)
    fun result => ?_) (fun _ has => ⟨has, trivial⟩) fun _ holds => holds
  cases result with
  | error error =>
      cases error with
      | notFound => exact fun p _ holds => absurd rfl holds.2
      | _ => exact Contract.Returns.ret alone fun _ value impossible => by cases impossible
  | ok startLt =>
      refine Contract.Returns.pure alone fun {p} holds => ⟨isSome_put.mpr (.inl rfl), ?_⟩
      intro master listed
      exact (holds.1 master listed).put fun own => absurd own.symm (distinct.own master)

omit [Libraries] in
theorem discoverAll_complete {accounts : Tracked}
    (complete : Complete chain config accounts) {order : List (String × ExtendedCurrency)}
    (listed : ∀ entry ∈ order, entry ∈ config.currencies.entries) :
    discoverAll config.recipient ⟨accounts, .empty⟩ order = pure ⟨accounts, .empty⟩ := by
  induction order with
  | nil => rfl
  | cons entry rest ih =>
      have found : discover config.recipient ⟨accounts, .empty⟩ entry.2.currency =
          pure ⟨accounts, .empty⟩ := by
        cases currency : entry.2.currency with
        | extra id => rfl
        | ton => exact if_pos complete.own
        | jetton master =>
            obtain ⟨account, member, _, owner, jetton⟩ :=
              complete.wallets master ⟨entry, listed entry List.mem_cons_self, currency⟩
            exact if_pos (List.any_eq_true.mpr ⟨account, member, decide_eq_true ⟨owner, jetton⟩⟩)
      rw [discoverAll, found, pure_bind]
      exact ih fun entry member => listed entry (.tail _ member)

/-- **Where everything is stored, a start creates nothing.** -/
theorem track_finds (distinct : chain.Distinct config.recipient) {before : Tables} :
    (finding chain config before).Returns () (fun _ => True) (track config) fun _ _ => True := by
  have alone : (finding chain config before).Undisturbed := finding_undisturbed
  refine .bind alone (saveCurrencies_finds _) fun _ =>
    .bind alone (.weaken (getTrackedAccounts_finds distinct) (fun _ => trivial) fun holds => holds)
      fun accounts => ?_
  refine .bind (R := fun order _ => Complete chain config accounts ∧
    order.Perm config.currencies.entries) alone (.query alone (fun _ _ => rfl) ?_) fun order => ?_
  · rintro p order p' _ complete does
    rcases Call.Does.cases does with ⟨choice, runs⟩ | ⟨impossible, _⟩
    · simp only [Call.run, Option.ite_none_right_eq_some, Option.some.injEq, Prod.mk.injEq,
        Except.ok.injEq] at runs
      obtain ⟨perm, rfl, _⟩ := runs
      exact ⟨complete, perm⟩
    · cases impossible
  rintro p inv ⟨complete, perm⟩
  rw [discoverAll_complete complete fun entry member => perm.mem_iff.mp member, pure_bind]
  refine Contract.Returns.bind alone (R := fun new _ => new = []) (P := fun _ => True)
    (.query alone (by intros; rfl) ?_) (fun new => ?_) p inv trivial
  · rintro p new p' _ _ does
    rcases Call.Does.cases does with ⟨choice, runs⟩ | ⟨impossible, _⟩
    · simp only [Call.run, Option.ite_none_right_eq_some, Option.some.injEq, Prod.mk.injEq,
        Except.ok.injEq] at runs
      obtain ⟨perm, rfl, _⟩ := runs
      exact perm.eq_nil
    · cases impossible
  · rintro p inv rfl
    exact Contract.Returns.pure alone (P := fun _ => True) (fun _ => trivial) p inv trivial

end Functions

/-! ## Over all starts -/

/-- The start times that are stored stay. -/
def Tables.Lasts (tables tables' : Tables) : Prop :=
  ∀ address row, tables.accounts.find address = some row →
    ∃ row', tables'.accounts.find address = some row' ∧ row'.startTxLt = row.startTxLt

theorem Tables.Extends.lasts {tables tables' : Tables} (extends_ : tables.Extends tables') :
    tables.Lasts tables' := fun _ row found => ⟨row, extends_.find found, rfl⟩

theorem Tables.Serves.lasts {tables tables' : Tables} (serves : tables.Serves tables') :
    tables.Lasts tables' := by
  intro address row found
  have same := serves.startLts address
  rw [found, Option.map_some] at same
  obtain ⟨row', found', startLt⟩ := Option.map_eq_some_iff.mp same
  exact ⟨row', found', startLt⟩

theorem Tables.Lasts.trans {tables tables' tables'' : Tables} (first : tables.Lasts tables')
    (later : tables'.Lasts tables'') : tables.Lasts tables'' := by
  intro address row found
  obtain ⟨row', found', startLt⟩ := first address row found
  obtain ⟨row'', found'', startLt'⟩ := later address row' found'
  exact ⟨row'', found'', startLt'.trans startLt⟩

theorem Tables.Lasts.isSome {tables tables' : Tables} (lasts : tables.Lasts tables')
    {address : AccountID} (stored : (tables.accounts.find address).isSome) :
    (tables'.accounts.find address).isSome := by
  obtain ⟨row, found⟩ := Option.isSome_iff_exists.mp stored
  obtain ⟨row', found', _⟩ := lasts address row found
  exact Option.isSome_iff_exists.mpr ⟨row', found'⟩

theorem Settled.serves {config : Config} {tables tables' : Tables}
    (settled : Settled chain config tables) (serves : tables.Serves tables') :
    Settled chain config tables' where
  own := serves.lasts.isSome settled.own
  wallets := by
    intro master listed
    obtain ⟨stored, wallet, member, address, owner, found⟩ := settled.wallets master listed
    exact ⟨serves.lasts.isSome stored, wallet, serves.wallets ▸ member, address, owner,
      serves.currencies ▸ found⟩

/-- The rows that have been created are of different accounts, and are still there with
their start times. -/
structure History.Created (h : History) : Prop where
  distinct : (h.created.map AccountRow.address).Nodup
  kept : ∀ row ∈ h.created, ∃ row', h.tables.accounts.find row.address = some row' ∧
    row'.startTxLt = row.startTxLt

theorem History.Created.lasts {h : History} {tables : Tables} (created : h.Created)
    (lasts : h.tables.Lasts tables) : History.Created ⟨tables, h.created⟩ where
  distinct := created.distinct
  kept := by
    intro row member
    obtain ⟨row', found, startLt⟩ := created.kept row member
    obtain ⟨row'', found', startLt'⟩ := lasts row.address row' found
    exact ⟨row'', found', startLt'.trans startLt⟩

/-- **A call creates only rows of accounts that had none.** -/
theorem Recorded.Does.created_stop {op : Call} {s s' : Recorded} {answer : Except Err op.Val}
    (does : Recorded.Does chain op s answer s') (created : s.stop.Created) : s'.stop.Created := by
  have extends_ := does.does.extends
  obtain ⟨distinct, kept⟩ := created.lasts extends_.lasts
  have new : ∀ row ∈ s.process.tables.created s'.process.tables,
      row ∈ s'.process.tables.accounts.rows ∧
        s.process.tables.accounts.find row.address = none := by
    intro row member
    obtain ⟨stored, fresh⟩ := List.mem_filter.mp member
    exact ⟨stored, Option.isNone_iff_eq_none.mp fresh⟩
  refine ⟨?_, fun row member => ?_⟩
  · change (s'.created.map AccountRow.address).Nodup
    rw [does.created, List.map_append]
    refine distinct.append (s'.process.tables.accounts.unique.sublist
      (List.filter_sublist.map AccountRow.address)) ?_
    intro address old added
    obtain ⟨row, member, rfl⟩ := List.mem_map.mp old
    obtain ⟨row', member', same⟩ := List.mem_map.mp added
    obtain ⟨before, found, _⟩ := created.kept row member
    have fresh := (new row' member').2
    rw [same, show s.process.tables.accounts.find row.address = some before from found] at fresh
    cases fresh
  · change row ∈ s'.created at member
    rw [does.created] at member
    rcases List.mem_append.mp member with old | added
    · exact kept row old
    · exact ⟨row, Table.find_of_mem (new row added).1, rfl⟩

section Runs

variable {config : Config} {program rest : Action Tracked} {s s' : Recorded} {h h' : History}

theorem extends_of_partly (runs : Partly (Recorded.Does chain) program s rest s') :
    s.process.tables.Extends s'.process.tables :=
  runs.keeps (J := fun s' => s.process.tables.Extends s'.process.tables)
    (fun does extends_ => extends_.trans does.does.extends) (.refl _)

/-- What a start has created was not there before. -/
theorem created_of_partly (runs : Partly (Recorded.Does chain) program s rest s') :
    ∃ new, s'.created = s.created ++ new ∧ ∀ row ∈ new,
      s.process.tables.accounts.find row.address = none ∧
        (s'.process.tables.accounts.find row.address).isSome := by
  refine (runs.keeps (J := fun s' => s.process.tables.Extends s'.process.tables ∧
    ∃ new, s'.created = s.created ++ new ∧ ∀ row ∈ new,
      s.process.tables.accounts.find row.address = none ∧
        (s'.process.tables.accounts.find row.address).isSome) ?_ ⟨.refl _, [], by simp⟩).2
  rintro op s₁ answer s₂ does ⟨extends_, new, same, fresh⟩
  have more := does.does.extends
  refine ⟨extends_.trans more, new ++ s₁.process.tables.created s₂.process.tables,
    by rw [does.created, same, List.append_assoc], fun row member => ?_⟩
  rcases List.mem_append.mp member with old | added
  · exact ⟨(fresh row old).1, more.lasts.isSome (fresh row old).2⟩
  · obtain ⟨stored, missing⟩ := List.mem_filter.mp added
    have absent := Option.isNone_iff_eq_none.mp missing
    refine ⟨?_, by rw [Table.find_of_mem stored]; rfl⟩
    cases found : s.process.tables.accounts.find row.address with
    | none => rfl
    | some before =>
        rw [extends_.find found] at absent
        cases absent

/-- A start calls what it may, and ends as its program does. -/
theorem safe_of_partly {Q : Tracked → Process → Prop}
    (ensures : Ensures chain (fun _ => True) (track config) Q)
    (wallets : ∀ row ∈ h.tables.wallets, row.Right chain h.tables)
    (runs : Partly (Recorded.Does chain) (track config) (h.start config) rest s) :
    s.process.Sound chain ∧ ∀ accounts, rest = .ret (.ok accounts) → Q accounts s.process := by
  have start : (h.start config).process.Sound chain :=
    ⟨wallets, fun _ _ none => (nomatch none), rfl, rfl⟩
  have calls : Partly ((system chain).exec ()) (track config) _ rest s.process :=
    runs.map Recorded.process fun does => does.does
  obtain ⟨sound, safe⟩ := (ensures _ start trivial).partly startUp_undisturbed.closed
    (fun sound may does => Process.Sound.does sound may does) calls start
  refine ⟨sound, fun accounts same => ?_⟩
  subst same
  exact safe s.process rfl sound accounts rfl

/-- What holds between two starts. -/
structure History.Sound (chain : Chain) (h : History) : Prop where
  wallets : ∀ row ∈ h.tables.wallets, row.Right chain h.tables
  created : h.Created

theorem History.Sound.step (sound : h.Sound chain) (step : History.Step chain h h') :
    h'.Sound chain := by
  cases step with
  | start runs =>
      exact ⟨(safe_of_partly track_calls sound.wallets runs).1.wallets,
        runs.keeps (J := fun s => s.stop.Created) Recorded.Does.created_stop sound.created⟩
  | serve serves =>
      refine ⟨fun row member => ?_, sound.created.lasts serves.lasts⟩
      obtain ⟨master, found, address⟩ := sound.wallets row (serves.wallets ▸ member)
      exact ⟨master, serves.currencies ▸ found, address⟩

theorem History.Sound.steps (sound : h.Sound chain) (steps : History.Steps chain h h') :
    h'.Sound chain := by
  induction steps with
  | refl => exact sound
  | tail _ step ih => exact ih.step step

theorem settled_of_steps (settled : Settled chain config h.tables)
    (steps : History.Steps chain h h') :
    Settled chain config h'.tables ∧ h.tables.Lasts h'.tables := by
  induction steps with
  | refl => exact ⟨settled, fun _ row found => ⟨row, found, rfl⟩⟩
  | tail _ step ih =>
      obtain ⟨settled, lasts⟩ := ih
      cases step with
      | start runs =>
          have extends_ := extends_of_partly runs
          exact ⟨settled.extends extends_, lasts.trans extends_.lasts⟩
      | serve serves => exact ⟨settled.serves serves, lasts.trans serves.lasts⟩

/-- Two starts with one configuration have found the same accounts. -/
theorem Tracks.same {tables tables' : Tables} {accounts accounts' : Tracked}
    (tracks : Tracks chain config tables accounts) (tracks' : Tracks chain config tables' accounts')
    (lasts : tables.Lasts tables') (address : AccountID) :
    accounts'.find address = accounts.find address := by
  by_cases expected : address = config.recipient ∨
    ∃ master, config.Lists master ∧ address = chain.wallet master config.recipient
  · rcases expected with rfl | ⟨master, listed, rfl⟩
    · obtain ⟨row, found, entry⟩ := tracks.own
      obtain ⟨row', found', entry'⟩ := tracks'.own
      obtain ⟨_, again, startLt⟩ := lasts _ row found
      cases found'.symm.trans again
      rw [entry, entry', startLt]
    · obtain ⟨row, found, entry⟩ := tracks.wallets master listed
      obtain ⟨row', found', entry'⟩ := tracks'.wallets master listed
      obtain ⟨_, again, startLt⟩ := lasts _ row found
      cases found'.symm.trans again
      rw [entry, entry', startLt]
  · have missing : ∀ {tables : Tables} {accounts : Tracked}, Tracks chain config tables accounts →
        accounts.find address = none := by
      intro tables accounts tracks
      cases found : accounts.find address with
      | none => rfl
      | some account =>
          obtain ⟨member, key⟩ := Table.find_eq_some.mp found
          exact absurd (key ▸ tracks.only account member) expected
    rw [missing tracks, missing tracks']

/-- Once a start has returned, a start with the same configuration creates nothing. -/
theorem created_of_settled (distinct : chain.Distinct config.recipient) (sound : h.Sound chain)
    (settled : Settled chain config h.tables)
    (runs : Partly (Recorded.Does chain) (track config) (h.start config) rest s) :
    s.created = h.created ∧ s.process.tables.accounts = h.tables.accounts ∧
      s.process.tables.wallets = h.tables.wallets := by
  have start : (finding chain config h.tables).inv (h.start config).process :=
    ⟨⟨sound.wallets, fun _ _ none => (nomatch none), rfl, rfl⟩, settled, rfl, rfl⟩
  have calls : Partly ((system chain).exec ()) (track config) _ rest s.process :=
    runs.map Recorded.process fun does => does.does
  obtain ⟨⟨_, _, accounts, wallets⟩, _⟩ := (track_finds distinct _ start trivial).partly
    finding_undisturbed.closed (fun inv finds does => finding_exec inv finds does) calls start
  obtain ⟨new, same, fresh⟩ := created_of_partly runs
  have none : new = [] := by
    refine List.eq_nil_iff_forall_not_mem.mpr fun row member => ?_
    obtain ⟨absent, stored⟩ := fresh row member
    rw [accounts, show h.tables.accounts.find row.address = none from absent] at stored
    cases stored
  exact ⟨by rw [same, none, List.append_nil]; rfl, accounts, wallets⟩

/-- **The accounts that are tracked, over any number of starts.** Each row of an account is
created once, and no start changes it. A start that returns has found the recipient and a
wallet for each jetton, with the logical times of their rows. From then on a start with the
same configuration creates nothing, and returns the same accounts. -/
theorem tracked_once (steps : History.Steps chain ⟨.empty, []⟩ h) :
    (h.created.map AccountRow.address).Nodup ∧
    (∀ row ∈ h.created, ∃ row', h.tables.accounts.find row.address = some row' ∧
      row'.startTxLt = row.startTxLt) ∧
    ∀ {config : Config} {rest : Action Tracked} {s : Recorded},
      Partly (Recorded.Does chain) (track config) (h.start config) rest s →
      (∀ {rest' : Action Tracked} {s' : Recorded}, Partly (Recorded.Does chain) rest s rest' s' →
        ∀ row ∈ s.process.tables.accounts.rows, row ∈ s'.process.tables.accounts.rows) ∧
      (chain.Distinct config.recipient → ∀ accounts : Tracked, rest = .ret (.ok accounts) →
        Tracks chain config s.process.tables accounts ∧
        ∀ {h' : History}, History.Steps chain s.stop h' →
          ∀ {rest' : Action Tracked} {s' : Recorded},
            Partly (Recorded.Does chain) (track config) (h'.start config) rest' s' →
            (s'.created = h'.created ∧ s'.process.tables.accounts = h'.tables.accounts ∧
              s'.process.tables.wallets = h'.tables.wallets) ∧
            ∀ accounts' : Tracked, rest' = .ret (.ok accounts') →
              ∀ address, accounts'.find address = accounts.find address) := by
  have empty : History.Sound chain ⟨.empty, []⟩ :=
    ⟨fun _ none => (nomatch none), List.nodup_nil, fun _ none => (nomatch none)⟩
  have sound := empty.steps steps
  refine ⟨sound.created.distinct, sound.created.kept, fun {config rest s} runs =>
    ⟨fun later => (extends_of_partly later).accounts, fun distinct accounts returned => ?_⟩⟩
  obtain ⟨tracks, right⟩ :=
    (safe_of_partly (track_ensures distinct) sound.wallets runs).2 accounts returned
  have settled : Settled chain config s.stop.tables :=
    tracks.settled fun account member => (right account member).2
  refine ⟨tracks, fun {h'} later {rest' s'} again => ?_⟩
  have sound' := (sound.step (.start runs)).steps later
  obtain ⟨settled', lasts⟩ := settled_of_steps settled later
  have created := created_of_settled distinct sound' settled' again
  refine ⟨created, fun accounts' returned' => ?_⟩
  obtain ⟨tracks', _⟩ :=
    (safe_of_partly (track_ensures distinct) sound'.wallets again).2 accounts' returned'
  refine tracks.same tracks' fun address row found => ?_
  rw [created.2.1]
  exact lasts address row found

/-- What a start creates can be recorded. -/
theorem recorded_of_partly {p p' : Process} (runs : Partly (Call.Does chain) program p rest p')
    (created : List AccountRow) :
    ∃ created', Partly (Recorded.Does chain) program ⟨p, created⟩ rest ⟨p', created'⟩ := by
  induction runs generalizing created with
  | here => exact ⟨created, .here⟩
  | @call _ _ _ p p₁ _ _ answers _ ih =>
      obtain ⟨created', later⟩ := ih (created ++ p.tables.created p₁.tables)
      exact ⟨created', .call ⟨answers, rfl⟩ later⟩

end Runs

end Starts

/-! ## Two starts -/

namespace Shop

open SpiceHarvester.Shop

attribute [local instance] Texts.libraries

/-- The merchant takes TON and a jetton. -/
def jettonConfig : Config :=
  ⟨merchant, .add .default "USD" ⟨.jetton ⟨0, 7⟩, 6⟩ (by decide)⟩

/-- Each jetton has a wallet of its own, whoever the owner is. -/
def wideChain : Chain := ⟨fun master _ => ⟨2 * master.workchain + 1, master.address⟩⟩

theorem wideChain_distinct : wideChain.Distinct merchant where
  wallets := by
    rintro ⟨workchain, address⟩ ⟨workchain', address'⟩ same
    simp only [wideChain, AccountID.mk.injEq] at same
    obtain ⟨double, rfl⟩ := same
    rw [show workchain = workchain' by omega]
  own := by
    rintro ⟨workchain, address⟩ same
    simp only [wideChain, merchant, AccountID.mk.injEq] at same
    omega

/-- Maps are visited in their order, IDs are counted, and the last transaction of an account
has LT 5. -/
def counting (op : Call) (p : Process) : Option (Except Err op.Val × Process) :=
  op.run wideChain
    { clock := 0
      currencies := match op with
        | .rangeCurrencies currencies => currencies
        | _ => []
      accounts := match op with
        | .rangeAccounts accounts => accounts
        | _ => []
      rows := match op with
        | .selectTracked owner jettons => p.tables.tracked owner jettons
        | _ => []
      id := p.tables.currencies.table.rows.length
      state := ⟨5, 0⟩ } p

/-- The start ends, and has found two accounts. -/
theorem first_start_returns : ∃ (accounts : Tracked) (s : Recorded), accounts.rows.length = 2 ∧
    Partly (Recorded.Does wideChain) (track jettonConfig) (History.start ⟨.empty, []⟩ jettonConfig)
      (.ret (.ok accounts)) s := by
  have found : ((track jettonConfig).eval counting (.start jettonConfig .empty)).map
      (fun done => match done.1 with
        | .ok accounts => decide (accounts.rows.length = 2)
        | .error _ => false) = some true := by decide +kernel
  obtain ⟨⟨result, p⟩, ended, same⟩ := Option.map_eq_some_iff.mp found
  have answers : ∀ (op : Call) (p : Process) (answer : Except Err op.Val) (p' : Process),
      counting op p = some (answer, p') → op.Does wideChain p answer p' :=
    fun op p answer p' answered => ⟨.none, _, answered⟩
  obtain ⟨log, runs⟩ := Alone.of_eval answers ended
  obtain ⟨created, recorded⟩ := recorded_of_partly runs.partly []
  cases result with
  | ok accounts => exact ⟨accounts, _, of_decide_eq_true same, recorded⟩
  | error _ => cases same

/-- The start is repeated: it finds the same accounts again. -/
theorem second_start_same : ∃ (accounts : Tracked) (s : Recorded), accounts.rows.length = 2 ∧
    Tracks wideChain jettonConfig s.process.tables accounts ∧
    ∀ {rest' : Action Tracked} {s' : Recorded},
      Partly (Recorded.Does wideChain) (track jettonConfig) (s.stop.start jettonConfig) rest' s' →
      s'.created = s.created ∧ ∀ accounts' : Tracked, rest' = .ret (.ok accounts') →
        ∀ address, accounts'.find address = accounts.find address := by
  obtain ⟨accounts, s, two, runs⟩ := first_start_returns
  obtain ⟨tracks, again⟩ := ((tracked_once .refl).2.2 runs).2 wideChain_distinct accounts rfl
  exact ⟨accounts, s, two, tracks, fun runs' => ⟨(again .refl runs').1.1, (again .refl runs').2⟩⟩

end Shop

end StartUp

end SpiceHarvester
