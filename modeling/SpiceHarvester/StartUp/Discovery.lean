import SpiceHarvester.Interleaving.Triple
import SpiceHarvester.StartUp.Accounts

/-!
# The accounts that `main` finds

Where `prepare` ends without an error it has found, for each currency of the configuration,
the account that receives it: in the tables or, for a currency that is new, on the chain.
Each of these accounts then has a row (`prepared_of_run`). This holds after any number of
earlier starts that were stopped at any point, because every row of
`payments.jetton_wallets` is of the right wallet (`Process.Sound.does`).
-/

set_option autoImplicit false

namespace SpiceHarvester

open Interleaving Sql

namespace StartUp

variable [Libraries]

/-! ## What grows -/

/-- The account has a row. -/
def Process.Stored (p : Process) (address : AccountID) : Prop :=
  (p.tables.accounts.find address).isSome

/-- What no call of the start-up takes back. -/
structure Process.Grows (p p' : Process) : Prop where
  config : p'.config = p.config
  stored : ∀ address, p.Stored address → p'.Stored address
  currencies : ∀ id row, p.tables.currencies.table.find id = some row →
    p'.tables.currencies.table.find id = some row

theorem Process.Grows.of_tables {p p' : Process} (config : p'.config = p.config)
    (tables : p'.tables = p.tables) : p.Grows p' where
  config := config
  stored := fun _ stored => by rw [Stored, tables]; exact stored
  currencies := fun _ _ found => by rw [tables]; exact found

omit [Libraries] in
theorem stored_of_insert {accounts accounts' : Table AccountRow.address} {row : AccountRow}
    (inserted : accounts.insert? row = some accounts') (address : AccountID) :
    (accounts'.find address).isSome ↔ row.address = address ∨ (accounts.find address).isSome := by
  rw [Table.find_insert? inserted]
  split
  · simp [*]
  · simp [*]

theorem find_save {currencies : Currencies} {id : UUID} {currency : Currency} {other : UUID}
    {row : CurrencyRow} (found : currencies.table.find other = some row) :
    (save currencies id currency).table.find other = some row := by
  unfold save
  split
  · exact found
  · rw [Table.find, List.find?_append]
    rw [Table.find] at found
    rw [found, Option.some_or]

theorem Tables.commit_cases {tables tables' : Tables} {pending : Pending}
    (committed : tables.commit pending = some tables') :
    tables'.currencies = tables.currencies ∧
      tables'.wallets = tables.wallets ++ pending.wallet.toList ∧
      ∀ address, (tables'.accounts.find address).isSome ↔
        (pending.account.map AccountRow.address = some address) ∨
          (tables.accounts.find address).isSome := by
  unfold Tables.commit at committed
  split at committed
  · rename_i none
    cases committed
    simp [none]
  · rename_i row some
    obtain ⟨accounts, inserted, rfl⟩ := Option.map_eq_some_iff.mp committed
    refine ⟨rfl, rfl, fun address => ?_⟩
    rw [some, Option.map_some, Option.some.injEq]
    exact stored_of_insert inserted address

/-- What one call can do to the tables: nothing, or one of the inserts. -/
inductive Process.Writes (p : Process) : Tables → Prop
  | nothing : p.Writes p.tables
  | currency (id : UUID) (currency : Currency) :
      p.Writes { p.tables with currencies := save p.tables.currencies id currency }
  | account {row : AccountRow} {accounts : Table AccountRow.address}
      (inserted : p.tables.accounts.insert? row = some accounts) :
      p.Writes { p.tables with accounts := accounts }
  | commit {pending : Pending} {tables : Tables} (opened : p.tx = some pending)
      (committed : p.tables.commit pending = some tables) : p.Writes tables

/-- **What one call does to the process**, beside its answer. -/
theorem Call.run_writes {chain : Chain} {choice : Choice} {op : Call} {p p' : Process}
    {answer : Except Err op.Val} (runs : op.run chain choice p = some (answer, p')) :
    p'.config = p.config ∧ p.Writes p'.tables := by
  have same : ∀ {p' : Process}, p'.config = p.config → p'.tables = p.tables →
      p'.config = p.config ∧ p.Writes p'.tables :=
    fun config tables => ⟨config, tables ▸ .nothing⟩
  cases op with
  | insertCurrency currency =>
      cases runs
      exact ⟨rfl, .currency choice.id currency⟩
  | insertAccount row =>
      simp only [run] at runs
      split at runs <;> cases runs
      · rename_i accounts inserted
        exact ⟨rfl, .account inserted⟩
      · exact same rfl rfl
  | commit =>
      simp only [run] at runs
      split at runs <;> cases runs
      · rename_i tables committed
        obtain ⟨pending, opened, committed⟩ := Option.bind_eq_some_iff.mp committed
        exact ⟨rfl, .commit opened committed⟩
      · exact same rfl rfl
  | insertAccountTx row =>
      simp only [run] at runs
      split at runs <;> cases runs <;> exact same rfl rfl
  | insertWalletTx row =>
      simp only [run] at runs
      split at runs <;> cases runs <;> exact same rfl rfl
  | rangeCurrencies currencies =>
      simp only [run, Option.ite_none_right_eq_some, Option.some.injEq, Prod.mk.injEq] at runs
      exact same (by rw [← runs.2.2]) (by rw [← runs.2.2])
  | rangeAccounts accounts =>
      simp only [run, Option.ite_none_right_eq_some, Option.some.injEq, Prod.mk.injEq] at runs
      exact same (by rw [← runs.2.2]) (by rw [← runs.2.2])
  | selectTracked owner jettons =>
      simp only [run, Option.ite_none_right_eq_some, Option.some.injEq, Prod.mk.injEq] at runs
      exact same (by rw [← runs.2.2]) (by rw [← runs.2.2])
  | _ =>
      cases runs
      exact same rfl rfl

theorem Process.Writes.grows {p p' : Process} (config : p'.config = p.config)
    (writes : p.Writes p'.tables) : p.Grows p' := by
  generalize same : p'.tables = tables at writes
  cases writes with
  | nothing => exact .of_tables config same
  | currency id currency =>
      exact ⟨config, fun _ stored => by rw [Stored, same]; exact stored,
        fun _ _ found => by rw [same]; exact find_save found⟩
  | account inserted =>
      refine ⟨config, fun address stored => ?_, fun _ _ found => by rw [same]; exact found⟩
      rw [Stored, same]
      exact (stored_of_insert inserted address).mpr (.inr stored)
  | commit opened committed =>
      obtain ⟨currencies, _, accounts⟩ := Tables.commit_cases committed
      refine ⟨config, fun address stored => ?_, fun _ _ found => by rw [same, currencies]; exact found⟩
      rw [Stored, same]
      exact (accounts address).mpr (.inr stored)

theorem Call.run_grows {chain : Chain} {choice : Choice} {op : Call} {p p' : Process}
    {answer : Except Err op.Val} (runs : op.run chain choice p = some (answer, p')) :
    p.Grows p' := by
  obtain ⟨config, writes⟩ := run_writes runs
  exact writes.grows config

theorem Call.Does.grows {chain : Chain} {op : Call} {p p' : Process} {answer : Except Err op.Val}
    (does : op.Does chain p answer p') : p.Grows p' := by
  rcases does.cases with ⟨_, ran⟩ | ⟨_, _, rfl | ⟨_, _, ran⟩⟩
  · exact run_grows ran
  · exact .of_tables rfl rfl
  · exact run_grows ran

/-! ## The wallets that are stored -/

/-- The row is of a stored jetton and of the wallet of its owner. -/
def JettonWalletRow.Right (row : JettonWalletRow) (chain : Chain) (tables : Tables) : Prop :=
  ∃ master, tables.currencies.table.find row.currency =
      some ⟨row.currency, .jetton, (Currency.jetton master).info⟩ ∧
    row.address = chain.wallet master row.owner

/-- What `prepare` keeps at every point. -/
structure Process.Sound (chain : Chain) (p : Process) : Prop where
  wallets : ∀ row ∈ p.tables.wallets, row.Right chain p.tables
  pending : ∀ pending row, p.tx = some pending → pending.wallet = some row →
    row.Right chain p.tables
  loaders : p.loaders = []
  indexers : p.indexers = []

/-- When `prepare` may make a call. -/
def Call.may (chain : Chain) (p : Process) : Call → Prop
  | .insertWalletTx row => row.Right chain p.tables
  | .goLoader _ | .goIndexer .. => False
  | _ => True

variable {chain : Chain} {p p' : Process}

theorem JettonWalletRow.Right.grows {row : JettonWalletRow} (right : row.Right chain p.tables)
    (grows : p.Grows p') : row.Right chain p'.tables := by
  obtain ⟨master, found, address⟩ := right
  exact ⟨master, grows.currencies _ _ found, address⟩

/-- The wallets in the tables and in the open transaction are those of before, or right
ones. No worker has started. -/
structure Process.Keeps (chain : Chain) (p p' : Process) : Prop where
  wallets : ∀ row ∈ p'.tables.wallets, row ∈ p.tables.wallets ∨
    ∃ pending, p.tx = some pending ∧ pending.wallet = some row
  pending : ∀ pending row, p'.tx = some pending → pending.wallet = some row →
    row.Right chain p.tables ∨ ∃ before, p.tx = some before ∧ before.wallet = some row
  loaders : p'.loaders = p.loaders
  indexers : p'.indexers = p.indexers

theorem Process.Keeps.of_same (wallets : p'.tables.wallets = p.tables.wallets)
    (tx : p'.tx = p.tx ∨ p'.tx = none) (loaders : p'.loaders = p.loaders)
    (indexers : p'.indexers = p.indexers) : p.Keeps chain p' where
  wallets := fun row member => .inl (wallets ▸ member)
  pending := by
    intro pending row found inserted
    rcases tx with same | closed
    · exact .inr ⟨pending, same ▸ found, inserted⟩
    · rw [closed] at found
      cases found
  loaders := loaders
  indexers := indexers

theorem Call.run_keeps {choice : Choice} {op : Call} {answer : Except Err op.Val}
    (runs : op.run chain choice p = some (answer, p')) (may : op.may chain p) :
    p.Keeps chain p' := by
  have same : ∀ {p' : Process}, p'.tables.wallets = p.tables.wallets → p'.tx = p.tx →
      p'.loaders = p.loaders → p'.indexers = p.indexers → p.Keeps chain p' :=
    fun wallets tx => .of_same wallets (.inl tx)
  cases op with
  | begin =>
      cases runs
      refine ⟨fun row member => .inl member, fun pending row found inserted => ?_, rfl, rfl⟩
      cases found
      cases inserted
  | rollback =>
      cases runs
      exact .of_same rfl (.inr rfl) rfl rfl
  | commit =>
      simp only [run] at runs
      split at runs <;> cases runs
      · rename_i tables committed
        obtain ⟨pending, opened, committed⟩ := Option.bind_eq_some_iff.mp committed
        obtain ⟨_, wallets, _⟩ := Tables.commit_cases committed
        refine ⟨fun row member => ?_, fun pending row closed => (nomatch closed), rfl, rfl⟩
        change row ∈ tables.wallets at member
        rw [wallets] at member
        rcases List.mem_append.mp member with old | new
        · exact .inl old
        · exact .inr ⟨pending, opened, Option.mem_toList.mp new⟩
      · exact .of_same rfl (.inr rfl) rfl rfl
  | insertAccountTx inserted =>
      simp only [run] at runs
      split at runs <;> cases runs
      · exact same rfl rfl rfl rfl
      · refine ⟨fun row member => .inl member, fun pending row found wallet => ?_, rfl, rfl⟩
        obtain ⟨before, opened, rfl⟩ := Option.map_eq_some_iff.mp found
        exact .inr ⟨before, opened, wallet⟩
  | insertWalletTx inserted =>
      simp only [run] at runs
      split at runs <;> cases runs
      · refine ⟨fun row member => .inl member, fun pending row found wallet => ?_, rfl, rfl⟩
        obtain ⟨before, opened, rfl⟩ := Option.map_eq_some_iff.mp found
        cases wallet
        exact .inl may
      · exact same rfl rfl rfl rfl
  | insertAccount row =>
      simp only [run] at runs
      split at runs <;> cases runs <;> exact same rfl rfl rfl rfl
  | rangeCurrencies currencies =>
      simp only [run, Option.ite_none_right_eq_some, Option.some.injEq, Prod.mk.injEq] at runs
      obtain ⟨_, _, rfl⟩ := runs
      exact same rfl rfl rfl rfl
  | rangeAccounts accounts =>
      simp only [run, Option.ite_none_right_eq_some, Option.some.injEq, Prod.mk.injEq] at runs
      obtain ⟨_, _, rfl⟩ := runs
      exact same rfl rfl rfl rfl
  | selectTracked owner jettons =>
      simp only [run, Option.ite_none_right_eq_some, Option.some.injEq, Prod.mk.injEq] at runs
      obtain ⟨_, _, rfl⟩ := runs
      exact same rfl rfl rfl rfl
  | goLoader account => exact may.elim
  | goIndexer account lastIndexed => exact may.elim
  | _ =>
      cases runs
      exact same rfl rfl rfl rfl

/-- **Only the right wallets are stored.** -/
theorem Process.Sound.does (sound : p.Sound chain) {op : Call} {answer : Except Err op.Val}
    (may : op.may chain p) (does : op.Does chain p answer p') : p'.Sound chain := by
  have grows := does.grows
  have after : ∀ {choice : Choice} {answer : Except Err op.Val},
      op.run chain choice p = some (answer, p') → p'.Sound chain := by
    intro choice answer runs
    obtain ⟨wallets, pending, loaders, indexers⟩ := Call.run_keeps runs may
    refine ⟨fun row member => ?_, fun opened row found inserted => ?_, loaders.trans sound.loaders,
      indexers.trans sound.indexers⟩
    · rcases wallets row member with old | ⟨before, found, inserted⟩
      · exact (sound.wallets row old).grows grows
      · exact (sound.pending before row found inserted).grows grows
    · rcases pending opened row found inserted with right | ⟨before, found, inserted⟩
      · exact right.grows grows
      · exact (sound.pending before row found inserted).grows grows
  rcases does.cases with ⟨_, ran⟩ | ⟨_, _, rfl | ⟨_, _, ran⟩⟩
  · exact after ran
  · exact sound
  · exact after ran

/-! ## What `prepare` finds -/

/-- The account that receives a currency. -/
def receiver (chain : Chain) (recipient : AccountID) : Currency → AccountID
  | .jetton master => chain.wallet master recipient
  | .ton | .extra _ => recipient

/-- An account that receives a currency of the configuration, known as what it is. -/
structure Expected (chain : Chain) (config : Config) (account : Account) : Prop where
  listed : ∃ entry ∈ config.currencies.entries,
    receiver chain config.recipient entry.2.currency = account.accountID
  recipient : account.info.recipient = config.recipient
  wallet : ∀ master, account.info.jetton = some master →
    account.accountID = chain.wallet master account.info.recipient

/-- The accounts that `main` hands over. -/
structure Prepared (chain : Chain) (p : Process) (order : List Account) : Prop where
  distinct : (order.map Account.accountID).Nodup
  expected : ∀ account ∈ order, Expected chain p.config account
  covers : ∀ entry ∈ p.config.currencies.entries,
    receiver chain p.config.recipient entry.2.currency ∈ order.map Account.accountID
  stored : ∀ account ∈ order, p.Stored account.accountID

/-- Nothing else runs before the accounts are handed over. -/
def startUp (chain : Chain) : Contract (system chain) where
  rely _ p p' := p' = p
  inv p := p.Sound chain
  pre _ op p := op.may chain p
  post _ result p := ∀ order, result = .ok order → Prepared chain p order

theorem startUp_undisturbed : (startUp chain).Undisturbed := fun _ _ _ => Iff.rfl

/-- A program that keeps the contract, with what holds of the value that it returns. -/
def Ensures (chain : Chain) {α : Type} (P : Process → Prop) (program : Action α)
    (Q : α → Process → Prop) : Prop :=
  (startUp chain).Triple () P program fun result p => ∀ value, result = .ok value → Q value p

namespace Ensures

variable {α β : Type} {P P' : Process → Prop}

theorem ret {result : Except Err α} {Q : α → Process → Prop}
    (ends : ∀ {p}, P p → ∀ value, result = .ok value → Q value p) :
    Ensures chain P (.ret result) Q :=
  Contract.Returns.ret startUp_undisturbed ends

theorem pure {value : α} {Q : α → Process → Prop} (ends : ∀ {p}, P p → Q value p) :
    Ensures chain P (Pure.pure value) Q :=
  Contract.Returns.pure startUp_undisturbed ends

theorem call {op : Call} {Q : op.Val → Process → Prop}
    (may : ∀ {p}, p.Sound chain → P p → op.may chain p)
    (ran : ∀ {p choice answer p'}, p.Sound chain → P p →
      op.run chain choice p = some (.ok answer, p') → Q answer p') :
    Ensures chain P (perform op) Q := by
  refine Contract.Returns.query startUp_undisturbed may ?_
  intro p answer p' sound holds does
  rcases Call.Does.cases does with ⟨choice, runs⟩ | ⟨_, impossible, _⟩
  · exact ran sound holds runs
  · cases impossible

/-- A call, with what only grows beside. -/
theorem callWith {op : Call} {F : Process → Prop} {Q : op.Val → Process → Prop}
    (lasts : ∀ {p p'}, p.Grows p' → F p → F p') (may : ∀ {p}, F p → P p → op.may chain p)
    (ran : ∀ {p choice answer p'}, P p → op.run chain choice p = some (.ok answer, p') →
      Q answer p') :
    Ensures chain (fun p => F p ∧ P p) (perform op) fun answer p => F p ∧ Q answer p :=
  call (fun _ holds => may holds.1 holds.2) fun _ holds runs =>
    ⟨lasts (Call.run_grows runs) holds.1, ran holds.2 runs⟩

theorem queryRow {op : Call} {Q : op.Val → Process → Prop} (first : Ensures chain P (perform op) Q) :
    Ensures chain P (StartUp.queryRow op) Q := by
  intro p sound holds p' others sound'
  refine ⟨(first p sound holds p' others sound').1, fun answer s does => ?_⟩
  have after := (first p sound holds p' others sound').2 answer s does
  intro s' later sound'' value same
  cases answer with
  | ok found =>
      cases same
      exact after s' later sound'' value rfl
  | error error => cases same

theorem bind {program : Action α} {rest : α → Action β} {R : α → Process → Prop}
    {Q : β → Process → Prop} (first : Ensures chain P program R)
    (later : ∀ value, Ensures chain (R value) (rest value) Q) :
    Ensures chain P (program >>= rest) Q :=
  Contract.Returns.bind startUp_undisturbed first later

/-- What only grows is still known when the attempt fails. -/
theorem attempt_bind {program : Action α} {rest : Except Err α → Action β} {F : Process → Prop}
    {R : α → Process → Prop} {Q : β → Process → Prop} (first : Ensures chain P program R)
    (lasts : ∀ {p p'}, p.Grows p' → F p → F p')
    (later : ∀ result, Ensures chain
      (fun p => F p ∧ ∀ value, result = .ok value → R value p) (rest result) Q) :
    Ensures chain (fun p => F p ∧ P p) (program.attempt >>= rest) Q :=
  Contract.Returns.attempt_bind startUp_undisturbed first (fun does => lasts does.grows) later

theorem weaken {program : Action α} {Q Q' : α → Process → Prop} (first : Ensures chain P program Q)
    (stronger : ∀ {p}, P' p → P p) (weaker : ∀ {value p}, Q value p → Q' value p) :
    Ensures chain P' program Q' :=
  Contract.Returns.weaken first stronger weaker

/-- What only grows holds beside. -/
theorem frame {program : Action α} {Q : α → Process → Prop} {F : Process → Prop}
    (first : Ensures chain P program Q) (lasts : ∀ {p p'}, p.Grows p' → F p → F p') :
    Ensures chain (fun p => F p ∧ P p) program fun value p => F p ∧ Q value p :=
  Contract.Returns.frame startUp_undisturbed first fun does => lasts does.grows

theorem both {program : Action α} {Q Q' : α → Process → Prop} (first : Ensures chain P program Q)
    (second : Ensures chain P' program Q') :
    Ensures chain (fun p => P p ∧ P' p) program fun value p => Q value p ∧ Q' value p :=
  Contract.Returns.both first second

end Ensures

/-! ## The functions -/

section Functions

variable {config : Config}

theorem saveCurrencies_ensures (currencies : List (String × ExtendedCurrency)) :
    Ensures chain (fun _ => True) (saveCurrencies currencies) fun _ _ => True := by
  refine .bind (.call (fun _ _ => trivial) fun _ _ _ => trivial) fun order => ?_
  induction order with
  | nil => exact .pure fun _ => trivial
  | cons entry rest ih => exact .bind (.call (fun _ _ => trivial) fun _ _ _ => trivial) fun _ => ih

/-- Every account found is expected, and stored. -/
def Known (chain : Chain) (config : Config) (p : Process) (accounts : Tracked) : Prop :=
  ∀ account ∈ accounts.rows, Expected chain config account ∧ p.Stored account.accountID

theorem Known.grows {p p' : Process} {accounts : Tracked} (grows : p.Grows p')
    (known : Known chain config p accounts) : Known chain config p' accounts :=
  fun account member => ⟨(known account member).1, grows.stored _ (known account member).2⟩

/-- The rows of `GetTrackedAccounts` are of wallets of the recipient. -/
theorem tracked_expected (sound : p.Sound chain) {row : AccountID × ℕ × String}
    (member : row ∈ p.tables.tracked config.recipient (jettons config.currencies.entries)) :
    ∃ master, row.2.2 = Libraries.toRaw master ∧ p.Stored row.1 ∧
      ∀ startLt, Expected chain config ⟨row.1, ⟨startLt, config.recipient, some master⟩⟩ := by
  obtain ⟨wallet, stored, joined⟩ := List.mem_filterMap.mp member
  obtain ⟨currency, found, joined⟩ := Option.bind_eq_some_iff.mp joined
  obtain ⟨account, found', joined⟩ := Option.bind_eq_some_iff.mp joined
  simp only [Option.ite_none_right_eq_some, Option.some.injEq] at joined
  obtain ⟨⟨owner, listed⟩, rfl⟩ := joined
  obtain ⟨master, right, address⟩ := sound.wallets wallet stored
  rw [found, Option.some.injEq] at right
  have key : account.address = wallet.address := Table.key_of_find found'
  obtain ⟨entry, member, hit⟩ := List.mem_filterMap.mp listed
  refine ⟨master, by rw [right]; rfl, ?_, fun startLt => ⟨⟨entry, member, ?_⟩, rfl, ?_⟩⟩
  · rw [Process.Stored, key, found']
    rfl
  · split at hit
    · rename_i master' jetton
      rw [right, Option.some.injEq] at hit
      have same : master' = master := toRaw_injective hit
      rw [jetton, same]
      exact (owner ▸ address.symm).trans key.symm
    · cases hit
  · intro other same
    cases same
    exact key.trans (owner ▸ address)

theorem scanTracked_known {rows : List (AccountID × ℕ × String)} {accounts accounts' : Tracked}
    (known : Known chain config p accounts)
    (right : ∀ row ∈ rows, ∃ master, row.2.2 = Libraries.toRaw master ∧ p.Stored row.1 ∧
      ∀ startLt, Expected chain config ⟨row.1, ⟨startLt, config.recipient, some master⟩⟩)
    (scanned : scanTracked config.recipient accounts rows = .ok accounts') :
    Known chain config p accounts' := by
  induction rows generalizing accounts with
  | nil =>
      cases scanned
      exact known
  | cons row rest ih =>
      obtain ⟨address, startLt, info⟩ := row
      obtain ⟨master, same, stored, expected⟩ := right _ List.mem_cons_self
      simp only [scanTracked, show info = Libraries.toRaw master from same,
        Libraries.parse_toRaw] at scanned
      refine ih (fun account member => ?_) (fun row member => right row (.tail _ member)) scanned
      rcases Table.mem_put.mp member with ⟨old, _⟩ | rfl
      · exact known account old
      · exact ⟨expected startLt, stored⟩

omit [Libraries] in
/-- The recipient itself is expected: TON is always listed. -/
theorem expected_recipient (startLt : ℕ) :
    Expected chain config ⟨config.recipient, ⟨startLt, config.recipient, none⟩⟩ :=
  ⟨⟨_, config.currencies.ton, rfl⟩, rfl, fun _ impossible => by cases impossible⟩

theorem getTrackedAccounts_ensures :
    Ensures chain (fun _ => True)
      (getTrackedAccounts config.recipient config.currencies.entries)
      fun accounts p => Known chain config p accounts := by
  refine .bind (R := fun rows p => ∀ row ∈ rows, ∃ master, row.2.2 = Libraries.toRaw master ∧
      p.Stored row.1 ∧ ∀ startLt,
        Expected chain config ⟨row.1, ⟨startLt, config.recipient, some master⟩⟩)
    (.call (fun _ _ => trivial) ?_) fun rows => ?_
  · intro p choice rows p' sound _ runs row member
    simp only [Call.run, Option.ite_none_right_eq_some, Option.some.injEq, Prod.mk.injEq,
      Except.ok.injEq] at runs
    obtain ⟨perm, rfl, rfl⟩ := runs
    exact tracked_expected sound (perm.mem_iff.mp member)
  refine .bind (R := fun accounts p => Known chain config p accounts)
    (.ret fun right accounts scanned => ?_) fun accounts => ?_
  · exact scanTracked_known (fun _ member => by cases member) right scanned
  refine .weaken (.attempt_bind (F := fun p => Known chain config p accounts)
    (R := fun _ p => p.Stored config.recipient) (P := fun _ => True)
    (.queryRow (.call (fun _ _ => trivial) ?_)) Known.grows fun result => ?_)
    (fun known => ⟨known, trivial⟩) fun known => known
  · intro p choice startLt p' _ _ runs
    simp only [Call.run, Option.some.injEq, Prod.mk.injEq] at runs
    obtain ⟨answer, rfl⟩ := runs
    cases found : p.tables.accounts.find config.recipient with
    | none =>
        rw [found] at answer
        cases answer
    | some row =>
        rw [Process.Stored, found]
        rfl
  · split
    · exact .pure fun holds => holds.1
    · exact .ret fun _ value impossible => by cases impossible
    · rename_i startLt
      refine .pure fun {p} holds account member => ?_
      rcases Table.mem_put.mp member with ⟨old, _⟩ | rfl
      · exact holds.1 account old
      · exact ⟨expected_recipient startLt, holds.2 startLt rfl⟩

/-- The accounts found so far: each is stored, or among the new ones. -/
structure Sought (chain : Chain) (config : Config) (found : Found) (p : Process) : Prop where
  accounts : ∀ account ∈ found.accounts.rows, Expected chain config account ∧
    (p.Stored account.accountID ∨ (found.new.find account.accountID).isSome)
  new : ∀ account ∈ found.new.rows, Expected chain config account ∧
    (found.accounts.find account.accountID).isSome

omit [Libraries] in
theorem isSome_put {accounts : Tracked} {account : Account} {address : AccountID} :
    ((accounts.put account).find address).isSome ↔
      account.accountID = address ∨ (accounts.find address).isSome := by
  rw [Table.find_put]
  split
  · simp [*]
  · simp [*]

theorem Sought.add {found : Found} (sought : Sought chain config found p) {account : Account}
    (expected : Expected chain config account) : Sought chain config (found.add account) p where
  accounts := by
    intro other member
    rcases Table.mem_put.mp member with ⟨old, _⟩ | rfl
    · obtain ⟨right, stored | new⟩ := sought.accounts other old
      · exact ⟨right, .inl stored⟩
      · exact ⟨right, .inr (isSome_put.mpr (.inr new))⟩
    · exact ⟨expected, .inr (isSome_put.mpr (.inl rfl))⟩
  new := by
    intro other member
    rcases Table.mem_put.mp member with ⟨old, _⟩ | rfl
    · exact ⟨(sought.new other old).1, isSome_put.mpr (.inr (sought.new other old).2)⟩
    · exact ⟨expected, isSome_put.mpr (.inl rfl)⟩

/-- What the loop over the currencies has done: the accounts found before are still there,
and that of a currency that has one of its own. -/
def Covers (chain : Chain) (recipient : AccountID) (found found' : Found)
    (currencies : List Currency) : Prop :=
  (∀ address, (found.accounts.find address).isSome → (found'.accounts.find address).isSome) ∧
    ∀ currency ∈ currencies, (∀ id, currency ≠ .extra id) →
      (found'.accounts.find (receiver chain recipient currency)).isSome

omit [Libraries] in
theorem Covers.add {recipient : AccountID} {found : Found} {account : Account} {currency : Currency}
    (receives : account.accountID = receiver chain recipient currency) :
    Covers chain recipient found (found.add account) [currency] := by
  refine ⟨fun address before => isSome_put.mpr (.inr before), fun other member _ => ?_⟩
  rw [List.mem_singleton.mp member]
  exact isSome_put.mpr (.inl receives)

theorem discover_ensures (found : Found) {entry : String × ExtendedCurrency}
    (listed : entry ∈ config.currencies.entries) :
    Ensures chain (Sought chain config found) (discover config.recipient found entry.2.currency)
      fun found' p => Sought chain config found' p ∧
        Covers chain config.recipient found found' [entry.2.currency] := by
  cases same : entry.2.currency with
  | extra id =>
      refine .pure fun sought => ⟨sought, fun _ before => before, fun currency member own => ?_⟩
      exact absurd (List.mem_singleton.mp member) (own id)
  | ton =>
      simp only [discover]
      split
      · rename_i known
        refine .pure fun sought => ⟨sought, fun _ before => before, fun currency member _ => ?_⟩
        rw [List.mem_singleton.mp member]
        exact known
      · exact .pure fun sought => ⟨sought.add (expected_recipient 0), .add rfl⟩
  | jetton master =>
      simp only [discover]
      split
      · rename_i known
        refine .pure fun sought => ⟨sought, fun _ before => before, fun currency member _ => ?_⟩
        obtain ⟨account, member', holds⟩ := List.any_eq_true.mp known
        obtain ⟨owner, jetton⟩ := of_decide_eq_true holds
        have wallet := (sought.accounts account member').1.wallet master jetton
        rw [List.mem_singleton.mp member, receiver, ← owner, ← wallet]
        exact Option.isSome_iff_exists.mpr ⟨account, Table.find_of_mem member'⟩
      · refine .bind (R := fun wallet p => wallet = chain.wallet master config.recipient ∧
          Sought chain config found p) (.call (fun _ _ => trivial) ?_) fun wallet => .pure ?_
        · intro p choice wallet p' _ sought runs
          cases runs
          exact ⟨rfl, sought⟩
        · rintro p ⟨rfl, sought⟩
          refine ⟨sought.add ⟨⟨entry, listed, by rw [same]; rfl⟩, rfl, fun other jetton => ?_⟩,
            .add rfl⟩
          cases jetton
          rfl

theorem discoverAll_ensures (found : Found) {order : List (String × ExtendedCurrency)}
    (listed : ∀ entry ∈ order, entry ∈ config.currencies.entries) :
    Ensures chain (Sought chain config found) (discoverAll config.recipient found order)
      fun found' p => Sought chain config found' p ∧
        Covers chain config.recipient found found' (order.map fun entry => entry.2.currency) := by
  induction order generalizing found with
  | nil => exact .pure fun sought => ⟨sought, fun _ before => before, fun _ none => by cases none⟩
  | cons entry rest ih =>
      refine .bind (discover_ensures found (listed _ List.mem_cons_self)) fun found₁ => ?_
      refine .weaken (.frame (F := fun _ => Covers chain config.recipient found found₁
        [entry.2.currency]) (ih found₁ fun entry member => listed entry (.tail _ member))
        fun _ covers => covers) (fun holds => ⟨holds.2, holds.1⟩) ?_
      rintro found₂ p ⟨⟨kept, first⟩, sought, kept', later⟩
      refine ⟨sought, fun address before => kept' _ (kept _ before), fun currency member own => ?_⟩
      rcases List.mem_cons.mp member with same | member
      · exact kept' _ (first currency (List.mem_singleton.mpr same) own)
      · exact later currency member own

/-- The wallet of the account is stored, for its jetton. -/
def Tables.HasWallet (tables : Tables) (address recipient master : AccountID) : Prop :=
  ∃ wallet ∈ tables.wallets, wallet.address = address ∧ wallet.owner = recipient ∧
    tables.currencies.table.find wallet.currency =
      some ⟨wallet.currency, .jetton, (Currency.jetton master).info⟩

/-- The account has its rows, with the logical time that is returned for it. -/
structure Process.Records (p : Process) (account : Account) : Prop where
  row : ∃ row, p.tables.accounts.find account.accountID = some row ∧
    row.startTxLt = account.info.maxDepthLt
  wallet : ∀ master, account.info.jetton = some master →
    p.tables.HasWallet account.accountID account.info.recipient master

theorem Process.Records.stored {account : Account} (records : p.Records account) :
    p.Stored account.accountID := by
  obtain ⟨row, found, _⟩ := records.row
  rw [Process.Stored, found]
  rfl

theorem writeJettonAccount_ensures {account : Account} (lastTx : TxID) {master : AccountID}
    (jetton : account.info.jetton = some master)
    (wallet : account.accountID = chain.wallet master account.info.recipient) (id : UUID) :
    Ensures chain
      (fun p => p.tables.currencies.table.find id =
        some ⟨id, .jetton, (Currency.jetton master).info⟩ ∧ True)
      (writeJettonAccount account lastTx id) fun _ p => p.Records account := by
  have lasts : ∀ {p p' : Process}, p.Grows p' →
      p.tables.currencies.table.find id = some ⟨id, .jetton, (Currency.jetton master).info⟩ →
      p'.tables.currencies.table.find id = some ⟨id, .jetton, (Currency.jetton master).info⟩ :=
    fun grows found => grows.currencies _ _ found
  refine .bind (.callWith (Q := fun _ p => p.tx = some ⟨none, none⟩) lasts
      (fun _ _ => trivial) ?_) fun _ =>
    .bind (.callWith (Q := fun _ p => p.tx = some ⟨none, none⟩) lasts
      (fun _ _ => trivial) ?_) fun now =>
    .bind (.callWith (Q := fun _ p => p.tx = some ⟨some (accountRow account lastTx now), none⟩)
      lasts (fun _ _ => trivial) ?_) fun _ =>
    .bind (.callWith (Q := fun _ p => p.tx = some ⟨some (accountRow account lastTx now),
      some ⟨id, account.accountID, account.info.recipient⟩⟩) lasts ?_ ?_) fun _ =>
    .call (fun _ _ => trivial) ?_
  · intro p choice answer p' _ runs
    cases runs
    rfl
  · intro p choice answer p' opened runs
    cases runs
    exact opened
  · intro p choice answer p' opened runs
    simp only [Call.run] at runs
    split at runs <;> cases runs
    rw [opened, Option.map_some]
  · intro p found _
    exact ⟨master, found, wallet⟩
  · intro p choice answer p' opened runs
    simp only [Call.run] at runs
    split at runs <;> cases runs
    rw [opened, Option.map_some]
  · rintro p choice answer p' _ ⟨found, opened⟩ runs
    simp only [Call.run, opened, Option.bind_some, Tables.commit] at runs
    split at runs <;> cases runs
    rename_i tables committed
    obtain ⟨accounts, inserted, rfl⟩ := Option.map_eq_some_iff.mp committed
    refine ⟨⟨_, (Table.find_insert? inserted _).trans (if_pos rfl), rfl⟩, fun other same => ?_⟩
    rw [jetton, Option.some.injEq] at same
    subst same
    exact ⟨_, List.mem_append_right _ (List.mem_singleton_self _), rfl, rfl, found⟩

theorem createAccount_ensures {account : Account} (expected : Expected chain config account)
    (lastTx : TxID) :
    Ensures chain (fun _ => True) (createAccount account lastTx) fun _ p => p.Records account := by
  unfold createAccount
  cases jetton : account.info.jetton with
  | some master =>
      refine .bind (R := fun id p => p.tables.currencies.table.find id =
          some ⟨id, .jetton, (Currency.jetton master).info⟩ ∧ True)
        (.queryRow (.call (fun _ _ => trivial) ?_)) fun id => ?_
      · intro p choice id p' _ _ runs
        simp only [Call.run, Option.some.injEq, Prod.mk.injEq] at runs
        obtain ⟨answer, rfl⟩ := runs
        have found : p.tables.currencies.of (.jetton master) = some id := by
          change orNoRows (p.tables.currencies.of (.jetton master)) = _ at answer
          cases same : p.tables.currencies.of (.jetton master) with
          | none =>
              rw [same] at answer
              cases answer
          | some other =>
              rw [same] at answer
              cases answer
              rfl
        obtain ⟨row, found, type, info⟩ := Currencies.of_eq_some.mp found
        obtain ⟨key, type', info'⟩ := row
        cases Table.key_of_find found
        exact ⟨found.trans (by rw [show type' = _ from type, show info' = _ from info]; rfl), trivial⟩
      · refine .weaken (.attempt_bind (F := fun _ => True)
          (writeJettonAccount_ensures lastTx jetton (expected.wallet master jetton) id)
          (fun _ _ => trivial) fun result => ?_) (fun found => ⟨trivial, found⟩)
          fun records => records
        refine .bind (R := fun _ p => ∀ value, result = .ok value → p.Records account)
          (.call (fun _ _ => trivial) ?_) fun _ => .ret fun records value same => records value same
        intro p choice answer p' _ records runs value same
        cases runs
        exact ⟨(records.2 value same).row, (records.2 value same).wallet⟩
  | none =>
      refine .bind (.call (Q := fun _ _ => True) (fun _ _ => trivial) fun _ _ _ => trivial) fun now =>
        .call (fun _ _ => trivial) ?_
      intro p choice answer p' _ _ runs
      simp only [Call.run] at runs
      split at runs <;> cases runs
      rename_i accounts inserted
      refine ⟨⟨_, (Table.find_insert? inserted _).trans (if_pos rfl), rfl⟩, fun master same => ?_⟩
      rw [jetton] at same
      cases same

/-- The accounts to be tracked, while the new ones among them are created one by one. -/
structure Creating (chain : Chain) (config : Config) (accounts : Tracked) (rest : List Account)
    (p : Process) : Prop where
  listed : ∀ account ∈ accounts.rows, Expected chain config account ∧
    (p.Stored account.accountID ∨ ∃ new ∈ rest, new.accountID = account.accountID)
  left : ∀ new ∈ rest, Expected chain config new ∧ (accounts.find new.accountID).isSome

theorem Creating.grows {accounts : Tracked} {rest : List Account} {p p' : Process}
    (grows : p.Grows p') (creating : Creating chain config accounts rest p) :
    Creating chain config accounts rest p' where
  listed := fun account member =>
    ⟨(creating.listed account member).1,
      (creating.listed account member).2.imp_left (grows.stored _)⟩
  left := creating.left

omit [Libraries] in
theorem Expected.refresh {account : Account} (expected : Expected chain config account) (lt : ℕ) :
    Expected chain config { account with info := { account.info with maxDepthLt := lt } } :=
  ⟨expected.listed, expected.recipient, expected.wallet⟩

/-- The next of the new accounts has been created. -/
theorem Creating.next {accounts : Tracked} {account : Account} {rest : List Account} {lt : ℕ}
    (creating : Creating chain config accounts (account :: rest) p)
    (stored : p.Stored account.accountID) :
    Creating chain config
      (accounts.put { account with info := { account.info with maxDepthLt := lt } }) rest p where
  listed := by
    intro other member
    rcases Table.mem_put.mp member with ⟨old, ne⟩ | rfl
    · obtain ⟨expected, held | ⟨new, member', same⟩⟩ := creating.listed other old
      · exact ⟨expected, .inl held⟩
      · rcases List.mem_cons.mp member' with rfl | later
        · exact absurd same.symm ne
        · exact ⟨expected, .inr ⟨new, later, same⟩⟩
    · exact ⟨(creating.left account List.mem_cons_self).1.refresh lt, .inl stored⟩
  left := fun new member => ⟨(creating.left new (.tail _ member)).1,
    isSome_put.mpr (.inr (creating.left new (.tail _ member)).2)⟩

theorem register_ensures {accounts : Tracked} {account : Account} {rest : List Account} :
    Ensures chain (Creating chain config accounts (account :: rest)) (register accounts account)
      fun accounts' p => Creating chain config accounts' rest p ∧
        ∀ address, (accounts.find address).isSome → (accounts'.find address).isSome := by
  refine .bind (R := fun _ => Creating chain config accounts (account :: rest))
    (.call (fun _ _ => trivial) fun _ creating runs => creating.grows (Call.run_grows runs))
    fun txID => ?_
  intro p sound creating
  have expected := (creating.left account List.mem_cons_self).1.refresh txID.lt
  refine Ensures.weaken (.bind (.frame (createAccount_ensures expected txID) Creating.grows)
    fun _ => .pure fun holds => ⟨holds.1.next holds.2.stored, fun address before =>
      isSome_put.mpr (.inr before)⟩) (fun holds => ⟨holds, trivial⟩) (fun holds => holds) p sound
    creating

theorem registerAll_ensures (accounts : Tracked) (new : List Account) :
    Ensures chain (Creating chain config accounts new) (registerAll accounts new)
      fun accounts' p => Known chain config p accounts' ∧
        ∀ address, (accounts.find address).isSome → (accounts'.find address).isSome := by
  induction new generalizing accounts with
  | nil =>
      refine .pure fun creating => ⟨fun account member => ?_, fun _ before => before⟩
      obtain ⟨expected, stored | ⟨_, none, _⟩⟩ := creating.listed account member
      · exact ⟨expected, stored⟩
      · cases none
  | cons account rest ih =>
      refine .bind register_ensures fun accounts₁ => ?_
      refine .weaken (.frame (F := fun _ => ∀ address, (accounts.find address).isSome →
        (accounts₁.find address).isSome) (ih accounts₁) fun _ kept => kept)
        (fun holds => ⟨holds.2, holds.1⟩) ?_
      rintro accounts₂ p ⟨kept, known, kept'⟩
      exact ⟨known, fun address before => kept' _ (kept _ before)⟩

omit [Libraries] in
/-- An extra currency comes to the account of TON, which is always listed. -/
theorem Covers.all {found found' : Found} {order : List (String × ExtendedCurrency)}
    (covers : Covers chain config.recipient found found' (order.map fun entry => entry.2.currency))
    (perm : order.Perm config.currencies.entries) :
    ∀ entry ∈ config.currencies.entries,
      (found'.accounts.find (receiver chain config.recipient entry.2.currency)).isSome := by
  have own : ∀ entry ∈ config.currencies.entries, (∀ id, entry.2.currency ≠ .extra id) →
      (found'.accounts.find (receiver chain config.recipient entry.2.currency)).isSome :=
    fun entry member => covers.2 entry.2.currency
      (List.mem_map.mpr ⟨entry, perm.mem_iff.mpr member, rfl⟩)
  intro entry member
  cases same : entry.2.currency with
  | extra id => exact own _ config.currencies.ton fun id => Currency.noConfusion
  | ton => exact same ▸ own entry member (by rw [same]; exact fun id => Currency.noConfusion)
  | jetton master =>
      exact same ▸ own entry member (by rw [same]; exact fun id => Currency.noConfusion)

theorem getAccountsForTracking_ensures :
    Ensures chain (fun _ => True)
      (getAccountsForTracking config.recipient config.currencies.entries) fun accounts p =>
        Known chain config p accounts ∧ ∀ entry ∈ config.currencies.entries,
          (accounts.find (receiver chain config.recipient entry.2.currency)).isSome := by
  refine .bind getTrackedAccounts_ensures fun accounts => ?_
  refine .bind (R := fun order p => order.Perm config.currencies.entries ∧
    Known chain config p accounts) (.call (fun _ _ => trivial) ?_) fun order => ?_
  · intro p choice order p' _ known runs
    simp only [Call.run, Option.ite_none_right_eq_some, Option.some.injEq, Prod.mk.injEq,
      Except.ok.injEq] at runs
    obtain ⟨perm, rfl, rfl⟩ := runs
    exact ⟨perm, known⟩
  rintro p sound ⟨perm, known⟩
  have sought : Sought chain config ⟨accounts, .empty⟩ p :=
    ⟨fun account member => ⟨(known account member).1, .inl (known account member).2⟩,
      fun _ none => by cases none⟩
  refine Ensures.bind (discoverAll_ensures ⟨accounts, .empty⟩ fun entry member =>
    perm.mem_iff.mp member) (fun found => ?_) p sound sought
  refine .bind (R := fun new p => new.Perm found.new.rows ∧ Sought chain config found p ∧
    Covers chain config.recipient ⟨accounts, .empty⟩ found
      (order.map fun entry => entry.2.currency)) (.call (fun _ _ => trivial) ?_) fun new => ?_
  · intro p choice new p' _ holds runs
    simp only [Call.run, Option.ite_none_right_eq_some, Option.some.injEq, Prod.mk.injEq,
      Except.ok.injEq] at runs
    obtain ⟨perm, rfl, rfl⟩ := runs
    exact ⟨perm, holds⟩
  rintro p sound ⟨permNew, sought, covers⟩
  have creating : Creating chain config found.accounts new p :=
    ⟨fun account member => ⟨(sought.accounts account member).1,
      (sought.accounts account member).2.imp_right fun held => by
        obtain ⟨other, found⟩ := Option.isSome_iff_exists.mp held
        exact ⟨other, permNew.mem_iff.mpr (Table.find_eq_some.mp found).1,
          Table.key_of_find found⟩⟩,
      fun account member => sought.new account (permNew.mem_iff.mp member)⟩
  have covered := covers.all perm
  refine Ensures.weaken (registerAll_ensures found.accounts new) (fun holds => holds)
    (fun holds => ⟨holds.1, fun entry member => holds.2 _ (covered entry member)⟩) p sound creating

theorem prepare_ensures :
    Ensures chain (fun p => p.config = config) (prepare config) fun order p =>
      Prepared chain p order := by
  have found : Ensures chain (fun _ => True) (prepare config) fun order p =>
      (order.map Account.accountID).Nodup ∧
      (∀ account ∈ order, Expected chain config account ∧ p.Stored account.accountID) ∧
      ∀ entry ∈ config.currencies.entries,
        receiver chain config.recipient entry.2.currency ∈ order.map Account.accountID := by
    refine .bind (saveCurrencies_ensures _) fun _ => .bind getAccountsForTracking_ensures fun accounts =>
      .call (fun _ _ => trivial) ?_
    rintro p choice order p' _ ⟨known, covers⟩ runs
    simp only [Call.run, Option.ite_none_right_eq_some, Option.some.injEq, Prod.mk.injEq,
      Except.ok.injEq] at runs
    obtain ⟨perm, rfl, rfl⟩ := runs
    refine ⟨(perm.map _).nodup_iff.mpr accounts.unique,
      fun account member => known account (perm.mem_iff.mp member), fun entry member => ?_⟩
    obtain ⟨account, found⟩ := Option.isSome_iff_exists.mp (covers entry member)
    rw [← Table.key_of_find found]
    exact List.mem_map_of_mem (perm.mem_iff.mpr (Table.find_eq_some.mp found).1)
  refine .weaken (.frame (F := fun p => p.config = config) found
    fun grows same => grows.config.trans same) (fun same => ⟨same, trivial⟩) ?_
  rintro order p ⟨rfl, distinct, known, covers⟩
  exact ⟨distinct, fun account member => (known account member).1, covers,
    fun account member => (known account member).2⟩

end Functions

/-! ## Every start-up -/

theorem Process.Sound.start (sound : p.Sound chain) (config : Config) :
    (Process.start config p.tables).Sound chain where
  wallets := sound.wallets
  pending := fun _ _ none => by cases none
  loaders := rfl
  indexers := rfl

/-- **Every start-up keeps the contract**, whatever happened before it. -/
theorem startUp_sound : (startUp chain).Sound where
  toClosed := startUp_undisturbed.closed
  exec := fun sound may does => ⟨sound.does may does, fun u other => absurd rfl other⟩
  spawn := by
    rintro t p program p' sound ⟨config, rfl, rfl⟩
    exact ⟨sound.start config, fun u other => absurd rfl other,
      prepare_ensures _ (sound.start config) rfl⟩
  retire := by
    rintro t result p p' sound _ rfl
    exact ⟨sound, fun u other => absurd rfl other⟩
  crash := by
    rintro p p' sound ⟨tables, works, rfl⟩
    refine ⟨fun row member => ?_, fun _ _ none => (nomatch none), rfl, rfl⟩
    change row ∈ tables.wallets at member
    rw [works.wallets] at member
    obtain ⟨master, found, address⟩ := sound.wallets row member
    exact ⟨master, works.currencies ▸ found, address⟩

/-- The service starts over the tables of the migration. -/
abbrev StartUps (chain : Chain) (config : Config) : Starting → Prop :=
  (system chain).Reachable (.idle (.start config .empty))

theorem prepared_of_run {config : Config} {c : Starting} (run : StartUps chain config c)
    {order : List Account} (ended : c.pool () = some (.ret (.ok order))) :
    c.state.Sound chain ∧ Prepared chain c.state order := by
  have empty : (Process.start config .empty).Sound chain :=
    ⟨fun row none => (nomatch none), fun _ _ none => (nomatch none), rfl, rfl⟩
  have kept := startUp_sound.reachable (.idle empty) run
  exact ⟨kept.inv, kept.post startUp_sound ended order rfl⟩

end StartUp

end SpiceHarvester
