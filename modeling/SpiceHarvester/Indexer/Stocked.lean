import SpiceHarvester.Backfill
import SpiceHarvester.Indexer.Following

/-!
# What is stored of the chain of an account

A transaction of the chain is stored when the row with its hash is its row, a processing
error apart. `Tracks.Stocked` says that the rows of an account are transactions of its chain
after a start, and that no row of another account has one of their hashes. Every step of the
tracks keeps this (`Tracks.Stocked.step`), as long as one loader at a time works for the
account and the pages come from the chain.

Only the loader of the account changes what is stored of the chain
(`Tracks.Stocked.held_step`): what `GetGaps` reads of it is therefore still so when the gaps
are filled.
-/

set_option autoImplicit false

namespace SpiceHarvester

open Interleaving Sql Backfill

/-! ## The chain -/

namespace AccountChain

variable {chain : AccountChain} {x y tx : Transaction} {top : ℕ} {txs tail : List Transaction}

/-- The LTs of the transactions. -/
def lts (chain : AccountChain) : Set ℕ := {lt | ∃ tx ∈ chain.txs, tx.lt = lt}

/-- No two transactions have one hash. -/
def Distinct (chain : AccountChain) : Prop :=
  ∀ tx ∈ chain.txs, ∀ other ∈ chain.txs, tx.hash = other.hash → tx = other

theorem eq_of_lt (member : x ∈ chain.txs) (member' : y ∈ chain.txs) (same : x.lt = y.lt) : x = y := by
  obtain ⟨newer, older, parts⟩ := List.append_of_mem member
  rw [parts] at member'
  obtain later | here := List.mem_append.mp member'
  · have lower := newer_lt parts y later
    omega
  · obtain rfl | earlier := List.mem_cons.mp here
    · rfl
    · obtain ⟨_, _, lower, linked⟩ := linked_from parts
      have le := linked.le y earlier
      omega

/-- Each transaction names the one before it, so that going down passes over none. -/
theorem stepwise (chain : AccountChain) : Stepwise chain.lts fun a b =>
    ∃ newer ∈ chain.txs, ∃ older ∈ chain.txs, older.lt = a ∧ newer.lt = b ∧
      newer.prevTxLt = older.lt ∧ newer.prevTxHash = older.hash := by
  rintro _ ⟨x, member, rfl⟩ _ ⟨y, member', rfl⟩ lower
  obtain ⟨newer, older, parts⟩ := List.append_of_mem member'
  obtain ⟨_, _, down, linked⟩ := linked_from parts
  rw [parts] at member
  have behind : x ∈ older := by
    obtain later | here := List.mem_append.mp member
    · have above := newer_lt parts x later
      omega
    · obtain rfl | earlier := List.mem_cons.mp here
      · exact absurd lower (lt_irrefl _)
      · exact earlier
  cases older with
  | nil => cases behind
  | cons z older =>
      obtain ⟨lt, hash, _⟩ := id linked
      have among : z ∈ chain.txs := by
        rw [parts]
        exact List.mem_append_right _ (List.mem_cons_of_mem _ List.mem_cons_self)
      refine ⟨z.lt, ⟨z, among, rfl⟩, ⟨y, member', z, among, rfl, rfl, lt.symm, hash.symm⟩, ?_, ?_⟩
      · rw [lt]
        exact linked.le x behind
      · rw [lt]
        exact down

/-- What the lite server has from an LT on is the end of the chain. -/
theorem since_parts (chain : AccountChain) (top : ℕ) :
    ∃ newer, chain.txs = newer ++ chain.since top ∧ ∀ tx ∈ newer, top < tx.lt :=
  ⟨chain.txs.takeWhile fun tx => decide (top < tx.lt), List.takeWhile_append_dropWhile.symm,
    fun _ member => by simpa using List.mem_takeWhile_imp member⟩

theorem since_le (member : tx ∈ chain.since top) : tx ∈ chain.txs ∧ tx.lt ≤ top := by
  obtain ⟨newer, parts, _⟩ := chain.since_parts top
  have among : tx ∈ chain.txs := by
    rw [parts]
    exact List.mem_append_right _ member
  refine ⟨among, ?_⟩
  cases since : chain.since top with
  | nil =>
      rw [since] at member
      cases member
  | cons first older =>
      have low : first.lt ≤ top := by
        have stops := List.head?_dropWhile_not (fun tx : Transaction => decide (top < tx.lt)) chain.txs
        rw [← AccountChain.since, since] at stops
        simpa using stops
      rw [since] at member parts
      have le := (linked_from parts).le tx member
      omega

/-- Between the LT that the last transaction of a page names and the LT asked for lie the
transactions of the page only. -/
theorem since_between (parts : chain.since top = txs ++ tail) (some' : txs ≠ []) :
    (txs.getLast some').prevTxLt ≤ top ∧
      ∀ x ∈ chain.txs, (txs.getLast some').prevTxLt < x.lt → x.lt ≤ top → x ∈ txs := by
  obtain ⟨newer, whole, above⟩ := chain.since_parts top
  obtain ⟨first, rest, rfl⟩ := List.exists_cons_of_ne_nil some'
  rw [parts, List.cons_append] at whole
  have linked : Linked first.lt first.hash (first :: rest ++ tail) := linked_from whole
  have after := linked.after some'
  have lower : ((first :: rest).getLast some').prevTxLt < ((first :: rest).getLast some').lt := by
    have member : (first :: rest).getLast some' ∈ chain.txs := by
      rw [whole, ← List.cons_append]
      exact List.mem_append_right _ (List.mem_append_left _ (List.getLast_mem some'))
    obtain ⟨_, _, parts'⟩ := List.append_of_mem member
    exact (linked_from parts').2.2.1
  refine ⟨?_, fun x member high low => ?_⟩
  · have among : (first :: rest).getLast some' ∈ chain.since top := by
      rw [parts]
      exact List.mem_append_left _ (List.getLast_mem some')
    have le := (since_le among).2
    omega
  · rw [whole, ← List.cons_append] at member
    obtain newer' | here := List.mem_append.mp member
    · have beyond := above x newer'
      omega
    · refine (List.mem_append.mp here).resolve_right fun behind => ?_
      have le := after.le x behind
      omega

end AccountChain

/-! ## What is stored -/

/-- The row with a hash, without its processing error. -/
def stock (transactions : Table TransactionRow.hash) (hash : Bits256) : Option TransactionRow :=
  (transactions.find hash).map TransactionRow.unmarked

theorem stock_of_mem {transactions : Table TransactionRow.hash} {row : TransactionRow}
    (member : row ∈ transactions.rows) : stock transactions row.hash = some row.unmarked := by
  rw [stock, Table.find_of_mem member, Option.map_some]

theorem mem_of_stock {transactions : Table TransactionRow.hash} {hash : Bits256}
    {row : TransactionRow} (found : stock transactions hash = some row) :
    ∃ stored ∈ transactions.rows, stored.hash = hash ∧ stored.unmarked = row := by
  obtain ⟨stored, found, same⟩ := Option.map_eq_some_iff.mp found
  obtain ⟨member, key⟩ := Table.find_eq_some.mp found
  exact ⟨stored, member, key, same⟩

/-- An `INSERT` that keeps the row that is there. -/
theorem stock_insert (transactions : Table TransactionRow.hash) (account : AccountID)
    (tx : Transaction) (hash : Bits256) :
    stock ((transactions.insert? (tx.row account)).getD transactions) hash =
      (stock transactions hash).or (if tx.hash = hash then some (tx.row account) else none) := by
  rw [stock, stock, Table.find_getD_insert?]
  cases transactions.find hash with
  | some row => rfl
  | none =>
      change Option.map _ (if tx.hash = hash then some (tx.row account) else none) = _
      split <;> rfl

/-- Versions that differ from what is stored in their processing errors only. -/
def Marks (transactions : Table TransactionRow.hash) (written : List TransactionRow) : Prop :=
  ∀ row ∈ written, stock transactions row.hash = some row.unmarked

theorem Marks.stock_view {transactions : Table TransactionRow.hash} {written : List TransactionRow}
    (marks : Marks transactions written) (hash : Bits256) :
    stock (transactions.view written) hash = stock transactions hash := by
  rw [stock, stock, Table.find_view, Option.map_map]
  cases found : transactions.find hash with
  | none => rfl
  | some row =>
      rw [Option.map_some, Option.map_some, Function.comp_apply, Option.some.injEq]
      by_cases held : Table.owns TransactionRow.hash written row.hash = true
      · have here := marks _ (Table.latest_mem_of_owns held)
        rw [Table.key_latest TransactionRow.hash, stock, Table.key_of_find found, found,
          Option.map_some, Option.some.injEq] at here
        exact here.symm
      · rw [Table.latest_of_not_owns (Bool.not_eq_true _ ▸ held)]

/-- What is marked once more. -/
theorem Marks.rewrite {transactions : Table TransactionRow.hash} {written : List TransactionRow}
    (marks : Marks transactions written) (condition : TransactionRow → Bool) (error : String) :
    Marks transactions (transactions.rewrite written condition (.markError error)) := by
  intro row member
  obtain marked | before := List.mem_append.mp member
  · obtain ⟨seen, hit, rfl⟩ := List.mem_map.mp marked
    have here := stock_of_mem (List.mem_filter.mp hit).1
    rw [marks.stock_view] at here
    exact here
  · exact marks row before

/-- The LTs of the transactions of the chain that are stored. -/
def AccountChain.held (chain : AccountChain) (account : AccountID)
    (transactions : Table TransactionRow.hash) : Set ℕ :=
  {lt | ∃ tx ∈ chain.txs, tx.lt = lt ∧ stock transactions tx.hash = some (tx.row account)}

/-- The rows of the account are transactions of its chain after the start, and no other row
has one of their hashes. -/
structure Stock (chain : AccountChain) (account : AccountID) (startLt : ℕ)
    (transactions : Table TransactionRow.hash) : Prop where
  rows : ∀ row ∈ transactions.rows, row.accountID = account →
    ∃ tx ∈ chain.txs, startLt < tx.lt ∧ row.unmarked = tx.row account
  own : ∀ row ∈ transactions.rows, ∀ tx ∈ chain.txs, row.hash = tx.hash →
    row.unmarked = tx.row account

section Stock

variable {chain : AccountChain} {account : AccountID} {startLt : ℕ}
  {transactions transactions' : Table TransactionRow.hash} {tx : Transaction}

theorem held_iff (member : tx ∈ chain.txs) : tx.lt ∈ chain.held account transactions ↔
    stock transactions tx.hash = some (tx.row account) := by
  constructor
  · rintro ⟨other, member', same, stored⟩
    exact AccountChain.eq_of_lt member' member same ▸ stored
  · exact fun stored => ⟨tx, member, rfl, stored⟩

theorem held_subset : chain.held account transactions ⊆ chain.lts :=
  fun _ ⟨tx, member, lt, _⟩ => ⟨tx, member, lt⟩

theorem held_congr (same : ∀ hash, stock transactions' hash = stock transactions hash) :
    chain.held account transactions' = chain.held account transactions := by
  simp only [AccountChain.held, same]

namespace Stock

/-- A row of the account is one of the transactions held. -/
theorem of_row (sound : Stock chain account startLt transactions) {row : TransactionRow}
    (member : row ∈ transactions.rows) (owned : row.accountID = account) :
    ∃ tx ∈ chain.txs, startLt < tx.lt ∧ row.unmarked = tx.row account ∧
      tx.lt ∈ chain.held account transactions := by
  obtain ⟨tx, among, deep, same⟩ := sound.rows row member owned
  have hash : row.hash = tx.hash := show row.unmarked.hash = (tx.row account).hash from same ▸ rfl
  refine ⟨tx, among, deep, same, (held_iff among).mpr ?_⟩
  rw [← hash, stock_of_mem member, same]

theorem congr (sound : Stock chain account startLt transactions)
    (same : ∀ hash, stock transactions' hash = stock transactions hash) :
    Stock chain account startLt transactions' where
  rows row member owned := by
    have found := (same row.hash).symm.trans (stock_of_mem member)
    obtain ⟨stored, member', _, unmarked⟩ := mem_of_stock found
    obtain ⟨tx, among, deep, equal⟩ := sound.rows stored member'
      (show stored.unmarked.accountID = account from unmarked ▸ owned)
    exact ⟨tx, among, deep, unmarked ▸ equal⟩
  own row member tx among hash := by
    have found := (same row.hash).symm.trans (stock_of_mem member)
    obtain ⟨stored, member', key, unmarked⟩ := mem_of_stock found
    exact unmarked ▸ sound.own stored member' tx among (key.trans hash)

/-- A transaction of the chain after the start is inserted. -/
theorem insert (sound : Stock chain account startLt transactions) (distinct : chain.Distinct)
    (member : tx ∈ chain.txs) (deep : startLt < tx.lt) :
    Stock chain account startLt ((transactions.insert? (tx.row account)).getD transactions) ∧
      chain.held account ((transactions.insert? (tx.row account)).getD transactions) =
        Insert.insert tx.lt (chain.held account transactions) := by
  refine ⟨⟨fun row among owned => ?_, fun row among other member' hash => ?_⟩, ?_⟩
  · obtain old | rfl := Table.mem_getD_insert? among
    · exact sound.rows row old owned
    · exact ⟨tx, member, deep, TransactionRow.unmarked_row account tx⟩
  · obtain old | rfl := Table.mem_getD_insert? among
    · exact sound.own row old other member' hash
    · rw [TransactionRow.unmarked_row, distinct tx member other member' hash]
  · ext lt
    rw [Set.mem_insert_iff]
    constructor
    · rintro ⟨other, member', rfl, stored⟩
      rw [stock_insert] at stored
      obtain before | ⟨_, new⟩ := Option.or_eq_some_iff.mp stored
      · exact .inr ⟨other, member', rfl, before⟩
      · obtain ⟨hash, _⟩ := Option.ite_none_right_eq_some.mp new
        exact .inl (congrArg Transaction.lt (distinct tx member other member' hash)).symm
    · rintro (rfl | ⟨other, member', rfl, stored⟩)
      · refine ⟨tx, member, rfl, ?_⟩
        rw [stock_insert, if_pos rfl]
        cases found : stock transactions tx.hash with
        | none => rfl
        | some row =>
            obtain ⟨there, among, key, rfl⟩ := mem_of_stock found
            rw [Option.some_or, sound.own there among tx member key]
      · refine ⟨other, member', rfl, ?_⟩
        rw [stock_insert, stored, Option.some_or]

/-- A transaction of another account is inserted. -/
theorem insert_other (sound : Stock chain account startLt transactions) {other : AccountID}
    (apart : other ≠ account) (foreign : ∀ own ∈ chain.txs, tx.hash ≠ own.hash) :
    Stock chain account startLt ((transactions.insert? (tx.row other)).getD transactions) ∧
      chain.held account ((transactions.insert? (tx.row other)).getD transactions) =
        chain.held account transactions := by
  refine ⟨⟨fun row among owned => ?_, fun row among own member hash => ?_⟩, ?_⟩
  · obtain old | rfl := Table.mem_getD_insert? among
    · exact sound.rows row old owned
    · exact absurd owned apart
  · obtain old | rfl := Table.mem_getD_insert? among
    · exact sound.own row old own member hash
    · exact absurd hash (foreign own member)
  · ext lt
    have same : ∀ own ∈ chain.txs,
        stock ((transactions.insert? (tx.row other)).getD transactions) own.hash =
          stock transactions own.hash := by
      intro own member
      rw [stock_insert, if_neg (foreign own member), Option.or_none]
    constructor
    · rintro ⟨own, member, rfl, stored⟩
      exact ⟨own, member, rfl, (same own member).symm.trans stored⟩
    · rintro ⟨own, member, rfl, stored⟩
      exact ⟨own, member, rfl, (same own member).trans stored⟩

/-! ## What `GetGaps` reads -/

/-- The predecessor of a transaction that is stored is looked for, if it is not. -/
theorem mem_missing (sound : Stock chain account startLt transactions) {newer older : Transaction}
    (member : newer ∈ chain.txs) (member' : older ∈ chain.txs)
    (lt : newer.prevTxLt = older.lt) (hash : newer.prevTxHash = older.hash)
    (stored : newer.lt ∈ chain.held account transactions)
    (absent : older.lt ∉ chain.held account transactions) (positive : 0 < older.lt) :
    (older.lt, older.hash) ∈ missing transactions account := by
  obtain ⟨row, among, _, same⟩ := mem_of_stock ((held_iff member).mp stored)
  have prevLt : row.prevTxLt = older.lt := (row.prevTxLt_of_unmarked same).trans lt
  have prevHash : row.prevTxHash = older.hash :=
    (show row.unmarked.prevTxHash = (newer.row account).prevTxHash from same ▸ rfl).trans hash
  have free : transactions.find row.prevTxHash = none := by
    rw [prevHash]
    cases found : transactions.find older.hash with
    | none => rfl
    | some there =>
        obtain ⟨among', key⟩ := Table.find_eq_some.mp found
        refine absurd ((held_iff member').mpr ?_) absent
        rw [stock, found, Option.map_some, sound.own there among' older member' key]
  have owned : row.accountID = account :=
    show row.unmarked.accountID = (newer.row account).accountID from same ▸ rfl
  refine List.mem_map.mpr ⟨row, List.mem_filter.mpr ⟨among, ?_⟩, by rw [prevLt, prevHash]⟩
  rw [free, owned, prevLt]
  simp only [decide_true, Option.isNone_none, Bool.true_and, decide_eq_true_eq]
  omega

/-- Above what is looked for something is stored. -/
theorem above_missing (sound : Stock chain account startLt transactions) {start : ℕ × Bits256}
    (member : start ∈ missing transactions account) :
    ∃ lt ∈ chain.held account transactions, start.1 ≤ lt := by
  obtain ⟨row, hit, rfl⟩ := List.mem_map.mp member
  obtain ⟨among, holds⟩ := List.mem_filter.mp hit
  rw [Bool.and_eq_true, Bool.and_eq_true, decide_eq_true_eq] at holds
  obtain ⟨tx, member', _, same, stored⟩ := sound.of_row among holds.1.1
  obtain ⟨_, _, parts⟩ := List.append_of_mem member'
  have lower := (AccountChain.linked_from parts).2.2.1
  refine ⟨tx.lt, stored, ?_⟩
  rw [row.prevTxLt_of_unmarked same]
  exact lower.le

/-- The LT that a query finds is one of those held, below the bound if there is one. -/
theorem of_highestLt (sound : Stock chain account startLt transactions) {below : Option ℕ} {lt : ℕ}
    (found : highestLt transactions account below = some lt) :
    lt ∈ chain.held account transactions ∧ ∀ bound, below = some bound → lt < bound := by
  have member := (List.max?_eq_some_iff.mp found).1
  obtain ⟨row, hit, rfl⟩ := List.mem_map.mp member
  obtain ⟨among, holds⟩ := List.mem_filter.mp hit
  rw [Bool.and_eq_true, decide_eq_true_eq] at holds
  obtain ⟨tx, _, _, same, stored⟩ := sound.of_row among holds.1
  rw [row.lt_of_unmarked same]
  refine ⟨stored, fun bound here => ?_⟩
  have lower := holds.2
  rw [here, Option.all_some, decide_eq_true_eq, row.lt_of_unmarked same] at lower
  exact lower

end Stock

end Stock

/-! ## The tracks -/

/-- The job is a loader of the account. -/
def Job.stocks (account : AccountID) : Job → Bool
  | .loaderWorker worker _ => decide (worker.accountID = account)
  | _ => false

/-- The pages that a loader has received: from the chain, for the account itself, and without
a hash of the chain for another one. -/
structure Station.Stocks (chain : AccountChain) (account : AccountID) (startLt : ℕ)
    (transactions : Table TransactionRow.hash) (station : Station) : Prop where
  own : ∀ {worker rounds}, station.job = .loaderWorker worker rounds → worker.accountID = account →
    worker.info.maxDepthLt = startLt ∧ ∀ tx ∈ station.page, tx ∈ chain.txs
  others : ∀ {worker rounds}, station.job = .loaderWorker worker rounds →
    worker.accountID ≠ account → ∀ tx ∈ station.page, ∀ own ∈ chain.txs, tx.hash ≠ own.hash
  marks : ∀ {intake}, station.intake = some intake → Marks transactions intake.transactions

theorem Station.Stocks.congr {chain : AccountChain} {account : AccountID} {startLt : ℕ}
    {transactions transactions' : Table TransactionRow.hash} {station : Station}
    (sound : station.Stocks chain account startLt transactions)
    (grows : ∀ {hash row}, stock transactions hash = some row → stock transactions' hash = some row) :
    station.Stocks chain account startLt transactions' :=
  { sound with marks := fun opened row member => grows (sound.marks opened row member) }

namespace Tracks

variable {τ : Type}

/-- One loader at a time works for the account, from its start on. Its pages come from the
chain, and the pages of others do not. -/
def stocking (chain : AccountChain) (account : AccountID) (startLt : ℕ) : Guard τ where
  starts k job := ∀ worker rounds, job = .loaderWorker worker rounds → worker.accountID = account →
    worker.info.maxDepthLt = startLt ∧
      ∀ t station, k.station t = some station → station.job.stocks account = false
  receives job page := ∀ worker rounds, job = .loaderWorker worker rounds →
    (worker.accountID = account → ∀ tx ∈ page, tx ∈ chain.txs) ∧
      (worker.accountID ≠ account → ∀ tx ∈ page, ∀ own ∈ chain.txs, tx.hash ≠ own.hash)
  fails _ := True

/-- What is stored of the chain, and what the threads may add to it. -/
structure Stocked (chain : AccountChain) (account : AccountID) (startLt : ℕ) (k : Tracks τ) :
    Prop where
  stock : Stock chain account startLt k.transactions
  stations : ∀ {t station}, k.station t = some station →
    station.Stocks chain account startLt k.transactions
  single : ∀ {t u station other}, k.station t = some station → k.station u = some other →
    station.job.stocks account = true → other.job.stocks account = true → t = u

variable {chain : AccountChain} {account : AccountID} {startLt : ℕ} {k k' : Tracks τ} {t : τ}

/-- The thread is a loader of the account. -/
def Loading (k : Tracks τ) (account : AccountID) (t : τ) : Prop :=
  ∃ station, k.station t = some station ∧ station.job.stocks account = true

namespace Stocked

variable [DecidableEq τ]

/-- One thread learns something. -/
theorem put (stocked : k.Stocked chain account startLt) {station new : Station}
    (held : k.station t = some station) (job : new.job = station.job)
    (sound : new.Stocks chain account startLt k.transactions) :
    (k.put t (some new)).Stocked chain account startLt where
  stock := stocked.stock
  stations found := by
    obtain ⟨_, same⟩ | ⟨_, found⟩ := station_put found
    · cases same
      exact sound
    · exact stocked.stations found
  single {u v one other} found found' works works' := by
    have back : ∀ {u one}, (k.put t (some new)).station u = some one →
        one.job.stocks account = true →
        ∃ before, k.station u = some before ∧ before.job.stocks account = true := by
      intro u one found works
      obtain ⟨rfl, same⟩ | ⟨_, found⟩ := station_put found
      · cases same
        exact ⟨station, held, job ▸ works⟩
      · exact ⟨one, found, works⟩
    obtain ⟨_, before, works⟩ := back found works
    obtain ⟨_, before', works'⟩ := back found' works'
    exact stocked.single before before' works works'

omit [DecidableEq τ] in
/-- The rows change, and no version that has been written is lost. -/
theorem store (stocked : k.Stocked chain account startLt) {transactions : Table TransactionRow.hash}
    (sound : Stock chain account startLt transactions)
    (grows : ∀ {hash row}, SpiceHarvester.stock k.transactions hash = some row →
      SpiceHarvester.stock transactions hash = some row) :
    Stocked chain account startLt { k with transactions := transactions } where
  stock := sound
  stations found := (stocked.stations found).congr grows
  single := stocked.single

omit [DecidableEq τ] in
/-- A transaction of the page is stored. -/
theorem load (stocked : k.Stocked chain account startLt) (distinct : chain.Distinct)
    {station : Station} {worker : Account} {rounds : ℕ} {tx : Transaction}
    (held : k.station t = some station) (job : station.job = .loaderWorker worker rounds)
    (received : tx ∈ station.page) (deep : worker.info.maxDepthLt < tx.lt) :
    Stocked chain account startLt { k with
      transactions := (k.transactions.insert? (tx.row worker.accountID)).getD k.transactions } := by
  refine stocked.store ?_ fun found => by rw [stock_insert, found, Option.some_or]
  by_cases own : worker.accountID = account
  · subst own
    obtain ⟨depth, pages⟩ := (stocked.stations held).own job rfl
    exact (stocked.stock.insert distinct (pages tx received) (depth ▸ deep)).1
  · exact (stocked.stock.insert_other own ((stocked.stations held).others job own tx received)).1

/-- A thread starts. -/
theorem start (stocked : k.Stocked chain account startLt) {job : Job}
    (allowed : (stocking chain account startLt).starts k job) :
    (k.put t (some (Thread.start job).station)).Stocked chain account startLt where
  stock := stocked.stock
  stations found := by
    obtain ⟨_, same⟩ | ⟨_, found⟩ := station_put found
    · cases same
      exact {
        own := fun job own => ⟨(allowed _ _ job own).1, fun _ member => by cases member⟩
        others := fun _ _ _ member => by cases member
        marks := fun opened => by cases opened }
    · exact stocked.stations found
  single {u v one other} found found' works works' := by
    have free : job.stocks account = true → ∀ {w station}, k.station w = some station →
        station.job.stocks account ≠ true := by
      intro works w station before same
      cases job with
      | loaderWorker worker rounds =>
          have none := (allowed worker rounds rfl (of_decide_eq_true works)).2 w station before
          rw [same] at none
          cases none
      | _ => cases works
    obtain ⟨here, same⟩ | ⟨_, before⟩ := station_put found
    · obtain ⟨here', _⟩ | ⟨_, before'⟩ := station_put found'
      · exact here.trans here'.symm
      · cases same
        exact absurd works' (free works before')
    · obtain ⟨_, same⟩ | ⟨_, before'⟩ := station_put found'
      · cases same
        exact absurd works (free works' before)
      · exact stocked.single before before' works works'

/-- A thread ends. -/
theorem leave (stocked : k.Stocked chain account startLt) :
    (k.put t none).Stocked chain account startLt where
  stock := stocked.stock
  stations found := by
    obtain ⟨_, none⟩ | ⟨_, found⟩ := station_put found
    · cases none
    · exact stocked.stations found
  single found found' := by
    obtain ⟨_, none⟩ | ⟨_, found⟩ := station_put found
    · cases none
    · obtain ⟨_, none⟩ | ⟨_, found'⟩ := station_put found'
      · cases none
      · exact stocked.single found found'

/-- `COMMIT` changes processing errors only. -/
theorem commit (stocked : k.Stocked chain account startLt) {station : Station} {intake : Intake}
    (held : k.station t = some station) (opened : station.intake = some intake) :
    (k.commit t station intake).Stocked chain account startLt := by
  have same := ((stocked.stations held).marks opened).stock_view
  have stored : Stocked chain account startLt
      { k with transactions := k.transactions.view intake.transactions } :=
    stocked.store (stocked.stock.congr same) fun {hash row} found => by rw [same, found]
  have closed : ({ station with
      intake := none
      saved := true
      credited := intake.credits } : Station).Stocks chain account startLt
        (k.transactions.view intake.transactions) :=
    { stored.stations held with marks := fun impossible => by cases impossible }
  have job : ({ station with
      intake := none
      saved := true
      credited := intake.credits } : Station).job = station.job := rfl
  exact { stored.put held job closed with }

variable [Libraries]

/-- **Every step keeps the rows of the account transactions of its chain.** -/
theorem step (stocked : k.Stocked chain account startLt) (distinct : chain.Distinct)
    (step : Step (stocking chain account startLt) t k k') : k'.Stocked chain account startLt := by
  cases step with
  | quiet => exact stocked
  | load tx held job received deep => exact stocked.load distinct held job received deep
  | @receive station page held allowed =>
      have sound := stocked.stations held
      exact stocked.put held rfl { sound with
        own := fun job own => ⟨(sound.own job own).1, (allowed _ _ job).1 own⟩
        others := fun job apart => (allowed _ _ job).2 apart }
  | refresh other last block now => exact { stocked with }
  | resume held job idle unfetched => exact stocked.put held rfl { stocked.stations held with }
  | fetch lt held job idle mayAsk => exact stocked.put held rfl { stocked.stations held with }
  | begin call held idle unsaved mayBegin =>
      refine stocked.put held rfl { stocked.stations held with marks := ?_ }
      rintro _ ⟨⟩ _ ⟨⟩
  | credit looked credits held opened _ =>
      have sound := stocked.stations held
      have marks := sound.marks opened
      refine stocked.put held rfl { sound with marks := ?_ }
      rintro _ ⟨⟩
      exact marks
  | mark error held opened parsing =>
      have sound := stocked.stations held
      refine stocked.put held rfl { sound with marks := ?_ }
      rintro _ ⟨⟩
      exact (sound.marks opened).rewrite _ error
  | process held opened =>
      have sound := stocked.stations held
      have marks := sound.marks opened
      refine stocked.put held rfl { sound with marks := ?_ }
      rintro _ ⟨⟩
      exact marks
  | commit held opened _ _ _ => exact stocked.commit held opened
  | rollback held =>
      exact stocked.put held rfl { stocked.stations held with
        marks := fun impossible => by cases impossible }
  | fail held allowed => exact stocked.put held rfl { stocked.stations held with }
  | start job allowed => exact stocked.start allowed
  | leave => exact stocked.leave
  | stop =>
      exact { stocked with
        stations := fun found => by cases found
        single := fun found => by cases found }

/-- **Only the loader of the account changes what is stored of its chain.** -/
theorem held_step (stocked : k.Stocked chain account startLt) (other : ¬ k.Loading account t)
    (step : Step (stocking chain account startLt) t k k') :
    chain.held account k'.transactions = chain.held account k.transactions := by
  cases step with
  | @load station worker rounds tx held job received deep =>
      have apart : worker.accountID ≠ account := by
        intro own
        refine other ⟨station, held, ?_⟩
        rw [job]
        exact decide_eq_true own
      exact (stocked.stock.insert_other apart
        ((stocked.stations held).others job apart tx received)).2
  | commit held opened _ _ _ =>
      exact held_congr ((stocked.stations held).marks opened).stock_view
  | _ => rfl

end Stocked

end Tracks

end SpiceHarvester
