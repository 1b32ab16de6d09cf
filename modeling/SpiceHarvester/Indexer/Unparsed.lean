import SpiceHarvester.Indexer.Stocked

/-!
# Transactions whose body cannot be parsed

A transaction whose body cannot be parsed does not stop the indexer. `SavePayments` writes the
error to its row, and `last_processed_lt` goes on with the same commit. `Tracks.Noted` says what
is known of the rows that are read and of the errors that are written. Every step of the tracks
keeps it (`Tracks.Noted.step`).

Hence the indexer goes through its chain in order and leaves out no transaction, with an error
stored for each one that it could not parse and no invoice changed by it
(`chain_processed`).
-/

set_option autoImplicit false

namespace SpiceHarvester

open Interleaving Sql

/-! ## Rows that stay -/

/-- The row is one of the transaction that the call reports the parsing error of. -/
def PaymentCall.Explains (call : PaymentCall) (row : TransactionRow) : Prop :=
  row.accountID = call.account ∧ row.lt = call.txLt ∧
    ∃ error, call.parsingError = some error ∧ row.processingError = some error

/-- What is stored stays stored, a processing error apart. -/
def Grown (transactions transactions' : Table TransactionRow.hash) : Prop :=
  ∀ hash row, stock transactions hash = some row → stock transactions' hash = some row

theorem grown_insert (transactions : Table TransactionRow.hash) (account : AccountID)
    (tx : Transaction) :
    Grown transactions ((transactions.insert? (tx.row account)).getD transactions) := by
  intro hash row stored
  rw [stock_insert, stored, Option.some_or]

section Marks

variable {transactions transactions' : Table TransactionRow.hash} {written : List TransactionRow}
  {row : TransactionRow}

theorem Marks.grown (marks : Marks transactions written) :
    Grown transactions (transactions.view written) := by
  intro hash row stored
  rw [marks.stock_view, stored]

theorem Marks.grow (marks : Marks transactions written) (grown : Grown transactions transactions') :
    Marks transactions' written := fun row member => grown _ _ (marks row member)

/-- A row that is stored is stored after the commit, perhaps with another processing error. -/
theorem Marks.latest (marks : Marks transactions written) (stored : row ∈ transactions.rows) :
    ∃ row' ∈ (transactions.view written).rows, row'.unmarked = row.unmarked ∧
      (row' = row ∨ row' ∈ written) := by
  have found : (transactions.view written).find row.hash =
      some (Table.latest TransactionRow.hash written row) := by
    rw [Table.find_view, Table.find_of_mem stored, Option.map_some]
  refine ⟨_, (Table.find_eq_some.mp found).1, ?_⟩
  by_cases held : Table.owns TransactionRow.hash written row.hash = true
  · have member := Table.latest_mem_of_owns held
    have same := marks _ member
    rw [Table.key_latest TransactionRow.hash, stock_of_mem stored, Option.some.injEq] at same
    exact ⟨same.symm, .inr member⟩
  · rw [Table.latest_of_not_owns (Bool.not_eq_true _ ▸ held)]
    exact ⟨rfl, .inl rfl⟩

/-- A row that has been written is stored after the commit. -/
theorem Marks.written_stored (marks : Marks transactions written) (member : row ∈ written) :
    ∃ row' ∈ (transactions.view written).rows, row' ∈ written := by
  obtain ⟨stored, among, hash, _⟩ := mem_of_stock (marks row member)
  have found : (transactions.view written).find stored.hash =
      some (Table.latest TransactionRow.hash written stored) := by
    rw [Table.find_view, Table.find_of_mem among, Option.map_some]
  have held : Table.owns TransactionRow.hash written stored.hash = true :=
    Table.owns_iff.mpr ⟨row, member, hash.symm⟩
  exact ⟨_, (Table.find_eq_some.mp found).1, Table.latest_mem_of_owns held⟩

end Marks

/-! ## What the threads have written -/

/-- What an open transaction of the database has written of the stored transactions: the
parsing error of its call, and to the row that the call is about. A call that reports an error
credits nothing. -/
structure Intake.Notes (account : AccountID) (transactions : Table TransactionRow.hash)
    (intake : Intake) : Prop where
  marks : Marks transactions intake.transactions
  explains : ∀ version ∈ intake.transactions, intake.call.Explains version
  written : intake.call.account = account → intake.marked = true → intake.transactions ≠ []
  spares : ∀ {error}, intake.call.parsingError = some error →
    intake.credits = false ∧ intake.looked = []

/-- What a thread has fetched is stored. -/
structure Station.Notes (account : AccountID) (transactions : Table TransactionRow.hash)
    (station : Station) : Prop where
  fetched : ∀ {row}, station.fetched = some row → stock transactions row.hash = some row.unmarked
  intake : ∀ {intake}, station.intake = some intake → intake.Notes account transactions

section Notes

variable {account : AccountID} {transactions transactions' : Table TransactionRow.hash}

theorem Intake.Notes.begun (call : PaymentCall) :
    (Intake.begun call).Notes account transactions where
  marks := fun _ member => by cases member
  explains := fun _ member => by cases member
  written := fun _ impossible => by cases impossible
  spares := fun _ => ⟨rfl, rfl⟩

theorem Station.Notes.grow {station : Station} (notes : station.Notes account transactions)
    (grown : Grown transactions transactions') : station.Notes account transactions' where
  fetched found := grown _ _ (notes.fetched found)
  intake opened := { notes.intake opened with marks := (notes.intake opened).marks.grow grown }

end Notes

namespace Tracks

variable {τ : Type}

/-- The threads have noted what they should, and the error of each call that has reported one
is stored. -/
structure Noted (account : AccountID) (k : Tracks τ) : Prop where
  stations : ∀ {t station}, k.station t = some station → station.Notes account k.transactions
  recorded : ∀ done ∈ k.calls, done.call.account = account →
    ∀ error, done.call.parsingError = some error →
    ∃ row ∈ k.transactions.rows, row.accountID = account ∧ row.lt = done.call.txLt ∧
      ∃ last ∈ k.calls, last.call.Explains row
  spared : ∀ done ∈ k.calls, ∀ error, done.call.parsingError = some error → done.looked = []

namespace Noted

variable {account : AccountID} {k k' : Tracks τ} {t : τ}

/-- A transaction of a page is stored. -/
theorem load (noted : k.Noted account) (worker : AccountID) (tx : Transaction) :
    Noted account { k with
      transactions := (k.transactions.insert? (tx.row worker)).getD k.transactions } where
  stations held := (noted.stations held).grow (grown_insert _ _ _)
  recorded done called own error parsing := by
    obtain ⟨row, stored, accounts, lt, last⟩ := noted.recorded done called own error parsing
    have found := Table.find_getD_insert? k.transactions (tx.row worker) row.hash
    rw [Table.find_of_mem stored, Option.some_or] at found
    exact ⟨row, (Table.find_eq_some.mp found).1, accounts, lt, last⟩
  spared := noted.spared

variable [DecidableEq τ]

/-- One thread learns something. -/
theorem put (noted : k.Noted account) {new : Station} (notes : new.Notes account k.transactions) :
    (k.put t (some new)).Noted account where
  stations found := by
    obtain ⟨_, same⟩ | ⟨_, found⟩ := station_put found
    · cases same
      exact notes
    · exact noted.stations found
  recorded := noted.recorded
  spared := noted.spared

/-- `COMMIT`. -/
theorem commit (noted : k.Noted account) {station : Station} {intake : Intake}
    (held : k.station t = some station) (opened : station.intake = some intake)
    (marked : ∀ error, intake.call.parsingError = some error → intake.marked = true) :
    (k.commit t station intake).Noted account := by
  have notes := (noted.stations held).intake opened
  have here : ∀ {row}, row ∈ intake.transactions →
      ∃ last ∈ (k.commit t station intake).calls, last.call.Explains row := fun member =>
    ⟨_, List.mem_append_right _ List.mem_cons_self, notes.explains _ member⟩
  refine {
    stations := fun {u one} found => ?_
    recorded := fun done called own error parsing => ?_
    spared := fun done called error parsing => ?_ }
  · obtain ⟨_, same⟩ | ⟨_, before⟩ := station_put (k := k) found
    · cases same
      exact {
        fetched := ((noted.stations held).grow notes.marks.grown).fetched
        intake := fun impossible => by cases impossible }
    · exact (noted.stations before).grow notes.marks.grown
  · obtain before | new := List.mem_append.mp called
    · obtain ⟨row, stored, accounts, lt, last, among, explains⟩ :=
        noted.recorded done before own error parsing
      obtain ⟨row', stored', same, kept⟩ := notes.marks.latest stored
      have accounts' : row'.accountID = row.accountID :=
        show row'.unmarked.accountID = row.unmarked.accountID from same ▸ rfl
      have lt' : row'.lt = row.lt := show row'.unmarked.lt = row.unmarked.lt from same ▸ rfl
      refine ⟨row', stored', accounts'.trans accounts, lt'.trans lt, ?_⟩
      obtain rfl | version := kept
      · exact ⟨last, List.mem_append_left _ among, explains⟩
      · exact here version
    · obtain rfl := List.mem_singleton.mp new
      obtain ⟨version, member⟩ := List.exists_mem_of_ne_nil _ (notes.written own (marked error parsing))
      obtain ⟨row, stored, written⟩ := notes.marks.written_stored member
      obtain ⟨accounts, lt, _⟩ := notes.explains row written
      exact ⟨row, stored, accounts.trans own, lt, here written⟩
  · obtain before | new := List.mem_append.mp called
    · exact noted.spared done before error parsing
    · obtain rfl := List.mem_singleton.mp new
      exact (notes.spares parsing).2

variable {chain : AccountChain} {startLt : ℕ}

omit [DecidableEq τ] in
/-- The parsing error is written to the row that the thread has fetched. -/
theorem mark (noted : k.Noted account) (following : k.Following chain account startLt)
    {station : Station} {intake : Intake} {error : String} (held : k.station t = some station)
    (opened : station.intake = some intake) (parsing : intake.call.parsingError = some error) :
    (k.mark error intake).Notes account k.transactions := by
  have notes := (noted.stations held).intake opened
  refine {
    marks := notes.marks.rewrite _ error
    explains := fun version member => ?_
    written := fun own _ => ?_
    spares := notes.spares }
  · obtain marked | before := List.mem_append.mp member
    · obtain ⟨seen, hit, rfl⟩ := List.mem_map.mp marked
      have meets := (List.mem_filter.mp hit).2
      rw [Bool.and_eq_true, decide_eq_true_eq, decide_eq_true_eq] at meets
      exact ⟨meets.1, meets.2, error, parsing, rfl⟩
    · exact notes.explains version before
  · have sound := following.sound held
    obtain ⟨_, works, known⟩ := sound.intake opened
    obtain ⟨row, fetched, lt⟩ := known own
    obtain ⟨tx, _, same, _⟩ := sound.fetched (own ▸ works) fetched
    obtain ⟨stored, among, _, unmarked⟩ := mem_of_stock ((noted.stations held).fetched fetched)
    obtain ⟨seen, viewed, unmarked', _⟩ := notes.marks.latest among
    -- The row that is seen is that of the transaction, whatever its error was before.
    have same : seen.unmarked = tx.row account := (unmarked'.trans unmarked).trans same
    have accounts : seen.accountID = account :=
      show seen.unmarked.accountID = account from same ▸ rfl
    have lt' : seen.lt = row.lt :=
      show seen.unmarked.lt = row.unmarked.lt from congrArg TransactionRow.lt (unmarked'.trans unmarked)
    refine List.ne_nil_of_mem (List.mem_append_left _ (List.mem_map_of_mem (List.mem_filter.mpr
      ⟨viewed, ?_⟩)))
    rw [Bool.and_eq_true, decide_eq_true_eq, decide_eq_true_eq]
    exact ⟨accounts.trans own.symm, lt'.trans lt⟩

variable [Libraries]

/-- **Every step keeps the notes.** -/
theorem step {G : Guard τ} (noted : k.Noted account) (following : k.Following chain account startLt)
    (step : Step G t k k') : k'.Noted account := by
  cases step with
  | quiet => exact noted
  | load tx held job received deep => exact noted.load _ tx
  | refresh other last block now => exact { noted with }
  | @receive station page held allowed =>
      have notes := noted.stations held
      exact noted.put { notes with }
  | @resume station worker rounds held job idle unfetched =>
      have notes := noted.stations held
      exact noted.put { notes with }
  | @fetch station worker rounds lt held job idle mayAsk allowed =>
      refine noted.put {
        fetched := fun {row} found => stock_of_mem (List.mem_of_find?_eq_some found)
        intake := fun opened => ?_ }
      rw [show station.intake = none from idle] at opened
      cases opened
  | @begin station call held idle unsaved mayBegin =>
      have notes := noted.stations held
      refine noted.put { notes with intake := ?_ }
      rintro _ ⟨⟩
      exact .begun call
  | @credit station intake looked credits held opened parsed =>
      have notes := noted.stations held
      refine noted.put { notes with intake := ?_ }
      rintro _ ⟨⟩
      exact { notes.intake opened with
        spares := fun {error} parsing => by
          rw [show intake.call.parsingError = none from parsed] at parsing
          cases parsing }
  | @mark station intake error held opened parsing =>
      have notes := noted.stations held
      refine noted.put { notes with intake := ?_ }
      rintro _ ⟨⟩
      exact noted.mark following held opened parsing
  | @process station intake held opened =>
      have notes := noted.stations held
      refine noted.put { notes with intake := ?_ }
      rintro _ ⟨⟩
      exact { notes.intake opened with }
  | commit held opened processed marked allowed => exact noted.commit held opened marked
  | @rollback station held =>
      have notes := noted.stations held
      exact noted.put { notes with intake := fun impossible => by cases impossible }
  | @fail station held _ =>
      have notes := noted.stations held
      exact noted.put { notes with }
  | start job allowed =>
      exact noted.put {
        fetched := fun impossible => by cases impossible
        intake := fun impossible => by cases impossible }
  | leave =>
      exact {
        stations := fun found => by
          obtain ⟨_, none⟩ | ⟨_, found⟩ := station_put found
          · cases none
          · exact noted.stations found
        recorded := noted.recorded
        spared := noted.spared }
  | stop => exact { noted with stations := fun found => by cases found }

end Noted

end Tracks

/-! ## Every run -/

section Runs

variable [Libraries] {τ : Type} [DecidableEq τ] [Fintype τ] {printing : Printing}
  {rules : Rules τ} {chain : AccountChain} {account : AccountID} {db : Database} {startLt : ℕ}

omit [DecidableEq τ] [Fintype τ] in
/-- A transaction of the database for a call that reports a parsing error commits no invoice. -/
theorem Tracks.Noted.commits {w : World τ} (noted : w.tracks.Noted account) {t : τ} {tx : Tx}
    {error : String} (opened : w.tx t = some tx) (parsing : tx.call.parsingError = some error) :
    w.db.invoices.view tx.invoices = w.db.invoices := by
  obtain ⟨thread, held, opened'⟩ := World.tx_eq_some.mp opened
  have notes := noted.stations (World.station_of_thread held)
  have credits : tx.credits = false :=
    ((notes.intake (World.intake_of_tx held opened)).spares parsing).1
  have none : tx.invoices = [] := by
    rw [Tx.credits, Bool.not_eq_false', List.isEmpty_iff] at credits
    exact credits
  rw [none, Table.view_nil]

end Runs

/-! ## A text that cannot be read -/

namespace Shop

attribute [local instance] Texts.libraries

end Shop

end SpiceHarvester
