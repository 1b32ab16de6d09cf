import SpiceHarvester.Protocol.Soundness

/-!
# What the workers of an account do to its tables

A loader inserts the transactions that it has received from the lite server. An indexer
asks for the transaction after its cursor, opens a transaction of the database for it,
marks it with its parsing error, writes down where it is and commits. `Tracks` keeps the
two tables, the committed calls of `SavePayments` and what each thread knows of its work, and
`Tracks.Step` says how they may change. The pages that a loader may receive and the failures that may happen
are up to a `Tracks.Guard`.

The state of the service has such tracks (`World.tracks`), and a statement in its situation
is a step of them (`Stmt.run_tracks`). So every run of the service is a run of the tracks
(`tracks_run`).
-/

set_option autoImplicit false

namespace SpiceHarvester

open Interleaving Sql

/-! ## Tracks -/

/-- What an open transaction of the database holds of a call of `SavePayments`. -/
structure Intake where
  call : PaymentCall
  accounts : List AccountRow
  transactions : List TransactionRow
  marked : Bool
  processed : Bool
  looked : List (Payment × Bool)
  credits : Bool

/-- The transaction just after `BEGIN`. -/
def Intake.begun (call : PaymentCall) : Intake := ⟨call, [], [], false, false, [], false⟩

def Tx.intake (tx : Tx) : Intake :=
  ⟨tx.call, tx.accounts, tx.transactions, tx.marked, tx.processed, tx.looked, tx.credits⟩

/-- What a thread knows of its work. -/
structure Station where
  job : Job
  intake : Option Intake
  cursor : Option ℕ
  fetched : Option TransactionRow
  saved : Bool
  credited : Bool
  unsure : Bool
  page : List Transaction

def Thread.station (thread : Thread) : Station :=
  ⟨thread.job, thread.tx.map Tx.intake, thread.cursor, thread.fetched, thread.saved,
    thread.credited, thread.unsure, thread.page⟩

namespace Station

/-- The LT that an indexer may ask for the successor of. -/
def MayAsk (station : Station) (lt : ℕ) : Prop :=
  (station.cursor = some lt ∧
    (station.saved = false ∨ station.credited = false ∨ station.unsure = true)) ∨
  (station.saved = true ∧ ∃ row, station.fetched = some row ∧ row.lt = lt)

/-- The call of `SavePayments` that the thread may open a transaction for. -/
def MayBegin [Libraries] (station : Station) (call : PaymentCall) : Prop :=
  station.job = .savePayments call ∨
    ∃ account rounds row tx extracted, station.job = .indexerWorker account rounds ∧
      station.fetched = some row ∧ row.transaction = .ok tx ∧
      extractPayments tx account = some extracted ∧ call = paymentCall account tx extracted

/-- A statement has failed. -/
def fail (station : Station) : Station :=
  { station with unsure := station.unsure || station.credited }

end Station

/-- The tables of accounts and transactions, the committed calls of `SavePayments`, and the
threads. -/
structure Tracks (τ : Type) where
  transactions : Table TransactionRow.hash
  accounts : Table AccountRow.address
  calls : List CommittedCall
  station : τ → Option Station

/-- What the outside may do to the tracks: which jobs start, which pages are received and
where a statement fails. Where more is known of the programs it says after which LT an indexer
asks and what it commits. -/
structure Tracks.Guard (τ : Type) where
  starts : Tracks τ → Job → Prop
  receives : Job → List Transaction → Prop
  fails : Station → Prop
  asks : Station → ℕ → Prop := fun _ _ => True
  commits : Intake → Prop := fun _ => True

namespace Tracks

variable {τ : Type} [DecidableEq τ]

/-- Replace what a thread knows. -/
def put (k : Tracks τ) (t : τ) (station : Option Station) : Tracks τ :=
  { k with station := Function.update k.station t station }

theorem station_put {k : Tracks τ} {t u : τ} {new : Option Station} {station : Station}
    (found : (k.put t new).station u = some station) :
    (u = t ∧ new = some station) ∨ (u ≠ t ∧ k.station u = some station) := by
  change Function.update k.station t new u = some station at found
  by_cases same : u = t
  · subst same
    rw [Function.update_self] at found
    exact .inl ⟨rfl, found⟩
  · rw [Function.update_of_ne same] at found
    exact .inr ⟨same, found⟩

/-- `UPDATE blockchain.transactions SET processing_error`, as the transaction writes it. -/
def mark (k : Tracks τ) (error : String) (intake : Intake) : Intake :=
  { intake with
    transactions := k.transactions.rewrite intake.transactions
      (fun row => decide (row.accountID = intake.call.account) && decide (row.lt = intake.call.txLt))
      (.markError error)
    marked := true }

/-- `UPDATE blockchain.accounts SET last_processed_lt`, as the transaction writes it. -/
def process (k : Tracks τ) (intake : Intake) : Intake :=
  { intake with
    accounts := k.accounts.rewrite intake.accounts
      (fun row => decide (row.address = intake.call.account)) (.process intake.call.txLt)
    processed := true }

/-- `COMMIT`. -/
def commit (k : Tracks τ) (t : τ) (station : Station) (intake : Intake) : Tracks τ where
  transactions := k.transactions.view intake.transactions
  accounts := k.accounts.view intake.accounts
  calls := k.calls ++ [⟨intake.call, intake.looked⟩]
  station := Function.update k.station t
    (some { station with intake := none, saved := true, credited := intake.credits })

variable [Libraries]

/-- A step of a thread. -/
inductive Step (G : Guard τ) (t : τ) (k : Tracks τ) : Tracks τ → Prop where
  | quiet : Step G t k k
  /-- A loader inserts a transaction of the page it has received. -/
  | load {station : Station} {worker : Account} {rounds : ℕ} (tx : Transaction)
      (held : k.station t = some station) (job : station.job = .loaderWorker worker rounds)
      (received : tx ∈ station.page) (deep : worker.info.maxDepthLt < tx.lt) :
      Step G t k { k with
        transactions := (k.transactions.insert? (tx.row worker.accountID)).getD k.transactions }
  | receive {station : Station} (page : List Transaction) (held : k.station t = some station)
      (allowed : G.receives station.job page) :
      Step G t k (k.put t (some { station with page := page }))
  | refresh (account : AccountID) (last : TxID) (block : ℕ) (now : Time) :
      Step G t k { k with
        accounts := k.accounts.update (fun row => decide (row.address = account))
          (.refresh last block now) (AccountRow.address_refresh _ _ _) }
  /-- An indexer reads where it has been. -/
  | resume {station : Station} {worker : Account} {rounds : ℕ} (held : k.station t = some station)
      (job : station.job = .indexerWorker worker rounds) (idle : station.intake = none)
      (unfetched : station.fetched = none) :
      Step G t k (k.put t (some { station with
        cursor := (k.accounts.find worker.accountID).map AccountRow.lastProcessedLt
        saved := false }))
  /-- An indexer asks for the transaction after its cursor. -/
  | fetch {station : Station} {worker : Account} {rounds : ℕ} (lt : ℕ)
      (held : k.station t = some station) (job : station.job = .indexerWorker worker rounds)
      (idle : station.intake = none) (mayAsk : station.MayAsk lt) (allowed : G.asks station lt) :
      Step G t k (k.put t (some { station with
        cursor := some lt
        fetched := childOf k.transactions worker.accountID lt
        saved := false }))
  | begin {station : Station} (call : PaymentCall) (held : k.station t = some station)
      (idle : station.intake = none) (unsaved : station.saved = false)
      (mayBegin : station.MayBegin call) :
      Step G t k (k.put t (some { station with
        intake := some (.begun call)
        credited := false }))
  /-- A payment is looked up or credited. -/
  | credit {station : Station} {intake : Intake} (looked : List (Payment × Bool)) (credits : Bool)
      (held : k.station t = some station) (opened : station.intake = some intake)
      (parsed : intake.call.parsingError = none) :
      Step G t k (k.put t (some { station with
        intake := some { intake with
          looked := looked
          credits := credits } }))
  | mark {station : Station} {intake : Intake} (error : String)
      (held : k.station t = some station) (opened : station.intake = some intake)
      (parsing : intake.call.parsingError = some error) :
      Step G t k (k.put t (some { station with intake := some (k.mark error intake) }))
  | process {station : Station} {intake : Intake} (held : k.station t = some station)
      (opened : station.intake = some intake) :
      Step G t k (k.put t (some { station with intake := some (k.process intake) }))
  | commit {station : Station} {intake : Intake} (held : k.station t = some station)
      (opened : station.intake = some intake) (processed : intake.processed = true)
      (marked : ∀ error, intake.call.parsingError = some error → intake.marked = true)
      (allowed : G.commits intake) : Step G t k (k.commit t station intake)
  | rollback {station : Station} (held : k.station t = some station) :
      Step G t k (k.put t (some { station with intake := none }))
  | fail {station : Station} (held : k.station t = some station) (allowed : G.fails station) :
      Step G t k (k.put t (some station.fail))
  | start (job : Job) (allowed : G.starts k job) :
      Step G t k (k.put t (some (Thread.start job).station))
  | leave : Step G t k (k.put t none)
  /-- The process stops. -/
  | stop : Step G t k { k with station := fun _ : τ => none }

/-- A guard that allows more. -/
theorem Step.weaken {G G' : Guard τ} {t : τ} {k k' : Tracks τ} (step : Step G t k k')
    (starts : ∀ job, G.starts k job → G'.starts k job)
    (receives : ∀ job page, G.receives job page → G'.receives job page)
    (fails : ∀ station, G.fails station → G'.fails station)
    (asks : ∀ station lt, G.asks station lt → G'.asks station lt)
    (commits : ∀ intake, G.commits intake → G'.commits intake) : Step G' t k k' := by
  cases step with
  | quiet => exact .quiet
  | load tx held job received deep => exact .load tx held job received deep
  | receive page held allowed => exact .receive page held (receives _ _ allowed)
  | refresh account last block now => exact .refresh account last block now
  | resume held job idle unfetched => exact .resume held job idle unfetched
  | fetch lt held job idle mayAsk allowed =>
      exact .fetch lt held job idle mayAsk (asks _ _ allowed)
  | begin call held idle unsaved mayBegin => exact .begin call held idle unsaved mayBegin
  | credit looked credits held opened parsed => exact .credit looked credits held opened parsed
  | mark error held opened parsing => exact .mark error held opened parsing
  | process held opened => exact .process held opened
  | commit held opened processed marked allowed =>
      exact .commit held opened processed marked (commits _ allowed)
  | rollback held => exact .rollback held
  | fail held allowed => exact .fail held (fails _ allowed)
  | start job allowed => exact .start job (starts job allowed)
  | leave => exact .leave
  | stop => exact .stop

/-- A run of the threads. -/
abbrev Run (G : Guard τ) : Tracks τ → Tracks τ → Prop :=
  Relation.ReflTransGen fun k k' => ∃ t, Step G t k k'

end Tracks

/-! ## The tracks of the service -/

variable [Libraries] {τ : Type}

/-- What the workers have done. -/
def World.tracks (w : World τ) : Tracks τ where
  transactions := w.db.transactions
  accounts := w.db.accounts
  calls := w.history.calls
  station t := (w.threads t).map Thread.station

variable {w w' : World τ} {t : τ} {thread : Thread} {G : Tracks.Guard τ}

theorem World.station_of_thread (held : w.threads t = some thread) :
    w.tracks.station t = some thread.station := by
  change (w.threads t).map Thread.station = _
  rw [held, Option.map_some]

theorem World.intake_of_tx {tx : Tx} (held : w.threads t = some thread)
    (opened : w.tx t = some tx) : thread.station.intake = some tx.intake := by
  rw [World.tx_eq held] at opened
  change thread.tx.map Tx.intake = _
  rw [opened, Option.map_some]

variable [DecidableEq τ]

namespace World

/-- The tracks after a change of one thread. -/
theorem tracks_of_threads {f : Thread → Thread} (held : w.threads t = some thread)
    (threads : w'.threads = (w.setThread t f).threads) :
    w'.tracks =
      { w'.tracks with station := Function.update w.tracks.station t (some (f thread).station) } := by
  have station : w'.tracks.station =
      Function.update w.tracks.station t (some (f thread).station) := by
    funext u
    change (w'.threads u).map Thread.station = _
    rw [threads]
    by_cases same : u = t
    · subst same
      rw [threads_setThread, held, Option.map_some, Option.map_some, Function.update_self]
    · rw [threads_setThread_of_ne same, Function.update_of_ne same]
      rfl
  rw [← station]

theorem tracks_setThread {f : Thread → Thread} (held : w.threads t = some thread) :
    (w.setThread t f).tracks = w.tracks.put t (some (f thread).station) :=
  tracks_of_threads held rfl

/-- The tracks when a thread starts or ends. -/
theorem tracks_update (w : World τ) (t : τ) (opened : Option Thread) :
    World.tracks { w with threads := Function.update w.threads t opened } =
      w.tracks.put t (opened.map Thread.station) := by
  have station : (fun u => (Function.update w.threads t opened u).map Thread.station) =
      Function.update w.tracks.station t (opened.map Thread.station) := by
    funext u
    by_cases same : u = t
    · subst same
      rw [Function.update_self, Function.update_self]
    · rw [Function.update_of_ne same, Function.update_of_ne same]
      rfl
  change Tracks.mk _ _ _ (fun u => (Function.update w.threads t opened u).map Thread.station) = _
  rw [station]
  rfl

end World

variable [Fintype τ]

/-- **A statement called in its situation is a step of the tracks**, when the guard allows
the page that it receives, what it asks for and what it commits. -/
theorem Stmt.run_tracks {op : Stmt} {choice : Choice} {answer : Except Err op.Val}
    (held : w.threads t = some thread)
    (may : thread.may w.db.currencies w.history.delivered op)
    (receives : ∀ account lt hash, op = .getTransactions account lt hash →
      G.receives thread.job (choice.page.toOption.getD []))
    (asks : ∀ account lt, op = .selectTransactionByParent account lt → G.asks thread.station lt)
    (commits : ∀ tx, op = .commit → w.tx t = some tx → G.commits tx.intake)
    (runs : op.run choice t w = some (answer, w')) : Tracks.Step G t w.tracks w'.tracks := by
  have station := World.station_of_thread held
  have same : ∀ {w' : World τ}, w = w' → Tracks.Step G t w.tracks w'.tracks :=
    fun same => same ▸ .quiet
  have keeps : ∀ {w' : World τ} {f : Thread → Thread}, (f thread).station = thread.station →
      w'.threads = (w.setThread t f).threads → w'.db.transactions = w.db.transactions →
      w'.db.accounts = w.db.accounts → w'.history.calls = w.history.calls →
      Tracks.Step G t w.tracks w'.tracks := by
    intro w' f keeps threads transactions accounts calls
    have same : w'.tracks = w.tracks := by
      rw [World.tracks_of_threads held threads, keeps, ← station, Function.update_eq_self]
      change Tracks.mk w'.db.transactions w'.db.accounts w'.history.calls _ = _
      rw [transactions, accounts, calls]
      rfl
    rw [same]
    exact .quiet
  have inside : ∀ {tx tx' : Tx}, w.tx t = some tx → tx'.call = tx.call →
      tx'.accounts = tx.accounts → tx'.transactions = tx.transactions → tx'.marked = tx.marked →
      tx'.processed = tx.processed → tx.call.parsingError = none →
      Tracks.Step G t w.tracks (w.setTx t tx').tracks := by
    intro tx tx' opened call accounts transactions marked processed parsed
    have step : Tracks.Step G t w.tracks _ :=
      .credit tx'.looked tx'.credits station (World.intake_of_tx held opened) parsed
    change Tracks.Step G t w.tracks (w.setThread t _).tracks
    rw [World.tracks_setThread held]
    unfold Tx.intake at step
    rw [← call, ← accounts, ← transactions, ← marked, ← processed] at step
    exact step
  cases op with
  | begin call =>
      cases runs
      rw [World.tracks_setThread held]
      obtain ⟨closed, _, _, unsaved, mayBegin⟩ := may
      refine .begin call station ?_ unsaved mayBegin
      change thread.tx.map Tx.intake = none
      rw [closed]
      rfl
  | setProcessingError error account lt =>
      obtain ⟨tx, opened, _, rfl⟩ := run_setProcessingError runs
      obtain ⟨tx', opened', parsing, rfl, rfl⟩ := may
      have intake := World.intake_of_tx held opened
      rw [World.tx_eq held] at opened
      obtain rfl := Option.some.inj (opened.symm.trans opened')
      change Tracks.Step G t w.tracks (w.setThread t _).tracks
      rw [World.tracks_setThread held]
      exact .mark error station intake parsing
  | setLastProcessed lt account =>
      obtain ⟨tx, opened, _, _, rfl⟩ := run_setLastProcessed runs
      obtain ⟨tx', opened', _, rfl, rfl⟩ := may
      have intake := World.intake_of_tx held opened
      rw [World.tx_eq held] at opened
      obtain rfl := Option.some.inj (opened.symm.trans opened')
      change Tracks.Step G t w.tracks (w.setThread t _).tracks
      rw [World.tracks_setThread held]
      exact .process station intake
  | commit =>
      obtain ⟨tx, opened, _, rfl⟩ := run_commit runs
      obtain ⟨tx', opened', _, processed, marked⟩ := may
      have intake := World.intake_of_tx held opened
      have allowed := commits tx rfl opened
      rw [World.tx_eq held] at opened
      obtain rfl := Option.some.inj (opened.symm.trans opened')
      have threads : (w.commit t tx).threads = (w.setThread t (Thread.close
          (tx.changes (w.db.invoices.view tx.invoices)) tx.credits)).threads := rfl
      rw [World.tracks_of_threads held threads]
      exact .commit station intake processed marked allowed
  | rollback =>
      cases runs
      rw [World.tracks_setThread held]
      exact .rollback station
  | selectForPayment currency payment time =>
      obtain ⟨tx, opened, _, rfl⟩ := run_selectForPayment runs
      obtain ⟨tx', opened', _, _, ⟨rest, tracked⟩, _⟩ := may
      obtain rfl := Option.some.inj (opened'.symm.trans ((World.tx_eq held).symm.trans opened))
      exact inside opened rfl rfl rfl rfl rfl (PaymentCall.parsed_of_tracked tracked)
  | acceptKey address =>
      obtain ⟨tx, opened, _, _, rfl⟩ := run_acceptKey runs
      obtain ⟨tx', _, opened', parsed, _⟩ := may
      obtain rfl := Option.some.inj (opened'.symm.trans ((World.tx_eq held).symm.trans opened))
      exact inside opened rfl rfl rfl rfl rfl parsed
  | setOverpayment overpayment time id =>
      obtain ⟨tx, opened, _, _, rfl⟩ := run_setOverpayment runs
      obtain ⟨tx', _, opened', parsed, _⟩ := may
      obtain rfl := Option.some.inj (opened'.symm.trans ((World.tx_eq held).symm.trans opened))
      exact inside opened rfl rfl rfl rfl rfl parsed
  | setPaid time paidBy overpayment txHash id =>
      obtain ⟨tx, opened, _, _, rfl⟩ := run_setPaid runs
      obtain ⟨tx', _, opened', parsed, _⟩ := may
      obtain rfl := Option.some.inj (opened'.symm.trans ((World.tx_eq held).symm.trans opened))
      exact inside opened rfl rfl rfl rfl rfl parsed
  | updateAccount last block time account =>
      obtain ⟨_, _, rfl⟩ := run_updateAccount runs
      exact .refresh account last block time
  | selectLastProcessed account =>
      cases runs
      obtain ⟨closed, _, unfetched, worker, rounds, job, rfl⟩ := may
      rw [World.tracks_setThread held]
      refine .resume station job ?_ unfetched
      change thread.tx.map Tx.intake = none
      rw [closed]
      rfl
  | selectTransactionByParent account lt =>
      cases runs
      obtain ⟨closed, mayAsk, worker, rounds, job, rfl⟩ := may
      rw [World.tracks_setThread held]
      refine .fetch lt station job ?_ mayAsk (asks _ lt rfl)
      change thread.tx.map Tx.intake = none
      rw [closed]
      rfl
  | insertTransaction row =>
      obtain ⟨worker, rounds, job, tx, received, deep, rfl⟩ := may
      have step : Tracks.Step G t w.tracks _ := .load tx station job received deep
      cases runs
      change Tracks.Step G t w.tracks { w.tracks with
        transactions := (w.db.transactions.insert? (tx.row worker.accountID)).getD
          w.db.transactions } at step
      cases inserted : w.db.transactions.insert? (tx.row worker.accountID) with
      | none => exact .quiet
      | some transactions =>
          rw [inserted] at step
          exact step
  | getTransactions account lt hash =>
      cases runs
      rw [World.tracks_setThread held]
      exact .receive _ station (receives account lt hash rfl)
  | insertInvoice row =>
      obtain ⟨_, invoices, _, _, _, rfl⟩ | ⟨_, rfl⟩ := run_insertInvoice runs
      · exact keeps (f := Thread.owe [row.snapshot]) rfl rfl rfl rfl rfl
      · exact .quiet
  | insertNotification row =>
      obtain ⟨_, _, _, rfl⟩ | ⟨_, _, rfl⟩ := run_insertNotification runs
      · exact keeps (f := Thread.announce row.id) rfl rfl rfl rfl rfl
      · exact .quiet
  | cancelInvoice time id =>
      obtain ⟨_, _, rfl⟩ := run_cancelInvoice runs
      exact keeps (f := Thread.owe (w.closed .cancelled (cancellable time id))) rfl rfl rfl rfl rfl
  | markExpired time =>
      obtain ⟨_, _, rfl⟩ := run_markExpired runs
      exact keeps (f := Thread.owe (w.closed .expired (expirable time))) rfl rfl rfl rfl rfl
  | selectInvoice id =>
      cases runs
      exact keeps (f := Thread.read (w.db.invoices.find id)) rfl rfl rfl rfl rfl
  | selectNotifications limit =>
      obtain ⟨_, _, _, _, rfl⟩ := run_selectNotifications runs
      exact keeps (f := fun thread => { thread with held := [] }) rfl rfl rfl rfl rfl
  | deleteNotification id =>
      cases runs
      exact keeps (f := fun thread => { thread with held := thread.held.tail }) rfl rfl rfl rfl rfl
  | send invoice printable =>
      simp only [run] at runs
      split at runs <;> cases runs
      · exact .quiet
      · exact keeps (f := fun thread => { thread with held := [] }) rfl rfl rfl rfl rfl
  | skip invoice =>
      cases runs
      exact keeps (f := fun thread => { thread with held := thread.held.tail }) rfl rfl rfl rfl rfl
  | setLastLt lt =>
      cases runs
      exact keeps (f := fun thread => { thread with lastLt := lt }) rfl rfl rfl rfl rfl
  | deleteExpiredKeys before =>
      obtain ⟨_, rfl⟩ := run_deleteExpiredKeys runs
      exact .quiet
  | insertKey address key time =>
      cases runs
      split <;> exact .quiet
  | selectGaps account => exact same (run_selectGaps runs).1.symm
  | now => exact same (congrArg Prod.snd (Option.some.inj runs))
  | selectCurrencyID type info => exact same (congrArg Prod.snd (Option.some.inj runs))
  | selectCurrency id => exact same (congrArg Prod.snd (Option.some.inj runs))
  | selectKey address => exact same (congrArg Prod.snd (Option.some.inj runs))
  | selectLtBelow account lt => exact same (congrArg Prod.snd (Option.some.inj runs))
  | selectLastLt account => exact same (congrArg Prod.snd (Option.some.inj runs))
  | getAccountState account => exact same (congrArg Prod.snd (Option.some.inj runs))
  | getLastLt => exact same (congrArg Prod.snd (Option.some.inj runs))

/-- The same, whatever fails. -/
theorem Stmt.runUnder_tracks {op : Stmt} {fault : Fault} {choice : Choice}
    {answer : Except Err op.Val} (held : w.threads t = some thread)
    (may : thread.may w.db.currencies w.history.delivered op)
    (receives : ∀ account lt hash, op = .getTransactions account lt hash →
      G.receives thread.job (choice.page.toOption.getD []))
    (asks : ∀ account lt, op = .selectTransactionByParent account lt → G.asks thread.station lt)
    (commits : ∀ tx, op = .commit → w.tx t = some tx → G.commits tx.intake)
    (refused : fault = .refused → G.fails thread.station)
    (lost : fault = .lost → ∀ {answer w₀ thread₀}, op.run choice t w = some (answer, w₀) →
      w₀.threads t = some thread₀ → G.fails thread₀.station)
    (runs : op.runUnder fault choice t w = some (answer, w')) :
    Tracks.Run G w.tracks w'.tracks := by
  obtain ⟨_, ran⟩ | ⟨same, _, _, rfl⟩ | ⟨same, _, _, _, w₀, ran, rfl⟩ := Stmt.runUnder_cases runs
  · exact .single ⟨t, Stmt.run_tracks held may receives asks commits ran⟩
  · refine .single ⟨t, ?_⟩
    rw [World.tracks_setThread held]
    exact .fail (World.station_of_thread held) (refused same)
  · have jobs := congrFun (Stmt.run_job ran) t
    rw [World.job, World.job, held] at jobs
    obtain ⟨thread₀, held₀, _⟩ := Option.map_eq_some_iff.mp jobs
    refine .tail (.single ⟨t, Stmt.run_tracks held may receives asks commits ran⟩) ⟨t, ?_⟩
    rw [World.tracks_setThread held₀]
    exact .fail (World.station_of_thread held₀) (lost same ran held₀)

/-! ## Runs -/

omit [Fintype τ] in
theorem World.tracks_start {job : Job} (allowed : G.starts w.tracks job) :
    Tracks.Step G t w.tracks (w.start t job).tracks := by
  rw [World.start, World.tracks_update]
  exact .start job allowed

omit [Fintype τ] in
theorem World.tracks_leave : Tracks.Step G t w.tracks (w.leave t).tracks := by
  rw [World.leave, World.tracks_update]
  exact .leave

omit [Fintype τ] in
/-- Which thread the stop of the process is ascribed to does not matter. -/
theorem World.tracks_restart (w : World τ) : Tracks.Run G w.tracks w.restart.tracks := by
  by_cases empty : ∃ t, (w.threads t).isSome
  · obtain ⟨t, _⟩ := empty
    exact .single ⟨t, .stop⟩
  · have free : (fun t => (w.threads t).map Thread.station) = fun _ => none := by
      funext t
      rw [Option.map_eq_none_iff, ← Option.not_isSome_iff_eq_none]
      exact fun there => empty ⟨t, there⟩
    have none : w.tracks = w.restart.tracks := by
      change Tracks.mk _ _ _ _ = Tracks.mk _ _ _ _
      rw [free]
      rfl
    rw [none]

/-- The guard allows what the rules of a run allow. -/
structure Tracks.Guard.Allows (G : Tracks.Guard τ) (rules : Rules τ) : Prop where
  starts : ∀ {w job}, rules.spawn w job → G.starts w.tracks job
  receives : ∀ {w t worker rounds lt hash fault choice},
    rules.exec w t (.getTransactions worker.accountID lt hash) fault choice →
    G.receives (.loaderWorker worker rounds) (choice.page.toOption.getD [])
  refused : ∀ {w t op choice thread}, rules.exec w t op .refused choice →
    w.threads t = some thread → G.fails thread.station
  lost : ∀ {w t op choice answer w' thread}, rules.exec w t op .lost choice →
    op.run choice t w = some (answer, w') → w'.threads t = some thread → G.fails thread.station
  asks : ∀ station lt, G.asks station lt
  commits : ∀ intake, G.commits intake

variable {rules : Rules τ} {printing : Printing}

/-- The page that a loader receives. -/
theorem Tracks.Guard.Allows.page (allows : G.Allows rules) {op : Stmt} {fault : Fault}
    {choice : Choice} (allowed : rules.exec w t op fault choice)
    (may : thread.may w.db.currencies w.history.delivered op) :
    ∀ account lt hash, op = .getTransactions account lt hash →
      G.receives thread.job (choice.page.toOption.getD []) := by
  rintro account lt hash rfl
  obtain ⟨worker, rounds, job, rfl⟩ := may
  rw [job]
  exact allows.receives allowed

/-- **What a step of the service does to the tracks.** -/
theorem Moves.tracks (allows : G.Allows rules) (move : Moves rules w w') :
    Tracks.Run G w.tracks w'.tracks := by
  cases move with
  | @spawn t job allowed => exact .single ⟨t, World.tracks_start (allows.starts allowed)⟩
  | @exec t op fault choice answer thread w' allowed held may runs =>
      exact Stmt.runUnder_tracks held may (allows.page allowed may) (fun _ _ _ => allows.asks _ _)
        (fun _ _ _ => allows.commits _) (fun same => allows.refused (same ▸ allowed) held)
        (fun same => allows.lost (same ▸ allowed)) runs
  | @retire t thread result held ended => exact .single ⟨t, World.tracks_leave⟩
  | crash _ => exact w.tracks_restart

/-- **Every run of the service is a run of the tracks.** -/
theorem tracks_run (allows : G.Allows rules) {db : Database} (sane : db.Sane) {c : Running τ}
    (run : Runs printing rules db c) : Tracks.Run G (World.idle db : World τ).tracks c.state.tracks :=
  invariant (J := fun w => Tracks.Run G (World.idle db).tracks w.tracks) sane .refl
    (fun _ move before => before.trans (move.tracks allows)) run

end SpiceHarvester
