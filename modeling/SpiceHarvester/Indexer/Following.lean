import SpiceHarvester.Indexer.GapSync
import SpiceHarvester.Indexer.Tracks
import SpiceHarvester.Interleaving.Follower
import SpiceHarvester.Schedule

/-!
# The indexer follows the chain of its account

The loader of an account stores the transactions of a page newest first, and a crash may
leave holes between them. The indexer looks for the stored transaction that names its cursor
as the LT before it. So it never meets a hole: where the successor of its cursor is missing
it waits, however many later transactions are stored.

`Tracks.Following` ties together what is stored, what has been written down and what the
indexer knows. Every step of the tracks keeps it (`Tracks.Following.step`). In every run the
LTs of the committed calls of `SavePayments`, immediate repetitions apart, are therefore the
chain of the account after its start, in order and without a gap, as far as
`last_processed_lt` says (`calls_follow_chain`).
-/

set_option autoImplicit false

namespace SpiceHarvester

open Interleaving Sql

/-! ## The chain as a feed -/

namespace AccountChain

variable {chain : AccountChain} {account : AccountID} {a b : ℕ}

/-- A transaction of the account with the LT `b` names `a` as the LT before it. -/
def Next (chain : AccountChain) (a b : ℕ) : Prop := ∃ tx ∈ chain.txs, tx.prevTxLt = a ∧ tx.lt = b

/-- The LTs after a start, the oldest first. -/
def feed (chain : AccountChain) (start : ℕ) : List ℕ :=
  ((chain.txs.filter (above start)).map Transaction.lt).reverse

/-- The feed from one transaction on. -/
theorem feed_next (next : chain.Next a b) : chain.feed a = b :: chain.feed b := by
  obtain ⟨tx, member, rfl, rfl⟩ := next
  obtain ⟨newer, older, parts⟩ := List.append_of_mem member
  obtain ⟨_, _, lower, linked⟩ := linked_from parts
  have later : newer.filter (above tx.prevTxLt) = newer := by
    refine List.filter_eq_self.mpr fun first among => decide_eq_true ?_
    exact lower.trans (newer_lt parts first among)
  have later' : newer.filter (above tx.lt) = newer :=
    List.filter_eq_self.mpr fun first among => decide_eq_true (newer_lt parts first among)
  have before : older.filter (above tx.prevTxLt) = [] := by
    refine List.filter_eq_nil_iff.mpr fun last among => ?_
    rw [above, decide_eq_true_eq]
    exact Nat.not_lt.mpr (linked.le last among)
  have before' : older.filter (above tx.lt) = [] := by
    refine List.filter_eq_nil_iff.mpr fun last among => ?_
    rw [above, decide_eq_true_eq]
    exact Nat.not_lt.mpr ((linked.le last among).trans lower.le)
  have keep : above tx.prevTxLt tx = true := decide_eq_true lower
  have drop : ¬ above tx.lt tx = true := by
    rw [above, decide_eq_true_eq]
    exact Nat.lt_irrefl tx.lt
  rw [feed, feed, parts, List.filter_append, List.filter_append, List.filter_cons_of_pos keep,
    List.filter_cons_of_neg drop, later, later', before, before', List.append_nil, List.map_append,
    List.reverse_append]
  rfl

theorem isFeed (chain : AccountChain) : Feed chain.Next where
  moves := by
    rintro _ _ ⟨tx, member, rfl, rfl⟩
    obtain ⟨newer, older, parts⟩ := List.append_of_mem member
    obtain ⟨_, _, lower, _⟩ := linked_from parts
    exact lower.ne
  unique := by
    intro a b b' next next'
    have same := (feed_next next).symm.trans (feed_next next')
    exact (List.cons.inj same).1

theorem mem_feed {start lt : ℕ} : lt ∈ chain.feed start ↔ start < lt ∧ ∃ tx ∈ chain.txs, tx.lt = lt := by
  simp only [feed, List.mem_reverse, List.mem_map, List.mem_filter, above, decide_eq_true_eq]
  constructor
  · rintro ⟨tx, ⟨member, later⟩, rfl⟩
    exact ⟨later, tx, member, rfl⟩
  · rintro ⟨later, tx, member, rfl⟩
    exact ⟨tx, ⟨member, later⟩, rfl⟩

/-- The LTs of the feed go up. -/
theorem feed_ascending (chain : AccountChain) (start : ℕ) : (chain.feed start).Pairwise (· < ·) := by
  rw [feed, List.pairwise_reverse, List.pairwise_map]
  exact chain.linked.descending.filter _

end AccountChain

/-! ## Stored transactions -/

/-- A row without its processing error. -/
def TransactionRow.unmarked (row : TransactionRow) : TransactionRow :=
  { row with processingError := none }

@[simp] theorem TransactionRow.unmarked_markError (error : String) (row : TransactionRow) :
    (row.markError error).unmarked = row.unmarked := rfl

@[simp] theorem TransactionRow.unmarked_row (account : AccountID) (tx : Transaction) :
    (tx.row account).unmarked = tx.row account := rfl

theorem TransactionRow.lt_of_unmarked {row : TransactionRow} {account : AccountID} {tx : Transaction}
    (same : row.unmarked = tx.row account) : row.lt = tx.lt :=
  show row.unmarked.lt = (tx.row account).lt from same ▸ rfl

theorem TransactionRow.prevTxLt_of_unmarked {row : TransactionRow} {account : AccountID}
    {tx : Transaction} (same : row.unmarked = tx.row account) : row.prevTxLt = tx.prevTxLt :=
  show row.unmarked.prevTxLt = (tx.row account).prevTxLt from same ▸ rfl

/-- A row of the account is a transaction of its chain. -/
def AccountChain.Has (chain : AccountChain) (account : AccountID) (row : TransactionRow) : Prop :=
  row.accountID = account → ∃ tx ∈ chain.txs, row.unmarked = tx.row account

/-- The job commits calls of `SavePayments` for the account. -/
def Job.processes (account : AccountID) : Job → Bool
  | .savePayments call => decide (call.account = account)
  | .indexerWorker worker _ => decide (worker.accountID = account)
  | _ => false

/-- The indexer that works for an account is one of this account. -/
theorem worker_of_works {account : AccountID} {job : Job} {worker : Account} {rounds : ℕ}
    (same : job = .indexerWorker worker rounds) (works : job.processes account = true) :
    worker.accountID = account := by
  rw [same] at works
  exact of_decide_eq_true works

/-! ## Following -/

/-- The versions that a transaction of the database has written. -/
structure Intake.Sound (chain : AccountChain) (account : AccountID) (startLt : ℕ) (intake : Intake) :
    Prop where
  written : ∀ row ∈ intake.transactions, chain.Has account row
  versions : ∀ row ∈ intake.accounts, row.address = intake.call.account ∧
    row.lastProcessedLt = intake.call.txLt ∧ (row.address = account → row.startTxLt = startLt)
  owns : intake.processed = true → intake.call.account = account →
    Table.owns AccountRow.address intake.accounts account = true

/-- What a thread knows is right, after the LTs of `log` have been committed for the account. -/
structure Station.Sound (chain : AccountChain) (account : AccountID) (startLt : ℕ) (log : List ℕ)
    (station : Station) : Prop where
  page : ∀ {worker rounds}, station.job = .loaderWorker worker rounds →
    worker.accountID = account → ∀ tx ∈ station.page, tx ∈ chain.txs
  works : station.job.processes account = true →
    ∃ worker rounds, station.job = .indexerWorker worker rounds
  intake : ∀ {intake}, station.intake = some intake → intake.Sound chain account startLt ∧
    station.job.processes intake.call.account = true ∧
    (intake.call.account = account →
      ∃ row, station.fetched = some row ∧ row.lt = intake.call.txLt)
  cursor : station.job.processes account = true → ∀ {lt}, station.cursor = some lt →
    Near chain.Next startLt log lt
  fetched : station.job.processes account = true → ∀ {row}, station.fetched = some row →
    ∃ tx ∈ chain.txs, row.unmarked = tx.row account ∧ station.cursor = some tx.prevTxLt
  saved : station.job.processes account = true → station.saved = true →
    ∀ {row}, station.fetched = some row → row.lt = lastOf startLt log

namespace Tracks

variable {τ : Type}

/-- The LTs of the committed calls for an account. -/
def processed (k : Tracks τ) (account : AccountID) : List ℕ :=
  (k.calls.filter fun done => decide (done.call.account = account)).map fun done => done.call.txLt

/-- One thread at a time processes the transactions of the account, and the pages that its
loader receives come from its chain. -/
def reading (chain : AccountChain) (account : AccountID) : Guard τ where
  starts k job := job.processes account = true →
    (∃ worker rounds, job = .indexerWorker worker rounds) ∧
      ∀ t station, k.station t = some station → station.job.processes account = false
  receives job page := ∀ worker rounds, job = .loaderWorker worker rounds →
    worker.accountID = account → ∀ tx ∈ page, tx ∈ chain.txs
  fails _ := True

/-- What is stored, what is written down and what the threads know fit together. -/
structure Following (chain : AccountChain) (account : AccountID) (startLt : ℕ) (k : Tracks τ) :
    Prop where
  stored : ∀ row ∈ k.transactions.rows, chain.Has account row
  position : ∃ row, k.accounts.find account = some row ∧ row.startTxLt = startLt ∧
    row.lastProcessedLt = lastOf startLt (k.processed account)
  followed : Followed chain.Next startLt (k.processed account)
  sound : ∀ {t station}, k.station t = some station →
    station.Sound chain account startLt (k.processed account)
  single : ∀ {t u station other}, k.station t = some station → k.station u = some other →
    station.job.processes account = true → other.job.processes account = true → t = u

end Tracks

section Lemmas

variable {chain : AccountChain} {account : AccountID} {startLt : ℕ} {log : List ℕ}

theorem AccountChain.Has.of_unmarked {row row' : TransactionRow} (has : chain.Has account row)
    (same : row'.unmarked = row.unmarked) : chain.Has account row' := by
  have accounts : row'.accountID = row.accountID :=
    show row'.unmarked.accountID = row.unmarked.accountID from same ▸ rfl
  intro own
  obtain ⟨tx, member, equal⟩ := has (accounts.symm.trans own)
  exact ⟨tx, member, same.trans equal⟩

theorem Intake.Sound.begun (call : PaymentCall) :
    (Intake.begun call).Sound chain account startLt where
  written := fun _ member => by cases member
  versions := fun _ member => by cases member
  owns := fun impossible => by cases impossible

/-- What is right of a thread that works for other accounts does not depend on the log. -/
theorem Station.Sound.of_idle {log' : List ℕ} {station : Station}
    (sound : station.Sound chain account startLt log) (idle : station.job.processes account = false) :
    station.Sound chain account startLt log' := by
  have none : ∀ {P : Prop}, station.job.processes account = true → P := by
    intro P works
    rw [idle] at works
    cases works
  exact { sound with
    cursor := fun works => none works
    saved := fun works => none works }

/-- A thread that works for the account opens transactions for the account only. -/
theorem Station.Sound.account_of_works {station : Station} {intake : Intake}
    (sound : station.Sound chain account startLt log) (opened : station.intake = some intake)
    (works : station.job.processes account = true) : intake.call.account = account := by
  obtain ⟨worker, rounds, job⟩ := sound.works works
  have own := (sound.intake opened).2.1
  rw [job] at works own
  exact (of_decide_eq_true own).symm.trans (of_decide_eq_true works)

/-- What a thread knows when it starts. -/
theorem Station.Sound.start {job : Job}
    (works : job.processes account = true → ∃ worker rounds, job = .indexerWorker worker rounds) :
    (Thread.start job).station.Sound chain account startLt log where
  page := fun _ _ _ member => by cases member
  works := works
  intake := fun opened => by cases opened
  cursor := fun _ _ known => by cases known
  fetched := fun _ _ known => by cases known
  saved := fun _ impossible => by cases impossible

end Lemmas

namespace Tracks

variable {τ : Type} {chain : AccountChain} {account : AccountID}
  {startLt : ℕ} {k k' : Tracks τ} {t : τ}

namespace Following

/-- A transaction of the page is stored. -/
theorem load (following : k.Following chain account startLt) {station : Station} {worker : Account}
    {rounds : ℕ} {tx : Transaction} (held : k.station t = some station)
    (job : station.job = .loaderWorker worker rounds) (received : tx ∈ station.page) :
    Following chain account startLt { k with
      transactions := (k.transactions.insert? (tx.row worker.accountID)).getD k.transactions } := by
  refine { following with stored := fun row member => ?_ }
  obtain before | rfl := Table.mem_getD_insert? member
  · exact following.stored row before
  · intro own
    exact ⟨tx, (following.sound held).page job own tx received, by
      rw [TransactionRow.unmarked_row]
      exact congrArg tx.row own⟩

/-- The state of an account is refreshed. -/
theorem refresh (following : k.Following chain account startLt) (other : AccountID) (last : TxID)
    (block : ℕ) (now : Time) :
    Following chain account startLt { k with
      accounts := k.accounts.update (fun row => decide (row.address = other))
        (.refresh last block now) (AccountRow.address_refresh _ _ _) } := by
  obtain ⟨row, found, began, at'⟩ := following.position
  refine { following with position := ?_ }
  refine ⟨_, (Table.find_update _ _ (AccountRow.address_refresh last block now) _).trans (by rw [found, Option.map_some]), ?_, ?_⟩
  · split <;> exact began
  · split <;> exact at'

/-- What a thread asks for is at most one transaction behind. -/
theorem asks (following : k.Following chain account startLt) {station : Station} {lt : ℕ}
    (held : k.station t = some station) (works : station.job.processes account = true)
    (mayAsk : station.MayAsk lt) : Near chain.Next startLt (k.processed account) lt := by
  obtain ⟨cursor, _⟩ | ⟨saved, row, fetched, rfl⟩ := mayAsk
  · exact (following.sound held).cursor works cursor
  · exact .inl ((following.sound held).saved works saved fetched)

/-- The transaction that is found is the one after the cursor. -/
theorem child (following : k.Following chain account startLt) {lt : ℕ} {row : TransactionRow}
    (found : childOf k.transactions account lt = some row) :
    ∃ tx ∈ chain.txs, row.unmarked = tx.row account ∧ tx.prevTxLt = lt := by
  have own := List.find?_some found
  rw [Bool.and_eq_true, decide_eq_true_eq, decide_eq_true_eq] at own
  obtain ⟨tx, member, same⟩ := following.stored row (List.mem_of_find?_eq_some found) own.1
  exact ⟨tx, member, same, (row.prevTxLt_of_unmarked same).symm.trans own.2⟩

variable [DecidableEq τ]

/-- A thread keeps its job. -/
theorem single_put (following : k.Following chain account startLt) {station new : Station}
    (held : k.station t = some station) (job : new.job = station.job) {u v : τ}
    {one other : Station} (found : (k.put t (some new)).station u = some one)
    (found' : (k.put t (some new)).station v = some other)
    (works : one.job.processes account = true) (works' : other.job.processes account = true) :
    u = v := by
  have back : ∀ {u one}, (k.put t (some new)).station u = some one →
      one.job.processes account = true →
      ∃ before, k.station u = some before ∧ before.job.processes account = true := by
    intro u one found works
    obtain ⟨rfl, same⟩ | ⟨_, found⟩ := station_put found
    · cases same
      exact ⟨station, held, job ▸ works⟩
    · exact ⟨one, found, works⟩
  obtain ⟨_, before, works⟩ := back found works
  obtain ⟨_, before', works'⟩ := back found' works'
  exact following.single before before' works works'

/-- One thread learns something. -/
theorem put (following : k.Following chain account startLt) {station new : Station}
    (held : k.station t = some station) (job : new.job = station.job)
    (sound : new.Sound chain account startLt (k.processed account)) :
    (k.put t (some new)).Following chain account startLt where
  stored := following.stored
  position := following.position
  followed := following.followed
  sound found := by
    obtain ⟨_, same⟩ | ⟨_, found⟩ := station_put found
    · cases same
      exact sound
    · exact following.sound found
  single := following.single_put held job

/-- A thread starts. -/
theorem start (following : k.Following chain account startLt) {job : Job}
    (allowed : (reading chain account).starts k job) :
    (k.put t (some (Thread.start job).station)).Following chain account startLt where
  stored := following.stored
  position := following.position
  followed := following.followed
  sound found := by
    obtain ⟨_, same⟩ | ⟨_, found⟩ := station_put found
    · cases same
      exact .start fun works => (allowed works).1
    · exact following.sound found
  single {u v one other} found found' works works' := by
    obtain ⟨here, same⟩ | ⟨_, before⟩ := station_put found
    · obtain ⟨here', _⟩ | ⟨_, before'⟩ := station_put found'
      · exact here.trans here'.symm
      · cases same
        have none := (allowed works).2 v other before'
        rw [works'] at none
        cases none
    · obtain ⟨_, same⟩ | ⟨_, before'⟩ := station_put found'
      · cases same
        have none := (allowed works').2 u one before
        rw [works] at none
        cases none
      · exact following.single before before' works works'

/-- A thread ends. -/
theorem leave (following : k.Following chain account startLt) :
    (k.put t none).Following chain account startLt where
  stored := following.stored
  position := following.position
  followed := following.followed
  sound found := by
    obtain ⟨_, none⟩ | ⟨_, found⟩ := station_put found
    · cases none
    · exact following.sound found
  single found found' := by
    obtain ⟨_, none⟩ | ⟨_, found⟩ := station_put found
    · cases none
    · obtain ⟨_, none⟩ | ⟨_, found'⟩ := station_put found'
      · cases none
      · exact following.single found found'

omit [DecidableEq τ] in
/-- The transaction that is committed follows the cursor. -/
theorem takes (following : k.Following chain account startLt) {station : Station} {intake : Intake}
    (held : k.station t = some station) (opened : station.intake = some intake)
    (own : intake.call.account = account) :
    ∃ lt, station.cursor = some lt ∧ Near chain.Next startLt (k.processed account) lt ∧
      chain.Next lt intake.call.txLt := by
  have sound := following.sound held
  obtain ⟨_, works, known⟩ := sound.intake opened
  obtain ⟨row, fetched, lt⟩ := known own
  obtain ⟨tx, member, same, cursor⟩ := sound.fetched (own ▸ works) fetched
  exact ⟨tx.prevTxLt, cursor, sound.cursor (own ▸ works) cursor, tx, member, rfl,
    (row.lt_of_unmarked same).symm.trans lt⟩

/-- `COMMIT`. -/
theorem commit (following : k.Following chain account startLt) {station : Station} {intake : Intake}
    (held : k.station t = some station) (opened : station.intake = some intake)
    (processed : intake.processed = true) :
    (k.commit t station intake).Following chain account startLt := by
  have sound := following.sound held
  have job : ({ station with
      intake := none
      saved := true
      credited := intake.credits } : Station).job = station.job := rfl
  obtain ⟨kept, works, known⟩ := sound.intake opened
  obtain ⟨row, found, began, at'⟩ := following.position
  have here : row.address = account := Table.key_of_find found
  have view : (k.commit t station intake).accounts.find account =
      some (Table.latest AccountRow.address intake.accounts row) :=
    (Table.find_view ..).trans (by rw [found, Option.map_some])
  have log : (k.commit t station intake).processed account =
      if intake.call.account = account then k.processed account ++ [intake.call.txLt]
      else k.processed account := by
    unfold Tracks.processed Tracks.commit
    rw [List.filter_append, List.map_append]
    by_cases own : intake.call.account = account
    · simp [own]
    · simp [own]
  refine {
    stored := fun row member => ?_
    position := ?_
    followed := ?_
    sound := fun {u one} found' => ?_
    single := following.single_put held job }
  · obtain before | new := Table.mem_view member
    · exact following.stored row before
    · exact kept.written row new
  · refine ⟨_, view, ?_⟩
    rw [log]
    by_cases own : intake.call.account = account
    · have held' : Table.owns AccountRow.address intake.accounts row.address = true :=
        here ▸ kept.owns processed own
      obtain ⟨same, at', began⟩ := kept.versions _ (Table.latest_mem_of_owns held')
      rw [if_pos own, lastOf_concat]
      exact ⟨began (same.trans own), at'⟩
    · have free : Table.owns AccountRow.address intake.accounts row.address = false := by
        rw [← Bool.not_eq_true]
        intro held'
        obtain ⟨version, member, same⟩ := Table.owns_iff.mp held'
        exact own ((kept.versions version member).1.symm.trans (same.trans here))
      rw [if_neg own, Table.latest_of_not_owns free]
      exact ⟨began, at'⟩
  · rw [log]
    split
    · rename_i own
      obtain ⟨lt, _, near, next⟩ := following.takes held opened own
      exact (following.followed.commit chain.isFeed near next).1
    · exact following.followed
  · obtain ⟨rfl, same⟩ | ⟨other, before⟩ := station_put (k := k) found'
    · cases same
      rw [log]
      split
      · rename_i own
        obtain ⟨lt, cursor, near, next⟩ := following.takes held opened own
        exact { sound with
          intake := fun impossible => by cases impossible
          cursor := fun _ {lt'} at' => by
            obtain rfl := Option.some.inj (cursor.symm.trans at')
            exact (following.followed.commit chain.isFeed near next).2
          saved := fun _ _ {row'} fetched => by
            obtain ⟨row, fetched', lt'⟩ := known own
            obtain rfl := Option.some.inj (fetched'.symm.trans fetched)
            rw [lastOf_concat]
            exact lt' }
      · rename_i other
        exact { sound with
          intake := fun impossible => by cases impossible
          saved := fun works' => absurd (sound.account_of_works opened works') other }
    · have others := following.sound before
      rw [log]
      split
      · rename_i own
        refine others.of_idle (Bool.eq_false_iff.mpr fun works' => other ?_)
        exact following.single before held works' (own ▸ works)
      · exact others

omit [DecidableEq τ] in
/-- Marking a transaction with its parsing error keeps it. -/
theorem mark (following : k.Following chain account startLt) {intake : Intake}
    (sound : intake.Sound chain account startLt) (error : String) :
    (k.mark error intake).Sound chain account startLt where
  written row member := by
    obtain marked | before := List.mem_append.mp member
    · obtain ⟨seen, hit, rfl⟩ := List.mem_map.mp marked
      have has : chain.Has account seen := by
        obtain stored | written := Table.mem_view (List.mem_filter.mp hit).1
        · exact following.stored seen stored
        · exact sound.written seen written
      exact has.of_unmarked (TransactionRow.unmarked_markError error seen)
    · exact sound.written row before
  versions := sound.versions
  owns := sound.owns

omit [DecidableEq τ] in
/-- The transaction of the database writes down which transaction it is for. -/
theorem process (following : k.Following chain account startLt) {intake : Intake}
    (sound : intake.Sound chain account startLt) :
    (k.process intake).Sound chain account startLt where
  written := sound.written
  versions row member := by
    obtain new | before := List.mem_append.mp member
    · obtain ⟨seen, hit, rfl⟩ := List.mem_map.mp new
      obtain ⟨among, here⟩ := List.mem_filter.mp hit
      refine ⟨of_decide_eq_true here, rfl, fun own => ?_⟩
      obtain stored | written := Table.mem_view among
      · obtain ⟨row, found, began, _⟩ := following.position
        have same := Table.find_of_mem stored
        rw [show seen.address = account from own, found, Option.some.injEq] at same
        exact same ▸ began
      · exact (sound.versions seen written).2.2 own
    · exact sound.versions row before
  owns _ own := by
    obtain ⟨row, found, _, _⟩ := following.position
    refine (Table.owns_rewrite _ _ _ (AccountRow.address_process intake.call.txLt) _).mpr (.inl ?_)
    refine ⟨_, (Table.find_view ..).trans (by rw [found, Option.map_some]), decide_eq_true ?_⟩
    rw [Table.key_latest AccountRow.address, Table.key_of_find found]
    exact own.symm

variable [Libraries]

/-- A transaction of the database is opened for the transaction that has been fetched. -/
theorem begin_ (following : k.Following chain account startLt) {station : Station} {call : PaymentCall}
    (held : k.station t = some station) (mayBegin : station.MayBegin call) :
    (k.put t (some { station with
      intake := some (.begun call)
      credited := false })).Following chain account startLt := by
  have sound := following.sound held
  have keeps : ({ station with
      intake := some (.begun call)
      credited := false } : Station).job = station.job := rfl
  refine following.put held keeps { sound with intake := ?_ }
  rintro _ ⟨⟩
  refine ⟨.begun call, ?_, fun own => ?_⟩
  · obtain job | ⟨worker, rounds, _, _, _, job, _, _, _, rfl⟩ := mayBegin
    · exact (congrArg (Job.processes call.account) job).trans (decide_eq_true rfl)
    · exact (congrArg (Job.processes worker.accountID) job).trans (decide_eq_true rfl)
  · obtain job | ⟨worker, rounds, row, tx, _, _, fetched, decoded, _, rfl⟩ := mayBegin
    · obtain ⟨_, _, job'⟩ := sound.works (by rw [job]; exact decide_eq_true own)
      cases job.symm.trans job'
    · exact ⟨row, fetched, (TransactionRow.lt_of_transaction decoded).symm⟩

/-- **Every step keeps what is stored, written down and known fitting together.** -/
theorem step (following : k.Following chain account startLt)
    (step : Step (reading chain account) t k k') : k'.Following chain account startLt := by
  cases step with
  | quiet => exact following
  | load tx held job received _ => exact following.load held job received
  | @receive station page held allowed =>
      have sound := following.sound held
      exact following.put held rfl { sound with
        page := fun job own tx member => allowed _ _ job own tx member }
  | refresh other last block now => exact following.refresh other last block now
  | @resume station worker rounds held job idle unfetched =>
      have sound := following.sound held
      refine following.put held rfl { sound with
        cursor := fun works lt known => ?_
        fetched := fun _ _ known => by rw [unfetched] at known; cases known
        saved := fun _ impossible => by cases impossible }
      obtain ⟨row, found, _, at'⟩ := following.position
      rw [worker_of_works job works, found, Option.map_some, Option.some.injEq] at known
      exact .inl (known.symm.trans at')
  | @fetch station worker rounds lt held job idle mayAsk _ =>
      have sound := following.sound held
      refine following.put held rfl { sound with
        intake := fun opened => by rw [idle] at opened; cases opened
        cursor := fun works lt' known => ?_
        fetched := fun works row known => ?_
        saved := fun _ impossible => by cases impossible }
      · obtain rfl := Option.some.inj known
        exact following.asks held works mayAsk
      · rw [worker_of_works job works] at known
        obtain ⟨tx, member, same, before⟩ := following.child known
        exact ⟨tx, member, same, congrArg some before.symm⟩
  | @begin station call held idle unsaved mayBegin => exact following.begin_ held mayBegin
  | @credit station intake looked credits held opened parsed =>
      have sound := following.sound held
      refine following.put held rfl { sound with intake := ?_ }
      rintro _ ⟨⟩
      obtain ⟨kept, works, known⟩ := sound.intake opened
      exact ⟨{ kept with }, works, known⟩
  | @mark station intake error held opened parsing =>
      have sound := following.sound held
      refine following.put held rfl { sound with intake := ?_ }
      rintro _ ⟨⟩
      obtain ⟨kept, works, known⟩ := sound.intake opened
      exact ⟨following.mark kept error, works, known⟩
  | @process station intake held opened =>
      have sound := following.sound held
      refine following.put held rfl { sound with intake := ?_ }
      rintro _ ⟨⟩
      obtain ⟨kept, works, known⟩ := sound.intake opened
      exact ⟨following.process kept, works, known⟩
  | commit held opened processed _ _ => exact following.commit held opened processed
  | @rollback station held =>
      have sound := following.sound held
      exact following.put held rfl { sound with
        intake := fun impossible => by cases impossible }
  | @fail station held _ =>
      have sound := following.sound held
      exact following.put held rfl { sound with }
  | start job allowed => exact following.start allowed
  | leave => exact following.leave
  | stop =>
      exact { following with
        sound := fun found => by cases found
        single := fun found => by cases found }

end Following

end Tracks

/-! ## Every run -/

/-- What is in front of a place of an ascending list. -/
theorem mem_iff_of_prefix {items feed : List ℕ} {last : ℕ} (front : items <+: feed)
    (ascending : feed.Pairwise (· < ·)) (ends : items.getLast? = some last) {lt : ℕ} :
    lt ∈ items ↔ lt ∈ feed ∧ lt ≤ last := by
  obtain ⟨rest, rfl⟩ := front
  obtain ⟨before, rfl⟩ := List.getLast?_eq_some_iff.mp ends
  obtain ⟨ordered, _, beyond⟩ := List.pairwise_append.mp ascending
  obtain ⟨_, _, below⟩ := List.pairwise_append.mp ordered
  constructor
  · intro member
    refine ⟨List.mem_append_left _ member, ?_⟩
    obtain earlier | same := List.mem_append.mp member
    · exact (below lt earlier last List.mem_cons_self).le
    · exact (List.mem_singleton.mp same).le
  · rintro ⟨member, le⟩
    refine (List.mem_append.mp member).resolve_right fun later => ?_
    exact absurd (beyond last (List.mem_append_right _ List.mem_cons_self) lt later)
      (Nat.not_lt.mpr le)

section Runs

variable [Libraries] {τ : Type} [DecidableEq τ] [Fintype τ] {printing : Printing}
  {rules : Rules τ} {chain : AccountChain} {account : AccountID}

/-- `SavePayments` is called for the account by its indexer, of which one runs at a time, and
the lite server answers with transactions of its chain. -/
structure Follows (rules : Rules τ) (chain : AccountChain) (account : AccountID) : Prop where
  calls : ∀ {w call}, rules.spawn w (.savePayments call) → call.account ≠ account
  single : ∀ {w worker rounds}, rules.spawn w (.indexerWorker worker rounds) →
    worker.accountID = account → ∀ t job, w.job t = some job → job.processes account = false
  pages : ∀ {w t lt hash fault choice page},
    rules.exec w t (.getTransactions account lt hash) fault choice → choice.page = .ok page →
    ∀ tx ∈ page, tx ∈ chain.txs

theorem Follows.allows (follows : Follows rules chain account) :
    (Tracks.reading chain account).Allows rules where
  starts {w job} allowed works := by
    cases job with
    | indexerWorker worker rounds =>
        refine ⟨⟨worker, rounds, rfl⟩, fun t station found => ?_⟩
        obtain ⟨thread, held, rfl⟩ := Option.map_eq_some_iff.mp found
        refine follows.single allowed (of_decide_eq_true works) t thread.job ?_
        rw [World.job, held, Option.map_some]
    | savePayments call => exact absurd (of_decide_eq_true works) (follows.calls allowed)
    | _ => cases works
  receives {w t worker rounds lt hash fault choice} allowed := by
    rintro _ _ ⟨⟩ rfl tx member
    cases answer : choice.page with
    | ok page =>
        rw [answer] at member
        exact follows.pages allowed answer tx member
    | error error =>
        rw [answer] at member
        cases member
  refused _ _ := trivial
  lost _ _ _ := trivial
  asks _ _ := trivial
  commits _ := trivial

/-- The account has been created, and none of its transactions is stored yet. -/
structure Database.Created (db : Database) (account : AccountID) (startLt : ℕ) : Prop where
  begins : ∃ row, db.accounts.find account = some row ∧ row.startTxLt = startLt ∧
    row.lastProcessedLt = startLt
  transactions : ∀ row ∈ db.transactions.rows, row.accountID ≠ account

variable {db : Database} {startLt : ℕ}

omit [DecidableEq τ] [Fintype τ] in
theorem Database.Created.following (created : db.Created account startLt) :
    (World.idle db : World τ).tracks.Following chain account startLt where
  stored row member own := absurd own (created.transactions row member)
  position := created.begins
  followed := .nil _ _
  sound found := by cases found
  single found := by cases found

/-- **What is stored, what is written down and what the indexer knows fit together
throughout.** -/
theorem following_run (sane : db.Sane) (follows : Follows rules chain account)
    (created : db.Created account startLt) {c : Running τ} (run : Runs printing rules db c) :
    c.state.tracks.Following chain account startLt := by
  have steps := tracks_run follows.allows sane run
  generalize c.state.tracks = k at steps
  induction steps with
  | refl => exact created.following
  | tail _ step ih =>
      obtain ⟨t, step⟩ := step
      exact ih.step step

omit [Libraries] [DecidableEq τ] [Fintype τ] in
/-- The committed calls are the front of the chain up to `last_processed_lt`. -/
theorem Tracks.Following.reached {k : Tracks τ} (following : k.Following chain account startLt) :
    collapse (k.processed account) <+: chain.feed startLt ∧
      ∃ row, k.accounts.find account = some row ∧ row.startTxLt = startLt ∧
        (row.lastProcessedLt = startLt ∨ row.lastProcessedLt ∈ k.processed account) ∧
        ∀ lt, lt ∈ k.processed account ↔ lt ∈ chain.feed startLt ∧ lt ≤ row.lastProcessedLt := by
  have front := following.followed.prefix_feed AccountChain.feed_next
  obtain ⟨row, found, began, at'⟩ := following.position
  refine ⟨front, row, found, began, ?_⟩
  by_cases empty : k.processed account = []
  · rw [empty, lastOf_nil] at at'
    rw [empty]
    refine ⟨.inl at', fun lt => ⟨fun impossible => (List.not_mem_nil impossible).elim, ?_⟩⟩
    rintro ⟨member, le⟩
    have later := (AccountChain.mem_feed.mp member).1
    omega
  · have last := getLast?_collapse startLt empty
    rw [← at'] at last
    refine ⟨.inr (mem_collapse.mp (List.mem_of_getLast? last)), fun lt => ?_⟩
    rw [← mem_collapse]
    exact mem_iff_of_prefix front (chain.feed_ascending startLt) last

/-- **The indexer follows the chain.** In every run the LTs of the committed calls of
`SavePayments` for an account, immediate repetitions apart, are a front of its chain after
the start, in order and without a gap; and they are all LTs of the chain after the start up
to `last_processed_lt`. -/
theorem calls_follow_chain (sane : db.Sane) (follows : Follows rules chain account)
    (created : db.Created account startLt) {c : Running τ} (run : Runs printing rules db c) :
    collapse (c.state.tracks.processed account) <+: chain.feed startLt ∧
      ∃ row, c.state.db.accounts.find account = some row ∧ row.startTxLt = startLt ∧
        (row.lastProcessedLt = startLt ∨
          row.lastProcessedLt ∈ c.state.tracks.processed account) ∧
        ∀ lt, lt ∈ c.state.tracks.processed account ↔
          lt ∈ chain.feed startLt ∧ lt ≤ row.lastProcessedLt := by
  have following := following_run sane follows created run
  exact following.reached

end Runs

/-! ## A hole behind the newest transaction -/

namespace Shop

attribute [local instance] Texts.libraries

/-- The transaction is one of the three. -/
def isSold : Transaction → Bool
  | ⟨lt, hash, prevTxLt, prevTxHash, 0, true, ⟨"", none, none, 0, [], 0, 0, 0, "", .null⟩, []⟩ =>
      decide ((hash, prevTxHash, lt, prevTxLt) ∈
        [((3 : Bits256), (2 : Bits256), 30, 20), (2, 1, 20, 10), (1, 0, 10, 0)])
  | _ => false

theorem isSold_mem {tx : Transaction} (is : isSold tx = true) : tx ∈ threeTransactions.txs := by
  unfold isSold at is
  split at is
  · rename_i lt hash prevTxLt prevTxHash
    have among := of_decide_eq_true is
    simp only [List.mem_cons, List.not_mem_nil, or_false, Prod.mk.injEq] at among
    obtain ⟨rfl, rfl, rfl, rfl⟩ | ⟨rfl, rfl, rfl, rfl⟩ | ⟨rfl, rfl, rfl, rfl⟩ := among
    · exact List.mem_cons_self
    · exact List.mem_cons_of_mem _ List.mem_cons_self
    · exact List.mem_cons_of_mem _ (List.mem_cons_of_mem _ List.mem_cons_self)
  · cases is

/-- The merchant is indexed by one thread at a time. -/
def selling : Checks Bool where
  spawn w job :=
    match job with
    | .savePayments call => decide (call.account ≠ merchant)
    | _ => !job.processes merchant ||
        decide (∀ t, (w.job t).all (fun job => !job.processes merchant) = true)
  exec _ _ op _ choice :=
    match op, choice.page with
    | .getTransactions .., .ok page => page.all isSold
    | _, _ => true
  crash _ := true

theorem selling_follows : Follows selling.rules threeTransactions merchant where
  calls allowed := of_decide_eq_true allowed
  single {w worker rounds} allowed own t job held := by
    have works : (Job.indexerWorker worker rounds).processes merchant = true := decide_eq_true own
    simp only [Checks.rules, selling, works, Bool.not_true, Bool.false_or, decide_eq_true_eq] at allowed
    have idle := allowed t
    rw [held, Option.all_some, Bool.not_eq_true'] at idle
    exact idle
  pages {w t lt hash fault choice page} allowed answer tx member := by
    simp only [Checks.rules, selling, answer, List.all_eq_true] at allowed
    exact isSold_mem (allowed tx member)

/-- The merchant is tracked from LT 10 on. -/
def indexed : Database :=
  { database with accounts := ⟨[⟨merchant, 10, 10, 0, 10, 0, 0⟩], by decide⟩ }

theorem indexed_created : indexed.Created merchant 10 where
  begins := ⟨_, rfl, rfl, rfl⟩
  transactions _ member := by cases member

/-- The outside answers with a page, with the last transaction and with gaps. -/
def asked (page : List Transaction) (gaps : List (ℕ × Bits256)) : Choice :=
  { at' 0 with
    page := .ok page
    gaps := gaps
    accountState := .ok (⟨30, 3⟩, 7) }

/-- The loader is stopped after the newest transaction, when the indexer has found nothing. -/
def interrupted : List (Act Bool) :=
  [.spawn true (.loaderWorker depthTen 1)] ++
    List.replicate 10 (.exec true .none (asked threeTransactions.txs [])) ++
    [.spawn false (.indexerWorker depthTen 1)] ++ List.replicate 2 (run false 0) ++ [.crash]

/-- The loader fills the gap, and the indexer goes on. -/
def resumes : List (Act Bool) :=
  [.spawn true (.loaderWorker depthTen 1)] ++
    List.replicate 6 (.exec true .none (asked threeTransactions.txs.tail [(20, 2)])) ++
    [.spawn false (.indexerWorker depthTen 2)] ++ List.replicate 10 (run false 0)

/-- The newest transaction is stored first and waits for the one before it. -/
theorem gap_waited_for :
    ∃ c c' : Running Bool, Runs printing selling.rules indexed c ∧
      (system printing selling.rules).Reachable c c' ∧
      c.state.db.transactions.rows.map TransactionRow.lt = [30] ∧
      c.state.tracks.processed merchant = [] ∧ c'.state.tracks.processed merchant = [20, 30] ∧
      collapse (c'.state.tracks.processed merchant) <+: threeTransactions.feed 10 := by
  obtain ⟨c, c', run, leads, stored, before, after⟩ :=
    Checks.observed printing selling (.idle (.idle indexed)) interrupted resumes
      (fun c c' => c.state.db.transactions.rows.map TransactionRow.lt = [30] ∧
        c.state.tracks.processed merchant = [] ∧ c'.state.tracks.processed merchant = [20, 30])
      (by decide +kernel)
  have sane : indexed.Sane := database_sane
  exact ⟨c, c', run, leads, stored, before, after,
    (calls_follow_chain sane selling_follows indexed_created (run.trans leads)).1⟩

end Shop

end SpiceHarvester
