import SpiceHarvester.Indexer.OutMessages
import SpiceHarvester.Indexer.Retrying
import SpiceHarvester.Indexer.Stocked
import SpiceHarvester.Interleaving.Retried
import SpiceHarvester.Ledger.Conservation

/-!
# Every transaction is credited once

The calls of `SavePayments` for an account follow its chain, but a transaction may be
committed several times: after an error the indexer tries again. Each of these calls but the
last has credited nothing (`Tracks.Once`), as long as no statement fails between a commit that
credits a payment and the end of `SavePayments`. So the balances of the invoices are those of
one call for each transaction of the chain up to `last_processed_lt`
(`transactions_credited_once`), whatever else fails and wherever the process stops: an invoice
has received what the chain has paid for it since it was stored (`invoices_receive_chain`).
-/

set_option autoImplicit false

namespace SpiceHarvester

open Interleaving Sql

/-- The call is the one for a transaction of the chain. -/
def AccountChain.Carries [Libraries] (chain : AccountChain) (worker : Account) (call : PaymentCall) :
    Prop :=
  ∃ tx ∈ chain.txs, ∃ extracted, extractPayments tx worker = some extracted ∧
    call = paymentCall worker tx extracted

/-- What has been stored of a transaction is read back. -/
theorem Transaction.transaction_row (account : AccountID) (tx : Transaction) :
    (tx.row account).transaction = .ok tx := by
  have all : (tx.outMessages.map some).mapM id = some tx.outMessages := by
    have each := List.mapM_pure (m := Option) (l := tx.outMessages) (f := id)
    rw [List.map_id] at each
    rw [List.mapM_map]
    exact each
  simp only [TransactionRow.transaction, Transaction.row, all]

theorem TransactionRow.eq_of_unmarked {row : TransactionRow} {account : AccountID}
    {tx tx' : Transaction} (same : row.unmarked = tx.row account)
    (decoded : row.transaction = .ok tx') : tx' = tx := by
  have stored : row.transaction = (tx.row account).transaction :=
    show row.unmarked.transaction = _ from congrArg transaction same
  rw [decoded, Transaction.transaction_row] at stored
  exact Except.ok.inj stored

namespace Tracks

variable {τ : Type}

/-- The committed calls for an account. -/
def callsFor (k : Tracks τ) (account : AccountID) : List CommittedCall :=
  k.calls.filter fun done => decide (done.call.account = account)

variable [Libraries]

/-- The indexer of the account is always the same one. It asks for what comes after a call that
it has booked, and a call that credits nothing has nothing to credit. -/
def careful (chain : AccountChain) (worker : Account) (spent : List (Payment × Bool) → Prop) :
    Guard τ where
  starts k job := (reading chain worker.accountID).starts k job ∧
    ∀ worker' rounds, job = .indexerWorker worker' rounds →
      worker'.accountID = worker.accountID → worker' = worker
  receives := (reading (τ := τ) chain worker.accountID).receives
  fails _ := True
  asks station lt := station.job.processes worker.accountID = true → station.saved = true →
    station.credited = true → ∃ row, station.fetched = some row ∧ row.lt = lt
  commits intake := intake.call.account = worker.accountID → intake.credits = false →
    spent intake.looked

/-- The last call has credited nothing. -/
def LastSpent (spent : List (Payment × Bool) → Prop) (calls : List CommittedCall) : Prop :=
  ∀ done, calls.getLast? = some done → spent done.looked

/-- What an indexer of the account knows, after the calls of `calls` have been committed. -/
structure Retries (chain : AccountChain) (worker : Account) (startLt : ℕ)
    (spent : List (Payment × Bool) → Prop) (calls : List CommittedCall) (station : Station) :
    Prop where
  same : ∀ {worker' rounds}, station.job = .indexerWorker worker' rounds → worker' = worker
  intake : ∀ {intake}, station.intake = some intake →
    station.saved = false ∧ chain.Carries worker intake.call
  /-- It is behind after a call that has credited nothing. -/
  behind : station.saved = false → ∀ {lt}, station.cursor = some lt →
    lt ≠ lastOf startLt (calls.map fun done => done.call.txLt) → LastSpent spent calls
  uncredited : station.saved = true → station.credited = false → LastSpent spent calls

/-- The open transaction writes something. -/
theorem Retries.writes {chain : AccountChain} {worker : Account} {startLt : ℕ}
    {spent : List (Payment × Bool) → Prop} {calls : List CommittedCall} {station : Station}
    {intake intake' : Intake} (knows : Retries chain worker startLt spent calls station)
    (opened : station.intake = some intake) (same : intake'.call = intake.call) :
    Retries chain worker startLt spent calls { station with intake := some intake' } := by
  obtain ⟨unsaved, carries⟩ := knows.intake opened
  exact { knows with
    intake := fun opened' => by
      cases opened'
      exact ⟨unsaved, same ▸ carries⟩ }

/-- The calls for the account are those for transactions of its chain, and a call that was
tried again has credited nothing. -/
structure Once (chain : AccountChain) (worker : Account) (startLt : ℕ)
    (spent : List (Payment × Bool) → Prop) (k : Tracks τ) : Prop where
  retried : Retried (fun done => done.call.txLt) (fun done => spent done.looked)
    (k.callsFor worker.accountID)
  carried : ∀ done ∈ k.callsFor worker.accountID, chain.Carries worker done.call
  stations : ∀ {t station}, k.station t = some station →
    station.job.processes worker.accountID = true →
    Retries chain worker startLt spent (k.callsFor worker.accountID) station

namespace Once

variable {chain : AccountChain} {worker : Account} {startLt : ℕ}
  {spent spent' : List (Payment × Bool) → Prop} {k k' : Tracks τ} {t : τ}

/-- What has credited nothing may become clear only later. -/
theorem mono (once : k.Once chain worker startLt spent)
    (weaker : ∀ done ∈ k.callsFor worker.accountID, spent done.looked → spent' done.looked) :
    k.Once chain worker startLt spent' where
  retried := once.retried.mono weaker
  carried := once.carried
  stations found works := by
    have last : LastSpent spent (k.callsFor worker.accountID) →
        LastSpent spent' (k.callsFor worker.accountID) := fun holds done at' =>
      weaker done (List.mem_of_getLast? at') (holds done at')
    have knows := once.stations found works
    exact { knows with
      behind := fun unsaved _ cursor other => last (knows.behind unsaved cursor other)
      uncredited := fun saved uncredited => last (knows.uncredited saved uncredited) }

/-- One thread learns something. -/
theorem put [DecidableEq τ] (once : k.Once chain worker startLt spent) {new : Station}
    (knows : new.job.processes worker.accountID = true →
      Retries chain worker startLt spent (k.callsFor worker.accountID) new) :
    (k.put t (some new)).Once chain worker startLt spent where
  retried := once.retried
  carried := once.carried
  stations found works := by
    obtain ⟨_, same⟩ | ⟨_, found⟩ := station_put found
    · cases same
      exact knows works
    · exact once.stations found works

/-- The transaction that an indexer begins is one of the chain. -/
theorem carries (following : k.Following chain worker.accountID startLt)
    (once : k.Once chain worker startLt spent) {station : Station} {call : PaymentCall}
    (held : k.station t = some station) (mayBegin : station.MayBegin call)
    (works : station.job.processes worker.accountID = true) : chain.Carries worker call := by
  have sound := following.sound held
  obtain job | ⟨worker', rounds, row, tx', extracted, job, fetched, decoded, extracts, rfl⟩ := mayBegin
  · obtain ⟨_, _, job'⟩ := sound.works works
    cases job.symm.trans job'
  · obtain rfl := (once.stations held works).same job
    obtain ⟨tx, member, same, _⟩ := sound.fetched works fetched
    obtain rfl := row.eq_of_unmarked same decoded
    exact ⟨tx', member, extracted, extracts, rfl⟩

/-- An indexer that asks for another LT than the last one has credited nothing. -/
theorem asks (following : k.Following chain worker.accountID startLt)
    (once : k.Once chain worker startLt spent) {station : Station} {lt : ℕ}
    (held : k.station t = some station) (works : station.job.processes worker.accountID = true)
    (mayAsk : station.MayAsk lt) (allowed : (careful chain worker spent : Guard τ).asks station lt)
    (other : lt ≠ lastOf startLt (k.processed worker.accountID)) :
    LastSpent spent (k.callsFor worker.accountID) := by
  have knows := once.stations held works
  have sound := following.sound held
  cases saved : station.saved with
  | false =>
      obtain ⟨cursor, _⟩ | ⟨impossible, _⟩ := mayAsk
      · exact knows.behind saved cursor other
      · rw [saved] at impossible
        cases impossible
  | true =>
      cases credited : station.credited with
      | false => exact knows.uncredited saved credited
      | true =>
          obtain ⟨row, fetched, rfl⟩ := allowed works saved credited
          exact absurd (sound.saved works saved fetched) other

variable [DecidableEq τ]

/-- `COMMIT`. -/
theorem commit (following : k.Following chain worker.accountID startLt)
    (once : k.Once chain worker startLt spent) {station : Station} {intake : Intake}
    (held : k.station t = some station) (opened : station.intake = some intake)
    (allowed : (careful chain worker spent : Guard τ).commits intake) :
    (k.commit t station intake).Once chain worker startLt spent := by
  have sound := following.sound held
  obtain ⟨_, works, _⟩ := sound.intake opened
  have calls : (k.commit t station intake).callsFor worker.accountID =
      if intake.call.account = worker.accountID then
        k.callsFor worker.accountID ++ [⟨intake.call, intake.looked⟩]
      else k.callsFor worker.accountID := by
    unfold callsFor Tracks.commit
    rw [List.filter_append]
    by_cases own : intake.call.account = worker.accountID
    · simp [own]
    · simp [own]
  by_cases own : intake.call.account = worker.accountID
  · rw [if_pos own] at calls
    have works' := own ▸ works
    have knows := once.stations held works'
    obtain ⟨unsaved, carries⟩ := knows.intake opened
    refine {
      retried := ?_
      carried := fun done member => ?_
      stations := fun {u one} found others => ?_ }
    · rw [calls]
      refine once.retried.concat fun last at' same => ?_
      obtain ⟨lt, cursor, _, next⟩ := following.takes held opened own
      refine knows.behind unsaved cursor (fun here => chain.isFeed.moves next ?_) last at'
      -- The transaction is committed again, so the cursor is behind it.
      obtain ⟨before, parts⟩ := List.getLast?_eq_some_iff.mp at'
      rw [here, parts, List.map_append, List.map_singleton, lastOf_concat]
      exact same.symm
    · rw [calls] at member
      obtain before | new := List.mem_append.mp member
      · exact once.carried done before
      · rw [List.mem_singleton.mp new]
        exact carries
    · obtain ⟨rfl, same⟩ | ⟨other, before⟩ := station_put (k := k) found
      · cases same
        rw [calls]
        exact {
          same := knows.same
          intake := fun impossible => by cases impossible
          behind := fun impossible => by cases impossible
          uncredited := fun _ nothing done at' => by
            rw [List.getLast?_concat, Option.some.injEq] at at'
            exact at' ▸ allowed own nothing }
      · exact absurd (following.single before held others works') other
  · rw [if_neg own] at calls
    refine {
      retried := calls ▸ once.retried
      carried := calls ▸ once.carried
      stations := fun {u one} found others => ?_ }
    obtain ⟨_, same⟩ | ⟨_, before⟩ := station_put (k := k) found
    · cases same
      exact absurd (sound.account_of_works opened others) own
    · rw [calls]
      exact once.stations before others

/-- **Every step keeps that what is tried again has credited nothing.** -/
theorem step (following : k.Following chain worker.accountID startLt)
    (once : k.Once chain worker startLt spent) (step : Step (careful chain worker spent) t k k') :
    k'.Once chain worker startLt spent := by
  cases step with
  | quiet => exact once
  | load tx held job received _ => exact { once with }
  | refresh other last block now => exact { once with }
  | @receive station page held allowed =>
      exact once.put fun works => { once.stations held works with }
  | @resume station worker' rounds held job idle unfetched =>
      refine once.put fun works => ?_
      have knows := once.stations held works
      obtain ⟨row, found, _, at'⟩ := following.position
      exact {
        same := knows.same
        intake := fun opened => by rw [idle] at opened; cases opened
        behind := fun _ lt cursor other => by
          rw [worker_of_works job works, found, Option.map_some, Option.some.injEq] at cursor
          exact absurd (cursor.symm.trans at') other
        uncredited := fun impossible => by cases impossible }
  | @fetch station worker' rounds lt held job idle mayAsk allowed =>
      refine once.put fun works => ?_
      have knows := once.stations held works
      exact {
        same := knows.same
        intake := fun opened => by rw [idle] at opened; cases opened
        behind := fun _ lt' cursor other => by
          obtain rfl := Option.some.inj cursor
          exact once.asks following held works mayAsk allowed other
        uncredited := fun impossible => by cases impossible }
  | @begin station call held idle unsaved mayBegin =>
      refine once.put fun works => ?_
      have knows := once.stations held works
      exact { knows with
        intake := fun opened => by
          cases opened
          exact ⟨unsaved, once.carries following held mayBegin works⟩
        uncredited := fun saved => by rw [unsaved] at saved; cases saved }
  | @credit station intake looked credits held opened parsed =>
      exact once.put fun works => (once.stations held works).writes opened rfl
  | @mark station intake error held opened parsing =>
      exact once.put fun works => (once.stations held works).writes opened rfl
  | @process station intake held opened =>
      exact once.put fun works => (once.stations held works).writes opened rfl
  | @commit station intake held opened processed marked allowed =>
      exact once.commit following held opened allowed
  | @rollback station held =>
      refine once.put fun works => ?_
      exact { once.stations held works with
        intake := fun impossible => by cases impossible }
  | @fail station held _ => exact once.put fun works => { once.stations held works with }
  | start job allowed =>
      refine once.put fun works => ?_
      exact {
        same := fun {worker' rounds} job' => allowed.2 worker' rounds job' (worker_of_works job' works)
        intake := fun impossible => by cases impossible
        behind := fun _ _ impossible => by cases impossible
        uncredited := fun impossible => by cases impossible }
  | leave =>
      exact {
        retried := once.retried
        carried := once.carried
        stations := fun found works => by
          obtain ⟨_, none⟩ | ⟨_, found⟩ := station_put found
          · cases none
          · exact once.stations found works }
  | stop => exact { once with stations := fun found => by cases found }

omit [DecidableEq τ] in
theorem idle {db : Database} :
    (World.idle db : World τ).tracks.Once chain worker startLt spent where
  retried := .nil
  carried := fun _ member => by cases member
  stations := fun found => by cases found

/-- Every run keeps it. -/
theorem run (following : k.Following chain worker.accountID startLt)
    (once : k.Once chain worker startLt spent) (steps : Run (careful chain worker spent) k k') :
    k'.Following chain worker.accountID startLt ∧ k'.Once chain worker startLt spent := by
  induction steps with
  | refl => exact ⟨following, once⟩
  | tail _ step ih =>
      obtain ⟨t, step⟩ := step
      obtain ⟨following, once⟩ := ih
      refine ⟨following.step (step.weaken ?_ ?_ ?_ ?_ ?_), once.step following step⟩
      · exact fun _ allowed => allowed.1
      · exact fun _ _ allowed => allowed
      · exact fun _ _ => trivial
      · exact fun _ _ _ => trivial
      · exact fun _ _ => trivial

end Once

end Tracks

/-! ## Calls that have credited nothing -/

section Spent

variable [Libraries] {τ : Type}

/-- No stored invoice has received anything from the payments. -/
def Database.Spent (db : Database) (looked : List (Payment × Bool)) : Prop :=
  ∀ id row, db.invoices.find id = some row → received db.currencies looked row = 0

/-- An invoice that is created later has received nothing before. -/
theorem Database.Spent.grows {w w' : World τ} {looked : List (Payment × Bool)}
    (spent : w.db.Spent looked) (grows : w.Grows w')
    (known : ∀ entry ∈ looked, entry.2 = true → (w.db.invoices.find entry.1.invoiceID).isSome) :
    w'.db.Spent looked := by
  intro id row' found'
  rw [grows.currencies]
  cases found : w.db.invoices.find id with
  | none =>
      refine received_eq_zero fun entry member stored pays => ?_
      have same : entry.1.invoiceID = id := pays.1.trans (Table.key_of_find found')
      have there := known entry member stored
      rw [same, found] at there
      cases there
  | some row =>
      obtain ⟨after, found'', terms⟩ := grows.invoices found
      rw [found', Option.some.injEq] at found''
      rw [received_congr (found'' ▸ terms)]
      exact spent id row found

/-- A call that commits and has written no invoice has received nothing for any. -/
theorem World.spent_of_commit {w : World τ} {t : τ} {tx : Tx} (balanced : w.books.Balanced)
    (opened : w.tx t = some tx) (settled : tx.Settled) (nothing : tx.credits = false) :
    w.db.Spent tx.looked := by
  intro id row found
  have empty : tx.invoices = [] := by
    rw [Tx.credits, Bool.not_eq_false', List.isEmpty_iff] at nothing
    exact nothing
  have free : w.versions.mine t id = none := by
    rw [World.mine_of_tx opened, Tx.mine, empty, List.find?_nil]
  have seen : w.books.rows.seen t id = some row := (Versions.seen_of_not_held free).trans found
  obtain ⟨_, balance⟩ := (balanced.running (World.book_of_tx opened)).seen seen
  have settled' : Reading.Settled tx.book.reading := settled
  have pending : tx.book.pending id = 0 := Book.pending_of_settled settled' id
  rw [pending, (balanced.committed found).2, add_zero] at balance
  exact add_eq_left.mp balance.symm

/-- What several calls have looked up. -/
theorem received_flatMap (currencies : Currencies) (calls : List CommittedCall) (row : InvoiceRow) :
    received currencies (calls.flatMap CommittedCall.looked) row =
      (calls.map fun done => received currencies done.looked row).sum := by
  induction calls with
  | nil => rfl
  | cons done rest ih =>
      rw [List.flatMap_cons, received_append, List.map_cons, List.sum_cons, ih]

end Spent

/-! ## The LTs of a chain -/

/-- The beginning of an ascending list, up to an item. -/
theorem filter_le_of_front {items feed : List ℕ} {last : ℕ} (front : items <+: feed)
    (ascending : feed.Pairwise (· < ·)) (ends : items.getLast? = some last) :
    feed.filter (fun lt => decide (lt ≤ last)) = items := by
  obtain ⟨rest, rfl⟩ := front
  obtain ⟨before, rfl⟩ := List.getLast?_eq_some_iff.mp ends
  obtain ⟨ordered, _, beyond⟩ := List.pairwise_append.mp ascending
  obtain ⟨_, _, below⟩ := List.pairwise_append.mp ordered
  have kept : (before ++ [last]).filter (fun lt => decide (lt ≤ last)) = before ++ [last] := by
    refine List.filter_eq_self.mpr fun lt member => decide_eq_true ?_
    obtain earlier | same := List.mem_append.mp member
    · exact (below lt earlier last List.mem_cons_self).le
    · exact (List.mem_singleton.mp same).le
  have dropped : rest.filter (fun lt => decide (lt ≤ last)) = [] := by
    refine List.filter_eq_nil_iff.mpr fun lt member => ?_
    rw [decide_eq_true_eq, Nat.not_le]
    exact beyond last (List.mem_append_right _ List.mem_cons_self) lt member
  rw [List.filter_append, kept, dropped, List.append_nil]

theorem AccountChain.feed_filter (chain : AccountChain) (startLt lt : ℕ) :
    (chain.feed startLt).filter (fun other => decide (other ≤ lt)) =
      (chain.between startLt lt).reverse.map Transaction.lt := by
  rw [feed, List.filter_reverse, List.filter_map, List.filter_filter, List.map_reverse, between]
  congr 3
  funext tx
  exact Bool.and_comm _ _

/-- The committed calls are for the transactions up to `last_processed_lt`. -/
theorem Tracks.Following.collapse_processed {τ : Type} {chain : AccountChain} {account : AccountID}
    {startLt : ℕ} {k : Tracks τ} (following : k.Following chain account startLt) :
    ∃ row, k.accounts.find account = some row ∧ collapse (k.processed account) =
      (chain.between startLt row.lastProcessedLt).reverse.map Transaction.lt := by
  obtain ⟨row, found, _, at'⟩ := following.position
  refine ⟨row, found, ?_⟩
  have front := following.followed.prefix_feed AccountChain.feed_next
  rw [← chain.feed_filter]
  by_cases empty : k.processed account = []
  · rw [empty, lastOf_nil] at at'
    rw [empty, at', eq_comm]
    refine List.filter_eq_nil_iff.mpr fun lt member => ?_
    rw [decide_eq_true_eq, Nat.not_le]
    exact (AccountChain.mem_feed.mp member).1
  · have last := getLast?_collapse startLt empty
    rw [← at'] at last
    exact (filter_le_of_front front (chain.feed_ascending startLt) last).symm

/-! ## Every run -/

section Runs

variable [Libraries] {τ : Type} [DecidableEq τ] [Fintype τ] {printing : Printing}
  {rules : Rules τ} {chain : AccountChain} {worker : Account} {startLt : ℕ} {db : Database}

/-- The account is indexed by one worker, which no statement fails once it has booked a call,
and no two payment transactions are open for the same recipient and currency. -/
structure IndexedOnce (rules : Rules τ) (chain : AccountChain) (worker : Account) : Prop where
  follows : Follows rules chain worker.accountID
  exclusive : Exclusive rules
  settles : Settles rules worker.accountID
  same : ∀ {w worker' rounds}, rules.spawn w (.indexerWorker worker' rounds) →
    worker'.accountID = worker.accountID → worker' = worker

/-- **Throughout a run, what has been tried again has credited nothing.** -/
theorem once_run (sane : db.Sane) (fresh : db.Fresh)
    (created : db.Created worker.accountID startLt) (careful : IndexedOnce rules chain worker)
    {c : Running τ} (run : Runs printing rules db c) :
    c.state.tracks.Following chain worker.accountID startLt ∧
      c.state.tracks.Once chain worker startLt c.state.db.Spent := by
  have sound : ((discipline printing rules).beside
      (retrying printing rules worker.accountID)).Sound :=
    discipline_sound.beside (retrying_sound careful.settles careful.follows.calls)
  have init : ((discipline printing rules).beside (retrying printing rules worker.accountID)).inv
      (.idle db) := ⟨.idle fun {_ _} => sane _ _, .idle fun {_ _} => sane _ _⟩
  induction run with
  | refl => exact ⟨created.following, .idle⟩
  | @tail c c' before step ih =>
      obtain ⟨following, once⟩ := ih
      have balanced := balanced_run careful.exclusive sane fresh before
      have kept := sound.reachable (.idle init) before
      obtain ⟨sane', moves⟩ := moves_of_step sane before step
      have grows := moves.grows sane'
      have once : c.state.tracks.Once chain worker startLt c'.state.db.Spent := by
        refine once.mono fun done member spent => spent.grows grows fun entry among => ?_
        have called : done ∈ c.state.history.calls := (List.mem_filter.mp member).1
        exact balanced.known entry (List.mem_flatMap_of_mem called among)
      refine once.run following ?_
      cases (sound.step kept step).2 with
      | spawn _ starts =>
          obtain ⟨job, allowed, _, same⟩ := starts
          rw [same]
          exact .single ⟨_, World.tracks_start ⟨careful.follows.allows.starts allowed,
            fun _ _ works own => careful.same (works ▸ allowed) own⟩⟩
      | @exec t op _ _ answer _ holds answers =>
          obtain ⟨⟨thread, held, may⟩, pre⟩ := holds
          obtain ⟨fault, choice, allowed, runs⟩ := answers
          refine Stmt.runUnder_tracks held may (careful.follows.allows.page allowed may) ?_ ?_
            (fun _ => trivial) (fun _ _ _ _ _ _ => trivial) runs
          · rintro account lt rfl works saved credited
            obtain ⟨_, _, worker', rounds, job, rfl⟩ := may
            have own : worker'.accountID = worker.accountID := worker_of_works job works
            exact pre thread lt (by rw [own]) held works ⟨saved, credited⟩
          · rintro tx rfl opened own nothing
            obtain ⟨tx', opened', complete, _⟩ := may
            rw [World.tx_eq held, opened', Option.some.injEq] at opened
            subst opened
            have opened := (World.tx_eq held).trans opened'
            refine (World.spent_of_commit balanced opened complete.2 nothing).grows grows ?_
            exact (balanced.running (World.book_of_tx opened)).known
      | retire _ _ leaves =>
          rw [show c'.state = _ from leaves]
          exact .single ⟨_, World.tracks_leave⟩
      | crash _ stops =>
          rw [stops.2]
          exact World.tracks_restart _

/-- The last tries are one committed call for each transaction of the chain up to
`last_processed_lt`, in order. -/
theorem tries_paired (sane : db.Sane) {c : Running τ} (run : Runs printing rules db c)
    (following : c.state.tracks.Following chain worker.accountID startLt)
    (once : c.state.tracks.Once chain worker startLt c.state.db.Spent) :
    ∃ row, c.state.db.accounts.find worker.accountID = some row ∧
      List.Forall₂ (fun tx done =>
          (∃ extracted, extractPayments tx worker = some extracted ∧
            done.call = paymentCall worker tx extracted) ∧
          done.looked.map Prod.fst = done.call.tracked c.state.db.currencies)
        (chain.between startLt row.lastProcessedLt).reverse
        (lastTries (fun done : CommittedCall => done.call.txLt)
          (c.state.tracks.callsFor worker.accountID)) := by
  obtain ⟨row, found, log⟩ := following.collapse_processed
  have own : (c.state.tracks.callsFor worker.accountID).Sublist c.state.history.calls :=
    List.filter_sublist
  have counted := lastTries_sublist (fun done : CommittedCall => done.call.txLt)
    (c.state.tracks.callsFor worker.accountID)
  refine ⟨row, found, ?_⟩
  have items := map_lastTries (fun done : CommittedCall => done.call.txLt)
    (c.state.tracks.callsFor worker.accountID)
  have pairs := List.forall₂_eq_eq_eq ▸ (items.trans log).symm
  rw [List.forall₂_map_left_iff, List.forall₂_map_right_iff, List.forall₂_iff_zip] at pairs
  refine List.forall₂_iff_zip.mpr ⟨pairs.1, fun {tx done} member => ?_⟩
  have lt := pairs.2 member
  obtain ⟨among, among'⟩ := List.of_mem_zip member
  have called := counted.subset among'
  obtain ⟨tx', member', extracted, extracts, call⟩ := once.carried done called
  have here : tx ∈ chain.txs := (List.mem_filter.mp (List.mem_reverse.mp among)).1
  obtain rfl : tx = tx' := AccountChain.eq_of_lt here member' (by rw [lt, call]; rfl)
  exact ⟨⟨extracted, extracts, call⟩, looked_run sane run done (own.subset called)⟩

/-- What an invoice has received is what the last tries have looked up, and what other accounts
have received. -/
theorem balance_of_tries (sane : db.Sane) (fresh : db.Fresh) (exclusive : Exclusive rules)
    {c : Running τ} (run : Runs printing rules db c)
    (once : c.state.tracks.Once chain worker startLt c.state.db.Spent) {id : InvoiceID}
    {invoice : InvoiceRow} (stored : c.state.db.invoices.find id = some invoice) :
    invoice.balance = received c.state.db.currencies
        ((lastTries (fun done : CommittedCall => done.call.txLt)
          (c.state.tracks.callsFor worker.accountID)).flatMap CommittedCall.looked) invoice +
      received c.state.db.currencies ((c.state.history.calls.filter fun done =>
        !decide (done.call.account = worker.accountID)).flatMap CommittedCall.looked) invoice := by
  have balanced := balanced_run exclusive sane fresh run
  rw [(balanced.committed stored).2, Books.credited, received_flatMap, received_flatMap,
    received_flatMap, ← once.retried.sum_lastTries fun done _ spent => spent id invoice stored,
    ← List.sum_append, ← List.map_append]
  exact ((List.filter_append_perm _ _).map _).sum_eq.symm

/-- **Every transaction is credited once.** Whatever fails before a commit or in a call that
credits nothing, and wherever the process stops: there is one committed call of `SavePayments`
for each transaction of the chain up to `last_processed_lt`, in order, such that what the
invoices have received is what these calls have looked up, and what other accounts have
received. -/
theorem transactions_credited_once (sane : db.Sane) (fresh : db.Fresh)
    (created : db.Created worker.accountID startLt) (careful : IndexedOnce rules chain worker)
    {c : Running τ} (run : Runs printing rules db c) :
    ∃ row counted, c.state.db.accounts.find worker.accountID = some row ∧
      counted.Sublist c.state.history.calls ∧
      List.Forall₂ (fun tx done =>
          (∃ extracted, extractPayments tx worker = some extracted ∧
            done.call = paymentCall worker tx extracted) ∧
          done.looked.map Prod.fst = done.call.tracked c.state.db.currencies)
        (chain.between startLt row.lastProcessedLt).reverse counted ∧
      ∀ id invoice, c.state.db.invoices.find id = some invoice →
        invoice.balance =
          received c.state.db.currencies (counted.flatMap CommittedCall.looked) invoice +
          received c.state.db.currencies ((c.state.history.calls.filter fun done =>
            !decide (done.call.account = worker.accountID)).flatMap CommittedCall.looked) invoice := by
  obtain ⟨following, once⟩ := once_run sane fresh created careful run
  obtain ⟨row, found, pairs⟩ := tries_paired sane run following once
  have own : (c.state.tracks.callsFor worker.accountID).Sublist c.state.history.calls :=
    List.filter_sublist
  exact ⟨row, _, found, (lastTries_sublist _ _).trans own, pairs,
    fun id invoice stored => balance_of_tries sane fresh careful.exclusive run once stored⟩

/-- What the transactions of the chain carry for an invoice. -/
def AccountChain.carries (chain : AccountChain) (worker : Account) (startLt lt : ℕ)
    (currencies : Currencies) (row : InvoiceRow) : ℤ :=
  ((((chain.between startLt lt).flatMap fun tx =>
    ((extractPayments tx worker).bind Except.toOption).getD []).filter fun payment =>
      decide (payment.Pays currencies row)).map Payment.amount).sum

/-- What the call of `SavePayments` for a transaction has looked up. -/
def LookedUp (c : Running τ) (worker : Account) (tx : Transaction) (looked : List (Payment × Bool)) :
    Prop :=
  ∃ extracted, extractPayments tx worker = some extracted ∧
    looked.map Prod.fst = (paymentCall worker tx extracted).tracked c.state.db.currencies ∧
    ∃ done ∈ c.state.history.calls,
      done.call = paymentCall worker tx extracted ∧ done.looked = looked

/-- **An invoice has received what the chain has paid.** Its overpayment, and its amount if it is
paid, are the sum over the transactions of the account up to `last_processed_lt` of what each
has paid for the invoice once it was stored, and what other accounts have received. -/
theorem invoices_receive_chain (sane : db.Sane) (fresh : db.Fresh)
    (created : db.Created worker.accountID startLt) (careful : IndexedOnce rules chain worker)
    {c : Running τ} (run : Runs printing rules db c) :
    ∃ row looked, c.state.db.accounts.find worker.accountID = some row ∧
      List.Forall₂ (LookedUp c worker) (chain.between startLt row.lastProcessedLt).reverse looked ∧
      ∀ id invoice, c.state.db.invoices.find id = some invoice →
        invoice.overpayment + (if invoice.status = .paid then invoice.amount else 0) =
          (looked.map fun entries => received c.state.db.currencies entries invoice).sum +
          received c.state.db.currencies ((c.state.history.calls.filter fun done =>
            !decide (done.call.account = worker.accountID)).flatMap CommittedCall.looked) invoice := by
  obtain ⟨following, once⟩ := once_run sane fresh created careful run
  obtain ⟨row, found, pairs⟩ := tries_paired sane run following once
  have own : (lastTries (fun done : CommittedCall => done.call.txLt)
      (c.state.tracks.callsFor worker.accountID)).Sublist c.state.history.calls :=
    (lastTries_sublist _ _).trans List.filter_sublist
  refine ⟨row, (lastTries (fun done : CommittedCall => done.call.txLt)
    (c.state.tracks.callsFor worker.accountID)).map CommittedCall.looked, found, ?_, ?_⟩
  · rw [List.forall₂_map_right_iff, List.forall₂_iff_zip]
    rw [List.forall₂_iff_zip] at pairs
    refine ⟨pairs.1, fun {tx done} member => ?_⟩
    obtain ⟨⟨extracted, extracts, call⟩, tracked⟩ := pairs.2 member
    have called := own.subset (List.of_mem_zip member).2
    exact ⟨extracted, extracts, call ▸ tracked, done, called, call, rfl⟩
  · intro id invoice stored
    have balance := balance_of_tries sane fresh careful.exclusive run once stored
    rw [received_flatMap] at balance
    rw [List.map_map]
    exact balance

end Runs

/-! ## A transaction that is committed twice -/

namespace Shop

attribute [local instance] Texts.libraries

/-- The message that pays the invoice. -/
def payingMessage : Message :=
  ⟨"Int", some payer, some merchant, 10, [], 0, 0, 0, "TextComment",
    .object [("Text", .string (Texts.uuidString invoiceID))]⟩

/-- After the start come a transaction without a payment, and one with a payment. -/
def billing : AccountChain where
  last := ⟨30, 3⟩
  txs := [⟨30, 3, 20, 2, 0, true, payingMessage, []⟩, linked 2 1 20 10, linked 1 0 10 0]
  linked := ⟨rfl, rfl, by decide, rfl, rfl, by decide, rfl, rfl, by decide, rfl⟩

/-- The transaction is one of the three. -/
def isBilled : Transaction → Bool
  | ⟨lt, hash, prevTxLt, prevTxHash, 0, true, ⟨"", none, none, 0, [], 0, 0, 0, "", .null⟩, []⟩ =>
      decide ((hash, prevTxHash, lt, prevTxLt) = ((2 : Bits256), (1 : Bits256), 20, 10)) ||
        decide ((hash, prevTxHash, lt, prevTxLt) = ((1 : Bits256), (0 : Bits256), 10, 0))
  | ⟨lt, hash, prevTxLt, prevTxHash, 0, true, ⟨"Int", some source, some destination, 10, [], 0, 0, 0,
        "TextComment", .object [("Text", .string text)]⟩, []⟩ =>
      decide ((hash, prevTxHash, lt, prevTxLt) = ((3 : Bits256), (2 : Bits256), 30, 20)) &&
        decide ((source, destination, text) = (payer, merchant, Texts.uuidString invoiceID))
  | _ => false

theorem isBilled_mem {tx : Transaction} (is : isBilled tx = true) : tx ∈ billing.txs := by
  unfold isBilled at is
  split at is
  · rw [Bool.or_eq_true, decide_eq_true_eq, decide_eq_true_eq] at is
    simp only [Prod.mk.injEq] at is
    obtain ⟨rfl, rfl, rfl, rfl⟩ | ⟨rfl, rfl, rfl, rfl⟩ := is
    · exact List.mem_cons_of_mem _ List.mem_cons_self
    · exact List.mem_cons_of_mem _ (List.mem_cons_of_mem _ List.mem_cons_self)
  · rw [Bool.and_eq_true, decide_eq_true_eq, decide_eq_true_eq] at is
    obtain ⟨ids, terms⟩ := is
    simp only [Prod.mk.injEq] at ids terms
    obtain ⟨rfl, rfl, rfl, rfl⟩ := ids
    obtain ⟨rfl, rfl, rfl⟩ := terms
    exact List.mem_cons_self
  · cases is

/-- The invoice that is paid. -/
def billed : Database :=
  { indexed with invoices := ⟨[{ invoice with id := invoiceID }], by decide⟩ }

/-- The thread has not booked a call. -/
def unbooked (thread : Thread) : Bool := !(thread.saved && thread.credited)

/-- One worker at a time, one payment transaction at a time, and no failure after a commit that
credits a payment. -/
def careful : Checks Bool where
  spawn w job :=
    match job with
    | .savePayments call => decide (call.account ≠ merchant)
    | .createInvoice invoice => decide (invoice.status = .waiting ∧ invoice.overpayment = 0)
    | .indexerWorker worker _ => decide (worker.accountID ≠ merchant) ||
        (decide (worker = depthTen) &&
          decide (∀ t, (w.job t).all (fun job => !job.processes merchant) = true))
    | _ => true
  exec w t op fault choice :=
    (match op with
    | .begin call => decide (∀ payment ∈ call.payments, 0 ≤ payment.amount) &&
        decide (∀ u, u ≠ t → w.tx u = none)
    | .getTransactions .. => (choice.page.toOption.getD []).all isBilled
    | _ => true) &&
    match fault with
    | .none => true
    | .refused => (w.threads t).all unbooked
    | .lost =>
        match op with
        | .commit => (w.tx t).all fun tx => !tx.credits
        | _ => false
  crash _ := true

theorem not_booked_of_unbooked {thread : Thread} (unbooked : unbooked thread = true) :
    ¬ thread.Booked := by
  rintro ⟨saved, credited⟩
  rw [Shop.unbooked, saved, credited] at unbooked
  cases unbooked

theorem careful_exclusive : Exclusive careful.rules where
  creates := fun _ _ allowed => of_decide_eq_true allowed
  amounts w t call fault choice allowed _ := by
    simp only [Checks.rules, careful, Bool.and_eq_true, decide_eq_true_eq] at allowed
    exact allowed.1.1
  disjoint w t call fault choice allowed _ u tx other opened := by
    simp only [Checks.rules, careful, Bool.and_eq_true, decide_eq_true_eq] at allowed
    rw [allowed.1.2 u other] at opened
    cases opened

theorem careful_settles : Settles careful.rules merchant where
  refused {w t op choice thread} allowed held _ booked := by
    simp only [Checks.rules, careful, Bool.and_eq_true, held, Option.all_some] at allowed
    exact absurd booked (not_booked_of_unbooked allowed.2)
  lost {w t op choice answer w' thread} allowed runs held _ := by
    simp only [Checks.rules, careful, Bool.and_eq_true] at allowed
    cases op with
    | commit =>
        obtain ⟨tx, opened, _, rfl⟩ := Stmt.run_commit runs
        have nothing := allowed.2
        rw [opened, Option.all_some, Bool.not_eq_true'] at nothing
        rintro ⟨_, credited⟩
        obtain ⟨before, there, _⟩ := Option.bind_eq_some_iff.mp opened
        change (w.setThread t (Thread.close (tx.changes (w.db.invoices.view tx.invoices))
          tx.credits)).threads t = some thread at held
        rw [World.threads_setThread, there, Option.map_some, Option.some.injEq] at held
        subst held
        rw [show (Thread.close _ tx.credits before).credited = tx.credits from rfl, nothing] at credited
        cases credited
    | _ => exact absurd allowed.2 Bool.false_ne_true

/-- The rules of the shop are those that the theorem is about. -/
theorem indexedOnce_billing : IndexedOnce careful.rules billing depthTen where
  follows := {
    calls := fun allowed => of_decide_eq_true allowed
    single := fun {w worker rounds} allowed own t job held => by
      simp only [Checks.rules, careful, Bool.or_eq_true, Bool.and_eq_true, decide_eq_true_eq] at allowed
      have idle := (allowed.resolve_left fun other => other own).2 t
      rw [held, Option.all_some, Bool.not_eq_true'] at idle
      exact idle
    pages := fun {w t lt hash fault choice page} allowed answer tx member => by
      simp only [Checks.rules, careful, Bool.and_eq_true, answer, Except.toOption, Option.getD_some,
        List.all_eq_true] at allowed
      exact isBilled_mem (allowed.1 tx member) }
  exclusive := careful_exclusive
  settles := careful_settles
  same {w worker rounds} allowed own := by
    simp only [Checks.rules, careful, Bool.or_eq_true, Bool.and_eq_true, decide_eq_true_eq] at allowed
    exact (allowed.resolve_left fun other => other own).1

theorem billed_sane : billed.Sane := by
  intro id row found
  obtain rfl := List.mem_singleton.mp (Table.find_eq_some.mp found).1
  rfl

theorem billed_fresh : billed.Fresh := by
  intro id row found
  obtain rfl := List.mem_singleton.mp (Table.find_eq_some.mp found).1
  exact ⟨rfl, rfl, rfl, rfl, rfl⟩

/-- The answer to a first commit is lost, the payment is tried again after a failure before its
commit, and the process stops after it. -/
def retried : List (Act Bool) :=
  [.spawn true (.loaderWorker depthTen 1)] ++
    List.replicate 12 (.exec true .none (asked billing.txs [])) ++
    [.spawn false (.indexerWorker depthTen 4)] ++ List.replicate 4 (run false 0) ++
    [.exec false .lost (at' 0)] ++ List.replicate 13 (run false 0) ++
    [.exec false .refused (at' 0)] ++ List.replicate 11 (run false 0) ++ [.crash]

/-- Three calls have committed for two transactions, and the invoice has received ten. -/
theorem retried_credited_once :
    ∃ c : Running Bool, Runs printing careful.rules billed c ∧
      c.state.history.calls.map (fun done => done.call.txLt) = [20, 20, 30] ∧
      (c.state.db.invoices.find invoiceID).map InvoiceRow.balance = some 10 ∧
      ∃ (row : AccountRow) (counted : List CommittedCall),
        c.state.db.accounts.find merchant = some row ∧ row.lastProcessedLt = 30 ∧
        counted.Sublist c.state.history.calls ∧
        counted.map (fun done => done.call.txLt) = [20, 30] ∧
        ∀ id invoice, c.state.db.invoices.find id = some invoice → invoice.balance =
          received c.state.db.currencies (counted.flatMap CommittedCall.looked) invoice +
          received c.state.db.currencies ((c.state.history.calls.filter fun done =>
            !decide (done.call.account = merchant)).flatMap CommittedCall.looked) invoice := by
  obtain ⟨c, _, run, _, log, balance, at'⟩ :=
    Checks.observed printing careful (.idle (.idle billed)) retried []
      (fun c _ => c.state.history.calls.map (fun done => done.call.txLt) = [20, 20, 30] ∧
        (c.state.db.invoices.find invoiceID).map InvoiceRow.balance = some 10 ∧
        (c.state.db.accounts.find merchant).map AccountRow.lastProcessedLt = some 30)
      (by decide +kernel)
  have created : billed.Created depthTen.accountID 10 :=
    ⟨indexed_created.begins, indexed_created.transactions⟩
  obtain ⟨row, counted, found, among, pairs, received⟩ :=
    transactions_credited_once billed_sane billed_fresh created indexedOnce_billing run
  have here : c.state.db.accounts.find merchant = some row := found
  rw [here, Option.map_some, Option.some.injEq] at at'
  refine ⟨c, run, log, balance, row, counted, here, at', among, ?_, received⟩
  have lts : List.Forall₂ (fun lt lt' => lt = lt')
      ((billing.between 10 row.lastProcessedLt).reverse.map Transaction.lt)
      (counted.map fun done => done.call.txLt) := by
    rw [List.forall₂_map_left_iff, List.forall₂_map_right_iff]
    exact pairs.imp fun {_ _} ⟨⟨_, _, call⟩, _⟩ => by rw [call]; rfl
  rw [at', List.forall₂_eq_eq_eq] at lts
  exact lts.symm

/-- What the transactions of the merchant up to `last_processed_lt` carry for the invoice is what
the invoice has received. -/
def ChainCredited (c : Running Bool) : Prop :=
  ∀ account row, c.state.db.accounts.find merchant = some account →
    c.state.db.invoices.find invoiceID = some row →
    row.overpayment + (if row.status = .paid then row.amount else 0) =
      billing.carries depthTen 10 account.lastProcessedLt c.state.db.currencies row

/-- The rules of the shop, but any statement may fail. -/
def faltering : Checks Bool where
  spawn := careful.spawn
  exec w t op _ choice := careful.exec w t op .none choice
  crash _ := true

/-- The payment is committed, its notification is refused, and it is committed again. -/
def creditedTwice : List (Act Bool) :=
  [.spawn true (.loaderWorker depthTen 1)] ++
    List.replicate 12 (.exec true .none (asked billing.txs [])) ++
    [.spawn false (.indexerWorker depthTen 4)] ++ List.replicate 17 (run false 0) ++
    [.exec false .refused (at' 0)] ++ List.replicate 10 (run false 0)

/-- The payment is committed, and then the invoice that it names is created. -/
def creditedNever : List (Act Bool) :=
  [.spawn true (.loaderWorker depthTen 1)] ++
    List.replicate 12 (.exec true .none (asked billing.txs [])) ++
    [.spawn false (.indexerWorker depthTen 2)] ++ List.replicate 14 (run false 0) ++
    [.crash, .spawn true (.createInvoice (({ invoice with id := invoiceID } : InvoiceRow).invoice .ton))] ++
    List.replicate 2 (run true 1)

/-- **What the chain carries is not always received once.** A payment is received twice where
the row of the outbox is refused after its commit, and not at all where its invoice is created
later. -/
theorem chain_credited_otherwise :
    (¬ ∀ c : Running Bool, Runs printing faltering.rules billed c → ChainCredited c) ∧
    ¬ ∀ c : Running Bool, Runs printing careful.rules indexed c → ChainCredited c := by
  constructor
  · intro credited
    obtain ⟨c, _, reached, _, seen⟩ :=
      Checks.observed printing faltering (.idle (.idle billed)) creditedTwice []
        (fun c _ => ((c.state.db.accounts.find merchant).bind fun account =>
          (c.state.db.invoices.find invoiceID).map fun row => (row.status, row.overpayment, row.amount,
            billing.carries depthTen 10 account.lastProcessedLt c.state.db.currencies row)) =
              some (.paid, 10, 10, 10)) (by decide +kernel)
    obtain ⟨account, found, seen⟩ := Option.bind_eq_some_iff.mp seen
    obtain ⟨row, stored, same⟩ := Option.map_eq_some_iff.mp seen
    simp only [Prod.mk.injEq] at same
    obtain ⟨status, overpayment, amount, carries⟩ := same
    have equal := credited c reached account row found stored
    rw [status, overpayment, amount, carries] at equal
    cases equal
  · intro credited
    obtain ⟨c, _, reached, _, seen⟩ :=
      Checks.observed printing careful (.idle (.idle indexed)) creditedNever []
        (fun c _ => ((c.state.db.accounts.find merchant).bind fun account =>
          (c.state.db.invoices.find invoiceID).map fun row => (row.status, row.overpayment,
            billing.carries depthTen 10 account.lastProcessedLt c.state.db.currencies row)) =
              some (.waiting, 0, 10)) (by decide +kernel)
    obtain ⟨account, found, seen⟩ := Option.bind_eq_some_iff.mp seen
    obtain ⟨row, stored, same⟩ := Option.map_eq_some_iff.mp seen
    simp only [Prod.mk.injEq] at same
    obtain ⟨status, overpayment, carries⟩ := same
    have equal := credited c reached account row found stored
    rw [status, overpayment, carries] at equal
    cases equal

/-- The invoice has received the ten of the last transaction, which was tried twice. -/
theorem retried_received :
    ∃ c : Running Bool, Runs printing careful.rules billed c ∧
      (c.state.db.invoices.find invoiceID).map (fun row => (row.status, row.overpayment)) =
        some (.paid, 0) ∧
      ∃ (row : AccountRow) (looked : List (List (Payment × Bool))),
        c.state.db.accounts.find merchant = some row ∧
        List.Forall₂ (LookedUp c depthTen) (billing.between 10 row.lastProcessedLt).reverse looked ∧
        ∀ id invoice, c.state.db.invoices.find id = some invoice →
          invoice.overpayment + (if invoice.status = .paid then invoice.amount else 0) =
            (looked.map fun entries => received c.state.db.currencies entries invoice).sum +
            received c.state.db.currencies ((c.state.history.calls.filter fun done =>
              !decide (done.call.account = merchant)).flatMap CommittedCall.looked) invoice := by
  obtain ⟨c, _, run, _, seen⟩ :=
    Checks.observed printing careful (.idle (.idle billed)) retried []
      (fun c _ => (c.state.db.invoices.find invoiceID).map
        (fun row => (row.status, row.overpayment)) = some (.paid, 0))
      (by decide +kernel)
  have created : billed.Created depthTen.accountID 10 :=
    ⟨indexed_created.begins, indexed_created.transactions⟩
  obtain ⟨row, looked, found, pairs, received⟩ :=
    invoices_receive_chain billed_sane billed_fresh created indexedOnce_billing run
  exact ⟨c, run, seen, row, looked, found, pairs, received⟩

end Shop

end SpiceHarvester
