import SpiceHarvester.Indexer.Loader
import SpiceHarvester.Interleaving.Alone
import SpiceHarvester.Schedule

/-!
# The chain of the transactions that are loaded

A lite server may answer with anything. `GetTransactions` goes through a page and compares
the hash of each transaction with the one that the transaction before it names, up to the
depth bound, and `syncHistoryGap` goes on from the last transaction that was kept. So the
transactions that a call of `syncHistoryGap` hands to `SaveTransactions` are one chain from
the hash it starts at, whatever the answers are and however often a page is asked for again
(`syncHistoryGap_chain`).
-/

set_option autoImplicit false

namespace SpiceHarvester

open Interleaving

/-! ## Chains -/

/-- The first transaction has the hash, each further one the hash that the one before names
as previous, and all are above the depth bound. -/
def Chain (bound : ℕ) : Bits256 → List Transaction → Prop
  | _, [] => True
  | hash, tx :: rest => tx.hash = hash ∧ bound < tx.lt ∧ Chain bound tx.prevTxHash rest

/-- The hash that a chain goes on with. -/
def nextHash : Bits256 → List Transaction → Bits256
  | hash, [] => hash
  | _, tx :: rest => nextHash tx.prevTxHash rest

theorem chain_append {bound : ℕ} {hash : Bits256} {txs later : List Transaction} :
    Chain bound hash (txs ++ later) ↔ Chain bound hash txs ∧ Chain bound (nextHash hash txs) later := by
  induction txs generalizing hash with
  | nil => exact (true_and _).symm.to_iff
  | cons tx rest ih =>
      rw [List.cons_append, Chain, Chain, nextHash, ih, and_assoc, and_assoc]

theorem nextHash_getLast (hash : Bits256) {txs : List Transaction} (some' : txs ≠ []) :
    nextHash hash txs = (txs.getLast some').prevTxHash := by
  induction txs generalizing hash with
  | nil => exact absurd rfl some'
  | cons tx rest ih =>
      cases rest with
      | nil => rfl
      | cons next rest => exact ih tx.prevTxHash (List.cons_ne_nil next rest)

/-! ## One page -/

/-- In front of the depth bound a transaction is not the one that is named. -/
def Mismatched (bound : ℕ) (hash : Bits256) (page : List Transaction) : Prop :=
  ∃ before tx after, page = before ++ tx :: after ∧ Chain bound hash before ∧
    tx.hash ≠ nextHash hash before

/-- What is kept of a page is a chain. -/
theorem chain_of_checkPage {bound : ℕ} {hash : Bits256} {page txs : List Transaction}
    (checked : checkPage bound hash page = .ok txs) : Chain bound hash txs := by
  induction page generalizing hash txs with
  | nil =>
      cases checked
      exact trivial
  | cons first rest ih =>
      unfold checkPage at checked
      split at checked
      · cases checked
      · rename_i named
        split at checked
        · cases checked
          exact trivial
        · rename_i above
          cases later : checkPage bound first.prevTxHash rest with
          | error _ =>
              rw [later] at checked
              cases checked
          | ok others =>
              rw [later] at checked
              cases checked
              exact ⟨not_not.mp named, Nat.lt_of_not_le above, ih later⟩

/-- **A page is refused exactly if a transaction in front of the depth bound is not the one
that is named.** -/
theorem checkPage_mismatched {bound : ℕ} {hash : Bits256} {page : List Transaction} :
    checkPage bound hash page = .error (.invalid "mismatched tx hash") ↔
      Mismatched bound hash page := by
  induction page generalizing hash with
  | nil =>
      refine ⟨fun same => (by cases same), ?_⟩
      rintro ⟨before, _, _, same, _⟩
      cases before <;> cases same
  | cons first rest ih =>
      unfold checkPage
      by_cases named : first.hash = hash
      · rw [if_neg (not_not.mpr named)]
        by_cases below : first.lt ≤ bound
        · rw [if_pos below]
          refine ⟨fun same => (by cases same), ?_⟩
          rintro ⟨before, tx, after, same, chain, other⟩
          cases before with
          | nil =>
              cases same
              exact absurd named other
          | cons _ _ =>
              cases same
              exact absurd chain.2.1 (Nat.not_lt.mpr below)
        · rw [if_neg below]
          have later : (checkPage bound first.prevTxHash rest).map (first :: ·) =
              .error (.invalid "mismatched tx hash") ↔
              checkPage bound first.prevTxHash rest = .error (.invalid "mismatched tx hash") := by
            cases checkPage bound first.prevTxHash rest with
            | error error => exact ⟨fun same => (by cases same; rfl), fun same => (by cases same; rfl)⟩
            | ok others => exact ⟨fun same => (by cases same), fun same => (by cases same)⟩
          rw [later, ih]
          constructor
          · rintro ⟨before, tx, after, rfl, chain, other⟩
            exact ⟨first :: before, tx, after, rfl, ⟨named, Nat.lt_of_not_le below, chain⟩, other⟩
          · rintro ⟨before, tx, after, same, chain, other⟩
            cases before with
            | nil =>
                cases same
                exact absurd named other
            | cons _ before =>
                cases same
                exact ⟨before, tx, after, rfl, chain.2.2, other⟩
      · rw [if_pos named]
        exact ⟨fun _ => ⟨[], first, rest, rfl, trivial, named⟩, fun _ => rfl⟩

/-! ## What a run hands over -/

abbrev Entry := Called Stmt Stmt.Val Err

/-- The transactions that `GetTransactions` keeps of an answer of the lite server. -/
def Entry.kept (bound : ℕ) : Entry → List Transaction
  | ⟨.getTransactions _ _ hash, .ok page⟩ =>
      match checkPage bound hash page with
      | .ok txs => txs
      | .error _ => []
  | _ => []

/-- The row that a statement inserts. -/
def Entry.inserted : Entry → Option TransactionRow
  | ⟨.insertTransaction row, _⟩ => some row
  | _ => none

/-- What the client keeps of all answers in a run, in their order. It is what the run hands
to `SaveTransactions`, which inserts one after the other until one cannot be inserted. -/
def handed (bound : ℕ) (log : List Entry) : List Transaction := log.flatMap (Entry.kept bound)

/-- No insertion failed. -/
def NoFailedInsert (log : List Entry) : Prop :=
  ∀ row error, (⟨.insertTransaction row, .error error⟩ : Entry) ∉ log

/-- A run hands over the transactions, and inserts them in their order: all, unless an
insertion failed. -/
structure HandsOver (account : AccountID) (bound : ℕ) (log : List Entry) (txs : List Transaction) :
    Prop where
  handed : handed bound log = txs
  inserts : log.filterMap Entry.inserted <+: txs.map (Transaction.row account)
  all : NoFailedInsert log → log.filterMap Entry.inserted = txs.map (Transaction.row account)

namespace HandsOver

variable {account : AccountID} {bound : ℕ} {log log' : List Entry} {txs txs' : List Transaction}

theorem nil : HandsOver account bound [] [] := ⟨rfl, List.prefix_rfl, fun _ => rfl⟩

/-- After a run that inserted everything another one goes on. -/
theorem append (first : HandsOver account bound log txs)
    (inserted : log.filterMap Entry.inserted = txs.map (Transaction.row account))
    (later : HandsOver account bound log' txs') :
    HandsOver account bound (log ++ log') (txs ++ txs') where
  handed := by
    rw [SpiceHarvester.handed, List.flatMap_append]
    exact congrArg₂ (· ++ ·) first.handed later.handed
  inserts := by
    rw [List.filterMap_append, List.map_append, inserted, List.prefix_append_right_inj]
    exact later.inserts
  all calm := by
    rw [List.filterMap_append, List.map_append, inserted,
      later.all fun row error member => calm row error (List.mem_append_right _ member)]

/-- A run that hands nothing over may stand before one. -/
theorem quiet (first : HandsOver account bound log []) (later : HandsOver account bound log' txs) :
    HandsOver account bound (log ++ log') txs := by
  have none : log.filterMap Entry.inserted = [] := List.prefix_nil.mp first.inserts
  exact first.append none later

end HandsOver

section Runs

variable {σ : Type} {exec : (op : Stmt) → σ → Except Err op.Val → σ → Prop} {s s' : σ}
  {log : List Entry} {account : AccountID} {startLt bound : ℕ} {hash : Bits256}

/-- `GetTransactions` keeps a chain, or nothing. Nothing is inserted. -/
theorem getTransactions_hands {result : Except Err (List Transaction)}
    (runs : Alone exec (getTransactions account startLt bound hash) s log result s') :
    log.filterMap Entry.inserted = [] ∧
      (∀ txs, result = .ok txs → handed bound log = txs ∧ Chain bound hash txs) ∧
      ∀ error, result = .error error → handed bound log = [] := by
  unfold getTransactions at runs
  rcases Alone.bind_cases runs with ⟨error, first, rfl⟩ | ⟨page, s₁, first, later, begins, ends, rfl⟩
  · obtain ⟨_, rfl⟩ := Alone.query_cases first
    exact ⟨rfl, fun txs same => (by cases same), fun _ _ => rfl⟩
  · obtain ⟨_, rfl⟩ := Alone.query_cases begins
    obtain ⟨rfl, rfl, rfl⟩ := Alone.ret_cases ends
    have kept : handed bound ([⟨.getTransactions account startLt hash, .ok page⟩] ++ []) =
        match checkPage bound hash page with
        | .ok txs => txs
        | .error _ => [] := List.append_nil _
    refine ⟨rfl, fun txs checked => ?_, fun error checked => ?_⟩
    · rw [kept, checked]
      exact ⟨rfl, chain_of_checkPage checked⟩
    · rw [kept, checked]

/-- The retries keep a chain of the last answer, or nothing. -/
theorem retryTransactions_hands {retries : ℕ} {last : Except Err (List Transaction)}
    {result : Except Err (Except Err (List Transaction))}
    (runs : Alone exec (retryTransactions account startLt bound hash retries last) s log result s')
    (none : ∀ tx txs, last ≠ .ok (tx :: txs)) :
    log.filterMap Entry.inserted = [] ∧ ∃ answer, result = .ok answer ∧
      ((∃ tx txs, answer = .ok (tx :: txs) ∧ handed bound log = tx :: txs ∧
          Chain bound hash (tx :: txs)) ∨
        (∀ tx txs, answer ≠ .ok (tx :: txs)) ∧ handed bound log = []) := by
  induction retries generalizing last s log with
  | zero =>
      obtain ⟨rfl, rfl, rfl⟩ := Alone.ret_cases runs
      exact ⟨rfl, last, rfl, .inr ⟨none, rfl⟩⟩
  | succ retries ih =>
      obtain ⟨found, s₁, first, later, begins, ends, rfl⟩ := Alone.attempt_bind_cases runs
      obtain ⟨silent, kept, refused⟩ := getTransactions_hands begins
      have again : (∀ tx txs, found ≠ .ok (tx :: txs)) → handed bound first = [] →
          Alone exec (retryTransactions account startLt bound hash retries found) s₁ later result s' →
          (first ++ later).filterMap Entry.inserted = [] ∧ ∃ answer, result = .ok answer ∧
            ((∃ tx txs, answer = .ok (tx :: txs) ∧ handed bound (first ++ later) = tx :: txs ∧
                Chain bound hash (tx :: txs)) ∨
              (∀ tx txs, answer ≠ .ok (tx :: txs)) ∧ handed bound (first ++ later) = []) := by
        intro other empty ends
        have same : handed bound (first ++ later) = handed bound later := by
          change (first ++ later).flatMap _ = _
          rw [List.flatMap_append]
          exact (congrArg (· ++ _) empty).trans (List.nil_append _)
        rw [List.filterMap_append, silent, List.nil_append, same]
        exact ih ends other
      match found, kept, refused, ends with
      | .ok (tx :: txs), kept, _, ends =>
          obtain ⟨rfl, rfl, rfl⟩ := Alone.ret_cases ends
          obtain ⟨same, chain⟩ := kept _ rfl
          rw [List.append_nil]
          exact ⟨silent, _, rfl, .inl ⟨tx, txs, rfl, same, chain⟩⟩
      | .ok [], kept, _, ends =>
          exact again (fun _ _ same => by cases same) (kept [] rfl).1 ends
      | .error error, _, refused, ends =>
          exact again (fun _ _ same => by cases same) (refused error rfl) ends

/-- `SaveTransactions` inserts the transactions in their order, until one cannot be. -/
theorem saveTransactions_inserts {txs : List Transaction} {result : Except Err Unit}
    (runs : Alone exec (saveTransactions account txs) s log result s') :
    (∀ bound, handed bound log = []) ∧
      log.filterMap Entry.inserted <+: txs.map (Transaction.row account) ∧
      (result = .ok () ∨ NoFailedInsert log →
        log.filterMap Entry.inserted = txs.map (Transaction.row account)) := by
  induction txs generalizing s log with
  | nil =>
      obtain ⟨rfl, _, rfl⟩ := Alone.ret_cases runs
      exact ⟨fun _ => rfl, List.prefix_rfl, fun _ => rfl⟩
  | cons tx rest ih =>
      change Alone exec (perform _ >>= fun _ => saveTransactions account rest) s log result s' at runs
      rcases Alone.bind_cases runs with ⟨error, first, rfl⟩ | ⟨_, s₁, first, later, begins, ends, rfl⟩
      · obtain ⟨_, rfl⟩ := Alone.query_cases first
        refine ⟨fun _ => rfl, List.cons_prefix_cons.mpr ⟨rfl, List.nil_prefix⟩, ?_⟩
        rintro (impossible | calm)
        · cases impossible
        · exact absurd List.mem_cons_self (calm _ error)
      · obtain ⟨_, rfl⟩ := Alone.query_cases begins
        obtain ⟨empty, inserts, all⟩ := ih ends
        refine ⟨empty, List.cons_prefix_cons.mpr ⟨rfl, inserts⟩, fun calm => ?_⟩
        have others := all (calm.imp_right fun calm row error member =>
          calm row error (List.mem_cons_of_mem _ member))
        exact congrArg (List.cons _) others

/-- What was kept is handed to `SaveTransactions`. -/
theorem handsOver_of_saves {txs : List Transaction} {kept saved : List Entry}
    {result : Except Err Unit} (silent : kept.filterMap Entry.inserted = [])
    (given : handed bound kept = txs)
    (saves : Alone exec (saveTransactions account txs) s saved result s') :
    HandsOver account bound (kept ++ saved) txs ∧ (result = .ok () →
      (kept ++ saved).filterMap Entry.inserted = txs.map (Transaction.row account)) := by
  obtain ⟨empty, inserts, all⟩ := saveTransactions_inserts saves
  have same : (kept ++ saved).filterMap Entry.inserted = saved.filterMap Entry.inserted := by
    rw [List.filterMap_append, silent, List.nil_append]
  refine ⟨⟨?_, same ▸ inserts, fun calm => same ▸ all (.inr ?_)⟩, fun ended => same ▸ all (.inl ended)⟩
  · change (kept ++ saved).flatMap _ = _
    rw [List.flatMap_append]
    exact (congrArg₂ (· ++ ·) given (empty bound)).trans (List.append_nil _)
  · exact fun row error member => calm row error (List.mem_append_right _ member)

/-- One iteration hands a chain over, and goes on with the hash that its last transaction
names, once all of it is inserted. -/
theorem syncGapIteration_hands {result : Except Err (Bits256 × ℕ)}
    (runs : Alone exec (syncGapIteration account hash startLt bound) s log result s') :
    ∃ txs, HandsOver account bound log txs ∧ Chain bound hash txs ∧
      ∀ next, result = .ok next → next.1 = nextHash hash txs ∧
        log.filterMap Entry.inserted = txs.map (Transaction.row account) := by
  unfold syncGapIteration at runs
  rcases Alone.bind_cases runs with ⟨error, first, rfl⟩ | ⟨answer, s₁, first, later, begins, ends, rfl⟩
  · obtain ⟨_, answer, impossible, _⟩ :=
      retryTransactions_hands first (fun _ _ same => by cases same)
    cases impossible
  · obtain ⟨silent, _, same, kept⟩ :=
      retryTransactions_hands begins (fun _ _ same => by cases same)
    cases same
    rcases kept with ⟨tx, txs, rfl, given, chain⟩ | ⟨other, none⟩
    · rcases Alone.bind_cases ends with ⟨error, saves, rfl⟩ | ⟨_, s₂, saved, last, saves, finish, rfl⟩
      · exact ⟨_, (handsOver_of_saves silent given saves).1, chain, fun _ same => by cases same⟩
      · obtain ⟨rfl, rfl, rfl⟩ := Alone.ret_cases finish
        obtain ⟨hands, inserted⟩ := handsOver_of_saves silent given saves
        rw [List.append_nil]
        refine ⟨_, hands, chain, fun next same => ⟨?_, inserted rfl⟩⟩
        cases same
        exact (nextHash_getLast hash (List.cons_ne_nil tx txs)).symm
    · have failed : later = [] ∧ ∀ next, result ≠ .ok next := by
        match answer, other, ends with
        | .ok (tx :: txs), other, _ => exact absurd rfl (other tx txs)
        | .ok [], _, ends =>
            obtain ⟨rfl, rfl, _⟩ := Alone.ret_cases ends
            exact ⟨rfl, fun _ same => by cases same⟩
        | .error _, _, ends =>
            obtain ⟨rfl, rfl, _⟩ := Alone.ret_cases ends
            exact ⟨rfl, fun _ same => by cases same⟩
      obtain ⟨rfl, ended⟩ := failed
      rw [List.append_nil]
      exact ⟨[], ⟨none, silent ▸ List.prefix_rfl, fun _ => silent⟩, trivial,
        fun next same => absurd same (ended next)⟩

/-- The loop hands one chain over, by induction on its rounds. -/
theorem syncPages_hands {rounds : ℕ} {result : Except Err Bool}
    (runs : Alone exec (syncPages account bound rounds hash startLt) s log result s') :
    ∃ txs, HandsOver account bound log txs ∧ Chain bound hash txs := by
  induction rounds generalizing hash startLt s log with
  | zero =>
      obtain ⟨rfl, _, _⟩ := Alone.ret_cases runs
      exact ⟨[], .nil, trivial⟩
  | succ rounds ih =>
      unfold syncPages at runs
      split at runs
      · obtain ⟨rfl, _, _⟩ := Alone.ret_cases runs
        exact ⟨[], .nil, trivial⟩
      · rcases Alone.bind_cases runs with ⟨error, first, _⟩ | ⟨next, s₁, first, later, begins, ends, rfl⟩
        · obtain ⟨txs, hands, chain, _⟩ := syncGapIteration_hands first
          exact ⟨txs, hands, chain⟩
        · obtain ⟨txs, hands, chain, goesOn⟩ := syncGapIteration_hands begins
          obtain ⟨same, inserted⟩ := goesOn next rfl
          split at ends
          · obtain ⟨rfl, _, _⟩ := Alone.ret_cases ends
            rw [List.append_nil]
            exact ⟨txs, hands, chain⟩
          · obtain ⟨txs', hands', chain'⟩ := ih ends
            rw [same] at chain'
            exact ⟨txs ++ txs', hands.append inserted hands', chain_append.mpr ⟨chain, chain'⟩⟩

/-- **Whatever the lite server answers, a call of `syncHistoryGap` hands over one chain from
its hash, above its depth bound.** A page that is mismatched in front of the bound is an
error of `GetTransactions`, and nothing is kept of it. -/
theorem syncHistoryGap_chain {account : Account} {rounds startLt endLt : ℕ} {startHash : Bits256}
    {result : Except Err Unit}
    (runs : Alone exec (syncHistoryGap account rounds startHash startLt endLt) s log result s') :
    (∃ txs, HandsOver account.accountID (max endLt account.info.maxDepthLt) log txs ∧
        Chain (max endLt account.info.maxDepthLt) startHash txs) ∧
      ∀ (lt bound : ℕ) (hash : Bits256) (page : List Transaction), Mismatched bound hash page →
        Entry.kept bound ⟨.getTransactions account.accountID lt hash, .ok page⟩ = [] ∧
        ∀ {s s' : σ} {answers : List Entry} {kept : Except Err (List Transaction)},
          Alone exec (getTransactions account.accountID lt bound hash) s answers kept s' →
          answers = [⟨.getTransactions account.accountID lt hash, .ok page⟩] →
          kept = .error (.invalid "mismatched tx hash") := by
  constructor
  · unfold syncHistoryGap at runs
    rcases Alone.bind_cases runs with ⟨error, first, _⟩ | ⟨left, s₁, first, later, begins, ends, rfl⟩
    · exact syncPages_hands first
    · obtain ⟨txs, hands, chain⟩ := syncPages_hands begins
      have silent : HandsOver account.accountID (max endLt account.info.maxDepthLt) later [] := by
        split at ends
        · obtain ⟨_, rfl⟩ := Alone.query_cases ends
          exact ⟨rfl, List.prefix_rfl, fun _ => rfl⟩
        · obtain ⟨rfl, _, _⟩ := Alone.ret_cases ends
          exact .nil
      refine ⟨txs, ⟨?_, ?_, fun calm => ?_⟩, chain⟩
      · change (first ++ later).flatMap _ = _
        rw [List.flatMap_append]
        exact (congrArg₂ (· ++ ·) hands.handed silent.handed).trans (List.append_nil _)
      · rw [List.filterMap_append, List.prefix_nil.mp silent.inserts, List.append_nil]
        exact hands.inserts
      · rw [List.filterMap_append, List.prefix_nil.mp silent.inserts, List.append_nil]
        exact hands.all fun row error member => calm row error (List.mem_append_left _ member)
  · intro lt bound hash page mismatched
    have refused := checkPage_mismatched.mpr mismatched
    refine ⟨by rw [Entry.kept, refused], fun {_ _ _ _} asked same => ?_⟩
    unfold getTransactions at asked
    rcases Alone.bind_cases asked with ⟨error, first, rfl⟩ | ⟨page', _, first, later, begins, ends, rfl⟩
    · obtain ⟨_, rfl⟩ := Alone.query_cases first
      cases same
    · obtain ⟨_, rfl⟩ := Alone.query_cases begins
      obtain ⟨rfl, rfl, _⟩ := Alone.ret_cases ends
      cases same
      exact refused

end Runs

/-! ## Two pages -/

namespace Shop

def linked (hash prevTxHash : Bits256) (lt prevTxLt : ℕ) : Transaction :=
  ⟨lt, hash, prevTxLt, prevTxHash, 0, true, .zero, []⟩

def depthTen : Account := ⟨⟨0, 1⟩, ⟨10, ⟨0, 1⟩, none⟩⟩

/-- A lite server with three transactions, of which it sends one, or the last two. -/
def serve : (op : Stmt) → Unit → Option (Except Err op.Val × Unit)
  | .getTransactions _ _ hash, _ =>
      some (.ok (if hash = 3 then [linked 3 2 30 20] else [linked 2 1 20 10, linked 1 0 10 0]), ())
  | .insertTransaction _, _ => some (.ok (), ())
  | .setLastLt _, _ => some (.ok (), ())
  | _, _ => none

/-- The transactions above the depth bound are handed over as a chain. -/
theorem two_pages_chained : ∃ log,
    Alone (fun op s answer s' => serve op s = some (answer, s')) (syncHistoryGap depthTen 3 3 30 0) ()
        log (.ok ()) () ∧
      ∃ txs, HandsOver ⟨0, 1⟩ 10 log txs ∧ Chain 10 3 txs := by
  have ended : (syncHistoryGap depthTen 3 3 30 0).eval serve () = some (.ok (), ()) := rfl
  obtain ⟨log, runs⟩ := Alone.of_eval (fun _ _ _ _ answered => answered) ended
  exact ⟨log, runs, (syncHistoryGap_chain runs).1⟩

end Shop

end SpiceHarvester
