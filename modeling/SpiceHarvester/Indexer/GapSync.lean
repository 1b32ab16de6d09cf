import SpiceHarvester.Indexer.HashChain
import SpiceHarvester.Indexer.Refresh
import SpiceHarvester.Interleaving.Ensures
import Mathlib.Data.List.TakeWhile

/-!
# What `syncHistoryGap` downloads

The transactions of an account form a chain: each names the one before it, which is older.
A lite server that is asked for the transactions from one of them on answers with that one
and as many before it as it likes, or it fails.

`syncHistoryGap` goes down the chain page by page, to a bound that it fixes at its entry.
Each page starts where the one before ended, so what is left of the chain gets shorter with
every page, and this is why the loop ends. It ends at the bound: either the last page has
been cut there, or the next transaction is not above it, or there is none. So exactly the
transactions above the bound are inserted, the newest first
(`syncHistoryGap_downloads`).
-/

set_option autoImplicit false

namespace SpiceHarvester

open Interleaving Sql

/-! ## The transactions of an account -/

/-- Transactions from one with an LT and a hash on, the newest first: each names the one
before it, which is older, and the oldest one names the LT 0. -/
def Linked : ℕ → Bits256 → List Transaction → Prop
  | lt, _, [] => lt = 0
  | lt, hash, tx :: older =>
      tx.lt = lt ∧ tx.hash = hash ∧ tx.prevTxLt < lt ∧ Linked tx.prevTxLt tx.prevTxHash older

/-- The transactions of an account, the newest first. -/
structure AccountChain where
  last : TxID
  txs : List Transaction
  linked : Linked last.lt last.hash txs

/-- The transactions from the one with an LT on. -/
def AccountChain.since (chain : AccountChain) (lt : ℕ) : List Transaction :=
  chain.txs.dropWhile fun tx => decide (lt < tx.lt)

/-- The transactions above a bound, up to an LT. -/
def AccountChain.between (chain : AccountChain) (bound lt : ℕ) : List Transaction :=
  chain.txs.filter fun tx => decide (bound < tx.lt) && decide (tx.lt ≤ lt)

/-- The transaction is above the bound. -/
def above (bound : ℕ) (tx : Transaction) : Bool := decide (bound < tx.lt)

namespace Linked

variable {lt bound : ℕ} {hash : Bits256} {tx : Transaction} {txs txs' : List Transaction}

theorem le (linked : Linked lt hash txs) : ∀ tx ∈ txs, tx.lt ≤ lt := by
  induction txs generalizing lt hash with
  | nil => exact fun _ member => by cases member
  | cons first older ih =>
      intro tx member
      obtain ⟨same, _, lower, linked⟩ := linked
      rcases List.mem_cons.mp member with rfl | member
      · exact same.le
      · exact (ih linked tx member).trans lower.le

/-- The LTs of a chain go down. -/
theorem descending (linked : Linked lt hash txs) :
    txs.Pairwise fun newer older => older.lt < newer.lt := by
  induction txs generalizing lt hash with
  | nil => exact .nil
  | cons first older ih =>
      obtain ⟨same, _, lower, linked⟩ := linked
      refine .cons (fun tx member => ?_) (ih linked)
      have le := linked.le tx member
      omega

/-- What follows a transaction is linked to it. -/
theorem after (linked : Linked lt hash (txs ++ txs')) (some' : txs ≠ []) :
    Linked (txs.getLast some').prevTxLt (txs.getLast some').prevTxHash txs' := by
  induction txs generalizing lt hash with
  | nil => exact absurd rfl some'
  | cons first rest ih =>
      obtain ⟨_, _, _, linked⟩ := linked
      cases rest with
      | nil => exact linked
      | cons next rest => exact ih linked (List.cons_ne_nil next rest)

/-- A part of a chain that starts with a transaction is linked from this one on. -/
theorem suffix (linked : Linked lt hash (txs ++ tx :: txs')) :
    Linked tx.lt tx.hash (tx :: txs') := by
  induction txs generalizing lt hash with
  | nil =>
      obtain ⟨rfl, rfl, _⟩ := id linked
      exact linked
  | cons first rest ih => exact ih linked.2.2.2

/-- Above a bound is the front of a chain. -/
theorem filter_above (linked : Linked lt hash txs) :
    txs.filter (above bound) = txs.takeWhile (above bound) := by
  induction txs generalizing lt hash with
  | nil => rfl
  | cons first older ih =>
      obtain ⟨same, _, lower, linked⟩ := linked
      by_cases high : bound < first.lt
      · have keep : above bound first = true := decide_eq_true high
        rw [List.filter_cons_of_pos keep, List.takeWhile_cons_of_pos keep, ih linked]
      · have drop : ¬ above bound first = true := by
          rw [above, decide_eq_true_eq]
          exact high
        rw [List.filter_cons_of_neg drop, List.takeWhile_cons_of_neg drop]
        refine List.filter_eq_nil_iff.mpr fun tx member => ?_
        have le := linked.le tx member
        rw [above, decide_eq_true_eq]
        omega

/-- The client keeps of a page what is above the bound. -/
theorem checkPage (linked : Linked lt hash txs) {page : List Transaction} (part : page <+: txs) :
    checkPage bound hash page = .ok (page.takeWhile (above bound)) := by
  induction txs generalizing lt hash page with
  | nil =>
      rw [List.prefix_nil.mp part]
      rfl
  | cons first older ih =>
      obtain ⟨_, named, _, linked⟩ := linked
      cases page with
      | nil => rfl
      | cons tx rest =>
          obtain ⟨rfl, behind⟩ := List.cons_prefix_cons.mp part
          unfold SpiceHarvester.checkPage
          rw [if_neg (not_not.mpr named)]
          by_cases low : tx.lt ≤ bound
          · have drop : ¬ above bound tx = true := by
              rw [above, decide_eq_true_eq]
              exact Nat.not_lt.mpr low
            rw [if_pos low, List.takeWhile_cons_of_neg drop]
          · have keep : above bound tx = true := decide_eq_true (Nat.lt_of_not_le low)
            rw [if_neg low, ih linked behind, List.takeWhile_cons_of_pos keep]
            rfl

end Linked

namespace AccountChain

variable {chain : AccountChain} {bound : ℕ} {tx : Transaction} {newer older : List Transaction}

theorem newer_lt (parts : chain.txs = newer ++ tx :: older) : ∀ first ∈ newer, tx.lt < first.lt := by
  intro first member
  have descending := chain.linked.descending
  rw [parts, List.pairwise_append] at descending
  exact descending.2.2 first member tx List.mem_cons_self

theorem linked_from (parts : chain.txs = newer ++ tx :: older) :
    Linked tx.lt tx.hash (tx :: older) := by
  have linked := chain.linked
  rw [parts] at linked
  exact linked.suffix

/-- The server answers from the transaction on that it is asked for. -/
theorem since_eq (parts : chain.txs = newer ++ tx :: older) : chain.since tx.lt = tx :: older := by
  have drops : ∀ first ∈ newer, decide (tx.lt < first.lt) = true :=
    fun first member => decide_eq_true (newer_lt parts first member)
  rw [since, parts, List.dropWhile_append_of_pos drops,
    List.dropWhile_cons_of_neg (by simp)]

/-- Between a bound and a transaction is the front of what the server has from it on. -/
theorem between_eq (parts : chain.txs = newer ++ tx :: older) :
    chain.between bound tx.lt = (tx :: older).takeWhile (above bound) := by
  have linked := linked_from parts
  have none : newer.filter (fun first => decide (bound < first.lt) && decide (first.lt ≤ tx.lt)) = [] := by
    refine List.filter_eq_nil_iff.mpr fun first member => ?_
    have lower := newer_lt parts first member
    simp only [Bool.and_eq_true, decide_eq_true_eq]
    omega
  have all : (tx :: older).filter (fun first => decide (bound < first.lt) && decide (first.lt ≤ tx.lt)) =
      (tx :: older).filter (above bound) := by
    refine List.filter_congr fun first member => ?_
    rw [decide_eq_true (linked.le first member), Bool.and_true, above]
  rw [between, parts, List.filter_append, none, List.nil_append, all, linked.filter_above]

end AccountChain

/-! ## A lite server that has the chain -/

/-- What the client makes of an answer of the lite server. -/
def clientAnswer (bound : ℕ) (hash : Bits256) (page : Except Err (List Transaction)) :
    Except Err (List Transaction) := page.bind (checkPage bound hash)

/-- The server answers with transactions from an LT on, at least one. Or the call fails or
yields nothing, which happens at most 199 times in a row. -/
def AccountChain.Answers (chain : AccountChain) (bound lt : ℕ) (hash : Bits256)
    (page : Except Err (List Transaction)) (failures failures' : ℕ) : Prop :=
  (∃ txs, page = .ok txs ∧ txs ≠ [] ∧ txs <+: chain.since lt ∧ failures' = 0) ∨
    ((∀ tx txs, clientAnswer bound hash page ≠ .ok (tx :: txs)) ∧ failures < 199 ∧
      failures' = failures + 1)

section Downloads

variable [Libraries] {τ : Type} [DecidableEq τ] [Fintype τ]

/-- The storage does not fail, and the lite server has the chain. The number counts the
calls that have failed or yielded nothing since the last one that has not. -/
def Downloads (chain : AccountChain) (bound : ℕ) (t : τ) (op : Stmt) (s : World τ × ℕ)
    (answer : Except Err op.Val) (s' : World τ × ℕ) : Prop :=
  ∃ choice : Choice, op.run choice t s.1 = some (answer, s'.1) ∧
    match op with
    | .getTransactions _ lt hash => chain.Answers bound lt hash choice.page s.2 s'.2
    | _ => s'.2 = s.2

/-- The transactions have been inserted in their order, the thread still runs, and
`w.lastLt` is as before. -/
structure Inserted (account : AccountID) (t : τ) (w : World τ) (txs : List Transaction)
    (log : List Entry) (w' : World τ) : Prop where
  inserts : log.filterMap Entry.inserted = txs.map (Transaction.row account)
  stored : ∀ hash, w'.db.transactions.find hash = (w.db.transactions.find hash).or
    ((txs.map (Transaction.row account)).find? fun row => decide (row.hash = hash))
  kept : keptLt w' t = keptLt w t
  running : (w'.threads t).isSome = (w.threads t).isSome

/-- What a call of `syncHistoryGap` has done when it has returned: exactly the transactions
above the bound have been inserted, the newest first, each unless its hash was stored
already. `w.lastLt` is the LT it started at if there were any. -/
structure Downloaded (chain : AccountChain) (account : AccountID) (bound startLt : ℕ) (t : τ)
    (w : World τ) (log : List Entry) (result : Except Err Unit) (w' : World τ) : Prop where
  result : result = .ok ()
  inserts : log.filterMap Entry.inserted =
    (chain.between bound startLt).map (Transaction.row account)
  descending : (log.filterMap Entry.inserted).Pairwise fun first later => later.lt < first.lt
  stored : ∀ hash, w'.db.transactions.find hash = (w.db.transactions.find hash).or
    (((chain.between bound startLt).map (Transaction.row account)).find? fun row =>
      decide (row.hash = hash))
  lastLt : keptLt w' t = if chain.between bound startLt = [] then keptLt w t else startLt

variable {chain : AccountChain} {bound : ℕ} {t : τ} {account : AccountID} {w w₁ w' : World τ}
  {txs later : List Transaction} {log log' : List Entry}

namespace Inserted

omit [DecidableEq τ] [Fintype τ] in
/-- Nothing is inserted, and the transactions are the same. -/
theorem none (inserts : log.filterMap Entry.inserted = [])
    (same : w'.db.transactions = w.db.transactions) (kept : keptLt w' t = keptLt w t)
    (running : (w'.threads t).isSome = (w.threads t).isSome) :
    Inserted account t w [] log w' :=
  ⟨inserts, fun hash => by rw [same]; exact Option.or_none.symm, kept, running⟩

omit [DecidableEq τ] [Fintype τ] in
theorem append (first : Inserted account t w txs log w₁)
    (second : Inserted account t w₁ later log' w') :
    Inserted account t w (txs ++ later) (log ++ log') w' where
  inserts := by rw [List.filterMap_append, first.inserts, second.inserts, List.map_append]
  stored hash := by
    rw [second.stored, first.stored, List.map_append, List.find?_append, Option.or_assoc]
  kept := second.kept.trans first.kept
  running := second.running.trans first.running

end Inserted

/-! ## One page -/

/-- An `INSERT` keeps a transaction that is stored already. -/
theorem downloads_insertTransaction {tx : Transaction} {answer : Except Err Unit} {n n' : ℕ}
    (downloads : Downloads chain bound t (.insertTransaction (tx.row account)) (w, n) answer (w', n')) :
    answer = .ok () ∧ n' = n ∧
      Inserted account t w [tx] [⟨.insertTransaction (tx.row account), answer⟩] w' := by
  obtain ⟨choice, ran, count⟩ := downloads
  simp only [Stmt.run, Option.some.injEq, Prod.mk.injEq] at ran
  have threads : w'.threads = w.threads := by
    rw [← ran.2]
    split <;> rfl
  have transactions : w'.db.transactions =
      (w.db.transactions.insert? (tx.row account)).getD w.db.transactions := by
    rw [← ran.2]
    cases w.db.transactions.insert? (tx.row account) <;> rfl
  refine ⟨ran.1.symm, count, rfl, fun hash => ?_, ?_, ?_⟩
  · rw [transactions, Table.find_getD_insert?, List.map_singleton, List.find?_singleton]
    simp only [decide_eq_true_eq]
  · rw [keptLt, keptLt, threads]
  · rw [threads]

/-- `SaveTransactions` inserts one transaction after the other. -/
theorem saveTransactions_ensures (txs : List Transaction) (w : World τ) (n : ℕ) :
    Ensures (Downloads chain bound t) (saveTransactions account txs) (w, n) fun log result s' =>
      ∃ value, result = .ok value ∧ Inserted account t w txs log s'.1 ∧ s'.2 = n := by
  induction txs generalizing w with
  | nil => exact ⟨(), rfl, .none rfl rfl rfl rfl, rfl⟩
  | cons tx rest ih =>
      have one : Ensures (Downloads chain bound t) (perform (.insertTransaction (tx.row account)))
          (w, n) fun log result s' =>
            ∃ value, result = .ok value ∧ Inserted account t w [tx] log s'.1 ∧ s'.2 = n := by
        refine .query ⟨.ok (), (_, n), ⟨0, [], [], [], true, .error .failed, .error .failed⟩, rfl, rfl⟩ ?_
        rintro answer ⟨w', n'⟩ downloads
        obtain ⟨rfl, rfl, inserted⟩ := downloads_insertTransaction downloads
        exact ⟨(), rfl, inserted, rfl⟩
      refine Ensures.bind one ?_
      rintro log _ ⟨w₁, n₁⟩ ⟨first, rfl⟩
      refine (ih w₁).weaken ?_
      rintro log' result s' ⟨value, ok, others, count⟩
      exact ⟨value, ok, first.append others, count⟩

/-- **A call of `GetTransactions` keeps the front of the chain above the bound, or it counts
as a failure.** -/
theorem getTransactions_ensures {tx : Transaction} {newer older : List Transaction}
    (parts : chain.txs = newer ++ tx :: older) (high : bound < tx.lt) (w : World τ) (n : ℕ) :
    Ensures (Downloads chain bound t) (getTransactions account tx.lt bound tx.hash) (w, n)
      fun log result s' => Inserted account t w [] log s'.1 ∧
        ((∃ rest tail, result = .ok (tx :: rest) ∧ older = rest ++ tail ∧
            (∀ kept ∈ tx :: rest, bound < kept.lt) ∧ s'.2 = 0) ∨
          ((∀ first rest, result ≠ .ok (first :: rest)) ∧ n < 199 ∧ s'.2 = n + 1)) := by
  change Ensures _ (.call (.getTransactions account tx.lt tx.hash) fun answer =>
    (Prog.ret answer : Action (List Transaction)).bind fun page =>
      .ret (checkPage bound tx.hash page)) _ _
  have since := AccountChain.since_eq parts
  refine ⟨⟨.ok (chain.since tx.lt), (_, 0),
    ⟨0, [], [], [], true, .ok (chain.since tx.lt), .error .failed⟩, rfl,
    .inl ⟨_, rfl, by rw [since]; exact List.cons_ne_nil _ _, List.prefix_rfl, rfl⟩⟩, ?_⟩
  rintro answer ⟨w', n'⟩ ⟨choice, ran, answers⟩
  simp only [Stmt.run, Option.some.injEq, Prod.mk.injEq] at ran
  obtain ⟨rfl, rfl⟩ := ran
  have nothing : Inserted account t w [] [⟨.getTransactions account tx.lt tx.hash, choice.page⟩]
      (w.setThread t fun thread => { thread with page := choice.page.toOption.getD [] }) := by
    refine .none rfl rfl ?_ ?_
    · rw [keptLt, keptLt, World.threads_setThread]
      cases w.threads t <;> rfl
    · rw [World.threads_setThread, Option.isSome_map]
  rcases answers with ⟨page, same, some', part, rfl⟩ | ⟨fails, few, rfl⟩
  · rw [since] at part
    have checked : checkPage bound tx.hash page = .ok (page.takeWhile (above bound)) :=
      (AccountChain.linked_from parts).checkPage part
    rw [same] at nothing ⊢
    refine ⟨nothing, .inl ?_⟩
    cases page with
    | nil => exact absurd rfl some'
    | cons first rest =>
        obtain ⟨rfl, tail, rfl⟩ := List.cons_prefix_cons.mp part
        have keep : above bound first = true := decide_eq_true high
        have split := List.takeWhile_append_dropWhile (p := above bound) (l := rest)
        refine ⟨rest.takeWhile (above bound), rest.dropWhile (above bound) ++ tail, ?_, ?_, ?_, rfl⟩
        · rw [List.takeWhile_cons_of_pos keep] at checked
          exact checked
        · rw [← List.append_assoc, split]
        · intro kept member
          rw [← List.takeWhile_cons_of_pos keep] at member
          have holds : above bound kept = true := List.mem_takeWhile_imp member
          exact of_decide_eq_true holds
  · generalize choice.page = page at fails nothing ⊢
    cases page with
    | error error => exact ⟨nothing, .inr ⟨fails, few, rfl⟩⟩
    | ok page => exact ⟨nothing, .inr ⟨fails, few, rfl⟩⟩

/-- A number of transactions from the front of the chain, all above the bound. -/
def Front (bound : ℕ) (older : List Transaction) (tx : Transaction) (rest tail : List Transaction) :
    Prop :=
  older = rest ++ tail ∧ ∀ kept ∈ tx :: rest, bound < kept.lt

/-- **The retries outlast the failures.** -/
theorem retryTransactions_ensures {tx : Transaction} {newer older : List Transaction}
    (parts : chain.txs = newer ++ tx :: older) (high : bound < tx.lt) (retries : ℕ)
    (last : Except Err (List Transaction)) (w : World τ) (n : ℕ) (few : n ≤ 199)
    (enough : 200 ≤ n + retries) :
    Ensures (Downloads chain bound t)
      (retryTransactions account tx.lt bound tx.hash retries last) (w, n)
      fun log result s' => ∃ answer, result = .ok answer ∧ Inserted account t w [] log s'.1 ∧
        s'.2 = 0 ∧ ∃ rest tail, answer = .ok (tx :: rest) ∧ Front bound older tx rest tail := by
  induction retries generalizing w n last with
  | zero => omega
  | succ retries ih =>
      refine Ensures.bind (getTransactions_ensures parts high w n).attempt ?_
      rintro log found ⟨w₁, n₁⟩ ⟨nothing, ⟨rest, tail, rfl, behind, kept, count⟩ | ⟨fails, less, count⟩⟩
      · refine ⟨_, rfl, ?_, count, rest, tail, rfl, behind, kept⟩
        rw [List.append_nil]
        exact nothing
      · have again := ih found w₁ n₁ (by change n₁ = n + 1 at count; omega)
          (by change n₁ = n + 1 at count; omega)
        have goesOn : Ensures (Downloads chain bound t)
            (retryTransactions account tx.lt bound tx.hash retries found) (w₁, n₁)
            fun log' result s' => ∃ answer, result = .ok answer ∧
              Inserted account t w [] (log ++ log') s'.1 ∧ s'.2 = 0 ∧
              ∃ rest tail, answer = .ok (tx :: rest) ∧ Front bound older tx rest tail := by
          refine again.weaken ?_
          rintro log' result s' ⟨answer, ok, later, rest⟩
          exact ⟨answer, ok, nothing.append later, rest⟩
        match found, fails, goesOn with
        | .ok (first :: rest), fails, _ => exact absurd rfl (fails first rest)
        | .ok [], _, goesOn => exact goesOn
        | .error _, _, goesOn => exact goesOn

/-- An iteration inserts a part of the chain above the bound, and goes on with what its
last transaction names. -/
theorem syncGapIteration_ensures {tx : Transaction} {newer older : List Transaction}
    (parts : chain.txs = newer ++ tx :: older) (high : bound < tx.lt) (w : World τ) :
    Ensures (Downloads chain bound t) (syncGapIteration account tx.hash tx.lt bound) (w, 0)
      fun log result s' => ∃ next, result = .ok next ∧ ∃ rest tail, Front bound older tx rest tail ∧
        Inserted account t w (tx :: rest) log s'.1 ∧ s'.2 = 0 ∧
        next = (((tx :: rest).getLast (List.cons_ne_nil tx rest)).prevTxHash,
          ((tx :: rest).getLast (List.cons_ne_nil tx rest)).prevTxLt) := by
  refine Ensures.bind
    (retryTransactions_ensures parts high 200 (.ok []) w 0 (by omega) (by omega)) ?_
  rintro log answer ⟨w₁, n₁⟩ ⟨nothing, count, rest, tail, rfl, front⟩
  refine Ensures.bind (saveTransactions_ensures (tx :: rest) w₁ n₁) ?_
  rintro log' _ ⟨w₂, n₂⟩ ⟨inserted, same⟩
  refine ⟨_, rfl, rest, tail, front, ?_, same.trans count, rfl⟩
  rw [List.append_nil]
  exact nothing.append inserted

/-! ## The loop -/

/-- **The loop inserts what is above the bound.** Each page shortens what is left of it. -/
theorem syncPages_ensures (rounds : ℕ) {tx : Transaction} {newer older : List Transaction}
    (parts : chain.txs = newer ++ tx :: older) (high : bound < tx.lt)
    (enough : ((tx :: older).takeWhile (above bound)).length ≤ rounds) (w : World τ) :
    Ensures (Downloads chain bound t) (syncPages account bound rounds tx.hash tx.lt) (w, 0)
      fun log result s' => ∃ left, result = .ok left ∧ left = true ∧
        Inserted account t w ((tx :: older).takeWhile (above bound)) log s'.1 := by
  induction rounds generalizing tx newer older w with
  | zero =>
      have keep : above bound tx = true := decide_eq_true high
      rw [List.takeWhile_cons_of_pos keep, List.length_cons] at enough
      omega
  | succ rounds ih =>
      unfold syncPages
      rw [if_neg (Nat.ne_of_gt high)]
      refine Ensures.bind (syncGapIteration_ensures parts high w) ?_
      rintro log _ ⟨w₁, n₁⟩ ⟨rest, tail, ⟨rfl, kept⟩, inserted, rfl, rfl⟩
      have linked : Linked ((tx :: rest).getLast (List.cons_ne_nil tx rest)).prevTxLt
          ((tx :: rest).getLast (List.cons_ne_nil tx rest)).prevTxHash tail :=
        Linked.after (AccountChain.linked_from parts) (List.cons_ne_nil tx rest)
      have front : (tx :: (rest ++ tail)).takeWhile (above bound) =
          (tx :: rest) ++ tail.takeWhile (above bound) := by
        rw [← List.cons_append]
        exact List.takeWhile_append_of_pos fun x member => decide_eq_true (kept x member)
      rw [front] at enough ⊢
      cases tail with
      | nil =>
          -- the chain ends here
          have ended : ((tx :: rest).getLast (List.cons_ne_nil tx rest)).prevTxLt = 0 := linked
          rw [if_pos (by omega)]
          refine ⟨true, rfl, rfl, ?_⟩
          rw [List.append_nil, List.takeWhile_nil, List.append_nil]
          exact inserted
      | cons next older =>
          obtain ⟨lt, hash, _⟩ := id linked
          rw [← lt, ← hash]
          by_cases low : next.lt ≤ bound
          · have drop : ¬ above bound next = true := by
              rw [above, decide_eq_true_eq]
              exact Nat.not_lt.mpr low
            rw [if_pos low]
            refine ⟨true, rfl, rfl, ?_⟩
            rw [List.append_nil, List.takeWhile_cons_of_neg drop, List.append_nil]
            exact inserted
          · rw [if_neg low]
            rw [List.length_append, List.length_cons] at enough
            have parts' : chain.txs = (newer ++ tx :: rest) ++ next :: older := by
              rw [parts, List.append_assoc, List.cons_append]
            refine (ih parts' (Nat.lt_of_not_le low) (by omega) w₁).weaken ?_
            rintro log' result s' ⟨left, ok, yes, later⟩
            exact ⟨left, ok, yes, inserted.append later⟩

/-- **What `syncHistoryGap` downloads.** Let the start be on the chain and not below the
bound. Whatever pages the lite server answers with, and wherever up to 199 calls in a row
fail, the call ends and has inserted exactly the transactions above the bound. -/
theorem syncHistoryGap_downloads (account : Account) (chain : AccountChain) {start : Transaction}
    (member : start ∈ chain.txs) {endLt : ℕ}
    (clipped : max endLt account.info.maxDepthLt ≤ start.lt) {rounds : ℕ}
    (enough : (chain.between (max endLt account.info.maxDepthLt) start.lt).length < rounds)
    {t : τ} {w : World τ} (running : (w.threads t).isSome) :
    Ensures (Downloads chain (max endLt account.info.maxDepthLt) t)
      (syncHistoryGap account rounds start.hash start.lt endLt) (w, 0) fun log result s' =>
        Downloaded chain account.accountID (max endLt account.info.maxDepthLt) start.lt t w log
          result s'.1 := by
  obtain ⟨newer, older, parts⟩ := List.append_of_mem member
  unfold syncHistoryGap
  generalize max endLt account.info.maxDepthLt = bound at clipped enough ⊢
  have range : chain.between bound start.lt = (start :: older).takeWhile (above bound) :=
    AccountChain.between_eq parts
  have descending : ((chain.between bound start.lt).map (Transaction.row account.accountID)).Pairwise
      fun first later => later.lt < first.lt :=
    List.pairwise_map.mpr (chain.linked.descending.sublist List.filter_sublist)
  obtain ⟨rounds, rfl⟩ : ∃ before, rounds = before + 1 := ⟨rounds - 1, by omega⟩
  rcases Nat.eq_or_lt_of_le clipped with rfl | high
  · -- there is nothing above the bound
    have drop : ¬ above start.lt start = true := by
      rw [above, decide_eq_true_eq]
      exact lt_irrefl _
    have none : chain.between start.lt start.lt = [] := by
      rw [range, List.takeWhile_cons_of_neg drop]
    have pages : Ensures (Downloads chain start.lt t)
        (syncPages account.accountID start.lt (rounds + 1) start.hash start.lt) (w, 0)
        fun log result s' => ∃ left, result = .ok left ∧ left = false ∧ log = [] ∧ s' = (w, 0) := by
      unfold syncPages
      rw [if_pos rfl]
      exact ⟨false, rfl, rfl, rfl, rfl⟩
    refine Ensures.bind pages ?_
    rintro log _ _ ⟨rfl, rfl, rfl⟩
    refine ⟨rfl, ?_, ?_, fun hash => ?_, ?_⟩
    · rw [none]
      rfl
    · exact .nil
    · rw [none]
      exact Option.or_none.symm
    · rw [if_pos none]
  · have keep : above bound start = true := decide_eq_true high
    have some' : chain.between bound start.lt ≠ [] := by
      rw [range, List.takeWhile_cons_of_pos keep]
      exact List.cons_ne_nil _ _
    have shorter : ((start :: older).takeWhile (above bound)).length ≤ rounds + 1 := by
      rw [← range]
      omega
    refine Ensures.bind (syncPages_ensures (rounds + 1) parts high shorter w) ?_
    rintro log _ ⟨w₁, n₁⟩ ⟨rfl, inserted⟩
    rw [← range] at inserted
    change Ensures _ (.call (Stmt.setLastLt start.lt) .ret) _ _
    refine ⟨⟨.ok (), (_, n₁), ⟨0, [], [], [], true, .error .failed, .error .failed⟩, rfl, rfl⟩, ?_⟩
    rintro answer ⟨w', n'⟩ ⟨choice, ran, _⟩
    simp only [Stmt.run, Option.some.injEq, Prod.mk.injEq] at ran
    obtain ⟨rfl, rfl⟩ := ran
    have inserts : (log ++ [(⟨.setLastLt start.lt, .ok ()⟩ : Entry)]).filterMap Entry.inserted =
        (chain.between bound start.lt).map (Transaction.row account.accountID) := by
      rw [List.filterMap_append, inserted.inserts]
      exact List.append_nil _
    refine ⟨rfl, inserts, ?_, inserted.stored, ?_⟩
    · rw [inserts]
      exact descending
    · obtain ⟨thread, held⟩ := Option.isSome_iff_exists.mp (inserted.running.trans running)
      rw [if_neg some', keptLt, World.threads_setThread, held]
      rfl

end Downloads

/-! ## Three transactions -/

namespace Shop

attribute [local instance] Texts.libraries

/-- An account with three transactions. -/
def threeTransactions : AccountChain where
  last := ⟨30, 3⟩
  txs := [linked 3 2 30 20, linked 2 1 20 10, linked 1 0 10 0]
  linked := ⟨rfl, rfl, by decide, rfl, rfl, by decide, rfl, rfl, by decide, rfl⟩

/-- The loader of the account runs, and has seen the LT 5. -/
def depthTenLoader : World Unit :=
  { (World.idle database : World Unit) with
    threads := fun _ => some { Thread.start (.loaderWorker depthTen 3) with lastLt := 5 } }

/-- The two transactions above the depth bound are downloaded. -/
theorem two_downloaded :
    ∃ log result s',
      Alone (Downloads threeTransactions 10 ()) (syncHistoryGap depthTen 3 3 30 0)
        (depthTenLoader, 0) log result s' ∧
      Downloaded threeTransactions ⟨0, 1⟩ 10 30 () depthTenLoader log result s'.1 := by
  have member : linked 3 2 30 20 ∈ threeTransactions.txs := List.mem_cons_self
  have clipped : max 0 depthTen.info.maxDepthLt ≤ (linked 3 2 30 20).lt := by decide
  have enough : (threeTransactions.between (max 0 depthTen.info.maxDepthLt) 30).length < 3 := by
    decide
  have downloads : Ensures (Downloads threeTransactions 10 ()) (syncHistoryGap depthTen 3 3 30 0)
      (depthTenLoader, 0) fun log result s' =>
        Downloaded threeTransactions ⟨0, 1⟩ 10 30 () depthTenLoader log result s'.1 :=
    syncHistoryGap_downloads depthTen threeTransactions member clipped enough rfl
  exact downloads.exists_alone

end Shop

end SpiceHarvester
