import SpiceHarvester.Indexer.Calls
import SpiceHarvester.Indexer.Refresh
import SpiceHarvester.Indexer.Stocked
import SpiceHarvester.Interleaving.Beside
import SpiceHarvester.Interleaving.Keeping

/-!
# The loader leaves no hole

Pages are stored newest first, so that each stop of the loader may leave a hole below what
it has stored, and several holes may be there at once. When it starts again it fills them
from the predecessor that is missing down to the next transaction stored, as `GetGaps` tells
it. Then it refreshes the account again and again, and loads what is new down to `w.lastLt`,
which the gaps have set back.

`gapless` is the contract of the loader beside the discipline of all programs: when it asks
for the state of its account, at the head of its endless loop, there is no hole between the
start of the account and `w.lastLt`, nor below anything stored (`loader_leaves_no_hole`).
-/

set_option autoImplicit false

namespace SpiceHarvester

open Interleaving Sql Backfill

/-! ## Lists and pages -/

/-- A page of the chain from an LT on, above a bound. -/
def PageOf (chain : AccountChain) (bound top : ℕ) (txs : List Transaction) : Prop :=
  txs <+: chain.since top ∧ ∀ tx ∈ txs, bound < tx.lt

theorem prefix_of_checkPage {bound : ℕ} {hash : Bits256} {page txs : List Transaction}
    (checked : checkPage bound hash page = .ok txs) : txs <+: page := by
  induction page generalizing hash txs with
  | nil =>
      cases checked
      exact List.prefix_rfl
  | cons first rest ih =>
      unfold checkPage at checked
      split at checked
      · cases checked
      split at checked
      · cases checked
        exact List.nil_prefix
      · cases later : checkPage bound first.prevTxHash rest with
        | error _ =>
            rw [later] at checked
            cases checked
        | ok others =>
            rw [later] at checked
            cases checked
            exact List.cons_prefix_cons.mpr ⟨rfl, ih later⟩

theorem Chain.above {bound : ℕ} {hash : Bits256} {txs : List Transaction}
    (chained : Chain bound hash txs) : ∀ tx ∈ txs, bound < tx.lt := by
  induction txs generalizing hash with
  | nil => exact fun _ member => by cases member
  | cons first rest ih =>
      obtain ⟨_, above, later⟩ := chained
      intro tx member
      obtain rfl | member := List.mem_cons.mp member
      · exact above
      · exact ih later tx member

theorem exists_right_of_forall₂ {α β : Type} {related : α → β → Prop} {items : List α}
    {others : List β} (all : List.Forall₂ related items others) {item : α} (member : item ∈ items) :
    ∃ other ∈ others, related item other := by
  induction all with
  | nil => cases member
  | cons first _ ih =>
      obtain rfl | member := List.mem_cons.mp member
      · exact ⟨_, List.mem_cons_self, first⟩
      · obtain ⟨other, among, holds⟩ := ih member
        exact ⟨other, List.mem_cons_of_mem _ among, holds⟩

theorem eq_singleton {α : Type} {items : List α} {item : α} (nodup : items.Nodup)
    (member : item ∈ items) (only : ∀ other ∈ items, other = item) : items = [item] := by
  obtain ⟨before, after, rfl⟩ := List.append_of_mem member
  have apart := List.nodup_middle.mp nodup
  have none : before ++ after = [] := by
    refine List.eq_nil_iff_forall_not_mem.mpr fun other among => ?_
    have same : other = item := only other (by
      rw [List.mem_append, List.mem_cons]
      exact (List.mem_append.mp among).imp_right .inr)
    exact (List.nodup_cons.mp apart).1 (same ▸ among)
  obtain ⟨rfl, rfl⟩ := List.append_eq_nil_iff.mp none
  rfl

/-- Lists with the same image are the same where the map tells their items apart. -/
theorem prefix_of_map {α β : Type} {f : α → β} {items others : List α}
    (front : items.map f <+: others.map f)
    (apart : ∀ x ∈ items, ∀ y ∈ others, f x = f y → x = y) : items <+: others := by
  induction items generalizing others with
  | nil => exact List.nil_prefix
  | cons x rest ih =>
      cases others with
      | nil => exact absurd (List.prefix_nil.mp front) (List.cons_ne_nil _ _)
      | cons y others =>
          obtain ⟨same, front⟩ := List.cons_prefix_cons.mp front
          refine List.cons_prefix_cons.mpr ⟨apart x List.mem_cons_self y List.mem_cons_self same, ?_⟩
          exact ih front fun x' member y' member' =>
            apart x' (List.mem_cons_of_mem x member) y' (List.mem_cons_of_mem y member')

/-! ## The contract -/

section Contract

variable [Libraries] {τ : Type}

theorem World.loading_iff {w : World τ} {account : AccountID} {t : τ} :
    w.tracks.Loading account t ↔ ∃ job, w.job t = some job ∧ job.stocks account = true := by
  constructor
  · rintro ⟨station, found, stocks⟩
    obtain ⟨thread, held, rfl⟩ := Option.map_eq_some_iff.mp found
    exact ⟨thread.job, by rw [World.job, held, Option.map_some], stocks⟩
  · rintro ⟨job, found, stocks⟩
    obtain ⟨thread, held, rfl⟩ := Option.map_eq_some_iff.mp found
    exact ⟨thread.station, World.station_of_thread held, stocks⟩

variable [DecidableEq τ] [Fintype τ]

/-- One loader of the account runs at a time, from its start on. The lite server answers with
transactions of its chain from an LT on, the newest first, and with none of them where
another account is asked for. -/
structure Supplies (rules : Rules τ) (chain : AccountChain) (account : AccountID) (startLt : ℕ) :
    Prop where
  single : ∀ {w worker rounds}, rules.spawn w (.loaderWorker worker rounds) →
    worker.accountID = account → worker.info.maxDepthLt = startLt ∧
      ∀ t job, w.job t = some job → job.stocks account = false
  pages : ∀ {w t lt hash fault choice page},
    rules.exec w t (.getTransactions account lt hash) fault choice → choice.page = .ok page →
    page <+: chain.since lt
  others : ∀ {w t other lt hash fault choice page}, other ≠ account →
    rules.exec w t (.getTransactions other lt hash) fault choice → choice.page = .ok page →
    ∀ tx ∈ page, ∀ own ∈ chain.txs, tx.hash ≠ own.hash

/-- The loader of an account asks for its state when nothing is missing. What is stored of
the chain is changed by nobody else. -/
def gapless (printing : Printing) (rules : Rules τ) (chain : AccountChain) (account : AccountID)
    (startLt : ℕ) : Contract (system printing rules) where
  rely t w w' := w'.threads t = w.threads t ∧ (w.tracks.Loading account t →
    chain.held account w'.db.transactions = chain.held account w.db.transactions)
  inv w := w.tracks.Stocked chain account startLt
  pre t op w := op = .getAccountState account → w.tracks.Loading account t →
    Whole chain.lts startLt (chain.held account w.db.transactions) (keptLt w t)
  post _ _ _ := True

variable {printing : Printing} {rules : Rules τ} {chain : AccountChain} {account : AccountID}
  {startLt : ℕ}

theorem gapless_closed : (gapless printing rules chain account startLt).Closed where
  rely_refl _ _ := ⟨rfl, fun _ => rfl⟩
  rely_trans {t w w' w''} first later := by
    refine ⟨later.1.trans first.1, fun loading => (later.2 ?_).trans (first.2 loading)⟩
    rw [World.loading_iff] at loading ⊢
    rw [World.job, first.1]
    exact loading

/-! ## Statements -/

/-- The statements of a loader that store nothing and leave `w.lastLt`. -/
def Stmt.surveys : Stmt → Bool
  | .insertTransaction _ | .setLastLt _ => false
  | op => op.loads

omit [Fintype τ] in
theorem keptLt_setThread (w : World τ) (t : τ) {f : Thread → Thread}
    (keeps : ∀ thread, (f thread).lastLt = thread.lastLt) : keptLt (w.setThread t f) t = keptLt w t := by
  unfold keptLt
  rw [World.threads_setThread]
  cases w.threads t with
  | none => rfl
  | some thread => exact keeps thread

theorem run_surveys {op : Stmt} {choice : Choice} {t : τ} {w w' : World τ}
    {answer : Except Err op.Val} (surveys : op.surveys = true)
    (runs : op.run choice t w = some (answer, w')) :
    w'.db.transactions = w.db.transactions ∧ keptLt w' t = keptLt w t := by
  have same : ∀ {w' : World τ}, w = w' →
      w'.db.transactions = w.db.transactions ∧ keptLt w' t = keptLt w t := by
    rintro w' rfl
    exact ⟨rfl, rfl⟩
  cases op with
  | now => exact same (congrArg Prod.snd (Option.some.inj runs))
  | selectGaps account => exact same (Stmt.run_selectGaps runs).1.symm
  | selectLtBelow account lt => exact same (congrArg Prod.snd (Option.some.inj runs))
  | selectLastLt account => exact same (congrArg Prod.snd (Option.some.inj runs))
  | getAccountState account => exact same (congrArg Prod.snd (Option.some.inj runs))
  | getLastLt => exact same (congrArg Prod.snd (Option.some.inj runs))
  | getTransactions account lt hash =>
      cases runs
      exact ⟨rfl, keptLt_setThread w t fun _ => rfl⟩
  | updateAccount last block time account =>
      obtain ⟨_, _, rfl⟩ := Stmt.run_updateAccount runs
      exact ⟨rfl, rfl⟩
  | _ => cases surveys

theorem runUnder_surveys {op : Stmt} {fault : Fault} {choice : Choice} {t : τ} {w w' : World τ}
    {answer : Except Err op.Val} (surveys : op.surveys = true)
    (runs : op.runUnder fault choice t w = some (answer, w')) :
    w'.db.transactions = w.db.transactions ∧ keptLt w' t = keptLt w t := by
  obtain ⟨_, ran⟩ | ⟨_, _, _, rfl⟩ | ⟨_, _, _, lost, w₀, ran, rfl⟩ := Stmt.runUnder_cases runs
  · exact run_surveys surveys ran
  · exact ⟨rfl, keptLt_setThread w t fun _ => rfl⟩
  · obtain ⟨same, kept⟩ := run_surveys surveys ran
    exact ⟨same, (keptLt_setThread w₀ t (f := Thread.fail) fun _ => rfl).trans kept⟩

omit [DecidableEq τ] [Fintype τ] in
theorem Supplies.receives (supplies : Supplies rules chain account startLt) {w : World τ} {t : τ}
    {thread : Thread} {op : Stmt} {fault : Fault} {choice : Choice}
    (allowed : rules.exec w t op fault choice)
    (may : thread.may w.db.currencies w.history.delivered op) :
    ∀ other lt hash, op = .getTransactions other lt hash →
      (Tracks.stocking (τ := τ) chain account startLt).receives thread.job
        (choice.page.toOption.getD []) := by
  rintro _ lt hash rfl worker rounds job
  obtain ⟨worker', rounds', job', rfl⟩ := may
  obtain ⟨rfl, rfl⟩ := Job.loaderWorker.inj (job'.symm.trans job)
  cases answer : choice.page with
  | error error =>
      exact ⟨fun _ _ member => absurd member List.not_mem_nil,
        fun _ _ member => absurd member List.not_mem_nil⟩
  | ok page =>
      refine ⟨fun own tx member => ?_, fun apart => supplies.others apart allowed answer⟩
      have front := supplies.pages (own ▸ allowed) answer
      exact (AccountChain.since_le (front.subset member)).1

/-- **What a statement of a thread does to what is stored of the chain.** -/
theorem runUnder_stocked (distinct : chain.Distinct) (supplies : Supplies rules chain account startLt)
    {w w' : World τ} {t : τ} {op : Stmt} {thread : Thread} {fault : Fault} {choice : Choice}
    {answer : Except Err op.Val} (stocked : w.tracks.Stocked chain account startLt)
    (held : w.threads t = some thread)
    (may : thread.may w.db.currencies w.history.delivered op)
    (allowed : rules.exec w t op fault choice)
    (runs : op.runUnder fault choice t w = some (answer, w')) :
    w'.tracks.Stocked chain account startLt ∧ (¬ w.tracks.Loading account t →
      chain.held account w'.db.transactions = chain.held account w.db.transactions) := by
  have ran : ∀ {answer w₁}, op.run choice t w = some (answer, w₁) →
      w₁.tracks.Stocked chain account startLt ∧ (¬ w.tracks.Loading account t →
        chain.held account w₁.db.transactions = chain.held account w.db.transactions) := by
    intro answer w₁ ran
    have step := Stmt.run_tracks held may (supplies.receives allowed may) (fun _ _ _ => trivial)
      (fun _ _ _ => trivial) ran
    exact ⟨stocked.step distinct step, fun other => stocked.held_step other step⟩
  have fails : ∀ {w₁ : World τ}, (w₁.threads t).isSome → w₁.tracks.Stocked chain account startLt →
      (w₁.setThread t Thread.fail).tracks.Stocked chain account startLt := by
    intro w₁ there stocked₁
    obtain ⟨thread₁, held₁⟩ := Option.isSome_iff_exists.mp there
    rw [World.tracks_setThread held₁]
    exact stocked₁.step distinct (.fail (World.station_of_thread held₁) trivial)
  obtain ⟨_, done⟩ | ⟨_, _, _, rfl⟩ | ⟨_, _, _, lost, w₀, done, rfl⟩ := Stmt.runUnder_cases runs
  · exact ran done
  · exact ⟨fails (by rw [held]; rfl) stocked, fun _ => rfl⟩
  · have jobs := congrArg Option.isSome (congrFun (Stmt.run_job done) t)
    rw [World.job, World.job, Option.isSome_map, Option.isSome_map, held] at jobs
    exact ⟨fails jobs (ran done).1, (ran done).2⟩

end Contract

/-! ## What a loader has -/

section Loader

variable [Libraries] {τ : Type} [DecidableEq τ] [Fintype τ] {printing : Printing} {rules : Rules τ}
  {chain : AccountChain} {startLt : ℕ} {worker : Account} {rounds : ℕ} {t : τ} {S : Set ℕ} {lt : ℕ}

/-- The loader runs with a `w.lastLt`, and these transactions of the chain are stored. -/
structure Loaded (chain : AccountChain) (worker : Account) (rounds : ℕ) (t : τ) (S : Set ℕ) (lt : ℕ)
    (w : World τ) : Prop where
  job : w.job t = some (.loaderWorker worker rounds)
  last : keptLt w t = lt
  held : chain.held worker.accountID w.db.transactions = S

omit [DecidableEq τ] [Fintype τ] in
theorem Loaded.loading {w : World τ} (loaded : Loaded chain worker rounds t S lt w) :
    w.tracks.Loading worker.accountID t :=
  World.loading_iff.mpr ⟨_, loaded.job, decide_eq_true rfl⟩

theorem loaded_stable : (gapless printing rules chain worker.accountID startLt).Stable t
    (Loaded chain worker rounds t S lt) := by
  rintro w w' ⟨threads, held⟩ loaded
  refine ⟨?_, ?_, (held loaded.loading).trans loaded.held⟩
  · rw [World.job, threads]
    exact loaded.job
  · rw [keptLt, threads]
    exact loaded.last

/-- The program keeps what the loader has, and what it returns is so. -/
abbrev Looks (printing : Printing) (rules : Rules τ) (chain : AccountChain) (startLt : ℕ)
    (worker : Account) (rounds : ℕ) (t : τ) (S : Set ℕ) (lt : ℕ) {α : Type} (program : Action α)
    (fact : α → Prop) : Prop :=
  (gapless printing rules chain worker.accountID startLt).Keeping t
    (Loaded chain worker rounds t S lt) program fact

/-- One statement that stores nothing. -/
theorem looks_perform {op : Stmt} {fact : op.Val → Prop} (surveys : op.surveys = true)
    (other : ∀ account, op ≠ .getAccountState account)
    (known : ∀ {w value w'}, Stock chain worker.accountID startLt w.db.transactions →
      Loaded chain worker rounds t S lt w → (system printing rules).exec t op w (.ok value) w' →
      fact value) :
    Looks printing rules chain startLt worker rounds t S lt (perform op) fact := by
  refine .query loaded_stable (fun _ _ same => absurd same (other _)) ?_
  intro w answer w' stocked loaded answers
  refine ⟨fun value same => known stocked.stock loaded (same ▸ answers), ?_⟩
  obtain ⟨fault, choice, _, runs⟩ := answers
  obtain ⟨transactions, kept⟩ := runUnder_surveys surveys runs
  refine ⟨(congrFun (Stmt.runUnder_job runs) t).trans loaded.job, kept.trans loaded.last, ?_⟩
  rw [transactions]
  exact loaded.held

/-! ## What it does -/

variable (supplies : Supplies rules chain worker.accountID startLt)
include supplies

theorem getTransactions_looks (top bound : ℕ) (hash : Bits256) :
    Looks printing rules chain startLt worker rounds t S lt
      (getTransactions worker.accountID top bound hash) (PageOf chain bound top) := by
  have page : Looks printing rules chain startLt worker rounds t S lt
      (perform (.getTransactions worker.accountID top hash)) fun page => page <+: chain.since top := by
    refine looks_perform rfl (fun _ => Stmt.noConfusion) fun _ _ answers => ?_
    obtain ⟨fault, choice, allowed, runs⟩ := answers
    exact supplies.pages allowed (congrArg Prod.fst (Option.some.inj (Stmt.run_of_ok runs)))
  refine page.bind gapless_closed fun page front => ?_
  exact .ret loaded_stable fun txs checked =>
    ⟨(prefix_of_checkPage checked).trans front, (chain_of_checkPage checked).above⟩

theorem retryTransactions_looks (top bound : ℕ) (hash : Bits256) (retries : ℕ)
    {last : Except Err (List Transaction)} (known : ∀ txs, last = .ok txs → PageOf chain bound top txs) :
    Looks printing rules chain startLt worker rounds t S lt
      (retryTransactions worker.accountID top bound hash retries last)
      fun answer => ∀ txs, answer = .ok txs → PageOf chain bound top txs := by
  induction retries generalizing last with
  | zero => exact .pure loaded_stable known
  | succ retries ih =>
      refine (getTransactions_looks supplies top bound hash).attempt.bind gapless_closed
        fun answer known => ?_
      split
      · exact .pure loaded_stable known
      · exact ih known

omit supplies in
/-- A transaction of the chain is stored. -/
theorem insertTransaction_returns (distinct : chain.Distinct) {tx : Transaction}
    (member : tx ∈ chain.txs) (deep : startLt < tx.lt) :
    (gapless printing rules chain worker.accountID startLt).Returns t
      (Loaded chain worker rounds t S lt) (perform (.insertTransaction (tx.row worker.accountID)))
      fun _ => Loaded chain worker rounds t (insert tx.lt S) lt := by
  refine Contract.Triple.query loaded_stable
    (fun _ _ _ others holds value same => loaded_stable _ _ others (holds value same))
    (fun _ _ same => nomatch same) ?_
  rintro w answer w' stocked loaded ⟨fault, choice, _, runs⟩ value rfl
  obtain ⟨_, stored⟩ := stocked.stock.insert distinct member deep
  have job := (congrFun (Stmt.runUnder_job runs) t).trans loaded.job
  cases Stmt.run_of_ok runs
  change _ = insert tx.lt (chain.held worker.accountID w.db.transactions) at stored
  rw [loaded.held] at stored
  change chain.held worker.accountID ((w.db.transactions.insert?
    (tx.row worker.accountID)).getD w.db.transactions) = _ at stored
  cases inserted : w.db.transactions.insert? (tx.row worker.accountID) with
  | none =>
      rw [inserted] at stored
      exact ⟨loaded.job, loaded.last, stored⟩
  | some transactions =>
      rw [inserted] at stored
      exact ⟨loaded.job, loaded.last, stored⟩

omit supplies in
theorem saveTransactions_returns (distinct : chain.Distinct) {txs : List Transaction}
    (members : ∀ tx ∈ txs, tx ∈ chain.txs ∧ startLt < tx.lt) :
    (gapless printing rules chain worker.accountID startLt).Returns t
      (Loaded chain worker rounds t S lt) (saveTransactions worker.accountID txs)
      fun _ => Loaded chain worker rounds t (S ∪ {item | ∃ tx ∈ txs, tx.lt = item}) lt := by
  induction txs generalizing S with
  | nil =>
      refine .of_pure loaded_stable fun {w} loaded => ?_
      have none : S ∪ {item | ∃ tx ∈ ([] : List Transaction), tx.lt = item} = S := by simp
      exact none.symm ▸ loaded
  | cons tx rest ih =>
      obtain ⟨member, deep⟩ := members tx List.mem_cons_self
      change (gapless printing rules chain worker.accountID startLt).Returns t _
        (perform _ >>= fun _ => saveTransactions worker.accountID rest) _
      refine (insertTransaction_returns distinct member deep).andThen gapless_closed fun _ => ?_
      have all : insert tx.lt S ∪ {item | ∃ tx ∈ rest, tx.lt = item} =
          S ∪ {item | ∃ other ∈ tx :: rest, other.lt = item} := by
        ext item
        simp only [Set.mem_union, Set.mem_insert_iff, Set.mem_ofPred_eq, List.exists_mem_cons_iff]
        rw [eq_comm (a := item), or_left_comm, or_assoc]
      rw [← all]
      exact ih fun other among => members other (List.mem_cons_of_mem _ among)

/-- One page is stored. The next one starts at the LT that its last transaction names. -/
theorem syncGapIteration_returns (distinct : chain.Distinct) {bound top : ℕ} (hash : Bits256)
    (deep : startLt ≤ bound) :
    (gapless printing rules chain worker.accountID startLt).Returns t
      (Loaded chain worker rounds t S lt) (syncGapIteration worker.accountID hash top bound)
      fun next w => ∃ S', (next.2 ≤ top ∧ Filled chain.lts S S' next.2 top) ∧
        Loaded chain worker rounds t S' lt w := by
  refine (retryTransactions_looks supplies top bound hash 200 fun txs same => ?_).returns
    gapless_closed fun answer known => ?_
  · cases same
    exact ⟨List.nil_prefix, fun _ member => by cases member⟩
  · match answer, known with
    | .error error, _ => exact .fail loaded_stable
    | .ok [], _ => exact .fail loaded_stable
    | .ok (tx :: txs), known =>
        obtain ⟨⟨tail, parts⟩, above⟩ := known _ rfl
        have some' : tx :: txs ≠ [] := List.cons_ne_nil tx txs
        obtain ⟨le, all⟩ := AccountChain.since_between parts.symm some'
        have among : ∀ kept ∈ tx :: txs, kept ∈ chain.txs ∧ kept.lt ≤ top := fun kept member =>
          AccountChain.since_le (parts ▸ List.mem_append_left tail member)
        refine (saveTransactions_returns distinct fun kept member =>
          ⟨(among kept member).1, deep.trans_lt (above kept member)⟩).andThen gapless_closed
            fun _ => .of_pure ?_ fun loaded => ⟨_, ⟨le, ?_⟩, loaded⟩
        · exact loaded_stable
        · refine ⟨Set.subset_union_left, ?_, ?_⟩
          · rintro _ (old | ⟨kept, member, rfl⟩)
            · exact .inl old
            · exact .inr (among kept member).2
          · rintro _ ⟨kept, member, rfl⟩ high low
            exact .inr ⟨kept, all kept member high low, rfl⟩

/-- The pages are stored one below the other, down to the bound. -/
theorem syncPages_returns (distinct : chain.Distinct) {bound : ℕ} (deep : startLt ≤ bound)
    (pages : ℕ) (hash : Bits256) (top : ℕ) :
    (gapless printing rules chain worker.accountID startLt).Returns t
      (Loaded chain worker rounds t S lt) (syncPages worker.accountID bound pages hash top)
      fun _ w => ∃ S', Filled chain.lts S S' bound top ∧ Loaded chain worker rounds t S' lt w := by
  induction pages generalizing hash top S with
  | zero => exact .fail loaded_stable
  | succ pages ih =>
      unfold syncPages
      split
      · rename_i same
        exact .of_pure loaded_stable fun loaded => ⟨S, .none same.le, loaded⟩
      · refine (syncGapIteration_returns supplies distinct hash deep).andThen gapless_closed
          fun next => .of_exists fun S₁ => .of_and fun first => ?_
        obtain ⟨le, filled⟩ := first
        split
        · rename_i low
          exact .of_pure loaded_stable fun loaded => ⟨S₁, filled.mono low, loaded⟩
        · refine (ih next.1 next.2).weaken (fun loaded => loaded) ?_
          rintro _ w ⟨S', later, loaded⟩
          exact ⟨S', filled.trans later le, loaded⟩

omit supplies in
theorem setLastLt_returns (last : ℕ) :
    (gapless printing rules chain worker.accountID startLt).Returns t
      (Loaded chain worker rounds t S lt) (perform (.setLastLt last))
      fun _ => Loaded chain worker rounds t S last := by
  refine Contract.Triple.query loaded_stable
    (fun _ _ _ others holds value same => loaded_stable _ _ others (holds value same))
    (fun _ _ same => nomatch same) ?_
  rintro w answer w' stocked loaded ⟨fault, choice, _, runs⟩ value rfl
  have job := (congrFun (Stmt.runUnder_job runs) t).trans loaded.job
  obtain rfl := loads_setLastLt ⟨fault, choice, trivial, runs⟩
  refine ⟨job, ?_, loaded.held⟩
  obtain ⟨thread, held, _⟩ := Option.map_eq_some_iff.mp loaded.job
  rw [keptLt, World.threads_setThread, held]
  rfl

/-- **A call of `syncHistoryGap` that returns has left nothing out.** -/
theorem syncHistoryGap_returns (distinct : chain.Distinct)
    (depth : worker.info.maxDepthLt = startLt) (hash : Bits256) (top endLt : ℕ) :
    (gapless printing rules chain worker.accountID startLt).Returns t
      (Loaded chain worker rounds t S lt) (syncHistoryGap worker rounds hash top endLt)
      fun _ w => ∃ S' lt', ((lt' = lt ∨ lt' = top) ∧ Filled chain.lts S S' (max endLt startLt) top) ∧
        Loaded chain worker rounds t S' lt' w := by
  unfold syncHistoryGap
  rw [depth]
  refine (syncPages_returns supplies distinct (le_max_right endLt startLt) rounds hash top).andThen
    gapless_closed fun left => .of_exists fun S' => .of_and fun filled => ?_
  split
  · exact (setLastLt_returns top).weaken (fun loaded => loaded) fun loaded =>
      ⟨S', top, ⟨.inr rfl, filled⟩, loaded⟩
  · exact .of_pure loaded_stable fun loaded => ⟨S', lt, ⟨.inl rfl, filled⟩, loaded⟩

/-! ## The gaps at the start -/

omit supplies in
/-- A query for one LT finds one that is stored, or 0. -/
theorem queryLt_looks {op : Stmt} {value : op.Val → ℕ} {fact : ℕ → Prop} (surveys : op.surveys = true)
    (other : ∀ account, op ≠ .getAccountState account) (zero : fact 0)
    (known : ∀ {w found w'}, Stock chain worker.accountID startLt w.db.transactions →
      Loaded chain worker rounds t S lt w → (system printing rules).exec t op w (.ok found) w' →
      fact (value found)) :
    Looks printing rules chain startLt worker rounds t S lt (queryLt op value) fact := by
  have found : Looks printing rules chain startLt worker rounds t S lt (perform op)
      fun found => fact (value found) := looks_perform surveys other known
  refine found.attempt.bind gapless_closed fun answer known => ?_
  split
  · exact .pure loaded_stable (known _ rfl)
  · exact .pure loaded_stable zero
  · exact .ret loaded_stable fun _ same => by cases same

/-- What `GetGaps` has found: each predecessor that is missing, with a transaction that is
stored below it, or the start. -/
structure Surveyed (chain : AccountChain) (startLt : ℕ) (S : Set ℕ) (gaps : List TxGap) (last : ℕ) :
    Prop where
  finds : ∀ newer ∈ chain.txs, ∀ older ∈ chain.txs, newer.prevTxLt = older.lt →
    newer.prevTxHash = older.hash → newer.lt ∈ S → older.lt ∉ S → startLt < older.lt →
    ∃ gap ∈ gaps, gap.startLt = older.lt ∧
      (gap.endLt ≤ startLt ∨ gap.endLt ∈ S ∧ gap.endLt < older.lt)
  high : ∀ gap ∈ gaps, ∃ y ∈ S, gap.startLt ≤ y
  last : last ≤ startLt ∨ ∃ y ∈ S, last ≤ y

omit supplies in
theorem getGaps_looks : Looks printing rules chain startLt worker rounds t S lt
    (getGaps worker.accountID) fun found => Surveyed chain startLt S found.1 found.2 := by
  have starts : Looks printing rules chain startLt worker rounds t S lt
      (perform (.selectGaps worker.accountID)) fun starts =>
        (∀ newer ∈ chain.txs, ∀ older ∈ chain.txs, newer.prevTxLt = older.lt →
          newer.prevTxHash = older.hash → newer.lt ∈ S → older.lt ∉ S → startLt < older.lt →
          (older.lt, older.hash) ∈ starts) ∧ ∀ start ∈ starts, ∃ y ∈ S, start.1 ≤ y := by
    refine looks_perform rfl (fun _ => Stmt.noConfusion) ?_
    rintro w value w' sound loaded ⟨fault, choice, _, runs⟩
    obtain ⟨_, gaps, same, perm⟩ := Stmt.run_selectGaps (Stmt.run_of_ok runs)
    cases same
    rw [← loaded.held]
    refine ⟨fun newer member older member' lt hash stored absent above => ?_, fun start member => ?_⟩
    · exact perm.mem_iff.mpr
        (sound.mem_missing member member' lt hash stored absent (Nat.zero_lt_of_lt above))
    · exact sound.above_missing (perm.mem_iff.mp member)
  have lowers : ∀ start : ℕ × Bits256, Looks printing rules chain startLt worker rounds t S lt
      (do
        let endLt ← queryLt (.selectLtBelow worker.accountID start.1) id
        return (⟨start.1, endLt, start.2⟩ : TxGap)) fun gap =>
        gap.startLt = start.1 ∧ gap.startHash = start.2 ∧
          (gap.endLt = 0 ∨ gap.endLt ∈ S ∧ gap.endLt < start.1) := by
    intro start
    have query : Looks printing rules chain startLt worker rounds t S lt
        (queryLt (.selectLtBelow worker.accountID start.1) id)
        fun endLt => endLt = 0 ∨ endLt ∈ S ∧ endLt < start.1 := by
      refine queryLt_looks rfl (fun _ => Stmt.noConfusion) (.inl rfl) ?_
      rintro w found w' sound loaded ⟨fault, choice, _, runs⟩
      have ran := congrArg Prod.fst (Option.some.inj (Stmt.run_of_ok runs))
      cases highest : highestLt w.db.transactions worker.accountID (some start.1) with
      | none =>
          rw [highest] at ran
          cases ran
      | some endLt =>
          rw [highest] at ran
          cases ran
          obtain ⟨stored, below⟩ := sound.of_highestLt highest
          exact .inr ⟨loaded.held ▸ stored, below _ rfl⟩
    exact query.bind gapless_closed fun endLt known => .pure loaded_stable ⟨rfl, rfl, known⟩
  have last : Looks printing rules chain startLt worker rounds t S lt
      (queryLt (.selectLastLt worker.accountID) id) fun last =>
        last ≤ startLt ∨ ∃ y ∈ S, last ≤ y := by
    refine queryLt_looks rfl (fun _ => Stmt.noConfusion) (.inl (Nat.zero_le startLt)) ?_
    rintro w found w' sound loaded ⟨fault, choice, _, runs⟩
    have ran := congrArg Prod.fst (Option.some.inj (Stmt.run_of_ok runs))
    cases highest : highestLt w.db.transactions worker.accountID none with
    | none =>
        rw [highest] at ran
        cases ran
    | some last =>
        rw [highest] at ran
        cases ran
        exact .inr ⟨_, loaded.held ▸ (sound.of_highestLt highest).1, le_rfl⟩
  refine starts.bind gapless_closed fun starts known => ?_
  refine (Contract.Keeping.mapM gapless_closed loaded_stable lowers starts).bind gapless_closed
    fun gaps related => ?_
  refine last.bind gapless_closed fun last top => .pure loaded_stable ?_
  refine ⟨fun newer member older member' lt hash stored absent above => ?_, fun gap member => ?_, top⟩
  · obtain ⟨gap, among, same, _, low⟩ := exists_right_of_forall₂ related
      (known.1 newer member older member' lt hash stored absent above)
    exact ⟨gap, among, same, low.imp_left fun zero => zero.le.trans (Nat.zero_le startLt)⟩
  · obtain ⟨start, among, same, _, _⟩ := exists_right_of_forall₂ related.flip member
    obtain ⟨y, stored, le⟩ := known.2 start among
    exact ⟨y, stored, same ▸ le⟩

/-- What has been stored when some gaps have been filled. -/
structure Restocked (chain : AccountChain) (startLt : ℕ) (gaps : List TxGap) (S S' : Set ℕ)
    (lt lt' : ℕ) : Prop where
  keeps : S ⊆ S'
  new : ∀ x ∈ S', x ∈ S ∨ ∃ gap ∈ gaps, x ≤ gap.startLt
  last : lt' = lt ∨ ∃ gap ∈ gaps, lt' = gap.startLt
  all : ∀ gap ∈ gaps, ∀ x ∈ chain.lts, max gap.endLt startLt < x → x ≤ gap.startLt → x ∈ S'

/-- The gaps are filled one after the other. -/
theorem fillGaps_returns (distinct : chain.Distinct) (depth : worker.info.maxDepthLt = startLt)
    (gaps : List TxGap) :
    (gapless printing rules chain worker.accountID startLt).Returns t
      (Loaded chain worker rounds t S lt)
      (gaps.forM fun gap => syncHistoryGap worker rounds gap.startHash gap.startLt gap.endLt)
      fun _ w => ∃ S' lt', Restocked chain startLt gaps S S' lt lt' ∧
        Loaded chain worker rounds t S' lt' w := by
  induction gaps generalizing S lt with
  | nil =>
      refine .of_pure loaded_stable fun loaded => ⟨S, lt, ⟨subset_rfl, fun _ => .inl, .inl rfl, ?_⟩, loaded⟩
      exact fun _ member => by cases member
  | cons gap rest ih =>
      refine (syncHistoryGap_returns supplies distinct depth gap.startHash gap.startLt
        gap.endLt).andThen gapless_closed fun _ => .of_exists fun S₁ => .of_exists fun lt₁ =>
          .of_and fun first => ih.weaken (fun loaded => loaded) ?_
      obtain ⟨at', filled⟩ := first
      rintro _ w ⟨S', lt', later, loaded⟩
      refine ⟨S', lt', ⟨filled.keeps.trans later.keeps, fun x member => ?_, ?_, ?_⟩, loaded⟩
      · obtain old | ⟨other, among, le⟩ := later.new x member
        · exact (filled.new x old).imp_right fun le => ⟨gap, List.mem_cons_self, le⟩
        · exact .inr ⟨other, List.mem_cons_of_mem _ among, le⟩
      · obtain rfl | ⟨other, among, same⟩ := later.last
        · exact at'.imp_right fun same => ⟨gap, List.mem_cons_self, same⟩
        · exact .inr ⟨other, List.mem_cons_of_mem _ among, same⟩
      · intro other among x item above le
        obtain rfl | among := List.mem_cons.mp among
        · exact later.keeps (filled.all x item above le)
        · exact later.all other among x item above le

omit [Libraries] [DecidableEq τ] [Fintype τ] supplies in
/-- **When the gaps that `GetGaps` has found are filled there is no hole.** -/
theorem Surveyed.whole {S' : Set ℕ} {gaps : List TxGap} {last lt' : ℕ}
    (surveyed : Surveyed chain startLt S gaps last) (among : S ⊆ chain.lts)
    (restocked : Restocked chain startLt gaps S S' last lt') : Whole chain.lts startLt S' lt' := by
  refine whole_of_gaps chain.stepwise among ?_ restocked.keeps (fun x member => ?_) ?_
  · rintro _ stored _ item ⟨newer, member, older, member', rfl, rfl, lt, hash⟩ absent above
    obtain ⟨gap, among', same, low⟩ :=
      surveyed.finds newer member older member' lt hash stored absent above
    exact ⟨gap.endLt, low, fun x item deep le =>
      restocked.all gap among' x item deep (same ▸ le)⟩
  · obtain old | ⟨gap, among', le⟩ := restocked.new x member
    · exact ⟨x, old, le_rfl⟩
    · obtain ⟨y, stored, high⟩ := surveyed.high gap among'
      exact ⟨y, stored, le.trans high⟩
  · obtain rfl | ⟨gap, among', rfl⟩ := restocked.last
    · exact surveyed.last
    · exact .inr (surveyed.high gap among')

/-! ## The endless loop -/

omit supplies in
theorem updateAccount_looks (last : TxID) (block : ℕ) :
    Looks printing rules chain startLt worker rounds t S lt
      (updateAccount worker.accountID last block) fun _ => True := by
  have clock : Looks printing rules chain startLt worker rounds t S lt (perform .now) fun _ => True :=
    looks_perform rfl (fun _ => Stmt.noConfusion) fun _ _ _ => trivial
  exact clock.bind gapless_closed fun _ _ =>
    looks_perform rfl (fun _ => Stmt.noConfusion) fun _ _ _ => trivial

omit supplies in
theorem getLastLt_looks : Looks printing rules chain startLt worker rounds t S lt
    (perform .getLastLt) fun found => found = lt := by
  refine looks_perform rfl (fun _ => Stmt.noConfusion) ?_
  rintro w found w' _ loaded ⟨fault, choice, _, runs⟩
  obtain ⟨same, _⟩ := loads_getLastLt ⟨fault, choice, trivial, runs⟩
  cases same
  exact loaded.last

omit supplies in
/-- The head of the loop: where nothing is missing the state may be asked for. -/
theorem getAccountState_looks (whole : Whole chain.lts startLt S lt) :
    Looks printing rules chain startLt worker rounds t S lt
      (perform (.getAccountState worker.accountID)) fun _ => True := by
  refine .query loaded_stable (fun {w} _ loaded _ _ => ?_) ?_
  · rw [loaded.held, loaded.last]
    exact whole
  · rintro w answer w' _ loaded ⟨fault, choice, _, runs⟩
    have surveys : (Stmt.getAccountState worker.accountID).surveys = true := rfl
    obtain ⟨transactions, kept⟩ := runUnder_surveys surveys runs
    refine ⟨fun _ _ => trivial, (congrFun (Stmt.runUnder_job runs) t).trans loaded.job,
      kept.trans loaded.last, ?_⟩
    rw [transactions]
    exact loaded.held

/-- What holds at the head of the loop. -/
def AtHead (chain : AccountChain) (startLt : ℕ) (worker : Account) (rounds : ℕ) (t : τ)
    (w : World τ) : Prop :=
  ∃ S lt, Whole chain.lts startLt S lt ∧ Loaded chain worker rounds t S lt w

/-- **A refresh leaves no hole.** -/
theorem refreshAccount_returns (distinct : chain.Distinct)
    (depth : worker.info.maxDepthLt = startLt) :
    (gapless printing rules chain worker.accountID startLt).Returns t
      (AtHead chain startLt worker rounds t) (refreshAccount worker rounds)
      fun _ => AtHead chain startLt worker rounds t := by
  refine .of_exists fun S => .of_exists fun lt => .of_and fun whole => ?_
  have returns : ∀ result : Except Err Unit,
      (gapless printing rules chain worker.accountID startLt).Returns t
        (Loaded chain worker rounds t S lt) (return result : Action (Except Err Unit))
        fun _ => AtHead chain startLt worker rounds t := fun result =>
    .of_pure loaded_stable fun loaded => ⟨S, lt, whole, loaded⟩
  refine (getAccountState_looks whole).attempt.returns gapless_closed fun answer _ => ?_
  obtain error | ⟨last, block⟩ := answer
  · exact returns _
  · refine getLastLt_looks.returns gapless_closed fun lastLt _ => ?_
    split
    · exact returns _
    · refine (updateAccount_looks last block).attempt.returns gapless_closed fun updated _ => ?_
      split
      · exact returns _
      · refine getLastLt_looks.returns gapless_closed fun lastLt same => ?_
        subst same
        refine (syncHistoryGap_returns supplies distinct depth last.hash last.lt lastLt).andThen
          gapless_closed fun _ => .of_exists fun S' => .of_exists fun lt' => .of_and fun filled =>
            .of_pure loaded_stable fun loaded => ⟨S', lt', whole.fill filled.2 filled.1, loaded⟩

theorem refreshLoop_returns (distinct : chain.Distinct) (depth : worker.info.maxDepthLt = startLt)
    (remaining : ℕ) :
    (gapless printing rules chain worker.accountID startLt).Returns t
      (AtHead chain startLt worker rounds t) (refreshLoop worker rounds remaining)
      fun _ _ => True := by
  induction remaining with
  | zero =>
      refine .of_pure ?_ fun _ => trivial
      rintro w w' others ⟨S, lt, whole, loaded⟩
      exact ⟨S, lt, whole, loaded_stable _ _ others loaded⟩
  | succ remaining ih =>
      exact (refreshAccount_returns supplies distinct depth).andThen gapless_closed fun _ => ih

/-- **The loader has no hole whenever it asks for the state of its account.** -/
theorem loaderWorker_returns (distinct : chain.Distinct)
    (depth : worker.info.maxDepthLt = startLt) :
    (gapless printing rules chain worker.accountID startLt).Returns t
      (Loaded chain worker rounds t S lt) (loaderWorker worker rounds) fun _ _ => True := by
  intro w stocked loaded
  have among : S ⊆ chain.lts := loaded.held ▸ held_subset
  revert w
  have fills : ∀ found : List TxGap × ℕ, Surveyed chain startLt S found.1 found.2 →
      (gapless printing rules chain worker.accountID startLt).Returns t
        (Loaded chain worker rounds t S lt) (do
          perform (.setLastLt found.2)
          found.1.forM fun gap => syncHistoryGap worker rounds gap.startHash gap.startLt gap.endLt
          refreshLoop worker rounds rounds) fun _ _ => True := by
    intro found surveyed
    refine (setLastLt_returns found.2).andThen gapless_closed fun _ => ?_
    refine (fillGaps_returns supplies distinct depth found.1).andThen gapless_closed fun _ => ?_
    refine .weaken (refreshLoop_returns supplies distinct depth rounds) ?_ fun _ => trivial
    rintro w ⟨S', lt', restocked, loaded⟩
    exact ⟨S', lt', surveyed.whole among restocked, loaded⟩
  refine getGaps_looks.attempt.returns gapless_closed fun answer known => ?_
  cases answer with
  | ok found => exact fills found (known found rfl)
  | error error => exact getGaps_looks.returns gapless_closed fills

end Loader

/-! ## Every run -/

section Runs

variable [Libraries] {τ : Type} [DecidableEq τ] [Fintype τ] {printing : Printing} {rules : Rules τ}
  {chain : AccountChain} {account : AccountID} {startLt : ℕ}

/-- Jobs that do not load the account have nothing to keep. -/
theorem runJob_gapless (distinct : chain.Distinct) (supplies : Supplies rules chain account startLt)
    {w : World τ} {job : Job} (t : τ) (allowed : rules.spawn w job)
    (stocked : (w.start t job).tracks.Stocked chain account startLt) :
    (gapless printing rules chain account startLt).Safe t (fun _ _ => True) (runJob printing job)
      (w.start t job) := by
  have begun : (w.start t job).job t = some job := by
    rw [World.job, World.threads_start]
    rfl
  by_cases loads : job.stocks account = true
  · obtain ⟨worker, rounds, rfl⟩ : ∃ worker rounds, job = .loaderWorker worker rounds := by
      cases job with
      | loaderWorker worker rounds => exact ⟨worker, rounds, rfl⟩
      | _ => cases loads
    obtain rfl : worker.accountID = account := of_decide_eq_true loads
    have depth := (supplies.single allowed rfl).1
    have loaded : Loaded chain worker rounds t _ _ (w.start t (.loaderWorker worker rounds)) :=
      ⟨begun, rfl, rfl⟩
    exact ((loaderWorker_returns supplies distinct depth _ stocked loaded).weaken
      fun _ _ _ _ => trivial).bind gapless_closed
        (fun _ _ _ _ _ _ _ => trivial) fun _ _ _ _ => trivial
  · have stable : (gapless printing rules chain account startLt).Stable t
        fun w => w.job t = some job := by
      rintro w w' ⟨threads, _⟩ held
      rw [World.job, threads]
      exact held
    refine (Contract.Triple.of_may stable (fun _ held same loading => ?_) ?_ (runJob printing job) _
      stocked begun).weaken fun _ _ _ _ => trivial
    · obtain ⟨other, held', stocks⟩ := World.loading_iff.mp loading
      obtain rfl := Option.some.inj (held.symm.trans held')
      exact absurd stocks loads
    · rintro op w answer w' _ held ⟨fault, choice, _, runs⟩
      exact (congrFun (Stmt.runUnder_job runs) t).trans held

/-- **The loader keeps its contract beside the discipline of all programs.** -/
theorem gapless_sound (distinct : chain.Distinct) (supplies : Supplies rules chain account startLt) :
    (gapless printing rules chain account startLt).SoundBeside (discipline printing rules) where
  toClosed := gapless_closed
  exec := by
    rintro t op w answer w' _ ⟨thread, held, may⟩ stocked _ ⟨fault, choice, allowed, runs⟩
    obtain ⟨stocked', same⟩ := runUnder_stocked distinct supplies stocked held may allowed runs
    refine ⟨stocked', fun u other => ⟨(Stmt.runUnder_kept runs).others other, fun loading => same ?_⟩⟩
    rintro ⟨station, found, works⟩
    obtain ⟨station', found', works'⟩ := loading
    exact other (stocked.single found' found works' works)
  spawn := by
    rintro t w program w' _ stocked ⟨job, allowed, rfl, rfl⟩
    have stocked' : (w.start t job).tracks.Stocked chain account startLt := by
      rw [World.start, World.tracks_update]
      refine stocked.start ?_
      rintro worker rounds rfl own
      obtain ⟨depth, none⟩ := supplies.single allowed own
      refine ⟨depth, fun u station found => ?_⟩
      obtain ⟨thread, held, rfl⟩ := Option.map_eq_some_iff.mp found
      exact none u thread.job (by rw [World.job, held, Option.map_some])
    exact ⟨stocked', fun u other => ⟨World.threads_start_of_ne other, fun _ => rfl⟩,
      runJob_gapless distinct supplies t allowed stocked'⟩
  retire := by
    rintro t result w w' _ stocked _ rfl
    refine ⟨?_, fun u other => ⟨World.threads_leave_of_ne other, fun _ => rfl⟩⟩
    change (w.leave t).tracks.Stocked chain account startLt
    rw [World.leave, World.tracks_update]
    exact stocked.leave
  crash := by
    rintro w w' _ stocked ⟨_, rfl⟩
    exact { stocked with
      stations := fun found => by cases found
      single := fun found => by cases found }

omit [Libraries] in
/-- A transaction of the chain that is stored is stored once. -/
theorem Stock.stored_once {transactions : Table TransactionRow.hash} {tx : Transaction}
    (sound : Stock chain account startLt transactions) (member : tx ∈ chain.txs)
    (stored : tx.lt ∈ chain.held account transactions) :
    ∃ row, (transactions.rows.filter fun row =>
        decide (row.accountID = account) && decide (row.lt = tx.lt)) = [row] ∧
      row.unmarked = tx.row account := by
  obtain ⟨row, among, key, same⟩ := mem_of_stock ((held_iff member).mp stored)
  have owned : row.accountID = account :=
    show row.unmarked.accountID = (tx.row account).accountID from same ▸ rfl
  have nodup : transactions.rows.Nodup := List.Nodup.of_map _ transactions.unique
  refine ⟨row, eq_singleton (nodup.filter _) (List.mem_filter.mpr ⟨among, ?_⟩) ?_, same⟩
  · rw [decide_eq_true owned, decide_eq_true (row.lt_of_unmarked same)]
    rfl
  · intro other hit
    obtain ⟨among', holds⟩ := List.mem_filter.mp hit
    rw [Bool.and_eq_true, decide_eq_true_eq, decide_eq_true_eq] at holds
    obtain ⟨tx', member', _, same'⟩ := sound.rows other among' holds.1
    obtain rfl := AccountChain.eq_of_lt member' member
      ((other.lt_of_unmarked same').symm.trans holds.2)
    have key' : other.hash = tx'.hash :=
      show other.unmarked.hash = (tx'.row account).hash from same' ▸ rfl
    have found := Table.find_of_mem among
    rw [key, ← key', Table.find_of_mem among'] at found
    exact Option.some.inj found

/-- What is stored of an account in a run: transactions of its chain after the start; and, when
its loader asks for the account state, all of them up to what the loader knows. -/
theorem stocked_run {db : Database} (sane : db.Sane) (distinct : chain.Distinct)
    (supplies : Supplies rules chain account startLt)
    (stock : Stock chain account startLt db.transactions) {c : Running τ}
    (run : Runs printing rules db c) :
    Stock chain account startLt c.state.db.transactions ∧
    ∀ t worker rounds next, c.state.job t = some (.loaderWorker worker rounds) →
      worker.accountID = account → c.pool t = some (.call (.getAccountState account) next) →
      Whole chain.lts startLt (chain.held account c.state.db.transactions) (keptLt c.state t) := by
  have sound : ((discipline printing rules).beside
      (gapless printing rules chain account startLt)).Sound :=
    discipline_sound.beside (gapless_sound distinct supplies)
  have init : ((discipline printing rules).beside (gapless printing rules chain account startLt)).inv
      (.idle db) := ⟨.idle fun {_ _} => sane _ _, {
    stock := stock
    stations := fun found => by cases found
    single := fun found => by cases found }⟩
  have kept := sound.reachable (.idle init) run
  refine ⟨kept.inv.2.stock, ?_⟩
  rintro t worker rounds next loads rfl head
  exact (kept.pre sound head).2 rfl (World.loading_iff.mpr ⟨_, loads, decide_eq_true rfl⟩)

omit [Libraries] in
/-- What is known is stored once. -/
theorem Stock.once_of_whole {transactions : Table TransactionRow.hash} {last : ℕ}
    (shelf : Stock chain account startLt transactions)
    (whole : Whole chain.lts startLt (chain.held account transactions) last) {tx : Transaction}
    (member : tx ∈ chain.txs) (above : startLt < tx.lt)
    (known : tx.lt ≤ last ∨
      ∃ row ∈ transactions.rows, row.accountID = account ∧ tx.lt ≤ row.lt) :
    ∃ row, (transactions.rows.filter fun row =>
        decide (row.accountID = account) && decide (row.lt = tx.lt)) = [row] ∧
      row.unmarked = tx.row account := by
  refine shelf.stored_once member (whole tx.lt ⟨tx, member, rfl⟩ above (known.imp_right ?_))
  rintro ⟨row, among, owned, le⟩
  obtain ⟨other, _, _, same, held⟩ := shelf.of_row among owned
  exact ⟨other.lt, held, row.lt_of_unmarked same ▸ le⟩

/-- **The loader leaves no hole.** In every state of every run the rows of an account are
transactions of its chain after the start. Whenever its loader is at the head of its endless
loop, every transaction of the chain after the start is stored, once, that is not after
`w.lastLt` or not after some transaction that is stored. -/
theorem loader_leaves_no_hole {db : Database} (sane : db.Sane) (distinct : chain.Distinct)
    (supplies : Supplies rules chain account startLt)
    (stock : Stock chain account startLt db.transactions) {c : Running τ}
    (run : Runs printing rules db c) :
    (∀ row ∈ c.state.db.transactions.rows, row.accountID = account →
      ∃ tx ∈ chain.txs, startLt < tx.lt ∧ row.unmarked = tx.row account) ∧
    ∀ t worker rounds next, c.state.job t = some (.loaderWorker worker rounds) →
      worker.accountID = account → c.pool t = some (.call (.getAccountState account) next) →
      ∀ tx ∈ chain.txs, startLt < tx.lt →
        (tx.lt ≤ keptLt c.state t ∨
          ∃ row ∈ c.state.db.transactions.rows, row.accountID = account ∧ tx.lt ≤ row.lt) →
        ∃ row, (c.state.db.transactions.rows.filter fun row =>
            decide (row.accountID = account) && decide (row.lt = tx.lt)) = [row] ∧
          row.unmarked = tx.row account := by
  obtain ⟨shelf, whole⟩ := stocked_run sane distinct supplies stock run
  refine ⟨shelf.rows, fun t worker rounds next loads own head tx member above known => ?_⟩
  exact shelf.once_of_whole (whole t worker rounds next loads own head) member above known

/-- How often a transaction is stored for an account. -/
def timesStored (transactions : Table TransactionRow.hash) (account : AccountID) (lt : ℕ) : ℕ :=
  transactions.rows.countP fun row => decide (row.accountID = account) && decide (row.lt = lt)

/-- **At the head of the refresh loop nothing is missing.** Nothing is ever stored of an account
up to its start. However often its loader was killed and started again, whenever it is about to
refresh the account, each transaction of the chain after the start is stored exactly once up to
`w.lastLt`, and up to the newest stored transaction. -/
theorem refresh_head_whole {db : Database} (sane : db.Sane) (distinct : chain.Distinct)
    (supplies : Supplies rules chain account startLt)
    (stock : Stock chain account startLt db.transactions) {c : Running τ}
    (run : Runs printing rules db c) :
    (∀ row ∈ c.state.db.transactions.rows, row.accountID = account → startLt < row.lt) ∧
    ∀ t worker rounds next, c.state.job t = some (.loaderWorker worker rounds) →
      worker.accountID = account → c.pool t = some (.call (.getAccountState account) next) →
      (∀ tx ∈ chain.txs, startLt < tx.lt → tx.lt ≤ keptLt c.state t →
        timesStored c.state.db.transactions account tx.lt = 1) ∧
      ∀ newest ∈ c.state.db.transactions.rows, newest.accountID = account →
        ∀ tx ∈ chain.txs, startLt < tx.lt → tx.lt ≤ newest.lt →
          timesStored c.state.db.transactions account tx.lt = 1 := by
  obtain ⟨shelf, whole⟩ := stocked_run sane distinct supplies stock run
  have once : ∀ {t worker rounds next}, c.state.job t = some (.loaderWorker worker rounds) →
      worker.accountID = account → c.pool t = some (.call (.getAccountState account) next) →
      ∀ tx ∈ chain.txs, startLt < tx.lt → (tx.lt ≤ keptLt c.state t ∨
        ∃ row ∈ c.state.db.transactions.rows, row.accountID = account ∧ tx.lt ≤ row.lt) →
      timesStored c.state.db.transactions account tx.lt = 1 := by
    intro t worker rounds next loads own head tx member above known
    obtain ⟨row, single, _⟩ :=
      shelf.once_of_whole (whole t worker rounds next loads own head) member above known
    rw [timesStored, List.countP_eq_length_filter, single]
    rfl
  constructor
  · intro row among owned
    obtain ⟨tx, _, above, same⟩ := shelf.rows row among owned
    exact above.trans_eq (row.lt_of_unmarked same).symm
  · intro t worker rounds next loads own head
    exact ⟨fun tx member above le => once loads own head tx member above (.inl le),
      fun newest among owned tx member above le =>
        once loads own head tx member above (.inr ⟨newest, among, owned, le⟩)⟩

end Runs

/-! ## A hole is filled -/

namespace Shop

attribute [local instance] Texts.libraries

/-- The merchant is loaded by one thread at a time, and the lite server has its three
transactions. -/
def stocked : Checks Bool where
  spawn w job :=
    match job with
    | .loaderWorker worker _ => decide (worker.accountID = merchant → worker.info.maxDepthLt = 10 ∧
        ∀ t, (w.job t).all (fun job => !job.stocks merchant) = true)
    | _ => true
  exec _ _ op _ choice :=
    match op, choice.page with
    | .getTransactions account lt _, .ok page =>
        if account = merchant then
          page.all isSold &&
            decide (page.map Transaction.lt <+: (threeTransactions.since lt).map Transaction.lt)
        else page.all fun tx => threeTransactions.txs.all fun own => decide (tx.hash ≠ own.hash)
    | _, _ => true
  crash _ := true

theorem stocked_supplies : Supplies stocked.rules threeTransactions merchant 10 where
  single {w worker rounds} allowed own := by
    simp only [Checks.rules, stocked, decide_eq_true_eq] at allowed
    obtain ⟨depth, free⟩ := allowed own
    refine ⟨depth, fun t job held => ?_⟩
    have none := free t
    rw [held, Option.all_some, Bool.not_eq_true'] at none
    exact none
  pages {w t lt hash fault choice page} allowed answer := by
    simp only [Checks.rules, stocked, answer, if_true, Bool.and_eq_true, decide_eq_true_eq,
      List.all_eq_true] at allowed
    obtain ⟨sold, front⟩ := allowed
    exact prefix_of_map front fun x member y member' same =>
      AccountChain.eq_of_lt (isSold_mem (sold x member)) (AccountChain.since_le member').1 same
  others {w t other lt hash fault choice page} apart allowed answer := by
    simp only [Checks.rules, stocked, answer, if_neg apart, List.all_eq_true,
      decide_eq_true_eq] at allowed
    exact allowed

theorem threeTransactions_distinct : threeTransactions.Distinct := by
  intro tx member other member' same
  simp only [threeTransactions, List.mem_cons, List.not_mem_nil, or_false] at member member'
  obtain rfl | rfl | rfl := member <;> obtain rfl | rfl | rfl := member' <;>
    first | rfl | exact absurd same (by decide)

theorem indexed_stock : Stock threeTransactions merchant 10 indexed.transactions where
  rows _ member := by cases member
  own _ member := by cases member

/-- The loader is stopped after the newest transaction. -/
def stopped : List (Act Bool) :=
  [.spawn true (.loaderWorker depthTen 1)] ++
    List.replicate 10 (.exec true .none (asked threeTransactions.txs [])) ++ [.crash]

/-- It fills the gap and comes to its loop. -/
def refills : List (Act Bool) :=
  [.spawn true (.loaderWorker depthTen 1)] ++
    List.replicate 7 (.exec true .none (asked threeTransactions.txs.tail [(20, 2)]))

/-- The thread is about to ask for the state of the merchant. -/
def asks (c : Running Bool) : Bool :=
  match c.pool true with
  | some (.call (.getAccountState account) _) => decide (account = merchant)
  | _ => false

theorem asks_head {c : Running Bool} (head : asks c = true) :
    ∃ next, c.pool true = some (.call (.getAccountState merchant) next) := by
  unfold asks at head
  split at head
  · rename_i account next held
    obtain rfl := of_decide_eq_true head
    exact ⟨next, held⟩
  · cases head

/-- **The hole behind the newest transaction is filled before the next refresh.** `w.lastLt`
has been set back to the start of the gap. -/
theorem hole_filled : ∃ c c' : Running Bool, Runs printing stocked.rules indexed c ∧
    (system printing stocked.rules).Reachable c c' ∧
    c.state.db.transactions.rows.map TransactionRow.lt = [30] ∧
    c'.state.db.transactions.rows.map TransactionRow.lt = [30, 20] ∧ keptLt c'.state true = 20 ∧
    ∃ row, (c'.state.db.transactions.rows.filter fun row =>
        decide (row.accountID = merchant) && decide (row.lt = 20)) = [row] ∧
      row.unmarked = (linked 2 1 20 10).row merchant := by
  obtain ⟨c, c', run, leads, before, after, kept, loads, head⟩ :=
    Checks.observed printing stocked (.idle (.idle indexed)) stopped refills
      (fun c c' => c.state.db.transactions.rows.map TransactionRow.lt = [30] ∧
        c'.state.db.transactions.rows.map TransactionRow.lt = [30, 20] ∧
        keptLt c'.state true = 20 ∧
        c'.state.job true = some (.loaderWorker depthTen 1) ∧ asks c' = true)
      (by decide +kernel)
  obtain ⟨next, head⟩ := asks_head head
  have sane : indexed.Sane := database_sane
  have whole := (loader_leaves_no_hole sane threeTransactions_distinct stocked_supplies indexed_stock
    (run.trans leads)).2 true depthTen 1 next loads rfl head (linked 2 1 20 10)
      (List.mem_cons_of_mem _ List.mem_cons_self) (by decide) (.inl (by rw [kept]; decide))
  exact ⟨c, c', run, leads, before, after, kept, whole⟩

/-- A loader that was killed behind the newest transaction is whole at the head of its loop. -/
theorem hole_closed : ∃ c : Running Bool, Runs printing stocked.rules indexed c ∧
    keptLt c.state true = 20 ∧
    timesStored c.state.db.transactions merchant 20 = 1 ∧
    timesStored c.state.db.transactions merchant 30 = 1 := by
  obtain ⟨c, c', run, leads, kept, ⟨newest, among, owned, last⟩, loads, head⟩ :=
    Checks.observed printing stocked (.idle (.idle indexed)) stopped refills
      (fun _ c' => keptLt c'.state true = 20 ∧
        (∃ row ∈ c'.state.db.transactions.rows, row.accountID = merchant ∧ row.lt = 30) ∧
        c'.state.job true = some (.loaderWorker depthTen 1) ∧ asks c' = true)
      (by decide +kernel)
  obtain ⟨next, head⟩ := asks_head head
  have sane : indexed.Sane := database_sane
  have whole := (refresh_head_whole sane threeTransactions_distinct stocked_supplies indexed_stock
    (run.trans leads)).2 true depthTen 1 next loads rfl head
  refine ⟨c', run.trans leads, kept, ?_, ?_⟩
  · exact whole.1 (linked 2 1 20 10) (List.mem_cons_of_mem _ List.mem_cons_self) (by decide)
      (by rw [kept]; decide)
  · exact whole.2 newest among owned (linked 3 2 30 20) List.mem_cons_self (by decide)
      (by rw [last]; decide)

end Shop

end SpiceHarvester
