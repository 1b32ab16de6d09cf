import SpiceHarvester.Interleaving.Log
import SpiceHarvester.Ledger.Rising
import SpiceHarvester.Schedule

/-!
# The order of what is sent

The notifier reads an invoice for each row of a batch, one after the other, sends what it
has read later, and gives the rest of a batch up when something fails. It is the only
one, and reads in the order in which it sends: what it has sent and what it still holds
is one sequence of reads. Since the version of an invoice never goes down, later reads
have newer versions (`sends_in_order`).
-/

set_option autoImplicit false

namespace SpiceHarvester

open Interleaving Sql

/-- The snapshots that have been handed to `Send`, whether they were delivered or not. -/
def sent (log : List (Called Stmt Stmt.Val Err)) : List Snapshot :=
  log.filterMap fun called =>
    match called.op with
    | .send invoice _ => some ⟨invoice.id, invoice.status, invoice.version⟩
    | _ => none

/-- A snapshot may come after another: of the same invoice it is not an older one. -/
def Snapshot.Before (first later : Snapshot) : Prop :=
  first.id = later.id → first.version ≤ later.version

section Runs

variable [Libraries] {τ : Type}

/-- The main program starts the notifier once: no other one runs. -/
def Rules.oneNotifier (rules : Rules τ) : Rules τ :=
  { rules with
    spawn := fun w job => rules.spawn w job ∧ (job.isNotifier = true →
      ∀ t thread, w.threads t = some thread → thread.job.isNotifier = false) }

/-- The snapshot is of the invoice as it is or was. -/
def World.Past (w : World τ) (snapshot : Snapshot) : Prop :=
  ∃ row, w.db.invoices.find snapshot.id = some row ∧ snapshot.version ≤ row.version

variable [DecidableEq τ]

/-! ## What a notifier holds -/

/-- The thread holds less than before, or one invoice more, which it has just read. -/
def World.Holds (w : World τ) (t : τ) (before : Thread) : Prop :=
  ∃ thread, w.threads t = some thread ∧ thread.job = before.job ∧
    (thread.held.Sublist before.held ∨ before.job.isNotifier = true ∧
      ∃ row, w.db.invoices.find row.id = some row ∧ thread.held = before.held ++ [row.snapshot])

theorem World.Holds.setThread {w w' : World τ} {t : τ} {thread : Thread} {f : Thread → Thread}
    (held : w.threads t = some thread) (threads : w'.threads = (w.setThread t f).threads)
    (job : (f thread).job = thread.job) (sublist : (f thread).held.Sublist thread.held) :
    w'.Holds t thread := by
  refine ⟨f thread, ?_, job, .inl sublist⟩
  rw [threads, World.threads_setThread, held, Option.map_some]

omit [DecidableEq τ] in
theorem World.Holds.of_threads {w w' : World τ} {t : τ} {thread : Thread}
    (held : w.threads t = some thread) (threads : w'.threads = w.threads) : w'.Holds t thread :=
  ⟨thread, by rw [threads, held], rfl, .inl (List.Sublist.refl _)⟩

variable [Fintype τ]

/-- **What one statement does to what its thread holds.** -/
theorem Stmt.run_holds {choice : Choice} {t : τ} {op : Stmt} {w w' : World τ} {thread : Thread}
    {answer : Except Err op.Val} (held : w.threads t = some thread)
    (runs : op.run choice t w = some (answer, w')) : w'.Holds t thread := by
  have own : ∀ {f : Thread → Thread} {w' : World τ}, w'.threads = (w.setThread t f).threads →
      (f thread).job = thread.job → (f thread).held = thread.held → w'.Holds t thread :=
    fun threads job same => .setThread held threads job (same ▸ List.Sublist.refl _)
  cases op with
  | insertInvoice row =>
      obtain ⟨_, _, _, _, _, rfl⟩ | ⟨_, rfl⟩ := run_insertInvoice runs
      · exact own rfl rfl rfl
      · exact .of_threads held rfl
  | insertNotification row =>
      obtain ⟨_, _, _, rfl⟩ | ⟨_, _, rfl⟩ := run_insertNotification runs
      · exact own rfl rfl rfl
      · exact .of_threads held rfl
  | cancelInvoice time id =>
      obtain ⟨_, _, rfl⟩ := run_cancelInvoice runs
      exact own rfl rfl rfl
  | markExpired time =>
      obtain ⟨_, _, rfl⟩ := run_markExpired runs
      exact own rfl rfl rfl
  | commit =>
      obtain ⟨tx, _, _, rfl⟩ := run_commit runs
      exact own rfl rfl rfl
  | selectForPayment currency payment time =>
      obtain ⟨tx, _, _, rfl⟩ := run_selectForPayment runs
      exact own rfl rfl rfl
  | acceptKey address =>
      obtain ⟨tx, _, _, _, rfl⟩ := run_acceptKey runs
      exact own rfl rfl rfl
  | setOverpayment overpayment time id =>
      obtain ⟨tx, _, _, _, rfl⟩ := run_setOverpayment runs
      exact own rfl rfl rfl
  | setPaid time paidBy overpayment txHash id =>
      obtain ⟨tx, _, _, _, rfl⟩ := run_setPaid runs
      exact own rfl rfl rfl
  | setProcessingError error account lt =>
      obtain ⟨tx, _, _, rfl⟩ := run_setProcessingError runs
      exact own rfl rfl rfl
  | setLastProcessed lt account =>
      obtain ⟨tx, _, _, _, rfl⟩ := run_setLastProcessed runs
      exact own rfl rfl rfl
  | selectNotifications limit =>
      obtain ⟨_, _, _, _, rfl⟩ := run_selectNotifications runs
      exact .setThread held rfl rfl (List.nil_sublist _)
  | send invoice printable =>
      simp only [run] at runs
      split at runs <;> cases runs
      · exact .of_threads held rfl
      · exact .setThread held rfl rfl (List.nil_sublist _)
  | deleteNotification id =>
      cases runs
      exact .setThread held rfl rfl (List.tail_sublist _)
  | skip invoice =>
      cases runs
      exact .setThread held rfl rfl (List.tail_sublist _)
  | selectInvoice id =>
      cases runs
      have threads : (w.setThread t (Thread.read (w.db.invoices.find id))).threads t =
          some (thread.read (w.db.invoices.find id)) := by
        rw [World.threads_setThread, held, Option.map_some]
      refine ⟨_, threads, rfl, ?_⟩
      unfold Thread.read
      cases notifier : thread.job.isNotifier with
      | false => exact .inl (by simp)
      | true =>
          cases found : w.db.invoices.find id with
          | none => exact .inl (by simp)
          | some row =>
              refine .inr ⟨rfl, row, ?_, by simp⟩
              rw [Table.key_of_find found]
              exact found
  | deleteExpiredKeys before =>
      obtain ⟨_, rfl⟩ := run_deleteExpiredKeys runs
      exact .of_threads held rfl
  | updateAccount last block time account =>
      obtain ⟨_, _, rfl⟩ := run_updateAccount runs
      exact .of_threads held rfl
  | insertKey address key time =>
      cases runs
      split <;> exact .of_threads held rfl
  | insertTransaction row =>
      cases runs
      split <;> exact .of_threads held rfl
  | selectGaps account =>
      obtain ⟨rfl, _⟩ := run_selectGaps runs
      exact .of_threads held rfl
  | begin call => cases runs; exact own rfl rfl rfl
  | rollback => cases runs; exact own rfl rfl rfl
  | selectLastProcessed account => cases runs; exact own rfl rfl rfl
  | selectTransactionByParent account lt => cases runs; exact own rfl rfl rfl
  | getTransactions account lt hash => cases runs; exact own rfl rfl rfl
  | setLastLt lt => cases runs; exact own rfl rfl rfl
  | now => cases runs; exact .of_threads held rfl
  | selectCurrencyID type info => cases runs; exact .of_threads held rfl
  | selectCurrency id => cases runs; exact .of_threads held rfl
  | selectKey address => cases runs; exact .of_threads held rfl
  | selectLtBelow account lt => cases runs; exact .of_threads held rfl
  | selectLastLt account => cases runs; exact .of_threads held rfl
  | getAccountState account => cases runs; exact .of_threads held rfl
  | getLastLt => cases runs; exact .of_threads held rfl

/-- A fault leaves what the thread holds. -/
theorem Stmt.runUnder_holds {fault : Fault} {choice : Choice} {t : τ} {op : Stmt} {w w' : World τ}
    {thread : Thread} {answer : Except Err op.Val} (held : w.threads t = some thread)
    (runs : op.runUnder fault choice t w = some (answer, w')) : w'.Holds t thread := by
  rcases runUnder_cases runs with ⟨_, ran⟩ | ⟨_, _, _, rfl⟩ | ⟨_, _, _, _, w₀, ran, rfl⟩
  · exact run_holds held ran
  · exact .setThread held rfl rfl (List.Sublist.refl _)
  · obtain ⟨thread₀, held₀, job, holds⟩ := run_holds held ran
    exact ⟨thread₀.fail, by rw [World.threads_setThread, held₀]; rfl, job, holds⟩

/-! ## The order -/

/-- What has been sent and what a notifier still holds is in the order of the versions. -/
structure InOrder (snapshots : List Snapshot) (w : World τ) : Prop where
  rising : w.books.rows.Rising InvoiceRow.version
  past : ∀ snapshot ∈ snapshots, w.Past snapshot
  ordered : snapshots.Pairwise Snapshot.Before
  single : ∀ {t u thread thread'}, w.threads t = some thread → w.threads u = some thread' →
    thread.job.isNotifier = true → thread'.job.isNotifier = true → t = u
  quiet : ∀ {t thread}, w.threads t = some thread → thread.job.isNotifier = false → thread.held = []
  heldPast : ∀ {t thread}, w.threads t = some thread → ∀ snapshot ∈ thread.held, w.Past snapshot
  heldOrdered : ∀ {t thread}, w.threads t = some thread →
    (snapshots ++ thread.held).Pairwise Snapshot.Before

namespace InOrder

variable {snapshots : List Snapshot} {w w' : World τ} {t : τ}

omit [DecidableEq τ] [Fintype τ] in
theorem past_of_rises (rises : w.books.rows.Rises InvoiceRow.version w'.books.rows)
    {snapshot : Snapshot} (past : w.Past snapshot) : w'.Past snapshot := by
  obtain ⟨row, found, le⟩ := past
  obtain ⟨row', found', le'⟩ := rises _ row found
  exact ⟨row', found', le.trans le'⟩

omit [DecidableEq τ] [Fintype τ] in
/-- The snapshot of a stored invoice comes after whatever is past. -/
theorem before_of_past {row : InvoiceRow} (found : w.db.invoices.find row.id = some row)
    {snapshot : Snapshot} (past : w.Past snapshot) : snapshot.Before row.snapshot := by
  intro same
  obtain ⟨row', found', le⟩ := past
  have id : snapshot.id = row.id := same
  rw [id, found, Option.some.injEq] at found'
  exact found' ▸ le

omit [DecidableEq τ] [Fintype τ] in
theorem idle (db : Database) : InOrder [] (.idle db : World τ) where
  rising := .idle _
  past := fun _ member => by cases member
  ordered := .nil
  single := fun held => by cases held
  quiet := fun held => by cases held
  heldPast := fun held => by cases held
  heldOrdered := fun held => by cases held

omit [DecidableEq τ] [Fintype τ] in
/-- Threads start, with nothing held, or end. -/
theorem threads (ordered : InOrder snapshots w)
    (rising : w'.books.rows.Rising InvoiceRow.version) (db : w'.db = w.db)
    (old : ∀ {u thread}, w'.threads u = some thread → w.threads u = some thread ∨
      u = t ∧ thread.held = [] ∧ (thread.job.isNotifier = true →
        ∀ v other, w.threads v = some other → other.job.isNotifier = false)) :
    InOrder snapshots w' where
  rising := rising
  past := fun snapshot member => by
    unfold World.Past
    rw [db]
    exact ordered.past snapshot member
  ordered := ordered.ordered
  single := by
    intro u v thread thread' held held' notifier notifier'
    rcases old held with before | ⟨rfl, _, alone⟩
    · rcases old held' with before' | ⟨rfl, _, alone⟩
      · exact ordered.single before before' notifier notifier'
      · rw [alone notifier' u thread before] at notifier
        cases notifier
    · rcases old held' with before' | ⟨rfl, _, _⟩
      · rw [alone notifier v thread' before'] at notifier'
        cases notifier'
      · rfl
  quiet := by
    intro u thread held quiet
    rcases old held with before | ⟨_, empty, _⟩
    · exact ordered.quiet before quiet
    · exact empty
  heldPast := by
    intro u thread held snapshot member
    unfold World.Past
    rw [db]
    rcases old held with before | ⟨_, empty, _⟩
    · exact ordered.heldPast before snapshot member
    · rw [empty] at member
      cases member
  heldOrdered := by
    intro u thread held
    rcases old held with before | ⟨_, empty, _⟩
    · exact ordered.heldOrdered before
    · rw [empty, List.append_nil]
      exact ordered.ordered

omit [DecidableEq τ] [Fintype τ] in
/-- What the notifier sends is the first invoice that it holds. -/
theorem send (ordered : InOrder snapshots w) {thread : Thread} {first : Snapshot}
    {rest : List Snapshot} (held : w.threads t = some thread) (holds : thread.held = first :: rest) :
    InOrder (snapshots ++ [first]) w := by
  have whole := ordered.heldOrdered held
  rw [holds] at whole
  have notifier : thread.job.isNotifier = true := by
    by_contra quiet
    rw [ordered.quiet held (by simpa using quiet)] at holds
    cases holds
  have again : (snapshots ++ [first] ++ first :: rest).Pairwise Snapshot.Before := by
    rw [List.append_assoc, List.singleton_append]
    rw [List.pairwise_append] at whole ⊢
    obtain ⟨before, after, between⟩ := whole
    refine ⟨before, List.pairwise_cons.mpr ⟨fun later member => ?_, after⟩, fun earlier member later
      member' => ?_⟩
    · rcases List.mem_cons.mp member with rfl | member
      · exact fun _ => le_refl _
      · exact (List.pairwise_cons.mp after).1 later member
    · rcases List.mem_cons.mp member' with rfl | member'
      · exact between earlier member _ List.mem_cons_self
      · exact between earlier member later member'
  have sentOrdered : (snapshots ++ [first]).Pairwise Snapshot.Before :=
    again.sublist (List.sublist_append_left _ _)
  exact {
    rising := ordered.rising
    past := by
      intro snapshot member
      rcases List.mem_append.mp member with member | member
      · exact ordered.past snapshot member
      · rw [List.mem_singleton.mp member]
        exact ordered.heldPast held first (holds ▸ List.mem_cons_self)
    ordered := sentOrdered
    single := ordered.single
    quiet := ordered.quiet
    heldPast := ordered.heldPast
    heldOrdered := by
      intro u thread' held'
      by_cases same : u = t
      · subst same
        rw [held, Option.some.injEq] at held'
        rw [← held', holds]
        exact again
      · have idle : thread'.job.isNotifier = false := by
          by_contra notifier'
          exact same (ordered.single held' held (by simpa using notifier') notifier)
        rw [ordered.quiet held' idle, List.append_nil]
        exact sentOrdered }

omit [DecidableEq τ] [Fintype τ] in
/-- A statement of a thread. -/
theorem exec (ordered : InOrder snapshots w) {thread : Thread} (held : w.threads t = some thread)
    (rising : w'.books.rows.Rising InvoiceRow.version)
    (rises : w.books.rows.Rises InvoiceRow.version w'.books.rows)
    (others : ∀ {u}, u ≠ t → w'.threads u = w.threads u) (holds : w'.Holds t thread) :
    InOrder snapshots w' := by
  obtain ⟨thread', held', job, holds⟩ := holds
  -- A thread of the later state was there before, with the same job.
  have before : ∀ {u other}, w'.threads u = some other →
      ∃ other', w.threads u = some other' ∧ other.job = other'.job ∧
        (u = t ∧ other = thread' ∧ other' = thread ∨ other = other') := by
    intro u other found
    by_cases same : u = t
    · subst same
      rw [held', Option.some.injEq] at found
      exact ⟨thread, held, found ▸ job, .inl ⟨rfl, found.symm, rfl⟩⟩
    · rw [others same] at found
      exact ⟨other, found, rfl, .inr rfl⟩
  have past : ∀ snapshot ∈ snapshots, w'.Past snapshot := fun snapshot member =>
    past_of_rises rises (ordered.past snapshot member)
  have heldPast : ∀ snapshot ∈ thread.held, w'.Past snapshot := fun snapshot member =>
    past_of_rises rises (ordered.heldPast held snapshot member)
  exact {
    rising := rising
    past := past
    ordered := ordered.ordered
    single := by
      intro u v other other' found found' notifier notifier'
      obtain ⟨_, was, same, _⟩ := before found
      obtain ⟨_, was', same', _⟩ := before found'
      rw [same] at notifier
      rw [same'] at notifier'
      exact ordered.single was was' notifier notifier'
    quiet := by
      intro u other found quiet
      obtain ⟨other', was, same, ⟨rfl, rfl, rfl⟩ | rfl⟩ := before found
      · rw [job] at quiet
        rcases holds with less | ⟨notifier, _⟩
        · rw [ordered.quiet held quiet] at less
          exact List.sublist_nil.mp less
        · rw [notifier] at quiet
          cases quiet
      · exact ordered.quiet was quiet
    heldPast := by
      intro u other found snapshot member
      obtain ⟨other', was, same, ⟨rfl, rfl, rfl⟩ | rfl⟩ := before found
      · rcases holds with less | ⟨_, row, stored, more⟩
        · exact heldPast snapshot (less.subset member)
        · rw [more] at member
          rcases List.mem_append.mp member with member | member
          · exact heldPast snapshot member
          · rw [List.mem_singleton.mp member]
            exact ⟨row, stored, le_refl _⟩
      · exact past_of_rises rises (ordered.heldPast was snapshot member)
    heldOrdered := by
      intro u other found
      obtain ⟨other', was, same, ⟨rfl, rfl, rfl⟩ | rfl⟩ := before found
      · rcases holds with less | ⟨_, row, stored, more⟩
        · exact (ordered.heldOrdered held).sublist (less.append_left snapshots)
        · rw [more, ← List.append_assoc, List.pairwise_append]
          refine ⟨ordered.heldOrdered held, List.pairwise_singleton _ _, fun earlier member later
            last => ?_⟩
          rw [List.mem_singleton.mp last]
          apply before_of_past stored
          rcases List.mem_append.mp member with member | member
          · exact past earlier member
          · exact heldPast earlier member
      · exact ordered.heldOrdered was }

section Threads

variable (rules : Rules τ) {thread : Thread}

theorem spawn (ordered : InOrder snapshots w) (sane : w.Sane) {job : Job}
    (allowed : rules.oneNotifier.spawn w job) : InOrder snapshots (w.start t job) := by
  obtain ⟨may, alone⟩ := allowed
  have move : Moves rules w (w.start t job) := .spawn may
  refine ordered.threads (t := t) (move.rising sane ordered.rising).1 rfl fun {u thread} held => ?_
  by_cases same : u = t
  · subst same
    rw [World.threads_start, Option.some.injEq] at held
    subst held
    exact .inr ⟨rfl, rfl, alone⟩
  · rw [World.threads_start_of_ne same] at held
    exact .inl held

include rules in
theorem retire (ordered : InOrder snapshots w) (sane : w.Sane)
    {result : Except Err (Option Invoice)} (held : w.threads t = some thread)
    (ended : thread.Ended w result) : InOrder snapshots (w.leave t) := by
  have move : Moves rules w (w.leave t) := .retire held ended
  refine ordered.threads (t := t) (move.rising sane ordered.rising).1 rfl fun {u other} left => ?_
  by_cases same : u = t
  · subst same
    rw [World.threads_leave] at left
    cases left
  · rw [World.threads_leave_of_ne same] at left
    exact .inl left

theorem crash (ordered : InOrder snapshots w) (sane : w.Sane) (allowed : rules.crash w) :
    InOrder snapshots w.restart := by
  have move : Moves rules w w.restart := .crash allowed
  exact {
    rising := (move.rising sane ordered.rising).1
    past := ordered.past
    ordered := ordered.ordered
    single := fun left => by cases left
    quiet := fun left => by cases left
    heldPast := fun left => by cases left
    heldOrdered := fun left => by cases left }

/-- **One statement, and what it sends.** -/
theorem step (ordered : InOrder snapshots w) (sane : w.Sane) {op : Stmt} {fault : Fault}
    {choice : Choice} {answer : Except Err op.Val} (allowed : rules.exec w t op fault choice)
    (held : w.threads t = some thread)
    (may : thread.may w.db.currencies w.history.delivered op)
    (runs : op.runUnder fault choice t w = some (answer, w')) :
    InOrder (snapshots ++ sent [⟨op, answer⟩]) w' := by
  have move : Moves rules w w' := .exec allowed held may runs
  obtain ⟨rising, rises⟩ := move.rising sane ordered.rising
  have others : ∀ {u}, u ≠ t → w'.threads u = w.threads u := (Stmt.runUnder_kept runs).others
  have holds : w'.Holds t thread := Stmt.runUnder_holds held runs
  cases op with
  | send invoice printable =>
      obtain ⟨rest, first⟩ := may
      exact (ordered.send held first).exec held rising rises others holds
  | _ =>
      have after := ordered.exec held rising rises others holds
      simpa only [sent, List.filterMap_cons, List.filterMap_nil, List.append_nil] using after

end Threads

end InOrder

variable {printing : Printing} {rules : Rules τ}

/-- **Sends follow the history of the invoice.** In every run with one notifier, with
any faults and stops, no send of an older version of an invoice comes after a send of
a newer one. -/
theorem sends_in_order {db : Database} (sane : db.Sane) {log : List (Called Stmt Stmt.Val Err)}
    {c : Running τ} (run : Logged (system printing rules.oneNotifier) (.idle (.idle db)) log c) :
    (sent log).Pairwise Snapshot.Before := by
  have ordered : InOrder (sent log) c.state := by
    refine discipline_sound.logged (J := fun log w => InOrder (sent log) w)
      (.idle (.idle fun {_ _} => sane _ _)) (.idle db) ?_ ?_ ?_ ?_ run
    · rintro log t w program w' sane ⟨job, allowed, _, rfl⟩ ordered
      exact ordered.spawn rules sane allowed
    · rintro log t op w answer w' sane ⟨thread, held, may⟩ ⟨fault, choice, allowed, runs⟩ ordered
      rw [sent, List.filterMap_append]
      exact ordered.step rules sane allowed held may runs
    · rintro log t result w w' sane ⟨thread, held, ended⟩ rfl ordered
      exact ordered.retire rules sane held ended
    · rintro log w w' sane ⟨allowed, rfl⟩ ordered
      exact ordered.crash rules sane allowed
  exact ordered.ordered

end Runs

/-! ## A failing server -/

namespace Shop

attribute [local instance] Texts.libraries

/-- Everything starts, as long as there is one notifier, and everything may fail. -/
def notified : Checks Bool where
  spawn w job := !job.isNotifier ||
    decide (∀ t, (w.threads t).all fun thread => !thread.job.isNotifier)
  exec _ _ _ _ _ := true
  crash _ := true

/-- The shop, with the outbox row of its invoice. -/
def announced : Database := { database with notifications := [⟨invoice, 0⟩] }

theorem announced_sane : announced.Sane := database_sane

/-- A batch of the outbox. -/
def batch (entries : List Notification) : Act Bool := .exec true .none { at' 0 with batch := entries }

/-- A `Send` that fails. -/
def failing : Act Bool := .exec true .none { at' 0 with delivered := false }

/-- The first `Send` fails, the invoice is cancelled, and the next batch has both
of its rows. -/
def twoBatches : List (Act Bool) :=
  [.spawn true (.notifier 2), batch [⟨invoice, 0⟩], run true 0, run true 0, failing,
    .spawn false (.cancelInvoice 7)] ++ List.replicate 6 (run false 0) ++
  [batch [⟨invoice, 0⟩, ⟨{ invoice with status := .cancelled, version := 1 }, 1⟩]] ++
  List.replicate 7 (run true 0)

theorem oneNotifier_of_spawn {checks : Checks Bool} (starts : checks.spawn = notified.spawn) :
    checks.rules.oneNotifier = checks.rules := by
  have spawn : checks.rules.oneNotifier.spawn = checks.rules.spawn := by
    funext w job
    refine propext ⟨And.left, fun allowed => ⟨allowed, fun notifier t thread held => ?_⟩⟩
    simp only [Checks.rules, starts, notified, notifier, Bool.not_true, Bool.false_or,
      decide_eq_true_eq] at allowed
    have quiet := allowed t
    rw [held, Option.all_some, Bool.not_eq_true'] at quiet
    exact quiet
  exact congrArg (fun starts => { checks.rules with spawn := starts }) spawn

/-- A `Send` fails, the invoice is cancelled, and it is sent twice as that. -/
theorem sends_of_two_batches :
    ∃ (log : List (Called Stmt Stmt.Val Err)) (c : Running Bool),
      Logged (system printing notified.rules.oneNotifier) (.idle (.idle announced)) log c ∧
      sent log = [⟨7, .waiting, 0⟩, ⟨7, .cancelled, 1⟩, ⟨7, .cancelled, 1⟩] ∧
      (sent log).Pairwise Snapshot.Before := by
  have some : (notified.schedule printing twoBatches (.idle (.idle announced))).isSome := by
    decide +kernel
  obtain ⟨c, leads⟩ := Option.isSome_iff_exists.mp some
  have run := Checks.logged leads .start
  rw [List.nil_append, ← oneNotifier_of_spawn rfl] at run
  exact ⟨_, c, run, by decide +kernel, sends_in_order announced_sane run⟩

end Shop

end SpiceHarvester
