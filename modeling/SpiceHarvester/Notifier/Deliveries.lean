import SpiceHarvester.Ledger.Dues
import SpiceHarvester.Notifier.Snapshots

/-!
# What is delivered before a row is removed

The notifier reads the invoices of a batch, sends them one after the other, and after each
delivery removes all rows of the invoice. So a row that is written between the read and the
removal is removed although what it announces has not been sent
(`Shop.cancellation_unreported`). As long as a removal finds no row that is newer than what
has just been sent (`Prompt`), every row has been reported when it is removed, and once an
invoice has no row left and no operation owes it one, the last delivery of the invoice says
its current status (`changes_delivered`).

The version of an invoice says which of its changes a snapshot has been read after: a
change is committed under a version of its own, and versions never go down.
-/

set_option autoImplicit false

namespace SpiceHarvester

open Interleaving Sql

/-! ## Rows and deliveries -/

namespace Due

/-- An operation that owes rows of an invoice for one change writes them for that change. -/
theorem owedVersion_of_mem {due : Due} {change : Snapshot}
    (single : ∀ change ∈ due.owed, ∀ other ∈ due.owed, change.id = other.id → change = other)
    (owes : change ∈ due.owed) : due.owedVersion change.id = change.version := by
  unfold owedVersion
  cases found : due.owed.find? fun other => decide (other.id = change.id) with
  | none =>
      have missed := List.find?_eq_none.mp found change owes
      exact absurd (decide_eq_true rfl) missed
  | some other =>
      have here : other.id = change.id := by simpa using List.find?_some found
      rw [single change owes other (List.mem_of_find?_eq_some found) here.symm]
      rfl

end Due

namespace Dues

variable {τ : Type}

/-- An invoice has been delivered as it was read under a version or later. -/
def Reported (d : Dues τ) (id : InvoiceID) (version : ℕ) : Prop :=
  ∃ snapshot ∈ d.delivered, snapshot.id = id ∧ version ≤ snapshot.version

/-- Nothing fails, what is delivered is what a thread holds first, and rows are removed only
after a delivery of what they were written for. -/
def prompt (held : List Snapshot) : Guard τ where
  reads _ _ _ := True
  delivers snapshot := ∃ rest, held = snapshot :: rest
  deletes d snapshot := ∀ entry ∈ d.rows, entry.row.id = snapshot.id → entry.change ≤ snapshot.version
  fails _ := False

/-- Every change is owed a row, has one, or has been reported; every removed row has been
reported. -/
structure Covered (d : Dues τ) : Prop where
  changes : ∀ change ∈ d.changes,
    (∃ t due, d.due t = some due ∧ change ∈ due.owed) ∨
    (∃ entry ∈ d.rows, entry.row.id = change.id ∧ change.version ≤ entry.change) ∨
    d.Reported change.id change.version
  removed : ∀ entry ∈ d.removed, d.Reported entry.row.id entry.change
  unfailed : ∀ {t due}, d.due t = some due → due.failed = false
  single : ∀ {t due}, d.due t = some due →
    ∀ change ∈ due.owed, ∀ other ∈ due.owed, change.id = other.id → change = other
  idle : ∀ {t due}, d.due t = some due → due.busy = true →
    due.owed = [] ∧ due.job.indexes = true

variable [DecidableEq τ] {d d' : Dues τ} {t : τ} {held : List Snapshot}

namespace Covered

/-- One operation changes, and owes what it owed. -/
theorem put (covered : d.Covered) {due new : Due} (found : d.due t = some due)
    (owed : new.owed = due.owed) (failed : new.failed = due.failed)
    (idle : new.busy = true → new.owed = [] ∧ new.job.indexes = true) :
    (d.put t (some new)).Covered where
  changes change member := by
    obtain ⟨u, other, opens, owes⟩ | stored := covered.changes change member
    · left
      by_cases same : u = t
      · subst same
        rw [found, Option.some.injEq] at opens
        subst opens
        exact ⟨u, new, Function.update_self .., owed ▸ owes⟩
      · exact ⟨u, other, (Function.update_of_ne same ..).trans opens, owes⟩
    · exact .inr stored
  removed := covered.removed
  unfailed opens := by
    have unfailed := covered.unfailed found
    obtain ⟨_, same⟩ | ⟨_, opens⟩ := due_put opens
    · cases same
      exact failed.trans unfailed
    · exact covered.unfailed opens
  single opens := by
    have single := covered.single found
    obtain ⟨_, same⟩ | ⟨_, opens⟩ := due_put opens
    · cases same
      rw [owed]
      exact single
    · exact covered.single opens
  idle opens := by
    obtain ⟨_, same⟩ | ⟨_, opens⟩ := due_put opens
    · cases same
      exact idle
    · exact covered.idle opens

/-- An operation that owes nothing commits changes, and owes their rows. -/
theorem owe (covered : d.Covered) {due : Due} {invoices : Table InvoiceRow.id}
    {changes : List Snapshot} (busy : Bool) (found : d.due t = some due) (clear : due.owed = [])
    (single : ∀ change ∈ changes, ∀ other ∈ changes, change.id = other.id → change = other)
    (idle : busy = false) :
    Covered { d.put t (some { due.owe changes with busy := busy }) with
      invoices := invoices
      changes := d.changes ++ changes } where
  changes change member := by
    have owed : (due.owe changes).owed = changes := by
      change due.owed ++ changes = changes
      rw [clear, List.nil_append]
    obtain before | new := List.mem_append.mp member
    · obtain ⟨u, other, opens, owes⟩ | stored := covered.changes change before
      · left
        refine ⟨u, other, (Function.update_of_ne ?_ ..).trans opens, owes⟩
        rintro rfl
        rw [found, Option.some.injEq] at opens
        subst opens
        rw [clear] at owes
        cases owes
      · exact .inr stored
    · exact .inl ⟨t, _, Function.update_self .., owed.symm ▸ new⟩
  removed := covered.removed
  unfailed opens := by
    have unfailed := covered.unfailed found
    obtain ⟨_, same⟩ | ⟨_, opens⟩ := due_put opens
    · cases same
      exact unfailed
    · exact covered.unfailed opens
  single opens := by
    obtain ⟨_, same⟩ | ⟨_, opens⟩ := due_put opens
    · cases same
      change ∀ change ∈ due.owed ++ changes, ∀ other ∈ due.owed ++ changes, _
      rw [clear, List.nil_append]
      exact single
    · exact covered.single opens
  idle opens set := by
    obtain ⟨_, same⟩ | ⟨_, opens⟩ := due_put opens
    · cases same
      rw [show busy = true from set] at idle
      cases idle
    · exact covered.idle opens set

/-- The row that is written of an invoice is for the change that the operation owes it. -/
theorem announce (covered : d.Covered) {due : Due} {row : InvoiceRow} (found : d.due t = some due)
    {outbox : List (InvoiceID × InvoiceStatus)} :
    Covered { d.put t (some (due.announce row.id)) with
      outbox := outbox
      rows := d.rows ++ [⟨row, due.owedVersion row.id⟩] } where
  changes change member := by
    obtain ⟨u, other, opens, owes⟩ | ⟨entry, stored, here⟩ | reported := covered.changes change member
    · by_cases same : u = t
      · subst same
        rw [found, Option.some.injEq] at opens
        subst opens
        by_cases here : change.id = row.id
        · refine .inr (.inl ⟨_, List.mem_append_right _ List.mem_cons_self, here.symm, ?_⟩)
          rw [← here, Due.owedVersion_of_mem (covered.single found) owes]
        · refine .inl ⟨u, due.announce row.id, Function.update_self .., List.mem_filter.mpr ⟨owes, ?_⟩⟩
          rw [decide_eq_false here]
          rfl
      · exact .inl ⟨u, other, (Function.update_of_ne same ..).trans opens, owes⟩
    · exact .inr (.inl ⟨entry, List.mem_append_left _ stored, here⟩)
    · exact .inr (.inr reported)
  removed := covered.removed
  unfailed opens := by
    have unfailed := covered.unfailed found
    obtain ⟨_, same⟩ | ⟨_, opens⟩ := due_put opens
    · cases same
      exact unfailed
    · exact covered.unfailed opens
  single opens := by
    have single := covered.single found
    obtain ⟨_, same⟩ | ⟨_, opens⟩ := due_put opens
    · cases same
      intro change owes other owes'
      exact single change (List.mem_filter.mp owes).1 other (List.mem_filter.mp owes').1
    · exact covered.single opens
  idle opens set := by
    have idle := covered.idle found
    obtain ⟨_, same⟩ | ⟨_, opens⟩ := due_put opens
    · cases same
      obtain ⟨clear, indexes⟩ := idle set
      refine ⟨?_, indexes⟩
      change due.owed.filter _ = []
      rw [clear, List.filter_nil]
    · exact covered.idle opens set

omit [DecidableEq τ] in
/-- Something is delivered. -/
theorem deliver (covered : d.Covered) (snapshot : Snapshot) :
    Covered { d with delivered := d.delivered ++ [snapshot] } where
  changes change member := by
    obtain owed | stored | ⟨sent, member', holds⟩ := covered.changes change member
    · exact .inl owed
    · exact .inr (.inl stored)
    · exact .inr (.inr ⟨sent, List.mem_append_left _ member', holds⟩)
  removed entry member := by
    obtain ⟨sent, member', holds⟩ := covered.removed entry member
    exact ⟨sent, List.mem_append_left _ member', holds⟩
  unfailed := covered.unfailed
  single := covered.single
  idle := covered.idle

omit [DecidableEq τ] in
/-- The rows of an invoice are removed, after a delivery of what they were written for. -/
theorem delete (covered : d.Covered) {snapshot : Snapshot} (sent : snapshot ∈ d.delivered)
    (read : ∀ entry ∈ d.rows, entry.row.id = snapshot.id → entry.change ≤ snapshot.version) :
    Covered { d with
      rows := d.rows.filter fun entry => !decide (entry.row.id = snapshot.id)
      removed := d.removed ++ d.rows.filter fun entry => decide (entry.row.id = snapshot.id) } where
  changes change member := by
    obtain owed | ⟨entry, stored, here, newer⟩ | reported := covered.changes change member
    · exact .inl owed
    · by_cases same : entry.row.id = snapshot.id
      · exact .inr (.inr ⟨snapshot, sent, same.symm.trans here, newer.trans (read entry stored same)⟩)
      · refine .inr (.inl ⟨entry, List.mem_filter.mpr ⟨stored, ?_⟩, here, newer⟩)
        rw [decide_eq_false same]
        rfl
    · exact .inr (.inr reported)
  removed entry member := by
    obtain before | now := List.mem_append.mp member
    · exact covered.removed entry before
    · obtain ⟨stored, same⟩ := List.mem_filter.mp now
      have same := of_decide_eq_true same
      exact ⟨snapshot, sent, same.symm, read entry stored same⟩
  unfailed := covered.unfailed
  single := covered.single
  idle := covered.idle

/-- An operation starts, or one that owes nothing is taken away. -/
theorem replace (covered : d.Covered) {new : Option Due}
    (clear : ∀ due, d.due t = some due → due.owed = [])
    (fresh : ∀ due, new = some due → due.owed = [] ∧ due.failed = false ∧ due.busy = false) :
    (d.put t new).Covered where
  changes change member := by
    obtain ⟨u, due, opens, owes⟩ | stored := covered.changes change member
    · refine .inl ⟨u, due, (Function.update_of_ne ?_ ..).trans opens, owes⟩
      rintro rfl
      rw [clear due opens] at owes
      cases owes
    · exact .inr stored
  removed := covered.removed
  unfailed opens := by
    obtain ⟨_, same⟩ | ⟨_, opens⟩ := due_put opens
    · exact (fresh _ same).2.1
    · exact covered.unfailed opens
  single opens := by
    obtain ⟨_, same⟩ | ⟨_, opens⟩ := due_put opens
    · rw [(fresh _ same).1]
      exact fun _ owes => by cases owes
    · exact covered.single opens
  idle opens set := by
    obtain ⟨_, same⟩ | ⟨_, opens⟩ := due_put opens
    · rw [(fresh _ same).2.2] at set
      cases set
    · exact covered.idle opens set

/-- **No prompt step removes a row that has not been reported.** -/
theorem step (covered : d.Covered) (step : Step (prompt held) t d d') : d'.Covered := by
  cases step with
  | quiet => exact covered
  | @owe due invoices changes found clear idle _ single _ =>
      exact covered.owe due.busy found clear single idle
  | begin found indexes clear =>
      have unfailed := covered.unfailed found
      refine covered.put found rfl rfl fun _ => ⟨clear.resolve_right ?_, indexes⟩
      rw [unfailed]
      exact Bool.false_ne_true
  | commit invoices changes found busy _ single =>
      exact covered.owe false found (covered.idle found busy).1 single rfl
  | rollback found => exact covered.put found rfl rfl fun set => by cases set
  | read id found _ =>
      have idle := covered.idle found
      exact covered.put found rfl rfl idle
  | announce row found _ => exact covered.announce found
  | deliver snapshot _ => exact covered.deliver snapshot
  | delete snapshot sent read => exact covered.delete sent read
  | fail _ impossible => exact impossible.elim
  | start job free =>
      refine covered.replace (fun due opens => ?_) fun due same => ?_
      · rw [free] at opens
        cases opens
      · cases same
        exact ⟨rfl, rfl, rfl⟩
  | leave clear =>
      refine covered.replace (fun due opens => (clear due opens).resolve_right ?_) fun due none => by
        cases none
      rw [covered.unfailed opens]
      exact Bool.false_ne_true

end Covered

/-- **What a prompt step delivers.** -/
theorem Step.delivered (step : Step (prompt held) t d d') :
    d'.delivered = d.delivered ∨
      ∃ first rest, held = first :: rest ∧ d'.delivered = d.delivered ++ [first] := by
  cases step with
  | deliver snapshot allowed =>
      obtain ⟨rest, first⟩ := allowed
      exact .inr ⟨snapshot, rest, first, rfl⟩
  | fail _ impossible => exact impossible.elim
  | _ => exact .inl rfl

end Dues

/-! ## What a snapshot says -/

section Runs

variable [Libraries] {τ : Type}

/-- A snapshot says the status that its invoice has, unless a change has been committed
since it was read. -/
def Books.Saw (b : Books τ) (snapshot : Snapshot) : Prop :=
  ∃ row, b.rows.row snapshot.id = some row ∧ snapshot.version ≤ row.version ∧
    ((∀ change ∈ b.changes, change.id = snapshot.id → change.version ≤ snapshot.version) →
      snapshot.status = row.status)

theorem Books.Saw.evolves {b b' : Books τ} {snapshot : Snapshot} (saw : b.Saw snapshot)
    (evolves : b.Evolves b') : b'.Saw snapshot := by
  obtain ⟨row, found, newer, tells⟩ := saw
  obtain ⟨row', found', newer', same | ⟨change, member, here, above⟩⟩ := evolves.2 _ row found
  · refine ⟨row', found', newer.trans newer', fun last => ?_⟩
    rw [tells fun change member => last change (evolves.1 member), same]
  · refine ⟨row', found', newer.trans newer', fun last => ?_⟩
    exact absurd (last change member here) (Nat.not_le.mpr (newer.trans_lt above))

omit [Libraries] in
/-- The last of the deliveries of an invoice is the newest. -/
theorem newest_of_last {delivered : List Snapshot} {id : InvoiceID} {last snapshot : Snapshot}
    (ordered : delivered.Pairwise Snapshot.Before)
    (ends : (delivered.filter fun other => decide (other.id = id)).getLast? = some last)
    (member : snapshot ∈ delivered) (here : snapshot.id = id) : snapshot.version ≤ last.version := by
  obtain ⟨before, split⟩ := List.getLast?_eq_some_iff.mp ends
  have among : snapshot ∈ before ++ [last] :=
    split ▸ List.mem_filter.mpr ⟨member, decide_eq_true here⟩
  have sorted : (before ++ [last]).Pairwise Snapshot.Before := split ▸ ordered.filter _
  have own : last.id = id := by
    have kept : last ∈ delivered.filter fun other => decide (other.id = id) :=
      split ▸ List.mem_append_right _ List.mem_cons_self
    exact of_decide_eq_true (List.mem_filter.mp kept).2
  obtain earlier | same := List.mem_append.mp among
  · exact (List.pairwise_append.mp sorted).2.2 snapshot earlier last List.mem_cons_self
      (here.trans own.symm)
  · rw [List.mem_singleton.mp same]

variable [DecidableEq τ] [Fintype τ]

/-! ## Prompt runs -/

/-- No statement fails and the process does not stop; and when the notifier removes the rows
of an invoice, none of them was written for a change that was committed after the notifier
had read the invoice. -/
structure Prompt (rules : Rules τ) : Prop where
  faultless : ∀ {w t op fault choice}, rules.exec w t op fault choice → fault = .none
  stays : ∀ {w}, ¬ rules.crash w
  deletes : ∀ {w t id fault choice thread snapshot rest},
    rules.exec w t (.deleteNotification id) fault choice → w.threads t = some thread →
    thread.held = snapshot :: rest → ∀ entry ∈ w.db.notifications, entry.row.id = id →
    entry.change ≤ snapshot.version

/-- What holds throughout a prompt run. -/
structure Prompted (w : World τ) : Prop where
  ordered : InOrder w.history.delivered w
  dated : w.books.Dated
  covered : w.dues.Covered
  delivered : ∀ snapshot ∈ w.history.delivered, w.books.Saw snapshot
  held : ∀ {t thread}, w.threads t = some thread → ∀ snapshot ∈ thread.held, w.books.Saw snapshot

variable {printing : Printing} {rules : Rules τ} {w w' : World τ} {t : τ}

/-- A statement keeps what holds throughout. -/
theorem Prompted.exec {op : Stmt} {choice : Choice} {answer : Except Err op.Val} {thread : Thread}
    (prompted : Prompted w) (sane : w.Sane) (prompt : Prompt rules)
    (allowed : rules.exec w t op .none choice) (held : w.threads t = some thread)
    (may : thread.may w.db.currencies w.history.delivered op)
    (unread : thread.tx.isSome = true → thread.lastRead = none)
    (runs : op.run choice t w = some (answer, w')) : Prompted w' := by
  have move : Moves rules w w' := .exec allowed held may runs
  obtain ⟨rising, rises⟩ := move.rising sane prompted.ordered.rising
  obtain ⟨dated, evolves⟩ := move.dated sane prompted.dated
  have others : ∀ {u}, u ≠ t → w'.threads u = w.threads u := (Stmt.run_kept runs).others
  have holds : w'.Holds t thread := Stmt.run_holds held runs
  have step : Dues.Step (Dues.prompt thread.held) t w.dues w'.dues := by
    refine Stmt.run_dues held may unread (fun _ _ => trivial) (fun _ rest first => ⟨rest, first⟩) ?_ runs
    rintro id snapshot rest rfl first rfl entry stored here
    exact prompt.deletes allowed held first entry stored here
  exact {
    ordered := by
      obtain same | ⟨first, rest, first', more⟩ := step.delivered
      · change w'.history.delivered = w.history.delivered at same
        rw [same]
        exact prompted.ordered.exec held rising rises others holds
      · change w'.history.delivered = w.history.delivered ++ [first] at more
        rw [more]
        exact (prompted.ordered.send held first').exec held rising rises others holds
    dated := dated
    covered := prompted.covered.step step
    delivered := by
      intro snapshot member
      obtain same | ⟨first, rest, first', more⟩ := step.delivered
      · change w'.history.delivered = w.history.delivered at same
        rw [same] at member
        exact (prompted.delivered snapshot member).evolves evolves
      · change w'.history.delivered = w.history.delivered ++ [first] at more
        rw [more] at member
        obtain before | now := List.mem_append.mp member
        · exact (prompted.delivered snapshot before).evolves evolves
        · rw [List.mem_singleton.mp now]
          exact (prompted.held held first (first' ▸ List.mem_cons_self)).evolves evolves
    held := by
      intro u other found snapshot member
      by_cases own : u = t
      · subst own
        obtain ⟨thread', held', _, less | ⟨_, row, stored, more⟩⟩ := holds
        · rw [held', Option.some.injEq] at found
          subst found
          exact (prompted.held held snapshot (less.subset member)).evolves evolves
        · rw [held', Option.some.injEq] at found
          subst found
          rw [more] at member
          obtain before | now := List.mem_append.mp member
          · exact (prompted.held held snapshot before).evolves evolves
          · rw [List.mem_singleton.mp now]
            exact ⟨row, stored, le_refl _, fun _ => rfl⟩
      · rw [others own] at found
        exact (prompted.held found snapshot member).evolves evolves }

omit [DecidableEq τ] [Fintype τ] in
/-- The condition on a removal is exact: the rows that it finds have been reported just when
none of them is newer than what the notifier has sent last. -/
theorem reported_iff (ordered : InOrder w.history.delivered w) {thread : Thread}
    {snapshot : Snapshot} {rest : List Snapshot} (held : w.threads t = some thread)
    (first : thread.held = snapshot :: rest) (sent : snapshot ∈ w.history.delivered) :
    (∀ entry ∈ w.db.notifications, entry.row.id = snapshot.id →
      w.dues.Reported entry.row.id entry.change) ↔
    ∀ entry ∈ w.db.notifications, entry.row.id = snapshot.id → entry.change ≤ snapshot.version := by
  constructor
  · intro reported entry stored here
    obtain ⟨other, among, own, newer⟩ := reported entry stored here
    have sorted := ordered.heldOrdered held
    rw [first] at sorted
    exact newer.trans ((List.pairwise_append.mp sorted).2.2 other among snapshot List.mem_cons_self
      (own.trans here))
  · intro read entry stored here
    exact ⟨snapshot, sent, here.symm, read entry stored here⟩

/-- **What holds throughout every prompt run with one notifier.** -/
theorem prompted_run {db : Database} (sane : db.Sane) (decodable : db.currencies.Decodable)
    (prompt : Prompt rules) {c : Running τ} (run : Runs printing rules.oneNotifier db c) :
    Prompted c.state := by
  induction run with
  | refl =>
      exact {
        ordered := .idle db
        dated := ⟨.idle _, fun held => by cases held⟩
        covered := {
          changes := fun _ member => by cases member
          removed := fun _ member => by cases member
          unfailed := fun found => by cases found
          single := fun found => by cases found
          idle := fun found => by cases found }
        delivered := fun _ member => by cases member
        held := fun found => by cases found }
  | @tail c₁ c₂ before step prompted =>
      have kept := disciplined sane before
      have sane₁ : c₁.state.Sane := kept.inv
      have decodable₁ : c₁.state.db.currencies.Decodable :=
        (grows_run sane .refl before).currencies ▸ decodable
      cases step with
      | @spawn w w' pool t program free starts =>
          obtain ⟨job, allowed, _, rfl⟩ := starts
          have idle : w.threads t = none := no_thread before free
          have equal : (w.start t job).dues = _ := World.dues_update w t (some (Thread.start job))
          have move : Moves rules w (w.start t job) := .spawn allowed.1
          obtain ⟨dated, evolves⟩ := move.dated sane₁ prompted.dated
          exact {
            ordered := prompted.ordered.spawn rules sane₁ allowed
            dated := dated
            covered := by
              have free : w.dues.due t = none := by
                change (w.threads t).map Thread.due = none
                rw [idle, Option.map_none]
              have starts : Dues.Step (Dues.prompt []) t w.dues _ := .start job free
              change (w.start t job).dues.Covered
              rw [equal]
              exact prompted.covered.step starts
            delivered := fun snapshot member => (prompted.delivered snapshot member).evolves evolves
            held := by
              intro u other found snapshot member
              by_cases own : u = t
              · subst own
                change (w.start u job).threads u = some other at found
                rw [World.threads_start, Option.some.injEq] at found
                subst found
                cases member
              · change (w.start t job).threads u = some other at found
                rw [World.threads_start_of_ne own] at found
                exact (prompted.held found snapshot member).evolves evolves }
      | @exec w w' pool t op next answer calls answers =>
          obtain ⟨thread, held, may⟩ := kept.pre discipline_sound calls
          obtain ⟨fault, choice, allowed, runs⟩ := answers
          obtain rfl := prompt.faultless allowed
          refine prompted.exec sane₁ prompt allowed held may (fun opened => ?_) runs
          exact unread_run before held (prompted.covered.idle (World.due_of_thread held) opened).2
      | @retire w w' pool t result ended leaves =>
          cases leaves
          obtain ⟨thread, held, done⟩ := kept.post discipline_sound ended
          have equal : (w.leave t).dues = _ := World.dues_update w t none
          have move : Moves rules w (w.leave t) := .retire held done
          obtain ⟨dated, evolves⟩ := move.dated sane₁ prompted.dated
          exact {
            ordered := prompted.ordered.retire rules sane₁ held done
            dated := dated
            covered := by
              have leaves : Dues.Step (Dues.prompt []) t w.dues _ := .leave fun due found => by
                rw [World.due_of_thread held, Option.some.injEq] at found
                subst found
                exact done.clear fun row _ => decodable₁.legible row.currency
              change (w.leave t).dues.Covered
              rw [equal]
              exact prompted.covered.step leaves
            delivered := fun snapshot member => (prompted.delivered snapshot member).evolves evolves
            held := by
              intro u other found snapshot member
              by_cases own : u = t
              · subst own
                change (w.leave u).threads u = some other at found
                rw [World.threads_leave] at found
                cases found
              · change (w.leave t).threads u = some other at found
                rw [World.threads_leave_of_ne own] at found
                exact (prompted.held found snapshot member).evolves evolves }
      | crash stops => exact absurd stops.1 prompt.stays

/-- **Changes are delivered.** In every prompt run with one notifier, an outbox row is
removed only after a delivery of its invoice as it was read after the change that the row was
written for; and when an invoice of which a change has been committed has no outbox row and
no operation owes it one, its last delivery says its current status. The condition on a
removal is exact: what the notifier is about to remove has been reported just when the
condition holds. -/
theorem changes_delivered {db : Database} (sane : db.Sane) (decodable : db.currencies.Decodable)
    (prompt : Prompt rules) {c : Running τ} (run : Runs printing rules.oneNotifier db c) :
    (∀ entry ∈ c.state.history.removed, ∃ snapshot ∈ c.state.history.delivered,
      snapshot.id = entry.row.id ∧ entry.change ≤ snapshot.version) ∧
    (∀ id, (∃ change ∈ c.state.history.changes, change.id = id) →
      (∀ entry ∈ c.state.db.notifications, entry.row.id ≠ id) →
      (∀ t thread, c.state.threads t = some thread → thread.owed = []) →
      ∃ snapshot row,
        (c.state.history.delivered.filter fun other => decide (other.id = id)).getLast? =
          some snapshot ∧
        c.state.db.invoices.find id = some row ∧ snapshot.status = row.status) ∧
    ∀ t thread snapshot rest, c.state.threads t = some thread → thread.held = snapshot :: rest →
      snapshot ∈ c.state.history.delivered →
      ((∀ entry ∈ c.state.db.notifications, entry.row.id = snapshot.id →
        ∃ sent ∈ c.state.history.delivered,
          sent.id = entry.row.id ∧ entry.change ≤ sent.version) ↔
      ∀ entry ∈ c.state.db.notifications, entry.row.id = snapshot.id →
        entry.change ≤ snapshot.version) := by
  have prompted := prompted_run sane decodable prompt run
  refine ⟨prompted.covered.removed, fun id changed unannounced settled => ?_,
    fun t thread snapshot rest held first sent => reported_iff prompted.ordered held first sent⟩
  have reported : ∀ change ∈ c.state.history.changes, change.id = id →
      c.state.dues.Reported change.id change.version := by
    intro change member here
    obtain ⟨t, due, found, owes⟩ | ⟨entry, stored, same, _⟩ | reported :=
      prompted.covered.changes change member
    · obtain ⟨thread, held, rfl⟩ := Option.map_eq_some_iff.mp found
      rw [show thread.due.owed = [] from settled t thread held] at owes
      cases owes
    · exact absurd (same.trans here) (unannounced entry stored)
    · exact reported
  obtain ⟨change, member, here⟩ := changed
  obtain ⟨sent, among, own, _⟩ := reported change member here
  have kept : sent ∈ c.state.history.delivered.filter fun other => decide (other.id = id) :=
    List.mem_filter.mpr ⟨among, decide_eq_true (own.trans here)⟩
  cases last : (c.state.history.delivered.filter fun other => decide (other.id = id)).getLast? with
  | none =>
      rw [List.getLast?_eq_none_iff.mp last] at kept
      cases kept
  | some snapshot =>
      obtain ⟨delivered, atID⟩ := List.mem_filter.mp (List.mem_of_getLast? last)
      have atID : snapshot.id = id := of_decide_eq_true atID
      obtain ⟨row, found, _, tells⟩ := prompted.delivered snapshot delivered
      refine ⟨snapshot, row, rfl, atID ▸ found, tells fun other member' same => ?_⟩
      obtain ⟨sent', among', own', newer⟩ := reported other member' (same.trans atID)
      exact newer.trans (newest_of_last prompted.ordered.ordered last among'
        (own'.trans (same.trans atID)))

end Runs

/-! ## A cancellation that is never reported -/

namespace Shop

attribute [local instance] Texts.libraries

/-- Nothing fails or stops, and there is one notifier. -/
def steady : Checks Bool where
  spawn := notified.spawn
  exec _ _ _ fault _ := decide (fault = .none)
  crash _ := false

/-- The same, where a removal finds no row that is newer than what was sent. -/
def attentive : Checks Bool where
  spawn := notified.spawn
  exec w t op fault _ :=
    decide (fault = .none) &&
      match op with
      | .deleteNotification id => (w.threads t).all fun thread => thread.held.head?.all fun snapshot =>
          w.db.notifications.all fun entry =>
            !decide (entry.row.id = id) || decide (entry.change ≤ snapshot.version)
      | _ => true
  crash _ := false

theorem attentive_prompt : Prompt attentive.rules where
  faultless allowed := by
    simp only [Checks.rules, attentive, Bool.and_eq_true, decide_eq_true_eq] at allowed
    exact allowed.1
  stays stops := by cases stops
  deletes allowed held first entry stored here := by
    simp only [Checks.rules, attentive, Bool.and_eq_true, held, Option.all_some, first,
      List.head?_cons, List.all_eq_true] at allowed
    have read := allowed.2 entry stored
    rw [decide_eq_true here, Bool.not_true, Bool.false_or, decide_eq_true_eq] at read
    exact read

theorem vacant_sane : vacant.Sane := fun _ _ found => by cases found

theorem vacant_decodable : vacant.currencies.Decodable := by
  intro row member id extra
  obtain rfl := List.mem_singleton.mp member
  cases extra

/-- The new invoice is sent, and its row removed. -/
theorem creation_delivered :
    ∃ c : Running Bool, Runs printing attentive.rules.oneNotifier vacant c ∧
      c.state.history.removed = [⟨invoice, 0⟩] ∧
      ∃ snapshot row,
        (c.state.history.delivered.filter fun other => decide (other.id = 7)).getLast? =
          some snapshot ∧
        c.state.db.invoices.find 7 = some row ∧ snapshot.status = row.status := by
  obtain ⟨c, _, run, _, removed, changes, stored, owed⟩ :=
    Checks.observed printing attentive (.idle (.idle vacant))
      (creation ++ [.spawn true (.notifier 1), batch [⟨invoice, 0⟩]] ++ List.replicate 4 (run true 0)) []
      (fun c _ => c.state.history.removed = [⟨invoice, 0⟩] ∧
        c.state.history.changes = [⟨7, .waiting, 0⟩] ∧ c.state.db.notifications = [] ∧
        ∀ t, (c.state.threads t).all fun thread => thread.owed.isEmpty) (by decide +kernel)
  have one : attentive.rules.oneNotifier = attentive.rules := oneNotifier_of_spawn rfl
  change Runs printing attentive.rules vacant c at run
  rw [← one] at run
  refine ⟨c, run, removed,
    (changes_delivered vacant_sane vacant_decodable attentive_prompt run).2.1 7 ?_ ?_ ?_⟩
  · exact ⟨_, by rw [changes]; exact List.mem_cons_self, rfl⟩
  · rw [stored]
    exact fun _ member => by cases member
  · intro t thread held
    have empty := owed t
    rw [held] at empty
    simpa using empty

/-- The invoice is cancelled after the notifier has read it and before the notifier sends it:
the removal takes the row of the cancellation too. -/
theorem cancellation_unreported :
    ∃ c : Running Bool, Runs printing steady.rules.oneNotifier vacant c ∧ (∀ t, c.pool t = none) ∧
      c.state.db.notifications = [] ∧ c.state.history.delivered = [⟨7, .waiting, 0⟩] ∧
      (c.state.db.invoices.find 7).map InvoiceRow.status = some .cancelled ∧
      ∃ entry ∈ c.state.history.removed, entry.row.status = .cancelled ∧
        ¬ ∃ snapshot ∈ c.state.history.delivered,
          snapshot.id = entry.row.id ∧ entry.change ≤ snapshot.version := by
  obtain ⟨c, _, run, _, idle, rest⟩ :=
    Checks.observed printing steady (.idle (.idle vacant))
      (creation ++ [.retire false, .spawn true (.notifier 1), batch [⟨invoice, 0⟩]] ++
        List.replicate 2 (run true 0) ++ [.spawn false (.cancelInvoice 7)] ++
        List.replicate 6 (run false 0) ++ [.retire false] ++ List.replicate 2 (run true 0) ++
        [.retire true]) []
      (fun c _ => (∀ t, (c.pool t).isNone = true) ∧ c.state.db.notifications = [] ∧
        c.state.history.delivered = [⟨7, .waiting, 0⟩] ∧
        (c.state.db.invoices.find 7).map InvoiceRow.status = some .cancelled ∧
        ∃ entry ∈ c.state.history.removed, entry.row.status = .cancelled ∧
          ¬ ∃ snapshot ∈ c.state.history.delivered,
            snapshot.id = entry.row.id ∧ entry.change ≤ snapshot.version) (by decide +kernel)
  have one : steady.rules.oneNotifier = steady.rules := oneNotifier_of_spawn rfl
  change Runs printing steady.rules vacant c at run
  rw [← one] at run
  exact ⟨c, run, fun t => Option.isNone_iff_eq_none.mp (idle t), rest⟩

end Shop

end SpiceHarvester
