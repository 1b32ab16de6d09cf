import SpiceHarvester.Protocol.Workers

/-!
# The discipline is sound

Every job of the service keeps the discipline (`runJob_keeps`), and no statement
of one thread breaks what another relies on. So every run of the service, under
any rules, keeps the discipline (`discipline_sound`): each statement is called in
the situation that `Thread.may` describes. An invariant of the state therefore
has to be proved for the start and the end of a thread, for a stop of the
process, and for one statement in its situation (`invariant`).
-/

set_option autoImplicit false

namespace SpiceHarvester

open Interleaving Sql

/-! ## Every job -/

section Jobs

variable [Libraries] {τ : Type}

/-- A job that reports no change of an invoice and owes nothing has ended well. -/
theorem Working.ended {job : Job} {thread : Thread} {w : World τ} (working : Working job thread)
    (quiet : job.reports = false) (result : Except Err (Option Invoice)) :
    thread.Ended w result where
  clear := fun _ => working.clear
  unchanged := by
    rintro _ _ _ (⟨invoice, same⟩ | ⟨id, same⟩)
    · rw [← working.job, same] at quiet
      cases quiet
    · rw [← working.job, same] at quiet
      cases quiet
  cancelled := by
    intro id returned same
    rw [← working.job, same] at quiet
    cases quiet

theorem Broken.ended {job : Job} {thread : Thread} {w : World τ} (broken : Broken job thread w)
    (error : Err) : thread.Ended w (.error error) where
  clear := broken.clear
  unchanged := by
    rintro legible _ _ (⟨invoice, same⟩ | ⟨id, same⟩)
    · exact broken.unchanged legible (by rw [same]; rfl)
    · exact broken.unchanged legible (by rw [same]; rfl)
  cancelled := fun _ same => by cases same

theorem Owing.ended {job : Job} {thread : Thread} {w : World τ} (owing : Owing job [] thread w)
    (cancelled : ∀ id, job = .cancelInvoice id → HasCancelled id w) (returned : Option Invoice) :
    thread.Ended w (.ok returned) where
  clear := fun _ => owing.clear
  unchanged := fun _ _ same => by cases same
  cancelled := fun same _ => cancelled _ (owing.job.symm.trans same)

variable [DecidableEq τ] [Fintype τ] {printing : Printing} {rules : Rules τ} {t : τ}

/-- **Every job keeps the discipline.** -/
theorem runJob_keeps (job : Job) :
    Keeps printing rules t (fun thread (_ : World τ) => thread = .start job) (runJob printing job)
      fun result thread w => thread.Ended w result := by
  have starting : ∀ {thread : Thread}, thread = .start job → Starting job thread := by
    rintro thread rfl
    exact ⟨rfl, rfl, rfl, rfl, rfl⟩
  have working : ∀ {thread : Thread}, thread = .start job → Working job thread := by
    rintro thread rfl
    exact .start job
  cases job with
  | createInvoice invoice =>
      refine .bind (createInvoice_keeps.strengthen fun _ start => starting start) (fun _ => ?_)
        fun broken => broken.ended _
      exact Keeps.ret (lasting_owing _ _) fun _ owing =>
        owing.ended (fun id same => by cases same) none
  | cancelInvoice id =>
      refine .bind (cancelInvoice_keeps.strengthen fun _ start => starting start) (fun invoice => ?_)
        fun broken => broken.ended _
      refine Keeps.ret ((lasting_hasCancelled id).and (lasting_owing _ _)) fun _ ⟨cancelled, owing⟩ =>
        owing.ended (fun id' same => ?_) (some invoice)
      cases same
      exact cancelled
  | markExpired =>
      refine .bind (markExpired_keeps.strengthen fun _ start => starting start) (fun _ => ?_)
        fun broken => broken.ended _
      exact Keeps.ret (lasting_owing _ _) fun _ owing =>
        owing.ended (fun id same => by cases same) none
  | savePayments call =>
      have saves : Keeps printing rules t _ (savePayments call) _ :=
        savePayments_keeps (.inl rfl : (Thread.start (.savePayments call)).MayBegin call) rfl
      refine .bind (saves.strengthen fun _ start => ?_) (fun _ => ?_) fun {e thread w} holds => ?_
      · subst start
        exact ⟨⟨rfl, .inl rfl, rfl⟩, rfl⟩
      · refine Keeps.ret (lasting_const _) fun _ holds => ?_
        exact Working.ended ⟨Thread.job_of_worker holds.1.worker, holds.1.clear⟩ rfl _
      · exact Working.ended ⟨Thread.job_of_worker holds.1.worker, holds.1.clear⟩ rfl _
  | indexerWorker account rounds =>
      refine .bind indexerWorker_keeps (fun _ => ?_) fun working => working.ended rfl _
      exact Keeps.ret (lasting_const _) fun _ working => working.ended rfl _
  | loaderWorker account rounds =>
      refine .bind (loaderWorker_works.strengthen fun _ start => working start) (fun _ => ?_)
        fun working => Working.ended working rfl _
      exact Keeps.ret (lasting_const _) fun _ working => Working.ended working rfl _
  | notifier rounds =>
      refine .bind ((runNotifier_keeps rounds).strengthen fun _ start => working start) (fun _ => ?_)
        fun working => Working.ended working rfl _
      exact Keeps.ret (lasting_const _) fun _ working => Working.ended working rfl _

end Jobs

/-! ## Every run -/

section Runs

variable [Libraries] {τ : Type}

namespace World

/-- Threads that start or end leave the tables as they are. -/
theorem kept_of_threads {w w' : World τ} {t : τ} (db : w'.db = w.db)
    (history : w'.history = w.history) (others : ∀ {u}, u ≠ t → w'.threads u = w.threads u)
    (closed : w'.tx t = none) : w.Kept t w' :=
  .of_stored (by rw [db]) (by rw [db]) (by rw [history]; exact List.Subset.refl _)
    (by rw [history]; exact List.Subset.refl _) others fun _ _ _ opened _ => by
      rw [closed] at opened
      cases opened

theorem Sane.restart {w : World τ} (sane : w.Sane) : w.restart.Sane where
  stored := sane.stored
  written := fun opened => by cases opened

/-- What a thread does is what the others rely on. -/
theorem Kept.relied {w w' : World τ} {t u : τ} (kept : w.Kept t w') (sane : w.Sane) (other : u ≠ t) :
    w'.threads u = w.threads u ∧ w.Grows w' :=
  ⟨kept.others other, kept.grows sane⟩

variable [DecidableEq τ]

theorem start_kept (w : World τ) (t : τ) (job : Job) : w.Kept t (w.start t job) :=
  kept_of_threads rfl rfl threads_start_of_ne (tx_eq (w.threads_start t job))

theorem leave_kept (w : World τ) (t : τ) : w.Kept t (w.leave t) :=
  kept_of_threads rfl rfl threads_leave_of_ne (by rw [World.tx, threads_leave]; rfl)

end World

variable [DecidableEq τ] [Fintype τ] {printing : Printing} {rules : Rules τ}

/-- **The service keeps the discipline, under any rules.** -/
theorem discipline_sound : (discipline printing rules).Sound where
  toClosed := discipline_closed
  exec := by
    rintro t op w answer w' sane _ ⟨fault, choice, _, runs⟩
    have kept := Stmt.runUnder_kept runs
    exact ⟨kept.sane sane, fun u other => kept.relied sane other⟩
  spawn := by
    rintro t w program w' sane ⟨job, _, rfl, rfl⟩
    have kept := w.start_kept t job
    exact ⟨kept.sane sane, fun u other => kept.relied sane other,
      runJob_keeps job (w.start t job) (kept.sane sane) ⟨_, w.threads_start t job, rfl⟩⟩
  retire := by
    rintro t result w w' sane _ rfl
    have kept := w.leave_kept t
    exact ⟨kept.sane sane, fun u other => kept.relied sane other⟩
  crash := by
    rintro w w' sane ⟨_, rfl⟩
    exact sane.restart

/-- What a step of the service does to its state: each case with what holds
before it. -/
inductive Moves (rules : Rules τ) (w : World τ) : World τ → Prop where
  | spawn {t : τ} {job : Job} (allowed : rules.spawn w job) : Moves rules w (w.start t job)
  | exec {t : τ} {op : Stmt} {fault : Fault} {choice : Choice} {answer : Except Err op.Val}
      {thread : Thread} {w' : World τ} (allowed : rules.exec w t op fault choice)
      (held : w.threads t = some thread)
      (may : thread.may w.db.currencies w.history.delivered op)
      (runs : op.runUnder fault choice t w = some (answer, w')) : Moves rules w w'
  | retire {t : τ} {thread : Thread} {result : Except Err (Option Invoice)}
      (held : w.threads t = some thread) (ended : thread.Ended w result) : Moves rules w (w.leave t)
  | crash (allowed : rules.crash w) : Moves rules w w.restart

theorem Moves.of_move {w w' : World τ} (move : (discipline printing rules).Move w w') :
    w.Sane ∧ Moves rules w w' := by
  cases move with
  | spawn sane starts =>
      obtain ⟨job, allowed, _, rfl⟩ := starts
      exact ⟨sane, .spawn allowed⟩
  | exec sane holds answers =>
      obtain ⟨thread, held, may⟩ := holds
      obtain ⟨fault, choice, allowed, runs⟩ := answers
      exact ⟨sane, .exec allowed held may runs⟩
  | retire sane holds leaves =>
      obtain ⟨thread, held, ended⟩ := holds
      cases leaves
      exact ⟨sane, .retire held ended⟩
  | crash sane stops =>
      obtain ⟨allowed, rfl⟩ := stops
      exact ⟨sane, .crash allowed⟩

/-- Every invoice of the database names a stored currency. -/
def Database.Sane (db : Database) : Prop :=
  ∀ id row, db.invoices.find id = some row → (db.currencies.table.find row.currency).isSome

/-- **An invariant of the state, by one step at a time.** -/
theorem invariant {J : World τ → Prop} {db : Database} (sane : db.Sane) (init : J (.idle db))
    (keeps : ∀ {w w'}, w.Sane → Moves rules w w' → J w → J w')
    {c : Running τ} (run : Runs printing rules db c) :
    J c.state :=
  discipline_sound.invariant
    (fun move => keeps (Moves.of_move move).1 (Moves.of_move move).2)
    (.idle (.idle fun {_ _} => sane _ _)) init run

/-- Every configuration of a run keeps the discipline. -/
theorem disciplined {db : Database} (sane : db.Sane)
    {c : Running τ} (run : Runs printing rules db c) :
    (discipline printing rules).Kept c :=
  discipline_sound.reachable (.idle (.idle fun {_ _} => sane _ _)) run

/-- What one step of a run does to the state. -/
theorem moves_of_step {db : Database} (sane : db.Sane) {c c' : Running τ}
    (run : Runs printing rules db c) (step : (system printing rules).Step c c') :
    c.state.Sane ∧ Moves rules c.state c'.state :=
  Moves.of_move (discipline_sound.step (disciplined sane run) step).2

/-- The same, where a step is known to be one of the run. -/
theorem invariant_run {J : World τ → Prop} {db : Database} (sane : db.Sane) (init : J (.idle db))
    (keeps : ∀ {c c' : Running τ}, Runs printing rules db c → c.state.Sane →
      Moves rules c.state c'.state → J c.state → J c'.state)
    {c : Running τ} (run : Runs printing rules db c) : J c.state := by
  induction run with
  | refl => exact init
  | tail before step ih =>
      obtain ⟨sane', move⟩ := moves_of_step sane before step
      exact keeps before sane' move ih

/-- **Every thread runs a job that the rules have let start.** -/
theorem job_of_run (allowed : Job → Prop) {db : Database} (sane : db.Sane)
    (spawns : ∀ w job, rules.spawn w job → allowed job) {c : Running τ}
    (run : Runs printing rules db c) {t : τ} {thread : Thread}
    (held : c.state.threads t = some thread) : allowed thread.job := by
  have jobs : ∀ u job, c.state.job u = some job → allowed job := by
    refine invariant (J := fun w => ∀ u job, w.job u = some job → allowed job) sane
      (fun u job none => by cases none) (fun {w w'} _ move before u job found => ?_) run
    cases move with
    | @spawn s started starts =>
        by_cases same : u = s
        · subst same
          rw [World.job, World.threads_start, Option.map_some, Option.some.injEq] at found
          exact found ▸ spawns w started starts
        · rw [World.job, World.threads_start_of_ne same] at found
          exact before u job found
    | exec _ _ _ runs => exact before u job (Stmt.runUnder_job runs ▸ found)
    | @retire s _ _ _ _ =>
        by_cases same : u = s
        · subst same
          rw [World.job, World.threads_leave] at found
          cases found
        · rw [World.job, World.threads_leave_of_ne same] at found
          exact before u job found
    | crash _ => cases found
  exact jobs t thread.job (by rw [World.job, held, Option.map_some])

/-- **A thread is there exactly as long as its program.** -/
theorem isSome_threads {db : Database} {c : Running τ} (run : Runs printing rules db c) (t : τ) :
    (c.state.threads t).isSome = (c.pool t).isSome := by
  induction run with
  | refl => rfl
  | tail _ step ih =>
      cases step with
      | @spawn w w' pool u program free starts =>
          obtain ⟨job, _, _, rfl⟩ := starts
          change ((w.start u job).threads t).isSome = (Function.update pool u (some program) t).isSome
          by_cases same : t = u
          · subst same
            rw [World.threads_start, Function.update_self]
            rfl
          · rw [World.threads_start_of_ne same, Function.update_of_ne same]
            exact ih
      | @exec w w' pool u op next answer calls answers =>
          obtain ⟨_, _, _, runs⟩ := answers
          have jobs := congrArg Option.isSome (congrFun (Stmt.runUnder_job runs) t)
          rw [World.job, World.job, Option.isSome_map, Option.isSome_map] at jobs
          change (w'.threads t).isSome = (Function.update pool u (some (next answer)) t).isSome
          rw [jobs]
          by_cases same : t = u
          · subst same
            rw [Function.update_self]
            change (w.threads t).isSome = (pool t).isSome at ih
            rw [ih, calls]
            rfl
          · rw [Function.update_of_ne same]
            exact ih
      | @retire w w' pool u result ended leaves =>
          cases leaves
          change ((w.leave u).threads t).isSome = (Function.update pool u none t).isSome
          by_cases same : t = u
          · subst same
            rw [World.threads_leave, Function.update_self]
            rfl
          · rw [World.threads_leave_of_ne same, Function.update_of_ne same]
            exact ih
      | crash stops =>
          obtain ⟨_, rfl⟩ := stops
          rfl

theorem no_thread {db : Database} {c : Running τ} (run : Runs printing rules db c) {t : τ}
    (free : c.pool t = none) : c.state.threads t = none := by
  have there := isSome_threads run t
  rw [free] at there
  exact Option.isNone_iff_eq_none.mp (Option.isSome_eq_false_iff.mp there)

/-- A step keeps what only grows. -/
theorem Moves.grows {w w' : World τ} (sane : w.Sane) (move : Moves rules w w') : w.Grows w' := by
  cases move with
  | spawn _ => exact (w.start_kept _ _).grows sane
  | exec _ _ _ runs => exact (Stmt.runUnder_kept runs).grows sane
  | retire _ _ => exact (w.leave_kept _).grows sane
  | crash _ => exact { World.Grows.refl w with }

/-- A later state keeps what only grows. -/
theorem grows_run {db : Database} (sane : db.Sane) {c c' : Running τ}
    (run : Runs printing rules db c) (later : (system printing rules).Reachable c c') :
    c.state.Grows c'.state := by
  induction later with
  | refl => exact .refl _
  | tail before step ih =>
      obtain ⟨sane₁, move⟩ := moves_of_step sane (run.trans before) step
      exact ih.trans (move.grows sane₁)

end Runs

end SpiceHarvester
