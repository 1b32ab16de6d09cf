import SpiceHarvester.Api.HistoryClient

/-!
# Whether the client receives every invoice

An invoice is stored some time after its ID has been drawn. In the meantime another one
with a higher ID may have been stored, and read by the client. Then the client has passed
over the first one, and never receives it.

This is all that goes wrong. As long as every invoice is stored ahead of what the client
has received, and ahead of the page that is on its way (`InOrder`), an empty page tells
the client that it has received every invoice (`history_complete`).
-/

set_option autoImplicit false

namespace SpiceHarvester

open Interleaving Sql

namespace Listing

section Runs

variable [Libraries] {τ : Type} [DecidableEq τ] [Fintype τ] {handler : Handler} {rule : Rule τ}
  (uuids : UUIDTexts)

/-! ## What is passed over, and what is not -/

/-- What a call does to the stored invoices and to what the client has received. -/
inductive Effect (call : Call) (s s' : State τ) : Prop where
  | stores (ids : s.ids ⊆ s'.ids) (received : s'.receivedIDs = s.receivedIDs)
      (arriving : call.arriving = [])
  | receives (after : InvoiceID) (limit : ℕ) (cursor : Cursor 0 s.receivedIDs after)
      (read : s.receivedIDs ⊆ s.read) (ids : s'.ids = s.ids)
      (arriving : call.arriving = page s.read after limit)
      (received : s'.receivedIDs = s.receivedIDs ++ page s.read after limit)

include uuids in
theorem exec_effect {t : Option τ} {call : Call} {s s' : State τ} {answer : Except Err call.Val}
    {turn : Turn} (sound : s.Sound) (pre : Pre t call s)
    (runs : call.run turn t s = some (answer, s')) : Effect call s s' := by
  have grows := (exec_sound uuids sound pre runs).2.1
  cases call with
  | stmt op =>
      obtain ⟨received, _⟩ := run_stmt (t := t) (by cases t <;> exact pre) runs
      refine .stores grows ?_ rfl
      rw [State.receivedIDs, received, State.receivedIDs]
  | newInvoiceID =>
      obtain ⟨id, _, _, rfl⟩ := run_newInvoiceID runs
      exact .stores grows rfl rfl
  | selectIDs after limit =>
      obtain ⟨_, rfl⟩ | ⟨_, rfl⟩ := run_selectIDs runs
      · exact .stores grows rfl rfl
      · exact .stores grows rfl rfl
  | receive texts =>
      cases t with
      | some t => exact pre.elim
      | none =>
          obtain ⟨after, limit, _, cursor, read, rfl⟩ := pre
          obtain rfl := run_receive runs
          exact .receives after limit cursor read rfl (idsOf_texts uuids _)
            (receivedIDs_append uuids s _)

section Effects

variable {call : Call} {s s' : State τ}

omit [DecidableEq τ] [Fintype τ] in
/-- An invoice that has been passed over stays so. -/
theorem Effect.skipped (effect : Effect call s s') {id : InvoiceID}
    (skipped : Skipped s.stored s.receivedIDs id) : Skipped s'.stored s'.receivedIDs id := by
  cases effect with
  | stores ids received arriving =>
      rw [received]
      exact skipped.add ids
  | receives after limit cursor read ids arriving received =>
      rw [received]
      refine (skipped.receive cursor).add fun id member => ?_
      rw [mem_stored, ids]
      exact member

omit [DecidableEq τ] [Fintype τ] in
/-- **In order, nothing is passed over.** -/
theorem Effect.complete (effect : Effect call s s') (sound : s.Sound) (order : InOrder call s s')
    (complete : Complete s.stored s.receivedIDs) : Complete s'.stored s'.receivedIDs := by
  cases effect with
  | stores ids received arriving =>
      rw [received]
      exact complete.add order.stored
  | receives after limit cursor read ids arriving received =>
      have same : s'.stored = s.stored := by rw [State.stored, ids, State.stored]
      rw [received, same]
      refine complete.receive cursor (fun id member => (sound.seven id member).pos) ?_
      rw [← arriving]
      exact order.arrives

omit [DecidableEq τ] [Fintype τ] in
/-- **Out of order, an invoice is passed over.** -/
theorem Effect.skips (effect : Effect call s s') (sound : s.Sound) (order : ¬ InOrder call s s') :
    ∃ id, Skipped s'.stored s'.receivedIDs id := by
  by_contra none
  refine order ?_
  cases effect with
  | stores ids received arriving =>
      refine ⟨fun id member new last found => ?_, fun _ _ _ _ impossible => ?_⟩
      · by_contra behind
        refine none ⟨id, member, fun again => ?_, last, received ▸ found, not_lt.mp behind⟩
        exact new (sound.received (received ▸ again))
      · rw [arriving] at impossible
        cases impossible
  | receives after limit cursor read ids arriving received =>
      refine ⟨fun id member new => absurd (ids ▸ member) new, fun id member unread last found => ?_⟩
      rw [arriving] at found
      by_contra behind
      refine none ⟨id, by rw [mem_stored, ids]; exact member, fun again => ?_, last, ?_,
        not_lt.mp behind⟩
      · rw [received] at again
        rcases List.mem_append.mp again with before | again
        · exact unread (read before)
        · exact unread (mem_of_mem_page again).1
      · rw [received]
        exact List.mem_append_right _ found

end Effects

/-- What the client is promised: it has received IDs of stored invoices, each once and in
increasing order; nothing up to the last one has been passed over; and an empty page
tells it that it has received all that was stored when the page was read. -/
structure Served (c : Running τ) : Prop where
  texts : c.state.received = c.state.receivedIDs.map Libraries.uuidString
  rises : c.state.receivedIDs.Pairwise (· < ·)
  received : c.state.receivedIDs ⊆ c.state.ids
  complete : Complete c.state.stored c.state.receivedIDs
  empty : ∀ next, c.pool none = some (.call (.receive []) next) →
    c.state.read ⊆ c.state.receivedIDs

/-- **A client that reads the history.** In a run in which every invoice is stored ahead of
it, it is served. Where one is stored behind it, there is an invoice that it never
receives. -/
theorem history_complete {handler : Handler} {db : Database} (uuids : UUIDTexts)
    (seven : ∀ row ∈ db.invoices.rows, Seven row.id) :
    (∀ c : Running τ, (system handler InOrder).Reachable (.idle (.start db)) c → Served c) ∧
      ∀ (c c' : Running τ) (t : Option τ) (call : Call) (turn : Turn)
        (next : Except Err call.Val → Request Unit) (answer : Except Err call.Val),
        (system handler anything).Reachable (.idle (.start db)) c →
        c.pool t = some (.call call next) → call.run turn t c.state = some (answer, c'.state) →
        c'.pool = Function.update c.pool t (some (next answer)) →
        ¬ InOrder call c.state c'.state →
        ∃ id, ∀ c'', (system handler anything).Reachable c' c'' →
          Skipped c''.state.stored c''.state.receivedIDs id := by
  have start : (State.start db : State τ).Sound := by
    refine ⟨fun id member => ?_, List.nodup_nil, List.nil_subset _, rfl, .nil, List.nil_subset _⟩
    obtain ⟨row, stored, rfl⟩ := List.mem_map.mp member
    exact seven row stored
  refine ⟨fun c run => ?_, ?_⟩
  · have sound : (contract handler (InOrder (τ := τ))).Sound := contract_sound uuids
    have kept := sound.reachable (.idle start) run
    have complete : Complete c.state.stored c.state.receivedIDs := by
      refine sound.invariant (J := fun s => Complete s.stored s.receivedIDs) ?_ (.idle start)
        (fun _ _ _ impossible => by cases impossible) run
      intro s s' move complete
      cases move with
      | spawn _ starts => exact starts.2 ▸ complete
      | exec inv pre answers =>
          obtain ⟨order, turn, runs⟩ := answers
          exact (exec_effect uuids inv pre runs).complete inv order complete
      | retire _ _ leaves => exact leaves ▸ complete
      | crash _ stops => exact stops.elim
    refine ⟨kept.inv.texts, kept.inv.rises, kept.inv.received, complete, fun next calls => ?_⟩
    obtain ⟨after, limit, asks, cursor, _, empty⟩ := kept.pre sound calls
    have none := List.map_eq_nil_iff.mp empty.symm
    intro id listed
    exact complete.mem_of_empty cursor (fun id member => (kept.inv.seven id member).pos) asks none
      listed (kept.inv.read listed)
  · intro c c' t call turn next answer run calls runs pool order
    have sound : (contract handler (anything (τ := τ))).Sound := contract_sound uuids
    have kept := sound.reachable (.idle start) run
    have step : (system handler anything).Step c c' := by
      obtain ⟨s, threads⟩ := c
      obtain ⟨s', threads'⟩ := c'
      subst pool
      exact .exec calls ⟨trivial, turn, runs⟩
    have kept' := (sound.step kept step).1
    have effect := exec_effect uuids kept.inv (kept.pre sound calls) runs
    obtain ⟨id, skipped⟩ := effect.skips kept.inv order
    refine ⟨id, fun c'' run' => ?_⟩
    refine sound.invariant (J := fun s => Skipped s.stored s.receivedIDs id) ?_ kept' skipped run'
    intro s s' move skipped
    cases move with
    | spawn _ starts => exact starts.2 ▸ skipped
    | exec inv pre answers =>
        obtain ⟨_, turn, runs⟩ := answers
        exact (exec_effect uuids inv pre runs).skipped skipped
    | retire _ _ leaves => exact leaves ▸ skipped
    | crash _ stops => exact stops.elim

/-! ## Schedules -/

/-- The next call of a thread, if the rule allows it. -/
def Running.advance (rule : Rule τ) [∀ call s s', Decidable (rule call s s')] (c : Running τ)
    (turn : Option τ × Turn) : Option (Running τ) :=
  match c.pool turn.1 with
  | some (.call call next) =>
      (call.run turn.2 turn.1 c.state).bind fun done =>
        if rule call c.state done.2 then
          some ⟨done.2, Function.update c.pool turn.1 (some (next done.1))⟩
        else none
  | _ => none

theorem Running.advance_step {rule : Rule τ} [∀ call s s', Decidable (rule call s s')]
    {c c' : Running τ} {turn : Option τ × Turn} (advances : c.advance rule turn = some c') :
    (system handler rule).Step c c' := by
  obtain ⟨s, pool⟩ := c
  unfold advance at advances
  split at advances
  · rename_i call next calls
    obtain ⟨⟨answer, s'⟩, runs, allowed⟩ := Option.bind_eq_some_iff.mp advances
    rw [Option.ite_none_right_eq_some, Option.some.injEq] at allowed
    obtain ⟨allowed, rfl⟩ := allowed
    exact .exec calls ⟨allowed, turn.2, runs⟩
  · cases advances

/-- **What a schedule leads to is reachable.** -/
theorem Running.reachable_of_schedule {rule : Rule τ} [∀ call s s', Decidable (rule call s s')]
    {turns : List (Option τ × Turn)} {start c c' : Running τ}
    (run : (system handler rule).Reachable start c)
    (leads : turns.foldlM (Running.advance rule) c = some c') :
    (system handler rule).Reachable start c' := by
  induction turns generalizing c with
  | nil =>
      cases leads
      exact run
  | cons first rest ih =>
      rw [List.foldlM_cons] at leads
      obtain ⟨c₁, advances, leads⟩ := Option.bind_eq_some_iff.mp leads
      exact ih (run.tail (advance_step advances)) leads

end Runs

/-! ## Two requests and a client -/

namespace Shop

attribute [local instance] Texts.libraries

theorem uuids : UUIDTexts := ⟨Texts.parseUUID_uuidString, Texts.uuidString_ne⟩

def handler : Handler := ⟨Shop.printing, none, "shop", ""⟩

/-- The shop has no invoice yet. -/
def noInvoices : Database := { Shop.database with invoices := .empty }

/-- A request for an invoice over 10 TON. -/
def body : Option (Except String NewInvoice) :=
  some (.ok ⟨"10", "TON", 60, none, ⟨"Shop", "", "", none, 0⟩⟩)

def lower : InvoiceID := 0x70000000000000000001

def higher : InvoiceID := 0x70000000000000000002

/-- Two requests and a client that asks twice for one invoice. -/
def requests (handler : Handler) : Option Bool → Option (Request Unit)
  | some _ => some (createInvoice handler Shop.merchant body >>= fun _ => return ())
  | none => some (poll handler ["1", "1"] "")

/-- A statement of a thread runs. -/
def does (t : Option Bool) : Option Bool × Turn := (t, .stmt .none (Shop.at' 0))

/-- A request reads the clock and draws its ID. -/
def draws (t : Bool) (id : InvoiceID) : List (Option Bool × Turn) := [does (some t), (some t, .draw id)]

/-- A request stores its invoice and the row of the outbox. -/
def stores (t : Bool) : List (Option Bool × Turn) := List.replicate 4 (does (some t))

/-- The client reads a page of one invoice, and receives it. -/
def reads : List (Option Bool × Turn) := [(none, .answers), does none, does none, (none, .answers)]

/-- The client asks for the next page, and finds it empty. -/
def readsEmpty : List (Option Bool × Turn) := [does none, does none, (none, .answers)]

theorem begun (rule : Rule Bool) :
    (system handler rule).Reachable (.idle (.start noInvoices))
      ⟨.start noInvoices, requests handler⟩ := by
  have first : (system handler rule).Step (.idle (.start noInvoices)) ⟨.start noInvoices,
      Function.update (fun _ => none) (some false) (requests handler (some false))⟩ :=
    .spawn rfl ⟨.create false Shop.merchant body, rfl⟩
  have second : (system handler rule).Step _ ⟨.start noInvoices, Function.update (Function.update
      (fun _ => none) (some false) (requests handler (some false))) (some true)
        (requests handler (some true))⟩ :=
    .spawn rfl ⟨.create true Shop.merchant body, rfl⟩
  have asks : ∀ query ∈ ["1", "1"], ∃ limit, readLimit query = .ok limit ∧ 0 < limit := by
    intro query member
    simp only [List.mem_cons, List.not_mem_nil, or_false, or_self] at member
    subst member
    exact ⟨1, by decide +kernel, by decide⟩
  have third : (system handler rule).Step _ ⟨.start noInvoices, Function.update (Function.update
      (Function.update (fun _ => none) (some false) (requests handler (some false))) (some true)
        (requests handler (some true))) none (requests handler none)⟩ :=
    .spawn rfl ⟨.client ["1", "1"] asks, rfl⟩
  have pools : requests handler = Function.update (Function.update (Function.update
      (fun _ => none) (some false) (requests handler (some false)))
      (some true) (requests handler (some true))) none (requests handler none) := by
    funext t
    match t with
    | none => rfl
    | some false => rfl
    | some true => rfl
  rw [pools]
  exact .tail (.tail (.single first) second) third

theorem received_in_order : ∃ c : Running Bool,
    (system handler InOrder).Reachable (.idle (.start noInvoices)) c ∧ Served c ∧
      c.state.receivedIDs = [lower, higher] := by
  have leads : (((draws false lower ++ stores false ++ reads ++ draws true higher ++ stores true ++
      readsEmpty ++ reads.tail).foldlM (Running.advance InOrder)
        ⟨.start noInvoices, requests handler⟩).map fun c =>
          decide (c.state.receivedIDs = [lower, higher])) = some true := by decide +kernel
  obtain ⟨c, leads, received⟩ := Option.map_eq_some_iff.mp leads
  have run := Running.reachable_of_schedule (begun InOrder) leads
  exact ⟨c, run, (history_complete uuids fun row member => by cases member).1 c run,
    of_decide_eq_true received⟩

/-- The threads of the requests have ended, and the client is about to receive an empty page,
which was read when both invoices were stored. The lower one has not been received. -/
def missed (c : Running Bool) : Bool :=
  ended (c.pool (some false)) && ended (c.pool (some true)) && decide (c.state.read = c.state.ids) &&
    receivesNothing (c.pool none) && c.state.ids.contains lower && !c.state.receivedIDs.contains lower
where
  ended : Option (Request Unit) → Bool
    | some (.call _ _) => false
    | _ => true
  receivesNothing : Option (Request Unit) → Bool
    | some (.call (.receive []) _) => true
    | _ => false

/-- The request that has drawn the lower ID stores its invoice last, behind the client. -/
theorem passed_over : ¬ ∀ c : Running Bool,
    (system handler anything).Reachable (.idle (.start noInvoices)) c → c.Quiet →
    c.state.read = c.state.ids → (∃ next, c.pool none = some (.call (.receive []) next)) →
    c.state.ids ⊆ c.state.receivedIDs := by
  intro served
  have leads : (((draws false lower ++ draws true higher ++ stores true ++ reads ++ stores false ++
      readsEmpty).foldlM (Running.advance anything) ⟨.start noInvoices, requests handler⟩).map
        missed) = some true := by decide +kernel
  obtain ⟨c, leads, holds⟩ := Option.map_eq_some_iff.mp leads
  simp only [missed, Bool.and_eq_true, decide_eq_true_eq] at holds
  obtain ⟨⟨⟨⟨⟨first, second⟩, read⟩, empty⟩, stored⟩, unread⟩ := holds
  have ended : ∀ {program : Option (Request Unit)}, missed.ended program = true →
      ∀ call next, program ≠ some (.call call next) := by
    rintro _ ended call next rfl
    cases ended
  have quiet : c.Quiet := by
    intro t
    cases t with
    | false => exact ended first
    | true => exact ended second
  have arrives : ∃ next, c.pool none = some (.call (.receive []) next) := by
    generalize c.pool none = program at empty
    unfold missed.receivesNothing at empty
    split at empty
    · exact ⟨_, rfl⟩
    · cases empty
  have run := Running.reachable_of_schedule (begun anything) leads
  have received := served c run quiet read arrives (List.contains_iff_mem.mp stored)
  rw [List.contains_iff_mem.mpr received] at unread
  cases unread

end Shop

end Listing

end SpiceHarvester
