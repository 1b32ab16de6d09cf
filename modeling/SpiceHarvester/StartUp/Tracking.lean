import SpiceHarvester.Api.NewInvoice
import SpiceHarvester.Interleaving.Log
import SpiceHarvester.Schedule
import SpiceHarvester.StartUp.Discovery

/-!
# Every account is tracked, or an error is logged

`main` hands every account that receives a currency over before it serves. What
`runIndexer` then does with an account hangs on one query: where `LastProcessedLT` fails,
the error is logged and no worker starts. So every currency that `createInvoice` accepts is
tracked by exactly one loader and one indexer if and only if this query fails for no
account (`tracks_iff`).
-/

set_option autoImplicit false

namespace SpiceHarvester

open Interleaving Sql

namespace StartUp

/-- `LastProcessedLT` has failed for an account. -/
def Refused (log : List (Called Call Call.Val Err)) (address : AccountID) : Prop :=
  ⟨.selectLastProcessed address, .error .failed⟩ ∈ log

section Tracking

variable [Libraries] {chain : Chain}

/-- Exactly one loader and one indexer run for the account. -/
def Process.Tracks (p : Process) (address : AccountID) : Prop :=
  (p.loaders.map Account.accountID).count address = 1 ∧
    ((p.indexers.map Prod.fst).map Account.accountID).count address = 1

/-- `createInvoice` accepts an invoice over the currency. -/
def Config.Accepts (config : Config) (currency : Currency) : Prop :=
  ∃ (handler : Handler) (newInvoice : NewInvoice) (id : InvoiceID) (now : Time) (invoice : Invoice),
    handler.printing.currencies = config.currencies.entries ∧
      convertNewInvoice handler newInvoice config.recipient id now = .ok invoice ∧
      invoice.currency = currency

/-! ## One account -/

/-- The query of an account that is stored fails for the outside, or answers. -/
theorem selectLastProcessed_cases {address : AccountID} {p p' : Process} {answer : Except Err ℕ}
    (stored : p.Stored address) (does : (Call.selectLastProcessed address).Does chain p answer p') :
    p' = p ∧ (answer = .error .failed ∨ ∃ lt, answer = .ok lt) := by
  obtain ⟨row, found⟩ := Option.isSome_iff_exists.mp stored
  have ran : ∀ {choice : Choice} {answer : Except Err ℕ},
      (Call.selectLastProcessed address).run chain choice p = some (answer, p') →
      p' = p ∧ ∃ lt, answer = .ok lt := by
    intro choice answer runs
    simp only [Call.run, found, Option.map_some, orNoRows, Option.some.injEq, Prod.mk.injEq] at runs
    exact ⟨runs.2.symm, _, runs.1.symm⟩
  rcases does.cases with ⟨_, runs⟩ | ⟨_, same, rfl | ⟨_, _, runs⟩⟩
  · exact ⟨(ran runs).1, .inr (ran runs).2⟩
  · exact ⟨rfl, .inl same⟩
  · exact ⟨(ran runs).1, .inl same⟩

/-- To start a worker does not fail. -/
theorem goes {account : Account} {lt : ℕ} {p p' : Process}
    {log : List (Called Call Call.Val Err)} {result : Except Err Unit}
    (runs : Alone (Call.Does chain) (do
      perform (.goLoader account)
      perform (.goIndexer account lt)) p log result p') :
    p'.tables = p.tables ∧ (∀ address, ¬ Refused log address) ∧
      p'.loaders = p.loaders ++ [account] ∧ p'.indexers = p.indexers ++ [(account, lt)] := by
  have loader : ∀ {p₁ : Process} {answer : Except Err Unit},
      (Call.goLoader account).Does chain p answer p₁ →
        answer = .ok () ∧ p₁ = { p with loaders := p.loaders ++ [account] } := by
    intro p₁ answer does
    rcases does.cases with ⟨_, ran⟩ | ⟨impossible, _⟩
    · simp only [Call.run, Option.some.injEq, Prod.mk.injEq] at ran
      exact ⟨ran.1.symm, ran.2.symm⟩
    · cases impossible
  rcases Alone.bind_cases runs with ⟨error, first, _⟩ | ⟨_, p₁, _, _, first, later, rfl⟩
  · cases (loader (Alone.query_cases first).1).1
  · obtain ⟨does, rfl⟩ := Alone.query_cases first
    obtain ⟨_, rfl⟩ := loader does
    obtain ⟨does', rfl⟩ := Alone.query_cases later
    rcases does'.cases with ⟨_, ran⟩ | ⟨impossible, _⟩
    · cases ran
      refine ⟨rfl, fun address refused => ?_, rfl, rfl⟩
      simp [Refused] at refused
    · cases impossible

/-- **What `trackAccount` comes to** for an account that is stored: both workers start, or
the query has failed and none does. -/
theorem trackAccount_cases {account : Account} {p p' : Process}
    {log : List (Called Call Call.Val Err)} {result : Except Err Unit}
    (stored : p.Stored account.accountID)
    (runs : Alone (Call.Does chain) (trackAccount account) p log result p') :
    p'.tables = p.tables ∧
      (∀ address, Refused log address → address = account.accountID) ∧
      (Refused log account.accountID ∧ p'.loaders = p.loaders ∧ p'.indexers = p.indexers ∨
        ¬ Refused log account.accountID ∧ p'.loaders = p.loaders ++ [account] ∧
          ∃ lt, p'.indexers = p.indexers ++ [(account, lt)]) := by
  rcases Alone.bind_cases runs with ⟨error, first, _⟩ | ⟨lt, p₁, _, log', first, later, rfl⟩
  · obtain ⟨does, rfl⟩ := Alone.query_cases first
    obtain ⟨rfl, failed | ⟨_, answered⟩⟩ := selectLastProcessed_cases stored does
    · cases failed
      refine ⟨rfl, fun address refused => ?_, .inl ⟨List.mem_singleton.mpr rfl, rfl, rfl⟩⟩
      cases List.mem_singleton.mp refused
      rfl
    · cases answered
  · obtain ⟨does, rfl⟩ := Alone.query_cases first
    obtain ⟨rfl, _⟩ := selectLastProcessed_cases stored does
    obtain ⟨tables, calm, loaders, indexers⟩ := goes later
    have none : ∀ address, ¬ Refused
        ([⟨.selectLastProcessed account.accountID, .ok lt⟩] ++ log') address := by
      intro address refused
      rcases List.mem_append.mp refused with first | later
      · cases List.mem_singleton.mp first
      · exact calm address later
    exact ⟨tables, fun address refused => absurd refused (none address),
      .inr ⟨none _, loaders, lt, indexers⟩⟩

/-! ## All accounts -/

/-- What has become of the accounts that have been handled. -/
structure Handled (order : List Account) (log : List (Called Call Call.Val Err)) (h : HandOff)
    (done : List Account) : Prop where
  parts : order = done ++ (h.taken.toList ++ h.unsent)
  stored : ∀ account ∈ order, h.process.Stored account.accountID
  loaders : h.process.loaders.Sublist done
  indexers : h.process.indexers.map Prod.fst = h.process.loaders
  refused : ∀ address, Refused log address → address ∈ done.map Account.accountID
  tracked : ∀ account ∈ done, account ∈ h.process.loaders ↔ ¬ Refused log account.accountID

omit [Libraries] in
theorem refused_append {log log' : List (Called Call Call.Val Err)} {address : AccountID} :
    Refused (log ++ log') address ↔ Refused log address ∨ Refused log' address := List.mem_append

/-- **One step of `main` and `runIndexer`.** -/
theorem Handled.step {order done : List Account} {log log' : List (Called Call Call.Val Err)}
    {h h' : HandOff} (distinct : (order.map Account.accountID).Nodup)
    (handled : Handled order log h done) (step : HandOff.Step chain h log' h') :
    ∃ done', Handled order (log ++ log') h' done' := by
  obtain ⟨same, stored, loaders, indexers, refused, tracked⟩ := handled
  cases step with
  | send =>
      refine ⟨done, ⟨?_, stored, loaders, indexers, ?_, ?_⟩⟩
      · exact same
      · rwa [List.append_nil]
      · rwa [List.append_nil]
  | work works =>
      refine ⟨done, ⟨same, fun account member => ?_, loaders, indexers, ?_, ?_⟩⟩
      · have before := stored account member
        rw [Process.Stored, ← works.accounts] at before
        exact before
      · rwa [List.append_nil]
      · rwa [List.append_nil]
  | @track p p' unsent account _ result runs =>
      have next : order = (done ++ [account]) ++ unsent := by simpa using same
      have here : account ∈ order := by simp [next]
      have new : account.accountID ∉ done.map Account.accountID := by
        rw [next, List.map_append, List.map_append, List.nodup_append] at distinct
        have apart := (List.nodup_append.mp distinct.1).2.2
        intro member
        exact apart _ member _ (List.mem_singleton.mpr rfl) rfl
      have later : ∀ {other}, other ∈ done → ¬ Refused log' other.accountID := by
        intro other member refused'
        exact new ((trackAccount_cases (stored account here) runs).2.1 _ refused' ▸
          List.mem_map_of_mem member)
      have fresh : ¬ Refused log account.accountID := fun early => new (refused _ early)
      obtain ⟨tables, only, started⟩ := trackAccount_cases (stored account here) runs
      have stored' : ∀ other ∈ order, p'.Stored other.accountID := by
        intro other member
        rw [Process.Stored, tables]
        exact stored other member
      have refused' : ∀ address, Refused (log ++ log') address →
          address ∈ (done ++ [account]).map Account.accountID := by
        intro address either
        rw [List.map_append, List.mem_append]
        rcases refused_append.mp either with early | late
        · exact .inl (refused address early)
        · exact .inr (List.mem_singleton.mpr (only address late))
      have absent : account ∉ p.loaders := fun member =>
        new (List.mem_map_of_mem (loaders.subset member))
      rcases started with ⟨failed, sameLoaders, sameIndexers⟩ | ⟨calm, moreLoaders, lt, moreIndexers⟩
      · refine ⟨done ++ [account], ⟨next, stored', ?_, ?_, refused', fun other member => ?_⟩⟩
        · exact sameLoaders ▸ loaders.trans (List.sublist_append_left _ _)
        · rw [sameIndexers, sameLoaders]
          exact indexers
        · rw [sameLoaders, refused_append]
          rcases List.mem_append.mp member with old | last
          · simp only [tracked other old, later old, or_false]
          · rw [List.mem_singleton.mp last]
            simp only [absent, failed, or_true, not_true]
      · refine ⟨done ++ [account], ⟨next, stored', ?_, ?_, refused', fun other member => ?_⟩⟩
        · exact moreLoaders ▸ loaders.append_right _
        · rw [moreIndexers, moreLoaders, List.map_append, indexers]
          rfl
        · rw [moreLoaders, refused_append, List.mem_append, List.mem_singleton]
          rcases List.mem_append.mp member with old | last
          · have ne : other ≠ account := by
              rintro rfl
              exact new (List.mem_map_of_mem old)
            simp only [tracked other old, later old, ne, or_false]
          · rw [List.mem_singleton.mp last]
            simp only [absent, fresh, calm, or_true, or_false, not_false_eq_true]

/-- The same for any number of steps, from the state in which `main` enters its loop. -/
theorem handled_of_steps {p : Process} {order : List Account} (sound : p.Sound chain)
    (prepared : Prepared chain p order) {log : List (Called Call Call.Val Err)} {h : HandOff}
    (steps : HandOff.Steps chain ⟨p, order, none⟩ log h) :
    ∃ done, Handled order log h done := by
  induction steps with
  | refl =>
      refine ⟨[], ⟨rfl, prepared.stored, ?_, ?_, fun _ none => (nomatch none),
        fun _ none => (nomatch none)⟩⟩
      · rw [sound.loaders]
      · rw [sound.indexers, sound.loaders]
        rfl
  | tail before step ih =>
      obtain ⟨done, handled⟩ := ih
      exact handled.step prepared.distinct step

/-- An account is tracked exactly if its query has not failed. -/
theorem Handled.tracks_receiver_iff {order : List Account} {log : List (Called Call Call.Val Err)}
    {p : Process} {done : List Account} (distinct : (order.map Account.accountID).Nodup)
    (handled : Handled order log ⟨p, [], none⟩ done) {account : Account}
    (member : account ∈ order) : p.Tracks account.accountID ↔ ¬ Refused log account.accountID := by
  have all : order = done := by simpa using handled.parts
  have unique : (p.loaders.map Account.accountID).Nodup :=
    distinct.sublist (all ▸ handled.loaders.map _)
  rw [← handled.tracked account (all ▸ member), Process.Tracks, handled.indexers, and_self]
  constructor
  · intro one
    obtain ⟨other, running, same⟩ := List.mem_map.mp (List.count_pos_iff.mp (one ▸ Nat.one_pos))
    have equal : other = account :=
      List.inj_on_of_nodup_map distinct (all ▸ handled.loaders.subset running) member same
    exact equal ▸ running
  · intro running
    exact List.count_eq_one_of_mem unique (List.mem_map_of_mem running)

/-! ## The result -/

omit [Libraries] in
/-- Every currency of the configuration is accepted, in a request that is otherwise
valid, and no other. -/
theorem Config.accepts_iff {config : Config} {currency : Currency} :
    config.Accepts currency ↔ ∃ entry ∈ config.currencies.entries, entry.2.currency = currency := by
  constructor
  · rintro ⟨handler, newInvoice, id, now, invoice, lists, converted, same⟩
    obtain ⟨extended, found, equal⟩ := listed_of_convertNewInvoice converted
    obtain ⟨before, after, split, _⟩ := List.lookup_eq_some_iff.mp (lists ▸ found)
    exact ⟨(newInvoice.currency, extended), by simp [split], equal.symm.trans same⟩
  · rintro ⟨entry, member, rfl⟩
    have listed := lookup_of_mem config.currencies.distinct member
    have checked : NewInvoice.checked ⟨"1", entry.1, 1, none, ⟨"shop", "", "", none, 0⟩⟩ = .ok 1 := by
      have parsed : parseDecimal "1" = some 1 := parseDecimal_toString 1
      unfold NewInvoice.checked
      rw [parsed]
      rfl
    let handler : Handler := ⟨⟨[], config.currencies.entries, none⟩, none, "", ""⟩
    have offered : handler.printing.currencies.lookup entry.1 = some entry.2 := listed
    obtain ⟨invoice, converted⟩ :=
      convertNewInvoice_accepts checked offered rfl config.recipient 0 0
    obtain ⟨extended, found, same⟩ := listed_of_convertNewInvoice converted
    have equal : extended = entry.2 := Option.some.inj (found.symm.trans listed)
    exact ⟨_, _, _, _, invoice, rfl, converted, equal ▸ same⟩

/-- **Every accepted currency is tracked, exactly if no query of `LastProcessedLT` fails.** -/
theorem tracks_iff {first : Config} {c : Starting} (run : StartUps chain first c)
    {order : List Account} (ended : c.pool () = some (.ret (.ok order)))
    {log : List (Called Call Call.Val Err)} {p : Process}
    (handled : HandOff.Steps chain ⟨c.state, order, none⟩ log ⟨p, [], none⟩) :
    (∀ currency, c.state.config.Accepts currency →
      p.Tracks (receiver chain c.state.config.recipient currency)) ↔
    ∀ account ∈ order, ¬ Refused log account.accountID := by
  obtain ⟨sound, prepared⟩ := prepared_of_run run ended
  obtain ⟨done, handled⟩ := handled_of_steps sound prepared handled
  constructor
  · intro tracked account member
    obtain ⟨entry, listed, same⟩ := (prepared.expected account member).listed
    have tracks := tracked entry.2.currency (Config.accepts_iff.mpr ⟨entry, listed, rfl⟩)
    rw [same] at tracks
    exact (handled.tracks_receiver_iff prepared.distinct member).mp tracks
  · intro calm currency accepted
    obtain ⟨entry, listed, rfl⟩ := Config.accepts_iff.mp accepted
    obtain ⟨account, member, same⟩ := List.mem_map.mp (prepared.covers entry listed)
    rw [← same]
    exact (handled.tracks_receiver_iff prepared.distinct member).mpr (calm account member)

end Tracking

/-! ## A first start -/

namespace Shop

open SpiceHarvester.Shop

attribute [local instance] Texts.libraries

/-- The merchant takes TON. -/
def config : Config := ⟨merchant, .default⟩

/-- Each jetton has the payer's wallet. -/
def chain : Chain := ⟨fun _ _ => payer⟩

/-- Maps are visited in their order, and the last transaction of an account has LT 5. -/
def calm : (op : Call) → Process → Option (Except Err op.Val × Process)
  | .rangeCurrencies currencies, p =>
      Call.run chain ⟨0, currencies, [], [], 1, ⟨5, 0⟩⟩ (.rangeCurrencies currencies) p
  | .rangeAccounts accounts, p =>
      Call.run chain ⟨0, [], accounts, [], 1, ⟨5, 0⟩⟩ (.rangeAccounts accounts) p
  | .selectTracked owner jettons, p =>
      Call.run chain ⟨0, [], [], p.tables.tracked owner jettons, 1, ⟨5, 0⟩⟩
        (.selectTracked owner jettons) p
  | op, p => Call.run chain ⟨0, [], [], [], 1, ⟨5, 0⟩⟩ op p

theorem does_of_calm (op : Call) (p : Process) (answer : Except Err op.Val) (p' : Process)
    (answered : calm op p = some (answer, p')) : op.Does chain p answer p' := by
  unfold calm at answered
  split at answered <;> exact ⟨.none, _, answered⟩

/-- The account of the merchant. -/
def account : Account := ⟨merchant, ⟨5, merchant, none⟩⟩

/-- The first start finds the merchant's own account. -/
theorem first_start : ∃ c : Starting, StartUps chain config c ∧
    c.pool () = some (.ret (.ok [account])) := by
  have found : ((prepare config).eval calm (.start config .empty)).map
      (fun done => match done.1 with
        | .ok order => decide (order = [account])
        | .error _ => false) = some true := by decide +kernel
  obtain ⟨⟨result, p⟩, ended, same⟩ := Option.map_eq_some_iff.mp found
  obtain ⟨log, runs⟩ := Alone.of_eval does_of_calm ended
  have ok : result = .ok [account] := by
    cases result with
    | ok order => exact congrArg Except.ok (of_decide_eq_true same)
    | error _ => cases same
  subst ok
  have start : (system chain).Step (.idle (.start config .empty))
      ⟨.start config .empty, Function.update (fun _ => none) () (some (prepare config))⟩ :=
    .spawn rfl ⟨config, rfl, rfl⟩
  have held : Function.update (fun _ => none) () (some (prepare config)) () =
      some (prepare config) := Function.update_self ..
  have later : (system chain).Reachable _ _ := Alone.reachable (S := system chain) runs held
  exact ⟨_, .head start later, rfl⟩

/-- The merchant's account is handed over. -/
theorem handed {p p' : Process} {log : List (Called Call Call.Val Err)}
    {result : Except Err Unit}
    (runs : Alone (Call.Does chain) (trackAccount account) p log result p') :
    HandOff.Steps chain ⟨p, [account], none⟩ log ⟨p', [], none⟩ := by
  have sent : HandOff.Step chain ⟨p, [account], none⟩ [] ⟨p, [], some account⟩ := .send
  exact .tail (.tail .refl sent) (.track runs)

/-- Where the query answers, TON is tracked. -/
theorem first_start_tracked : ∃ (c : Starting) (log : List (Called Call Call.Val Err)) (p : Process),
    StartUps chain config c ∧ HandOff.Steps chain ⟨c.state, [account], none⟩ log ⟨p, [], none⟩ ∧
      c.state.config.Accepts .ton ∧ p.Tracks (receiver chain c.state.config.recipient .ton) := by
  obtain ⟨c, run, ended⟩ := first_start
  obtain ⟨sound, prepared⟩ := prepared_of_run run ended
  obtain ⟨row, found⟩ := Option.isSome_iff_exists.mp (prepared.stored account List.mem_cons_self)
  have answers : (Call.selectLastProcessed merchant).Does chain c.state (.ok row.lastProcessedLt)
      c.state := ⟨.none, ⟨0, [], [], [], 1, ⟨5, 0⟩⟩, by
        change some (orNoRows ((c.state.tables.accounts.find merchant).map _), c.state) = _
        rw [show c.state.tables.accounts.find merchant = some row from found]
        rfl⟩
  have runs : Alone (Call.Does chain) (trackAccount account) c.state _ (.ok ()) _ :=
    .bind (.query answers) (.bind (.query ⟨.none, ⟨0, [], [], [], 1, ⟨5, 0⟩⟩, rfl⟩)
      (.query ⟨.none, ⟨0, [], [], [], 1, ⟨5, 0⟩⟩, rfl⟩))
  have accepts : c.state.config.Accepts .ton :=
    Config.accepts_iff.mpr ⟨_, c.state.config.currencies.ton, rfl⟩
  refine ⟨c, _, _, run, handed runs, accepts, (tracks_iff run ended (handed runs)).mpr ?_ .ton accepts⟩
  intro other _ refused
  simp [Refused] at refused

/-- Where it fails once, nobody ever looks for payments in TON. -/
theorem first_start_untracked :
    ∃ (c : Starting) (log : List (Called Call Call.Val Err)) (p : Process),
      StartUps chain config c ∧ c.pool () = some (.ret (.ok [account])) ∧
        HandOff.Steps chain ⟨c.state, [account], none⟩ log ⟨p, [], none⟩ ∧
        c.state.config.Accepts .ton ∧
        ¬ p.Tracks (receiver chain c.state.config.recipient .ton) := by
  obtain ⟨c, run, ended⟩ := first_start
  have idle := (prepared_of_run run ended).1.loaders
  have runs : Alone (Call.Does chain) (trackAccount account) c.state _ (.error .failed) c.state :=
    .bind_error (.query ⟨.refused, ⟨0, [], [], [], 1, ⟨5, 0⟩⟩, rfl⟩)
  refine ⟨c, _, _, run, ended, handed runs,
    Config.accepts_iff.mpr ⟨_, c.state.config.currencies.ton, rfl⟩, fun tracks => ?_⟩
  have one := tracks.1
  rw [idle] at one
  cases one

end Shop

end StartUp

end SpiceHarvester
