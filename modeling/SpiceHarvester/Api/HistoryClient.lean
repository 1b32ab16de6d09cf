import SpiceHarvester.Api.HistoryRuns
import SpiceHarvester.Interleaving.Triple
import SpiceHarvester.Lists

/-!
# What the client of the history does

Whatever the requests do beside it, the client asks for the invoices after the last one
that it has received, and what arrives is a page of those stored when it was read
(`poll_triple`). So what it receives are stored invoices, each once and in increasing
order (`State.Sound`). The requests store invoices with the IDs that they have drawn
(`createInvoice_triple`).
-/

set_option autoImplicit false

namespace SpiceHarvester

open Interleaving Sql

namespace Listing

section Runs

variable [Libraries] {τ : Type} [DecidableEq τ] [Fintype τ]

/-! ## What the client may rely on -/

/-- The text of a UUID is read back, and is not empty. -/
structure UUIDTexts : Prop where
  parse : ∀ id : UUID, Libraries.parseUUID (Libraries.uuidString id) = .ok id
  ne : ∀ id : UUID, Libraries.uuidString id ≠ ""

namespace State

/-- The client has received IDs of stored invoices, each once and in increasing order. -/
structure Sound (s : State τ) : Prop where
  seven : ∀ id ∈ s.ids, Seven id
  distinct : s.read.Nodup
  read : s.read ⊆ s.ids
  texts : s.received = s.receivedIDs.map Libraries.uuidString
  rises : s.receivedIDs.Pairwise (· < ·)
  received : s.receivedIDs ⊆ s.ids

/-- The texts are a page that has been read from the last ID received. -/
def Page (s : State τ) (texts : List String) : Prop :=
  ∃ after limit, 0 < limit ∧ Cursor 0 s.receivedIDs after ∧ s.receivedIDs ⊆ s.read ∧
    texts = (page s.read after limit).map Libraries.uuidString

end State

/-- What holds when a thread calls. -/
def Pre (t : Option τ) (call : Call) (s : State τ) : Prop :=
  match t, call with
  | _, .stmt op => Creates op
  | _, .newInvoiceID => True
  | none, .selectIDs after limit => 0 < limit ∧ Cursor 0 s.receivedIDs after
  | none, .receive texts => s.Page texts
  | some _, _ => False

/-- Nobody else receives for the client. -/
def contract (handler : Handler) (rule : Rule τ) : Contract (system handler rule) where
  rely t s s' := t = none → s'.received = s.received ∧ s'.read = s.read
  inv := State.Sound
  pre := Pre
  post _ _ _ := True

variable {handler : Handler} {rule : Rule τ} (uuids : UUIDTexts)

theorem contract_closed : (contract handler rule).Closed where
  rely_refl _ _ _ := ⟨rfl, rfl⟩
  rely_trans first later client :=
    ⟨(later client).1.trans (first client).1, (later client).2.trans (first client).2⟩

include uuids in
/-- The texts of IDs stand for them. -/
theorem idsOf_texts (ids : List InvoiceID) : idsOf (ids.map Libraries.uuidString) = ids := by
  have back : ((fun text => (Libraries.parseUUID text).toOption) ∘ Libraries.uuidString) = some := by
    funext id
    rw [Function.comp_apply, uuids.parse id]
    rfl
  rw [idsOf, List.filterMap_map, back, List.filterMap_some]

include uuids in
omit [DecidableEq τ] [Fintype τ] in
theorem receivedIDs_append (s : State τ) (new : List InvoiceID) :
    ({ s with received := s.received ++ new.map Libraries.uuidString } : State τ).receivedIDs =
      s.receivedIDs ++ new := by
  change idsOf (s.received ++ new.map Libraries.uuidString) = idsOf s.received ++ new
  rw [idsOf, List.filterMap_append, ← idsOf, ← idsOf, idsOf_texts uuids]

include uuids in
omit [DecidableEq τ] [Fintype τ] in
/-- A page keeps the client sound. -/
theorem State.Sound.receive {s : State τ} (sound : s.Sound) {texts : List String}
    (reads : s.Page texts) : ({ s with received := s.received ++ texts } : State τ).Sound := by
  obtain ⟨after, limit, _, cursor, _, rfl⟩ := reads
  have ids := receivedIDs_append uuids s (page s.read after limit)
  refine ⟨sound.seven, sound.distinct, sound.read, ?_, ?_, ?_⟩
  · rw [ids, List.map_append, ← sound.texts]
  · rw [ids]
    exact cursor.pairwise_append sound.rises sound.distinct
  · rw [ids]
    intro id member
    rcases List.mem_append.mp member with before | member
    · exact sound.received before
    · exact sound.read (mem_of_mem_page member).1

include uuids in
/-- **What a call leaves of the invariant**, and of what the client has received. -/
theorem exec_sound {t : Option τ} {call : Call} {s s' : State τ}
    {answer : Except Err call.Val} {turn : Turn} (sound : s.Sound) (pre : Pre t call s)
    (runs : call.run turn t s = some (answer, s')) :
    s'.Sound ∧ s.ids ⊆ s'.ids ∧ (t ≠ none → s'.received = s.received ∧ s'.read = s.read) := by
  cases call with
  | stmt op =>
      obtain ⟨received, read, ⟨new, ids, seven⟩, _⟩ := run_stmt (t := t) (by cases t <;> exact pre) runs
      have same : s'.receivedIDs = s.receivedIDs := by
        rw [State.receivedIDs, received, State.receivedIDs]
      have grows : s.ids ⊆ s'.ids := by
        rw [ids]
        exact List.subset_append_left _ _
      refine ⟨⟨?_, ?_, ?_, ?_, ?_, ?_⟩, grows, fun _ => ⟨received, read⟩⟩
      · rw [ids]
        intro id member
        rcases List.mem_append.mp member with before | added
        · exact sound.seven id before
        · exact seven id added
      · rw [read]
        exact sound.distinct
      · rw [read]
        exact List.Subset.trans sound.read grows
      · rw [received, same]
        exact sound.texts
      · rw [same]
        exact sound.rises
      · rw [same]
        exact List.Subset.trans sound.received grows
  | newInvoiceID =>
      obtain ⟨id, _, _, rfl⟩ := run_newInvoiceID runs
      exact ⟨⟨sound.seven, sound.distinct, sound.read, sound.texts, sound.rises, sound.received⟩,
        List.Subset.refl _, fun _ => ⟨rfl, rfl⟩⟩
  | selectIDs after limit =>
      cases t with
      | some t => exact pre.elim
      | none =>
          obtain ⟨_, rfl⟩ | ⟨_, rfl⟩ := run_selectIDs runs
          · exact ⟨⟨sound.seven, s.world.db.invoices.unique, List.Subset.refl _, sound.texts,
              sound.rises, sound.received⟩, List.Subset.refl _, fun other => absurd rfl other⟩
          · exact ⟨sound, List.Subset.refl _, fun other => absurd rfl other⟩
  | receive texts =>
      cases t with
      | some t => exact pre.elim
      | none =>
          obtain rfl := run_receive runs
          exact ⟨sound.receive uuids pre, List.Subset.refl _, fun other => absurd rfl other⟩

/-! ## The programs keep the contract -/

section Programs

variable {α : Type} {t : Option τ}

/-- What a statement leaves of an assertion about the client. -/
def About (R : State τ → Prop) : Prop :=
  ∀ s s' : State τ, s'.received = s.received → s'.read = s.read → R s → R s'

theorem About.stable {R : State τ → Prop} (about : About R) :
    (contract handler rule).Stable none R :=
  fun s s' others holds => about s s' (others rfl).1 (others rfl).2 holds

include uuids in
/-- The functions of `pkg/db` leave what the client has received. -/
theorem lift_triple {program : Action α} {R : State τ → Prop} (calls : program.Calls Creates)
    (about : About R) (stable : (contract handler rule).Stable t R) :
    (contract handler rule).Triple t R (lift program) fun result s =>
      R s ∧ program.Ends Answers result := by
  induction calls with
  | ret result =>
      exact Contract.Triple.ret stable fun _ holds => ⟨holds, .ret result⟩
  | @call op next creates _ ih =>
      intro s _ holds s' others sound
      have pre : Pre t (.stmt op) s' := by cases t <;> exact creates
      refine ⟨pre, fun answer s'' answers => ?_⟩
      obtain ⟨_, turn, runs⟩ := answers
      obtain ⟨received, read, _, answered⟩ := run_stmt creates runs
      have kept : s''.Sound := (exec_sound uuids sound pre runs).1
      have later := ih answer s'' kept (about s' s'' received read (stable s s' others holds))
      exact later.weaken fun _ _ _ ends => ⟨ends.1, .call answered ends.2⟩

omit [Libraries] in
theorem queryRow_calls (op : Stmt) (creates : Creates op) : (queryRow op).Calls Creates :=
  .call creates fun _ => .ret _

theorem getCurrencyID_calls (currency : Currency) : (getCurrencyID currency).Calls Creates :=
  queryRow_calls (.selectCurrencyID _ _) trivial

theorem getCurrencyByID_calls (id : UUID) : (getCurrencyByID id).Calls Creates :=
  (queryRow_calls (.selectCurrency id) trivial).bind fun _ => .ret _

theorem getInvoice_calls (id : InvoiceID) : (getInvoice id).Calls Creates :=
  (queryRow_calls (.selectInvoice id) trivial).bind fun row =>
    (getCurrencyByID_calls row.currency).bind fun _ => .ret _

theorem getInvoicesByIDs_calls (ids : List InvoiceID) : (getInvoicesByIDs ids).Calls Creates :=
  .mapM getInvoice_calls ids

theorem createInvoice_calls {invoice : Invoice} (seven : Seven invoice.id) :
    (SpiceHarvester.createInvoice invoice).Calls Creates := by
  refine Prog.Calls.bind ?_ fun _ => ?_
  · exact (getCurrencyID_calls invoice.currency).bind fun _ => .query seven
  · exact (getCurrencyID_calls invoice.currency).bind fun _ => .query trivial

/-- `GetInvoice` answers with an invoice of the ID. -/
theorem id_of_getInvoice {id : InvoiceID} {invoice : Invoice}
    (ends : (getInvoice id).Ends Answers (.ok invoice)) : invoice.id = id := by
  obtain ⟨_, _, same⟩ | ⟨row, reads, ends⟩ := Prog.Ends.bind_cases ends
  · cases same
  · have read : row.id = id := by
      cases reads with
      | @call _ _ answer _ answered ends =>
          cases answer with
          | error error => cases error <;> cases ends
          | ok found =>
              cases ends
              exact answered row rfl
    obtain ⟨_, _, same⟩ | ⟨currency, _, ends⟩ := ends.bind_cases
    · cases same
    · cases ends
      exact read

/-- `getInvoicesByIDs` answers with the invoices of the IDs, in their order. -/
theorem ids_of_getInvoicesByIDs {ids : List InvoiceID} {invoices : List Invoice}
    (ends : (getInvoicesByIDs ids).Ends Answers (.ok invoices)) : invoices.map Invoice.id = ids := by
  induction ids generalizing invoices with
  | nil =>
      cases ends
      rfl
  | cons id rest ih =>
      rw [getInvoicesByIDs, List.mapM_cons] at ends
      obtain ⟨_, _, same⟩ | ⟨invoice, first, ends⟩ := ends.bind_cases
      · cases same
      · obtain ⟨_, _, same⟩ | ⟨others, later, ends⟩ := ends.bind_cases
        · cases same
        · cases ends
          rw [List.map_cons, id_of_getInvoice first, ih later]

/-! ## Requests to `createInvoice` -/

include uuids in
theorem createInvoice_triple (t : τ) (recipient : AccountID)
    (body : Option (Except String NewInvoice)) :
    (contract handler rule).Triple (some t) (fun _ => True) (createInvoice handler recipient body)
      fun _ _ => True := by
  have stable : (contract handler rule).Stable (some t) fun _ => True := fun _ _ _ _ => trivial
  have ends : ∀ {α : Type} (result : Except Err α),
      (contract handler rule).Triple (some t) (fun _ => True) (.ret result) fun _ _ => True :=
    fun result => .ret stable fun _ _ => trivial
  have lifts : ∀ {α : Type} {program : Action α}, program.Calls Creates →
      (contract handler rule).Triple (some t) (fun _ => True) (lift program) fun _ _ => True :=
    fun calls => (lift_triple uuids calls (fun _ _ _ _ _ => trivial) stable).weaken
      (fun _ holds => holds) fun _ _ => trivial
  match body with
  | none => exact ends _
  | some (.error message) => exact ends _
  | some (.ok data) =>
      refine .bind contract_closed (lifts (.query trivial)) (fun now => ?_) fun _ _ => trivial
      have draws : (contract handler rule).Triple (some t) (fun _ => True) (Prog.query .newInvoiceID)
          fun result _ => ∀ id, result = .ok id → Seven id := by
        refine .query stable (fun _ _ _ _ holds => holds) (fun _ _ => trivial) ?_
        rintro s answer s' _ _ ⟨_, turn, runs⟩ id same
        obtain ⟨drawn, seven, rfl, _⟩ := run_newInvoiceID runs
        cases same
        exact seven
      refine .bind contract_closed draws (fun id => ?_) fun _ _ => trivial
      refine .of_fact (fun _ drawn => drawn id rfl) fun seven : Seven id => ?_
      refine .weaken (P := fun _ => True) (Q := fun _ _ => True) ?_ (fun _ _ => trivial) fun _ _ => trivial
      split
      · exact ends _
      · rename_i invoice converted
        have calls := createInvoice_calls (id_of_convertNewInvoice converted ▸ seven)
        refine .attempt_bind contract_closed (lifts calls) fun result => ?_
        cases result with
        | error error => exact ends _
        | ok value => exact ends _

/-! ## The client -/

/-- The query goes on after the last ID received. -/
def Asks (afterQuery : String) (s : State τ) : Prop :=
  (afterQuery = "" ∧ Cursor 0 s.receivedIDs 0) ∨
    ∃ id, afterQuery = Libraries.uuidString id ∧ Cursor 0 s.receivedIDs id

omit [DecidableEq τ] [Fintype τ] in
theorem about_client (R : List InvoiceID → List InvoiceID → Prop) :
    About fun s : State τ => R s.receivedIDs s.read := by
  intro s s' received read holds
  unfold State.receivedIDs at holds ⊢
  rw [received, read]
  exact holds

omit [DecidableEq τ] [Fintype τ] in
theorem about_asks (afterQuery : String) : About (τ := τ) (Asks afterQuery) :=
  about_client fun ids _ => (afterQuery = "" ∧ Cursor 0 ids 0) ∨
    ∃ id, afterQuery = Libraries.uuidString id ∧ Cursor 0 ids id

omit [DecidableEq τ] [Fintype τ] in
/-- What is parsed is the last ID received. -/
theorem Asks.cursor (uuids : UUIDTexts) {afterQuery : String} {s : State τ} {id : InvoiceID}
    (asks : Asks afterQuery s) (given : afterQuery ≠ "") (parsed : parseInvoiceID afterQuery = .ok id) :
    Cursor 0 s.receivedIDs id := by
  rcases asks with ⟨empty, _⟩ | ⟨last, rfl, cursor⟩
  · exact absurd empty given
  · unfold parseInvoiceID at parsed
    rw [uuids.parse last] at parsed
    simp only at parsed
    split at parsed
    · cases parsed
      exact cursor
    · cases parsed

/-- What is known where `readAfter` ends. -/
def AfterRead (afterQuery : String) (result : Except Err (Except Refusal InvoiceID)) (s : State τ) :
    Prop :=
  Asks afterQuery s ∧ ∀ after, result = .ok (.ok after) → Cursor 0 s.receivedIDs after

include uuids in
/-- `readAfter` reads the last ID received. -/
theorem readAfter_triple (afterQuery : String) :
    (contract handler rule).Triple none (Asks afterQuery) (readAfter afterQuery)
      (AfterRead afterQuery) := by
  have stable : (contract handler rule).Stable none (Asks (τ := τ) afterQuery) :=
    (about_asks afterQuery).stable
  have refuses : ∀ {P : State τ → Prop}, (contract handler rule).Stable none P →
      (∀ {s}, P s → Asks afterQuery s) → ∀ refusal, (contract handler rule).Triple none P
        (.ret (.ok (.error refusal))) (AfterRead afterQuery) := by
    intro P stable asks refusal
    refine .ret stable fun _ holds => ⟨asks holds, ?_⟩
    intro after same
    cases same
  unfold readAfter
  split
  · rename_i empty
    refine .ret stable fun _ asks => ⟨asks, ?_⟩
    intro after same
    cases same
    rcases asks with ⟨_, cursor⟩ | ⟨id, same, _⟩
    · exact cursor
    · exact absurd (same.symm.trans empty) (uuids.ne id)
  · rename_i given
    split
    · exact refuses stable (fun asks => asks) _
    · rename_i id parsed
      refine .attempt_bind contract_closed
        (lift_triple uuids (getInvoice_calls id) (about_asks afterQuery) stable) fun result => ?_
      have stable' : (contract handler rule).Stable none fun s : State τ =>
          Asks afterQuery s ∧ (getInvoice id).Ends Answers result :=
        fun s s' others holds => ⟨stable s s' others holds.1, holds.2⟩
      match result with
      | .ok invoice =>
          refine .ret stable' fun _ holds => ⟨holds.1, fun after same => ?_⟩
          cases same
          exact holds.1.cursor uuids given parsed
      | .error .notFound => exact refuses stable' (fun holds => holds.1) _
      | .error .noRows => exact refuses stable' (fun holds => holds.1) _
      | .error .failed => exact refuses stable' (fun holds => holds.1) _
      | .error (.invalid message) => exact refuses stable' (fun holds => holds.1) _

/-- The query of `GetInvoices` has found the IDs. -/
structure Listed (afterQuery : String) (after : InvoiceID) (limit : ℤ) (ids : List InvoiceID)
    (s : State τ) : Prop where
  asks : Asks afterQuery s
  cursor : Cursor 0 s.receivedIDs after
  received : s.receivedIDs ⊆ s.read
  found : ids = page s.read after limit.toNat

omit [DecidableEq τ] [Fintype τ] in
theorem about_listed (afterQuery : String) (after : InvoiceID) (limit : ℤ) (ids : List InvoiceID) :
    About (τ := τ) (Listed afterQuery after limit ids) := by
  intro s s' received read listed
  have same : s'.receivedIDs = s.receivedIDs := by
    rw [State.receivedIDs, received, State.receivedIDs]
  refine ⟨about_asks afterQuery s s' received read listed.asks, ?_, ?_, ?_⟩
  · rw [same]
    exact listed.cursor
  · rw [same, read]
    exact listed.received
  · rw [read]
    exact listed.found

/-- What is known where a request for a page ends. -/
def AfterList (afterQuery : String)
    (result : Except Err (Except Refusal (List PrivateInvoicePrintable))) (s : State τ) : Prop :=
  Asks afterQuery s ∧ ∀ printables, result = .ok (.ok printables) →
    s.Page (printables.map fun printable => printable.public'.id)

include uuids in
/-- `GetInvoices` answers with the invoices of a page. -/
theorem getInvoices_triple {afterQuery : String} {after : InvoiceID} {limit : ℤ} (asks : 0 < limit) :
    (contract handler rule).Triple none
      (fun s => Asks afterQuery s ∧ Cursor 0 s.receivedIDs after) (getInvoices after limit)
      fun result s => Asks afterQuery s ∧
        ∀ invoices, result = .ok invoices → Listed afterQuery after limit (invoices.map Invoice.id) s := by
  have about : About fun s : State τ => Asks afterQuery s ∧ Cursor 0 s.receivedIDs after := by
    intro s s' received read holds
    exact ⟨about_asks afterQuery s s' received read holds.1,
      about_client (fun ids _ => Cursor 0 ids after) s s' received read holds.2⟩
  have reads : (contract handler rule).Triple none
      (fun s => Asks afterQuery s ∧ Cursor 0 s.receivedIDs after)
      (Prog.query (.selectIDs after limit)) fun result s => Asks afterQuery s ∧
        ∀ ids, result = .ok ids → Listed afterQuery after limit ids s := by
    refine .query about.stable ?_ (fun _ holds => ⟨asks, holds.2⟩) ?_
    · intro answer
      refine About.stable fun s s' received read holds => ?_
      exact ⟨about_asks afterQuery s s' received read holds.1, fun ids same =>
        about_listed afterQuery after limit ids s s' received read (holds.2 ids same)⟩
    · rintro s answer s' sound holds ⟨_, turn, runs⟩
      obtain ⟨rfl, rfl⟩ | ⟨rfl, rfl⟩ := run_selectIDs runs
      · refine ⟨holds.1, fun ids same => ?_⟩
        cases same
        exact ⟨holds.1, holds.2, sound.received, rfl⟩
      · exact ⟨holds.1, fun ids same => by cases same⟩
  refine .bind contract_closed reads (fun ids => ?_) ?_
  · have about := about_listed (τ := τ) afterQuery after limit ids
    refine (lift_triple uuids (getInvoicesByIDs_calls ids) about about.stable).weaken
      (fun _ holds => holds.2 ids rfl) ?_
    intro result s _ holds
    refine ⟨holds.1.asks, fun invoices same => ?_⟩
    subst same
    rw [ids_of_getInvoicesByIDs holds.2]
    exact holds.1
  · intro error s _ holds
    exact ⟨holds.1, fun invoices same => by cases same⟩

include uuids in
/-- `listInvoices` answers with a page. -/
theorem listInvoices_triple {afterQuery : String} {after : InvoiceID} {limit : ℤ} (asks : 0 < limit) :
    (contract handler rule).Triple none
      (fun s => Asks afterQuery s ∧ Cursor 0 s.receivedIDs after) (listInvoices handler after limit)
      (AfterList afterQuery) := by
  unfold listInvoices
  refine .attempt_bind contract_closed (getInvoices_triple uuids asks) fun result => ?_
  have stable : (contract handler rule).Stable none fun s : State τ => Asks afterQuery s ∧
      ∀ invoices, result = .ok invoices → Listed afterQuery after limit (invoices.map Invoice.id) s :=
    About.stable fun s s' received read holds =>
      ⟨about_asks afterQuery s s' received read holds.1, fun invoices same =>
        about_listed afterQuery after limit _ s s' received read (holds.2 invoices same)⟩
  cases result with
  | error error => exact .ret stable fun _ holds => ⟨holds.1, fun _ same => by cases same⟩
  | ok invoices =>
      simp only
      split
      · exact .ret stable fun _ holds => ⟨holds.1, fun _ same => by cases same⟩
      · rename_i printables printed
        refine .ret stable fun _ holds => ⟨holds.1, ?_⟩
        intro found same
        cases same
        have listed := holds.2 invoices rfl
        refine ⟨after, limit.toNat, by omega, listed.cursor, listed.received, ?_⟩
        rw [Lists.map_of_mapM (f := fun invoice => Libraries.uuidString invoice.id)
          (fun printed => (of_printed printed).1) printed, ← listed.found, List.map_map]
        rfl

include uuids in
theorem getInvoiceHistory_triple {limitQuery afterQuery : String} {limit : ℤ}
    (read : readLimit limitQuery = .ok limit) (asks : 0 < limit) :
    (contract handler rule).Triple none (Asks afterQuery)
      (getInvoiceHistory handler limitQuery afterQuery) (AfterList afterQuery) := by
  unfold getInvoiceHistory
  rw [read]
  refine .bind contract_closed (readAfter_triple uuids afterQuery) (fun result => ?_) ?_
  · match result with
    | .error refusal =>
        intro s _ holds s' others _
        have stable : (contract handler rule).Stable none (Asks (τ := τ) afterQuery) :=
          (about_asks afterQuery).stable
        refine ⟨stable s s' others holds.1, ?_⟩
        intro printables same
        cases same
    | .ok after =>
        exact (listInvoices_triple uuids asks).weaken (fun _ holds => ⟨holds.1, holds.2 after rfl⟩)
          fun _ holds => holds
  · exact fun _ holds => ⟨holds.1, fun _ same => by cases same⟩

omit [DecidableEq τ] [Fintype τ] in
include uuids in
/-- The last ID of a page is what the client asks for next. -/
theorem Asks.receive {afterQuery : String} {s : State τ} (asks : Asks afterQuery s) (sound : s.Sound)
    {texts : List String} (reads : s.Page texts) :
    Asks (texts.getLast?.getD afterQuery) { s with received := s.received ++ texts } := by
  obtain ⟨after, limit, _, cursor, _, rfl⟩ := reads
  have ids := receivedIDs_append uuids s (page s.read after limit)
  rw [List.getLast?_map]
  cases final : (page s.read after limit).getLast? with
  | none =>
      have empty := List.getLast?_eq_none_iff.mp final
      rw [empty] at ids ⊢
      rw [List.append_nil] at ids
      rcases asks with ⟨same, start⟩ | ⟨id, same, cursor⟩
      · exact .inl ⟨same, ids ▸ start⟩
      · exact .inr ⟨id, same, ids ▸ cursor⟩
  | some last =>
      refine .inr ⟨last, rfl, ?_⟩
      rw [ids]
      exact cursor.append sound.distinct final

include uuids in
/-- **The client keeps the contract.** -/
theorem poll_triple {limits : List String}
    (each : ∀ limitQuery ∈ limits, ∃ limit, readLimit limitQuery = .ok limit ∧ 0 < limit)
    (afterQuery : String) :
    (contract handler rule).Triple none (Asks afterQuery) (poll handler limits afterQuery)
      fun _ _ => True := by
  induction limits generalizing afterQuery with
  | nil =>
      intro s _ _ s' _ _
      trivial
  | cons limitQuery rest ih =>
      obtain ⟨limit, read, asks⟩ := each limitQuery List.mem_cons_self
      have later := ih fun query member => each query (List.mem_cons_of_mem _ member)
      refine .bind contract_closed (getInvoiceHistory_triple uuids read asks) (fun result => ?_)
        fun _ _ => trivial
      match result with
      | .error refusal => exact (later afterQuery).weaken (fun _ holds => holds.1) fun _ holds => holds
      | .ok printables =>
          let texts := printables.map fun printable => printable.public'.id
          have arrives : (contract handler rule).Triple none (AfterList afterQuery (.ok (.ok printables)))
              (Prog.query (Call.receive texts)) fun _ s => Asks (texts.getLast?.getD afterQuery) s := by
            refine .query ?_ (fun _ => (about_asks _).stable) (fun _ holds => holds.2 printables rfl) ?_
            · rintro s s' others ⟨asked, reads⟩
              have stable : (contract handler rule).Stable none (Asks (τ := τ) afterQuery) :=
                (about_asks afterQuery).stable
              refine ⟨stable s s' others asked, fun found same => ?_⟩
              obtain ⟨after, limit, positive, cursor, received, same⟩ := reads found same
              obtain ⟨received', read'⟩ := others rfl
              have ids : s'.receivedIDs = s.receivedIDs := by
                rw [State.receivedIDs, received', State.receivedIDs]
              exact ⟨after, limit, positive, ids ▸ cursor, by rw [ids, read']; exact received,
                by rw [read']; exact same⟩
            · rintro s answer s' sound ⟨asked, reads⟩ ⟨_, turn, runs⟩
              obtain rfl := run_receive runs
              exact asked.receive uuids sound (reads printables rfl)
          exact .bind contract_closed arrives (fun _ => later _) fun _ _ => trivial

omit [DecidableEq τ] [Fintype τ] in
/-- The client goes on where it stopped. -/
theorem State.Sound.asks {s : State τ} (sound : s.Sound) :
    Asks (s.received.getLast?.getD "") s := by
  rw [sound.texts, List.getLast?_map]
  cases final : s.receivedIDs.getLast? with
  | none =>
      refine .inl ⟨rfl, ?_⟩
      rw [List.getLast?_eq_none_iff.mp final]
      exact .start 0
  | some last =>
      refine .inr ⟨last, rfl, fun key found => ?_, .inr (List.mem_of_getLast? final)⟩
      obtain ⟨rest, same⟩ := List.getLast?_eq_some_iff.mp final
      have rises := sound.rises
      rw [same] at found rises
      rcases List.mem_append.mp found with before | found
      · exact le_of_lt
          ((List.pairwise_append.mp rises).2.2 key before last (List.mem_singleton_self _))
      · exact le_of_eq (List.mem_singleton.mp found)

include uuids in
/-- **The requests and the client keep the contract.** -/
theorem contract_sound : (contract handler rule).Sound where
  toClosed := contract_closed
  exec := by
    rintro t call s answer s' sound pre ⟨_, turn, runs⟩
    obtain ⟨sound', _, others⟩ := exec_sound uuids sound pre runs
    refine ⟨sound', fun u other client => others fun same => other ?_⟩
    rw [client, same]
  spawn := by
    rintro t s program s' sound ⟨starts, rfl⟩
    refine ⟨sound, fun _ _ _ => ⟨rfl, rfl⟩, ?_⟩
    cases starts with
    | create t recipient body =>
        have created : (contract handler rule).Triple (some t) (fun _ => True)
            (createInvoice handler recipient body) fun _ _ => True :=
          createInvoice_triple uuids t recipient body
        refine Contract.Triple.bind contract_closed created (fun _ => ?_) (fun _ _ => trivial) s' sound
          trivial
        exact .ret (fun _ _ _ _ => trivial) fun _ _ => trivial
    | client limits each => exact poll_triple uuids each _ s' sound sound.asks
  retire := by
    rintro t result s s' sound _ rfl
    exact ⟨sound, fun _ _ _ => ⟨rfl, rfl⟩⟩
  crash := fun _ stops => stops.elim

end Programs

end Runs

end Listing

end SpiceHarvester
