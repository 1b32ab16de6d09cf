import SpiceHarvester.Schedule
import SpiceHarvester.Serial.Keys

/-!
# The life of a committed key

An account commits an encryption key, pays within the hour, and can read from then on
what it has paid for. In between other keys are committed, payments are processed, and
every few seconds the keys from more than an hour ago that nobody has used are deleted.

`commitKey` answers with success also when the account has a key already. It leaves the
older key with its time, which is then deleted before the hour is over. So the promise
of `commitKey` holds exactly if the account has no older key that has not been accepted
(`keepsKey_iff`).
-/

set_option autoImplicit false

namespace SpiceHarvester

open Interleaving Sql

section Life

variable [Libraries] [Cryptography]

/-! ## Runs -/

/-- One operation on the keys happens at a time, with any failing statements. -/
inductive KeyStep (time : Time) (w : World Unit) : World Unit → Prop where
  | commitKey {pathAccount : String} {body : Option (Except String NewKey)}
      {log : List (Called Stmt Stmt.Val Err)} {result : Except Err Outcome} {w' : World Unit}
      (runs : Alone (At time) (commitKey pathAccount body) w log result w') : KeyStep time w w'
  | savePayments {call : PaymentCall} {log : List (Called Stmt Stmt.Val Err)}
      {result : Except Err Unit} {w' : World Unit}
      (runs : Alone (At time) (savePayments call) (w.start () (.savePayments call)) log result w') :
      KeyStep time w w'
  | deleteExpiredKeys {log : List (Called Stmt Stmt.Val Err)} {result : Except Err Unit}
      {w' : World Unit} (runs : Alone (At time) deleteExpiredKeys w log result w') : KeyStep time w w'

/-- A run of operations, from a time to a time. -/
inductive KeyRun (start : Time) (w : World Unit) : Time → World Unit → Prop where
  | nil : KeyRun start w start w
  | step {time time' : Time} {w₁ w₂ : World Unit} (before : KeyRun start w time w₁)
      (later : time ≤ time') (happens : KeyStep time' w₁ w₂) : KeyRun start w time' w₂

/-- `GetEncryptionKey` succeeds, when no statement fails. -/
def ReadsKey (w : World Unit) (account : AccountID) : Prop :=
  ∃ key, ∀ choice, (getEncryptionKey account).eval (Stmt.run choice ()) w = some (.ok key, w)

/-- A request to `commitKey` at the time keeps its promise to the account: if it answers
with success and a payment of the account for an invoice is processed within the hour,
the key of the account can be read ever after. -/
def KeepsKey (w : World Unit) (time : Time) (account : AccountID) : Prop :=
  ∀ pathAccount body log outcome w₁,
    Alone (At time) (commitKey pathAccount body) w log (.ok outcome) w₁ → outcome.success →
    Libraries.parseAccountID pathAccount = .ok account →
  ∀ before w₂, KeyRun time w₁ before w₂ →
  ∀ paidAt call log' result w₃, before ≤ paidAt → paidAt < time + hour →
    Alone (At paidAt) (savePayments call) (w₂.start () (.savePayments call)) log' result w₃ →
    w₂.history.calls.length < w₃.history.calls.length →
    (∃ payment ∈ call.recorded, payment.paidBy = account ∧ (w₂.store.payableBy payment).isSome) →
  ∀ after w₄, KeyRun paidAt w₃ after w₄ → ReadsKey w₄ account

variable {w w' w₁ : World Unit} {time time' bound : Time} {account : AccountID}

/-! ## What a run does to the offers -/

omit [Cryptography] in
theorem readsKey_iff : ReadsKey w account ↔ w.store.leases.Taken account := by
  have reads : ∀ choice, (getEncryptionKey account).eval (Stmt.run choice ()) w =
      some (orNotFound (orNoRows (((w.db.keys.find account).filter KeyRow.accepted).map
        KeyRow.encryptionKey)), w) := fun _ => rfl
  unfold ReadsKey Leases.Taken
  simp only [reads, Store.leases_apply]
  change _ ↔ ∃ lease, (w.db.keys.find account).map _ = some lease ∧ _
  cases w.db.keys.find account with
  | none =>
      refine iff_of_false ?_ ?_
      · rintro ⟨key, same⟩
        cases same ⟨0, [], [], [], false, .error .failed, .error .failed⟩
      · rintro ⟨_, impossible, _⟩
        cases impossible
  | some row =>
      cases accepted : row.accepted with
      | true =>
          refine iff_of_true ⟨row.encryptionKey, fun _ => ?_⟩ ⟨_, rfl, accepted⟩
          rw [Option.filter_some, if_pos accepted]
          rfl
      | false =>
          refine iff_of_false ?_ ?_
          · rintro ⟨key, same⟩
            have same := same ⟨0, [], [], [], false, .error .failed, .error .failed⟩
            rw [Option.filter_some, if_neg (by rw [accepted]; exact Bool.false_ne_true)] at same
            cases same
          · rintro ⟨lease, same, taken⟩
            cases same
            exact absurd (accepted.symm.trans taken) Bool.false_ne_true

/-- What lasts is left by an operation less than an hour after the bound. -/
theorem KeyStep.lasts (step : KeyStep time w w') (early : timestamptz (time - hour) ≤ bound)
    (lasts : w.store.leases.Lasts account bound) : w'.store.leases.Lasts account bound := by
  cases step with
  | commitKey runs =>
      obtain ⟨_, _, ⟨settled, _⟩ | ⟨_, _, _, _, _, _, offers⟩⟩ := commitKey_alone runs
      · rw [settled.store]
        exact lasts
      · rw [offers.store, Store.leases_offer]
        exact lasts.offer _ _
  | savePayments runs =>
      rcases savePayments_alone (by simp) runs with ⟨settled, _⟩ | receives
      · rw [settled.store]
        exact lasts
      · rw [receives.store]
        exact Store.lasts_receiveAll lasts
  | deleteExpiredKeys runs =>
      rcases deleteExpiredKeys_alone runs with ⟨settled, _⟩ | purges
      · rw [settled.store]
        exact lasts
      · rw [purges.store, Store.leases_purge]
        exact lasts.purge early

theorem KeyStep.taken (step : KeyStep time w w') (taken : w.store.leases.Taken account) :
    w'.store.leases.Taken account := by
  cases step with
  | commitKey runs =>
      obtain ⟨_, _, ⟨settled, _⟩ | ⟨_, _, _, _, _, _, offers⟩⟩ := commitKey_alone runs
      · rw [settled.store]
        exact taken
      · rw [offers.store, Store.leases_offer]
        exact taken.offer _ _
  | savePayments runs =>
      rcases savePayments_alone (by simp) runs with ⟨settled, _⟩ | receives
      · rw [settled.store]
        exact taken
      · rw [receives.store]
        exact Store.taken_receiveAll taken
  | deleteExpiredKeys runs =>
      rcases deleteExpiredKeys_alone runs with ⟨settled, _⟩ | purges
      · rw [settled.store]
        exact taken
      · rw [purges.store, Store.leases_purge]
        exact taken.purge _

theorem KeyRun.le (run : KeyRun time w time' w') : time ≤ time' := by
  induction run with
  | nil => exact le_refl _
  | step _ later _ ih => exact ih.trans later

theorem KeyRun.lasts (run : KeyRun time w time' w') (early : timestamptz (time' - hour) ≤ bound)
    (lasts : w.store.leases.Lasts account bound) : w'.store.leases.Lasts account bound := by
  induction run with
  | nil => exact lasts
  | step _ later happens ih =>
      have before := (timestamptz_mono (Int.sub_le_sub_right later hour)).trans early
      exact happens.lasts early (ih before)

theorem KeyRun.taken (run : KeyRun time w time' w') (taken : w.store.leases.Taken account) :
    w'.store.leases.Taken account := by
  induction run with
  | nil => exact taken
  | step _ _ happens ih => exact happens.taken ih

/-! ## The promise -/

omit [Cryptography] in
theorem ready_iff : w.store.leases.Ready account bound ↔
    ∀ row, w.db.keys.find account = some row → row.accepted = true ∨ bound ≤ row.createdAt := by
  unfold Leases.Ready
  simp only [Store.leases_apply]
  change (∀ lease, (w.db.keys.find account).map _ = some lease → _) ↔ _
  cases w.db.keys.find account with
  | none => exact iff_of_true (fun _ impossible => by cases impossible) fun _ impossible => by cases impossible
  | some row =>
      constructor
      · intro ready row' same
        cases same
        exact ready _ rfl
      · intro ready lease same
        cases same
        exact ready row rfl

/-- Without an older key that is open, the promise is kept. -/
theorem keepsKey_of_ready (ready : w.store.leases.Ready account (timestamptz (time - 1))) :
    KeepsKey w time account := by
  intro pathAccount body log outcome w₁ commits success parsed before w₂ run paidAt call log' result
    w₃ later soon pays committed names after w₄ run'
  obtain ⟨_, same, ⟨_, failed⟩ | ⟨_, account', key, _, parsed', _, offers⟩⟩ := commitKey_alone commits
  · cases same
    exact absurd success failed
  rw [parsed, Except.ok.injEq] at parsed'
  subst parsed'
  have lasts : w₁.store.leases.Lasts account (timestamptz (time - 1)) := by
    rw [offers.store, Store.leases_offer]
    exact ready.offer (timestamptz_mono (Int.sub_le_self time (by decide)))
  have early : timestamptz (before - hour) ≤ timestamptz (time - 1) :=
    timestamptz_mono (Int.le_sub_one_of_lt (sub_lt_iff_lt_add.mpr (later.trans_lt soon)))
  have lasts' := run.lasts early lasts
  obtain ⟨payment, member, own, named⟩ := names
  subst own
  have taken : w₃.store.leases.Taken payment.paidBy := by
    rcases savePayments_alone (by simp) pays with ⟨settled, _⟩ | receives
    · rw [settled.calls] at committed
      exact absurd committed (lt_irrefl _)
    · rw [receives.store]
      exact Store.taken_of_payment lasts' member named
  exact readsKey_iff.mpr (run'.taken taken)

/-- A request with a valid key is answered with success, and offers it. -/
theorem can_commitKey {data : NewKey} {key : List UInt8}
    (converted : convertNewKey account data = .ok key) (time : Time) (w : World Unit) :
    ∃ w', Can time (commitKey (Libraries.toRaw account) (some (.ok data))) w
      (.wrote ⟨200, [], .empty⟩) w' ∧ w'.store = w.store.offer account key time := by
  have clock : Can time (perform .now) w time w := .perform rfl
  have inserts : ∃ w', (Stmt.insertKey account key time).run (.plain time) () w = some (.ok (), w') :=
    ⟨_, rfl⟩
  obtain ⟨w', inserts⟩ := inserts
  have saves : Can time (saveEncryptionKey account key) w () w' := clock.bind (.perform inserts)
  refine ⟨w', ?_, (offers_insertKey inserts).store⟩
  unfold commitKey
  simp only [Libraries.parse_toRaw, converted]
  exact saves.attempt_bind (.pure time w' _)

omit [Cryptography] in
theorem can_deleteExpiredKeys (time : Time) (w : World Unit) :
    ∃ w', Can time deleteExpiredKeys w () w' ∧ w'.store = w.store.purge (time - hour) := by
  have clock : Can time (perform .now) w time w := .perform rfl
  have deletes : ∃ w', (Stmt.deleteExpiredKeys (time - hour)).run (.plain time) () w =
      some (.ok (), w') := by
    simp only [Stmt.run, not_blocked, Bool.false_eq_true, if_false]
    exact ⟨_, rfl⟩
  obtain ⟨w', deletes⟩ := deletes
  obtain ⟨log, runs⟩ : Can time deleteExpiredKeys w () w' := clock.bind (.perform deletes)
  rcases deleteExpiredKeys_alone runs with ⟨_, _, impossible⟩ | purges
  · cases impossible
  · exact ⟨w', ⟨log, runs⟩, purges.store⟩

/-- With an older key that is open, the promise is broken: that key is deleted before
the hour is over, and a payment finds none. -/
theorem not_keepsKey {data : NewKey} {key : List UInt8} {payment : Payment}
    (converted : convertNewKey account data = .ok key) (own : payment.paidBy = account)
    (names : (w.store.payableBy payment).isSome)
    (older : ¬ w.store.leases.Ready account (timestamptz (time - 1))) :
    ¬ KeepsKey w time account := by
  intro keeps
  obtain ⟨w₁, ⟨_, commits⟩, store₁⟩ := can_commitKey converted time w
  obtain ⟨w₂, ⟨_, deletes⟩, store₂⟩ := can_deleteExpiredKeys (time - 1 + hour) w₁
  have gone : w₂.store.leases account = none := by
    rw [store₂, store₁, Store.leases_purge, Store.leases_offer, Int.add_sub_cancel]
    exact Leases.purged_of_not_ready older _
  have names₂ : (w₂.store.payableBy payment).isSome := by
    rw [store₂, store₁]
    unfold Store.payableBy Store.purge
    rw [Store.invoices_offer, Store.currencies_offer]
    exact names
  obtain ⟨row, found⟩ := Option.isSome_iff_exists.mp names₂
  obtain ⟨w₃, _, pays⟩ := can_savePayments (time - 1 + hour) payment.recipient 0 (w := w₂.start ()
    (.savePayments ⟨payment.recipient, 0, [payment], none⟩)) (by simp) found
  have receives : (w₂.start () (.savePayments ⟨payment.recipient, 0, [payment], none⟩)).Receives
      (time - 1 + hour) ⟨payment.recipient, 0, [payment], none⟩ w₃ := by
    rcases savePayments_alone (by simp) pays with ⟨_, _, impossible⟩ | receives
    · cases impossible
    · exact receives
  have committed : w₂.history.calls.length < w₃.history.calls.length := by
    obtain ⟨call, calls⟩ := receives.calls
    rw [calls, List.length_append]
    exact Nat.lt_succ_self _
  have early : time ≤ time - 1 + hour := by
    rw [sub_add_eq_add_sub, add_sub_assoc]
    exact le_add_of_nonneg_right (by decide)
  have soon : time - 1 + hour < time + hour :=
    Int.add_lt_add_right (Int.sub_one_lt_of_le (le_refl time)) hour
  have reads := keeps _ _ _ _ _ commits rfl (Libraries.parse_toRaw account) _ _
    (.step .nil early (.deleteExpiredKeys deletes)) _ _ _ _ _ (le_refl _) soon pays committed
    ⟨payment, List.mem_singleton_self _, own, names₂⟩ _ _ .nil
  obtain ⟨lease, stored, _⟩ := readsKey_iff.mp reads
  have nothing : (w₂.store.receive (time - 1 + hour) payment).leases account = none := by
    rw [Store.leases_receive, Leases.take, gone]
    rfl
  rw [receives.store] at stored
  exact absurd (nothing.symm.trans stored) (by simp)

/-- **`commitKey` keeps its promise to an account exactly if the account has no older key
that has not been accepted.** An older key is one from before the microsecond of the
request. -/
theorem keepsKey_iff {data : NewKey} {key : List UInt8} {payment : Payment}
    (converted : convertNewKey account data = .ok key) (own : payment.paidBy = account)
    (names : (w.store.payableBy payment).isSome) :
    KeepsKey w time account ↔ ∀ row, w.db.keys.find account = some row →
      row.accepted = true ∨ timestamptz (time - 1) ≤ row.createdAt := by
  rw [← ready_iff]
  constructor
  · intro keeps
    by_contra older
    exact not_keepsKey converted own names older keeps
  · exact keepsKey_of_ready

end Life

/-! ## Two commits -/

namespace Shop

attribute [local instance] Texts.libraries Shop.cryptography

/-- The key that the payer has certified. -/
def newKey : NewKey where
  walletVersion := "v4R2"
  publicKey := String.ofList (List.replicate 64 '0')
  cert := "6d657461" ++ String.ofList (List.replicate 32 ['0', '1']).flatten ++
    String.ofList (List.replicate 64 ['0', '2']).flatten

theorem newKey_converted : convertNewKey payer newKey = .ok (List.replicate 32 1) := by
  have converted : (convertNewKey payer newKey).toOption = some (List.replicate 32 1) := by
    decide +kernel
  cases found : convertNewKey payer newKey with
  | error _ =>
      rw [found] at converted
      cases converted
  | ok key =>
      rw [found] at converted
      exact congrArg Except.ok (Option.some.inj converted)

theorem payment_named : ((World.idle database : World Unit).store.payableBy (payment 10)).isSome := by decide

/-- The first key of an account is there when it pays. -/
theorem first_commit_keeps : KeepsKey (World.idle database) 0 payer :=
  (keepsKey_iff newKey_converted rfl payment_named).mpr fun _ found => nomatch found

/-- **A second commit answers with success and does not keep the key.** The key from half
an hour before is deleted half an hour later. -/
theorem second_commit_breaks :
    ∃ w, KeyRun 0 (World.idle database) 0 w ∧ ¬ KeepsKey w (1800 * 1000000000) payer := by
  obtain ⟨w, ⟨_, commits⟩, store⟩ := can_commitKey newKey_converted 0 (World.idle database)
  refine ⟨w, .step .nil (le_refl 0) (.commitKey commits), ?_⟩
  have paidBy : (payment 10).paidBy = payer := rfl
  refine not_keepsKey newKey_converted paidBy ?_ fun ready => ?_
  · rw [store]
    decide
  · rw [store] at ready
    have old := ready ⟨0, false⟩ rfl
    exact absurd old (by decide)

end Shop

end SpiceHarvester
