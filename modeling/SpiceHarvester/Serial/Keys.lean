import SpiceHarvester.Api.Handlers
import SpiceHarvester.Serial.Effects
import SpiceHarvester.Sql.Lease

/-!
# What the operations do to the keys

A key that an account commits is an offer: it lasts for an hour, unless a payment of
the account takes it up. `commitKey` makes an offer, `DeleteExpiredKeys` purges the old
ones, and a payment that is received takes the offer of its sender up.
-/

set_option autoImplicit false

namespace SpiceHarvester

open Interleaving Sql

variable [Libraries]

/-! ## The offers of the store -/

namespace Store

variable {s : Store} {time bound : Time}

/-- The keys as offers, from the time they are stored with. -/
def leases (s : Store) : Leases AccountID Time :=
  fun account => (s.keys.find account).map fun row => ⟨row.createdAt, row.accepted⟩

theorem leases_apply (s : Store) (account : AccountID) :
    s.leases account = (s.keys.find account).map fun row => ⟨row.createdAt, row.accepted⟩ := rfl

theorem leases_offer (account : AccountID) (key : List UInt8) (time : Time) :
    (s.offer account key time).leases = s.leases.offer account (timestamptz time) := by
  funext account'
  unfold offer
  cases inserted : s.keys.insert? ⟨account, key, timestamptz time, false⟩ with
  | none =>
      obtain ⟨row, found⟩ := Option.isSome_iff_exists.mp (Table.insert?_eq_none.mp inserted)
      have stored : s.leases account = some ⟨row.createdAt, row.accepted⟩ := by
        rw [leases_apply, found]
        rfl
      by_cases same : account' = account
      · subst same
        rw [Leases.offer_of_some stored, stored]
      · rw [Leases.offer, Function.update_of_ne same]
  | some keys =>
      have missing : s.keys.find account = none := by
        by_contra some
        rw [← ne_eq, ← Option.isSome_iff_ne_none] at some
        have taken : s.keys.insert? ⟨account, key, timestamptz time, false⟩ = none :=
          Table.insert?_eq_none.mpr some
        rw [taken] at inserted
        cases inserted
      change (keys.find account').map _ = _
      rw [Table.find_insert? inserted]
      by_cases same : account = account'
      · subst same
        rw [if_pos rfl, Leases.offer, Function.update_self, leases_apply, missing]
        rfl
      · rw [if_neg same, Leases.offer, Function.update_of_ne (Ne.symm same)]
        rfl

theorem leases_purge (before : Time) : (s.purge before).leases = s.leases.purge (timestamptz before) := by
  funext account
  rw [leases_apply, purge, Table.find_delete, Leases.purge, leases_apply]
  cases s.keys.find account with
  | none => rfl
  | some row =>
      simp only [Option.filter_some, Option.map_some]
      split <;> rfl

theorem leases_accept (address : AccountID) :
    (s.accept address).leases = s.leases.take fun account => decide (account = address) := by
  funext account
  rw [leases_apply, accept, Table.find_update, Leases.take, leases_apply]
  cases found : s.keys.find account with
  | none => rfl
  | some row =>
      have key := Table.key_of_find found
      subst key
      simp only [Option.map_some]
      by_cases own : row.address = address
      · cases accepted : row.accepted with
        | true => simp [accepted]
        | false => simp [own, KeyRow.accept]
      · simp [own]

theorem leases_receive (payment : Payment) :
    (s.receive time payment).leases =
      s.leases.take fun account => (s.payableBy payment).isSome && decide (account = payment.paidBy) := by
  unfold receive
  cases s.payableBy payment with
  | none =>
      funext account
      unfold Leases.take
      cases s.leases account with
      | none => rfl
      | some lease => simp
  | some row =>
      change (s.accept payment.paidBy).leases = _
      rw [leases_accept]
      rfl

/-- Payments drop no offer. -/
theorem lasts_receiveAll {payments : List Payment} {account : AccountID}
    (lasts : s.leases.Lasts account bound) :
    (s.receiveAll time payments).leases.Lasts account bound := by
  induction payments generalizing s with
  | nil => exact lasts
  | cons first rest ih =>
      apply ih
      rw [leases_receive]
      exact lasts.take _

theorem taken_receiveAll {payments : List Payment} {account : AccountID}
    (taken : s.leases.Taken account) : (s.receiveAll time payments).leases.Taken account := by
  induction payments generalizing s with
  | nil => exact taken
  | cons first rest ih =>
      apply ih
      rw [leases_receive]
      exact taken.take _

/-- **A payment for an invoice takes the offer of its sender up.** -/
theorem taken_of_payment {payments : List Payment} {payment : Payment}
    (lasts : s.leases.Lasts payment.paidBy bound) (member : payment ∈ payments)
    (names : (s.payableBy payment).isSome) :
    (s.receiveAll time payments).leases.Taken payment.paidBy := by
  induction payments generalizing s with
  | nil => cases member
  | cons first rest ih =>
      rcases List.mem_cons.mp member with rfl | member
      · change ((s.receive time payment).receiveAll time rest).leases.Taken payment.paidBy
        apply taken_receiveAll
        rw [leases_receive]
        apply lasts.taken
        rw [names, decide_eq_true rfl, Bool.and_self]
      · refine ih ?_ member ?_
        · rw [leases_receive]
          exact lasts.take _
        · rw [isSome_payableBy_receive]
          exact names

end Store

/-! ## The operations on keys -/

section Operations

variable [Cryptography] {time : Time} {w w' : World Unit} {log : List (Called Stmt Stmt.Val Err)}

/-- A key has been offered. -/
structure World.Offers (time : Time) (account : AccountID) (key : List UInt8)
    (w w' : World Unit) : Prop where
  store : w'.store = w.store.offer account key time
  calls : w'.history.calls = w.history.calls

omit [Cryptography] in
theorem offers_insertKey {account : AccountID} {key : List UInt8} {choice : Choice}
    {answer : Except Err Unit}
    (runs : (Stmt.insertKey account key time).run choice () w = some (answer, w')) :
    w.Offers time account key w' := by
  cases runs
  cases inserted : w.db.keys.insert? ⟨account, key, timestamptz time, false⟩ with
  | none =>
      refine ⟨?_, rfl⟩
      rw [Store.offer, World.store, inserted]
  | some keys =>
      refine ⟨?_, rfl⟩
      rw [Store.offer, World.store, World.store, inserted]

omit [Cryptography] in
theorem saveEncryptionKey_alone {account : AccountID} {key : List UInt8} {result : Except Err Unit}
    (runs : Alone (At time) (saveEncryptionKey account key) w log result w') :
    (w.Settled w' ∧ ∃ error, result = .error error) ∨ w.Offers time account key w' := by
  unfold saveEncryptionKey at runs
  rcases Alone.bind_cases runs with ⟨_, first, rfl⟩ | ⟨now, w₁, _, _, first, inserts, _⟩
  · exact .inl ⟨(unwritten_query rfl first).settled, _, rfl⟩
  obtain ⟨_, rfl, ran⟩ := (Alone.query_cases first).1.run_of_ok
  cases ran
  obtain ⟨fault, choice, _, runs⟩ := (Alone.query_cases inserts).1
  rcases Stmt.runUnder_cases runs with ⟨_, ran⟩ | ⟨_, _, failed, rfl⟩ | ⟨_, _, _, _, w₂, ran, rfl⟩
  · exact .inr (offers_insertKey ran)
  · exact .inl ⟨⟨rfl, rfl⟩, _, failed⟩
  · obtain ⟨store, calls⟩ := offers_insertKey ran
    exact .inr ⟨store, calls⟩

/-- `commitKey` has answered that the key is stored. -/
def Outcome.success : Outcome → Prop
  | .wrote response => response.status = 200
  | .panicked _ => False

/-- **A request to `commitKey` leaves the store, or offers a key for the account of its
path. It answers with success only then.** -/
theorem commitKey_alone {pathAccount : String} {body : Option (Except String NewKey)}
    {result : Except Err Outcome}
    (runs : Alone (At time) (commitKey pathAccount body) w log result w') :
    ∃ outcome, result = .ok outcome ∧
      ((w.Settled w' ∧ ¬ outcome.success) ∨ ∃ data account key, body = some (.ok data) ∧
        Libraries.parseAccountID pathAccount = .ok account ∧ convertNewKey account data = .ok key ∧
        w.Offers time account key w') := by
  have refused : ∀ {message : String}, Alone (At time) (.ret (.ok (writeHttpError message 400))) w log
      result w' → ∃ outcome, result = .ok outcome ∧ w.Settled w' ∧ ¬ outcome.success := by
    intro message ended
    obtain ⟨_, rfl, rfl⟩ := Alone.ret_cases ended
    exact ⟨_, rfl, ⟨rfl, rfl⟩, fun success => by cases success⟩
  unfold commitKey at runs
  split at runs
  · obtain ⟨outcome, same, settled⟩ := refused runs
    exact ⟨outcome, same, .inl settled⟩
  · obtain ⟨outcome, same, settled⟩ := refused runs
    exact ⟨outcome, same, .inl settled⟩
  split at runs
  · obtain ⟨outcome, same, settled⟩ := refused runs
    exact ⟨outcome, same, .inl settled⟩
  rename_i data _ account parsed
  split at runs
  · obtain ⟨outcome, same, settled⟩ := refused runs
    exact ⟨outcome, same, .inl settled⟩
  rename_i key converted
  obtain ⟨found, w₁, _, _, saves, answers, _⟩ := Alone.attempt_bind_cases runs
  have saved := saveEncryptionKey_alone saves
  split at answers
  · obtain ⟨_, rfl, rfl⟩ := Alone.ret_cases answers
    refine ⟨_, rfl, ?_⟩
    rcases saved with ⟨settled, _⟩ | offers
    · exact .inl ⟨settled, fun success => by cases success⟩
    · exact .inr ⟨data, account, key, rfl, parsed, converted, offers⟩
  · obtain ⟨_, rfl, rfl⟩ := Alone.ret_cases answers
    refine ⟨_, rfl, ?_⟩
    rcases saved with ⟨_, _, impossible⟩ | offers
    · cases impossible
    · exact .inr ⟨data, account, key, rfl, parsed, converted, offers⟩

/-- An hour, in nanoseconds. -/
def hour : Time := 3600 * 1000000000

/-- The keys from before a time have been purged. -/
structure World.Purges (before : Time) (w w' : World Unit) : Prop where
  store : w'.store = w.store.purge before
  calls : w'.history.calls = w.history.calls

omit [Cryptography] in
/-- **`DeleteExpiredKeys` purges the offers from more than an hour ago.** -/
theorem deleteExpiredKeys_alone {result : Except Err Unit}
    (runs : Alone (At time) deleteExpiredKeys w log result w') :
    (w.Settled w' ∧ ∃ error, result = .error error) ∨ w.Purges (time - hour) w' := by
  unfold deleteExpiredKeys at runs
  rcases Alone.bind_cases runs with ⟨_, first, rfl⟩ | ⟨now, w₁, _, _, first, deletes, _⟩
  · exact .inl ⟨(unwritten_query rfl first).settled, _, rfl⟩
  obtain ⟨_, rfl, ran⟩ := (Alone.query_cases first).1.run_of_ok
  cases ran
  obtain ⟨fault, choice, _, runs⟩ := (Alone.query_cases deletes).1
  rcases Stmt.runUnder_cases runs with ⟨_, ran⟩ | ⟨_, _, failed, rfl⟩ | ⟨_, _, _, _, w₂, ran, rfl⟩
  · obtain ⟨_, rfl⟩ := Stmt.run_deleteExpiredKeys ran
    exact .inr ⟨rfl, rfl⟩
  · exact .inl ⟨⟨rfl, rfl⟩, _, failed⟩
  · obtain ⟨_, rfl⟩ := Stmt.run_deleteExpiredKeys ran
    exact .inr ⟨rfl, rfl⟩

end Operations

end SpiceHarvester
