import SpiceHarvester.Api.Keys
import SpiceHarvester.Core.Printable

/-!
# `pkg/webhook`

`Client.Send` posts an invoice to the webhook of the merchant, three times at most.
What the network and the server make of each call of `http.Client.Do` is given
(`Reaction`). The call reads the body of the request to its end when it sends it, does
not rewind it, and fails when the body is shorter than the length announced. So does `Do`
where it opens a connection of its own: on a kept connection that turns out to be closed it
may take a fresh copy of the body once (`GetBody`) and send it again, within the one call.
Everything below is about calls that reuse no connection.

The three attempts share one request, and with it the reader of its body. An attempt
that has sent the request leaves an empty body to the next one, which fails on the
client's side. So `Send` keeps its promise exactly if no attempt gets through after one
that has got through without being accepted (`send_promise_iff`).
-/

set_option autoImplicit false

namespace SpiceHarvester

namespace Webhook

/-! ## Requests -/

/-- An `http.Request`. The body is what its reader has not delivered yet. -/
structure Request where
  method : String
  url : String
  contentType : String
  body : List UInt8
  contentLength : ℕ

/-- What becomes of one call of `http.Client.Do`: no connection comes about and nothing
is sent, the request is sent and no answer arrives, or the server answers. -/
inductive Reaction where
  | unsent (error : String)
  | lost (error : String)
  | answered (statusCode : ℤ) (status : String)

/-- The request gets through to the server. -/
def Reaction.sends : Reaction → Bool
  | .unsent _ => false
  | _ => true

/-- The server answers with a status 2xx. -/
def Reaction.accepts : Reaction → Bool
  | .answered statusCode _ => decide (200 ≤ statusCode ∧ statusCode < 300)
  | _ => false

/-- One attempt: the body sent, if any, the error and the seconds slept after it. -/
structure Attempt where
  sent : Option (List UInt8)
  error : Option String
  pause : ℕ

/-- The request after its body has been read. -/
def Request.read (request : Request) : Request := { request with body := [] }

/-- `http.Client.Do`: the response, what is sent and the request that is left. -/
def clientDo (reaction : Reaction) (request : Request) :
    Except String (ℤ × String) × Option (List UInt8) × Request :=
  match reaction with
  | .unsent error => (.error error, none, request)
  | .lost error => (.error (short.getD error), some request.body, request.read)
  | .answered statusCode status =>
      (match short with
        | some error => .error error
        | none => .ok (statusCode, status), some request.body, request.read)
where
  short : Option String :=
    if request.body.length < request.contentLength then
      some ("http: ContentLength=" ++ toString request.contentLength ++ " with Body length " ++
        toString request.body.length)
    else none

/-- `doRequest`: the error, what is sent and the request that is left. -/
def doRequest (reaction : Reaction) (request : Request) :
    Except String Unit × Option (List UInt8) × Request :=
  match clientDo reaction request with
  | (.error error, rest) => (.error ("webhook sending error: " ++ error), rest)
  | (.ok (statusCode, status), rest) =>
      (if statusCode ≥ 200 ∧ statusCode < 300 then .ok ()
        else .error ("webhook response status: " ++ status), rest)

/-! ## Sending -/

/-- What a call of `Send` does: its attempts and the error it returns. -/
structure Sending where
  attempts : List Attempt
  error : Option String

/-- The loop of `Send` over the numbers of the attempts. -/
def attempts (reactions : ℕ → Reaction) : List ℕ → Request → Sending
  | [], _ => ⟨[], some "attempts to send a webhook ended"⟩
  | i :: later, request =>
      match doRequest (reactions i) request with
      | (.ok (), sent, _) => ⟨[⟨sent, none, 0⟩], none⟩
      | (.error error, sent, request) =>
          let rest := attempts reactions later request
          ⟨⟨sent, some error, i⟩ :: rest.attempts, rest.error⟩

/-- The request that `Send` makes. `NewClient` has checked the URL. -/
def newRequest (url : String) (jsonData : List UInt8) : Request :=
  ⟨"POST", url, "application/json; charset=UTF-8", jsonData, jsonData.length⟩

/-- `Client.Send`, with `json.Marshal`. -/
def send (marshal : PrivateInvoicePrintable → Except String (List UInt8)) (url : String)
    (reactions : ℕ → Reaction) (invoice : PrivateInvoicePrintable) : Sending :=
  match marshal invoice with
  | .error error => ⟨[], some error⟩
  | .ok jsonData => attempts reactions [1, 2, 3] (newRequest url jsonData)

/-! ## The promise -/

/-- Every attempt that sends something sends the whole encoding, and there is no error
exactly if one of the attempts allowed is answered with a status 2xx. -/
structure Promise (jsonData : List UInt8) (reactions : List Reaction) (sending : Sending) :
    Prop where
  whole : ∀ attempt ∈ sending.attempts, ∀ sent, attempt.sent = some sent → sent = jsonData
  outcome : sending.error = none ↔ ∃ reaction ∈ reactions, reaction.accepts = true

/-- Nothing gets through after the first request that gets through, or that one is
accepted. -/
def SentOnce : List Reaction → Prop
  | [] => True
  | reaction :: later =>
      if reaction.sends then reaction.accepts = true ∨ ∀ next ∈ later, next.sends = false
      else SentOnce later

theorem Reaction.sends_of_accepts {reaction : Reaction} (accepts : reaction.accepts = true) :
    reaction.sends = true := by
  cases reaction with
  | unsent error => cases accepts
  | lost error => rfl
  | answered statusCode status => rfl

/-! ### One attempt -/

section Attempts

variable {reaction : Reaction}

/-- Without a connection nothing is sent and nothing is read. -/
theorem doRequest_unsent (request : Request) (unsent : reaction.sends = false) :
    ∃ error, doRequest reaction request = (.error error, none, request) := by
  cases reaction with
  | unsent error => exact ⟨_, rfl⟩
  | lost error => cases unsent
  | answered statusCode status => cases unsent

/-- A request that gets through is read to its end. It succeeds exactly if its body is
whole and the server accepts it. -/
theorem doRequest_sent (request : Request) (sends : reaction.sends = true) :
    ∃ result, doRequest reaction request = (result, some request.body, request.read) ∧
      (result = .ok () ↔ request.contentLength ≤ request.body.length ∧ reaction.accepts = true) := by
  cases reaction with
  | unsent error => cases sends
  | lost error => exact ⟨_, rfl, by simp [Reaction.accepts]⟩
  | answered statusCode status =>
      by_cases short : request.body.length < request.contentLength
      · have found : (clientDo.short request).isSome := by
          rw [clientDo.short, if_pos short]
          rfl
        obtain ⟨error, found⟩ := Option.isSome_iff_exists.mp found
        refine ⟨.error ("webhook sending error: " ++ error), ?_,
          iff_of_false (by simp) fun both => Nat.not_le.mpr short both.1⟩
        rw [doRequest, clientDo]
        simp only [found]
      · have whole : clientDo.short request = none := if_neg short
        refine ⟨if statusCode ≥ 200 ∧ statusCode < 300 then .ok ()
          else .error ("webhook response status: " ++ status), ?_, ?_⟩
        · rw [doRequest, clientDo]
          simp only [whole]
        · rw [Reaction.accepts, decide_eq_true_eq]
          split
          · rename_i accepted
            exact iff_of_true rfl ⟨Nat.not_lt.mp short, accepted⟩
          · rename_i refused
            exact iff_of_false (by simp) fun both => refused both.2

end Attempts

/-! ### All attempts -/

section Loop

variable {jsonData : List UInt8}

/-- Once the body is read, no attempt succeeds, and whatever is sent is empty. -/
theorem attempts_spent (reactions : ℕ → Reaction) {request : Request} (spent : request.body = [])
    (announced : 0 < request.contentLength) (later : List ℕ) :
    (attempts reactions later request).error ≠ none ∧
      (∀ attempt ∈ (attempts reactions later request).attempts, ∀ sent,
        attempt.sent = some sent → sent = [] ∧ ∃ i ∈ later, (reactions i).sends = true) ∧
      ((∃ i ∈ later, (reactions i).sends = true) →
        ∃ attempt ∈ (attempts reactions later request).attempts, attempt.sent = some []) := by
  induction later generalizing request with
  | nil =>
      refine ⟨Option.some_ne_none _, ?_, ?_⟩
      · intro attempt member
        cases member
      · rintro ⟨_, member, _⟩
        cases member
  | cons i later ih =>
      rw [attempts]
      cases sends : (reactions i).sends with
      | false =>
          obtain ⟨error, done⟩ := doRequest_unsent request sends
          obtain ⟨fails, empty, found⟩ := ih spent announced
          rw [done]
          refine ⟨fails, ?_, ?_⟩
          · intro attempt member sent same
            rcases List.mem_cons.mp member with rfl | member
            · cases same
            · obtain ⟨none, j, later, sends⟩ := empty attempt member sent same
              exact ⟨none, j, List.mem_cons_of_mem _ later, sends⟩
          · rintro ⟨j, member, sends'⟩
            rcases List.mem_cons.mp member with rfl | member
            · rw [sends] at sends'
              cases sends'
            · obtain ⟨attempt, member, same⟩ := found ⟨j, member, sends'⟩
              exact ⟨attempt, List.mem_cons_of_mem _ member, same⟩
      | true =>
          obtain ⟨result, done, succeeds⟩ := doRequest_sent request sends
          obtain ⟨fails, empty, _⟩ := @ih request.read rfl announced
          rw [done, spent]
          cases result with
          | ok value =>
              have whole := (succeeds.mp rfl).1
              rw [spent] at whole
              exact absurd announced (Nat.not_lt.mpr whole)
          | error error =>
              refine ⟨fails, ?_, fun _ => ⟨_, List.mem_cons_self, rfl⟩⟩
              intro attempt member sent same
              rcases List.mem_cons.mp member with rfl | member
              · cases same
                exact ⟨rfl, i, List.mem_cons_self, sends⟩
              · exact ⟨(empty attempt member sent same).1, i, List.mem_cons_self, sends⟩

variable {reactions : ℕ → Reaction}

/-- An attempt that gets through without being accepted leaves the promise to the
attempts after it, none of which may get through. -/
theorem promise_spent (nonempty : jsonData ≠ []) {request : Request} (spent : request.body = [])
    (announced : 0 < request.contentLength) {later : List ℕ} {first : Attempt} {i : ℕ}
    (whole : first.sent = some jsonData) (refused : (reactions i).accepts = false) :
    Promise jsonData ((i :: later).map reactions)
        ⟨first :: (attempts reactions later request).attempts,
          (attempts reactions later request).error⟩ ↔
      ∀ next ∈ later.map reactions, next.sends = false := by
  obtain ⟨fails, empty, found⟩ := attempts_spent reactions spent announced later
  constructor
  · intro promise next member
    obtain ⟨j, tried, rfl⟩ := List.mem_map.mp member
    by_contra sends
    rw [Bool.not_eq_false] at sends
    obtain ⟨attempt, member, same⟩ := found ⟨j, tried, sends⟩
    exact nonempty (promise.whole attempt (List.mem_cons_of_mem _ member) [] same).symm
  · intro unsent
    have quiet : ∀ j ∈ later, (reactions j).sends = false :=
      fun j member => unsent _ (List.mem_map_of_mem member)
    refine ⟨fun attempt member sent same => ?_, iff_of_false fails ?_⟩
    · rcases List.mem_cons.mp member with rfl | member
      · rw [whole, Option.some.injEq] at same
        exact same.symm
      · obtain ⟨_, j, member, sends⟩ := empty attempt member sent same
        rw [quiet j member] at sends
        cases sends
    · rintro ⟨reaction, member, accepts⟩
      obtain ⟨j, tried, rfl⟩ := List.mem_map.mp member
      rcases List.mem_cons.mp tried with rfl | tried
      · rw [refused] at accepts
        cases accepts
      · have sends := Reaction.sends_of_accepts accepts
        rw [quiet j tried] at sends
        cases sends

/-- The promise of the attempts that are left, while the body is whole. -/
theorem attempts_promise_iff (nonempty : jsonData ≠ []) {request : Request}
    (whole : request.body = jsonData) (length : request.contentLength = jsonData.length)
    (left : List ℕ) :
    Promise jsonData (left.map reactions) (attempts reactions left request) ↔
      SentOnce (left.map reactions) := by
  have announced : 0 < request.contentLength := by
    rw [length]
    exact List.length_pos_iff.mpr nonempty
  induction left with
  | nil =>
      refine iff_of_true ⟨fun attempt member => (by cases member), ?_⟩ trivial
      exact iff_of_false (Option.some_ne_none _) fun ⟨_, member, _⟩ => (by cases member)
  | cons i later ih =>
      rw [List.map_cons, SentOnce, attempts]
      cases sends : (reactions i).sends with
      | false =>
          obtain ⟨error, done⟩ := doRequest_unsent request sends
          have refused : (reactions i).accepts ≠ true := fun accepts => by
            rw [Reaction.sends_of_accepts accepts] at sends
            cases sends
          rw [done, if_neg (by decide)]
          refine Iff.trans ?_ ih
          constructor
          · intro promise
            refine ⟨fun attempt member => promise.whole attempt (List.mem_cons_of_mem _ member), ?_⟩
            rw [promise.outcome]
            simp [refused]
          · intro promise
            refine ⟨fun attempt member sent same => ?_, ?_⟩
            · rcases List.mem_cons.mp member with rfl | member
              · cases same
              · exact promise.whole attempt member sent same
            · rw [promise.outcome]
              simp [refused]
      | true =>
          obtain ⟨result, done, succeeds⟩ := doRequest_sent request sends
          rw [done, if_pos rfl]
          cases result with
          | ok value =>
              have accepts := (succeeds.mp rfl).2
              refine iff_of_true ⟨?_, ?_⟩ (.inl accepts)
              · intro attempt member sent same
                rw [List.mem_singleton.mp member, Option.some.injEq] at same
                exact same ▸ whole
              · exact iff_of_true rfl ⟨_, List.mem_cons_self, accepts⟩
          | error error =>
              have refused : (reactions i).accepts = false := by
                by_contra accepts
                rw [Bool.not_eq_false] at accepts
                cases succeeds.mpr ⟨by rw [length, whole], accepts⟩
              have read : (request.read).body = [] := rfl
              rw [refused, or_iff_right (by decide)]
              exact promise_spent nonempty read announced (congrArg some whole) refused

theorem length_attempts (request : Request) (left : List ℕ) :
    (attempts reactions left request).attempts.length ≤ left.length := by
  induction left generalizing request with
  | nil => exact Nat.le_refl 0
  | cons i later ih =>
      rw [attempts]
      split
      · exact Nat.le_add_left 1 later.length
      · exact Nat.succ_le_succ (ih _)

end Loop

/-- **`Send` keeps its promise exactly if nothing gets through after the first request
that gets through, or that one is accepted.** It makes three attempts at most. -/
theorem send_promise_iff {marshal : PrivateInvoicePrintable → Except String (List UInt8)}
    (nonempty : ∀ invoice, marshal invoice ≠ .ok []) {invoice : PrivateInvoicePrintable}
    {jsonData : List UInt8} (encoded : marshal invoice = .ok jsonData) (url : String)
    (reactions : ℕ → Reaction) :
    (send marshal url reactions invoice).attempts.length ≤ 3 ∧
      (Promise jsonData ([1, 2, 3].map reactions) (send marshal url reactions invoice) ↔
        SentOnce ([1, 2, 3].map reactions)) := by
  have whole : jsonData ≠ [] := by
    rintro rfl
    exact nonempty invoice encoded
  unfold send
  rw [encoded]
  exact ⟨length_attempts _ _, attempts_promise_iff whole rfl rfl [1, 2, 3]⟩

/-! ## A server that is busy once -/

section Shop

/-- A field of an object, as `encoding/json` writes it. -/
def marshalField (name : String) (value : List UInt8) : List UInt8 :=
  bytesOf (quote name) ++ bytesOf ":" ++ value

def marshalObject (fields : List (String × List UInt8)) : List UInt8 :=
  bytesOf "\x7b" ++ List.intercalate (bytesOf ",")
    (fields.map fun field => marshalField field.1 field.2) ++ bytesOf "\x7d"

def marshalString (text : String) : List UInt8 := bytesOf (quote text)

def marshalInt (value : ℤ) : List UInt8 := bytesOf (toString value)

/-- `json.Marshal` of an invoice whose maps are not nil. -/
def marshal (invoice : PrivateInvoicePrintable) : List UInt8 :=
  let shown := invoice.public'
  let given := fun (name text : String) => if text = "" then [] else [(name, marshalString text)]
  marshalObject ([("id", marshalString shown.id), ("status", marshalString shown.status),
      ("amount", marshalString shown.amount), ("currency", marshalString shown.currency),
      ("pay_to_address", marshalString shown.recipient),
      ("payment_links", marshalRawMap (shown.paymentLinks.map fun link => (link.1, quote link.2))),
      ("created_at", marshalInt shown.createdAt), ("expire_at", marshalInt shown.expireAt),
      ("updated_at", marshalInt shown.updatedAt),
      ("overpayment", marshalString shown.overpayment)] ++
    given "paid_by" shown.paidBy ++
    (shown.paidAt.toList.map fun paidAt => ("paid_at", marshalInt paidAt)) ++
    given "tx_hash" shown.txHash ++
    (shown.jettonInfo.toList.map fun info => ("jetton_info",
      marshalObject [("address", marshalString info.address),
        ("decimals", marshalInt info.decimals)])) ++
    [("payload", marshalString shown.payload),
      ("private_info", marshalRawMap invoice.privateInfo),
      ("metadata", marshalRawMap invoice.metadata)])

theorem marshal_ne_nil (invoice : PrivateInvoicePrintable) :
    (.ok (marshal invoice) : Except String (List UInt8)) ≠ .ok [] := by
  have first : bytesOf "\x7b" ≠ [] := by decide +kernel
  rw [Ne, Except.ok.injEq]
  unfold marshal marshalObject
  simp [first]

/-- A paid invoice over 10 TON. -/
def invoice : PrivateInvoicePrintable where
  public' := ⟨"0197", "paid", "10", "TON", "0:01", [], 0, 60, 30, "0", "0:02", some 30, "05", none,
    "te6c"⟩
  privateInfo := [("order", "5")]
  metadata := [("goods", "[]")]

def busy : Reaction := .answered 500 "500 Internal Server Error"

def success : Reaction := .answered 200 "200 OK"

/-- No connection comes about at first, and the server accepts later. -/
def late (i : ℕ) : Reaction := if i = 1 then .unsent "connection refused" else success

/-- The server is busy at first, and would accept later. -/
def once (i : ℕ) : Reaction := if i = 1 then busy else success

/-- A server that is reached at the second attempt gets the whole invoice. -/
theorem late_server_gets_invoice :
    (send (fun invoice => .ok (marshal invoice)) "http://shop/" late invoice).attempts.length ≤ 3 ∧
      Promise (marshal invoice) ([1, 2, 3].map late)
        (send (fun invoice => .ok (marshal invoice)) "http://shop/" late invoice) := by
  obtain ⟨few, promise⟩ := send_promise_iff marshal_ne_nil rfl "http://shop/" late
  exact ⟨few, promise.mpr (.inl rfl)⟩

/-- A server that is busy once would accept the second attempt. That attempt sends an
empty body and fails, like the third, and `Send` returns an error. -/
theorem busy_server_gets_nothing :
    (send (fun invoice => .ok (marshal invoice)) "http://shop/" once invoice).error =
        some "attempts to send a webhook ended" ∧
      (send (fun invoice => .ok (marshal invoice)) "http://shop/" once invoice).attempts.map
        Attempt.sent = [some (marshal invoice), some [], some []] ∧
      (once 2).accepts = true ∧
      ¬ Promise (marshal invoice) ([1, 2, 3].map once)
        (send (fun invoice => .ok (marshal invoice)) "http://shop/" once invoice) := by
  have failed : (send (fun invoice => .ok (marshal invoice)) "http://shop/" once invoice).error =
      some "attempts to send a webhook ended" := by decide +kernel
  refine ⟨failed, by decide +kernel, by decide, fun promise => ?_⟩
  have none := promise.outcome.mpr ⟨once 2, by simp, by decide⟩
  rw [failed] at none
  cases none

end Shop

end Webhook

end SpiceHarvester
