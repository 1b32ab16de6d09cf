import SpiceHarvester.StartUp.Config
import SpiceHarvester.Api.NewInvoice
import SpiceHarvester.Core.Texts

/-!
# The tickers of the configuration, and the invoices printed with them

The parser of `JETTONS` lists a ticker once and an address once, so a ticker determines its
currency and a currency its ticker. `convertNewInvoice` looks a currency up under its ticker,
and `ConvertInvoiceToPrintablePublic` goes through the whole map for the ticker of a
currency, and takes the empty text for none. The parser accepts that text as a ticker: the
invoices accepted for it cannot be printed, and all others can (`prints_iff`).
-/

set_option autoImplicit false

namespace SpiceHarvester

namespace StartUp

/-! ## What is loaded -/

/-- What holds of the tickers and the addresses in the loop of `Load`: a currency is listed
once, and all but TON are jettons whose addresses are kept. -/
structure Loaded (loaded : Tickers × List AccountID) : Prop where
  currencies : (loaded.1.entries.map fun entry => entry.2.currency).Nodup
  kept : ∀ entry ∈ loaded.1.entries, entry.2.currency = .ton ∨
    ∃ address ∈ loaded.2, entry.2.currency = .jetton address

theorem Loaded.start : Loaded (.default, []) where
  currencies := List.nodup_singleton _
  kept := by
    intro entry member
    obtain rfl := List.mem_singleton.mp member
    exact .inl rfl

/-- A new address is that of no ticker. -/
theorem Loaded.add {tickers : Tickers} {addresses : List AccountID} {ticker : String}
    {address : AccountID} {decimals : ℤ} (loaded : Loaded (tickers, addresses))
    (new : ticker ∉ tickers.entries.map Prod.fst) (unused : address ∉ addresses) :
    Loaded (tickers.add ticker ⟨.jetton address, decimals⟩ new, address :: addresses) where
  currencies := by
    change ((tickers.entries ++ [_]).map _).Nodup
    rw [List.map_append, List.map_singleton]
    refine loaded.currencies.append (List.nodup_singleton _) (List.disjoint_singleton.mpr ?_)
    intro listed
    obtain ⟨entry, member, same⟩ := List.mem_map.mp listed
    rcases loaded.kept entry member with ton | ⟨other, kept, jetton⟩
    · cases ton.symm.trans same
    · cases jetton.symm.trans same
      exact unused kept
  kept := by
    intro entry member
    rcases List.mem_append.mp member with before | last
    · rcases loaded.kept entry before with ton | ⟨other, kept, jetton⟩
      · exact .inl ton
      · exact .inr ⟨other, List.mem_cons_of_mem _ kept, jetton⟩
    · obtain rfl := List.mem_singleton.mp last
      exact .inr ⟨address, List.mem_cons_self, rfl⟩

section Loading

variable [Libraries]

/-- One round of the loop. -/
theorem loaded_of_addJetton {v s : String} {before after : Tickers × List AccountID}
    (loaded : Loaded before) (added : addJetton v before s = .ok after) : Loaded after := by
  unfold addJetton at added
  split at added
  · obtain ⟨address, _, added⟩ := except_bind added
    obtain ⟨decimals, _, added⟩ := except_bind added
    by_cases outside : decimals < 0 ∨ 255 < decimals
    · rw [if_pos outside] at added
      obtain ⟨_, refused, _⟩ := except_bind added
      cases refused
    · rw [if_neg outside] at added
      dsimp only at added
      split at added
      · rename_i new
        by_cases used : address ∈ before.2
        · rw [if_pos used] at added
          obtain ⟨_, refused, _⟩ := except_bind added
          cases refused
        · rw [if_neg used] at added
          cases added
          exact loaded.add new used
      · cases added
  · cases added

/-- The whole loop, by induction on the jettons to come. -/
theorem loaded_of_foldlM {v : String} {jettons : List String}
    {before after : Tickers × List AccountID} (loaded : Loaded before)
    (added : jettons.foldlM (addJetton v) before = .ok after) : Loaded after := by
  induction jettons generalizing before with
  | nil =>
      cases added
      exact loaded
  | cons jetton jettons ih =>
      rw [List.foldlM_cons] at added
      obtain ⟨next, first, added⟩ := except_bind added
      exact ih (loaded_of_addJetton loaded first) added

/-- **In a configuration that is accepted, a currency is listed once**, and all but TON are
jettons. -/
theorem loaded_of_loadJettons {v : String} {tickers : Tickers}
    (accepted : loadJettons v = .ok tickers) : ∃ addresses, Loaded (tickers, addresses) := by
  unfold loadJettons at accepted
  split at accepted
  · cases accepted
    exact ⟨_, .start⟩
  · cases added : (split v ',').foldlM (addJetton v) (.default, []) with
    | error message =>
        rw [added] at accepted
        cases accepted
    | ok after =>
        rw [added] at accepted
        cases accepted
        exact ⟨_, loaded_of_foldlM .start added⟩

end Loading

/-! ## The ticker of a currency -/

/-- Where the currency is not listed, the loop keeps the ticker it has. -/
theorem foldl_ticker_of_unlisted {order : List (String × ExtendedCurrency)} {currency : Currency}
    (unlisted : currency ∉ order.map fun entry => entry.2.currency) (ticker : String) :
    order.foldl (fun ticker entry => if entry.2.currency = currency then entry.1 else ticker)
      ticker = ticker := by
  induction order with
  | nil => rfl
  | cons first rest ih =>
      rw [List.map_cons, List.mem_cons, not_or] at unlisted
      rw [List.foldl_cons, if_neg fun same => unlisted.1 same.symm]
      exact ih unlisted.2

/-- **Where currencies are listed once, the loop finds the ticker of an entry under its
currency**, whatever it starts from. -/
theorem foldl_ticker_of_mem {order : List (String × ExtendedCurrency)}
    (distinct : (order.map fun entry => entry.2.currency).Nodup)
    {entry : String × ExtendedCurrency} (member : entry ∈ order) (ticker : String) :
    order.foldl (fun ticker other => if other.2.currency = entry.2.currency then other.1 else ticker)
      ticker = entry.1 := by
  induction order generalizing ticker with
  | nil => cases member
  | cons first rest ih =>
      rw [List.map_cons, List.nodup_cons] at distinct
      rw [List.foldl_cons]
      rcases List.mem_cons.mp member with rfl | later
      · rw [if_pos rfl]
        exact foldl_ticker_of_unlisted distinct.1 _
      · exact ih distinct.2 later _

theorem tickerOf_of_mem {order : List (String × ExtendedCurrency)}
    (distinct : (order.map fun entry => entry.2.currency).Nodup)
    {entry : String × ExtendedCurrency} (member : entry ∈ order) :
    tickerOf order entry.2.currency = entry.1 :=
  foldl_ticker_of_mem distinct member ""

/-! ## What is printed -/

section Printing

variable [Libraries]

/-- What is printed of a jetton that is configured so. -/
def printedInfo (extended : ExtendedCurrency) : Option JettonInfo :=
  match extended.currency with
  | .jetton master => some ⟨Libraries.toRaw master, extended.jettonDecimals⟩
  | _ => none

/-- Invoices that are accepted for a ticker are printed, at any time of their lives, with the
ticker and what is configured for it, in whatever order the map is visited. -/
def Tickers.Prints (tickers : Tickers) (adnlAddress : Option Bits256) (ticker : String)
    (extended : ExtendedCurrency) : Prop :=
  ∀ (handler : Handler) (prefixes : List (String × String))
    (order : List (String × ExtendedCurrency)) (newInvoice : NewInvoice) (recipient : AccountID)
    (id : InvoiceID) (now : Time) (accepted invoice : Invoice),
    handler.printing.currencies.Perm tickers.entries → order.Perm tickers.entries →
    newInvoice.currency = ticker →
    convertNewInvoice handler newInvoice recipient id now = .ok accepted →
    invoice.id = accepted.id → invoice.currency = accepted.currency →
    ∃ printed, convertInvoiceToPrintablePublic ⟨prefixes, order, adnlAddress⟩ invoice = .ok printed ∧
      printed.currency = ticker ∧ printed.jettonInfo = printedInfo extended

/-- A payment link of an invoice over a currency that is configured. -/
theorem generatePaymentLink_ok {adnlAddress : Option Bits256} {invoice : Invoice}
    {bytes : List UInt8} (encodes : Libraries.invoicePayloadBoc invoice.id adnlAddress = .ok bytes)
    (known : invoice.currency = .ton ∨ ∃ address, invoice.currency = .jetton address)
    (linkPrefix : String) :
    ∃ link, generatePaymentLink linkPrefix invoice adnlAddress = .ok link := by
  unfold generatePaymentLink encodePayload
  rw [encodes]
  rcases known with ton | ⟨address, jetton⟩
  · rw [ton]
    exact ⟨_, rfl⟩
  · rw [jetton]
    exact ⟨_, rfl⟩

theorem links_ok {adnlAddress : Option Bits256} {invoice : Invoice}
    {bytes : List UInt8} (encodes : Libraries.invoicePayloadBoc invoice.id adnlAddress = .ok bytes)
    (known : invoice.currency = .ton ∨ ∃ address, invoice.currency = .jetton address)
    (prefixes : List (String × String)) :
    ∃ links, (prefixes.mapM fun entry => do
      let paymentLink ← generatePaymentLink entry.2 invoice adnlAddress
      return (entry.1, paymentLink) : Except Err (List (String × String))) = .ok links := by
  induction prefixes with
  | nil => exact ⟨[], rfl⟩
  | cons first rest ih =>
      obtain ⟨link, generated⟩ := generatePaymentLink_ok encodes known first.2
      obtain ⟨links, mapped⟩ := ih
      refine ⟨(first.1, link) :: links, ?_⟩
      rw [List.mapM_cons, mapped, generated]
      rfl

/-- An invoice over the currency of an entry is printed, unless its ticker is empty. -/
theorem printed_of_mem (printing : Printing) {invoice : Invoice} {bytes : List UInt8}
    {entry : String × ExtendedCurrency}
    (distinct : (printing.currencies.map fun entry => entry.2.currency).Nodup)
    (tickers : (printing.currencies.map Prod.fst).Nodup)
    (member : entry ∈ printing.currencies) (named : entry.1 ≠ "")
    (priced : invoice.currency = entry.2.currency)
    (encodes : Libraries.invoicePayloadBoc invoice.id printing.adnlAddress = .ok bytes)
    (known : invoice.currency = .ton ∨ ∃ address, invoice.currency = .jetton address) :
    ∃ printed, convertInvoiceToPrintablePublic printing invoice = .ok printed ∧
      printed.currency = entry.1 ∧ printed.jettonInfo = printedInfo entry.2 := by
  obtain ⟨links, generated⟩ := links_ok encodes known printing.prefixes
  have found : tickerOf printing.currencies invoice.currency = entry.1 := by
    rw [priced]
    exact tickerOf_of_mem distinct member
  have listed := lookup_of_mem tickers member
  unfold convertInvoiceToPrintablePublic encodePayload
  rw [found, if_neg named, encodes, generated, listed]
  refine ⟨_, rfl, rfl, ?_⟩
  unfold printedInfo
  rw [priced]
  rfl

/-- An invoice over a currency whose ticker is empty is not printed. -/
theorem not_printed_of_empty {printing : Printing} {invoice : Invoice}
    {entry : String × ExtendedCurrency}
    (distinct : (printing.currencies.map fun entry => entry.2.currency).Nodup)
    (member : entry ∈ printing.currencies) (empty : entry.1 = "")
    (priced : invoice.currency = entry.2.currency) (printed : PublicInvoicePrintable) :
    convertInvoiceToPrintablePublic printing invoice ≠ .ok printed := by
  have found : tickerOf printing.currencies invoice.currency = "" := by
    rw [priced, tickerOf_of_mem distinct member, empty]
  unfold convertInvoiceToPrintablePublic
  rw [found, if_pos rfl]
  intro printed
  cases printed

/-- Something is accepted for the empty ticker once it is listed, and is not printed. -/
theorem not_prints_of_empty {tickers : Tickers} {extended : ExtendedCurrency}
    (distinct : (tickers.entries.map fun entry => entry.2.currency).Nodup)
    (member : ("", extended) ∈ tickers.entries) (adnlAddress : Option Bits256) :
    ¬ tickers.Prints adnlAddress "" extended := by
  intro prints
  let handler : Handler := ⟨⟨[], tickers.entries, none⟩, none, "", ""⟩
  let newInvoice : NewInvoice := ⟨"1", "", 1, none, ⟨"merchant", "", "", none, 0⟩⟩
  have checked : newInvoice.checked = .ok 1 := by
    unfold NewInvoice.checked
    rw [show parseDecimal newInvoice.amount = some 1 from by decide]
    rfl
  have listed : handler.printing.currencies.lookup newInvoice.currency = some extended :=
    lookup_of_mem tickers.distinct member
  obtain ⟨invoice, converted⟩ :=
    convertNewInvoice_accepts checked listed (by rfl) ⟨0, 0⟩ 0 0
  obtain ⟨other, found, priced⟩ := listed_of_convertNewInvoice converted
  rw [listed] at found
  cases found
  obtain ⟨printed, printable, _⟩ := prints handler [] tickers.entries newInvoice ⟨0, 0⟩ 0 0
    invoice invoice (.refl _) (.refl _) rfl converted rfl rfl
  exact not_printed_of_empty distinct member rfl priced printed printable

/-- **The invoices that are accepted for a ticker are printed, exactly if the ticker is not
empty.** The cell of a payload can be encoded. -/
theorem prints_iff {v : String} {tickers : Tickers} (accepted : loadJettons v = .ok tickers)
    {adnlAddress : Option Bits256}
    (encodes : ∀ id, ∃ bytes, Libraries.invoicePayloadBoc id adnlAddress = .ok bytes)
    {ticker : String} {extended : ExtendedCurrency}
    (member : (ticker, extended) ∈ tickers.entries) :
    tickers.Prints adnlAddress ticker extended ↔ ticker ≠ "" := by
  obtain ⟨addresses, loaded⟩ := loaded_of_loadJettons accepted
  have listed : ∀ {order : List (String × ExtendedCurrency)}, order.Perm tickers.entries →
      (order.map Prod.fst).Nodup ∧ (order.map fun entry => entry.2.currency).Nodup ∧
        (ticker, extended) ∈ order ∧ order.lookup ticker = some extended := by
    intro order same
    have tickersOnce := (same.map Prod.fst).nodup_iff.mpr tickers.distinct
    have visited := same.mem_iff.mpr member
    exact ⟨tickersOnce, (same.map _).nodup_iff.mpr loaded.currencies, visited,
      lookup_of_mem tickersOnce visited⟩
  constructor
  · rintro prints rfl
    exact not_prints_of_empty loaded.currencies member adnlAddress prints
  · intro nonempty handler prefixes order newInvoice recipient id now accepted invoice map visited
      named converted sameID sameCurrency
    obtain ⟨other, found, priced⟩ := listed_of_convertNewInvoice converted
    rw [named, (listed map).2.2.2] at found
    cases found
    obtain ⟨bytes, encoded⟩ := encodes invoice.id
    obtain ⟨tickersOnce, currenciesOnce, entry, _⟩ := listed visited
    have known : extended.currency = .ton ∨ ∃ address, extended.currency = .jetton address :=
      (loaded.kept _ member).imp_right fun ⟨address, _, same⟩ => ⟨address, same⟩
    rw [← sameCurrency.trans priced] at known
    exact printed_of_mem ⟨prefixes, order, adnlAddress⟩ currenciesOnce tickersOnce entry nonempty
      (sameCurrency.trans priced) encoded known

end Printing

/-! ## A ticker without a name -/

namespace Shop

attribute [local instance] Texts.libraries

/-- A jetton. -/
def jettonMaster : AccountID :=
  ⟨0, 0x1111111111111111111111111111111111111111111111111111111111111111⟩

/-- The text of the jetton in `JETTONS`, under a ticker. -/
def jettons (ticker : String) : String :=
  ticker ++ " 9 0:" ++ String.ofList (List.replicate 64 '1')

/-- What is configured for it. -/
def configured : ExtendedCurrency := ⟨.jetton jettonMaster, 9⟩

theorem loaded_jettons (ticker : String) (known : ticker = "USD" ∨ ticker = "") :
    ∃ tickers, loadJettons (jettons ticker) = .ok tickers ∧
      (ticker, configured) ∈ tickers.entries := by
  have listed : ((loadJettons (jettons ticker)).toOption.map fun tickers =>
      decide ((ticker, configured) ∈ tickers.entries)) = some true := by
    rcases known with rfl | rfl <;> decide +kernel
  cases loaded : loadJettons (jettons ticker) with
  | error message =>
      rw [loaded] at listed
      cases listed
  | ok tickers =>
      rw [loaded] at listed
      exact ⟨tickers, rfl, of_decide_eq_true (Option.some.inj listed)⟩

theorem encodes (id : InvoiceID) : ∃ bytes, Libraries.invoicePayloadBoc id none = .ok bytes :=
  ⟨_, rfl⟩

/-- Invoices in a jetton with a ticker are printed. -/
theorem usd_prints : ∃ tickers, loadJettons (jettons "USD") = .ok tickers ∧
    tickers.Prints none "USD" configured := by
  obtain ⟨tickers, loaded, member⟩ := loaded_jettons "USD" (.inl rfl)
  exact ⟨tickers, loaded, (prints_iff loaded encodes member).mpr (by decide)⟩

/-- Invoices in a jetton without one are accepted, and not printed. -/
theorem nameless_unprinted : ∃ tickers, loadJettons (jettons "") = .ok tickers ∧
    ¬ tickers.Prints none "" configured := by
  obtain ⟨tickers, loaded, member⟩ := loaded_jettons "" (.inr rfl)
  obtain ⟨addresses, once⟩ := loaded_of_loadJettons loaded
  exact ⟨tickers, loaded, not_prints_of_empty once.currencies member none⟩

end Shop

end StartUp

end SpiceHarvester
