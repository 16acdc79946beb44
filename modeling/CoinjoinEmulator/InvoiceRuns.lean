import CoinjoinEmulator.InvoiceCalls
import CoinjoinEmulator.Scenario.Configuration

/-! The invoices of the funds of a scenario, from their preparation through any updates: each is
paid once, or is still scheduled. -/

namespace CoinjoinEmulator

open ProofKit Scenario

/-- An invoice that was paid, and the block and round of the update that paid it. -/
structure FundingPayment where
  invoice : Invoice
  block : Int
  round : Int

/-- What `prepare_invoices` needs of a client. -/
structure FundedClient (σ : Type) where
  name : String
  getNewAddress : EStateM PyError σ String

/-- What decides the answers of the clients and of the distributor, the clients that were asked for
an address with what they gave out, and the payments. -/
structure Bank (σ : Type) where
  inner : σ
  issued : List (FundedClient σ × String)
  paid : List FundingPayment

/-- How `random.shuffle` reorders the list of each schedule. -/
structure Shuffle where
  reorder : Int × Int → List Invoice → List Invoice
  perm : ∀ schedule invoices, (reorder schedule invoices).Perm invoices

namespace Bank

variable {σ : Type}

def setInner (bank : Bank σ) (inner : σ) : Bank σ := { bank with inner }

def call {α : Type} (program : EStateM PyError σ α) : EStateM PyError (Bank σ) α :=
  zoom inner setInner program

end Bank

/-- The distributor in an update.  It pays the whole batch unless it raises or returns
`'timeout'`. -/
def Distributor.paying {σ : Type} (send : Distributor σ) (block round : Int) :
    Distributor (Bank σ) := fun batch => do
  let result ← Bank.call (send batch)
  if result = "timeout" then return result
  else do
    modify fun bank => { bank with
      paid := bank.paid ++ batch.map fun invoice => ⟨invoice, block, round⟩ }
    return result

namespace Funding

variable {σ : Type}

/-- `self.invoices.setdefault(schedule, []).append(invoice)`. -/
def addInvoice (engine : Funding σ) (schedule : Int × Int) (invoice : Invoice) : Funding σ where
  world := engine.world
  invoices := engine.invoices.add schedule invoice
  nodup_keys := by
    rw [Groups.keys_add]
    exact nodup_insertNew schedule engine.nodup_keys

def shuffleAll (engine : Funding σ) (shuffle : Shuffle) : Funding σ where
  world := engine.world
  invoices := engine.invoices.map fun group => (group.1, shuffle.reorder group.1 group.2)
  nodup_keys := by simpa [List.map_map, Function.comp_def] using engine.nodup_keys

end Funding

section Prepare

variable {σ : Type}

/-- Get an address of the client and schedule its invoice. -/
def addressInvoice (client : FundedClient σ) (schedule : Int × Int) (value : Int) :
    EStateM PyError (Funding (Bank σ)) Unit := do
  let address ← Funding.onWorld (Bank.call client.getNewAddress)
  modify fun engine => (engine.setWorld { engine.world with
    issued := engine.world.issued ++ [(client, address)] }).addInvoice schedule (address, value)

-- `repr(fund)`, for the text of the error.
variable (repr : Json → String)

/-- One turn of the loop over the funds of a client. -/
def prepareFund (client : FundedClient σ) : Fund Int → EStateM PyError (Funding (Bank σ)) Unit
  | .amount value => addressInvoice client (0, 0) value
  | .config fund =>
    addressInvoice client (fund.delayBlocks.getD 0, fund.delayRounds.getD 0) fund.value
  | .other entry =>
    throw (.typeError ("unsupported fund entry for " ++ client.name ++ ": " ++ repr entry))

/-- The funds of the wallets, each with the client of its wallet. -/
def clientInvoices (clients : List (FundedClient σ)) (wallets : List (List (Fund Int))) :
    List (FundedClient σ × Fund Int) :=
  (clients.zip wallets).flatMap fun entry => entry.2.map (Prod.mk entry.1)

def prepareInvoices (shuffle : Shuffle) (clients : List (FundedClient σ))
    (wallets : List (List (Fund Int))) : EStateM PyError (Funding (Bank σ)) Unit := do
  forM (clientInvoices clients wallets) fun entry => prepareFund repr entry.1 entry.2
  modify fun engine => engine.shuffleAll shuffle

end Prepare

/-! ### What preparing schedules -/

/-- The delays in blocks and rounds of a fund, and its value. -/
def demand : Fund Int → Option ((Int × Int) × Int)
  | .amount value => some ((0, 0), value)
  | .config fund => some ((fund.delayBlocks.getD 0, fund.delayRounds.getD 0), fund.value)
  | .other _ => none

/-- The demands of the funds of every wallet, with the position of the wallet. -/
def demands (wallets : List (List (Fund Int))) : List (Nat × Option ((Int × Int) × Int)) :=
  wallets.zipIdx.flatMap fun entry => entry.1.map fun fund => (entry.2, demand fund)

/-- The invoice of a fund: the position of its wallet, its delays, and an address and a value. -/
structure Order where
  wallet : Nat
  schedule : Int × Int
  invoice : Invoice

namespace Order

/-- The fund that the invoice is for. -/
def demanded (order : Order) : Nat × Option ((Int × Int) × Int) :=
  (order.wallet, some (order.schedule, order.invoice.2))

def entry (order : Order) : (Int × Int) × Invoice := (order.schedule, order.invoice)

end Order

section Prepared

variable {σ : Type} {repr : Json → String} {clients : List (FundedClient σ)}

/-- The client of the wallet of the order was asked for an address, and gave out the one on the
invoice. -/
structure Order.IssuedBy (clients : List (FundedClient σ)) (order : Order)
    (issue : FundedClient σ × String) : Prop where
  client : clients[order.wallet]? = some issue.1
  address : order.invoice.1 = issue.2

/-- Preparing added the invoices of `orders`, for addresses that were given out for them. -/
structure Ordered (clients : List (FundedClient σ)) (orders : List Order)
    (engine engine' : Funding (Bank σ)) : Prop where
  issued : ∃ added, engine'.world.issued = engine.world.issued ++ added ∧
    List.Forall₂ (Order.IssuedBy clients) orders added
  paid : engine'.world.paid = engine.world.paid
  scheduled : engine'.entries.Perm (orders.map Order.entry ++ engine.entries)

theorem Ordered.trans {orders orders' : List Order} {engine engine' engine'' : Funding (Bank σ)}
    (h : Ordered clients orders engine engine') (h' : Ordered clients orders' engine' engine'') :
    Ordered clients (orders ++ orders') engine engine'' where
  issued := by
    obtain ⟨added, hadded, hissued⟩ := h.issued
    obtain ⟨added', hadded', hissued'⟩ := h'.issued
    refine ⟨added ++ added', ?_, List.rel_append hissued hissued'⟩
    rw [hadded', hadded, List.append_assoc]
  paid := h'.paid.trans h.paid
  scheduled := by
    apply (h'.scheduled.trans (h.scheduled.append_left _)).trans
    rw [List.map_append, List.append_assoc]
    exact List.perm_append_comm_assoc _ _ _

theorem addressInvoice_ordered {index : Nat} {client : FundedClient σ}
    (hclient : clients[index]? = some client) {schedule : Int × Int} {value : Int}
    {engine engine' : Funding (Bank σ)}
    (h : (addressInvoice client schedule value).run engine = .ok () engine') :
    ∃ address, Ordered clients [⟨index, schedule, (address, value)⟩] engine engine' := by
  simp only [addressInvoice, EStateM.run_bind, Funding.onWorld, Bank.call, run_zoom] at h
  cases hcall : client.getNewAddress.run engine.world.inner with
  | error error inner =>
    rw [hcall] at h
    cases h
  | ok address inner =>
    rw [hcall] at h
    cases h
    exact ⟨address, ⟨_, rfl, .cons ⟨hclient, rfl⟩ .nil⟩, rfl, Groups.entries_add _ _ _⟩

theorem prepareFund_ordered {index : Nat} {client : FundedClient σ}
    (hclient : clients[index]? = some client) {fund : Fund Int}
    {engine engine' : Funding (Bank σ)}
    (h : (prepareFund repr client fund).run engine = .ok () engine') :
    ∃ order : Order, order.demanded = (index, demand fund) ∧
      Ordered clients [order] engine engine' := by
  cases fund with
  | amount value =>
    obtain ⟨address, hordered⟩ := addressInvoice_ordered hclient h
    exact ⟨_, rfl, hordered⟩
  | config fund =>
    obtain ⟨address, hordered⟩ := addressInvoice_ordered hclient h
    exact ⟨_, rfl, hordered⟩
  | other entry => cases h

/-- The funds of the wallets, each with the position of its wallet and its client. -/
def numberedInvoices (clients : List (FundedClient σ)) (wallets : List (List (Fund Int))) :
    List (Nat × FundedClient σ × Fund Int) :=
  (clients.zip wallets).zipIdx.flatMap fun entry =>
    entry.1.2.map fun fund => (entry.2, entry.1.1, fund)

theorem map_snd_numberedInvoices (clients : List (FundedClient σ))
    (wallets : List (List (Fund Int))) :
    (numberedInvoices clients wallets).map Prod.snd = clientInvoices clients wallets := by
  have hzip : (clients.zip wallets).zipIdx.map Prod.fst = clients.zip wallets :=
    List.zipIdx_map_fst 0 _
  rw [clientInvoices, numberedInvoices, List.map_flatMap]
  conv_rhs => rw [← hzip, List.flatMap_map]
  simp [Function.comp_def]

/-- The position is the one of the client. -/
theorem client_of_numbered {wallets : List (List (Fund Int))}
    {entry : Nat × FundedClient σ × Fund Int} (h : entry ∈ numberedInvoices clients wallets) :
    clients[entry.1]? = some entry.2.1 := by
  obtain ⟨⟨⟨client, funds⟩, index⟩, hmem, hentry⟩ := List.mem_flatMap.mp h
  obtain ⟨fund, -, rfl⟩ := List.mem_map.mp hentry
  have hzip : (clients.zip wallets)[index]? = some (client, funds) :=
    List.mk_mem_zipIdx_iff_getElem?.mp hmem
  exact (List.getElem?_zip_eq_some.mp hzip).1

theorem forM_prepareFund_ordered {entries : List (Nat × FundedClient σ × Fund Int)}
    (hclients : ∀ entry ∈ entries, clients[entry.1]? = some entry.2.1)
    {engine engine' : Funding (Bank σ)}
    (h : (forM (entries.map Prod.snd) fun entry => prepareFund repr entry.1 entry.2).run engine =
      .ok () engine') :
    ∃ orders, orders.map Order.demanded = entries.map (fun entry => (entry.1, demand entry.2.2)) ∧
      Ordered clients orders engine engine' := by
  induction entries generalizing engine with
  | nil =>
    cases h
    exact ⟨[], rfl, ⟨[], (List.append_nil _).symm, .nil⟩, rfl, .refl _⟩
  | cons entry rest ih =>
    rw [List.map_cons, List.forM_cons, EStateM.run_bind] at h
    cases hfund : (prepareFund repr entry.2.1 entry.2.2).run engine with
    | error error engine1 =>
      rw [hfund] at h
      cases h
    | ok _ engine1 =>
      rw [hfund] at h
      obtain ⟨order, hdemanded, hfirst⟩ := prepareFund_ordered (hclients entry (by simp)) hfund
      obtain ⟨orders, hrest, hothers⟩ :=
        ih (fun entry' hentry' => hclients entry' (List.mem_cons_of_mem _ hentry')) h
      refine ⟨order :: orders, ?_, hfirst.trans hothers⟩
      rw [List.map_cons, List.map_cons, hdemanded, hrest]

theorem demands_of_zip {wallets : List (List (Fund Int))}
    (h : clients.length = wallets.length) :
    (numberedInvoices clients wallets).map (fun entry => (entry.1, demand entry.2.2)) =
      demands wallets := by
  have hwallets : (clients.zip wallets).zipIdx.map (fun entry => (entry.1.2, entry.2)) =
      wallets.zipIdx := by
    conv_rhs => rw [← List.map_snd_zip h.ge, List.zipIdx_map]
    rfl
  rw [demands, ← hwallets, List.flatMap_map, numberedInvoices, List.map_flatMap]
  simp [Function.comp_def]

/-- `prepare_invoices` schedules one invoice for each fund of each wallet. -/
theorem prepareInvoices_ordered {shuffle : Shuffle} {wallets : List (List (Fund Int))}
    (hclients : clients.length = wallets.length)
    {engine engine' : Funding (Bank σ)}
    (h : (prepareInvoices repr shuffle clients wallets).run engine = .ok () engine') :
    ∃ orders, orders.map Order.demanded = demands wallets ∧
      Ordered clients orders engine engine' := by
  rw [prepareInvoices, EStateM.run_bind] at h
  split at h
  · rename_i engine1 hloop
    cases h
    rw [← map_snd_numberedInvoices] at hloop
    obtain ⟨orders, hdemanded, hordered⟩ :=
      forM_prepareFund_ordered (fun _ hentry => client_of_numbered hentry) hloop
    refine ⟨orders, hdemanded.trans (demands_of_zip hclients), hordered.issued, hordered.paid, ?_⟩
    exact (Groups.entries_map shuffle.perm _).trans hordered.scheduled
  · cases h

end Prepared

/-! ### What an update pays -/

section Update

variable {σ : Type} (distributor : Option (Distributor σ)) (block round : Int)

/-- The distributor of an update at a block and a round. -/
def payingAt : Option (Distributor (Bank σ)) :=
  distributor.map fun send => send.paying block round

/-- The payments of a batch. -/
def batchPayments (batch : List Invoice) : List FundingPayment :=
  batch.map fun invoice => ⟨invoice, block, round⟩

/-- A batch is paid unless `send` raises or returns `'timeout'`. -/
theorem logsBatches_paying : ∀ send ∈ payingAt distributor block round,
    LogsBatches Bank.paid (batchPayments block round) send := by
  intro _ hsend
  obtain ⟨send, -, rfl⟩ := Option.map_eq_some_iff.mp hsend
  intro batch bank
  simp only [stateAfter, Distributor.paying, Bank.call, EStateM.run_bind, run_zoom, run_ite]
  cases hrun : (send batch).run bank.inner with
  | error error inner => exact ⟨[], (List.append_nil _).symm, rfl⟩
  | ok result inner =>
    by_cases htimeout : result = "timeout"
    · simp only [htimeout, if_true]
      exact ⟨[], (List.append_nil _).symm, rfl⟩
    · simp only [htimeout, if_false]
      refine ⟨batchPayments block round batch, rfl, ?_⟩
      show batchPayments block round batch = if result != "timeout" then _ else _
      rw [if_pos (bne_iff_ne.mpr htimeout)]

/-- The same addresses are given out. -/
def SameIssued (bank bank' : Bank σ) : Prop := bank'.issued = bank.issued

instance : Std.Refl (SameIssued (σ := σ)) := ⟨fun _ => rfl⟩

instance : IsTrans (Bank σ) SameIssued := ⟨fun _ _ _ h h' => h'.trans h⟩

theorem keeps_issued : Keeps (OnFundingWorld SameIssued)
    (updateInvoicePayments (payingAt distributor block round) block round) := by
  refine keeps_updateInvoicePayments (fun _ hsend batch => ?_) block round
  obtain ⟨send, -, rfl⟩ := Option.map_eq_some_iff.mp hsend
  have hcall : Keeps SameIssued (Bank.call (send batch)) :=
    Keeps.zoom (fun bank inner => (rfl : (bank.setInner inner).issued = bank.issued)) _
  have hpay : ∀ paid : List FundingPayment, Keeps SameIssued
      (modify fun bank => { bank with paid := bank.paid ++ paid } :
        EStateM PyError (Bank σ) Unit) := fun _ => .modify fun _ => rfl
  exact hcall.bind fun result => .ite _ (.pure _) ((hpay _).bind fun _ => .pure _)

end Update

/-! ### Runs -/

section Runs

variable {σ : Type}

def unprepared (inner : σ) : Funding (Bank σ) := ⟨⟨inner, [], []⟩, [], .nil⟩

/-- The states that preparing the invoices and any updates lead to, with anything else happening to
the clients and to the distributor between them.  `validate_clients` has checked the number of
clients. -/
inductive FundingRun (repr : Json → String) (distributor : Option (Distributor σ))
    (clients : List (FundedClient σ)) (wallets : List (List (Fund Int))) :
    Funding (Bank σ) → Prop
  | prepare {shuffle : Shuffle} {inner : σ} {engine : Funding (Bank σ)} :
      clients.length = wallets.length →
      (prepareInvoices repr shuffle clients wallets).run (unprepared inner) = .ok () engine →
      FundingRun repr distributor clients wallets engine
  | update {engine : Funding (Bank σ)} (block round : Int) :
      FundingRun repr distributor clients wallets engine →
      FundingRun repr distributor clients wallets
        (stateAfter (updateInvoicePayments (payingAt distributor block round) block round) engine)
  | between {engine : Funding (Bank σ)} (inner : σ) :
      FundingRun repr distributor clients wallets engine →
      FundingRun repr distributor clients wallets
        (engine.setWorld (engine.world.setInner inner))

/-- The payment is of the invoice, after both of its delays. -/
structure Meets (entry : (Int × Int) × Invoice) (payment : FundingPayment) : Prop where
  invoice : payment.invoice = entry.2
  block : entry.1.1 ≤ payment.block
  round : entry.1.2 ≤ payment.round

/-- The payments so far are of the entries `taken`, and the others of the orders are still
scheduled. -/
structure PaidFrom (clients : List (FundedClient σ)) (orders : List Order)
    (taken : List ((Int × Int) × Invoice))
    (engine : Funding (Bank σ)) : Prop where
  issued : List.Forall₂ (Order.IssuedBy clients) orders engine.world.issued
  paid : List.Forall₂ Meets taken engine.world.paid
  scheduled : (orders.map Order.entry).Perm (taken ++ engine.entries)

theorem PaidFrom.update {clients : List (FundedClient σ)} {orders : List Order}
    {taken due : List ((Int × Int) × Invoice)} {engine engine' : Funding (Bank σ)}
    {block round : Int} (h : PaidFrom clients orders taken engine)
    (hissued : OnFundingWorld SameIssued engine engine')
    (hpays : PaysDue Bank.paid (batchPayments block round) block round due engine engine') :
    PaidFrom clients orders (taken ++ due) engine' where
  issued := by
    rw [show engine'.world.issued = engine.world.issued from hissued]
    exact h.issued
  paid := by
    obtain ⟨batches, hbatches, hlog⟩ := hpays.sent
    have hmap : batches.flatMap (batchPayments block round) =
        due.map fun entry => ⟨entry.2, block, round⟩ := by
      calc batches.flatMap (batchPayments block round)
        _ = batches.flatten.map fun invoice => ⟨invoice, block, round⟩ :=
            List.map_flatten.symm
        _ = due.map fun entry => ⟨entry.2, block, round⟩ := by
            rw [hbatches, List.map_map]
            rfl
    rw [hlog, hmap]
    apply List.rel_append h.paid
    rw [List.forall₂_map_right_iff, List.forall₂_same]
    intro entry hentry
    have hdue := hpays.due entry hentry
    simp only [isDue, decide_eq_true_eq] at hdue
    exact ⟨rfl, hdue.1, hdue.2⟩
  scheduled := by
    rw [List.append_assoc]
    exact h.scheduled.trans (hpays.scheduled.append_left taken)

theorem FundingRun.paidFrom {repr : Json → String} {distributor : Option (Distributor σ)}
    {clients : List (FundedClient σ)} {wallets : List (List (Fund Int))}
    {engine : Funding (Bank σ)} (h : FundingRun repr distributor clients wallets engine) :
    ∃ orders, orders.map Order.demanded = demands wallets ∧
      ∃ taken, PaidFrom clients orders taken engine := by
  induction h with
  | prepare hclients hrun =>
    obtain ⟨orders, hdemanded, hordered⟩ := prepareInvoices_ordered hclients hrun
    obtain ⟨added, hadded, hissued⟩ := hordered.issued
    refine ⟨orders, hdemanded, [], ?_, ?_, ?_⟩
    · rw [hadded]
      exact hissued
    · rw [hordered.paid]
      exact .nil
    · simpa [unprepared, Funding.entries, Groups.entries] using hordered.scheduled.symm
  | @update engine block round _ ih =>
    obtain ⟨orders, hdemanded, taken, hpaid⟩ := ih
    refine ⟨orders, hdemanded, ?_⟩
    have hissued := keeps_issued distributor block round engine
    rcases run_update_cases (logsBatches_paying distributor block round) block round engine with
      ⟨due, engine', hrun, hpays, -⟩ | ⟨due, error, engine', hrun, hpays⟩
    · rw [stateAfter_of_ok hrun] at hissued ⊢
      exact ⟨_, hpaid.update hissued hpays⟩
    · rw [stateAfter_of_error hrun] at hissued ⊢
      exact ⟨_, hpaid.update hissued hpays⟩
  | between inner _ ih =>
    obtain ⟨orders, hdemanded, taken, hpaid⟩ := ih
    exact ⟨orders, hdemanded, taken, hpaid.issued, hpaid.paid, hpaid.scheduled⟩

/-- The state of the funding, with one order for each fund of each wallet. -/
structure FundedOnce (distributor : Option (Distributor σ)) (clients : List (FundedClient σ))
    (wallets : List (List (Fund Int))) (engine : Funding (Bank σ)) (orders : List Order) :
    Prop where
  demanded : orders.map Order.demanded = demands wallets
  /-- The addresses are those that the client of each wallet gave out. -/
  issued : List.Forall₂ (Order.IssuedBy clients) orders engine.world.issued
  conserved : (engine.world.paid.map FundingPayment.invoice ++ engine.scheduled).Perm
    (orders.map Order.invoice)
  once : (engine.world.paid.map FundingPayment.invoice).Subperm (orders.map Order.invoice)
  /-- The payments are of orders whose delays had passed. -/
  due : ∃ taken, taken.Subperm (orders.map Order.entry) ∧ List.Forall₂ Meets taken engine.world.paid
  /-- An update that returns leaves no due invoice. -/
  settled : ∀ block round engine',
    (updateInvoicePayments (payingAt distributor block round) block round).run engine =
      .ok () engine' → ∀ entry ∈ engine'.entries, isDue block round entry.1 = false

/-- Every fund is paid at most once, and its invoice is scheduled until it is. -/
theorem funds_paid_once {repr : Json → String} {distributor : Option (Distributor σ)}
    {clients : List (FundedClient σ)} {wallets : List (List (Fund Int))}
    {engine : Funding (Bank σ)} (h : FundingRun repr distributor clients wallets engine) :
    ∃ orders, FundedOnce distributor clients wallets engine orders := by
  obtain ⟨orders, hdemanded, taken, hissued, hpaid, hscheduled⟩ := h.paidFrom
  have htaken : engine.world.paid.map FundingPayment.invoice = taken.map Prod.snd := by
    refine List.forall₂_eq_eq_eq ▸ ?_
    rw [List.forall₂_map_left_iff, List.forall₂_map_right_iff]
    exact hpaid.flip.imp fun _ _ hmeets => hmeets.invoice
  have hconserved : (engine.world.paid.map FundingPayment.invoice ++ engine.scheduled).Perm
      (orders.map Order.invoice) := by
    have hinvoices := hscheduled.symm.map Prod.snd
    rw [List.map_append, Funding.entries, Groups.map_snd_entries, List.map_map] at hinvoices
    rw [htaken]
    exact hinvoices
  refine ⟨orders, hdemanded, hissued, hconserved, ?_, ⟨taken, ?_, hpaid⟩, ?_⟩
  · exact (List.sublist_append_left _ _).subperm.trans hconserved.subperm
  · exact (List.sublist_append_left _ _).subperm.trans hscheduled.symm.subperm
  · intro block round engine' hrun
    rcases run_update_cases (logsBatches_paying distributor block round) block round engine with
      ⟨due, engine'', hrun', -, hnone⟩ | ⟨due, error, engine'', hrun', -⟩
    · rw [hrun] at hrun'
      cases hrun'
      exact hnone
    · rw [hrun] at hrun'
      cases hrun'

end Runs

/-! ### A distributor that fails at first -/

namespace FailingDistributor

/-- Clients number their addresses. -/
def clients : List (FundedClient Nat) :=
  ["wallet-000", "wallet-001"].map fun name => ⟨name, do
    let calls ← get
    set (calls + 1)
    return name ++ "-" ++ toString calls⟩

def wallets : List (List (Fund Int)) :=
  [[.amount 1000, .config { value := 500, delayBlocks := some 3 }], [.amount 2000]]

/-- The first three calls of `send` are refused. -/
def distributor : Option (Distributor Nat) := some fun _ => do
  let calls ← get
  set (calls + 1)
  if calls < 6 then throw (.rpcError "Bad Request") else return "txid"

def reversed : Shuffle :=
  ⟨fun _ invoices => invoices.reverse, fun _ invoices => invoices.reverse_perm⟩

def prepared : Funding (Bank Nat) :=
  stateAfter (prepareInvoices (fun _ => "") reversed clients wallets) (unprepared 0)

/-- The state after updates at a few blocks. -/
def updated (blocks : List Int) : Funding (Bank Nat) :=
  blocks.foldl (fun engine block =>
    stateAfter (updateInvoicePayments (payingAt distributor block 0) block 0) engine) prepared

theorem fundingRun_updated (blocks : List Int) :
    FundingRun (fun _ => "") distributor clients wallets (updated blocks) := by
  induction blocks using List.reverseRecOn with
  | nil => exact .prepare rfl rfl
  | append_singleton blocks block ih =>
    rw [updated, List.foldl_append]
    exact .update block 0 ih

/-- The first update raises, and the others pay the funds when their delays have passed. -/
theorem funds_paid_once_failingDistributor :
    (∃ orders, FundedOnce distributor clients wallets (updated [0, 1, 2, 3]) orders) ∧
    (updated [0, 1, 2, 3]).world.paid.map (fun payment => (payment.invoice, payment.block)) =
      [(("wallet-001-2", 2000), 1), (("wallet-000-0", 1000), 1), (("wallet-000-1", 500), 3)] :=
  ⟨funds_paid_once (fundingRun_updated _), by decide +kernel⟩

end FailingDistributor

end CoinjoinEmulator
