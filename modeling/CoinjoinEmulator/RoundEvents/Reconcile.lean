import CoinjoinEmulator.ProofKit.Effect
import CoinjoinEmulator.RoundEvents.Blocks
import CoinjoinEmulator.RoundEvents.Record

/-! `reconcile_round_event_destinations`: the loop over blocks, transactions, outputs and the events
that wait for an output's address, and what it does to one event. -/

namespace CoinjoinEmulator

open ProofKit RoundEventRecord ExportedBlockRecord ExportedTransactionRecord TransactionOutputRecord

/-- The round-event dictionaries as the loops change them in place. -/
abbrev Reconcile := EStateM PyError (List RoundEvent)

/-- The outputs of one transaction, matched against the events of their addresses. -/
def matchOutputs (eventsByDestination : Groups String Nat) (txid : String) (blockHeight : Int)
    (outputs : List TransactionOutput) : Reconcile Unit :=
  forM outputs fun output =>
    match address output with
    | some address =>
      forM (eventsByDestination.get address) (touch (addDestinationMatch txid blockHeight))
    | none => pure ()

def matchTransactions (eventsByDestination : Groups String Nat) (blockHeight : Int)
    (transactions : List ExportedTransaction) : Reconcile Unit :=
  forM transactions fun transaction =>
    match txid transaction with
    | some txid => matchOutputs eventsByDestination txid blockHeight (outputs transaction)
    | none => throw (.valueError "exported transaction txid must be a non-empty string")

def matchBlocks (eventsByDestination : Groups String Nat)
    (blocks : List (Except PyError (Int × ExportedBlock))) : Reconcile Unit :=
  forM blocks fun block => do
    let (blockHeight, rawBlock) ← ofExcept block
    matchTransactions eventsByDestination blockHeight (transactions rawBlock)

/-- `events_by_destination`: the events among `refs` that have a destination, by that
destination. -/
def groupByDestination (records : List RoundEvent) (refs : List Nat) : Groups String Nat :=
  groupBy (fun ref => records[ref]?.bind destinationAddress) refs

def markShared (eventsByDestination : Groups String Nat) : Reconcile Unit :=
  forM (eventsByDestination.map Prod.snd) fun shared =>
    if 1 < shared.length then forM shared (touch markDuplicateDestination) else pure ()

/-- Match the destinations of the events `refs` to block outputs.  `blocks` is a generator: each
item is a block, or the exception that computing it raises, which leaves the matches of the blocks
before. -/
def reconcileRoundEventDestinations (refs : List Nat)
    (blocks : List (Except PyError (Int × ExportedBlock))) : Reconcile Unit := do
  let records ← get
  forM refs (touch preserveExecutionStatus)
  let eventsByDestination := groupByDestination records refs
  markShared eventsByDestination
  matchBlocks eventsByDestination blocks

/-! ### The payments of a walk over blocks -/

/-- One output's payment: the address, and the transaction and height that it is matched as. -/
structure Payment where
  address : String
  txid : String
  blockHeight : Int

def outputPayments (txid : String) (blockHeight : Int) (outputs : List TransactionOutput) :
    List Payment :=
  outputs.filterMap fun output => (address output).map fun a => ⟨a, txid, blockHeight⟩

/-- The payments of transactions up to one without a txid, and the exception that it raises. -/
def walkTransactions (blockHeight : Int) :
    List ExportedTransaction → List Payment × Option PyError
  | [] => ([], none)
  | transaction :: rest =>
    match txid transaction with
    | some txid =>
      let (paid, error) := walkTransactions blockHeight rest
      (outputPayments txid blockHeight (outputs transaction) ++ paid, error)
    | none => ([], some (.valueError "exported transaction txid must be a non-empty string"))

/-- The payments of the blocks of a generator up to its first exception, and that exception. -/
def walkBlocks : List (Except PyError (Int × ExportedBlock)) → List Payment × Option PyError
  | [] => ([], none)
  | .error error :: _ => ([], some error)
  | .ok (blockHeight, rawBlock) :: rest =>
    match walkTransactions blockHeight (transactions rawBlock) with
    | (paid, some error) => (paid, some error)
    | (paid, none) =>
      let (paidLater, error) := walkBlocks rest
      (paid ++ paidLater, error)

/-- A loop that ends with `error`, or without one. -/
def settle (error : Option PyError) (records : List RoundEvent) :
    EStateM.Result PyError (List RoundEvent) Unit :=
  match error with
  | none => .ok () records
  | some error => .error error records

def creditAll (eventsByDestination : Groups String Nat) (paid : List Payment)
    (records : List RoundEvent) : List RoundEvent :=
  paid.foldl (fun records p =>
    touchAll (addDestinationMatch p.txid p.blockHeight) (eventsByDestination.get p.address) records)
    records

theorem creditAll_append (groups : Groups String Nat) (paid paidLater : List Payment)
    (records : List RoundEvent) :
    creditAll groups (paid ++ paidLater) records =
      creditAll groups paidLater (creditAll groups paid records) :=
  List.foldl_append

theorem run_matchOutputs (groups : Groups String Nat) (txid : String) (blockHeight : Int)
    (outputs : List TransactionOutput) (records : List RoundEvent) :
    (matchOutputs groups txid blockHeight outputs).run records =
      .ok () (creditAll groups (outputPayments txid blockHeight outputs) records) := by
  induction outputs generalizing records with
  | nil => rfl
  | cons output rest ih =>
    simp only [matchOutputs, List.forM_cons, EStateM.run_bind] at ih ⊢
    cases h : address output with
    | none =>
      have hpaid : outputPayments txid blockHeight (output :: rest) =
          outputPayments txid blockHeight rest := by simp [outputPayments, h]
      rw [hpaid]
      exact ih records
    | some a =>
      have hpaid : outputPayments txid blockHeight (output :: rest) =
          ⟨a, txid, blockHeight⟩ :: outputPayments txid blockHeight rest := by
        simp [outputPayments, h]
      rw [hpaid]
      simp only [run_forM_touch]
      exact ih _

theorem run_matchTransactions (groups : Groups String Nat) (blockHeight : Int)
    (transactions : List ExportedTransaction) (records : List RoundEvent) :
    (matchTransactions groups blockHeight transactions).run records =
      settle (walkTransactions blockHeight transactions).2
        (creditAll groups (walkTransactions blockHeight transactions).1 records) := by
  induction transactions generalizing records with
  | nil => rfl
  | cons transaction rest ih =>
    simp only [matchTransactions, List.forM_cons, EStateM.run_bind] at ih ⊢
    cases h : txid transaction with
    | none => simp only [walkTransactions, h]; rfl
    | some t =>
      simp only [walkTransactions, h, run_matchOutputs, creditAll_append]
      exact ih _

theorem run_matchBlocks (groups : Groups String Nat)
    (blocks : List (Except PyError (Int × ExportedBlock))) (records : List RoundEvent) :
    (matchBlocks groups blocks).run records =
      settle (walkBlocks blocks).2 (creditAll groups (walkBlocks blocks).1 records) := by
  induction blocks generalizing records with
  | nil => rfl
  | cons block rest ih =>
    simp only [matchBlocks, List.forM_cons, EStateM.run_bind] at ih ⊢
    cases block with
    | error error => rfl
    | ok item =>
      obtain ⟨blockHeight, rawBlock⟩ := item
      simp only [run_ofExcept, run_matchTransactions, walkBlocks]
      rcases hwalk : walkTransactions blockHeight (transactions rawBlock) with ⟨paid, error⟩
      cases error with
      | some error => rfl
      | none =>
        simp only [creditAll_append]
        exact ih _

/-! ### What reconciliation does to one event -/

/-- The matches of an event after the payments of a walk. -/
def creditEvent (paid : List Payment) (event : RoundEvent) : RoundEvent :=
  paid.foldl (fun event p =>
    if destinationAddress event = some p.address then
      addDestinationMatch p.txid p.blockHeight event
    else event) event

/-- One reconciled event: `shared` says whether another event has its destination. -/
def reconcileEvent (shared : Bool) (paid : List Payment) (event : RoundEvent) : RoundEvent :=
  let event := preserveExecutionStatus event
  creditEvent paid (if shared then markDuplicateDestination event else event)

/-- Whether several of `events` have the destination of `event`. -/
def sharesDestination (events : List RoundEvent) (event : RoundEvent) : Bool :=
  match destinationAddress event with
  | some address => 1 < events.countP (fun other => destinationAddress other = some address)
  | none => false

theorem markDuplicateDestination_idem (event : RoundEvent) :
    markDuplicateDestination (markDuplicateDestination event) = markDuplicateDestination event := by
  have hstatus := status_markDuplicateDestination event
  have hkeep : preserveExecutionStatus (markDuplicateDestination event) =
      markDuplicateDestination event := by
    simp [preserveExecutionStatus, hstatus]
  conv_lhs => rw [markDuplicateDestination, hkeep]
  exact Dict.set_same (by simp [markDuplicateDestination])

/-- Whether the record `i` is in a group with several members. -/
def inSharedGroup (groups : Groups String Nat) (i : Nat) : Bool :=
  groups.any fun group => decide (1 < group.2.length) && decide (i ∈ group.2)

theorem inSharedGroup_cons (group : String × List Nat) (rest : Groups String Nat) (i : Nat) :
    inSharedGroup (group :: rest) i =
      (decide (1 < group.2.length) && decide (i ∈ group.2) || inSharedGroup rest i) := rfl

/-- Marking the shared groups marks each record of a group with several members. -/
theorem run_markShared {groups : Groups String Nat} (hgroups : ∀ group ∈ groups, group.2.Nodup)
    (records : List RoundEvent) :
    ∃ marked, (markShared groups).run records = .ok () marked ∧
      ∀ i, marked[i]? = records[i]?.map fun event =>
        if inSharedGroup groups i then markDuplicateDestination event else event := by
  induction groups generalizing records with
  | nil => exact ⟨records, rfl, fun i => by simp [inSharedGroup]⟩
  | cons group rest ih =>
    have hrest : ∀ g ∈ rest, g.2.Nodup := fun g hg => hgroups g (List.mem_cons_of_mem _ hg)
    simp only [markShared, List.map_cons, List.forM_cons, EStateM.run_bind] at ih ⊢
    by_cases hlong : 1 < group.2.length
    · obtain ⟨marked, hrun, hget⟩ := ih hrest (touchAll markDuplicateDestination group.2 records)
      refine ⟨marked, ?_, fun i => ?_⟩
      · simp only [hlong, if_true, run_forM_touch]
        exact hrun
      · rw [hget, getElem?_touchAll _ (hgroups group (by simp))]
        cases records[i]? with
        | none => rfl
        | some event =>
          -- a record that the first group marked may be marked again: marking is idempotent
          simp only [Option.map_some, inSharedGroup_cons, hlong, decide_true, Bool.true_and]
          by_cases hi : i ∈ group.2
          · simp only [hi, if_true, decide_true, Bool.true_or, markDuplicateDestination_idem,
              ite_self]
          · simp only [hi, if_false, decide_false, Bool.false_or]
    · obtain ⟨marked, hrun, hget⟩ := ih hrest records
      refine ⟨marked, ?_, fun i => ?_⟩
      · simp only [hlong, if_false]
        exact hrun
      · rw [hget]
        simp only [inSharedGroup_cons, hlong, decide_false, Bool.false_and, Bool.false_or]

theorem getElem?_creditAll {groups : Groups String Nat} (hgroups : ∀ a, (groups.get a).Nodup)
    (paid : List Payment) (records : List RoundEvent) (i : Nat) :
    (creditAll groups paid records)[i]? = records[i]?.map fun event =>
      paid.foldl (fun event p =>
        if i ∈ groups.get p.address then addDestinationMatch p.txid p.blockHeight event
        else event) event := by
  induction paid generalizing records with
  | nil => simp [creditAll]
  | cons p rest ih =>
    have hstep : creditAll groups (p :: rest) records = creditAll groups rest
        (touchAll (addDestinationMatch p.txid p.blockHeight) (groups.get p.address) records) := rfl
    rw [hstep, ih, getElem?_touchAll _ (hgroups p.address), Option.map_map]
    rfl

/-! ### The groups of events that share a destination -/

theorem get_groupByDestination (p : RoundEvent → Bool) (records : List RoundEvent) (a : String) :
    (groupByDestination records (refsWhere p records)).get a =
      refsWhere (fun event => p event && decide (destinationAddress event = some a)) records := by
  rw [groupByDestination, get_groupBy, ← filter_refsWhere]
  apply List.filter_congr
  intro ref _
  cases records[ref]? <;> simp

theorem group_eq_get {p : RoundEvent → Bool} {records : List RoundEvent}
    {group : String × List Nat}
    (h : group ∈ groupByDestination records (refsWhere p records)) :
    group.2 = (groupByDestination records (refsWhere p records)).get group.1 :=
  (Groups.get_of_mem (nodup_keys_groupBy _ _) h).symm

theorem length_groupByDestination (p : RoundEvent → Bool) (records : List RoundEvent) (a : String) :
    ((groupByDestination records (refsWhere p records)).get a).length =
      (records.filter p).countP (fun other => destinationAddress other = some a) := by
  rw [get_groupByDestination, length_refsWhere, List.countP_filter]
  simp [Bool.and_comm]

theorem mem_groupByDestination {p : RoundEvent → Bool} {records : List RoundEvent} {i : Nat}
    {event : RoundEvent} (hi : records[i]? = some event) (a : String) :
    i ∈ (groupByDestination records (refsWhere p records)).get a ↔
      p event = true ∧ destinationAddress event = some a := by
  simp [get_groupByDestination, mem_refsWhere, hi]

/-- The groups with several members hold the chosen events whose destination is shared. -/
theorem inSharedGroup_groupByDestination (p : RoundEvent → Bool) {records : List RoundEvent}
    {i : Nat} {event : RoundEvent} (hi : records[i]? = some event) :
    inSharedGroup (groupByDestination records (refsWhere p records)) i =
      (p event && sharesDestination (records.filter p) event) := by
  rw [Bool.eq_iff_iff]
  simp only [inSharedGroup, List.any_eq_true, Bool.and_eq_true, decide_eq_true_eq]
  constructor
  · rintro ⟨group, hgroup, hlong, hmem⟩
    rw [group_eq_get hgroup] at hlong hmem
    obtain ⟨hp, hdest⟩ := (mem_groupByDestination hi group.1).mp hmem
    rw [length_groupByDestination] at hlong
    exact ⟨hp, by simpa [sharesDestination, hdest] using hlong⟩
  · rintro ⟨hp, hshares⟩
    cases hdest : destinationAddress event with
    | none => simp [sharesDestination, hdest] at hshares
    | some a =>
      have hmem := (mem_groupByDestination (p := p) hi a).mpr ⟨hp, hdest⟩
      obtain ⟨items, hitems, -⟩ := Groups.mem_of_get hmem
      have hlong := length_groupByDestination p records a
      rw [← group_eq_get hitems] at hmem hlong
      refine ⟨(a, items), hitems, ?_, hmem⟩
      rw [hlong]
      simpa [sharesDestination, hdest] using hshares

/-- The payments to the groups of a record are the payments to its destination. -/
theorem foldl_credit_eq_creditEvent {p : RoundEvent → Bool} {records : List RoundEvent} {i : Nat}
    {event : RoundEvent} (hi : records[i]? = some event) (paid : List Payment)
    {touched : RoundEvent} (htouched : destinationAddress touched = destinationAddress event) :
    paid.foldl (fun touched payment =>
        if i ∈ (groupByDestination records (refsWhere p records)).get payment.address then
          addDestinationMatch payment.txid payment.blockHeight touched
        else touched) touched =
      if p event then creditEvent paid touched else touched := by
  induction paid generalizing touched with
  | nil => simp [creditEvent]
  | cons payment rest ih =>
    rw [List.foldl_cons, ih]
    · by_cases hp : p event <;> simp [mem_groupByDestination hi, creditEvent, hp, htouched]
    · split <;> simp [htouched]

/-- The loops of reconciliation change each event on its own: an event outside `refs` stays as it
is, and the others depend on the walk's payments and on who shares their destination. -/
theorem run_reconcileRoundEventDestinations (p : RoundEvent → Bool) (records : List RoundEvent)
    (blocks : List (Except PyError (Int × ExportedBlock))) :
    (reconcileRoundEventDestinations (refsWhere p records) blocks).run records =
      settle (walkBlocks blocks).2 (records.map fun event =>
        if p event then
          reconcileEvent (sharesDestination (records.filter p) event) (walkBlocks blocks).1 event
        else event) := by
  have hnodup : ∀ a, ((groupByDestination records (refsWhere p records)).get a).Nodup := fun a =>
    get_groupByDestination p records a ▸ nodup_refsWhere _ _
  obtain ⟨marked, hmark, hmarked⟩ := run_markShared
    (fun group hgroup => group_eq_get hgroup ▸ hnodup group.1)
    (touchAll preserveExecutionStatus (refsWhere p records) records)
  have hrun : (reconcileRoundEventDestinations (refsWhere p records) blocks).run records =
      settle (walkBlocks blocks).2
        (creditAll (groupByDestination records (refsWhere p records)) (walkBlocks blocks).1
          marked) := by
    simp only [reconcileRoundEventDestinations, EStateM.run_bind, EStateM.run_get, run_forM_touch,
      hmark, run_matchBlocks]
  rw [hrun]
  congr 1
  apply List.ext_getElem?
  intro i
  rw [getElem?_creditAll hnodup, hmarked, getElem?_touchAll _ (nodup_refsWhere _ _),
    List.getElem?_map]
  cases hi : records[i]? with
  | none => rfl
  | some event =>
    have hinRefs : i ∈ refsWhere p records ↔ p event = true := by simp [mem_refsWhere, hi]
    simp only [Option.map_some, hinRefs, inSharedGroup_groupByDestination p hi]
    by_cases hp : p event
    · simp only [hp, if_true, Bool.true_and]
      rw [foldl_credit_eq_creditEvent hi _ (by split <;> simp), if_pos hp]
      rfl
    · simp only [hp, Bool.false_and, Bool.false_eq_true, if_false]
      rw [foldl_credit_eq_creditEvent hi _ rfl, if_neg hp]

/-! ### What a walk finds -/

theorem mem_outputPayments {txid' : String} {blockHeight : Int} {outputs : List TransactionOutput}
    {payment : Payment} :
    payment ∈ outputPayments txid' blockHeight outputs ↔
      payment.txid = txid' ∧ payment.blockHeight = blockHeight ∧
        ∃ output ∈ outputs, address output = some payment.address := by
  obtain ⟨a, t, h⟩ := payment
  simp only [outputPayments, List.mem_filterMap, Option.map_eq_some_iff, Payment.mk.injEq]
  constructor
  · rintro ⟨output, houtput, a', ha, rfl, rfl, rfl⟩
    exact ⟨rfl, rfl, output, houtput, ha⟩
  · rintro ⟨rfl, rfl, output, houtput, ha⟩
    exact ⟨output, houtput, a, ha, rfl, rfl, rfl⟩

/-- A walk over transactions finds payments that some transaction makes. -/
theorem mem_walkTransactions {blockHeight : Int} {transactions : List ExportedTransaction}
    {payment : Payment} (h : payment ∈ (walkTransactions blockHeight transactions).1) :
    payment.blockHeight = blockHeight ∧ ∃ transaction ∈ transactions,
      txid transaction = some payment.txid ∧
        ∃ output ∈ outputs transaction, address output = some payment.address := by
  induction transactions with
  | nil => simp [walkTransactions] at h
  | cons transaction rest ih =>
    unfold walkTransactions at h
    split at h
    · rename_i t ht
      rcases List.mem_append.mp h with hhere | hlater
      · obtain ⟨htxid, hheight, hpays⟩ := mem_outputPayments.mp hhere
        exact ⟨hheight, transaction, by simp, by rw [ht, htxid], hpays⟩
      · obtain ⟨hheight, transaction', hmem, hpays⟩ := ih hlater
        exact ⟨hheight, transaction', List.mem_cons_of_mem _ hmem, hpays⟩
    · simp at h

/-- A walk over transactions that does not raise finds every payment. -/
theorem mem_walkTransactions_of_none {blockHeight : Int} {transactions : List ExportedTransaction}
    (hend : (walkTransactions blockHeight transactions).2 = none)
    {transaction : ExportedTransaction} (hmem : transaction ∈ transactions) {t a : String}
    (ht : txid transaction = some t) {output : TransactionOutput}
    (houtput : output ∈ outputs transaction) (ha : address output = some a) :
    ⟨a, t, blockHeight⟩ ∈ (walkTransactions blockHeight transactions).1 := by
  induction transactions with
  | nil => simp at hmem
  | cons first rest ih =>
    unfold walkTransactions at hend ⊢
    split at hend
    · rename_i t' ht'
      simp only [List.mem_append]
      rcases List.mem_cons.mp hmem with rfl | hrest
      · left
        rw [ht, Option.some.injEq] at ht'
        exact mem_outputPayments.mpr ⟨ht', rfl, output, houtput, ha⟩
      · exact Or.inr (ih hend hrest)
    · simp at hend

theorem walkTransactions_none (blockHeight : Int) {transactions : List ExportedTransaction}
    (h : ∀ transaction ∈ transactions, txid transaction ≠ none) :
    (walkTransactions blockHeight transactions).2 = none := by
  induction transactions with
  | nil => rfl
  | cons transaction rest ih =>
    obtain ⟨t, ht⟩ := Option.ne_none_iff_exists'.mp (h transaction (by simp))
    simp only [walkTransactions, ht]
    exact ih fun x hx => h x (List.mem_cons_of_mem _ hx)

/-- A walk finds payments of the blocks that the generator yields. -/
theorem mem_walkBlocks {blocks : List (Except PyError (Int × ExportedBlock))} {payment : Payment}
    (h : payment ∈ (walkBlocks blocks).1) :
    ∃ block, .ok (payment.blockHeight, block) ∈ blocks ∧
      PaysIn block payment.txid payment.address := by
  induction blocks with
  | nil => simp [walkBlocks] at h
  | cons item rest ih =>
    cases item with
    | error error => simp [walkBlocks] at h
    | ok item =>
      obtain ⟨blockHeight, block⟩ := item
      have hhere : payment ∈ (walkTransactions blockHeight (transactions block)).1 →
          ∃ block', .ok (payment.blockHeight, block') ∈ .ok (blockHeight, block) :: rest ∧
            PaysIn block' payment.txid payment.address := by
        intro hpaid
        obtain ⟨rfl, hpays⟩ := mem_walkTransactions hpaid
        exact ⟨block, by simp, hpays⟩
      unfold walkBlocks at h
      split at h
      · rename_i paid error hwalk
        exact hhere (by rw [hwalk]; exact h)
      · rename_i paid hwalk
        rcases List.mem_append.mp h with hfirst | hlater
        · exact hhere (by rw [hwalk]; exact hfirst)
        · obtain ⟨block', hmem, hpays⟩ := ih hlater
          exact ⟨block', List.mem_cons_of_mem _ hmem, hpays⟩

/-- A walk that does not raise finds every payment of the blocks, and the generator did not raise
either. -/
theorem walkBlocks_complete {blocks : List (Except PyError (Int × ExportedBlock))}
    (hend : (walkBlocks blocks).2 = none) :
    ∀ item ∈ blocks, ∃ blockHeight block, item = .ok (blockHeight, block) ∧
      ∀ t a, PaysIn block t a → ⟨a, t, blockHeight⟩ ∈ (walkBlocks blocks).1 := by
  induction blocks with
  | nil => simp
  | cons item rest ih =>
    cases item with
    | error error => simp [walkBlocks] at hend
    | ok item =>
      obtain ⟨blockHeight, block⟩ := item
      unfold walkBlocks at hend ⊢
      split at hend
      · simp at hend
      · rename_i paid hwalk
        intro item hitem
        rcases List.mem_cons.mp hitem with rfl | hrest
        · refine ⟨blockHeight, block, rfl, ?_⟩
          rintro t a ⟨transaction, hmem, ht, output, houtput, ha⟩
          have hfound := mem_walkTransactions_of_none (by rw [hwalk]) hmem ht houtput ha
          rw [hwalk] at hfound
          exact List.mem_append_left _ hfound
        · obtain ⟨blockHeight', block', rfl, hpaid⟩ := ih hend item hrest
          exact ⟨blockHeight', block', rfl, fun t a hpays =>
            List.mem_append_right _ (hpaid t a hpays)⟩

/-- A walk over blocks whose transactions have txids does not raise. -/
theorem walkBlocks_none {blocks : List (Except PyError (Int × ExportedBlock))}
    (h : ∀ item ∈ blocks, ∃ blockHeight block, item = .ok (blockHeight, block) ∧
      ∀ transaction ∈ transactions block, txid transaction ≠ none) :
    (walkBlocks blocks).2 = none := by
  induction blocks with
  | nil => rfl
  | cons item rest ih =>
    obtain ⟨blockHeight, block, rfl, htxids⟩ := h item (by simp)
    have hfirst := walkTransactions_none blockHeight htxids
    unfold walkBlocks
    split
    · rename_i paid error hwalk
      rw [hwalk] at hfirst
      exact hfirst
    · exact ih fun x hx => h x (List.mem_cons_of_mem _ hx)

theorem txid_ne_of_mem_walkBlocks {blocks : List (Except PyError (Int × ExportedBlock))}
    {payment : Payment} (h : payment ∈ (walkBlocks blocks).1) : payment.txid ≠ "" := by
  obtain ⟨block, -, transaction, -, ht, -⟩ := mem_walkBlocks h
  exact nonEmptyStr_ne ht

/-! ### What a walk leaves of one event -/

/-- The matches that the payments make for an event with this destination. -/
def matchesTo (destination : Option String) (paid : List Payment) : List DestinationMatch :=
  (paid.filter fun p => destination = some p.address).map fun p => ⟨p.txid, p.blockHeight⟩

theorem mem_matchesTo {destination : Option String} {paid : List Payment}
    {found : DestinationMatch} :
    found ∈ matchesTo destination paid ↔
      ∃ a, destination = some a ∧ ⟨a, found.txid, found.blockHeight⟩ ∈ paid := by
  obtain ⟨t, h⟩ := found
  simp only [matchesTo, List.mem_map, List.mem_filter, decide_eq_true_eq, DestinationMatch.mk.injEq]
  constructor
  · rintro ⟨⟨a, t, h⟩, ⟨hmem, ha⟩, rfl, rfl⟩
    exact ⟨a, ha, hmem⟩
  · rintro ⟨a, ha, hmem⟩
    exact ⟨⟨a, t, h⟩, ⟨hmem, ha⟩, rfl, rfl⟩

theorem creditEvent_cons (p : Payment) (rest : List Payment) (event : RoundEvent) :
    creditEvent (p :: rest) event =
      creditEvent rest (if destinationAddress event = some p.address then
        addDestinationMatch p.txid p.blockHeight event else event) := rfl

theorem get_creditEvent {k : String} (hk : k ∉ reconciledKeys) (paid : List Payment)
    (event : RoundEvent) : (creditEvent paid event).get k = event.get k := by
  induction paid generalizing event with
  | nil => rfl
  | cons p rest ih =>
    rw [creditEvent_cons, ih]
    split
    · exact get_addDestinationMatch hk
    · rfl

theorem destinationMatches_creditEvent {paid : List Payment} (hpaid : ∀ p ∈ paid, p.txid ≠ "")
    (event : RoundEvent) :
    destinationMatches (creditEvent paid event) =
      (matchesTo (destinationAddress event) paid).foldl insertNew (destinationMatches event) := by
  induction paid generalizing event with
  | nil => rfl
  | cons p rest ih =>
    have hrest : ∀ q ∈ rest, q.txid ≠ "" := fun q hq => hpaid q (List.mem_cons_of_mem _ hq)
    rw [creditEvent_cons, ih hrest]
    by_cases hdest : destinationAddress event = some p.address
    · simp [hdest, matchesTo, destinationMatches_addDestinationMatch (hpaid p (by simp))]
    · simp [hdest, matchesTo]

/-- An event that nothing pays keeps its status; otherwise the final count of matches decides,
unless the destination is shared. -/
theorem status_creditEvent {paid : List Payment} (hpaid : ∀ p ∈ paid, p.txid ≠ "")
    (event : RoundEvent) :
    status (creditEvent paid event) =
      if matchesTo (destinationAddress event) paid = [] then status event
      else if status event = some EventStatus.duplicateDestination.text then status event
      else some (countedStatus (destinationMatches (creditEvent paid event)).length).text := by
  induction paid generalizing event with
  | nil => simp [creditEvent, matchesTo]
  | cons p rest ih =>
    have hrest : ∀ q ∈ rest, q.txid ≠ "" := fun q hq => hpaid q (List.mem_cons_of_mem _ hq)
    rw [creditEvent_cons, ih hrest]
    by_cases hdest : destinationAddress event = some p.address
    · rw [if_pos hdest, destinationAddress_addDestinationMatch, status_addDestinationMatch]
      have hsome : matchesTo (destinationAddress event) (p :: rest) ≠ [] := by
        simp [matchesTo, hdest]
      rw [if_neg hsome]
      by_cases hdup : status event = some EventStatus.duplicateDestination.text
      · simp [hdup]
      · simp only [hdup, if_false, Option.some.injEq, countedStatus_ne_duplicate]
        split
        · rename_i hnone
          rw [destinationMatches_creditEvent hrest, destinationAddress_addDestinationMatch, hnone,
            List.foldl_nil, destinationMatches_addDestinationMatch (hpaid p (by simp))]
        · rfl
    · have hsame : matchesTo (destinationAddress event) (p :: rest) =
          matchesTo (destinationAddress event) rest := by simp [matchesTo, hdest]
      rw [if_neg hdest, hsame]

theorem get_reconcileEvent {k : String} (hk : k ∉ reconciledKeys) (shared : Bool)
    (paid : List Payment) (event : RoundEvent) :
    (reconcileEvent shared paid event).get k = event.get k := by
  have hkeys := hk
  simp only [reconciledKeys, List.mem_cons, List.not_mem_nil, or_false, not_or] at hkeys
  obtain ⟨hexec, hstatus, -, -⟩ := hkeys
  rw [reconcileEvent, get_creditEvent hk]
  split
  · rw [get_markDuplicateDestination hexec hstatus, get_preserveExecutionStatus hexec]
  · exact get_preserveExecutionStatus hexec

@[simp] theorem destinationAddress_reconcileEvent (shared : Bool) (paid : List Payment)
    (event : RoundEvent) :
    destinationAddress (reconcileEvent shared paid event) = destinationAddress event :=
  destinationAddress_congr (get_reconcileEvent (by decide) shared paid event)

theorem destinationMatches_reconcileEvent (shared : Bool) {paid : List Payment}
    (hpaid : ∀ p ∈ paid, p.txid ≠ "") (event : RoundEvent) :
    destinationMatches (reconcileEvent shared paid event) =
      (matchesTo (destinationAddress event) paid).foldl insertNew (destinationMatches event) := by
  rw [reconcileEvent, destinationMatches_creditEvent hpaid]
  cases shared <;> simp

/-- The status after reconciliation, from the number of matches that the event ends with. -/
theorem status_reconcileEvent (shared : Bool) {paid : List Payment}
    (hpaid : ∀ p ∈ paid, p.txid ≠ "") (event : RoundEvent) :
    status (reconcileEvent shared paid event) =
      if shared then some EventStatus.duplicateDestination.text
      else if matchesTo (destinationAddress event) paid = [] then status event
      else if status event = some EventStatus.duplicateDestination.text then status event
      else some (countedStatus
        (destinationMatches (reconcileEvent shared paid event)).length).text := by
  rw [reconcileEvent, status_creditEvent hpaid]
  cases shared <;> simp

theorem shared_of_status_reconcileEvent {shared : Bool} {paid : List Payment}
    (hpaid : ∀ p ∈ paid, p.txid ≠ "") {event : RoundEvent}
    (hold : status event ≠ some EventStatus.duplicateDestination.text)
    (hnew : status (reconcileEvent shared paid event) =
      some EventStatus.duplicateDestination.text) : shared = true := by
  rw [status_reconcileEvent shared hpaid, if_neg hold] at hnew
  split at hnew
  · assumption
  · split at hnew
    · exact absurd hnew hold
    · exact absurd (Option.some.inj hnew) (countedStatus_ne_duplicate _)

end CoinjoinEmulator
