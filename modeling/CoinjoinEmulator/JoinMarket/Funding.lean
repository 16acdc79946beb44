import CoinjoinEmulator.Invoices
import CoinjoinEmulator.JoinMarket.Rpc
import Mathlib.Logic.Relation

/-! The JoinMarket distributor: what becomes of the invoices whose direct sends fail. -/

namespace CoinjoinEmulator

open ProofKit

section Send

variable (wire : Wire)

/-- One turn of the loop of `send`.  It does not look at the result of `simple_send`. -/
def sendFunding (funding : Invoice) : Net Unit := do
  let _ ← simpleSend wire funding.1 funding.2
  sleep 5

/-- `send` of the distributor.  It returns `None`. -/
def send : Distributor Connection := fun addressedFundings => do
  forM addressedFundings (sendFunding wire)
  return "None"

end Send

/-- The direct send that pays an invoice. -/
def directSend (invoice : Invoice) : DirectSend where
  destination := invoice.1
  amountSats := invoice.2
  txfee := 5000
  mixdepth := 0

/-- The direct sends of the invoices, one after the other, are answered within their 30 seconds. -/
inductive AllAnswered (wire : Wire) : List Invoice → Connection → Prop
  | nil (c : Connection) : AllAnswered wire [] c
  | cons {invoice : Invoice} {rest : List Invoice} {c c' : Connection} :
      Answered wire (directSend invoice) c.now c c' → AllAnswered wire rest (c'.later 5) →
      AllAnswered wire (invoice :: rest) c

section Acknowledged

variable {wire : Wire}

theorem Answered.unique {sent : DirectSend} {start : Rat} {c c' c'' : Connection}
    (h : Answered wire sent start c c') (h' : Answered wire sent start c c'') : c' = c'' := by
  induction h with
  | acknowledged _ hrun =>
    cases h' with
    | acknowledged _ hrun' =>
      rw [hrun] at hrun'
      cases hrun'
      rfl
    | retried _ hrun' _ =>
      rw [hrun] at hrun'
      cases hrun'
  | retried _ hrun _ ih =>
    cases h' with
    | acknowledged _ hrun' =>
      rw [hrun] at hrun'
      cases hrun'
    | retried _ hrun' hrest =>
      rw [hrun] at hrun'
      cases hrun'
      exact ih hrest

theorem run_sendFunding (invoice : Invoice) (c : Connection) :
    (∃ c' : Connection, (sendFunding wire invoice).run c = .ok () (c'.later 5) ∧
      Answered wire (directSend invoice) c.now c c' ∧
      c'.acknowledged = c.acknowledged ++ [directSend invoice]) ∨
    ∃ c' : Connection, (sendFunding wire invoice).run c = .ok () (c'.later 5) ∧
      (¬∃ c'', Answered wire (directSend invoice) c.now c c'') ∧
      c'.acknowledged = c.acknowledged := by
  simp only [sendFunding, EStateM.run_bind]
  rcases run_simpleSend invoice.1 invoice.2 0 5000 c with
    ⟨value, c', hrun, hanswered, hack⟩ | ⟨c', hrun, hnot, hack⟩
  · rw [hrun]
    exact .inl ⟨c', rfl, hanswered, hack⟩
  · rw [hrun]
    exact .inr ⟨c', rfl, hnot, hack⟩

theorem run_forM_sendFunding (invoices : List Invoice) (c : Connection) :
    (forM invoices (sendFunding wire)).run c =
      .ok () (stateAfter (forM invoices (sendFunding wire)) c) := by
  induction invoices generalizing c with
  | nil => rfl
  | cons invoice rest ih =>
    simp only [List.forM_cons, stateAfter, EStateM.run_bind]
    rcases run_sendFunding invoice c with ⟨c', hrun, -⟩ | ⟨c', hrun, -⟩
    all_goals
      rw [hrun]
      exact ih (c'.later 5)

theorem run_send (invoices : List Invoice) (c : Connection) :
    (send wire invoices).run c =
      .ok "None" (stateAfter (forM invoices (sendFunding wire)) c) := by
  simp only [send, EStateM.run_bind]
  rw [run_forM_sendFunding]
  rfl

theorem stateAfter_send (invoices : List Invoice) (c : Connection) :
    stateAfter (send wire invoices) c = stateAfter (forM invoices (sendFunding wire)) c :=
  stateAfter_of_ok (run_send invoices c)

/-- `send` neither raises nor reports a timeout, whatever jmwalletd does. -/
theorem alwaysSends_send : AlwaysSends (send wire) where
  sends batch c := ⟨"None", by decide, by rw [run_send, stateAfter_send]⟩
  nil c := rfl
  append batch rest c := by
    simp only [stateAfter_send]
    rw [List.forM_append, stateAfter, EStateM.run_bind, run_forM_sendFunding]
    rfl

/-- jmwalletd acknowledges some of the direct sends that `send` makes, and all of them if and only
if each is answered within its 30 seconds. -/
theorem acknowledged_send (invoices : List Invoice) (c : Connection) :
    ∃ paid, paid.Sublist invoices ∧
      (stateAfter (send wire invoices) c).acknowledged = c.acknowledged ++ paid.map directSend ∧
      (paid = invoices ↔ AllAnswered wire invoices c) := by
  simp only [stateAfter_send]
  induction invoices generalizing c with
  | nil => exact ⟨[], .slnil, (List.append_nil _).symm, fun _ => .nil c, fun _ => rfl⟩
  | cons invoice rest ih =>
    simp only [List.forM_cons, stateAfter, EStateM.run_bind]
    rcases run_sendFunding invoice c with
      ⟨c', hrun, hanswered, hack⟩ | ⟨c', hrun, hnot, hack⟩
    · rw [hrun]
      obtain ⟨paid, hsub, hpaid, hall⟩ := ih (c'.later 5)
      refine ⟨invoice :: paid, hsub.cons_cons _, ?_, ?_⟩
      · apply hpaid.trans
        rw [Connection.later, hack]
        simp
      · constructor
        · intro heq
          exact .cons hanswered (hall.mp (List.cons.inj heq).2)
        · intro h
          cases h with
          | cons hanswered' hrest =>
            cases hanswered.unique hanswered'
            rw [hall.mpr hrest]
    · rw [hrun]
      obtain ⟨paid, hsub, hpaid, -⟩ := ih (c'.later 5)
      refine ⟨paid, hsub.cons _, ?_, ?_⟩
      · apply hpaid.trans
        rw [Connection.later, hack]
      · constructor
        · intro heq
          have hlength := hsub.length_le
          rw [heq, List.length_cons] at hlength
          omega
        · intro h
          cases h with
          | cons hanswered _ => exact absurd ⟨_, hanswered⟩ hnot

end Acknowledged

/-! ### Runs of the engine -/

/-- The updates of an engine whose distributor is a JoinMarket client.  `meets` restricts them;
between them the connection serves requests that are no direct sends. -/
inductive FundingStep (wire : Wire) (meets : Funding Connection → Int → Int → Prop) :
    Funding Connection → Funding Connection → Prop
  | update {engine : Funding Connection} {currentBlock currentRound : Int} :
      meets engine currentBlock currentRound →
      FundingStep wire meets engine
        (stateAfter (updateInvoicePayments (some (send wire)) currentBlock currentRound) engine)
  | other {engine : Funding Connection} {c : Connection} : Later engine.world c →
      c.acknowledged = engine.world.acknowledged →
      FundingStep wire meets engine (engine.setWorld c)

/-- Every invoice is still scheduled, or jmwalletd acknowledged a direct send of its address and
amount. -/
def FundingKept (engine engine' : Funding Connection) : Prop :=
  ∃ paid, engine'.world.acknowledged = engine.world.acknowledged ++ paid.map directSend ∧
    engine.scheduled.Perm (paid ++ engine'.scheduled)

theorem FundingKept.refl (engine : Funding Connection) : FundingKept engine engine :=
  ⟨[], (List.append_nil _).symm, .refl _⟩

theorem FundingKept.trans {engine engine' engine'' : Funding Connection}
    (h : FundingKept engine engine') (h' : FundingKept engine' engine'') :
    FundingKept engine engine'' := by
  obtain ⟨paid, hack, hperm⟩ := h
  obtain ⟨paid', hack', hperm'⟩ := h'
  refine ⟨paid ++ paid', ?_, ?_⟩
  · rw [hack', hack, List.map_append, List.append_assoc]
  · rw [List.append_assoc]
    exact hperm.trans (hperm'.append_left paid)

/-- One update keeps the funding if and only if each due direct send is answered within its 30
seconds. -/
theorem fundingKept_update_iff {wire : Wire} (engine : Funding Connection)
    (currentBlock currentRound : Int) :
    FundingKept engine
        (stateAfter (updateInvoicePayments (some (send wire)) currentBlock currentRound) engine) ↔
      AllAnswered wire (dueInvoices engine currentBlock currentRound) engine.world := by
  obtain ⟨engine', hrun, hworld, hperm⟩ :=
    run_updateInvoicePayments alwaysSends_send engine currentBlock currentRound
  obtain ⟨paid, hsub, hpaid, hall⟩ :=
    acknowledged_send (dueInvoices engine currentBlock currentRound) engine.world
  rw [stateAfter_of_ok hrun, ← hall]
  rw [← hworld] at hpaid
  constructor
  · rintro ⟨paid', hack', hperm'⟩
    have hlength := hperm'.length_eq.symm.trans hperm.length_eq
    have hsame := congrArg List.length (hack'.symm.trans hpaid)
    simp only [List.length_append, List.length_map] at hlength hsame
    exact hsub.eq_of_length (by omega)
  · intro heq
    exact ⟨paid, hpaid, heq ▸ hperm⟩

/-- A run that only makes updates whose due direct sends are answered in time loses no funding. -/
theorem funding_kept {wire : Wire} {engine engine' : Funding Connection}
    (hrun : Relation.ReflTransGen
      (FundingStep wire fun engine currentBlock currentRound =>
        AllAnswered wire (dueInvoices engine currentBlock currentRound) engine.world)
      engine engine') :
    FundingKept engine engine' := by
  induction hrun with
  | refl => exact .refl _
  | tail _ hstep ih =>
    apply ih.trans
    cases hstep with
    | update hanswered => exact (fundingKept_update_iff _ _ _).mpr hanswered
    | other _ hack => exact ⟨[], by simpa [Funding.setWorld] using hack, .refl _⟩

def oneInvoice : Funding Connection where
  world := ⟨0, 0, []⟩
  invoices := [((0, 0), [("bcrt1qwallet", 100000)])]
  nodup_keys := by decide

/-- A wire on which every request takes the same time and gets the same answer. -/
def steadyWire (answer : Except PyError HttpResponse) (seconds : Rat) (h : 0 ≤ seconds) : Wire where
  answer _ := answer
  duration _ := seconds
  duration_nonneg _ := h
  unlock _ := .ok ()

def answeringWire : Wire :=
  steadyWire (.ok ⟨200, false, some (.dict Dict.empty), "{}"⟩) 2 (by norm_num)

theorem funding_kept_answering :
    FundingKept oneInvoice
      (stateAfter (updateInvoicePayments (some (send answeringWire)) 0 0) oneInvoice) :=
  funding_kept (.single (.update (.cons (.acknowledged (by norm_num [oneInvoice]) rfl) (.nil _))))

/-- Every request times out after 60 seconds. -/
def timingOutWire : Wire := steadyWire (.error (.rpcError "Read timed out.")) 60 (by norm_num)

/-- The update does not raise, and the invoice is gone although no direct send of it was
acknowledged. -/
theorem funding_lost_to_timeouts :
    ∃ engine',
      (updateInvoicePayments (some (send timingOutWire)) 0 0).run oneInvoice = .ok () engine' ∧
      ("bcrt1qwallet", 100000) ∈ oneInvoice.scheduled ∧
      ("bcrt1qwallet", 100000) ∉ engine'.scheduled ∧
      directSend ("bcrt1qwallet", 100000) ∉ engine'.world.acknowledged := by
  obtain ⟨engine', hrun, -⟩ :=
    run_updateInvoicePayments alwaysSends_send oneInvoice 0 0
  have hstate := stateAfter_of_ok hrun
  refine ⟨engine', hrun, by decide, ?_, ?_⟩
  · rw [← hstate]
    decide +kernel
  · rw [← hstate]
    decide +kernel

end CoinjoinEmulator
