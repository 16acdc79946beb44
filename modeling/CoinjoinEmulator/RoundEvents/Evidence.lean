import CoinjoinEmulator.RoundEvents.Labels
import Mathlib.Data.Set.Card

/-! `producer_label_evidence`: what the manifest says about the labels of a run, and why it is
exact. -/

namespace CoinjoinEmulator

open ProofKit RoundEventRecord JoinmarketEngine

/-- Engine-owned records used to establish the producer-label contract. -/
structure ProducerLabelEvidence where
  engine : String
  complete : Bool
  reason : Option String
  positiveRule : String
  positiveCount : Nat
  sources : List String
deriving DecidableEq, Repr

/-- `str(record.round_id if record.round_id is not None else "?")`. -/
def roundIdText (record : RoundEvent) : String :=
  match record.get "round_id" with
  | some (.int roundId) => toString roundId
  | some (.bool roundId) => if roundId then "True" else "False"
  | _ => "?"

/-- Format known round identifiers for a manifest reason. -/
def formatRoundIds (records : List RoundEvent) : String :=
  ", ".intercalate (records.map roundIdText)

/-- Split records by the two destination-conflict statuses in one pass. -/
def partitionDestinationConflicts : List RoundEvent → List RoundEvent × List RoundEvent
  | [] => ([], [])
  | record :: rest =>
    let (duplicates, multipleMatches) := partitionDestinationConflicts rest
    if hasStatus .duplicateDestination record then (record :: duplicates, multipleMatches)
    else if hasStatus .multipleMatches record then (duplicates, record :: multipleMatches)
    else (duplicates, multipleMatches)

/-- One reason, if there is something that it is about. -/
def reasonAbout {α : Type} (text : String) (format : List α → String) (items : List α) :
    List String :=
  if items.isEmpty then [] else [text ++ format items]

def incompleteReasons (records : List RoundEvent) (unlabelledTakers : List String) : List String :=
  let (duplicates, multipleMatches) := partitionDestinationConflicts records
  let missingDestinations := records.filter fun record => (destinationAddress record).isNone
  reasonAbout "tumbler takers produce no per-round labels: "
      (fun takers => ", ".intercalate (takers.insertionSort (· ≤ ·))) unlabelledTakers ++
    reasonAbout "round events have no destination address: " formatRoundIds missingDestinations ++
    reasonAbout "destination address is shared by several rounds: " formatRoundIds duplicates ++
    reasonAbout "destination output matches multiple exported transactions for rounds: "
      formatRoundIds multipleMatches

/-- The dictionary that states the evidence. -/
def labelEvidence (reasons positiveTxids : List String) : ProducerLabelEvidence where
  engine := "joinmarket"
  complete := reasons.isEmpty
  reason := if reasons.isEmpty then none else some ("; ".intercalate reasons)
  positiveRule :=
    "exported transaction is the sole destination match for a reconciled JoinMarket round event"
  positiveCount := positiveTxids.length
  sources := ["joinmarket_round_events.json"]

/-- Manifest evidence from reconciled records and known omissions.  Reading the confirmed
transactions keeps only the valid matches in the records. -/
def producerLabelEvidence (unlabelledTakers : List String) : Reconcile ProducerLabelEvidence := do
  let records ← get
  let positiveTxids ← confirmedCoinjoinTxids
  return labelEvidence (incompleteReasons records unlabelledTakers) positiveTxids

/-! ### What the reasons are about -/

theorem partitionDestinationConflicts_eq (records : List RoundEvent) :
    partitionDestinationConflicts records =
      (records.filter (hasStatus .duplicateDestination),
        records.filter (hasStatus .multipleMatches)) := by
  induction records with
  | nil => rfl
  | cons record rest ih =>
    rw [partitionDestinationConflicts, ih]
    by_cases hduplicate : hasStatus .duplicateDestination record = true
    · have hother : hasStatus .multipleMatches record = false := by
        rw [hasStatus_iff] at hduplicate
        simp [hasStatus, hduplicate]
      simp [hduplicate, hother]
    · by_cases hmultiple : hasStatus .multipleMatches record = true <;> simp [hduplicate, hmultiple]

theorem reasonAbout_eq_nil {α : Type} {text : String} {format : List α → String} {items : List α} :
    reasonAbout text format items = [] ↔ items = [] := by
  cases items <;> simp [reasonAbout]

theorem incompleteReasons_eq_nil {records : List RoundEvent} {unlabelledTakers : List String} :
    incompleteReasons records unlabelledTakers = [] ↔
      unlabelledTakers = [] ∧ ∀ record ∈ records, destinationAddress record ≠ none ∧
        hasStatus .duplicateDestination record = false ∧
        hasStatus .multipleMatches record = false := by
  simp only [incompleteReasons, partitionDestinationConflicts_eq, List.append_eq_nil_iff,
    reasonAbout_eq_nil, List.filter_eq_nil_iff, Bool.not_eq_true, Option.isNone_eq_false_iff,
    Option.isSome_iff_ne_none]
  constructor
  · rintro ⟨⟨⟨htakers, hdest⟩, hduplicate⟩, hmultiple⟩
    exact ⟨htakers, fun record hmem => ⟨hdest record hmem, hduplicate record hmem,
      hmultiple record hmem⟩⟩
  · rintro ⟨htakers, hall⟩
    exact ⟨⟨⟨htakers, fun record hmem => (hall record hmem).1⟩, fun record hmem =>
      (hall record hmem).2.1⟩, fun record hmem => (hall record hmem).2.2⟩

theorem confirmedDestinationTxid_eq_some {record : RoundEvent} {txid : String} :
    confirmedDestinationTxid record = some txid ↔
      status record = some EventStatus.confirmed.text ∧
        ∃ blockHeight, destinationMatches record = [⟨txid, blockHeight⟩] := by
  unfold confirmedDestinationTxid
  split
  · rename_i text found hstatus hmatches
    obtain ⟨txid', blockHeight⟩ := found
    rw [hstatus, hmatches]
    by_cases hconfirmed : text = "confirmed" <;> simp [hconfirmed]
  · rename_i hother
    refine ⟨fun h => (Option.some_ne_none txid h.symm).elim, ?_⟩
    rintro ⟨hstatus, blockHeight, hmatches⟩
    exact absurd hmatches (hother _ _ hstatus)

/-- The evidence about one list of records. -/
theorem run_producerLabelEvidence (unlabelledTakers : List String) (records : List RoundEvent) :
    ∃ evidence, (producerLabelEvidence unlabelledTakers).run records =
        .ok evidence (records.map persistDestinationMatches) ∧
      (evidence.complete = true ↔ incompleteReasons records unlabelledTakers = []) ∧
      (evidence.reason = none ↔ evidence.complete = true) ∧
      evidence.positiveCount =
        {txid | ∃ record ∈ records, confirmedDestinationTxid record = some txid}.ncard := by
  refine ⟨labelEvidence (incompleteReasons records unlabelledTakers)
    ((records.filterMap confirmedDestinationTxid).foldl insertNew []), ?_, List.isEmpty_iff, ?_, ?_⟩
  · simp only [producerLabelEvidence, EStateM.run_bind, EStateM.run_get,
      run_confirmedCoinjoinTxids, EStateM.run_pure]
  · cases hreasons : (incompleteReasons records unlabelledTakers).isEmpty <;>
      simp [labelEvidence, hreasons]
  · set txids := (records.filterMap confirmedDestinationTxid).foldl insertNew [] with htxids
    have hnodup : txids.Nodup := nodup_foldl_insertNew _ List.nodup_nil
    have hmem : {txid | ∃ record ∈ records, confirmedDestinationTxid record = some txid} =
        (txids.toFinset : Set String) := by
      ext txid
      simp [htxids, mem_foldl_insertNew]
    rw [hmem, Set.ncard_coe_finset, List.toFinset_card_of_nodup hnodup, labelEvidence]

/-! ### The evidence about the labels of a run -/

section Run

variable {w : World} (h : liveSystem.Reachable w) (hchain : WellFormedChain w.chain)
  {blocks : List ExportedBlock} (hblocks : blocks.Perm w.chain)

theorem mem_exportedLabels {label : RoundEvent} :
    label ∈ exportedLabels w blocks ↔ ∃ (i : Nat) (live : RoundEvent),
      w.engine.liveRoundEvents[i]? = some live ∧ (exportedLabels w blocks)[i]? = some label := by
  rw [List.mem_iff_getElem?]
  constructor
  · rintro ⟨i, hi⟩
    have hlength := (List.getElem?_eq_some_iff.mp hi).1
    rw [length_exportedLabels] at hlength
    exact ⟨i, _, List.getElem?_eq_getElem hlength, hi⟩
  · rintro ⟨i, live, -, hi⟩
    exact ⟨i, hi⟩

theorem exists_exportedLabel {i : Nat} {live : RoundEvent}
    (hlive : w.engine.liveRoundEvents[i]? = some live) :
    ∃ label, (exportedLabels w blocks)[i]? = some label := by
  have hlength := (List.getElem?_eq_some_iff.mp hlive).1
  rw [← length_exportedLabels w blocks] at hlength
  exact ⟨_, List.getElem?_eq_getElem hlength⟩

theorem destinationAddress_exportedLabel {i : Nat} {live label : RoundEvent}
    (hlive : w.engine.liveRoundEvents[i]? = some live)
    (hlabel : (exportedLabels w blocks)[i]? = some label) :
    destinationAddress label = destinationAddress live := by
  rw [getElem?_exportedLabels hlive hlabel, exportLabel, destinationAddress_reconcileEvent,
    destinationAddress_copyWithExportRoundId]

include h hchain hblocks in
/-- A label has no conflict of destinations if and only if its live event shares no destination and
the chain pays it at most once. -/
theorem no_conflict_iff {i : Nat} {live label : RoundEvent}
    (hlive : w.engine.liveRoundEvents[i]? = some live)
    (hlabel : (exportedLabels w blocks)[i]? = some label) :
    hasStatus .duplicateDestination label = false ∧ hasStatus .multipleMatches label = false ↔
      ¬SharedByAnother w.engine.liveRoundEvents i live ∧
        (paymentsOf w.chain live).Subsingleton := by
  have hspec := labelSpec_exportedLabels h hchain hblocks hlive hlabel
  rw [← Bool.not_eq_true, ← Bool.not_eq_true, hasStatus_iff, hasStatus_iff, hspec.duplicate]
  refine and_congr_right fun hunshared => ?_
  rw [hspec.multipleMatches hunshared, Set.not_nontrivial_iff]

include h hchain hblocks in
/-- The confirmed transaction of a label is the sole match of a destination that is not shared. -/
theorem confirmedDestinationTxid_exportedLabel {i : Nat} {live label : RoundEvent}
    (hlive : w.engine.liveRoundEvents[i]? = some live)
    (hlabel : (exportedLabels w blocks)[i]? = some label) {txid : String} :
    confirmedDestinationTxid label = some txid ↔
      ¬SharedByAnother w.engine.liveRoundEvents i live ∧
        ∃ blockHeight, paymentsOf w.chain live = {⟨txid, blockHeight⟩} := by
  have hspec := labelSpec_exportedLabels h hchain hblocks hlive hlabel
  have hsole : ∀ found, destinationMatches label = [found] ↔ paymentsOf w.chain live = {found} :=
    fun found => eq_singleton_iff_of_mem_iff hspec.nodup hspec.mem_matches
  rw [confirmedDestinationTxid_eq_some]
  constructor
  · rintro ⟨hconfirmed, blockHeight, hmatches⟩
    refine ⟨fun hshared => ?_, blockHeight, (hsole _).mp hmatches⟩
    rw [hspec.duplicate.mpr hshared] at hconfirmed
    simp at hconfirmed
  · rintro ⟨hunshared, blockHeight, hpaid⟩
    exact ⟨(hspec.confirmed hunshared).mpr ⟨_, hpaid⟩, blockHeight, (hsole _).mpr hpaid⟩

end Run

/-- The evidence about a run is decided by its events and the chain: it is complete if and only if
no taker is unlabelled, every event has a destination of its own and no destination is paid twice,
and the count is that of the transactions which are the only payment to a destination of one
event. -/
theorem producerLabelEvidence_exact {w : World} (h : liveSystem.Reachable w)
    (hchain : WellFormedChain w.chain) {blocks : List ExportedBlock}
    (hblocks : blocks.Perm w.chain) (unlabelledTakers : List String) :
    ∃ labels labels' evidence,
      matchRoundEventsToBlocks (collectRoundEvents w.engine.roundEventGroups) blocks = .ok labels ∧
      (producerLabelEvidence unlabelledTakers).run labels = .ok evidence labels' ∧
      (evidence.complete = true ↔ unlabelledTakers = [] ∧
        ∀ (i : Nat) live, w.engine.liveRoundEvents[i]? = some live →
          (∃ address, live.get "destination_address" = some (.str address) ∧ address ≠ "") ∧
          ¬SharedByAnother w.engine.liveRoundEvents i live ∧
          (paymentsOf w.chain live).Subsingleton) ∧
      (evidence.reason = none ↔ evidence.complete = true) ∧
      evidence.positiveCount = {txid | ∃ (i : Nat) (live : RoundEvent) (blockHeight : Int),
        w.engine.liveRoundEvents[i]? = some live ∧
        ¬SharedByAnother w.engine.liveRoundEvents i live ∧
        paymentsOf w.chain live = {⟨txid, blockHeight⟩}}.ncard := by
  obtain ⟨evidence, hrun, hcomplete, hreason, hcount⟩ :=
    run_producerLabelEvidence unlabelledTakers (exportedLabels w blocks)
  refine ⟨exportedLabels w blocks, _, evidence,
    matchRoundEventsToBlocks_collected _ (walkBlocks_export hchain hblocks), hrun, ?_, hreason, ?_⟩
  · rw [hcomplete, incompleteReasons_eq_nil]
    refine and_congr_right fun _ => ⟨fun hall i live hlive => ?_, fun hall label hmem => ?_⟩
    · obtain ⟨label, hlabel⟩ := exists_exportedLabel hlive
      obtain ⟨hdest, hclear⟩ := hall label (List.mem_of_getElem? hlabel)
      rw [destinationAddress_exportedLabel hlive hlabel] at hdest
      exact ⟨destinationAddress_ne_none.mp hdest,
        (no_conflict_iff h hchain hblocks hlive hlabel).mp hclear⟩
    · obtain ⟨i, live, hlive, hlabel⟩ := mem_exportedLabels.mp hmem
      obtain ⟨hdest, hclear⟩ := hall i live hlive
      rw [destinationAddress_exportedLabel hlive hlabel]
      exact ⟨destinationAddress_ne_none.mpr hdest,
        (no_conflict_iff h hchain hblocks hlive hlabel).mpr hclear⟩
  · rw [hcount]
    congr 1
    ext txid
    constructor
    · rintro ⟨label, hmem, htxid⟩
      obtain ⟨i, live, hlive, hlabel⟩ := mem_exportedLabels.mp hmem
      obtain ⟨hunshared, blockHeight, hpaid⟩ :=
        (confirmedDestinationTxid_exportedLabel h hchain hblocks hlive hlabel).mp htxid
      exact ⟨i, live, blockHeight, hlive, hunshared, hpaid⟩
    · rintro ⟨i, live, blockHeight, hlive, hunshared, hpaid⟩
      obtain ⟨label, hlabel⟩ := exists_exportedLabel hlive
      exact ⟨label, List.mem_of_getElem? hlabel,
        (confirmedDestinationTxid_exportedLabel h hchain hblocks hlive hlabel).mpr
          ⟨hunshared, blockHeight, hpaid⟩⟩

theorem producerLabelEvidence_exact_paidTwice :
    ∃ labels labels' evidence,
      matchRoundEventsToBlocks (collectRoundEvents paidTwice.engine.roundEventGroups)
        paidTwice.chain = .ok labels ∧
      (producerLabelEvidence []).run labels = .ok evidence labels' ∧
      (evidence.reason = none ↔ evidence.complete = true) := by
  obtain ⟨labels, labels', evidence, hlabels, hrun, -, hreason, -⟩ :=
    producerLabelEvidence_exact paidTwice_reachable wellFormedChain_paidTwice
      (List.Perm.refl paidTwice.chain) []
  exact ⟨labels, labels', evidence, hlabels, hrun, hreason⟩

end CoinjoinEmulator
