import CoinjoinEmulator.RoundEvents.Export
import CoinjoinEmulator.RoundEvents.LiveRun

/-! The labels that the export gives to the events of a run. -/

namespace CoinjoinEmulator

open ProofKit RoundEventRecord ExportedBlockRecord ExportedTransactionRecord JoinMarketClientServer
  JoinmarketEngine

/-- What the label of an event says.  `shared` is whether another event has its destination, and
`paid` are the payments to it. -/
structure LabelSpec (shared : Prop) (paid : Set DestinationMatch) (live label : RoundEvent) :
    Prop where
  duplicate : status label = some EventStatus.duplicateDestination.text ↔ shared
  confirmed : ¬shared →
    (status label = some EventStatus.confirmed.text ↔ ∃ found, paid = {found})
  multipleMatches : ¬shared →
    (status label = some EventStatus.multipleMatches.text ↔ paid.Nontrivial)
  unmatched : ¬shared →
    (status label = status live ∧ (status live = some EventStatus.started.text ∨
      status live = some EventStatus.failed.text) ↔ paid = ∅)
  nodup : (destinationMatches label).Nodup
  mem_matches : ∀ found, found ∈ destinationMatches label ↔ found ∈ paid

/-- The status of an unshared label is decided by the number of its matches. -/
theorem status_label {chain : List ExportedBlock} {paid : List Payment}
    (htxids : ∀ p ∈ paid, p.txid ≠ "") {event : RoundEvent} (hinv : EventInv chain event)
    (hunshared : status event ≠ some EventStatus.duplicateDestination.text)
    (hold : ∀ found ∈ destinationMatches event,
      found ∈ matchesTo (destinationAddress event) paid) :
    status (reconcileEvent false paid event) = status event ∧
      (status event = some EventStatus.started.text ∨ status event = some EventStatus.failed.text) ∧
      (destinationMatches (reconcileEvent false paid event)).length = 0 ∨
    status (reconcileEvent false paid event) = some EventStatus.confirmed.text ∧
      (destinationMatches (reconcileEvent false paid event)).length = 1 ∨
    status (reconcileEvent false paid event) = some EventStatus.multipleMatches.text ∧
      2 ≤ (destinationMatches (reconcileEvent false paid event)).length := by
  have hstatus := status_reconcileEvent false htxids event
  have hmatches := destinationMatches_reconcileEvent false htxids event
  rw [if_neg Bool.false_ne_true, if_neg hunshared] at hstatus
  split at hstatus
  · rename_i hnone
    rw [hnone] at hold
    have hempty : destinationMatches event = [] :=
      List.eq_nil_iff_forall_not_mem.mpr fun found hfound =>
      List.not_mem_nil (hold found hfound)
    rw [hnone, List.foldl_nil, hempty] at hmatches
    refine .inl ⟨hstatus, ?_, by rw [hmatches]; rfl⟩
    rcases hinv.status_cases with h | ⟨-, h⟩ | ⟨-, h⟩ | h
    · exact h.1
    · rw [hempty] at h
      simp at h
    · rw [hempty] at h
      simp at h
    · exact absurd h hunshared
  · rename_i hsome
    obtain ⟨found, hfound⟩ := List.exists_mem_of_ne_nil _ hsome
    have hpos : 0 < (destinationMatches (reconcileEvent false paid event)).length := by
      rw [hmatches]
      exact List.length_pos_of_mem ((mem_foldl_insertNew _ _ _).mpr (.inr hfound))
    unfold countedStatus at hstatus
    split at hstatus
    · rename_i hone
      exact .inr (.inl ⟨hstatus, hone⟩)
    · exact .inr (.inr ⟨hstatus, by omega⟩)

theorem LabelSpec.of_reconcile {chain : List ExportedBlock} {paid : List Payment}
    (htxids : ∀ p ∈ paid, p.txid ≠ "") {event : RoundEvent} (hinv : EventInv chain event)
    {shared : Bool}
    (hdup : status event = some EventStatus.duplicateDestination.text → shared = true)
    (hfound : ∀ found, found ∈ matchesTo (destinationAddress event) paid ↔
      found ∈ paymentsOf chain event) :
    LabelSpec (shared = true) (paymentsOf chain event) event
      (reconcileEvent shared paid event) := by
  have hmatches := destinationMatches_reconcileEvent shared htxids event
  have hnodup : (destinationMatches (reconcileEvent shared paid event)).Nodup := by
    rw [hmatches]
    exact nodup_foldl_insertNew _ hinv.nodup
  have hmem : ∀ found, found ∈ destinationMatches (reconcileEvent shared paid event) ↔
      found ∈ paymentsOf chain event := by
    intro found
    rw [hmatches, mem_foldl_insertNew, hfound]
    exact ⟨fun h => h.elim (hinv.paid found) id, Or.inr⟩
  have hempty := eq_nil_iff_of_mem_iff hmem
  have hone := length_eq_one_iff_of_mem_iff hnodup hmem
  have htwo := two_le_length_iff_of_mem_iff hnodup hmem
  cases shared with
  | true =>
    have hstatus := status_reconcileEvent true htxids event
    rw [if_pos rfl] at hstatus
    exact ⟨by simp [hstatus], fun h => absurd rfl h, fun h => absurd rfl h, fun h => absurd rfl h,
      hnodup, hmem⟩
  | false =>
    have hunshared : status event ≠ some EventStatus.duplicateDestination.text := fun h =>
      Bool.false_ne_true (hdup h)
    have hcases := status_label htxids hinv hunshared fun found h =>
      (hfound found).mpr (hinv.paid found h)
    rw [← List.length_eq_zero_iff] at hempty
    rcases hcases with ⟨hstatus, hlive, hlength⟩ | ⟨hstatus, hlength⟩ | ⟨hstatus, hlength⟩
    · have hlabel := hlive
      rw [← hstatus] at hlabel
      refine ⟨⟨fun h => ?_, fun h => absurd h Bool.false_ne_true⟩, fun _ => ?_, fun _ => ?_, fun _ => ?_,
        hnodup, hmem⟩
      · exact absurd (hstatus ▸ h) hunshared
      · rw [← hone, hlength]
        rcases hlabel with h | h <;> simp [h]
      · rw [← htwo, hlength]
        rcases hlabel with h | h <;> simp [h]
      · rw [← hempty]
        exact ⟨fun _ => hlength, fun _ => ⟨hstatus, hlive⟩⟩
    · refine ⟨by simp [hstatus], fun _ => ?_, fun _ => ?_, fun _ => ?_, hnodup, hmem⟩
      · simp [hstatus, ← hone, hlength]
      · simp [hstatus, ← htwo, hlength]
      · rw [← hempty, hlength, hstatus]
        refine ⟨fun ⟨heq, h⟩ => ?_, fun h => by omega⟩
        rw [← heq] at h
        simp at h
    · refine ⟨by simp [hstatus], fun _ => ?_, fun _ => ?_, fun _ => ?_, hnodup, hmem⟩
      · rw [← hone, hstatus]
        simp
        omega
      · rw [← htwo]
        simp [hstatus, hlength]
      · rw [← hempty, hstatus]
        refine ⟨fun ⟨heq, h⟩ => ?_, fun h => by omega⟩
        rw [← heq] at h
        simp at h

/-! ### The blocks of the export -/

theorem walkBlocks_export {chain blocks : List ExportedBlock} (hchain : WellFormedChain chain)
    (hblocks : blocks.Perm chain) : (walkBlocks (indexedBlocks blocks)).2 = none := by
  apply walkBlocks_none
  intro item hitem
  obtain ⟨block, hblock, rfl⟩ := List.mem_map.mp hitem
  obtain ⟨i, hi⟩ := List.mem_iff_getElem?.mp (hblocks.mem_iff.mp hblock)
  have hwf := hchain i block hi
  exact ⟨i, block, by rw [hwf.height_eq], hwf.txids⟩

/-- The matches that the export makes are the payments of the chain, whatever the order of the
blocks. -/
theorem mem_matchesTo_export {chain blocks : List ExportedBlock} (hchain : WellFormedChain chain)
    (hblocks : blocks.Perm chain) (event : RoundEvent) (found : DestinationMatch) :
    found ∈ matchesTo (destinationAddress event) (walkBlocks (indexedBlocks blocks)).1 ↔
      found ∈ paymentsOf chain event := by
  have hheights : ∀ block ∈ blocks, ∃ i : Nat, height block = some (i : Int) := by
    intro block hblock
    obtain ⟨i, hi⟩ := List.mem_iff_getElem?.mp (hblocks.mem_iff.mp hblock)
    exact ⟨i, (hchain i block hi).height_eq⟩
  obtain ⟨t, h⟩ := found
  rw [mem_matchesTo]
  constructor
  · rintro ⟨a, ha, hmem⟩
    obtain ⟨block, hitem, hpays⟩ := mem_walkBlocks hmem
    obtain ⟨block', hblock', heq⟩ := List.mem_map.mp hitem
    obtain ⟨i, hi⟩ := hheights block' hblock'
    rw [hi] at heq
    cases heq
    exact ⟨a, ha, block, hblocks.mem_iff.mp hblock', hi, hpays⟩
  · rintro ⟨a, ha, block, hblock, hheight, hpays⟩
    refine ⟨a, ha, ?_⟩
    have hmem := mem_indexedBlocks (hblocks.mem_iff.mpr hblock) hheight
    obtain ⟨h, block', heq, hpaid⟩ := walkBlocks_complete (walkBlocks_export hchain hblocks) _ hmem
    cases heq
    exact hpaid _ _ hpays

/-! ### The labels of the collected events -/

@[simp] theorem destinationAddress_copyWithExportRoundId (event : RoundEvent) (id : Int) :
    destinationAddress (copyWithExportRoundId event id) = destinationAddress event :=
  destinationAddress_congr (by simp [copyWithExportRoundId])

theorem status_copyWithExportRoundId (event : RoundEvent) (id : Int) :
    status (copyWithExportRoundId event id) = status event :=
  status_congr (by simp [copyWithExportRoundId])

theorem destinationMatches_copyWithExportRoundId (event : RoundEvent) (id : Int) :
    destinationMatches (copyWithExportRoundId event id) = destinationMatches event :=
  destinationMatches_congr (by simp [copyWithExportRoundId])

theorem destinationAddress_collected (eventGroups : List (List RoundEvent)) :
    (collectRoundEvents eventGroups).map destinationAddress =
      eventGroups.flatten.map destinationAddress := by
  rw [collectRoundEvents, List.map_map]
  have hfst : (destinationAddress ∘ fun x : RoundEvent × Nat => copyWithExportRoundId x.1 x.2) =
      destinationAddress ∘ Prod.fst := funext fun x => by simp
  rw [hfst, ← List.map_map, List.zipIdx_map_fst]

/-- Copying for export does not change who shares a destination. -/
theorem sharesDestination_collected (eventGroups : List (List RoundEvent)) (event : RoundEvent)
    (id : Int) :
    sharesDestination (collectRoundEvents eventGroups) (copyWithExportRoundId event id) =
      sharesDestination eventGroups.flatten event := by
  have hcount : ∀ (events : List RoundEvent) (a : String),
      events.countP (fun other => destinationAddress other = some a) =
        (events.map destinationAddress).countP (fun dest => dest = some a) := by
    intro events a
    rw [List.countP_map]
    rfl
  simp only [sharesDestination, destinationAddress_copyWithExportRoundId, hcount,
    destinationAddress_collected]

/-- The label of one live event of a run. -/
theorem labelSpec_exportLabel {w : World} (h : liveSystem.Reachable w)
    (hchain : WellFormedChain w.chain) {blocks : List ExportedBlock} (hblocks : blocks.Perm w.chain)
    {live : RoundEvent} (hlive : live ∈ w.engine.liveRoundEvents) (id : Int) :
    LabelSpec (sharesDestination w.engine.liveRoundEvents live = true) (paymentsOf w.chain live) live
      (exportLabel (collectRoundEvents w.engine.roundEventGroups) blocks
        (copyWithExportRoundId live id)) := by
  have hstatus := status_copyWithExportRoundId live id
  have hdest := destinationAddress_copyWithExportRoundId live id
  have hinv : EventInv w.chain (copyWithExportRoundId live id) :=
    (eventInv_of_reachable h hchain live hlive).congr (List.Subset.refl _) hstatus
      (destinationMatches_copyWithExportRoundId live id) hdest
  have hspec := LabelSpec.of_reconcile (fun _ => txid_ne_of_mem_walkBlocks) hinv
    (fun hdup => sharesDestination_of_reachable h live hlive (hstatus ▸ hdup))
    (mem_matchesTo_export hchain hblocks _)
  rw [paymentsOf_congr hdest] at hspec
  rw [exportLabel, sharesDestination_collected]
  exact { hspec with unmatched := fun hunshared => hstatus ▸ hspec.unmatched hunshared }

/-- The labels of the live events of a run, in their order. -/
def exportedLabels (w : World) (blocks : List ExportedBlock) : List RoundEvent :=
  (collectRoundEvents w.engine.roundEventGroups).map
    (exportLabel (collectRoundEvents w.engine.roundEventGroups) blocks)

theorem length_exportedLabels (w : World) (blocks : List ExportedBlock) :
    (exportedLabels w blocks).length = w.engine.liveRoundEvents.length := by
  rw [exportedLabels, List.length_map, length_collectRoundEvents, liveRoundEvents]

theorem getElem?_exportedLabels {w : World} {blocks : List ExportedBlock} {i : Nat}
    {live label : RoundEvent} (hlive : w.engine.liveRoundEvents[i]? = some live)
    (hlabel : (exportedLabels w blocks)[i]? = some label) :
    label = exportLabel (collectRoundEvents w.engine.roundEventGroups) blocks
      (copyWithExportRoundId live ((i : Int) + 1)) := by
  rw [exportedLabels, List.getElem?_map] at hlabel
  obtain ⟨event, hevent, rfl⟩ := Option.map_eq_some_iff.mp hlabel
  obtain ⟨live', hlive', rfl⟩ := get_collected hevent
  rw [← liveRoundEvents, hlive, Option.some.injEq] at hlive'
  rw [hlive']

theorem labelSpec_exportedLabels {w : World} (h : liveSystem.Reachable w)
    (hchain : WellFormedChain w.chain) {blocks : List ExportedBlock} (hblocks : blocks.Perm w.chain)
    {i : Nat} {live label : RoundEvent} (hlive : w.engine.liveRoundEvents[i]? = some live)
    (hlabel : (exportedLabels w blocks)[i]? = some label) :
    LabelSpec (SharedByAnother w.engine.liveRoundEvents i live) (paymentsOf w.chain live) live
      label := by
  rw [getElem?_exportedLabels hlive hlabel, ← sharesDestination_iff hlive]
  exact labelSpec_exportLabel h hchain hblocks (List.mem_of_getElem? hlive) _

/-- The exported labels of a run: one for each live event, in their order, and whatever the scans of
the run and the order of the blocks, decided by the chain and by who shares a destination. -/
theorem matchRoundEventsToBlocks_labels {w : World} (h : liveSystem.Reachable w)
    (hchain : WellFormedChain w.chain) {blocks : List ExportedBlock}
    (hblocks : blocks.Perm w.chain) :
    ∃ labels, matchRoundEventsToBlocks (collectRoundEvents w.engine.roundEventGroups) blocks =
        .ok labels ∧
      labels.length = w.engine.liveRoundEvents.length ∧
      ∀ (i : Nat) live label, w.engine.liveRoundEvents[i]? = some live → labels[i]? = some label →
        exportRoundId label = .ok ((i : Int) + 1) ∧
        (∀ k ∉ reconciledKeys, k ≠ "export_round_id" → label.get k = live.get k) ∧
        LabelSpec (SharedByAnother w.engine.liveRoundEvents i live) (paymentsOf w.chain live) live
          label := by
  refine ⟨exportedLabels w blocks,
    matchRoundEventsToBlocks_collected _ (walkBlocks_export hchain hblocks),
    length_exportedLabels w blocks, ?_⟩
  intro i live label hlive hlabel
  refine ⟨?_, ?_, labelSpec_exportedLabels h hchain hblocks hlive hlabel⟩
  · rw [getElem?_exportedLabels hlive hlabel, exportRoundId, exportLabel,
      get_reconcileEvent (by decide)]
    simp [copyWithExportRoundId]
  · intro k hk hid
    rw [getElem?_exportedLabels hlive hlabel, exportLabel, get_reconcileEvent hk]
    simp [copyWithExportRoundId, hid]

theorem matchRoundEventsToBlocks_labels_paidTwice :
    ∃ labels, matchRoundEventsToBlocks (collectRoundEvents paidTwice.engine.roundEventGroups)
        paidTwice.chain.reverse = .ok labels ∧ labels.length = 1 := by
  obtain ⟨labels, hlabels, hlength, -⟩ := matchRoundEventsToBlocks_labels paidTwice_reachable
    wellFormedChain_paidTwice (List.reverse_perm paidTwice.chain)
  exact ⟨labels, hlabels, hlength⟩

/-! ### Live confirmations and their labels -/

/-- As many labels are confirmed as live events if each live confirmation has a confirmed label. -/
theorem countConfirmedRounds_le_labels {lives labels : List RoundEvent}
    (hlength : labels.length = lives.length)
    (hlabels : ∀ (i : Nat) live label, lives[i]? = some live → labels[i]? = some label →
      hasStatus .confirmed live = true → hasStatus .confirmed label = true) :
    countConfirmedRounds lives ≤ countConfirmedRounds labels := by
  refine countP_le_of_forall₂ (R := fun live label => hasStatus .confirmed live = true →
    hasStatus .confirmed label = true) (fun _ _ h => h) ?_
  rw [List.forall₂_iff_get]
  refine ⟨hlength.symm, fun i hi hi' => ?_⟩
  exact hlabels i _ _ (List.getElem?_eq_getElem hi) (List.getElem?_eq_getElem hi')

/-- A list without repetition enumerates `{a}` if and only if it is `[a]`. -/
theorem eq_singleton_iff_of_mem_iff {α : Type} {items : List α} {s : Set α} {a : α}
    (hnodup : items.Nodup) (h : ∀ b, b ∈ items ↔ b ∈ s) : items = [a] ↔ s = {a} := by
  constructor
  · rintro rfl
    exact Set.ext fun b => by rw [← h, List.mem_singleton, Set.mem_singleton_iff]
  · rintro rfl
    obtain ⟨b, hb⟩ := List.length_eq_one_iff.mp
      ((length_eq_one_iff_of_mem_iff hnodup h).mpr ⟨a, rfl⟩)
    have hmem := (h b).mp (by simp [hb])
    rw [hb, Set.mem_singleton_iff.mp hmem]

/-- The match of a live confirmation is kept by its label.  The label is confirmed with that sole
match if and only if no other event has its destination and the complete chain pays it in no other
pair; otherwise it says which of the two fails.  The live counter is at most the number of confirmed
labels when both hold of each live confirmation. -/
theorem live_confirmed_labels {w : World} (h : liveSystem.Reachable w)
    (hchain : WellFormedChain w.chain) :
    ∃ labels, matchRoundEventsToBlocks (collectRoundEvents w.engine.roundEventGroups) w.chain =
        .ok labels ∧
      (∀ (i : Nat) live label found, w.engine.liveRoundEvents[i]? = some live →
        labels[i]? = some label → status live = some EventStatus.confirmed.text →
        destinationMatches live = [found] →
        found ∈ destinationMatches label ∧
        (status label = some EventStatus.confirmed.text ∧ destinationMatches label = [found] ↔
          ¬SharedByAnother w.engine.liveRoundEvents i live ∧ paymentsOf w.chain live = {found}) ∧
        (status label = some EventStatus.duplicateDestination.text ↔
          SharedByAnother w.engine.liveRoundEvents i live) ∧
        (status label = some EventStatus.multipleMatches.text ↔
          ¬SharedByAnother w.engine.liveRoundEvents i live ∧ paymentsOf w.chain live ≠ {found})) ∧
      ((∀ (i : Nat) live, w.engine.liveRoundEvents[i]? = some live →
          status live = some EventStatus.confirmed.text →
          ¬SharedByAnother w.engine.liveRoundEvents i live ∧
            (paymentsOf w.chain live).Subsingleton) →
        w.engine.currentRound ≤ countConfirmedRounds labels) := by
  have hperm := List.Perm.refl w.chain
  have hpaid : ∀ (i : Nat) live found, w.engine.liveRoundEvents[i]? = some live →
      found ∈ destinationMatches live → found ∈ paymentsOf w.chain live := fun i live found hlive =>
    (eventInv_of_reachable h hchain live (List.mem_of_getElem? hlive)).paid found
  refine ⟨exportedLabels w w.chain,
    matchRoundEventsToBlocks_collected _ (walkBlocks_export hchain hperm), ?_, ?_⟩
  · intro i live label found hlive hlabel hconfirmed hmatches
    have hspec := labelSpec_exportedLabels h hchain hperm hlive hlabel
    have hfound := hpaid i live found hlive (by simp [hmatches])
    have hsole := eq_singleton_iff_of_mem_iff (a := found) hspec.nodup hspec.mem_matches
    have hunshared {text : String} (hstatus : status label = some text)
        (hother : text ≠ EventStatus.duplicateDestination.text) :
        ¬SharedByAnother w.engine.liveRoundEvents i live := by
      intro hshared
      rw [hspec.duplicate.mpr hshared] at hstatus
      exact hother (Option.some.inj hstatus).symm
    refine ⟨(hspec.mem_matches found).mpr hfound, ?_, hspec.duplicate, ?_⟩
    · constructor
      · rintro ⟨hstatus, hlist⟩
        exact ⟨hunshared hstatus (by decide), hsole.mp hlist⟩
      · rintro ⟨hunshared, hset⟩
        exact ⟨(hspec.confirmed hunshared).mpr ⟨found, hset⟩, hsole.mpr hset⟩
    · have hnontrivial : (paymentsOf w.chain live).Nontrivial ↔ paymentsOf w.chain live ≠ {found} := by
        rw [← Set.not_subsingleton_iff, Set.subsingleton_iff_singleton hfound]
      rw [← hnontrivial]
      constructor
      · intro hstatus
        have halone := hunshared hstatus (by decide)
        exact ⟨halone, (hspec.multipleMatches halone).mp hstatus⟩
      · rintro ⟨hunshared, hset⟩
        exact (hspec.multipleMatches hunshared).mpr hset
  · intro hgood
    refine (currentRound_le_of_reachable h).trans
      (countConfirmedRounds_le_labels (length_exportedLabels w w.chain) ?_)
    intro i live label hlive hlabel hconfirmed
    rw [hasStatus_iff] at hconfirmed ⊢
    obtain ⟨hunshared, hsub⟩ := hgood i live hlive hconfirmed
    have hspec := labelSpec_exportedLabels h hchain hperm hlive hlabel
    -- a live confirmation has a match, so the chain pays its destination
    have hinv := eventInv_of_reachable h hchain live (List.mem_of_getElem? hlive)
    obtain ⟨found, hmatches⟩ := List.length_eq_one_iff.mp (hinv.length_of_confirmed hconfirmed)
    have hfound := hpaid i live found hlive (by simp [hmatches])
    exact (hspec.confirmed hunshared).mpr
      ⟨found, (Set.subsingleton_iff_singleton hfound).mp hsub⟩

theorem live_confirmed_labels_paidTwice :
    ∃ labels, matchRoundEventsToBlocks (collectRoundEvents paidTwice.engine.roundEventGroups)
        paidTwice.chain = .ok labels ∧
      ∀ label, labels[0]? = some label → ⟨"txA", 1⟩ ∈ destinationMatches label := by
  obtain ⟨labels, hlabels, hlive, -⟩ := live_confirmed_labels paidTwice_reachable
    wellFormedChain_paidTwice
  refine ⟨labels, hlabels, fun label hlabel => ?_⟩
  exact (hlive 0 _ label ⟨"txA", 1⟩ rfl hlabel rfl rfl).1

/-- A round that the live counter counts and that the export does not label confirmed. -/
theorem live_confirmation_rejected_by_export :
    liveSystem.Reachable paidTwice ∧ WellFormedChain paidTwice.chain ∧
      paidTwice.engine.currentRound = 1 ∧
      (∃ live, paidTwice.engine.liveRoundEvents[0]? = some live ∧
        status live = some EventStatus.confirmed.text ∧
        destinationMatches live = [⟨"txA", 1⟩]) ∧
      ∃ labels, matchRoundEventsToBlocks (collectRoundEvents paidTwice.engine.roundEventGroups)
          paidTwice.chain = .ok labels ∧
        labels.map status = [some EventStatus.multipleMatches.text] ∧
        countConfirmedRounds labels = 0 :=
  ⟨paidTwice_reachable, wellFormedChain_paidTwice, rfl, ⟨_, rfl, rfl, rfl⟩, ⟨_, rfl, rfl, rfl⟩⟩

end CoinjoinEmulator
