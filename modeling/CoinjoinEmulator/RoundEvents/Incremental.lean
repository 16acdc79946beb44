import CoinjoinEmulator.RoundEvents.Export

/-! Reconciling all events is incremental and idempotent: blocks may be given in one pass or in
several, and blocks that were given before change nothing. -/

namespace CoinjoinEmulator

open ProofKit RoundEventRecord ExportedBlockRecord ExportedTransactionRecord

/-! ### Execution evidence is retained once -/

/-- The event has the execution evidence that its status is. -/
def Preserved (event : RoundEvent) : Prop := preserveExecutionStatus event = event

theorem preserved_of_status {event : RoundEvent}
    (hstarted : status event ≠ some EventStatus.started.text)
    (hfailed : status event ≠ some EventStatus.failed.text) : Preserved event := by
  unfold Preserved preserveExecutionStatus
  split
  · rename_i text htext
    rw [htext] at hstarted hfailed
    rw [if_neg]
    rintro (rfl | rfl)
    · exact hstarted rfl
    · exact hfailed rfl
  · rfl

theorem preserved_preserveExecutionStatus (event : RoundEvent) :
    Preserved (preserveExecutionStatus event) := by
  unfold Preserved
  cases hstatus : status event with
  | none =>
    have hsame : preserveExecutionStatus event = event := by
      rw [preserveExecutionStatus, hstatus]
    rw [hsame, hsame]
  | some text =>
    by_cases htext : text = EventStatus.started.text ∨ text = EventStatus.failed.text
    · have hset : preserveExecutionStatus event =
          event.setDefault "execution_status" (.str text) := by
        simp only [preserveExecutionStatus, hstatus, htext, if_true]
      obtain ⟨old, hold⟩ : ∃ old, (preserveExecutionStatus event).get "execution_status" = some old := by
        rw [hset, Dict.get_setDefault, if_pos rfl]
        exact ⟨_, rfl⟩
      conv_lhs => rw [preserveExecutionStatus, status_preserveExecutionStatus, hstatus]
      simp only [htext, if_true]
      exact Dict.setDefault_of_some _ hold
    · have hsame : preserveExecutionStatus event = event := by
        simp only [preserveExecutionStatus, hstatus, htext, if_false]
      rw [hsame, hsame]

theorem preserved_markDuplicateDestination (event : RoundEvent) :
    Preserved (markDuplicateDestination event) :=
  preserved_of_status (by simp) (by simp)

theorem preserved_addDestinationMatch (txid : String) (blockHeight : Int) (event : RoundEvent) :
    Preserved (addDestinationMatch txid blockHeight event) := by
  have hstatus := status_addDestinationMatch txid blockHeight event
  unfold countedStatus at hstatus
  apply preserved_of_status
  all_goals
    rw [hstatus]
    split
    · simp
    · split <;> simp

theorem preserved_creditEvent {event : RoundEvent} (h : Preserved event) (paid : List Payment) :
    Preserved (creditEvent paid event) := by
  induction paid generalizing event with
  | nil => exact h
  | cons p rest ih =>
    rw [creditEvent_cons]
    apply ih
    split
    · exact preserved_addDestinationMatch _ _ _
    · exact h

theorem preserved_reconcileEvent (shared : Bool) (paid : List Payment) (event : RoundEvent) :
    Preserved (reconcileEvent shared paid event) := by
  apply preserved_creditEvent
  cases shared
  · exact preserved_preserveExecutionStatus event
  · exact preserved_markDuplicateDestination _

/-! ### Two passes -/

theorem creditEvent_append (paid paidLater : List Payment) (event : RoundEvent) :
    creditEvent (paid ++ paidLater) event = creditEvent paidLater (creditEvent paid event) :=
  List.foldl_append

theorem get_status_of_status {event : RoundEvent} {text : String}
    (h : RoundEventRecord.status event = some text) : event.get "status" = some (.str text) := by
  simp only [RoundEventRecord.status, Option.bind_eq_some_iff] at h
  obtain ⟨value, hvalue, htext⟩ := h
  cases value <;> simp [Value.asStr] at htext
  rw [hvalue, htext]

/-- Marking again what is marked, after any matches, changes nothing. -/
theorem markDuplicateDestination_creditEvent {paid : List Payment} (hpaid : ∀ p ∈ paid, p.txid ≠ "")
    (event : RoundEvent) :
    markDuplicateDestination (creditEvent paid (markDuplicateDestination event)) =
      creditEvent paid (markDuplicateDestination event) := by
  have hkeep : Preserved (creditEvent paid (markDuplicateDestination event)) :=
    preserved_creditEvent (preserved_markDuplicateDestination event) paid
  have hstatus : status (creditEvent paid (markDuplicateDestination event)) =
      some EventStatus.duplicateDestination.text := by
    rw [status_creditEvent hpaid]
    simp
  rw [markDuplicateDestination, hkeep]
  exact Dict.set_same (get_status_of_status hstatus)

theorem reconcileEvent_append (shared : Bool) {paid : List Payment}
    (hpaid : ∀ p ∈ paid, p.txid ≠ "") (paidLater : List Payment) (event : RoundEvent) :
    reconcileEvent shared (paid ++ paidLater) event =
      reconcileEvent shared paidLater (reconcileEvent shared paid event) := by
  have hkeep : preserveExecutionStatus (reconcileEvent shared paid event) =
      reconcileEvent shared paid event := preserved_reconcileEvent shared paid event
  conv_rhs => rw [reconcileEvent, hkeep]
  conv_lhs => rw [reconcileEvent, creditEvent_append]
  cases shared with
  | false => rfl
  | true =>
    simp only [if_true]
    rw [reconcileEvent, if_pos rfl, markDuplicateDestination_creditEvent hpaid]

/-! ### Matches that are there already -/

/-- The event after a match: its matches are stored as they are read, and its status
follows them. -/
structure Touched (event : RoundEvent) : Prop where
  preserved : Preserved event
  stored : event.get "destination_matches" =
    some (.list ((destinationMatches event).map DestinationMatch.toValue))
  source : event.get "match_source" = some (.str matchSourceDestinationOutput)
  status : event.get "status" = some (.str EventStatus.duplicateDestination.text) ∨
    event.get "status" = some (.str (countedStatus (destinationMatches event).length).text)

theorem touched_addDestinationMatch {txid : String} (htxid : txid ≠ "") (blockHeight : Int)
    (event : RoundEvent) : Touched (addDestinationMatch txid blockHeight event) where
  preserved := preserved_addDestinationMatch txid blockHeight event
  stored := by
    rw [destinationMatches_addDestinationMatch htxid]
    unfold addDestinationMatch
    simp only [destinationMatches_preserveExecutionStatus]
    split
    · simp [setDestinationMatches]
    · split <;> simp [setDestinationMatches]
  source := by
    unfold addDestinationMatch
    dsimp only
    split
    · simp
    · split <;> simp
  status := by
    have hstatus := status_addDestinationMatch txid blockHeight event
    rw [← destinationMatches_addDestinationMatch htxid] at hstatus
    split at hstatus
    · exact .inl (get_status_of_status hstatus)
    · exact .inr (get_status_of_status hstatus)

/-- Adding a match that is there changes nothing. -/
theorem addDestinationMatch_of_mem {event : RoundEvent} (h : Touched event)
    {found : DestinationMatch} (hfound : found ∈ destinationMatches event) :
    addDestinationMatch found.txid found.blockHeight event = event := by
  have hmatches : setDestinationMatches event (destinationMatches event) = event :=
    Dict.set_same h.stored
  have hsource : event.set "match_source" (.str matchSourceDestinationOutput) = event :=
    Dict.set_same h.source
  unfold addDestinationMatch
  dsimp only
  rw [h.preserved, insertNew_of_mem hfound, hmatches, hsource]
  split
  · rfl
  · rename_i hunshared
    have hstatus : event.get "status" =
        some (.str (countedStatus (destinationMatches event).length).text) := by
      refine h.status.resolve_left fun hdup => hunshared ?_
      simp [RoundEventRecord.status, hdup, Value.asStr]
    unfold countedStatus at hstatus
    split <;> rename_i hcount
    · rw [if_pos hcount] at hstatus
      exact Dict.set_same hstatus
    · rw [if_neg hcount] at hstatus
      exact Dict.set_same hstatus

theorem touched_creditEvent {paid : List Payment} (hpaid : ∀ p ∈ paid, p.txid ≠ "")
    {event : RoundEvent}
    (h : Touched event ∨ ∃ p ∈ paid, destinationAddress event = some p.address) :
    Touched (creditEvent paid event) := by
  induction paid generalizing event with
  | nil => simpa [creditEvent] using h
  | cons p rest ih =>
    rw [creditEvent_cons]
    apply ih fun q hq => hpaid q (List.mem_cons_of_mem _ hq)
    by_cases hdest : destinationAddress event = some p.address
    · rw [if_pos hdest]
      exact .inl (touched_addDestinationMatch (hpaid p (by simp)) _ _)
    · rw [if_neg hdest]
      apply h.imp id
      rintro ⟨q, hq, hdestq⟩
      rcases List.mem_cons.mp hq with rfl | hq
      · exact absurd hdestq hdest
      · exact ⟨q, hq, hdestq⟩

theorem creditEvent_of_mem {event : RoundEvent} {paid : List Payment}
    (h : ∀ p ∈ paid, destinationAddress event = some p.address →
      Touched event ∧ ⟨p.txid, p.blockHeight⟩ ∈ destinationMatches event) :
    creditEvent paid event = event := by
  induction paid with
  | nil => rfl
  | cons p rest ih =>
    have hrest := ih fun q hq => h q (List.mem_cons_of_mem _ hq)
    rw [creditEvent_cons]
    by_cases hdest : destinationAddress event = some p.address
    · obtain ⟨htouched, hmem⟩ := h p (by simp) hdest
      rw [if_pos hdest, addDestinationMatch_of_mem htouched hmem]
      exact hrest
    · rw [if_neg hdest]
      exact hrest

/-- A second pass over payments of the first one changes nothing. -/
theorem reconcileEvent_of_subset (shared : Bool) {paid paid' : List Payment}
    (hpaid : ∀ p ∈ paid, p.txid ≠ "") (hsub : paid' ⊆ paid) (event : RoundEvent) :
    reconcileEvent shared paid' (reconcileEvent shared paid event) =
      reconcileEvent shared paid event := by
  rw [← reconcileEvent_append shared hpaid]
  conv_lhs => rw [reconcileEvent, creditEvent_append]
  show creditEvent paid' (reconcileEvent shared paid event) = _
  apply creditEvent_of_mem
  intro p hp hdest
  rw [destinationAddress_reconcileEvent] at hdest
  constructor
  · refine touched_creditEvent hpaid (.inr ⟨p, hsub hp, ?_⟩)
    cases shared <;> simpa using hdest
  · rw [destinationMatches_reconcileEvent shared hpaid, mem_foldl_insertNew]
    exact .inr (mem_matchesTo.mpr ⟨p.address, hdest, hsub hp⟩)

/-! ### The order of the labels -/

/-- The key that a label with an integer identifier is sorted by. -/
def keyed (label : RoundEvent) : (Int × String) × RoundEvent :=
  (((exportRoundId label).toOption.getD 0, taker label), label)

/-- The order of two labels in the export. -/
def labelLe (a b : RoundEvent) : Prop := exportKeyLe (keyed a) (keyed b)

instance : DecidableRel labelLe := fun _ _ => inferInstanceAs (Decidable (exportKeyLe _ _))

instance : Std.Total labelLe := ⟨fun a b => by
  unfold labelLe exportKeyLe
  rcases lt_trichotomy (keyed a).1.1 (keyed b).1.1 with h | h | h
  · exact .inl (.inl h)
  · rcases String.le_total (keyed a).1.2 (keyed b).1.2 with htaker | htaker
    · exact .inl (.inr ⟨h, htaker⟩)
    · exact .inr (.inr ⟨h.symm, htaker⟩)
  · exact .inr (.inl h)⟩

instance : IsTrans RoundEvent labelLe := ⟨fun a b c hab hbc => by
  unfold labelLe exportKeyLe at *
  rcases hab with hab | ⟨hab, htaker⟩ <;> rcases hbc with hbc | ⟨hbc, htaker'⟩
  · exact .inl (hab.trans hbc)
  · exact .inl (hab.trans_eq hbc)
  · exact .inl (hab.trans_lt hbc)
  · exact .inr ⟨hab.trans hbc, String.le_trans htaker htaker'⟩⟩

/-- The labels in the order of the export. -/
def sortLabels (labels : List RoundEvent) : List RoundEvent := labels.insertionSort labelLe

theorem sortLabels_idem (labels : List RoundEvent) :
    sortLabels (sortLabels labels) = sortLabels labels :=
  (List.pairwise_insertionSort labelLe labels).insertionSort_eq

/-- Labels whose keys stay can be sorted before or after they are changed. -/
theorem map_sortLabels {f : RoundEvent → RoundEvent}
    (hf : ∀ label, exportRoundId (f label) = exportRoundId label ∧ taker (f label) = taker label)
    (labels : List RoundEvent) : (sortLabels labels).map f = sortLabels (labels.map f) := by
  apply List.map_insertionSort
  intro a _ b _
  obtain ⟨hid, htaker⟩ := hf a
  obtain ⟨hid', htaker'⟩ := hf b
  simp only [labelLe, exportKeyLe, keyed, hid, htaker, hid', htaker']

theorem insertionSort_keyed (labels : List RoundEvent) :
    ((labels.map keyed).insertionSort exportKeyLe).map Prod.snd = sortLabels labels := by
  rw [sortLabels, ← List.map_insertionSort labelLe exportKeyLe keyed labels fun _ _ _ _ => .rfl,
    List.map_map]
  exact List.map_id _

/-! ### All events -/

/-- Every event has an integer identifier. -/
def Identified (events : List RoundEvent) : Prop :=
  ∀ event ∈ events, ∃ id, exportRoundId event = .ok id

/-- A block with an integer height whose transactions have txids. -/
structure WellFormed (block : ExportedBlock) : Prop where
  height : ∃ h, block.get "height" = some (.int h)
  txids : ∀ transaction ∈ transactions block, txid transaction ≠ none

theorem height_of_wellFormed {block : ExportedBlock} (h : WellFormed block) :
    ∃ blockHeight, ExportedBlockRecord.height block = some blockHeight := by
  obtain ⟨blockHeight, hheight⟩ := h.height
  exact ⟨blockHeight, by simp [ExportedBlockRecord.height, hheight, Value.asInt]⟩

/-- The payments of the blocks to any address. -/
def paidBy (blocks : List ExportedBlock) : List Payment := (walkBlocks (indexedBlocks blocks)).1

theorem walkBlocks_wellFormed {blocks : List ExportedBlock}
    (h : ∀ block ∈ blocks, WellFormed block) :
    (walkBlocks (indexedBlocks blocks)).2 = none := by
  apply walkBlocks_none
  intro item hitem
  obtain ⟨block, hblock, rfl⟩ := List.mem_map.mp hitem
  obtain ⟨blockHeight, hheight⟩ := height_of_wellFormed (h block hblock)
  exact ⟨blockHeight, block, by rw [hheight], (h block hblock).txids⟩

theorem walkBlocks_append {blocks more : List (Except PyError (Int × ExportedBlock))}
    (h : (walkBlocks blocks).2 = none) :
    (walkBlocks (blocks ++ more)).1 = (walkBlocks blocks).1 ++ (walkBlocks more).1 := by
  induction blocks with
  | nil => rfl
  | cons item rest ih =>
    cases item with
    | error error => simp [walkBlocks] at h
    | ok item =>
      obtain ⟨blockHeight, block⟩ := item
      rw [List.cons_append]
      rcases hwalk : walkTransactions blockHeight (transactions block) with ⟨paid, _ | error⟩
      · have hrest : (walkBlocks rest).2 = none := by simpa only [walkBlocks, hwalk] using h
        simp only [walkBlocks, hwalk, ih hrest, List.append_assoc]
      · simp [walkBlocks, hwalk] at h

theorem paidBy_append {blocks : List ExportedBlock} (h : ∀ block ∈ blocks, WellFormed block)
    (more : List ExportedBlock) : paidBy (blocks ++ more) = paidBy blocks ++ paidBy more := by
  rw [paidBy, indexedBlocks, List.map_append]
  exact walkBlocks_append (walkBlocks_wellFormed h)

theorem paidBy_subset {blocks seen : List ExportedBlock} (h : ∀ block ∈ blocks, WellFormed block)
    (hseen : seen ⊆ blocks) : paidBy seen ⊆ paidBy blocks := by
  intro payment hpayment
  obtain ⟨block, hitem, hpays⟩ := mem_walkBlocks hpayment
  have hitem' : .ok (payment.blockHeight, block) ∈ indexedBlocks blocks :=
    List.map_subset _ hseen hitem
  obtain ⟨blockHeight, block', hok, hpaid⟩ :=
    walkBlocks_complete (walkBlocks_wellFormed h) _ hitem'
  cases hok
  exact hpaid _ _ hpays

/-- The exported labels of identified events. -/
theorem matchRoundEventsToBlocks_identified {events : List RoundEvent} (hevents : Identified events)
    {blocks : List ExportedBlock} (hblocks : ∀ block ∈ blocks, WellFormed block) :
    matchRoundEventsToBlocks events blocks =
      .ok (sortLabels (events.map (exportLabel events blocks))) := by
  have hkeys : (events.map (exportLabel events blocks)).mapM exportKey =
      .ok ((events.map (exportLabel events blocks)).map keyed) := by
    apply mapM_eq_ok_map
    intro label hlabel
    obtain ⟨event, hevent, rfl⟩ := List.mem_map.mp hlabel
    obtain ⟨id, hid⟩ := hevents event hevent
    have hsame : exportRoundId (exportLabel events blocks event) = .ok id := by
      rw [← hid]
      simp only [exportRoundId, exportLabel, get_reconcileEvent (k := "export_round_id") (by decide)]
    simp [exportKey, keyed, hsame, Except.map, Except.toOption]
  rw [matchRoundEventsToBlocks, run_reconcile_all, walkBlocks_wellFormed hblocks]
  simp only [settle, hkeys, bind, Except.bind]
  rw [insertionSort_keyed]
  rfl

theorem sharesDestination_congr {events events' : List RoundEvent} {event event' : RoundEvent}
    (hevents : (events'.map destinationAddress).Perm (events.map destinationAddress))
    (hevent : destinationAddress event' = destinationAddress event) :
    sharesDestination events' event' = sharesDestination events event := by
  have hcount : ∀ a, events'.countP (fun other => destinationAddress other = some a) =
      events.countP (fun other => destinationAddress other = some a) := by
    intro a
    have hperm := hevents.countP_eq (fun destination => destination = some a)
    rwa [List.countP_map, List.countP_map] at hperm
  simp only [sharesDestination, hevent, hcount]

/-- A second pass over the labels reconciles each of them with the payments of its blocks. -/
theorem match_sortLabels {events : List RoundEvent} (hevents : Identified events)
    (blocks : List ExportedBlock) {more : List ExportedBlock}
    (hmore : ∀ block ∈ more, WellFormed block) :
    matchRoundEventsToBlocks (sortLabels (events.map (exportLabel events blocks))) more =
      .ok (sortLabels (events.map fun event =>
        reconcileEvent (sharesDestination events event) (paidBy more)
          (exportLabel events blocks event))) := by
  set labels := sortLabels (events.map (exportLabel events blocks)) with hlabels
  have hperm : labels.Perm (events.map (exportLabel events blocks)) := List.perm_insertionSort _ _
  have hidentified : Identified labels := by
    intro label hlabel
    obtain ⟨event, hevent, rfl⟩ := List.mem_map.mp (hperm.subset hlabel)
    obtain ⟨id, hid⟩ := hevents event hevent
    refine ⟨id, ?_⟩
    rw [← hid]
    simp only [exportRoundId, exportLabel, get_reconcileEvent (k := "export_round_id") (by decide)]
  have hdestinations : (labels.map destinationAddress).Perm (events.map destinationAddress) := by
    refine (hperm.map destinationAddress).trans (.of_eq ?_)
    rw [List.map_map]
    exact List.map_congr_left fun event _ => destinationAddress_reconcileEvent _ _ event
  set again : RoundEvent → RoundEvent := fun label =>
    reconcileEvent (sharesDestination events label) (paidBy more) label with hagain
  have hrelabel : ∀ label, exportLabel labels more label = again label := by
    intro label
    rw [exportLabel, sharesDestination_congr hdestinations rfl]
    rfl
  have hkeys : ∀ label, exportRoundId (again label) = exportRoundId label ∧
      taker (again label) = taker label := fun label =>
    ⟨by simp only [exportRoundId, hagain, get_reconcileEvent (k := "export_round_id") (by decide)],
      by simp only [taker, hagain, get_reconcileEvent (k := "taker") (by decide)]⟩
  have hshared : ∀ event, sharesDestination events (exportLabel events blocks event) =
      sharesDestination events event := fun event =>
    sharesDestination_congr (.refl _) (destinationAddress_reconcileEvent _ _ event)
  rw [matchRoundEventsToBlocks_identified hidentified hmore, List.map_congr_left fun label _ =>
    hrelabel label, hlabels, map_sortLabels hkeys, sortLabels_idem, List.map_map]
  simp only [Function.comp_def, hagain, hshared]

/-- Two passes over blocks are one pass over all of them, and a pass over blocks that were seen
changes nothing. -/
theorem matchRoundEventsToBlocks_incremental {events : List RoundEvent}
    (hevents : Identified events)
    {blocks more : List ExportedBlock} (hblocks : ∀ block ∈ blocks, WellFormed block)
    (hmore : ∀ block ∈ more, WellFormed block) :
    ∃ labels, matchRoundEventsToBlocks events blocks = .ok labels ∧
      matchRoundEventsToBlocks labels more = matchRoundEventsToBlocks events (blocks ++ more) ∧
      ∀ seen, seen ⊆ blocks → matchRoundEventsToBlocks labels seen = .ok labels := by
  have hpaid : ∀ p ∈ paidBy blocks, p.txid ≠ "" := fun _ => txid_ne_of_mem_walkBlocks
  refine ⟨_, matchRoundEventsToBlocks_identified hevents hblocks, ?_, ?_⟩
  · have hall : ∀ block ∈ blocks ++ more, WellFormed block := fun block hblock =>
      (List.mem_append.mp hblock).elim (hblocks block) (hmore block)
    rw [match_sortLabels hevents blocks hmore, matchRoundEventsToBlocks_identified hevents hall]
    simp only [exportLabel]
    change Except.ok (sortLabels (events.map fun event => reconcileEvent _ (paidBy more)
        (reconcileEvent _ (paidBy blocks) event))) =
      .ok (sortLabels (events.map fun event => reconcileEvent _ (paidBy (blocks ++ more)) event))
    simp only [paidBy_append hblocks, reconcileEvent_append _ hpaid]
  · intro seen hseen
    rw [match_sortLabels hevents blocks fun block hblock => hblocks block (hseen hblock)]
    congr 2
    refine List.map_congr_left fun event _ => ?_
    exact reconcileEvent_of_subset _ hpaid (paidBy_subset hblocks hseen) event

theorem wellFormed_minedBlock (h : Int) {paid : List (String × String)}
    (hpaid : ∀ p ∈ paid, p.1 ≠ "") : WellFormed (minedBlock h paid) :=
  ⟨⟨h, rfl⟩, (wellFormedBlock_minedBlock h hpaid).txids⟩

/-- A failed event with a malformed match, and two events that share a destination. -/
def storedEvents : List RoundEvent := [
  Dict.ofList [("export_round_id", .int 2), ("status", .str "failed"),
    ("destination_address", .str "a"), ("destination_matches", .list [.int 7])],
  Dict.ofList [("export_round_id", .int 3), ("status", .str "started"),
    ("destination_address", .str "b")],
  Dict.ofList [("export_round_id", .int 1), ("destination_address", .str "b")]]

theorem matchRoundEventsToBlocks_incremental_storedEvents :
    ∃ labels, matchRoundEventsToBlocks storedEvents [minedBlock 1 [("txA", "a"), ("txB", "b")]] =
        .ok labels ∧
      matchRoundEventsToBlocks labels [minedBlock 2 [("txC", "a")]] =
        matchRoundEventsToBlocks storedEvents
          [minedBlock 1 [("txA", "a"), ("txB", "b")], minedBlock 2 [("txC", "a")]] ∧
      labels.map status = [some "duplicate_destination", some "confirmed",
        some "duplicate_destination"] := by
  obtain ⟨labels, hlabels, hmore, -⟩ := @matchRoundEventsToBlocks_incremental
    storedEvents (by simp [Identified, storedEvents, exportRoundId, Dict.ofList])
    [minedBlock 1 [("txA", "a"), ("txB", "b")]] [minedBlock 2 [("txC", "a")]]
    (by simpa using wellFormed_minedBlock 1 (by simp))
    (by simpa using wellFormed_minedBlock 2 (by simp))
  refine ⟨labels, hlabels, hmore, ?_⟩
  have hstatus : (matchRoundEventsToBlocks storedEvents
      [minedBlock 1 [("txA", "a"), ("txB", "b")]]).map (List.map status) =
      .ok [some "duplicate_destination", some "confirmed", some "duplicate_destination"] := by
    rfl
  rw [hlabels] at hstatus
  exact Except.ok.inj hstatus

end CoinjoinEmulator
