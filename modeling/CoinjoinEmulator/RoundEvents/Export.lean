import CoinjoinEmulator.RoundEvents.Reconcile
import Mathlib.Data.List.Sort

/-! The export of the round events: their collection under global identifiers, and their
reconciliation with all the exported blocks. -/

namespace CoinjoinEmulator

open ProofKit RoundEventRecord ExportedBlockRecord

/-- Copy producer records once and assign stable global export identifiers. -/
def collectRoundEvents (eventGroups : List (List RoundEvent)) : List RoundEvent :=
  (eventGroups.flatten.zipIdx 1).map fun (event, exportRoundId) =>
    copyWithExportRoundId event exportRoundId

/-- The blocks with the heights that they state. -/
def indexedBlocks (blocks : List ExportedBlock) : List (Except PyError (Int × ExportedBlock)) :=
  blocks.map fun rawBlock =>
    match height rawBlock with
    | some blockHeight => .ok (blockHeight, rawBlock)
    | none => .error (.valueError "exported block height must be an integer")

/-- Python's order of the tuples `(export_round_id, taker)`. -/
def exportKeyLe (a b : (Int × String) × RoundEvent) : Prop :=
  a.1.1 < b.1.1 ∨ a.1.1 = b.1.1 ∧ a.1.2 ≤ b.1.2

instance : DecidableRel exportKeyLe := fun a b =>
  inferInstanceAs (Decidable (a.1.1 < b.1.1 ∨ a.1.1 = b.1.1 ∧ a.1.2 ≤ b.1.2))

def exportKey (label : RoundEvent) : Except PyError ((Int × String) × RoundEvent) :=
  (exportRoundId label).map fun id => ((id, taker label), label)

/-- Reconcile all export records, including timed-out and previously confirmed rounds. -/
def matchRoundEventsToBlocks (events : List RoundEvent) (blocks : List ExportedBlock) :
    Except PyError (List RoundEvent) :=
  match (reconcileRoundEventDestinations (List.range events.length) (indexedBlocks blocks)).run
      events with
  | .error error _ => .error error
  | .ok () labels => do
    let keyed ← labels.mapM exportKey
    return (keyed.insertionSort exportKeyLe).map Prod.snd

/-! ### The label of each event -/

/-- The label of an event among all the `events`: reconciled with the payments of the blocks. -/
def exportLabel (events : List RoundEvent) (blocks : List ExportedBlock) (event : RoundEvent) :
    RoundEvent :=
  reconcileEvent (sharesDestination events event) (walkBlocks (indexedBlocks blocks)).1 event

theorem mem_indexedBlocks {blocks : List ExportedBlock} {block : ExportedBlock} {blockHeight : Int}
    (h : block ∈ blocks) (hheight : height block = some blockHeight) :
    .ok (blockHeight, block) ∈ indexedBlocks blocks := by
  refine List.mem_map.mpr ⟨block, h, ?_⟩
  rw [hheight]

theorem range_eq_refsWhere (records : List RoundEvent) :
    List.range records.length = refsWhere (fun _ => true) records := by
  rw [refsWhere, List.filter_eq_self.mpr]
  intro ref href
  rw [List.getElem?_eq_getElem (List.mem_range.mp href)]
  rfl

theorem run_reconcile_all (events : List RoundEvent) (blocks : List ExportedBlock) :
    (reconcileRoundEventDestinations (List.range events.length) (indexedBlocks blocks)).run events =
      settle (walkBlocks (indexedBlocks blocks)).2 (events.map (exportLabel events blocks)) := by
  rw [range_eq_refsWhere, run_reconcileRoundEventDestinations]
  simp only [if_true, List.filter_true]
  rfl

theorem get_collected {eventGroups : List (List RoundEvent)} {i : Nat} {event : RoundEvent}
    (h : (collectRoundEvents eventGroups)[i]? = some event) :
    ∃ live, eventGroups.flatten[i]? = some live ∧
      event = copyWithExportRoundId live ((i : Int) + 1) := by
  rw [collectRoundEvents, List.getElem?_map, List.getElem?_zipIdx, Option.map_map] at h
  obtain ⟨live, hlive, rfl⟩ := Option.map_eq_some_iff.mp h
  refine ⟨live, hlive, ?_⟩
  simp only [Function.comp_apply]
  congr 1
  omega

theorem length_collectRoundEvents (eventGroups : List (List RoundEvent)) :
    (collectRoundEvents eventGroups).length = eventGroups.flatten.length := by
  simp [collectRoundEvents]

theorem exportRoundId_exportLabel {eventGroups : List (List RoundEvent)} {i : Nat}
    {event : RoundEvent} (h : (collectRoundEvents eventGroups)[i]? = some event)
    (events : List RoundEvent) (blocks : List ExportedBlock) :
    exportRoundId (exportLabel events blocks event) = .ok ((i : Int) + 1) := by
  obtain ⟨live, -, rfl⟩ := get_collected h
  rw [exportRoundId, exportLabel, get_reconcileEvent (by decide)]
  simp [copyWithExportRoundId]

/-- Collected events are reconciled into labels in their own order: the global identifiers increase,
so the final sort changes nothing. -/
theorem matchRoundEventsToBlocks_collected (eventGroups : List (List RoundEvent))
    {blocks : List ExportedBlock} (hwalk : (walkBlocks (indexedBlocks blocks)).2 = none) :
    matchRoundEventsToBlocks (collectRoundEvents eventGroups) blocks =
      .ok ((collectRoundEvents eventGroups).map
        (exportLabel (collectRoundEvents eventGroups) blocks)) := by
  set events := collectRoundEvents eventGroups with hevents
  set labels := events.map (exportLabel events blocks) with hlabels
  have hid : ∀ (i : Nat) label, labels[i]? = some label →
      exportRoundId label = .ok ((i : Int) + 1) := by
    intro i label hlabel
    rw [hlabels, List.getElem?_map] at hlabel
    obtain ⟨event, hevent, rfl⟩ := Option.map_eq_some_iff.mp hlabel
    exact exportRoundId_exportLabel hevent events blocks
  set keyed := labels.map fun label =>
    (((exportRoundId label).toOption.getD 0, taker label), label) with hkeyed
  have hkeys : labels.mapM exportKey = .ok keyed := by
    apply mapM_eq_ok_map
    intro label hlabel
    obtain ⟨i, hi⟩ := List.mem_iff_getElem?.mp hlabel
    simp [exportKey, hid i label hi, Except.map, Except.toOption]
  have hsorted : keyed.Pairwise exportKeyLe := by
    rw [hkeyed, List.pairwise_map, List.pairwise_iff_getElem]
    intro i j hi hj hij
    left
    have hidi := hid i _ (List.getElem?_eq_getElem hi)
    have hidj := hid j _ (List.getElem?_eq_getElem hj)
    simp only [hidi, hidj, Except.toOption, Option.getD_some]
    omega
  rw [matchRoundEventsToBlocks, run_reconcile_all, hwalk]
  simp only [settle, ← hlabels, hkeys]
  rw [show (Except.ok keyed >>= fun keyed =>
      (return (keyed.insertionSort exportKeyLe).map Prod.snd : Except PyError (List RoundEvent))) =
      .ok ((keyed.insertionSort exportKeyLe).map Prod.snd) from rfl,
    hsorted.insertionSort_eq, hkeyed, List.map_map]
  simp [Function.comp_def]

end CoinjoinEmulator
