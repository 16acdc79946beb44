import CoinjoinEmulator.Errors
import CoinjoinEmulator.ProofKit.Collect
import CoinjoinEmulator.ProofKit.Json

/-! `RoundEventRecord`: the working view of one round-event dictionary.  Its methods that change the
dictionary in place are functions from the dictionary to its new contents. -/

namespace CoinjoinEmulator

open ProofKit

abbrev RoundEvent := Dict Value

/-- The statuses that the emulator writes. -/
inductive EventStatus where
  | started
  | failed
  | confirmed
  | multipleMatches
  | duplicateDestination
deriving DecidableEq, Repr

/-- The string that the dictionary stores for a status. -/
@[simp] def EventStatus.text : EventStatus → String
  | .started => "started"
  | .failed => "failed"
  | .confirmed => "confirmed"
  | .multipleMatches => "multiple_matches"
  | .duplicateDestination => "duplicate_destination"

/-- What the emulator itself knows about an attempt. -/
inductive ExecutionStatus where
  | requested
  | started
  | unknown
  | failed
deriving DecidableEq, Repr

@[simp] def ExecutionStatus.text : ExecutionStatus → String
  | .requested => "requested"
  | .started => "started"
  | .unknown => "unknown"
  | .failed => "failed"

def matchSourceDestinationOutput : String := "destination_output"

/-- One validated destination-output match in an exported round event. -/
structure DestinationMatch where
  txid : String
  blockHeight : Int
deriving DecidableEq, Repr

/-- The dictionary that a match is stored as. -/
def DestinationMatch.toValue (found : DestinationMatch) : Value :=
  .dict ((Dict.empty.set "txid" (.str found.txid)).set "block_height" (.int found.blockHeight))

/-- A stored match, if it satisfies the exported event contract. -/
def DestinationMatch.ofValue (rawMatch : Value) : Option DestinationMatch := do
  let fields ← rawMatch.asDict
  let txid ← (fields.get "txid").bind Value.asStr
  if txid = "" then none
  else
    let blockHeight ← (fields.get "block_height").bind Value.asStrictInt
    some ⟨txid, blockHeight⟩

namespace RoundEventRecord

/-- The destination address when the producer supplied one. -/
def destinationAddress (data : RoundEvent) : Option String :=
  match data.get "destination_address" with
  | some (.str address) => if address = "" then none else some address
  | _ => none

def status (data : RoundEvent) : Option String := (data.get "status").bind Value.asStr

/-- The mandatory global identifier assigned during event export. -/
def exportRoundId (data : RoundEvent) : Except PyError Int :=
  match data.get "export_round_id" with
  | none => .error (.keyError "export_round_id")
  | some (.int value) => .ok value
  | some _ => .error (.valueError "export_round_id must be an integer")

/-- The producer's taker name for deterministic ordering. -/
def taker (data : RoundEvent) : String :=
  ((data.get "taker").bind Value.asStr).getD ""

def copyWithExportRoundId (data : RoundEvent) (exportRoundId : Int) : RoundEvent :=
  data.set "export_round_id" (.int exportRoundId)

/-- Retain known local execution evidence before reconciliation changes status. -/
def preserveExecutionStatus (data : RoundEvent) : RoundEvent :=
  match status data with
  | some text =>
    if text = EventStatus.started.text ∨ text = EventStatus.failed.text then
      data.setDefault "execution_status" (.str text)
    else data
  | none => data

/-- Record a shared destination; this status takes precedence over match counts. -/
def markDuplicateDestination (data : RoundEvent) : RoundEvent :=
  (preserveExecutionStatus data).set "status" (.str EventStatus.duplicateDestination.text)

/-- The matches that `_destination_matches` returns: the stored ones that satisfy the exported event
contract. -/
def destinationMatches (data : RoundEvent) : List DestinationMatch :=
  match data.get "destination_matches" with
  | some (.list rawMatches) => rawMatches.filterMap DestinationMatch.ofValue
  | _ => []

/-- `self._data["destination_matches"] = matches`. -/
def setDestinationMatches (data : RoundEvent) (found : List DestinationMatch) : RoundEvent :=
  data.set "destination_matches" (.list (found.map DestinationMatch.toValue))

/-- Record one exported transaction and update the reconciliation status. -/
def addDestinationMatch (txid : String) (blockHeight : Int) (data : RoundEvent) : RoundEvent :=
  let data := preserveExecutionStatus data
  let found := insertNew (destinationMatches data) ⟨txid, blockHeight⟩
  let data := setDestinationMatches data found
  let data := data.set "match_source" (.str matchSourceDestinationOutput)
  if status data = some EventStatus.duplicateDestination.text then data
  else if found.length = 1 then data.set "status" (.str EventStatus.confirmed.text)
  else data.set "status" (.str EventStatus.multipleMatches.text)

/-- The sole reconciled transaction id, if this record is unambiguous. -/
def confirmedDestinationTxid (data : RoundEvent) : Option String :=
  match status data, destinationMatches data with
  | some text, [found] => if text = EventStatus.confirmed.text then some found.txid else none
  | _, _ => none

/-! ### What the methods leave and what they write -/

theorem get_preserveExecutionStatus {data : RoundEvent} {k : String} (hk : k ≠ "execution_status") :
    (preserveExecutionStatus data).get k = data.get k := by
  unfold preserveExecutionStatus
  split
  · split
    · exact Dict.get_setDefault_ne data _ hk
    · rfl
  · rfl

theorem get_markDuplicateDestination {data : RoundEvent} {k : String} (hk : k ≠ "execution_status")
    (hs : k ≠ "status") : (markDuplicateDestination data).get k = data.get k := by
  simp [markDuplicateDestination, hs, get_preserveExecutionStatus hk]

/-- The keys that reconciliation writes. -/
def reconciledKeys : List String :=
  ["execution_status", "status", "destination_matches", "match_source"]

theorem get_addDestinationMatch {data : RoundEvent} {txid : String} {blockHeight : Int} {k : String}
    (hk : k ∉ reconciledKeys) : (addDestinationMatch txid blockHeight data).get k = data.get k := by
  simp only [reconciledKeys, List.mem_cons, List.not_mem_nil, or_false, not_or] at hk
  obtain ⟨hexec, hstatus, hmatches, hsource⟩ := hk
  unfold addDestinationMatch setDestinationMatches
  dsimp only
  split
  · simp [hmatches, hsource, get_preserveExecutionStatus hexec]
  · split <;> simp [hstatus, hmatches, hsource, get_preserveExecutionStatus hexec]

theorem destinationAddress_congr {data data' : RoundEvent}
    (h : data'.get "destination_address" = data.get "destination_address") :
    destinationAddress data' = destinationAddress data := by
  simp only [destinationAddress, h]

theorem destinationAddress_ne_none {data : RoundEvent} : destinationAddress data ≠ none ↔
    ∃ address, data.get "destination_address" = some (.str address) ∧ address ≠ "" := by
  unfold destinationAddress
  split
  · rename_i address haddress
    by_cases hempty : address = "" <;> simp [haddress, hempty]
  · rename_i hother
    simp only [ne_eq, not_true_eq_false, false_iff]
    rintro ⟨address, haddress, -⟩
    exact hother address haddress

theorem status_congr {data data' : RoundEvent} (h : data'.get "status" = data.get "status") :
    status data' = status data := by
  simp only [status, h]

theorem destinationMatches_congr {data data' : RoundEvent}
    (h : data'.get "destination_matches" = data.get "destination_matches") :
    destinationMatches data' = destinationMatches data := by
  simp only [destinationMatches, h]

@[simp] theorem destinationAddress_preserveExecutionStatus (data : RoundEvent) :
    destinationAddress (preserveExecutionStatus data) = destinationAddress data :=
  destinationAddress_congr (get_preserveExecutionStatus (by decide))

@[simp] theorem destinationAddress_markDuplicateDestination (data : RoundEvent) :
    destinationAddress (markDuplicateDestination data) = destinationAddress data :=
  destinationAddress_congr (get_markDuplicateDestination (by decide) (by decide))

@[simp] theorem destinationAddress_addDestinationMatch (txid : String) (blockHeight : Int)
    (data : RoundEvent) :
    destinationAddress (addDestinationMatch txid blockHeight data) = destinationAddress data :=
  destinationAddress_congr (get_addDestinationMatch (by decide))

@[simp] theorem status_preserveExecutionStatus (data : RoundEvent) :
    status (preserveExecutionStatus data) = status data :=
  status_congr (get_preserveExecutionStatus (by decide))

@[simp] theorem status_markDuplicateDestination (data : RoundEvent) :
    status (markDuplicateDestination data) = some EventStatus.duplicateDestination.text := by
  simp [status, markDuplicateDestination, Value.asStr]

@[simp] theorem destinationMatches_preserveExecutionStatus (data : RoundEvent) :
    destinationMatches (preserveExecutionStatus data) = destinationMatches data :=
  destinationMatches_congr (get_preserveExecutionStatus (by decide))

@[simp] theorem destinationMatches_markDuplicateDestination (data : RoundEvent) :
    destinationMatches (markDuplicateDestination data) = destinationMatches data :=
  destinationMatches_congr (get_markDuplicateDestination (by decide) (by decide))

end RoundEventRecord

theorem DestinationMatch.txid_ne_of_ofValue {rawMatch : Value} {found : DestinationMatch}
    (h : DestinationMatch.ofValue rawMatch = some found) : found.txid ≠ "" := by
  simp only [ofValue, Option.bind_eq_bind, Option.bind_eq_some_iff] at h
  obtain ⟨fields, -, txid, -, h⟩ := h
  split at h
  · cases h
  · rename_i hne
    obtain ⟨blockHeight, -, h⟩ := Option.bind_eq_some_iff.mp h
    cases h
    exact hne

/-- A match with a txid is read back as it was stored. -/
theorem DestinationMatch.ofValue_toValue {found : DestinationMatch} (h : found.txid ≠ "") :
    DestinationMatch.ofValue found.toValue = some found := by
  simp [ofValue, toValue, Value.asDict, Value.asStr, Value.asStrictInt, h]

theorem DestinationMatch.filterMap_ofValue {found : List DestinationMatch}
    (h : ∀ one ∈ found, one.txid ≠ "") :
    (found.map DestinationMatch.toValue).filterMap DestinationMatch.ofValue = found := by
  induction found with
  | nil => rfl
  | cons one rest ih =>
    rw [List.map_cons, List.filterMap_cons_some (ofValue_toValue (h one (by simp))),
      ih fun x hx => h x (List.mem_cons_of_mem _ hx)]

namespace RoundEventRecord

theorem txid_ne_of_mem_destinationMatches {data : RoundEvent} {found : DestinationMatch}
    (h : found ∈ destinationMatches data) : found.txid ≠ "" := by
  unfold destinationMatches at h
  split at h
  · obtain ⟨rawMatch, -, hfound⟩ := List.mem_filterMap.mp h
    exact DestinationMatch.txid_ne_of_ofValue hfound
  · simp at h

theorem destinationMatches_setDestinationMatches {data : RoundEvent} {found : List DestinationMatch}
    (h : ∀ one ∈ found, one.txid ≠ "") :
    destinationMatches (setDestinationMatches data found) = found := by
  simp [destinationMatches, setDestinationMatches, DestinationMatch.filterMap_ofValue h]

/-- A match is added once. -/
theorem destinationMatches_addDestinationMatch {txid : String} (htxid : txid ≠ "")
    (blockHeight : Int) (data : RoundEvent) :
    destinationMatches (addDestinationMatch txid blockHeight data) =
      insertNew (destinationMatches data) ⟨txid, blockHeight⟩ := by
  have hne : ∀ one ∈ insertNew (destinationMatches data) ⟨txid, blockHeight⟩, one.txid ≠ "" := by
    intro one hone
    rcases mem_insertNew.mp hone with hold | rfl
    · exact txid_ne_of_mem_destinationMatches hold
    · exact htxid
  have hset := @destinationMatches_setDestinationMatches (preserveExecutionStatus data) _ hne
  unfold addDestinationMatch
  simp only [destinationMatches_preserveExecutionStatus]
  split
  · exact (destinationMatches_congr (by simp)).trans hset
  · split <;> exact (destinationMatches_congr (by simp)).trans hset

/-- The status that a count of matches leads to. -/
def countedStatus (count : Nat) : EventStatus :=
  if count = 1 then .confirmed else .multipleMatches

theorem countedStatus_ne_duplicate (count : Nat) :
    (countedStatus count).text ≠ EventStatus.duplicateDestination.text := by
  unfold countedStatus
  split <;> decide

/-- The status after a match: a shared destination stays one, and otherwise the count decides. -/
theorem status_addDestinationMatch (txid : String) (blockHeight : Int) (data : RoundEvent) :
    status (addDestinationMatch txid blockHeight data) =
      if status data = some EventStatus.duplicateDestination.text then
        some EventStatus.duplicateDestination.text
      else
        some (countedStatus (insertNew (destinationMatches data)
          ⟨txid, blockHeight⟩).length).text := by
  have hstatus : ∀ found,
      status ((setDestinationMatches (preserveExecutionStatus data) found).set "match_source"
        (.str matchSourceDestinationOutput)) = status data := by
    intro found
    rw [← status_preserveExecutionStatus data]
    exact status_congr (by simp [setDestinationMatches])
  unfold addDestinationMatch countedStatus
  simp only [hstatus, destinationMatches_preserveExecutionStatus]
  split
  · rename_i hdup
    rw [hstatus, hdup]
  · split <;> simp [status, Value.asStr]

end RoundEventRecord

end CoinjoinEmulator
