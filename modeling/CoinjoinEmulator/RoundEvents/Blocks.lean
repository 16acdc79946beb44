import CoinjoinEmulator.RoundEvents.Record
import Mathlib.Data.Set.Basic

/-! The views of exported blocks, transactions and outputs that reconciliation reads, and the
payments that a chain holds. -/

namespace CoinjoinEmulator

open ProofKit

abbrev ExportedBlock := Dict Value

abbrev ExportedTransaction := Dict Value

abbrev TransactionOutput := Dict Value

/-- `data if isinstance(data, dict) else {}`. -/
def safeView (data : Option Value) : Dict Value :=
  (data.bind Value.asDict).getD Dict.empty

/-- `value if isinstance(value, str) and value else None`. -/
def nonEmptyStr (value : Option Value) : Option String :=
  match value with
  | some (.str s) => if s = "" then none else some s
  | _ => none

theorem nonEmptyStr_ne {value : Option Value} {s : String} (h : nonEmptyStr value = some s) :
    s ≠ "" := by
  unfold nonEmptyStr at h
  split at h
  · split at h
    · cases h
    · rename_i hne
      cases h
      exact hne
  · cases h

/-- The items of a field, none of them when it is not a list. -/
def listField (data : Dict Value) (key : String) : List Value :=
  ((data.get key).bind Value.asList).getD []

def ExportedBlockRecord.height (data : ExportedBlock) : Option Int :=
  (data.get "height").bind Value.asInt

def ExportedBlockRecord.transactions (data : ExportedBlock) : List ExportedTransaction :=
  (listField data "tx").map fun transaction => safeView (some transaction)

def ExportedTransactionRecord.txid (data : ExportedTransaction) : Option String :=
  nonEmptyStr (data.get "txid")

def ExportedTransactionRecord.outputs (data : ExportedTransaction) : List TransactionOutput :=
  (listField data "vout").map fun output => safeView (some output)

/-- The address exported by Bitcoin Core in the output's `scriptPubKey`, when present. -/
def TransactionOutputRecord.address (data : TransactionOutput) : Option String :=
  nonEmptyStr ((safeView (data.get "scriptPubKey")).get "address")

open ExportedBlockRecord ExportedTransactionRecord TransactionOutputRecord

/-- Some output of `block` in a transaction `txid` pays `address`. -/
def PaysIn (block : ExportedBlock) (txid' : String) (address' : String) : Prop :=
  ∃ transaction ∈ transactions block, txid transaction = some txid' ∧
    ∃ output ∈ outputs transaction, address output = some address'

/-- The block pays `address` in some transaction. -/
def Pays (block : ExportedBlock) (address' : String) : Prop := ∃ txid', PaysIn block txid' address'

/-- A block at height `h` of a chain says so, and each of its transactions has a txid. -/
structure WellFormedBlock (h : Int) (block : ExportedBlock) : Prop where
  height : block.get "height" = some (.int h)
  txids : ∀ transaction ∈ transactions block, txid transaction ≠ none

theorem WellFormedBlock.height_eq {h : Int} {block : ExportedBlock}
    (hblock : WellFormedBlock h block) : ExportedBlockRecord.height block = some h := by
  rw [ExportedBlockRecord.height, hblock.height]
  rfl

/-- A chain from height 0 on whose blocks are well formed. -/
def WellFormedChain (chain : List ExportedBlock) : Prop :=
  ∀ (h : Nat) block, chain[h]? = some block → WellFormedBlock (h : Int) block

/-- The pairs of a txid and a height for which the blocks pay `address`. -/
def payments (blocks : List ExportedBlock) (address' : String) : Set DestinationMatch :=
  { found | ∃ block ∈ blocks, height block = some found.blockHeight ∧
    PaysIn block found.txid address' }

theorem payments_mono {blocks blocks' : List ExportedBlock} (h : blocks ⊆ blocks')
    (address' : String) : payments blocks address' ⊆ payments blocks' address' := by
  rintro found ⟨block, hmem, hpays⟩
  exact ⟨block, h hmem, hpays⟩

/-- The payments of the chain to the destination of an event, if it has one. -/
def paymentsOf (chain : List ExportedBlock) (event : RoundEvent) : Set DestinationMatch :=
  { found | ∃ a, RoundEventRecord.destinationAddress event = some a ∧ found ∈ payments chain a }

theorem paymentsOf_congr {chain : List ExportedBlock} {event event' : RoundEvent}
    (h : RoundEventRecord.destinationAddress event' = RoundEventRecord.destinationAddress event) :
    paymentsOf chain event' = paymentsOf chain event := by
  simp only [paymentsOf, h]

theorem paymentsOf_mono {chain chain' : List ExportedBlock} (h : chain ⊆ chain')
    (event : RoundEvent) : paymentsOf chain event ⊆ paymentsOf chain' event := by
  rintro found ⟨a, ha, hfound⟩
  exact ⟨a, ha, payments_mono h a hfound⟩

theorem WellFormedChain.of_prefix {chain chain' : List ExportedBlock} (h : chain <+: chain')
    (hchain : WellFormedChain chain') : WellFormedChain chain := by
  intro i block hi
  obtain ⟨later, rfl⟩ := h
  apply hchain i block
  rw [List.getElem?_append_left (List.getElem?_eq_some_iff.mp hi).1, hi]

/-- A block whose transactions pay one address each. -/
def minedBlock (blockHeight : Int) (paid : List (String × String)) : ExportedBlock :=
  Dict.ofList [("height", .int blockHeight), ("tx", .list (paid.map fun (txid, address) =>
    .dict (Dict.ofList [("txid", .str txid), ("vout", .list [
      .dict (Dict.ofList [("scriptPubKey", .dict (Dict.ofList [("address", .str address)]))])])])))]

theorem wellFormedBlock_minedBlock (h : Int) {paid : List (String × String)}
    (hpaid : ∀ p ∈ paid, p.1 ≠ "") : WellFormedBlock h (minedBlock h paid) := by
  refine ⟨rfl, ?_⟩
  intro transaction htransaction
  obtain ⟨value, hvalue, rfl⟩ := List.mem_map.mp htransaction
  obtain ⟨⟨t, a⟩, hmem, rfl⟩ := List.mem_map.mp
    (show value ∈ paid.map fun (p : String × String) => Value.dict _ from hvalue)
  have htxid : t ≠ "" := hpaid _ hmem
  have hget : nonEmptyStr (some (.str t)) = some t := by simp [nonEmptyStr, htxid]
  exact fun hnone => by
    rw [show txid _ = nonEmptyStr (some (.str t)) from rfl, hget] at hnone
    cases hnone

end CoinjoinEmulator
