import CoinjoinEmulator.Errors
import CoinjoinEmulator.ProofKit.Document

/-! Scenario files: what the parser accepts and what it reads from them, and the document that
stores a parsed scenario. -/

namespace CoinjoinEmulator.Scenario

open ProofKit

inductive JoinMarketRole where
  | maker
  | taker
deriving DecidableEq, Repr

def JoinMarketRole.value : JoinMarketRole → String
  | .maker => "maker"
  | .taker => "taker"

/-- The engine whose settings a postmix spend is part of. -/
inductive Engine where
  | wasabi
  | joinMarket
deriving DecidableEq, Repr

def Engine.name : Engine → String
  | .wasabi => "Wasabi"
  | .joinMarket => "JoinMarket"

/-- `COIN_SELECTIONS` and `JOINMARKET_COIN_SELECTIONS`.  The first one is the default. -/
def Engine.coinSelections : Engine → List String
  | .wasabi => ["anon_score", "amount"]
  | .joinMarket => ["amount"]

/-- A fund that is specified as an object. -/
structure FundConfig (V : Type) where
  value : V
  delayBlocks : Option V := none
  delayRounds : Option V := none

/-- An entry of the funds of a wallet: a number, an object, or anything else. -/
inductive Fund (V : Type) where
  | amount (value : V)
  | config (fund : FundConfig V)
  | other (entry : Json)

/-- A fund that the parser can read back: a number is an integer, nothing else is one or is an
object, and a delay that is `None` is missing. -/
def Fund.WellFormed : Fund Json → Prop
  | .amount value => value.isInt = true
  | .config fund => fund.delayBlocks ≠ some .none ∧ fund.delayRounds ≠ some .none
  | .other entry => entry.isInt = false ∧ entry.isDict = false

/-- A positive number, as the file has it. -/
inductive Score where
  | int (i : Int) (positive : 0 < i)
  | float (x : WithBot (WithTop Rat)) (positive : 0 < x)

def Score.toJson : Score → Json
  | .int i _ => .int i
  | .float x _ => .float x

/-- One spend of mixed coins to an address outside the mix. -/
structure PostmixSpendConfig (engine : Engine) where
  value : Option { satoshis : Int // 0 < satoshis }
  all : Bool
  delayBlocks : Option { delay : Int // 0 ≤ delay }
  delayRounds : Option { delay : Int // 0 ≤ delay }
  minAnonScore : Option Score
  coinSelection : { selection : String // selection ∈ engine.coinSelections }
  exactlyOne : value.isSome ≠ all
  noScore : engine = .joinMarket → minAnonScore = none

/-- Wasabi-specific wallet settings.  There is one of them at least. -/
structure WasabiConfig where
  anonScoreTarget : Json
  redcoinIsolation : Json
  skipRounds : Json
  postmixSpends : Option (List (PostmixSpendConfig .wasabi))
  nonempty : (anonScoreTarget.isNone && redcoinIsolation.isNone && skipRounds.isNone &&
    postmixSpends.isNone) = false

/-- JoinMarket-specific wallet settings.  There is one of them at least. -/
structure JoinMarketConfig where
  role : Option JoinMarketRole
  offers : Json
  tumblerOptions : Json
  timeBetweenRounds : Json
  coinjoinTimeoutBlocks : Option { blocks : Int // 0 < blocks }
  fidelityBond : Json
  maxCoinjoins : Json
  postmixSpends : Option (List (PostmixSpendConfig .joinMarket))
  nonempty : (role.isNone && offers.isNone && tumblerOptions.isNone && timeBetweenRounds.isNone &&
    coinjoinTimeoutBlocks.isNone && fidelityBond.isNone && maxCoinjoins.isNone &&
    postmixSpends.isNone) = false

structure WalletConfig where
  funds : List { fund : Fund Json // fund.WellFormed }
  delayBlocks : Json
  delayRounds : Json
  stopBlocks : Json
  stopRounds : Json
  version : Json
  wasabi : Option WasabiConfig
  joinmarket : Option JoinMarketConfig

structure ScenarioConfig where
  name : Json
  rounds : Json
  blocks : Json
  defaultVersion : Json
  wallets : List WalletConfig
  description : Option String
  category : Option { category : String // strip category ≠ "" }
  distributorVersion : Json
  defaultAnonScoreTarget : Json
  defaultRedcoinIsolation : Json
  backend : Json

/-! ### Parsing -/

/-- The members of a value whose `get` is called. -/
def asDict : Json → Except PyError Members
  | .dict members => .ok members
  | value => .error (.attributeError ("'" ++ value.typeName ++ "' object has no attribute 'get'"))

/-- `value or {}`, whose `get` is called. -/
def dictOrEmpty (value : Json) : Except PyError Members :=
  if value.truthy then asDict value else .ok []

def iterate (value : Json) : Except PyError (List Json) :=
  match value.iterated with
  | some items => .ok items
  | none => .error (.typeError ("'" ++ value.typeName ++ "' object is not iterable"))

/-- `members[key]`. -/
def require (members : Members) (key : String) : Except PyError Json :=
  match members.lookup key with
  | some value => .ok value
  | none => .error (.keyError key)

/-- A value that is `None` is missing. -/
def optional : Json → Option Json
  | .none => none
  | value => some value

theorem optional_ne (value : Json) : optional value ≠ some .none := by
  cases value <;> simp [optional]

def parseFund (fund : Json) : Except PyError { fund : Fund Json // fund.WellFormed } :=
  if hint : fund.isInt = true then .ok ⟨.amount fund, hint⟩
  else
    match fund with
    | .dict members => do
      let value ← require members "value"
      return ⟨.config {
        value
        delayBlocks := optional (Members.get members "delay_blocks")
        delayRounds := optional (Members.get members "delay_rounds") }, optional_ne _, optional_ne _⟩
    | .none => .ok ⟨.other .none, rfl, rfl⟩
    | .float x => .ok ⟨.other (.float x), rfl, rfl⟩
    | .str s => .ok ⟨.other (.str s), rfl, rfl⟩
    | .list items => .ok ⟨.other (.list items), rfl, rfl⟩
    | .bool _ | .int _ => absurd rfl hint

/-- The fields of a postmix spend. -/
def spendFields : List String :=
  ["value", "all", "delay_blocks", "delay_rounds", "min_anon_score", "coin_selection"]

/-- `postmix spend {index} ...`. -/
def spendError (index : Nat) (problem : String) : PyError :=
  .valueError ("postmix spend " ++ toString index ++ " " ++ problem)

def parseAll (index : Nat) (members : Members) : Except PyError Bool :=
  match members.getD "all" (.bool false) with
  | .bool all => .ok all
  | _ => .error (spendError index "field 'all' must be a boolean")

/-- An integer that passes a test, or `None`. -/
def parseInteger (accepts : Int → Prop) [DecidablePred accepts] (error : PyError) :
    Json → Except PyError (Option { i : Int // accepts i })
  | .none => .ok none
  | .int i => if h : accepts i then .ok (some ⟨i, h⟩) else .error error
  | _ => .error error

def parseSpendValue (index : Nat) (members : Members) :
    Except PyError (Option { satoshis : Int // 0 < satoshis }) :=
  parseInteger (0 < ·) (spendError index "value must be a positive integer of satoshis")
    (members.get "value")

def parseSpendDelay (index : Nat) (members : Members) (field : String) :
    Except PyError (Option { delay : Int // 0 ≤ delay }) :=
  parseInteger (0 ≤ ·) (spendError index (field ++ " must be a non-negative integer"))
    (members.get field)

def parseMinAnonScore (index : Nat) (members : Members) : Except PyError (Option Score) :=
  match members.get "min_anon_score" with
  | .none => .ok none
  | .int i => if h : 0 < i then .ok (some (.int i h)) else error
  | .float x => if h : 0 < x then .ok (some (.float x h)) else error
  | _ => error
where
  error : Except PyError (Option Score) :=
    .error (spendError index "min_anon_score must be a positive number")

def parseCoinSelection (index : Nat) (engine : Engine) (members : Members) :
    Except PyError { selection : String // selection ∈ engine.coinSelections } :=
  match members.getD "coin_selection" (.str (engine.coinSelections.headD "")) with
  | .str selection =>
    if h : selection ∈ engine.coinSelections then .ok ⟨selection, h⟩ else error
  | _ => error
where
  error : Except PyError { selection : String // selection ∈ engine.coinSelections } :=
    .error (.valueError (engine.name ++ " postmix spend " ++ toString index ++
      " coin_selection must be one of: " ++ String.intercalate ", " engine.coinSelections))

/-- Parse and validate one postmix spend; `index` names it in errors. -/
def parsePostmixSpend (engine : Engine) (index : Nat) (entry : Json) :
    Except PyError (PostmixSpendConfig engine) := do
  let members : Members ← match entry with
    | .dict members => .ok members
    | _ => .error (spendError index "must be an object")
  let unknown := members.keys.filter (· ∉ spendFields)
  if unknown ≠ [] then
    throw (spendError index ("has unknown fields: " ++
      String.intercalate ", " (unknown.mergeSort (· ≤ ·))))
  let all ← parseAll index members
  let value ← parseSpendValue index members
  if exactlyOne : value.isSome = all then
    throw (spendError index "must set exactly one of 'value' and 'all'")
  else do
    let delayBlocks ← parseSpendDelay index members "delay_blocks"
    let delayRounds ← parseSpendDelay index members "delay_rounds"
    let minAnonScore ← parseMinAnonScore index members
    if noScore : engine = .joinMarket ∧ minAnonScore.isSome then
      throw (.valueError ("JoinMarket postmix spend " ++ toString index ++
        " cannot set min_anon_score: its coins have no anonymity score"))
    else do
      let coinSelection ← parseCoinSelection index engine members
      return {
        value, all, delayBlocks, delayRounds, minAnonScore, coinSelection, exactlyOne
        noScore := fun h => by simpa [h] using noScore }

/-- Parse the postmix spend schedule of a wallet of one engine. -/
def parsePostmixSpends (engine : Engine) : Json →
    Except PyError (Option (List (PostmixSpendConfig engine)))
  | .none => .ok none
  | .list entries => do
    return some (← entries.zipIdx.mapM fun (entry, index) => parsePostmixSpend engine index entry)
  | _ => .error (.valueError (engine.name ++ " postmix_spends must be a list"))

def legacyWasabiFields : List String := ["anon_score_target", "redcoin_isolation", "skip_rounds"]

def legacyJoinmarketFields : List String :=
  ["type", "offers", "tumbler_options", "time_between_rounds", "coinjoin_timeout_blocks",
    "fidelity_bond", "max_coinjoins"]

/-- The Wasabi settings of a wallet, or `None` when every one of them is. -/
def parseWasabi (members : Members) : Except PyError (Option WasabiConfig) := do
  let nested ← dictOrEmpty (members.get "wasabi")
  let postmixSpends ← parsePostmixSpends .wasabi (nested.get "postmix_spends")
  let anonScoreTarget := nested.get "anon_score_target"
  let redcoinIsolation := nested.get "redcoin_isolation"
  let skipRounds := nested.get "skip_rounds"
  if nonempty : (anonScoreTarget.isNone && redcoinIsolation.isNone && skipRounds.isNone &&
      postmixSpends.isNone) = false then
    return some {
      anonScoreTarget, redcoinIsolation, skipRounds, postmixSpends, nonempty }
  else return none

section Parse

-- `repr(value)`, for the text of errors.
variable (repr : Json → String)

/-- `None if role_value is None else JoinMarketRole(str(role_value))`.  The text of a value that is
no string is no role. -/
def parseRole (roleValue : Json) : Except PyError (Option JoinMarketRole) :=
  match roleValue with
  | .none => .ok none
  | .str "maker" => .ok (some .maker)
  | .str "taker" => .ok (some .taker)
  | _ => .error (.valueError ("invalid JoinMarket role " ++ repr roleValue))

/-- The JoinMarket settings of a wallet, or `None` when every one of them is. -/
def parseJoinmarket (members : Members) : Except PyError (Option JoinMarketConfig) := do
  let nested ← dictOrEmpty (members.get "joinmarket")
  let roleValue := nested.get "role"
  let postmixSpends ← parsePostmixSpends .joinMarket (nested.get "postmix_spends")
  let coinjoinTimeoutBlocks ← parseInteger (0 < ·)
    (.valueError "JoinMarket coinjoin_timeout_blocks must be a positive integer")
    (nested.get "coinjoin_timeout_blocks")
  let role ← parseRole repr roleValue
  let offers := nested.get "offers"
  let tumblerOptions := nested.get "tumbler_options"
  let timeBetweenRounds := nested.get "time_between_rounds"
  let fidelityBond := nested.get "fidelity_bond"
  let maxCoinjoins := nested.get "max_coinjoins"
  if nonempty : (role.isNone && offers.isNone && tumblerOptions.isNone &&
      timeBetweenRounds.isNone && coinjoinTimeoutBlocks.isNone && fidelityBond.isNone &&
      maxCoinjoins.isNone && postmixSpends.isNone) = false then
    return some {
      role, offers, tumblerOptions, timeBetweenRounds, coinjoinTimeoutBlocks, fidelityBond
      maxCoinjoins, postmixSpends, nonempty }
  else return none

/-- Parse wallet configuration from JSON data. -/
def parseWallet (walletData : Json) : Except PyError WalletConfig := do
  let members ← asDict walletData
  let funds ← (← iterate (members.getD "funds" (.list []))).mapM parseFund
  if members.keys.any (· ∈ legacyWasabiFields) then
    throw (.valueError "flat Wasabi wallet settings are unsupported; use the wasabi object")
  let wasabi ← parseWasabi members
  if members.keys.any (· ∈ legacyJoinmarketFields) then
    throw (.valueError "flat JoinMarket wallet settings are unsupported; use the joinmarket object")
  let joinmarket ← parseJoinmarket repr members
  return {
    funds
    delayBlocks := members.get "delay_blocks"
    delayRounds := members.get "delay_rounds"
    stopBlocks := members.get "stop_blocks"
    stopRounds := members.get "stop_rounds"
    version := members.get "version"
    wasabi
    joinmarket }

def parseDescription (data : Members) : Except PyError (Option String) :=
  match data.get "description" with
  | .none => .ok none
  | .str description => .ok (some description)
  | _ => .error (.valueError "scenario description must be a string")

def parseCategory (data : Members) :
    Except PyError (Option { category : String // strip category ≠ "" }) :=
  match data.get "category" with
  | .none => .ok none
  | .str category => if h : strip category ≠ "" then .ok (some ⟨category, h⟩) else error
  | _ => error
where
  error : Except PyError (Option { category : String // strip category ≠ "" }) :=
    .error (.valueError "scenario category must be a non-empty string")

/-- Load scenario configuration from a JSON document. -/
def fromJsonConfig (document : Json) : Except PyError ScenarioConfig := do
  let data ← asDict document
  let description ← parseDescription data
  let category ← parseCategory data
  let wallets ← (← iterate (data.getD "wallets" (.list []))).mapM (parseWallet repr)
  let name ← require data "name"
  let rounds ← require data "rounds"
  let blocks ← require data "blocks"
  let defaultVersion ← require data "default_version"
  return {
    name, rounds, blocks, defaultVersion, wallets, description, category
    distributorVersion := data.get "distributor_version"
    defaultAnonScoreTarget := data.get "default_anon_score_target"
    defaultRedcoinIsolation := data.get "default_redcoin_isolation"
    backend := data.get "backend" }

end Parse

/-! ### Writing -/

/-- An optional integer of the parser, as `asdict` writes it. -/
def ofInteger {accepts : Int → Prop} (value : Option { i : Int // accepts i }) : Json :=
  Json.ofOption (fun i => .int i.val) value

def Fund.asdict : Fund Json → Json
  | .amount value => value
  | .config fund => .dict [
      ("value", fund.value),
      ("delay_blocks", fund.delayBlocks.getD .none),
      ("delay_rounds", fund.delayRounds.getD .none)]
  | .other entry => entry

def PostmixSpendConfig.asdict {engine : Engine} (spend : PostmixSpendConfig engine) : Json :=
  .dict [
    ("value", ofInteger spend.value),
    ("all", .bool spend.all),
    ("delay_blocks", ofInteger spend.delayBlocks),
    ("delay_rounds", ofInteger spend.delayRounds),
    ("min_anon_score", Json.ofOption Score.toJson spend.minAnonScore),
    ("coin_selection", .str spend.coinSelection)]

/-- The postmix spends of a wallet, as `asdict` writes them. -/
def ofSpends {engine : Engine} (spends : Option (List (PostmixSpendConfig engine))) : Json :=
  Json.ofOption (fun spends => .list (spends.map PostmixSpendConfig.asdict)) spends

def WasabiConfig.asdict (config : WasabiConfig) : Json :=
  .dict [
    ("anon_score_target", config.anonScoreTarget),
    ("redcoin_isolation", config.redcoinIsolation),
    ("skip_rounds", config.skipRounds),
    ("postmix_spends", ofSpends config.postmixSpends)]

def JoinMarketConfig.asdict (config : JoinMarketConfig) : Json :=
  .dict [
    ("role", Json.ofOption (fun role : JoinMarketRole => .str role.value) config.role),
    ("offers", config.offers),
    ("tumbler_options", config.tumblerOptions),
    ("time_between_rounds", config.timeBetweenRounds),
    ("coinjoin_timeout_blocks", ofInteger config.coinjoinTimeoutBlocks),
    ("fidelity_bond", config.fidelityBond),
    ("max_coinjoins", config.maxCoinjoins),
    ("postmix_spends", ofSpends config.postmixSpends)]

def WalletConfig.asdict (wallet : WalletConfig) : Json :=
  .dict [
    ("funds", .list (wallet.funds.map fun fund => fund.val.asdict)),
    ("delay_blocks", wallet.delayBlocks),
    ("delay_rounds", wallet.delayRounds),
    ("stop_blocks", wallet.stopBlocks),
    ("stop_rounds", wallet.stopRounds),
    ("version", wallet.version),
    ("wasabi", Json.ofOption WasabiConfig.asdict wallet.wasabi),
    ("joinmarket", Json.ofOption JoinMarketConfig.asdict wallet.joinmarket)]

/-- Convert the scenario configuration to a document. -/
def ScenarioConfig.toDict (config : ScenarioConfig) : Json :=
  .dict [
    ("name", config.name),
    ("rounds", config.rounds),
    ("blocks", config.blocks),
    ("default_version", config.defaultVersion),
    ("wallets", .list (config.wallets.map WalletConfig.asdict)),
    ("description", Json.ofOption .str config.description),
    ("category", Json.ofOption (fun category => .str category.val) config.category),
    ("distributor_version", config.distributorVersion),
    ("default_anon_score_target", config.defaultAnonScoreTarget),
    ("default_redcoin_isolation", config.defaultRedcoinIsolation),
    ("backend", config.backend)]

end CoinjoinEmulator.Scenario
