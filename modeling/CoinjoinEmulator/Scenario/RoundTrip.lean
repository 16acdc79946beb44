import CoinjoinEmulator.Scenario.Configuration
import CoinjoinEmulator.ProofKit.Collect

/-! A scenario that is stored is parsed back to itself. -/

namespace CoinjoinEmulator.Scenario

open ProofKit

theorem parseInteger_ofInteger {accepts : Int → Prop} [DecidablePred accepts] (error : PyError)
    (value : Option { i : Int // accepts i }) :
    parseInteger accepts error (ofInteger value) = .ok value := by
  cases value with
  | none => rfl
  | some i => exact dif_pos i.property

theorem optional_getD {value : Option Json} (h : value ≠ some .none) :
    optional (value.getD .none) = value := by
  cases value with
  | none => rfl
  | some value => cases value <;> first | rfl | exact absurd rfl h

/-! ### Postmix spends -/

section Spend

variable {engine : Engine} (index : Nat)

theorem parseMinAnonScore_of_get {members : Members} {score : Option Score}
    (h : members.get "min_anon_score" = Json.ofOption Score.toJson score) :
    parseMinAnonScore index members = .ok score := by
  rw [parseMinAnonScore, h]
  rcases score with _ | ⟨i, positive⟩ | ⟨x, positive⟩
  · rfl
  · exact dif_pos positive
  · exact dif_pos positive

theorem parseCoinSelection_of_get {members : Members}
    {selection : { selection : String // selection ∈ engine.coinSelections }}
    (h : members.getD "coin_selection" (.str (engine.coinSelections.headD "")) =
      .str selection) :
    parseCoinSelection index engine members = .ok selection := by
  rw [parseCoinSelection, h]
  exact dif_pos selection.property

theorem parsePostmixSpend_asdict (spend : PostmixSpendConfig engine) :
    parsePostmixSpend engine index spend.asdict = .ok spend := by
  obtain ⟨value, all, delayBlocks, delayRounds, score, selection, exactlyOne, noScore⟩ := spend
  set members : Members := [
    ("value", ofInteger value), ("all", .bool all), ("delay_blocks", ofInteger delayBlocks),
    ("delay_rounds", ofInteger delayRounds), ("min_anon_score", Json.ofOption Score.toJson score),
    ("coin_selection", .str selection)] with hmembers
  have hunknown : members.keys.filter (· ∉ spendFields) = [] := by
    simp [hmembers, Members.keys, spendFields]
  have hall : parseAll index members = .ok all := by
    simp [parseAll, hmembers]
  have hvalue : parseSpendValue index members = .ok value := by
    simp only [parseSpendValue, hmembers, Members.get, Members.getD_cons, if_true]
    exact parseInteger_ofInteger _ value
  have hblocks : parseSpendDelay index members "delay_blocks" = .ok delayBlocks := by
    simp only [parseSpendDelay, hmembers, Members.get]
    exact parseInteger_ofInteger _ delayBlocks
  have hrounds : parseSpendDelay index members "delay_rounds" = .ok delayRounds :=
    parseInteger_ofInteger _ delayRounds
  have hscore : parseMinAnonScore index members = .ok score :=
    parseMinAnonScore_of_get index rfl
  have hselection : parseCoinSelection index engine members = .ok selection :=
    parseCoinSelection_of_get index rfl
  have hnoScore : ¬(engine = .joinMarket ∧ score.isSome) := by
    rintro ⟨hengine, hsome⟩
    rw [noScore hengine] at hsome
    cases hsome
  simp only [parsePostmixSpend, PostmixSpendConfig.asdict, ← hmembers]
  simp only [hunknown, hall, hvalue, hblocks, hrounds, hscore, hselection, bind, Except.bind,
    ne_eq, not_true_eq_false, if_false, exactlyOne, dif_neg, hnoScore, not_false_eq_true, pure,
    Except.pure]

theorem mapM_parsePostmixSpend (spends : List (PostmixSpendConfig engine)) :
    ((spends.map PostmixSpendConfig.asdict).zipIdx index).mapM
      (fun entry => parsePostmixSpend engine entry.2 entry.1) = .ok spends := by
  induction spends generalizing index with
  | nil => rfl
  | cons spend rest ih =>
    rw [List.map_cons, List.zipIdx_cons, List.mapM_cons, parsePostmixSpend_asdict, ih]
    rfl

theorem parsePostmixSpends_ofSpends (spends : Option (List (PostmixSpendConfig engine))) :
    parsePostmixSpends engine (ofSpends spends) = .ok spends := by
  cases spends with
  | none => rfl
  | some spends =>
    simp only [ofSpends, Json.ofOption, parsePostmixSpends]
    rw [mapM_parsePostmixSpend 0 spends]
    rfl

end Spend

/-! ### Wallets -/

theorem parseFund_asdict (fund : { fund : Fund Json // fund.WellFormed }) :
    parseFund fund.val.asdict = .ok fund := by
  obtain ⟨fund, hfund⟩ := fund
  cases fund with
  | amount value => exact dif_pos hfund
  | config fund =>
    obtain ⟨value, delayBlocks, delayRounds⟩ := fund
    obtain ⟨hblocks, hrounds⟩ := hfund
    have hvalue : require [("value", value), ("delay_blocks", delayBlocks.getD .none),
        ("delay_rounds", delayRounds.getD .none)] "value" = .ok value := rfl
    simp only [Fund.asdict, parseFund, Json.isInt, hvalue, Members.get, Members.getD_cons]
    simp [optional_getD hblocks, optional_getD hrounds, bind, Except.bind, pure, Except.pure]
  | other entry =>
    obtain ⟨hint, hdict⟩ := hfund
    cases entry with
    | none | float _ | str _ | list _ => rfl
    | bool _ | int _ => cases hint
    | dict _ => cases hdict

theorem parseWasabi_of_get {members : Members} {wasabi : Option WasabiConfig}
    (h : members.get "wasabi" = Json.ofOption WasabiConfig.asdict wasabi) :
    parseWasabi members = .ok wasabi := by
  rw [parseWasabi, h]
  cases wasabi with
  | none => rfl
  | some config =>
    have hnested : dictOrEmpty config.asdict = .ok [
        ("anon_score_target", config.anonScoreTarget),
        ("redcoin_isolation", config.redcoinIsolation), ("skip_rounds", config.skipRounds),
        ("postmix_spends", ofSpends config.postmixSpends)] := rfl
    have hspends := parsePostmixSpends_ofSpends config.postmixSpends
    simp only [Json.ofOption, hnested, bind, Except.bind, Members.get, Members.getD_cons]
    simp [hspends, config.nonempty, pure, Except.pure]

theorem parseRole_ofOption (repr : Json → String) (role : Option JoinMarketRole) :
    parseRole repr (Json.ofOption (fun role => .str role.value) role) = .ok role := by
  rcases role with _ | _ | _ <;> rfl

theorem parseJoinmarket_of_get (repr : Json → String) {members : Members}
    {joinmarket : Option JoinMarketConfig}
    (h : members.get "joinmarket" = Json.ofOption JoinMarketConfig.asdict joinmarket) :
    parseJoinmarket repr members = .ok joinmarket := by
  rw [parseJoinmarket, h]
  cases joinmarket with
  | none => rfl
  | some config =>
    obtain ⟨role, offers, tumblerOptions, timeBetweenRounds, timeoutBlocks, fidelityBond,
      maxCoinjoins, spends, nonempty⟩ := config
    have hnested : dictOrEmpty (JoinMarketConfig.asdict ⟨role, offers, tumblerOptions,
        timeBetweenRounds, timeoutBlocks, fidelityBond, maxCoinjoins, spends, nonempty⟩) = .ok [
        ("role", Json.ofOption (fun role : JoinMarketRole => .str role.value) role),
        ("offers", offers), ("tumbler_options", tumblerOptions),
        ("time_between_rounds", timeBetweenRounds),
        ("coinjoin_timeout_blocks", ofInteger timeoutBlocks), ("fidelity_bond", fidelityBond),
        ("max_coinjoins", maxCoinjoins), ("postmix_spends", ofSpends spends)] := rfl
    have hspends := parsePostmixSpends_ofSpends spends
    have htimeout := parseInteger_ofInteger
      (.valueError "JoinMarket coinjoin_timeout_blocks must be a positive integer") timeoutBlocks
    have hrole := parseRole_ofOption repr role
    rw [Json.ofOption, hnested]
    simp only [bind, Except.bind, Members.get, Members.getD_cons, String.reduceEq, if_true, if_false,
      hspends, htimeout, hrole]
    exact dif_pos nonempty

theorem parseWallet_asdict (repr : Json → String) (wallet : WalletConfig) :
    parseWallet repr wallet.asdict = .ok wallet := by
  set members : Members := [
    ("funds", .list (wallet.funds.map fun fund => fund.val.asdict)),
    ("delay_blocks", wallet.delayBlocks), ("delay_rounds", wallet.delayRounds),
    ("stop_blocks", wallet.stopBlocks), ("stop_rounds", wallet.stopRounds),
    ("version", wallet.version), ("wasabi", Json.ofOption WasabiConfig.asdict wallet.wasabi),
    ("joinmarket", Json.ofOption JoinMarketConfig.asdict wallet.joinmarket)] with hmembers
  have hdict : asDict wallet.asdict = .ok members := rfl
  have hfunds : (wallet.funds.map fun fund => fund.val.asdict).mapM parseFund = .ok wallet.funds := by
    rw [List.mapM_map]
    simpa using mapM_eq_ok_map (g := id) fun fund _ => parseFund_asdict fund
  have hiterate : iterate (members.getD "funds" (.list [])) =
      .ok (wallet.funds.map fun fund => fund.val.asdict) := rfl
  have hwasabi : parseWasabi members = .ok wallet.wasabi := parseWasabi_of_get rfl
  have hjoinmarket : parseJoinmarket repr members = .ok wallet.joinmarket :=
    parseJoinmarket_of_get repr rfl
  have hnotLegacy : members.keys.any (· ∈ legacyWasabiFields) = false ∧
      members.keys.any (· ∈ legacyJoinmarketFields) = false := by
    simp [hmembers, Members.keys, legacyWasabiFields, legacyJoinmarketFields]
  simp only [parseWallet, hdict, hiterate, hfunds, hwasabi, hjoinmarket, hnotLegacy, bind,
    Except.bind]
  rfl

/-! ### Scenarios -/

theorem fromJsonConfig_toDict (repr : Json → String) (config : ScenarioConfig) :
    fromJsonConfig repr config.toDict = .ok config := by
  obtain ⟨name, rounds, blocks, defaultVersion, wallets, description, category,
    distributorVersion, anonScoreTarget, redcoinIsolation, backend⟩ := config
  set members : Members := [
    ("name", name), ("rounds", rounds), ("blocks", blocks), ("default_version", defaultVersion),
    ("wallets", .list (wallets.map WalletConfig.asdict)),
    ("description", Json.ofOption .str description),
    ("category", Json.ofOption (fun category => .str category.val) category),
    ("distributor_version", distributorVersion), ("default_anon_score_target", anonScoreTarget),
    ("default_redcoin_isolation", redcoinIsolation), ("backend", backend)] with hmembers
  have hdescription : parseDescription members = .ok description := by
    cases description <;> rfl
  have hcategory : parseCategory members = .ok category := by
    rcases category with _ | ⟨category, hcategory⟩
    · rfl
    · exact dif_pos hcategory
  have hiterate : iterate (members.getD "wallets" (.list [])) =
      .ok (wallets.map WalletConfig.asdict) := rfl
  have hwallets : (wallets.map WalletConfig.asdict).mapM (parseWallet repr) = .ok wallets := by
    rw [List.mapM_map]
    simpa [Function.comp_def] using
      mapM_eq_ok_map (g := id) fun wallet _ => parseWallet_asdict repr wallet
  simp only [fromJsonConfig, ScenarioConfig.toDict, ← hmembers, asDict, hdescription, hcategory,
    hiterate, hwallets, bind, Except.bind]
  rfl

/-- Storing a scenario that was read from a document and reading it again gives what was read. -/
theorem scenario_round_trips (repr : Json → String) (document : Json) :
    (do fromJsonConfig repr (← fromJsonConfig repr document).toDict) =
      fromJsonConfig repr document := by
  cases h : fromJsonConfig repr document with
  | error error => rfl
  | ok config => exact fromJsonConfig_toDict repr config

-- A file with an empty settings object, a delayed fund and spends of either engine is accepted.
example : (fromJsonConfig (fun _ => "") (.dict [
    ("name", .str "postmix"), ("rounds", .int 0), ("blocks", .int 120),
    ("default_version", .str "2.0.4"), ("category", .str "liquidity"),
    ("wallets", .list [
      .dict [("funds", .list [.int 1000, .dict [("value", .int 5), ("delay_blocks", .int 2)]]),
        ("joinmarket", .dict []), ("wasabi", .dict [("postmix_spends", .list [
          .dict [("all", .bool true), ("min_anon_score", .int 5)], .dict [("value", .int 1000)]])])],
      .dict [("joinmarket", .dict [("role", .str "maker"), ("postmix_spends", .list [
        .dict [("value", .int 120000), ("delay_rounds", .int 4)]])])]])])).isOk = true := by decide

end CoinjoinEmulator.Scenario
