import CoinjoinEmulator.Postmix.Wasabi
import CoinjoinEmulator.ProofKit.Dotted
import Mathlib.Data.Char

/-! Where the version of a Wasabi client decides something: the client class, the architecture of
the backend, the launch of the client, its RPC path and the wait before a sweep.  The versions are
compared as texts. -/

namespace CoinjoinEmulator.WasabiVersions

open ProofKit

/-! ### The version gates -/

inductive WasabiClientClass where
  | v1
  | v2
  | v204
  | v26
deriving DecidableEq, Repr

/-- `WasabiClient(version)`. -/
def wasabiClient (version : String) : WasabiClientClass :=
  if version < "2.0.0" then .v1
  else if version ≥ "2.0.0" ∧ version < "2.0.4" then .v2
  else if version ≥ "2.0.4" ∧ version < "2.6.0" then .v204
  else .v26

inductive BackendArchitecture where
  | legacy
  | split
deriving DecidableEq, Repr

/-- `LEGACY` for versions below 2.6.0 and `SPLIT` from 2.6.0 on. -/
def detectBackendArchitecture (versions : List String) : BackendArchitecture :=
  if versions.any fun version => version ≥ "2.6.0" then .split else .legacy

inductive AnonScoreTarget where
  | int (i : Int)
  | str (s : String)
deriving DecidableEq, Repr

/-- `str(anon_score_target) if anon_score_target else None`. -/
def AnonScoreTarget.text : AnonScoreTarget → Option String
  | .int i => if i = 0 then none else some (toString i)
  | .str s => if s = "" then none else some s

/-- The settings that a client of this version is started with: below 2.0.3 and from 2.6.0 on they
are ignored. -/
def privacyProfile (version : String) (anonScoreTarget : Option AnonScoreTarget)
    (redcoinIsolation : Option Bool) : Option AnonScoreTarget × Option Bool :=
  let anonScoreTarget :=
    if anonScoreTarget ≠ none ∧ version < "2.0.3" then none else anonScoreTarget
  let redcoinIsolation :=
    if redcoinIsolation ≠ none ∧ version < "2.0.3" then none else redcoinIsolation
  if (anonScoreTarget ≠ none ∨ redcoinIsolation ≠ none) ∧ version ≥ "2.6.0" then (none, none)
  else (anonScoreTarget, redcoinIsolation)

/-- The processor share and the memory in MiB that a client of this version is started with. -/
def clientResources (version : String) : Rat × Nat :=
  (if version < "2.0.4" then 3 / 10 else 1 / 10, if version < "2.0.4" then 1024 else 768)

/-- The settings of a wallet that its start reads; `wasabi` has its score target and its redcoin
isolation. -/
structure WalletSettings where
  version : Option String
  wasabi : Option (Option AnonScoreTarget × Option Bool)

/-- What a start reads of the engine: its arguments, the addresses of what runs already, the
versions of the scenario and its defaults. -/
structure WasabiEngine where
  imagePrefix : String
  btcNodeIp : String
  wasabiBackendIp : String
  node : Option String
  backend : Option String
  coordinator : Option String
  versions : List String
  defaultVersion : String
  defaultAnonScoreTarget : Option AnonScoreTarget
  defaultRedcoinIsolation : Option Bool

/-- The container that the driver is asked to run. -/
structure RunRequest where
  name : String
  image : String
  env : List (String × String)
  ports : Nat × Nat
  resources : Rat × Nat

/-- `x or y` for a text that may be missing. -/
def orElse (text : Option String) (default : String) : String :=
  match text with
  | some text => if text = "" then default else text
  | none => default

/-- `f"wasabi-client-{idx:03}"`. -/
def clientName (idx : Nat) : String :=
  let digits := toString idx
  "wasabi-client-" ++ String.ofList (List.replicate (3 - digits.length) '0') ++ digits

/-- The request for a client of this version, with its settings, its resources and the backend's
architecture. -/
def startRequest (engine : WasabiEngine) (idx : Nat) (version : String)
    (profile : Option AnonScoreTarget × Option Bool) (resources : Rat × Nat)
    (architecture : BackendArchitecture) : Except PyError RunRequest := do
  let some node := engine.node | throw (.runtimeError "Bitcoin node is not initialized")
  let some backend := engine.backend | throw (.runtimeError "Wasabi backend is not initialized")
  let coordinator := if architecture = .split then engine.coordinator else none
  let optionalEnv := [
    ("ADDR_BTC_NODE", some (orElse engine.btcNodeIp node)),
    ("ADDR_WASABI_BACKEND", some (orElse engine.wasabiBackendIp backend)),
    ("WASABI_ANON_SCORE_TARGET", profile.1.bind AnonScoreTarget.text),
    ("WASABI_REDCOIN_ISOLATION", profile.2.map fun b => if b then "True" else "False"),
    ("ADDR_WASABI_COORDINATOR", coordinator)]
  return {
    name := clientName idx
    image := engine.imagePrefix ++ "wasabi-client:" ++ version
    env := optionalEnv.filterMap fun (key, value) => value.map fun text => (key, text)
    ports := (37128, 37132 + idx)
    resources := resources }

/-- The request with which `start_client` starts a container. -/
def startClient (engine : WasabiEngine) (idx : Nat) (wallet : Option WalletSettings) :
    Except PyError RunRequest := do
  let some wallet := wallet | throw (.valueError "wallet parameter is required")
  let version := orElse wallet.version engine.defaultVersion
  let (anonScoreTarget, redcoinIsolation) := wallet.wasabi.getD (engine.defaultAnonScoreTarget,
    engine.defaultRedcoinIsolation)
  startRequest engine idx version (privacyProfile version anonScoreTarget redcoinIsolation)
    (clientResources version) (detectBackendArchitecture engine.versions)

def walletName : String := "wallet"

/-- Whether `_rpc` addresses a wallet. -/
def rpcWallet (version : String) (wallet : Bool) : Bool :=
  if version < "2.0.4" then false else wallet

/-- The address that `_rpc` posts a request to. -/
def rpcUrl (host : String) (port : Nat) (version : String) (wallet : Bool)
    (name : Option String) : String :=
  "http://" ++ host ++ ":" ++ toString port ++ "/" ++
    if rpcWallet version wallet then orElse name walletName else ""

/-! ### Dotted versions and their numeric order -/

/-- A dotted numeric version: numerals of any length, any number of them. -/
structure Version where
  components : List (List (Fin 10))
  components_ne : components ≠ []
  digits_ne : ∀ component ∈ components, component ≠ []

def digitChar (d : Fin 10) : Char := Char.ofNat (48 + d)

theorem digitChar_lt_iff : ∀ d e : Fin 10, digitChar d < digitChar e ↔ d < e := by decide

theorem digitChar_inj : ∀ d e : Fin 10, digitChar d = digitChar e ↔ d = e := by decide

theorem dot_lt_digitChar : ∀ d : Fin 10, '.' < digitChar d := by decide

/-- The text of numerals, with a dot between them. -/
def dotted (components : List (List (Fin 10))) : String :=
  String.ofList (joined '.' (components.map (List.map digitChar)))

def Version.text (v : Version) : String := dotted v.components

/-- The bounds that versions are compared with; each component is one digit. -/
def bounds : List (List (Fin 10)) := [[2, 0, 0], [2, 0, 3], [2, 0, 4], [2, 6, 0]]

/-- The components are numerically below those of the bound, the first difference deciding; a
version that the bound continues is below it. -/
def NumericallyBelow (components : List (List (Fin 10))) (bound : List (Fin 10)) : Prop :=
  components.map decimal < bound.map Fin.val

instance (components : List (List (Fin 10))) (bound : List (Fin 10)) :
    Decidable (NumericallyBelow components bound) :=
  inferInstanceAs (Decidable (components.map decimal < bound.map Fin.val))

def Version.Below (v : Version) (bound : List (Fin 10)) : Prop :=
  NumericallyBelow v.components bound

instance (v : Version) (bound : List (Fin 10)) : Decidable (v.Below bound) :=
  inferInstanceAs (Decidable (NumericallyBelow v.components bound))

/-- The order of the texts agrees with the numeric order.  At the first component that is not
written as the digit of the bound, its first digit decides for the texts: it has to be below that
digit if and only if the number is, or, if the number is that digit with leading zeros, if and only
if the rest is below the rest of the bound. -/
def OrderedAsWritten : List (List (Fin 10)) → List (Fin 10) → Prop
  | [], _ => True
  | _ :: _, [] => True
  | component :: rest, digit :: bound =>
    if component = [digit] then OrderedAsWritten rest bound
    else if decimal component = digit then (0 < digit ↔ NumericallyBelow rest bound)
    else (component.headD 0 < digit ↔ decimal component < digit)

/-! ### Texts against numbers -/

/-- The components as words are below the digits of the bound as words. -/
def TextBelow (components : List (List (Fin 10))) (bound : List (Fin 10)) : Prop :=
  components.map (List.map digitChar) < bound.map fun d => [digitChar d]

theorem dot_lt_of_mem {components : List (List (Fin 10))} :
    ∀ word ∈ components.map (List.map digitChar), ∀ x ∈ word, '.' < x := by
  intro word hword x hx
  obtain ⟨component, -, rfl⟩ := List.mem_map.mp hword
  obtain ⟨d, -, rfl⟩ := List.mem_map.mp hx
  exact dot_lt_digitChar d

/-- Dotted texts compare as the lists of their components. -/
theorem dotted_lt_dotted_iff {components : List (List (Fin 10))} {bound : List (Fin 10)}
    (hcomponents : components ≠ []) (hbound : bound ≠ []) :
    dotted components < dotted (bound.map fun d => [d]) ↔ TextBelow components bound := by
  have hwords : (bound.map fun d => [d]).map (List.map digitChar) =
      bound.map fun d => [digitChar d] := by simp
  rw [String.lt_iff, dotted, dotted, String.toList_ofList, String.toList_ofList]
  rw [hwords]
  refine joined_lt_joined_iff (by simpa using hcomponents) (by simpa using hbound) dot_lt_of_mem ?_
  rw [← hwords]
  exact dot_lt_of_mem

section Cons

variable (first digit : Fin 10) (more : List (Fin 10)) (rest : List (List (Fin 10)))
  (bound : List (Fin 10))

theorem textBelow_cons : TextBelow ((first :: more) :: rest) (digit :: bound) ↔
    first < digit ∨ first :: more = [digit] ∧ TextBelow rest bound := by
  simp only [TextBelow, List.map_cons, List.cons_lt_cons_iff, digitChar_lt_iff, digitChar_inj,
    List.not_lt_nil, and_false, or_false, List.cons.injEq, List.map_eq_nil_iff]

theorem numericallyBelow_cons : NumericallyBelow ((first :: more) :: rest) (digit :: bound) ↔
    decimal (first :: more) < digit ∨
      decimal (first :: more) = digit ∧ NumericallyBelow rest bound := by
  simp only [NumericallyBelow, List.map_cons, List.cons_lt_cons_iff]

end Cons

/-- The order of the texts is the numeric one exactly for the versions that are ordered as
written. -/
theorem textBelow_iff_numericallyBelow_iff {components : List (List (Fin 10))}
    (hdigits : ∀ component ∈ components, component ≠ []) (bound : List (Fin 10)) :
    (TextBelow components bound ↔ NumericallyBelow components bound) ↔
      OrderedAsWritten components bound := by
  induction components generalizing bound with
  | nil => cases bound <;> simp [TextBelow, NumericallyBelow, OrderedAsWritten]
  | cons component rest ih =>
    cases bound with
    | nil => simp [TextBelow, NumericallyBelow, OrderedAsWritten]
    | cons digit bound =>
      obtain ⟨first, more, rfl⟩ := List.exists_cons_of_ne_nil (hdigits component (by simp))
      rw [textBelow_cons, numericallyBelow_cons, OrderedAsWritten]
      by_cases hsame : first :: more = [digit]
      · rw [if_pos hsame, ← ih (fun c hc => hdigits c (List.mem_cons_of_mem _ hc)) bound]
        obtain ⟨rfl, rfl⟩ := List.cons.inj hsame
        simp
      · rw [if_neg hsame]
        by_cases hdecimal : decimal (first :: more) = digit
        · -- the digit of the bound with leading zeros
          have hzero := (eq_singleton_or_head_eq_zero hdecimal).resolve_left hsame
          rw [if_pos hdecimal]
          simp only [hsame, false_and, or_false, hdecimal, Nat.lt_irrefl, true_and, false_or]
          rw [hzero]
        · rw [if_neg hdecimal]
          simp only [hsame, hdecimal, false_and, or_false, List.headD_cons]

/-! ### The gates against the numeric order -/

/-- The class that the numeric order selects. -/
def numericClientClass (v : Version) : WasabiClientClass :=
  if v.Below [2, 0, 0] then .v1
  else if v.Below [2, 0, 4] then .v2
  else if v.Below [2, 6, 0] then .v204
  else .v26

/-- The settings that the numeric order keeps. -/
def numericPrivacyProfile (v : Version) (anonScoreTarget : Option AnonScoreTarget)
    (redcoinIsolation : Option Bool) : Option AnonScoreTarget × Option Bool :=
  if v.Below [2, 0, 3] ∨ ¬v.Below [2, 6, 0] then (none, none)
  else (anonScoreTarget, redcoinIsolation)

def numericResources (v : Version) : Rat × Nat :=
  if v.Below [2, 0, 4] then (3 / 10, 1024) else (1 / 10, 768)

/-- Split as soon as one version is numerically at or above 2.6.0. -/
def numericArchitecture (versions : List Version) : BackendArchitecture :=
  if ∃ v ∈ versions, ¬v.Below [2, 6, 0] then .split else .legacy

/-- Every place that a version decides something decides it by the numeric order. -/
structure OrderedNumerically (versions : List Version) : Prop where
  clientClass : ∀ v ∈ versions, wasabiClient v.text = numericClientClass v
  architecture :
    detectBackendArchitecture (versions.map Version.text) = numericArchitecture versions
  profile : ∀ v ∈ versions, ∀ anonScoreTarget redcoinIsolation,
    privacyProfile v.text anonScoreTarget redcoinIsolation =
      numericPrivacyProfile v anonScoreTarget redcoinIsolation
  resources : ∀ v ∈ versions, clientResources v.text = numericResources v
  start : ∀ v ∈ versions, ∀ engine idx wallet, engine.versions = versions.map Version.text →
    orElse wallet.version engine.defaultVersion = v.text →
    startClient engine idx (some wallet) = startRequest engine idx v.text
      (let configured := wallet.wasabi.getD (engine.defaultAnonScoreTarget,
        engine.defaultRedcoinIsolation)
      numericPrivacyProfile v configured.1 configured.2)
      (numericResources v) (numericArchitecture versions)
  rpc : ∀ v ∈ versions, ∀ host port wallet name, rpcUrl host port v.text wallet name =
    "http://" ++ host ++ ":" ++ toString port ++ "/" ++
      if v.Below [2, 0, 4] then "" else if wallet then orElse name walletName else ""
  settlement : ∀ v ∈ versions, ∀ (σ E : Type) (clock : Postmix.Clock σ)
    (client : Postmix.WasabiClient (Postmix.World σ E))
    (unspent : Postmix.Unspent (Postmix.World σ E)), client.version = v.text →
      client.waitForPostmixSettlement clock unspent =
        if v.Below [2, 6, 0] then pure ()
        else do
          let now ← Postmix.World.time clock
          client.settleLoop clock unspent (now + 300) "coinjoin has not stopped" 301

/-- The text of the version and its numbers are on the same side of the bound. -/
def Version.AgreesAt (v : Version) (bound : List (Fin 10)) : Prop :=
  TextBelow v.components bound ↔ v.Below bound

theorem Version.agreesAt_iff (v : Version) (bound : List (Fin 10)) :
    v.AgreesAt bound ↔ OrderedAsWritten v.components bound :=
  textBelow_iff_numericallyBelow_iff v.digits_ne bound

theorem Version.text_lt_iff (v : Version) {bound : List (Fin 10)} (hbound : bound ≠ [])
    {text : String} (htext : dotted (bound.map fun d => [d]) = text) :
    v.text < text ↔ TextBelow v.components bound := by
  rw [← htext]
  exact dotted_lt_dotted_iff v.components_ne hbound

section Bounds

variable (v : Version)

theorem text_lt_200 : v.text < "2.0.0" ↔ TextBelow v.components [2, 0, 0] :=
  v.text_lt_iff (by decide) (by decide)

theorem text_lt_203 : v.text < "2.0.3" ↔ TextBelow v.components [2, 0, 3] :=
  v.text_lt_iff (by decide) (by decide)

theorem text_lt_204 : v.text < "2.0.4" ↔ TextBelow v.components [2, 0, 4] :=
  v.text_lt_iff (by decide) (by decide)

theorem text_lt_260 : v.text < "2.6.0" ↔ TextBelow v.components [2, 6, 0] :=
  v.text_lt_iff (by decide) (by decide)

/-- What is below a bound is below every greater one, as a text and numerically. -/
theorem textBelow_mono {bound bound' : List (Fin 10)}
    (hle : bound.map (fun d => [digitChar d]) < bound'.map fun d => [digitChar d])
    (h : TextBelow v.components bound) : TextBelow v.components bound' :=
  List.lt_trans h hle

theorem below_mono {bound bound' : List (Fin 10)} (hle : bound.map Fin.val < bound'.map Fin.val)
    (h : v.Below bound) : v.Below bound' :=
  List.lt_trans h hle

theorem ge_iff_not_lt {version bound : String} : version ≥ bound ↔ ¬version < bound :=
  String.not_lt.symm

theorem wasabiClient_text : wasabiClient v.text =
    if v.text < "2.0.0" then WasabiClientClass.v1
    else if v.text < "2.0.4" then WasabiClientClass.v2
    else if v.text < "2.6.0" then WasabiClientClass.v204
    else WasabiClientClass.v26 := by
  rw [wasabiClient]
  by_cases h200 : v.text < "2.0.0"
  · rw [if_pos h200, if_pos h200]
  by_cases h204 : v.text < "2.0.4"
  · rw [if_neg h200, if_neg h200, if_pos ⟨ge_iff_not_lt.mpr h200, h204⟩, if_pos h204]
  by_cases h260 : v.text < "2.6.0"
  · rw [if_neg h200, if_neg h200, if_neg fun h => h204 h.2, if_neg h204,
      if_pos ⟨ge_iff_not_lt.mpr h204, h260⟩, if_pos h260]
  · rw [if_neg h200, if_neg h200, if_neg fun h => h204 h.2, if_neg h204,
      if_neg fun h => h260 h.2, if_neg h260]

end Bounds

/-- Two choices of a class by increasing bounds are the same exactly if the bounds agree. -/
theorem class_eq_class_iff {p₀ p₄ p₆ q₀ q₄ q₆ : Prop} [Decidable p₀] [Decidable p₄] [Decidable p₆]
    [Decidable q₀] [Decidable q₄] [Decidable q₆] (hp₀ : p₀ → p₄) (hp₄ : p₄ → p₆) (hq₀ : q₀ → q₄)
    (hq₄ : q₄ → q₆) :
    (if p₀ then WasabiClientClass.v1 else if p₄ then WasabiClientClass.v2
      else if p₆ then WasabiClientClass.v204 else WasabiClientClass.v26) =
    (if q₀ then WasabiClientClass.v1 else if q₄ then WasabiClientClass.v2
      else if q₆ then WasabiClientClass.v204 else WasabiClientClass.v26) ↔
    (p₀ ↔ q₀) ∧ (p₄ ↔ q₄) ∧ (p₆ ↔ q₆) := by
  grind

/-! ### Agreement at the bounds -/

section Agreement

variable {v : Version}

/-- The class is the numeric one exactly if text and numbers agree at its three bounds. -/
theorem wasabiClient_eq_iff : wasabiClient v.text = numericClientClass v ↔
    v.AgreesAt [2, 0, 0] ∧ v.AgreesAt [2, 0, 4] ∧ v.AgreesAt [2, 6, 0] := by
  have htext₀ : v.text < "2.0.0" → v.text < "2.0.4" := by
    rw [text_lt_200, text_lt_204]
    exact textBelow_mono v (by decide)
  have htext₄ : v.text < "2.0.4" → v.text < "2.6.0" := by
    rw [text_lt_204, text_lt_260]
    exact textBelow_mono v (by decide)
  have hbelow₀ : v.Below [2, 0, 0] → v.Below [2, 0, 4] := below_mono v (by decide)
  have hbelow₄ : v.Below [2, 0, 4] → v.Below [2, 6, 0] := below_mono v (by decide)
  rw [wasabiClient_text, numericClientClass]
  rw [class_eq_class_iff htext₀ htext₄ hbelow₀ hbelow₄]
  rw [text_lt_200, text_lt_204, text_lt_260]
  exact Iff.rfl

/-- The settings are the numeric ones exactly if text and numbers agree at both bounds. -/
theorem privacyProfile_eq (h203 : v.AgreesAt [2, 0, 3]) (h260 : v.AgreesAt [2, 6, 0])
    (anonScoreTarget : Option AnonScoreTarget) (redcoinIsolation : Option Bool) :
    privacyProfile v.text anonScoreTarget redcoinIsolation =
      numericPrivacyProfile v anonScoreTarget redcoinIsolation := by
  have hlt203 : v.text < "2.0.3" ↔ v.Below [2, 0, 3] := (text_lt_203 v).trans h203
  have hlt260 : v.text < "2.6.0" ↔ v.Below [2, 6, 0] := (text_lt_260 v).trans h260
  simp only [privacyProfile, numericPrivacyProfile, ge_iff_not_lt, hlt203, hlt260]
  by_cases hbelow : v.Below [2, 0, 3]
  · have hbelow₆ : v.Below [2, 6, 0] := below_mono v (by decide) hbelow
    cases anonScoreTarget <;> cases redcoinIsolation <;> simp [hbelow, hbelow₆]
  · by_cases hbelow₆ : v.Below [2, 6, 0]
    · simp [hbelow, hbelow₆]
    · cases anonScoreTarget <;> cases redcoinIsolation <;> simp [hbelow, hbelow₆]

/-- A score target that is given tells the two bounds of the settings apart. -/
theorem agreesAt_203_of_privacyProfile (h260 : v.AgreesAt [2, 6, 0])
    (h : privacyProfile v.text (some (.int 5)) none =
      numericPrivacyProfile v (some (.int 5)) none) : v.AgreesAt [2, 0, 3] := by
  have hlt260 : v.text < "2.6.0" ↔ v.Below [2, 6, 0] := (text_lt_260 v).trans h260
  have hmono : v.text < "2.0.3" → v.Below [2, 6, 0] := by
    rw [text_lt_203]
    intro hbelow
    exact h260.mp (textBelow_mono v (by decide) hbelow)
  have hmono' : v.Below [2, 0, 3] → v.Below [2, 6, 0] := below_mono v (by decide)
  show TextBelow v.components [2, 0, 3] ↔ v.Below [2, 0, 3]
  rw [← text_lt_203]
  simp only [privacyProfile, numericPrivacyProfile, ge_iff_not_lt, hlt260] at h
  constructor
  · intro hlt
    have hbelow₆ := hmono hlt
    apply Decidable.byContradiction
    intro hbelow
    simp [hlt, hbelow, hbelow₆] at h
  · intro hbelow
    have hbelow₆ := hmono' hbelow
    apply Decidable.byContradiction
    intro hlt
    simp [hlt, hbelow, hbelow₆] at h

theorem clientResources_eq (h204 : v.AgreesAt [2, 0, 4]) :
    clientResources v.text = numericResources v := by
  have hlt204 : v.text < "2.0.4" ↔ v.Below [2, 0, 4] := (text_lt_204 v).trans h204
  simp only [clientResources, numericResources, hlt204]
  split <;> rfl

theorem rpcUrl_eq (h204 : v.AgreesAt [2, 0, 4]) (host : String) (port : Nat) (wallet : Bool)
    (name : Option String) : rpcUrl host port v.text wallet name =
      "http://" ++ host ++ ":" ++ toString port ++ "/" ++
        if v.Below [2, 0, 4] then "" else if wallet then orElse name walletName else "" := by
  have hlt204 : v.text < "2.0.4" ↔ v.Below [2, 0, 4] := (text_lt_204 v).trans h204
  simp only [rpcUrl, rpcWallet, hlt204]
  by_cases hbelow : v.Below [2, 0, 4]
  · simp [hbelow]
  · simp [hbelow]

theorem waitForPostmixSettlement_eq (h260 : v.AgreesAt [2, 6, 0]) {σ E : Type}
    (clock : Postmix.Clock σ) (client : Postmix.WasabiClient (Postmix.World σ E))
    (unspent : Postmix.Unspent (Postmix.World σ E)) (hversion : client.version = v.text) :
    client.waitForPostmixSettlement clock unspent =
      if v.Below [2, 6, 0] then pure ()
      else (do
        let now ← Postmix.World.time clock
        client.settleLoop clock unspent (now + 300) "coinjoin has not stopped" 301) := by
  have hlt260 : v.text < "2.6.0" ↔ v.Below [2, 6, 0] := (text_lt_260 v).trans h260
  simp only [Postmix.WasabiClient.waitForPostmixSettlement, hversion, hlt260]

theorem detectBackendArchitecture_eq {versions : List Version}
    (h260 : ∀ v ∈ versions, v.AgreesAt [2, 6, 0]) :
    detectBackendArchitecture (versions.map Version.text) = numericArchitecture versions := by
  have hany : ((versions.map Version.text).any fun version => version ≥ "2.6.0") = true ↔
      ∃ v ∈ versions, ¬v.Below [2, 6, 0] := by
    rw [List.any_map, List.any_eq_true]
    constructor
    · rintro ⟨v, hv, hge⟩
      refine ⟨v, hv, ?_⟩
      rw [← (show _ ↔ _ from h260 v hv), ← text_lt_260, ← ge_iff_not_lt]
      exact of_decide_eq_true hge
    · rintro ⟨v, hv, hge⟩
      refine ⟨v, hv, decide_eq_true ?_⟩
      rw [ge_iff_not_lt, text_lt_260, (show _ ↔ _ from h260 v hv)]
      exact hge
  rw [detectBackendArchitecture, numericArchitecture]
  exact if_congr hany rfl rfl

/-- The places follow the numeric order exactly if the text of each version agrees with its numbers
at each bound. -/
theorem orderedNumerically_iff_agreesAt {versions : List Version} :
    OrderedNumerically versions ↔ ∀ v ∈ versions, ∀ bound ∈ bounds, v.AgreesAt bound := by
  constructor
  · intro h v hv bound hbound
    obtain ⟨h200, h204, h260⟩ := wasabiClient_eq_iff.mp (h.clientClass v hv)
    have h203 := agreesAt_203_of_privacyProfile h260 (h.profile v hv _ _)
    simp only [bounds, List.mem_cons, List.not_mem_nil, or_false] at hbound
    obtain rfl | rfl | rfl | rfl := hbound
    · exact h200
    · exact h203
    · exact h204
    · exact h260
  · intro h
    have h200 : ∀ v ∈ versions, v.AgreesAt [2, 0, 0] := fun v hv => h v hv _ (by decide)
    have h203 : ∀ v ∈ versions, v.AgreesAt [2, 0, 3] := fun v hv => h v hv _ (by decide)
    have h204 : ∀ v ∈ versions, v.AgreesAt [2, 0, 4] := fun v hv => h v hv _ (by decide)
    have h260 : ∀ v ∈ versions, v.AgreesAt [2, 6, 0] := fun v hv => h v hv _ (by decide)
    constructor
    case clientClass =>
      intro v hv
      exact wasabiClient_eq_iff.mpr ⟨h200 v hv, h204 v hv, h260 v hv⟩
    case architecture => exact detectBackendArchitecture_eq h260
    case profile =>
      intro v hv
      exact privacyProfile_eq (h203 v hv) (h260 v hv)
    case resources =>
      intro v hv
      exact clientResources_eq (h204 v hv)
    case start =>
      intro v hv engine idx wallet hversions hversion
      rw [startClient]
      simp only [hversion, hversions]
      rw [privacyProfile_eq (h203 v hv) (h260 v hv), clientResources_eq (h204 v hv),
        detectBackendArchitecture_eq h260]
    case rpc =>
      intro v hv
      exact rpcUrl_eq (h204 v hv)
    case settlement =>
      intro v hv σ E
      exact waitForPostmixSettlement_eq (h260 v hv)

end Agreement

/-- Every place that compares a version follows the numeric order exactly for the versions whose
components are ordered as they are written. -/
theorem orderedNumerically_iff (versions : List Version) :
    OrderedNumerically versions ↔
      ∀ v ∈ versions, ∀ bound ∈ bounds, OrderedAsWritten v.components bound := by
  rw [orderedNumerically_iff_agreesAt]
  simp only [Version.agreesAt_iff]

/-- The version `2.10.0`. -/
def twoTen : Version where
  components := [[2], [1, 0], [0]]
  components_ne := List.cons_ne_nil _ _
  digits_ne := by simp

/-- As a text `2.10.0` is below `2.6.0`: it gets the class of 2.0.4. -/
theorem not_orderedNumerically_twoTen :
    twoTen.text = "2.10.0" ∧ ¬twoTen.Below [2, 6, 0] ∧ ¬OrderedNumerically [twoTen] := by
  refine ⟨by decide, by decide, ?_⟩
  intro h
  have hclass : wasabiClient twoTen.text = numericClientClass twoTen :=
    h.clientClass twoTen (by simp)
  have htext : wasabiClient twoTen.text = .v204 := by decide
  have hnumeric : numericClientClass twoTen = .v26 := by decide
  rw [htext, hnumeric] at hclass
  cases hclass

/-! ### Which versions are ordered as written -/

/-- Versions with one digit a component are. -/
theorem orderedAsWritten_of_digits (digits bound : List (Fin 10)) :
    OrderedAsWritten (digits.map fun d => [d]) bound := by
  induction digits generalizing bound with
  | nil => trivial
  | cons d digits ih =>
    cases bound with
    | nil => trivial
    | cons digit bound =>
      rw [List.map_cons, OrderedAsWritten, decimal_singleton]
      by_cases hsame : d = digit
      · rw [if_pos (congrArg (fun d => [d]) hsame)]
        exact ih bound
      · have hval : (d : Nat) ≠ digit := fun h => hsame (Fin.ext h)
        rw [if_neg fun h => hsame (List.head_eq_of_cons_eq h), if_neg hval]
        exact Iff.rfl

/-- A component of several digits, without leading zeros, is greater than the digit of the bound,
which its first digit has to say. -/
theorem orderedAsWritten_of_several_digits {first : Fin 10} (hfirst : first ≠ 0) (next : Fin 10)
    (more : List (Fin 10)) (rest : List (List (Fin 10))) (digit : Fin 10)
    (bound : List (Fin 10)) :
    OrderedAsWritten ((first :: next :: more) :: rest) (digit :: bound) ↔ digit ≤ first := by
  have hten : 10 ≤ decimal (first :: next :: more) := ten_le_decimal hfirst next more
  have hdigit : (digit : Nat) < 10 := digit.isLt
  have hne : decimal (first :: next :: more) ≠ digit := by omega
  have hnot : ¬decimal (first :: next :: more) < digit := by omega
  rw [OrderedAsWritten, if_neg (by simp), if_neg hne]
  rw [List.headD_cons, iff_false_right hnot]
  exact Fin.not_lt

/-- Versions that are ordered get the split backend, the 2.6 class and the settlement wait for every
client that is numerically at or above 2.6.0. -/
theorem OrderedNumerically.split {versions : List Version} (h : OrderedNumerically versions)
    {v : Version} (hv : v ∈ versions) (hge : ¬v.Below [2, 6, 0]) {σ E : Type}
    (clock : Postmix.Clock σ) (client : Postmix.WasabiClient (Postmix.World σ E))
    (unspent : Postmix.Unspent (Postmix.World σ E)) (hversion : client.version = v.text) :
    detectBackendArchitecture (versions.map Version.text) = .split ∧
      wasabiClient v.text = .v26 ∧
      client.waitForPostmixSettlement clock unspent = (do
        let now ← Postmix.World.time clock
        client.settleLoop clock unspent (now + 300) "coinjoin has not stopped" 301) := by
  have h204 : ¬v.Below [2, 0, 4] := fun hbelow => hge (below_mono v (by decide) hbelow)
  have h200 : ¬v.Below [2, 0, 0] := fun hbelow => h204 (below_mono v (by decide) hbelow)
  refine ⟨?_, ?_, ?_⟩
  · rw [h.architecture, numericArchitecture]
    exact if_pos ⟨v, hv, hge⟩
  · rw [h.clientClass v hv, numericClientClass]
    rw [if_neg h200, if_neg h204, if_neg hge]
  · rw [h.settlement v hv σ E clock client unspent hversion]
    exact if_neg hge

end CoinjoinEmulator.WasabiVersions
