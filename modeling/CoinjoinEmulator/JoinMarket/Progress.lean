import CoinjoinEmulator.JoinMarket.Simulation

/-! What the calls and the updates of a JoinMarket run leave of the clients and of the round
counter. -/

namespace CoinjoinEmulator

open ProofKit JoinMarketClientServer RoundEventRecord

/-! ### The clients -/

/-- An event stays with its taker; once confirmed it stays confirmed, by the same matches. -/
structure EventProgress (event event' : RoundEvent) : Prop where
  taker_eq : event'.get "taker" = event.get "taker"
  confirmed : hasStatus .confirmed event = true →
    hasStatus .confirmed event' = true ∧ destinationMatches event' = destinationMatches event

theorem EventProgress.refl (event : RoundEvent) : EventProgress event event :=
  ⟨rfl, fun h => ⟨h, rfl⟩⟩

theorem EventProgress.trans {event event' event'' : RoundEvent} (h : EventProgress event event')
    (h' : EventProgress event' event'') : EventProgress event event'' := by
  refine ⟨h'.taker_eq.trans h.taker_eq, fun hconfirmed => ?_⟩
  obtain ⟨hconfirmed', hmatches⟩ := h.confirmed hconfirmed
  obtain ⟨hconfirmed'', hmatches'⟩ := h'.confirmed hconfirmed'
  exact ⟨hconfirmed'', hmatches'.trans hmatches⟩

/-- An event is recorded under a name. -/
def RecordedBy (name : String) (event : RoundEvent) : Prop := event.get "taker" = some (.str name)

theorem RecordedBy.progress {name : String} {event event' : RoundEvent} (h : RecordedBy name event)
    (hprogress : EventProgress event event') : RecordedBy name event' :=
  hprogress.taker_eq.trans h

/-- A client recorded its attempts under its own name. -/
def OwnEvents (client : JoinMarketClientServer) : Prop :=
  ∀ event ∈ client.roundEvents, RecordedBy client.name event

/-- The settings and the events stay, and new events are recorded under the client's name. -/
structure ClientProgress (client client' : JoinMarketClientServer) : Prop where
  settings : SameSettings client client'
  events : Grows EventProgress (RecordedBy client.name) client.roundEvents client'.roundEvents

theorem ClientProgress.refl (client : JoinMarketClientServer) : ClientProgress client client :=
  ⟨.refl client, .of_forall₂ (List.forall₂_same.mpr fun event _ => .refl event)⟩

theorem ClientProgress.trans {client client' client'' : JoinMarketClientServer}
    (h : ClientProgress client client') (h' : ClientProgress client' client'') :
    ClientProgress client client'' := by
  have hlater := h'.events
  rw [h.settings.name_eq] at hlater
  exact ⟨h.settings.trans h'.settings, h.events.trans (fun _ _ _ => .trans)
    (fun _ _ => .progress) hlater⟩

theorem ClientProgress.confirmedRounds_le {client client' : JoinMarketClientServer}
    (h : ClientProgress client client') : client.confirmedRounds ≤ client'.confirmedRounds :=
  h.events.countP_le fun _ _ hevent hconfirmed => (hevent.confirmed hconfirmed).1

theorem ClientProgress.own {client client' : JoinMarketClientServer}
    (h : ClientProgress client client') (hown : OwnEvents client) : OwnEvents client' := by
  intro event' hevent'
  rw [h.settings.name_eq]
  obtain ⟨event, hevent, hprogress⟩ | hnew := h.events.mem_right hevent'
  · exact (hown event hevent).progress hprogress
  · exact hnew

theorem ClientProgress.of_onlyEvents {client client' : JoinMarketClientServer}
    (h : JoinmarketEngine.OnlyEvents (List.Forall₂ EventProgress) client client') :
    ClientProgress client client' := by
  obtain ⟨roundEvents', rfl, hevents⟩ := h
  exact ⟨⟨rfl, rfl, rfl, rfl, rfl⟩, .of_forall₂ hevents⟩

theorem ClientProgress.of_updated {K : Type} {block round : Int} {s s' : FleetState K}
    (h : Updated block round s s') : ClientProgress s.client s'.client := by
  refine ⟨h.onTime.client, ?_⟩
  obtain hsame | ⟨event, hevents, -, htaker⟩ := h.records
  · rw [hsame]
    exact (ClientProgress.refl s.client).events
  · rw [hevents]
    exact .append_singleton (fun event _ => .refl event) htaker

/-! ### The engine -/

namespace JoinmarketEngine

/-- The round counter is behind the confirmed rounds. -/
def Counted (engine : JoinmarketEngine) : Prop :=
  engine.currentRound ≤ countConfirmedRounds engine.liveRoundEvents

/-- Every client makes progress, and the round counter does not go back. -/
structure Progress (engine engine' : JoinmarketEngine) : Prop where
  clients : engine.clients.Forall₂ ClientProgress engine'.clients
  counted : engine.Counted → engine.currentRound ≤ engine'.currentRound ∧ engine'.Counted

theorem countConfirmedRounds_mono {clients clients' : List JoinMarketClientServer}
    (h : clients.Forall₂ ClientProgress clients') :
    countConfirmedRounds (clients.map roundEvents).flatten ≤
      countConfirmedRounds (clients'.map roundEvents).flatten := by
  induction h with
  | nil => exact Nat.le_refl _
  | cons hclient _ ih =>
    have hconfirmed : List.countP _ _ ≤ List.countP _ _ := hclient.confirmedRounds_le
    simp only [countConfirmedRounds, List.map_cons, List.flatten_cons, List.countP_append] at ih ⊢
    omega

theorem Progress.of_clients {engine engine' : JoinmarketEngine}
    (h : engine.clients.Forall₂ ClientProgress engine'.clients)
    (hround : engine'.currentRound = engine.currentRound) : Progress engine engine' := by
  refine ⟨h, fun hcounted => ⟨Nat.le_of_eq hround.symm, ?_⟩⟩
  have hmono := countConfirmedRounds_mono h
  show engine'.currentRound ≤ _
  rw [hround]
  exact Nat.le_trans hcounted hmono

instance : Std.Refl Progress :=
  ⟨fun _ => .of_clients (List.forall₂_same.mpr fun client _ => .refl client) rfl⟩

theorem forall₂_clientProgress_trans {clients clients' clients'' : List JoinMarketClientServer}
    (h : clients.Forall₂ ClientProgress clients') (h' : clients'.Forall₂ ClientProgress clients'') :
    clients.Forall₂ ClientProgress clients'' := by
  induction h generalizing clients'' with
  | nil => exact h'
  | cons hclient _ ih =>
    cases h' with
    | cons hclient' hrest' => exact .cons (hclient.trans hclient') (ih hrest')

instance : IsTrans JoinmarketEngine Progress where
  trans _ _ _ h h' := by
    refine ⟨forall₂_clientProgress_trans h.clients h'.clients, fun hcounted => ?_⟩
    obtain ⟨hle, hcounted'⟩ := h.counted hcounted
    obtain ⟨hle', hcounted''⟩ := h'.counted hcounted'
    exact ⟨hle.trans hle', hcounted''⟩

theorem not_confirmed {event : RoundEvent} (hstarted : hasStatus .started event = true) :
    ¬hasStatus .confirmed event = true := by
  rw [hasStatus_iff] at hstarted ⊢
  rw [hstarted]
  decide

theorem eventProgress_scan (events : List RoundEvent) (paid : List Payment) (event : RoundEvent) :
    EventProgress event (scanEvent events paid event) := by
  unfold scanEvent
  split
  · rename_i hstarted
    exact ⟨get_reconcileEvent (by decide) _ _ _, fun h => absurd h (not_confirmed hstarted)⟩
  · exact .refl event

theorem eventProgress_mark {takerName : String} (reason : String) (block : Int) {event : RoundEvent}
    (hpending : isPendingOf takerName event = true) :
    EventProgress event (markRoundFailed reason block event) := by
  have hstarted : hasStatus .started event = true := (Bool.and_eq_true_iff.mp hpending).1
  exact ⟨get_markRoundFailed (by decide) _ _ _, fun h => absurd h (not_confirmed hstarted)⟩

theorem eventProgress_read (event : RoundEvent) :
    EventProgress event (persistDestinationMatches event) := by
  refine ⟨get_persistDestinationMatches (by decide) event, fun h => ⟨?_, ?_⟩⟩
  · rw [hasStatus_iff] at h ⊢
    rw [status_persistDestinationMatches]
    exact h
  · exact destinationMatches_persistDestinationMatches event

theorem forall₂_of_onlyEvents {engine engine' : JoinmarketEngine}
    (h : engine.clients.Forall₂ (OnlyEvents (List.Forall₂ EventProgress)) engine'.clients) :
    engine.clients.Forall₂ ClientProgress engine'.clients :=
  h.imp fun _ _ => .of_onlyEvents

theorem currentRound_onLiveEvents {α : Type} (loop : Reconcile α) (engine : JoinmarketEngine) :
    (stateAfter (onLiveEvents loop) engine).currentRound = engine.currentRound := by
  cases hrun : loop.run engine.liveRoundEvents with
  | ok a events => rw [stateAfter_of_ok (run_onLiveEvents_ok hrun)]; rfl
  | error error events => rw [stateAfter_of_error (run_onLiveEvents_error hrun)]; rfl

theorem progress_mark (takerName reason : String) (block : Int) :
    Keeps Progress (markTakerRoundFailed takerName reason block) := fun engine =>
  .of_clients (forall₂_of_onlyEvents (onlyEvents_mark engine takerName reason block
    EventProgress.refl fun _ => eventProgress_mark reason block))
    (currentRound_onLiveEvents _ engine)

theorem progress_read : Keeps Progress (onLiveEvents confirmedCoinjoinTxids) := fun engine =>
  .of_clients (forall₂_of_onlyEvents (onlyEvents_read engine eventProgress_read))
    (currentRound_onLiveEvents _ engine)

/-- A scan sets the round counter to the confirmed rounds, or leaves it. -/
theorem progress_scan (source : BlockSource) :
    Keeps Progress (confirmStartedRounds (some source)) := by
  intro engine
  have hclients := forall₂_of_onlyEvents (onlyEvents_scan engine (some source) EventProgress.refl
    fun _ _ _ event => eventProgress_scan engine.liveRoundEvents _ event)
  have houtcome := run_confirmStartedRounds source engine
  simp only [stateAfter] at hclients ⊢
  generalize (confirmStartedRounds (some source)).run engine = result at houtcome hclients ⊢
  cases houtcome with
  | noCount error _ => exact .of_clients hclients rfl
  | aborted tip paid error _ _ => exact .of_clients hclients rfl
  | completed tip paid engine' _ _ _ _ hround =>
    refine ⟨hclients, fun hcounted => ?_⟩
    have hmono : countConfirmedRounds engine.liveRoundEvents ≤
        countConfirmedRounds engine'.liveRoundEvents := countConfirmedRounds_mono hclients
    show _ ≤ engine'.currentRound ∧ engine'.currentRound ≤ _
    rw [hround]
    exact ⟨Nat.le_trans hcounted hmono, Nat.le_refl _⟩

/-- Changing one client by a step of progress. -/
theorem progress_modifyClient {engine : JoinmarketEngine} {i : Nat}
    {client client' : JoinMarketClientServer} (hi : engine.clients[i]? = some client)
    (h : ClientProgress client client') :
    Progress engine (engine.modifyClient i fun _ => client') := by
  refine .of_clients (forall₂_modify (fun c _ => .refl c) fun c hc => ?_) rfl
  rw [hi] at hc
  cases hc
  exact h

end JoinmarketEngine

end CoinjoinEmulator
