import CoinjoinEmulator.JoinMarket.Run
import CoinjoinEmulator.ProofKit.Commute

/-! The synchronous and the asynchronous pass over the clients of a JoinMarket run. -/

namespace CoinjoinEmulator

open ProofKit JoinMarketClientServer

/-! ### Marking a timed-out attempt -/

theorem run_markLatest (taker reason : String) (stopBlock : Int) (events : List RoundEvent) :
    ∃ marked, (markLatestStartedRoundFailed taker reason stopBlock).run events = .ok marked
      (modifyLast (isPendingOf taker) (markRoundFailed reason stopBlock) events) := by
  unfold modifyLast
  simp only [markLatestStartedRoundFailed, EStateM.run_bind, EStateM.run_get]
  cases (List.range events.length).reverse.find?
      fun ref => events[ref]?.any (isPendingOf taker) with
  | none => exact ⟨none, rfl⟩
  | some ref => exact ⟨_, rfl⟩

namespace JoinmarketEngine

/-- The client after the engine has marked the latest attempt of a taker. -/
def markClient (taker reason : String) (stopBlock : Int) (client : JoinMarketClientServer) :
    JoinMarketClientServer :=
  if client.name = taker then
    { client with roundEvents :=
        modifyLast (isPendingOf taker) (markRoundFailed reason stopBlock) client.roundEvents }
  else client

theorem markClient_of_ne {taker reason : String} {stopBlock : Int}
    {client : JoinMarketClientServer} (h : client.name ≠ taker) :
    markClient taker reason stopBlock client = client := if_neg h

theorem not_pending_of_own {client : JoinMarketClientServer} (hown : OwnEvents client)
    {taker : String} (h : client.name ≠ taker) :
    ∀ event ∈ client.roundEvents, isPendingOf taker event = false := by
  intro event hevent
  have htaker : ((event.get "taker").bind Value.asStr) = some client.name := by
    rw [hown event hevent]
    rfl
  rw [isPendingOf, htaker, Bool.and_eq_false_iff]
  exact .inr (decide_eq_false fun hsame => h (Option.some.inj hsame))

theorem modifyLast_events {taker reason : String} {stopBlock : Int}
    {clients : List JoinMarketClientServer} (hown : ∀ client ∈ clients, OwnEvents client)
    (hnames : (clients.map JoinMarketClientServer.name).Nodup) :
    modifyLast (isPendingOf taker) (markRoundFailed reason stopBlock)
        (clients.map roundEvents).flatten =
      ((clients.map (markClient taker reason stopBlock)).map roundEvents).flatten := by
  induction clients with
  | nil => rfl
  | cons client rest ih =>
    rw [List.map_cons, List.nodup_cons] at hnames
    have hrest := ih (fun c hc => hown c (List.mem_cons_of_mem _ hc)) hnames.2
    simp only [List.map_cons, List.flatten_cons]
    by_cases hname : client.name = taker
    · have hothers : ∀ c ∈ rest, c.name ≠ taker := fun c hc hsame =>
        hnames.1 (hname.trans hsame.symm ▸ List.mem_map.mpr ⟨c, hc, rfl⟩)
      have hnone : ∀ event ∈ (rest.map roundEvents).flatten, isPendingOf taker event = false := by
        intro event hevent
        obtain ⟨events, hevents, hmem⟩ := List.mem_flatten.mp hevent
        obtain ⟨c, hc, rfl⟩ := List.mem_map.mp hevents
        exact not_pending_of_own (hown c (List.mem_cons_of_mem _ hc)) (hothers c hc) event hmem
      have hsame : rest.map (markClient taker reason stopBlock) = rest :=
        (List.map_congr_left fun c hc => markClient_of_ne (hothers c hc)).trans (List.map_id rest)
      rw [modifyLast_append_left hnone, hsame, markClient, if_pos hname]
    · have hnone := not_pending_of_own (hown client List.mem_cons_self) hname
      rw [modifyLast_append_right hnone, hrest, markClient_of_ne hname]

/-- Writing the events of changed clients back changes the clients. -/
theorem zipWith_splitLengths {g : JoinMarketClientServer → JoinMarketClientServer}
    (hg : ∀ client, { client with roundEvents := (g client).roundEvents } = g client)
    (hlength : ∀ client, (g client).roundEvents.length = client.roundEvents.length)
    (clients : List JoinMarketClientServer) :
    List.zipWith (fun client roundEvents => { client with roundEvents := roundEvents }) clients
      (((clients.map roundEvents).map List.length).splitLengths
        ((clients.map g).map roundEvents).flatten) = clients.map g := by
  induction clients with
  | nil => rfl
  | cons client rest ih =>
    simp only [List.map_cons, List.flatten_cons, List.splitLengths_cons, List.zipWith_cons_cons]
    rw [← hlength client, List.take_left, List.drop_left, hg client, ih]

/-- Marking changes the client of the taker only. -/
theorem run_markTakerRoundFailed (taker reason : String) (stopBlock : Int)
    {engine : JoinmarketEngine} (hown : ∀ client ∈ engine.clients, OwnEvents client)
    (hnames : (engine.clients.map JoinMarketClientServer.name).Nodup) :
    ∃ marked, (markTakerRoundFailed taker reason stopBlock).run engine = .ok marked
      { engine with clients := engine.clients.map (markClient taker reason stopBlock) } := by
  obtain ⟨marked, hrun⟩ := run_markLatest taker reason stopBlock engine.liveRoundEvents
  have hevents : engine.withRoundEvents (modifyLast (isPendingOf taker)
      (markRoundFailed reason stopBlock) engine.liveRoundEvents) =
        { engine with clients := engine.clients.map (markClient taker reason stopBlock) } := by
    show engine.withRoundEvents (modifyLast _ _ (engine.clients.map roundEvents).flatten) = _
    rw [modifyLast_events hown hnames, withRoundEvents]
    congr 1
    refine zipWith_splitLengths (fun client => ?_) (fun client => ?_) engine.clients
    · unfold markClient
      split <;> rfl
    · unfold markClient
      split
      · exact length_modifyLast _ _ _
      · rfl
  exact ⟨marked, by rw [markTakerRoundFailed, run_onLiveEvents_ok hrun, hevents]⟩

end JoinmarketEngine

namespace JoinmarketRun

open Postmix JoinmarketEngine

variable {σ K : Type} {clock : Clock σ}

/-! ### The marks of a pass -/

/-- The clients have these names, and recorded their attempts under them. -/
structure Named (names : List String) (w : SiteWorld σ K) : Prop where
  names_eq : w.inner.engine.clients.map JoinMarketClientServer.name = names
  own : ∀ client ∈ w.inner.engine.clients, OwnEvents client

theorem Named.progress {names : List String} {w w' : SiteWorld σ K} (h : Named names w)
    (hprogress : Progress w.inner.engine w'.inner.engine) : Named names w' := by
  refine ⟨?_, fun client' hclient' => ?_⟩
  · rw [← h.names_eq]
    have hclients := hprogress.clients
    generalize w.inner.engine.clients = before at hclients
    generalize w'.inner.engine.clients = after at hclients
    induction hclients with
    | nil => rfl
    | cons hclient _ ih => rw [List.map_cons, List.map_cons, hclient.settings.name_eq, ih]
  · obtain ⟨client, hclient, hchange⟩ := forall₂_mem_right hprogress.clients hclient'
    exact hchange.own (h.own client hclient)

/-- The world after the latest attempt of a taker is marked as timed out. -/
def World.mark (taker : String) (block : Int) (w : SiteWorld σ K) : SiteWorld σ K :=
  World.setEngine w { w.inner.engine with
    clients := w.inner.engine.clients.map (markClient taker "coinjoin attempt timed out" block) }

/-- The world after the result of an update has been looked at. -/
def World.marked (names : List String) (block : Int) (i : Nat) (delta : Int) (w : SiteWorld σ K) :
    SiteWorld σ K :=
  if delta < 0 then
    match names[i]? with
    | some taker => World.mark taker block w
    | none => w
  else w

theorem run_markTimeout {names : List String} (hnames : names.Nodup) {w : SiteWorld σ K}
    (hw : Named names w) (block : Int) (i : Nat) (delta : Int) :
    (markTimeout block i delta).run w = .ok () (World.marked names block i delta w) := by
  unfold markTimeout World.marked
  by_cases hdelta : delta < 0
  · rw [if_pos hdelta, if_pos hdelta]
    simp only [EStateM.run_bind, EStateM.run_get]
    have hi : names[i]? = w.inner.engine.clients[i]?.map JoinMarketClientServer.name := by
      rw [← hw.names_eq, List.getElem?_map]
    cases hclient : w.inner.engine.clients[i]? with
    | none =>
      rw [hclient] at hi
      rw [hi]
      rfl
    | some client =>
      rw [hclient] at hi
      obtain ⟨marked, hrun⟩ := run_markTakerRoundFailed client.name
        "coinjoin attempt timed out" block hw.own (hw.names_eq.symm ▸ hnames)
      rw [hi]
      simp only [EStateM.run_bind, onEngine, run_zoom, hrun]
      rfl
  · rw [if_neg hdelta, if_neg hdelta]
    rfl

theorem returns_markTimeout {names : List String} (hnames : names.Nodup) (block : Int) (i : Nat)
    (delta : Int) : Returns (Named names) (markTimeout (σ := σ) (K := K) block i delta) := by
  intro w hw
  have hbetween := between_markTimeout block i delta w
  refine ⟨(), World.marked names block i delta w, run_markTimeout hnames hw block i delta, ?_⟩
  rw [stateAfter_of_ok (run_markTimeout hnames hw block i delta)] at hbetween
  exact hw.progress hbetween.progress

/-! ### Marks and updates of different clients -/

theorem map_markClient_modify {taker reason : String} {stopBlock : Int} {j : Nat}
    {client' : JoinMarketClientServer} (h : client'.name ≠ taker)
    (clients : List JoinMarketClientServer) :
    (clients.map (markClient taker reason stopBlock)).modify j (fun _ => client') =
      (clients.modify j fun _ => client').map (markClient taker reason stopBlock) := by
  apply List.ext_getElem?
  intro k
  simp only [List.getElem?_modify, List.getElem?_map]
  cases clients[k]? with
  | none => rfl
  | some client =>
    by_cases hk : j = k
    · simp [hk, markClient_of_ne h]
    · simp [hk]

/-- An update of a client that is not the taker, before and after the mark. -/
theorem afterUpdate_mark {taker : String} {block : Int} {j : Nat} {s : FleetState K}
    (h : s.client.name ≠ taker) (program : σ → ClientAnswers K × σ) (w : SiteWorld σ K) :
    World.afterUpdate (World.asked clock program (World.mark taker block w)) j block s =
      World.mark taker block (World.afterUpdate (World.asked clock program w) j block s) := by
  have hmodify : ∀ clients : List JoinMarketClientServer, (clients.map (markClient taker
      "coinjoin attempt timed out" block)).modify j (fun _ => s.client) =
        (clients.modify j fun _ => s.client).map (markClient taker
          "coinjoin attempt timed out" block) := map_markClient_modify h
  simp only [World.afterUpdate, World.asked, World.mark, World.setEngine, modifyClient,
    Postmix.World.reach, siteClock, hmodify]

variable [DecidableEq K] {n : Nat} {parties : Parties σ K n} {names : List String} {block : Int}

theorem run_updateAt_none (path : UpdatePath) {w : SiteWorld σ K} {i : Nat}
    (hi : w.inner.engine.clients[i]? = none) :
    (updateAt clock parties path block i).run w = .ok 0 w := by
  simp only [updateAt, EStateM.run_bind, EStateM.run_get, hi]
  rfl

/-- An update does not see the mark of another client. -/
theorem commutes_mark_updateAt (path : UpdatePath) {taker : String} {j : Nat}
    (hj : names[j]? ≠ some taker) :
    Commutes (Named names) (World.mark taker block) (updateAt clock parties path block j) := by
  intro w hw
  have hmarked : (World.mark taker block w).inner.engine.clients[j]? =
      w.inner.engine.clients[j]?.map (markClient taker "coinjoin attempt timed out" block) :=
    List.getElem?_map
  cases hclient : w.inner.engine.clients[j]? with
  | none =>
    rw [hclient] at hmarked
    rw [run_updateAt_none path hclient, run_updateAt_none path hmarked]
    rfl
  | some client =>
    have hname : client.name ≠ taker := by
      intro hsame
      apply hj
      rw [← hw.names_eq, List.getElem?_map, hclient, Option.map_some, hsame]
    rw [hclient, Option.map_some, markClient_of_ne hname] at hmarked
    rw [run_updateAt path hclient, run_updateAt path hmarked]
    have hupdated : Updated block w.inner.engine.currentRound ⟨client, w.inner.tumblers j, []⟩
        (stateAfter (updateClient path (parties.classOf j) (parties.answers j w.inner.outside).1
          block w.inner.engine.currentRound) ⟨client, w.inner.tumblers j, []⟩) :=
      updated_updateClient path (parties.classOf j) _
    have hkept := hupdated.onTime.client.name_eq
    rw [stateAfter] at hkept
    have houtside : (World.mark taker block w).inner.outside = w.inner.outside := rfl
    have hround : (World.mark taker block w).inner.engine.currentRound =
      w.inner.engine.currentRound := rfl
    have htumblers : (World.mark taker block w).inner.tumblers = w.inner.tumblers := rfl
    rw [houtside, hround, htumblers]
    cases hrun : (updateClient path (parties.classOf j) (parties.answers j w.inner.outside).1
        block w.inner.engine.currentRound).run ⟨client, w.inner.tumblers j, []⟩ with
    | ok delta s =>
      rw [hrun] at hkept
      have hother : s.client.name ≠ taker := hkept.trans_ne hname
      exact congrArg (EStateM.Result.ok delta) (afterUpdate_mark hother _ w)
    | error error s =>
      rw [hrun] at hkept
      have hother : s.client.name ≠ taker := hkept.trans_ne hname
      exact congrArg (EStateM.Result.error error) (afterUpdate_mark hother _ w)

theorem returns_observing_updateAt {i : Nat} (hi : i < names.length) :
    Returns (Named names) (observing (updateAt clock parties .async block i)) := by
  apply returns_observing
  intro w hw
  rw [← hw.names_eq, List.length_map] at hi
  have htold : ∃ sent, Told w.inner.engine.clients block [(i, sent)] w
      (stateAfter (updateAt clock parties .async block i) w) :=
    told_updateAt .async (settled_self w) hi
  obtain ⟨sent, htold⟩ := htold
  exact hw.progress htold.progress

theorem returns_updateClientAsync {i : Nat} (hi : i < names.length) :
    Returns (Named names) (updateClientAsync clock parties block i) :=
  (returns_observing_updateAt hi).bind fun r => by cases r <;> exact .pure _

theorem commutes_updateClientAsync (hnames : names.Nodup) {i j : Nat} (hij : i ≠ j)
    (hj : j < names.length) (delta : Int) :
    Commutes (Named names) (stateAfter (markTimeout (σ := σ) (K := K) block i delta))
      (updateClientAsync clock parties block j) := by
  have hmarked : Commutes (Named names) (World.marked names block i delta)
      (updateClientAsync clock parties block j) := by
    unfold World.marked
    split
    · cases hi : names[i]? with
      | none => exact .same _
      | some taker =>
        have hother : names[j]? ≠ some taker := by
          rw [← hi]
          exact fun hsame => hij ((List.getElem?_inj hj hnames).mp hsame).symm
        have hupdate : Commutes (Named names) (World.mark taker block)
            (observing (updateAt clock parties .async block j)) :=
          (commutes_mark_updateAt .async hother).observing
        have hreturns : Returns (Named names) (observing (updateAt clock parties .async block j)) :=
          returns_observing_updateAt hj
        exact hupdate.bind hreturns fun r => by cases r <;> exact .pure _
    · exact .same _
  refine hmarked.congr (returns_updateClientAsync hj) fun w hw => ?_
  exact (stateAfter_of_ok (run_markTimeout hnames hw block i delta)).symm

/-! ### The two passes -/

/-- Both copies of the next update of a client do the same: its service answers with a session
object, and a paused taker is not in the timeout of a running attempt. -/
def CopiesAgree (parties : Parties σ K n) (block : Int) (i : Nat) (w : SiteWorld σ K) : Prop :=
  ∀ client ∈ w.inner.engine.clients[i]?,
    ∃ status ∈ (parties.answers i w.inner.outside).1.sessionObject,
      parties.classOf i = .taker →
        ¬PausedInTimeout status client block w.inner.engine.currentRound

instance (parties : Parties σ K n) (block : Int) (i : Nat) (w : SiteWorld σ K) :
    Decidable (CopiesAgree parties block i w) :=
  inferInstanceAs (Decidable (∀ client ∈ w.inner.engine.clients[i]?,
    ∃ status ∈ (parties.answers i w.inner.outside).1.sessionObject, parties.classOf i = .taker →
      ¬PausedInTimeout status client block w.inner.engine.currentRound))

theorem run_updateAt_async {w : SiteWorld σ K} {i : Nat} (h : CopiesAgree parties block i w) :
    (updateAt clock parties .async block i).run w =
      (updateAt clock parties .sync block i).run w := by
  cases hclient : w.inner.engine.clients[i]? with
  | none => rw [run_updateAt_none .async hclient, run_updateAt_none .sync hclient]
  | some client =>
    obtain ⟨status, hsession, htimeout⟩ := h client hclient
    rw [run_updateAt .async hclient, run_updateAt .sync hclient, updateClient_async
      (ClientAnswers.session_of_mem hsession) (parties.classOf i) htimeout]

theorem run_updateAndMark (hnames : names.Nodup) {w : SiteWorld σ K} (hw : Named names w) {i : Nat}
    (hi : i < names.length) (h : CopiesAgree parties block i w) :
    (updateAndMark clock parties block i).run w = (do
      let delta ← updateClientAsync clock parties block i
      markTimeout block i delta).run w := by
  have hreturns : Returns (Named names) (updateClientAsync clock parties block i) :=
    returns_updateClientAsync hi
  obtain ⟨delta', w', hreturns, hw'⟩ := hreturns w hw
  simp only [updateAndMark, updateClientAsync, EStateM.run_bind, run_observing,
    run_updateAt_async h] at hreturns ⊢
  cases hrun : (updateAt clock parties .sync block i).run w with
  | ok delta w₁ =>
    rw [hrun] at hreturns
    cases hreturns
    simp only [run_markTimeout hnames hw' block i delta', EStateM.run_pure]
  | error error w₁ =>
    rw [hrun] at hreturns
    cases hreturns
    simp only [run_markTimeout hnames hw' block i 0, EStateM.run_pure]
    rfl

/-- The marks after all updates agree with the marks after each of them. -/
theorem run_updateClients_async (hnames : names.Nodup) {w : SiteWorld σ K} (hw : Named names w)
    {order : List Nat} (horder : order.Nodup) (hlt : ∀ i ∈ order, i < names.length)
    (h : Along (CopiesAgree parties block) (updateAndMark clock parties block) order w) :
    (updateClients clock parties .async block order).run w =
      (updateClients clock parties .sync block order).run w := by
  refine run_mapM_later (fun i hi => returns_updateClientAsync (hlt i hi))
    (fun i _ delta => returns_markTimeout hnames block i delta)
    (fun i hi w hw hagree => run_updateAndMark hnames hw (hlt i hi) hagree) ?_ hw h
  refine (List.Pairwise.and_mem.mp horder).imp fun {i j} hpair delta => ?_
  exact commutes_updateClientAsync hnames hpair.2.2 (hlt j hpair.2.1) delta

section Pass

variable (clock : Clock σ) (parties : Parties σ K n) (limits : Limits) (node : Node σ)

/-- Both copies agree for each client of the pass, if the scan returns and the round limit is not
reached. -/
def PassAgrees (block : Int) (w : SiteWorld σ K) : Prop :=
  IfReturns (confirmStartedRounds clock node) (fun _ scanned =>
    limits.roundLimitReached scanned.inner.engine.currentRound = false →
      Along (CopiesAgree parties block) (updateAndMark clock parties block)
        (List.range scanned.inner.engine.clients.length) scanned) w

instance (block : Int) (w : SiteWorld σ K) :
    Decidable (PassAgrees clock parties limits node block w) :=
  decidableIfReturns _ _

/-- Both copies agree in the pass of a round of the loop. -/
def TurnAgrees (initialBlock : Int) (simulation : Simulation σ K n) : Prop :=
  PassAgrees clock parties limits node
    (stateAfter (beforeUpdates clock parties node initialBlock) simulation).currentBlock
    (stateAfter (beforeUpdates clock parties node initialBlock) simulation).world

instance (initialBlock : Int) (simulation : Simulation σ K n) :
    Decidable (TurnAgrees clock parties limits node initialBlock simulation) :=
  inferInstanceAs (Decidable (PassAgrees _ _ _ _ _ _))

/-- Both copies agree in each pass of the synchronous loop, while it goes on. -/
def LoopAgrees (initialBlock : Int) : Nat → Simulation σ K n → Prop
  | 0, _ => True
  | fuel + 1, simulation =>
    limits.goesOn simulation.currentBlock simulation.currentRound = true →
      TurnAgrees clock parties limits node initialBlock simulation ∧
        LoopAgrees initialBlock fuel
          (stateAfter (turn clock parties limits .sync node initialBlock) simulation)

instance decidableLoopAgrees (initialBlock : Int) :
    ∀ (fuel : Nat) (simulation : Simulation σ K n),
      Decidable (LoopAgrees clock parties limits node initialBlock fuel simulation)
  | 0, _ => isTrue trivial
  | fuel + 1, simulation =>
    have := decidableLoopAgrees initialBlock fuel
      (stateAfter (turn clock parties limits .sync node initialBlock) simulation)
    inferInstanceAs (Decidable (limits.goesOn simulation.currentBlock simulation.currentRound =
      true → TurnAgrees clock parties limits node initialBlock simulation ∧
        LoopAgrees clock parties limits node initialBlock fuel
          (stateAfter (turn clock parties limits .sync node initialBlock) simulation)))

end Pass

theorem run_updateCoinjoinsJoinmarket_async (hnames : names.Nodup) {limits : Limits} {node : Node σ}
    {w : SiteWorld σ K} (hw : Named names w) (h : PassAgrees clock parties limits node block w) :
    (updateCoinjoinsJoinmarket clock parties limits .async node block).run w =
      (updateCoinjoinsJoinmarket clock parties limits .sync node block).run w := by
  have hscanned : Named names (stateAfter (confirmStartedRounds clock node) w) :=
    hw.progress (quietly_confirmStartedRounds node w).progress
  simp only [updateCoinjoinsJoinmarket, EStateM.run_bind]
  cases hrun : (confirmStartedRounds clock node).run w with
  | error error w' => rfl
  | ok _ w' =>
    rw [stateAfter_of_ok hrun] at hscanned
    have hlength : w'.inner.engine.clients.length = names.length := by
      rw [← hscanned.names_eq, List.length_map]
    simp only [EStateM.run_get]
    by_cases hlimit : limits.roundLimitReached w'.inner.engine.currentRound = true
    · rw [if_pos hlimit, if_pos hlimit]
    · rw [if_neg hlimit, if_neg hlimit]
      exact run_updateClients_async hnames hscanned List.nodup_range
        (fun i hi => hlength ▸ List.mem_range.mp hi)
        ((ifReturns_of_ok hrun).mpr h (Bool.eq_false_iff.mpr hlimit))

theorem run_turn_async (hnames : names.Nodup) {limits : Limits} {node : Node σ}
    {initialBlock : Int} {simulation : Simulation σ K n} (hw : Named names simulation.world)
    (h : TurnAgrees clock parties limits node initialBlock simulation) :
    (turn clock parties limits .async node initialBlock).run simulation =
      (turn clock parties limits .sync node initialBlock).run simulation := by
  obtain ⟨simulation', hrun, hbefore⟩ :=
    run_beforeUpdates clock parties node initialBlock simulation
  rw [TurnAgrees, stateAfter_of_ok hrun] at h
  have hupdate := run_updateCoinjoinsJoinmarket_async hnames (hw.progress hbefore.progress) h
  simp only [turn_eq, EStateM.run_bind, hrun, run_observing, updateCoinjoins, EStateM.run_get,
    Simulation.onWorld, run_zoom, hupdate]

/-- The loop of the asynchronous path does what that of the synchronous path does. -/
theorem run_runLoop_async (hnames : names.Nodup) {limits : Limits} {node : Node σ}
    {initialBlock : Int} {fuel : Nat} {simulation : Simulation σ K n}
    (hw : Named names simulation.world)
    (h : LoopAgrees clock parties limits node initialBlock fuel simulation) :
    (runLoop clock parties limits .async node initialBlock fuel).run simulation =
      (runLoop clock parties limits .sync node initialBlock fuel).run simulation := by
  induction fuel generalizing simulation with
  | zero => rfl
  | succ fuel ih =>
    cases hlimit : limits.goesOn simulation.currentBlock simulation.currentRound with
    | false =>
      rw [run_runLoop_limit node _ _ hlimit, run_runLoop_limit node _ _ hlimit]
    | true =>
      obtain ⟨hpass, hrest⟩ := h hlimit
      have hturn := run_turn_async hnames hw hpass
      have hturned : ∃ window simulation',
          (turn clock parties limits .sync node initialBlock).run simulation = .ok () simulation' ∧
            Turned simulation.world.inner.engine.clients limits window simulation simulation' :=
        turned_turn node initialBlock (settled_self simulation.world)
      obtain ⟨window, simulation', hrun, hturned⟩ := hturned
      rw [stateAfter_of_ok hrun] at hrest
      have hloop := ih (hw.progress hturned.updates.progress) hrest
      simp only [runLoop, EStateM.run_bind, EStateM.run_get, run_ite, hturn, hrun, hloop]

/-- Both copies agree in the loop that follows the warm-up. -/
def EngineAgrees (clock : Clock σ) (parties : Parties σ K n) (limits : Limits) (fuel : Nat)
    (simulation : Simulation σ K n) : Prop :=
  ∀ node ∈ parties.node, IfReturns (startBlockClock clock node) (fun initialBlock warm =>
    LoopAgrees clock parties limits node initialBlock fuel warm) simulation

instance (clock : Clock σ) (parties : Parties σ K n) (limits : Limits) (fuel : Nat)
    (simulation : Simulation σ K n) :
    Decidable (EngineAgrees clock parties limits fuel simulation) :=
  inferInstanceAs (Decidable (∀ node ∈ parties.node, IfReturns (startBlockClock clock node)
    (fun initialBlock warm => LoopAgrees clock parties limits node initialBlock fuel warm)
    simulation))

/-- With distinct clients that record their own attempts, and with the same answers of the services,
a run with asynchronous updates leaves and returns what the run with synchronous updates does,
unless a service answers without a session object or a paused taker is in the timeout of a running
attempt. -/
theorem runEngine_async {limits : Limits} {fuel : Nat} {simulation : Simulation σ K n}
    (hnames : (simulation.world.inner.engine.clients.map JoinMarketClientServer.name).Nodup)
    (hown : ∀ client ∈ simulation.world.inner.engine.clients, OwnEvents client)
    (hagree : EngineAgrees clock parties limits fuel simulation) :
    (runEngine clock parties limits .async fuel).run simulation =
      (runEngine clock parties limits .sync fuel).run simulation := by
  unfold runEngine
  cases hnode : parties.node with
  | none => rfl
  | some node =>
    obtain ⟨initialBlock, simulation', hrun, hmined⟩ | ⟨error, simulation', _, hrun, -⟩ :=
      mined_startBlockClock clock node simulation
    · have hnamed : Named (simulation.world.inner.engine.clients.map JoinMarketClientServer.name)
          simulation'.world := by
        have hstart : Named (simulation.world.inner.engine.clients.map JoinMarketClientServer.name)
            simulation.world := ⟨rfl, hown⟩
        exact hstart.progress hmined.progress
      have hloop := run_runLoop_async hnames hnamed
        (hagree node hnode initialBlock simulation' hrun)
      simp only [EStateM.run_bind, hrun, hloop]
    · simp only [EStateM.run_bind, hrun]

theorem ownEvents_mixing :
    ∀ client ∈ mixingSimulation.world.inner.engine.clients, OwnEvents client := by
  intro client hclient
  show ∀ event ∈ client.roundEvents, RecordedBy client.name event
  obtain rfl | hclient := List.mem_cons.mp hclient
  · exact List.forall_mem_nil _
  obtain rfl | hclient := List.mem_cons.mp hclient
  · exact List.forall_mem_singleton.mpr rfl
  · rw [List.mem_singleton.mp hclient]
    exact List.forall_mem_nil _

/-- The attempt that hangs is marked only after the other taker's update. -/
theorem runEngine_async_mixing :
    mixingRun .async 8 = mixingRun .sync 8 ∧
      mixingStatuses (mixingRun .async 2) = [[], [some "started"], [some "started"]] ∧
      mixingStatuses (mixingRun .async 3) = [[], [some "failed"], [some "started"]] ∧
      mixingStatuses (mixingRun .async 8) = [[], [some "failed"], [some "confirmed"]] := by
  refine ⟨runEngine_async ?_ ?_ ?_, ?_⟩
  · show ["jcs-000", "jcs-001", "jcs-002"].Nodup
    decide
  · exact ownEvents_mixing
  · decide +kernel
  · decide +kernel

end JoinmarketRun

end CoinjoinEmulator
