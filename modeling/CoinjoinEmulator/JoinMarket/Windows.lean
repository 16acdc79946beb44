import CoinjoinEmulator.InvoiceCalls
import CoinjoinEmulator.JoinMarket.Progress
import CoinjoinEmulator.Postmix.Calls

/-! Whole runs of the JoinMarket engine, for any answers and failures of the services, the node and
the distributor: which clients are updated when, and how the run ends. -/

namespace CoinjoinEmulator.JoinmarketRun

open ProofKit Postmix JoinMarketClientServer JoinmarketEngine

variable {σ K : Type} {n : Nat} {clock : Clock σ}

/-! ### What the calls keep -/

/-- Nothing is mined and no client updated; the clients make progress. -/
structure Quietly (w w' : SiteWorld σ K) : Prop where
  log_eq : w'.log = w.log
  progress : Progress w.inner.engine w'.inner.engine

/-- The round counter stays, too. -/
structure Between (w w' : SiteWorld σ K) : Prop extends Quietly w w' where
  round_eq : w'.inner.engine.currentRound = w.inner.engine.currentRound

instance : Std.Refl (Quietly (σ := σ) (K := K)) := ⟨fun _ => ⟨rfl, refl_of Progress _⟩⟩

instance : IsTrans (SiteWorld σ K) Quietly :=
  ⟨fun _ _ _ h h' => ⟨h'.log_eq.trans h.log_eq, trans_of Progress h.progress h'.progress⟩⟩

instance : Std.Refl (Between (σ := σ) (K := K)) := ⟨fun w => ⟨refl_of Quietly w, rfl⟩⟩

instance : IsTrans (SiteWorld σ K) Between :=
  ⟨fun _ _ _ h h' => ⟨trans_of Quietly h.toQuietly h'.toQuietly, h'.round_eq.trans h.round_eq⟩⟩

theorem Between.of_engine {w w' : SiteWorld σ K} (hlog : w'.log = w.log)
    (hengine : w'.inner.engine = w.inner.engine) : Between w w' := by
  refine ⟨⟨hlog, ?_⟩, by rw [hengine]⟩
  rw [hengine]
  exact refl_of Progress _

theorem between_call {α : Type} (program : EStateM PyError σ α) :
    Keeps (Between (K := K)) (call clock program) := by
  have hsite : Keeps (fun site site' : Site σ K => site'.engine = site.engine)
      (zoom Site.outside (fun site outside => { site with outside }) program) :=
    Keeps.zoom (fun site outside => (rfl : { site with outside }.engine = site.engine)) program
  exact hsite.zoom_of_keeps fun w site h => .of_engine rfl h

theorem between_onEngine {α : Type} {program : EStateM PyError JoinmarketEngine α}
    (h : Keeps Progress program)
    (hround : ∀ engine, (stateAfter program engine).currentRound = engine.currentRound) :
    Keeps (Between (σ := σ) (K := K)) (onEngine program) := by
  have hboth : Keeps (fun engine engine' => Progress engine engine' ∧
      engine'.currentRound = engine.currentRound) program := fun engine => ⟨h engine, hround engine⟩
  exact hboth.zoom_of_keeps fun w engine hengine => ⟨⟨rfl, hengine.1⟩, hengine.2⟩

theorem timeKeeps_between : TimeKeeps (siteClock (K := K) clock) (Between (σ := σ)) where
  time _ := .of_engine rfl rfl
  sleep _ _ := .of_engine rfl rfl

theorem between_postmixWallet (wallet : JoinMarketWallet σ) :
    (postmixWallet (K := K) clock wallet).CallsKeep Between where
  session := between_call _
  stopMaker := between_call _
  listUtxos := between_call _
  freezeUtxo _ _ := between_call _
  sweepMixdepth _ _ := between_call _
  coinjoinTxids := between_onEngine progress_read (currentRound_onLiveEvents _)

theorem between_fundingNode (node : Node σ) :
    (fundingNode (K := K) clock node).CallsKeep Between where
  getNewAddress := between_call _
  isUnspent _ _ := between_call _

theorem between_markTimeout (block : Int) (i : Nat) (delta : Int) :
    Keeps (Between (σ := σ) (K := K)) (markTimeout block i delta) := by
  refine .ite _ (Keeps.get.bind fun w => ?_) (.pure ())
  split
  · exact .pure ()
  · exact (between_onEngine (progress_mark _ _ _) (currentRound_onLiveEvents _)).bind
      fun _ => .pure _

theorem quietly_confirmStartedRounds (node : Node σ) :
    Keeps (Quietly (K := K)) (confirmStartedRounds clock node) := by
  have hask : Keeps (Quietly (K := K)) (ask clock node.blocks) := fun w =>
    (between_call _ w).toQuietly
  refine hask.bind fun source => Keeps.bind ?_ fun _ => .pure _
  exact (progress_scan source).zoom_of_keeps fun w engine h => ⟨rfl, h⟩

/-! ### The updates of the clients -/

/-- The clients still have the settings of `clients`. -/
def Settled (clients : List JoinMarketClientServer) (w : SiteWorld σ K) : Prop :=
  clients.Forall₂ SameSettings w.inner.engine.clients

theorem settled_self (w : SiteWorld σ K) : Settled w.inner.engine.clients w :=
  List.forall₂_same.mpr fun client _ => .refl client

theorem Settled.progress {clients : List JoinMarketClientServer} {w w' : SiteWorld σ K}
    (h : Settled clients w) (hprogress : Progress w.inner.engine w'.inner.engine) :
    Settled clients w' := by
  have hclients := hprogress.clients
  unfold Settled at h ⊢
  generalize w.inner.engine.clients = before at h hclients
  generalize w'.inner.engine.clients = after at hclients ⊢
  induction h generalizing after with
  | nil => cases hclients; exact .nil
  | cons hsame _ ih =>
    cases hclients with
    | cons hclient hrest => exact .cons (hsame.trans hclient.settings) (ih _ hrest)

/-- The updates `made`, each of a client with what it sent, are told; a client that starts to mix
is inside its schedule. -/
structure Told (clients : List JoinMarketClientServer) (block : Int)
    (made : List (Nat × List FleetRequest)) (w w' : SiteWorld σ K) : Prop where
  log_eq : w'.log = w.log ++
    made.map fun update => .update update.1 block w.inner.engine.currentRound update.2
  onTime : ∀ update ∈ made, ∀ client, clients[update.1]? = some client →
    ∀ request ∈ update.2, request.starts = true →
      client.outsideSchedule block w.inner.engine.currentRound = false
  progress : Progress w.inner.engine w'.inner.engine
  round_eq : w'.inner.engine.currentRound = w.inner.engine.currentRound

section Told

variable {clients : List JoinMarketClientServer} {block : Int}
  {made made' : List (Nat × List FleetRequest)} {w w' w'' : SiteWorld σ K}

theorem Told.of_between (h : Between w w') : Told clients block [] w w' :=
  ⟨by simpa using h.log_eq, by simp, h.progress, h.round_eq⟩

theorem Told.append (h : Told clients block made w w') (h' : Told clients block made' w' w'') :
    Told clients block (made ++ made') w w'' := by
  have hround := h.round_eq
  refine ⟨?_, ?_, trans_of Progress h.progress h'.progress, h'.round_eq.trans hround⟩
  · rw [h'.log_eq, h.log_eq, hround, List.map_append, List.append_assoc]
  · intro update hupdate
    obtain hold | hnew := List.mem_append.mp hupdate
    · exact h.onTime update hold
    · rw [← hround]
      exact h'.onTime update hnew

theorem Told.between (h : Told clients block made w w') (h' : Between w' w'') :
    Told clients block made w w'' := by
  have htold := h.append (.of_between h')
  rw [List.append_nil] at htold
  exact htold

end Told

section InOrder

variable {clients : List JoinMarketClientServer} {block : Int}

/-- Updating some clients in order, without an exception. -/
def UpdatesInOrder {α : Type} (clients : List JoinMarketClientServer) (block : Int)
    (order : List Nat) (program : EStateM PyError (SiteWorld σ K) α) : Prop :=
  ∀ w, Settled clients w → ∃ a w' made, program.run w = .ok a w' ∧ made.map Prod.fst = order ∧
    Told clients block made w w'

theorem updatesInOrder_observing {α : Type} {i : Nat}
    {program : EStateM PyError (SiteWorld σ K) α}
    (h : ∀ w, Settled clients w → ∃ sent, Told clients block [(i, sent)] w (stateAfter program w)) :
    UpdatesInOrder clients block [i] (observing program) := by
  intro w hw
  obtain ⟨sent, htold⟩ := h w hw
  obtain ⟨r, hrun⟩ := exists_run_observing program w
  exact ⟨r, _, _, hrun, rfl, htold⟩

theorem UpdatesInOrder.bind {α β : Type} {order order' : List Nat}
    {program : EStateM PyError (SiteWorld σ K) α} {next : α → EStateM PyError (SiteWorld σ K) β}
    (h : UpdatesInOrder clients block order program)
    (hnext : ∀ a, UpdatesInOrder clients block order' (next a)) :
    UpdatesInOrder clients block (order ++ order') (program >>= next) := by
  intro w hw
  obtain ⟨a, w', made, hrun, hmade, htold⟩ := h w hw
  obtain ⟨b, w'', made', hrun', hmade', htold'⟩ := hnext a w' (hw.progress htold.progress)
  refine ⟨b, w'', made ++ made', ?_, by rw [List.map_append, hmade, hmade'], htold.append htold'⟩
  rw [EStateM.run_bind, hrun]
  exact hrun'

theorem updatesInOrder_pure {α : Type} (a : α) :
    UpdatesInOrder (σ := σ) (K := K) clients block [] (pure a) := fun w _ =>
  ⟨a, w, [], rfl, rfl, .of_between (refl_of Between w)⟩

theorem updatesInOrder_forM {body : Nat → EStateM PyError (SiteWorld σ K) Unit} {order : List Nat}
    (h : ∀ i ∈ order, UpdatesInOrder clients block [i] (body i)) :
    UpdatesInOrder clients block order (forM order body) := by
  induction order with
  | nil => exact updatesInOrder_pure ()
  | cons i rest ih =>
    rw [List.forM_cons]
    exact (h i List.mem_cons_self).bind fun _ => ih fun j hj => h j (List.mem_cons_of_mem _ hj)

theorem updatesInOrder_mapM {α : Type} {body : Nat → EStateM PyError (SiteWorld σ K) α}
    {order : List Nat} (h : ∀ i ∈ order, UpdatesInOrder clients block [i] (body i)) :
    UpdatesInOrder clients block order (order.mapM body) := by
  induction order with
  | nil => exact updatesInOrder_pure []
  | cons i rest ih =>
    rw [List.mapM_cons]
    have hrest := ih fun j hj => h j (List.mem_cons_of_mem _ hj)
    have hall := (h i List.mem_cons_self).bind fun a =>
      hrest.bind fun others => updatesInOrder_pure (a :: others)
    rwa [List.append_nil] at hall

end InOrder

section Update

/-- The world once the service of a client has answered. -/
def World.asked {α : Type} (clock : Clock σ) (program : σ → α × σ) (w : SiteWorld σ K) :
    SiteWorld σ K :=
  w.reach (siteClock clock) { w.inner with outside := (program w.inner.outside).2 }

theorem run_ask {α : Type} (program : σ → α × σ) (w : SiteWorld σ K) :
    (ask clock program).run w = .ok (program w.inner.outside).1 (World.asked clock program w) := rfl

variable [DecidableEq K] {parties : Parties σ K n} {clients : List JoinMarketClientServer}
  {block : Int}

/-- An update of a client runs on the client, its tumbler and the round counter. -/
theorem run_updateAt (path : UpdatePath) {w : SiteWorld σ K} {i : Nat}
    {client : JoinMarketClientServer} (hi : w.inner.engine.clients[i]? = some client) :
    (updateAt clock parties path block i).run w =
      match (updateClient path (parties.classOf i) (parties.answers i w.inner.outside).1 block
        w.inner.engine.currentRound).run ⟨client, w.inner.tumblers i, []⟩ with
      | .ok delta s => .ok delta
          (World.afterUpdate (World.asked clock (parties.answers i) w) i block s)
      | .error error s => .error error
          (World.afterUpdate (World.asked clock (parties.answers i) w) i block s) := by
  simp only [updateAt, EStateM.run_bind, EStateM.run_get, hi, run_ask]
  have hround : (World.asked clock (parties.answers i) w).inner.engine.currentRound =
    w.inner.engine.currentRound := rfl
  have htumbler : (World.asked clock (parties.answers i) w).inner.tumblers i =
    w.inner.tumblers i := rfl
  rw [hround, htumbler]
  cases (updateClient path (parties.classOf i) (parties.answers i w.inner.outside).1 block
    w.inner.engine.currentRound).run ⟨client, w.inner.tumblers i, []⟩ <;> rfl

theorem stateAfter_updateAt (path : UpdatePath) {w : SiteWorld σ K} {i : Nat}
    {client : JoinMarketClientServer} (hi : w.inner.engine.clients[i]? = some client) :
    stateAfter (updateAt clock parties path block i) w =
      World.afterUpdate (World.asked clock (parties.answers i) w) i block
        (stateAfter (updateClient path (parties.classOf i) (parties.answers i w.inner.outside).1
          block w.inner.engine.currentRound) ⟨client, w.inner.tumblers i, []⟩) := by
  simp only [stateAfter, run_updateAt path hi]
  cases (updateClient path (parties.classOf i) (parties.answers i w.inner.outside).1 block
    w.inner.engine.currentRound).run ⟨client, w.inner.tumblers i, []⟩ <;> rfl

theorem told_updateAt (path : UpdatePath) {w : SiteWorld σ K} (hw : Settled clients w) {i : Nat}
    (hi : i < clients.length) :
    ∃ sent, Told clients block [(i, sent)] w
      (stateAfter (updateAt clock parties path block i) w) := by
  have hi' : i < w.inner.engine.clients.length := hw.length_eq ▸ hi
  have hsame : SameSettings clients[i] w.inner.engine.clients[i] := hw.get hi hi'
  have hget : w.inner.engine.clients[i]? = some w.inner.engine.clients[i] :=
    List.getElem?_eq_getElem hi'
  have hupdated : Updated block w.inner.engine.currentRound
      ⟨w.inner.engine.clients[i], w.inner.tumblers i, []⟩
      (stateAfter (updateClient path (parties.classOf i) (parties.answers i w.inner.outside).1
        block w.inner.engine.currentRound)
        ⟨w.inner.engine.clients[i], w.inner.tumblers i, []⟩) :=
    updated_updateClient path (parties.classOf i) _
  rw [stateAfter_updateAt path hget]
  generalize stateAfter _ _ = s at hupdated
  obtain ⟨sent, hsent, hallowed⟩ := hupdated.onTime.requests
  refine ⟨s.requests, rfl, ?_, progress_modifyClient hget (.of_updated hupdated), rfl⟩
  rintro update hupdate client hclient request hrequest hstarts
  rw [List.mem_singleton.mp hupdate] at hclient hrequest
  rw [List.getElem?_eq_getElem hi, Option.some.injEq] at hclient
  rw [← hclient, ← outsideSchedule_congr hsame]
  exact hallowed request (by rw [hsent] at hrequest; exact hrequest) hstarts

theorem updatesInOrder_updateAndMark {i : Nat} (hi : i < clients.length) :
    UpdatesInOrder clients block [i] (updateAndMark clock parties block i) := by
  have hboth : UpdatesInOrder clients block [i] (observing do
      let delta ← updateAt clock parties .sync block i
      markTimeout block i delta) := by
    apply updatesInOrder_observing
    intro w hw
    have htold : ∃ sent, Told clients block [(i, sent)] w
        (stateAfter (updateAt clock parties .sync block i) w) := told_updateAt .sync hw hi
    obtain ⟨sent, htold⟩ := htold
    exact ⟨sent, htold.between (Keeps.stateAfter_bind (between_markTimeout block i) w)⟩
  have hdone := hboth.bind fun _ => updatesInOrder_pure ()
  rwa [List.append_nil] at hdone

theorem updatesInOrder_updateClientAsync {i : Nat} (hi : i < clients.length) :
    UpdatesInOrder clients block [i] (updateClientAsync clock parties block i) := by
  have hupdate : UpdatesInOrder clients block [i]
      (observing (updateAt clock parties .async block i)) :=
    updatesInOrder_observing fun w hw => told_updateAt .async hw hi
  have hdone : UpdatesInOrder clients block ([i] ++ []) (updateClientAsync clock parties block i) :=
    hupdate.bind fun r => by cases r <;> exact updatesInOrder_pure _
  rwa [List.append_nil] at hdone

end Update

end CoinjoinEmulator.JoinmarketRun
