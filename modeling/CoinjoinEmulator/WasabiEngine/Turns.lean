import CoinjoinEmulator.ClientStartupLog
import CoinjoinEmulator.InvoiceCalls
import CoinjoinEmulator.Postmix.Calls
import CoinjoinEmulator.WasabiEngine.Simulation

/-! What one round of the loop of the Wasabi engine asks for, whether or not it raises. -/

namespace CoinjoinEmulator.WasabiEngine

open ProofKit Postmix
open ClientStartup (batches chunkSize flatten_batches chunkSize_pos)

variable {σ : Type} {n : Nat}

/-- Only allowed requests were made, and the parties changed as `S` says. -/
structure Asks (allowed : Request n → Prop) (S : σ → σ → Prop) (w w' : EngineWorld σ n) : Prop where
  log : ∃ added, w'.log = w.log ++ added ∧ ∀ request ∈ added, allowed request
  inner : S w.inner w'.inner

section Asks

variable {allowed : Request n → Prop} {S : σ → σ → Prop} {clock : Clock σ}

theorem Asks.nothing {w w' : EngineWorld σ n} (hlog : w'.log = w.log) (h : S w.inner w'.inner) :
    Asks allowed S w w' := ⟨⟨[], by simpa using hlog, by simp⟩, h⟩

instance [Std.Refl S] : Std.Refl (Asks allowed S) := ⟨fun w => .nothing rfl (refl_of S w.inner)⟩

instance [IsTrans σ S] : IsTrans (EngineWorld σ n) (Asks allowed S) where
  trans w w' w'' h h' := by
    obtain ⟨added, hlog, hadded⟩ := h.log
    obtain ⟨added', hlog', hadded'⟩ := h'.log
    refine ⟨⟨added ++ added', ?_, ?_⟩, trans_of S h.inner h'.inner⟩
    · rw [hlog', hlog, List.append_assoc]
    · intro request hrequest
      rcases List.mem_append.mp hrequest with hold | hnew
      · exact hadded request hold
      · exact hadded' request hnew

theorem asks_call {α : Type} {program : EStateM PyError σ α} (h : Keeps S program) :
    Keeps (Asks allowed S)
      (Postmix.World.call clock program : EStateM PyError (EngineWorld σ n) α) :=
  h.zoom_of_keeps fun _ _ hinner => .nothing rfl hinner

theorem asks_note [Std.Refl S] {request : Request n} (h : allowed request) :
    Keeps (Asks allowed S) (Postmix.World.note request : EStateM PyError (EngineWorld σ n) Unit) :=
  fun w => ⟨⟨[request], rfl, by simpa using h⟩, refl_of S w.inner⟩

theorem asks_time [Std.Refl S] (h : ∀ s, S s (clock.wait s)) :
    TimeKeeps (E := Request n) clock (Asks allowed S) where
  time w := .nothing rfl (h w.inner)
  sleep _ w := .nothing rfl (refl_of S w.inner)

end Asks

/-- The engine after requests to the parties. -/
def EngineAsks (allowed : Request n → Prop) (S : σ → σ → Prop) (engine engine' : Engine σ n) :
    Prop := Asks allowed S engine.world engine'.world

theorem asks_onWorld {α : Type} {allowed : Request n → Prop} {S : σ → σ → Prop}
    {program : EStateM PyError (EngineWorld σ n) α}
    (h : Keeps (Asks allowed S) program) : Keeps (EngineAsks allowed S) (Engine.onWorld program) :=
  h.zoom_of_keeps fun _ _ hworld => hworld

theorem asks_onFunding {α : Type} {allowed : Request n → Prop} {S : σ → σ → Prop}
    {program : EStateM PyError (Funding (EngineWorld σ n)) α}
    (h : Keeps (OnFundingWorld (Asks allowed S)) program) :
    Keeps (EngineAsks allowed S) (Engine.onFunding program) :=
  h.zoom_of_keeps fun _ _ hworld => hworld

/-- Every call of the engine, and waiting, changes the parties as `S` says. -/
structure Parties.Keep (clock : Clock σ) (parties : Parties σ n) (S : σ → σ → Prop) : Prop where
  wait : ∀ s, S s (clock.wait s)
  listUnspentCoins : ∀ i, Keeps S (parties.clients i).wallet.listUnspentCoins
  coinjoinStatus : ∀ i, Keeps S (parties.clients i).wallet.coinjoinStatus
  stopCoinjoin : ∀ i, Keeps S (parties.clients i).wallet.stopCoinjoin
  rpcSend : ∀ i request, Keeps S ((parties.clients i).wallet.rpcSend request)
  startCoinjoin : ∀ i, Keeps S (parties.clients i).startCoinjoin
  getNewAddress : ∀ node ∈ parties.node, Keeps S node.getNewAddress
  isUnspent : ∀ node ∈ parties.node, ∀ txid index, Keeps S (node.isUnspent txid index)
  getBlockCount : ∀ node ∈ parties.node, Keeps S node.getBlockCount
  mineBlock : ∀ node ∈ parties.node, ∀ blocks, Keeps S (node.mineBlock blocks)
  send : ∀ send ∈ parties.distributor, ∀ batch, Keeps S (send batch)
  peek : ∀ container path, Keeps S (parties.peek container path)
  containerState : ∀ name, Keeps S (parties.containerState name)

/-- Any change. -/
def AnyChange (_ _ : σ) : Prop := True

instance : Std.Refl (AnyChange (σ := σ)) := ⟨fun _ => trivial⟩

instance : IsTrans σ AnyChange := ⟨fun _ _ _ _ _ => trivial⟩

theorem keeps_anyChange {α : Type} (program : EStateM PyError σ α) : Keeps AnyChange program :=
  fun _ => trivial

theorem Parties.keep_anyChange (clock : Clock σ) (parties : Parties σ n) :
    parties.Keep clock AnyChange := by
  constructor
  · exact fun _ => trivial
  all_goals
    intros
    exact keeps_anyChange _

/-! ### Refreshing and paying -/

section Keeps

variable {clock : Clock σ} {parties : Parties σ n} {threads : ThreadPool σ} {limits : Limits}
  {S : σ → σ → Prop} [Std.Refl S] [IsTrans σ S] {allowed : Request n → Prop}

instance : Std.Refl (EngineAsks (n := n) allowed S) := ⟨fun engine => refl_of _ engine.world⟩

instance : IsTrans (Engine σ n) (EngineAsks allowed S) :=
  ⟨fun _ _ _ h h' => trans_of (Asks allowed S) h h'⟩

theorem asks_refresh {failure : String} {count : EStateM PyError (Engine σ n) Int}
    (h : Keeps (EngineAsks allowed S) count) (attempts : Nat) :
    Keeps (EngineAsks allowed S) (refresh failure count attempts) := by
  induction attempts with
  | zero => exact .throw _
  | succ attempts ih =>
    refine h.observing.bind fun result => ?_
    cases result with
    | ok value => exact .pure value
    | error error => exact ih

theorem keeps_getCurrentRound (h : parties.Keep clock S) : Keeps S (getCurrentRound parties) :=
  (h.peek _ _).bind fun _ => .pure _

theorem asks_refreshCounts (h : parties.Keep clock S) {node : MiningNode σ}
    (hnode : parties.node = some node) (initialBlock : Int) :
    Keeps (EngineAsks allowed S) (refreshCounts clock parties node initialBlock) := by
  have hround : Keeps (EngineAsks (n := n) allowed S)
      (Engine.onWorld (Postmix.World.call clock (getCurrentRound parties))) :=
    asks_onWorld (asks_call (keeps_getCurrentRound h))
  have hblock : Keeps (EngineAsks (n := n) allowed S)
      (Engine.onWorld (Postmix.World.call clock node.getBlockCount)) :=
    asks_onWorld (asks_call (h.getBlockCount node hnode))
  exact (asks_refresh hround 3).bind fun round => (asks_refresh hblock 3).bind fun height => .pure _

theorem asks_updateInvoicePayments (h : parties.Keep clock S) (counts : Counts)
    (hpay : ∀ invoices, allowed (.pay invoices counts)) :
    Keeps (EngineAsks allowed S) (Engine.onFunding
      (updateInvoicePayments (distributor clock parties counts) counts.block counts.round)) := by
  refine asks_onFunding (keeps_updateInvoicePayments (fun send hsend batch => ?_) _ _)
  obtain ⟨pay, hsender, rfl⟩ := Option.map_eq_some_iff.mp hsend
  refine (asks_call (h.send pay hsender batch)).bind fun result => .ite _ (.pure _) ?_
  exact (asks_note (hpay batch)).bind fun _ => .pure _

/-- Paying a wallet's mixed coins out asks it to pause, and for nothing else. -/
theorem asks_updatePostmixSpends (h : parties.Keep clock S) {node : MiningNode σ}
    (hnode : parties.node = some node) (hpause : ∀ i, allowed (.pause i)) (counts : Counts) :
    Keeps (EngineAsks allowed S) (updatePostmixSpends clock parties node counts) := by
  have hwallets : ∀ i, (payingWallet clock parties i).CallsKeep (Asks allowed S) := fun i =>
    { listUnspentCoins := asks_call (h.listUnspentCoins i)
      coinjoinStatus := asks_call (h.coinjoinStatus i)
      stopCoinjoin := (asks_note (hpause i)).bind fun _ => asks_call (h.stopCoinjoin i)
      rpcSend := fun request => asks_call (h.rpcSend i request) }
  have hfunding : (fundingNode (n := n) clock node).CallsKeep (Asks allowed S) :=
    { getNewAddress := asks_call (h.getNewAddress node hnode)
      isUnspent := fun txid index => asks_call (h.isUnspent node hnode txid index) }
  refine Keeps.get.bind fun engine => ?_
  cases engine.postmixSpends with
  | none => exact .pure ()
  | some spends =>
    refine (asks_onWorld (keeps_update
      (fun i => (hwallets i).spendingClient hfunding (asks_time h.wait)) hfunding
      (asks_time h.wait) _ _ spends)).bind fun spends' => ?_
    exact fun engine => refl_of (Asks allowed S) engine.world

theorem asks_updateCoinjoins (h : parties.Keep clock S) (counts : Counts) :
    Keeps (Asks (fun _ => True) S) (updateCoinjoins clock parties threads limits counts) := by
  have hstarmap : ∀ request : Fin n → EStateM PyError (EngineWorld σ n) Unit,
      (∀ i, Keeps (Asks (fun _ => True) S) (request i)) → ∀ clients,
        Keeps (Asks (fun _ => True) S) (starmap threads request clients) :=
    fun request hrequest clients => Keeps.get.bind fun w => keeps_runPool hrequest _ _
  refine (hstarmap _ (fun i => ?_) _).bind fun _ => hstarmap _ (fun i => ?_) _
  · refine (asks_note trivial).bind fun _ => (asks_call (h.startCoinjoin i)).bind fun error => ?_
    cases error with
    | none => exact .pure ()
    | some error =>
      exact (asks_call (h.containerState _)).observing.bind fun state => .throw _
  · exact (asks_note trivial).bind fun _ => asks_call (h.stopCoinjoin i)

theorem asks_updateAll (h : parties.Keep clock S) {node : MiningNode σ}
    (hnode : parties.node = some node) (counts : Counts) :
    Keeps (EngineAsks (fun _ => True) S) (updateAll clock parties threads limits node counts) := by
  refine (asks_onWorld (asks_note trivial)).bind fun _ => ?_
  refine (asks_updateInvoicePayments h counts fun _ => trivial).bind fun _ => ?_
  refine (asks_updatePostmixSpends h hnode (fun _ => trivial) counts).bind fun _ => ?_
  refine (asks_onWorld (asks_updateCoinjoins h counts)).bind fun _ => asks_onWorld ?_
  exact (asks_time h.wait).sleep 1

end Keeps

/-! ### The requests of a round -/

/-- What a round of the loop asks for: the batches that it pays, and the clients that it asks. -/
structure Turn (n : Nat) where
  counts : Counts
  paid : List (List Invoice)
  paused : List (Fin n)
  started : List (Fin n)
  stopped : List (Fin n)

/-- The requests after the counts are refreshed. -/
def Turn.asked (turn : Turn n) : List (Request n) :=
  turn.paid.map (.pay · turn.counts) ++ (turn.paused.map .pause ++
    (turn.started.map (.start · turn.counts) ++ turn.stopped.map (.stop · turn.counts)))

def Turn.requests (turn : Turn n) : List (Request n) := .refresh turn.counts :: turn.asked

section Turns

variable {clock : Clock σ} (parties : Parties σ n) {threads : ThreadPool σ} (limits : Limits)

/-- The clients that mix at these counts. -/
def mixing (counts : Counts) : List (Fin n) :=
  (List.finRange n).filter fun i => startCondition limits (parties.clients i) counts

def resting (counts : Counts) : List (Fin n) :=
  (List.finRange n).filter fun i => !startCondition limits (parties.clients i) counts

/-- A round starts clients that mix, and then stops clients that rest, each of them at most once. -/
structure Turn.Fits (turn : Turn n) : Prop where
  started : turn.started.Subperm (mixing parties limits turn.counts)
  stopped : turn.stopped.Subperm (resting parties limits turn.counts)

/-- A round that does not raise asks all clients. -/
structure Turn.Complete (turn : Turn n) : Prop where
  started : turn.started.Perm (mixing parties limits turn.counts)
  stopped : turn.stopped.Perm (resting parties limits turn.counts)

variable {parties limits}

theorem flatten_chunks (clients : List (Fin n)) :
    (batches (chunkSize threads.processes clients.length) clients).flatten = clients := by
  cases clients with
  | nil => exact List.flatten_eq_nil_iff.mpr (by simp [batches])
  | cons i rest => exact flatten_batches (chunkSize_pos _ (by simp)) _

theorem emits_starmap {request : Fin n → EStateM PyError (EngineWorld σ n) Unit}
    {event : Fin n → Request n} (h : LogsEvent Postmix.World.log request event)
    (clients : List (Fin n)) :
    Emits Postmix.World.log (starmap threads request clients) fun _ r added =>
      ∃ ran : List (Fin n), added = ran.map event ∧ ran.Subperm clients ∧
        (r = .ok () → ran.Perm clients) := by
  have hpool : ∀ w : EngineWorld σ n, _ := fun w =>
    emits_runPool h (threads.order w.inner)
      (batches (chunkSize threads.processes clients.length) clients)
  rw [flatten_chunks] at hpool
  exact fun w => hpool w w

theorem logsEvent_of_quiet {request : Fin n → EStateM PyError (EngineWorld σ n) Unit}
    {event : Fin n → Request n} {rest : Fin n → EStateM PyError (EngineWorld σ n) Unit}
    (hrequest : ∀ i, request i = (do Postmix.World.note (event i); rest i))
    (h : ∀ i, Keeps Postmix.World.Quiet (rest i)) :
    LogsEvent Postmix.World.log request event := by
  intro i
  rw [hrequest]
  exact Postmix.World.emits_note (T := fun _ added => added = [event i])
    (.silent (Postmix.World.sameLog_of_quiet (h i)) fun _ _ => rfl)

theorem logsEvent_startCoinjoin (counts : Counts) :
    LogsEvent Postmix.World.log (startCoinjoin clock parties counts) (Request.start · counts) := by
  refine logsEvent_of_quiet (fun _ => rfl) fun i => ?_
  refine (Postmix.World.keeps_call _).bind fun error => ?_
  cases error with
  | none => exact .pure ()
  | some error => exact (Postmix.World.keeps_call _).observing.bind fun state => .throw _

theorem logsEvent_stopCoinjoin (counts : Counts) :
    LogsEvent Postmix.World.log (stopCoinjoin clock parties counts) (Request.stop · counts) :=
  logsEvent_of_quiet (fun _ => rfl) fun _ => Postmix.World.keeps_call _

variable (parties limits) in
/-- The requests are those of a round that pays some batches, from there on.  The round is complete
if it does not raise. -/
def MadeCalls (paid : List (List Invoice)) (counts : Counts) (r : Except PyError Unit)
    (added : List (Request n)) : Prop :=
  ∃ turn : Turn n, turn.counts = counts ∧ turn.paid = paid ∧ added = turn.asked ∧
    turn.Fits parties limits ∧ (r = .ok () → turn.Complete parties limits)

theorem emits_updateCoinjoins (counts : Counts) :
    Emits Postmix.World.log (updateCoinjoins clock parties threads limits counts)
      fun _ => MadeCalls parties limits [] counts := by
  refine (emits_starmap (logsEvent_startCoinjoin counts) (mixing parties limits counts)).bind
    (fun _ => emits_starmap (logsEvent_stopCoinjoin counts) (resting parties limits counts)) ?_ ?_
  · rintro _ error _ ⟨started, rfl, hstarted, -⟩
    exact ⟨⟨counts, [], [], started, []⟩, rfl, rfl, by simp [Turn.asked],
      ⟨hstarted, List.nil_subperm⟩, fun hr => by cases hr⟩
  · rintro _ ⟨⟩ _ r _ ⟨started, rfl, hstarted, hall⟩ ⟨stopped, rfl, hstopped, hrest⟩
    exact ⟨⟨counts, [], [], started, stopped⟩, rfl, rfl, rfl, ⟨hstarted, hstopped⟩,
      fun hr => ⟨hall rfl, hrest hr⟩⟩

/-- The allowed requests that a program makes. -/
theorem emits_of_asks {α : Type} {program : EStateM PyError (Engine σ n) α}
    {allowed : Request n → Prop} (h : Keeps (EngineAsks allowed AnyChange) program) :
    Emits (fun engine => engine.world.log) program
      fun _ _ added => ∀ request ∈ added, allowed request := by
  intro engine
  obtain ⟨added, hlog, hadded⟩ := (h engine).log
  exact ⟨added, hlog, hadded⟩

theorem exists_eq_map {α : Type} {f : α → Request n} {added : List (Request n)}
    (h : ∀ request ∈ added, ∃ a, request = f a) : ∃ items : List α, added = items.map f := by
  induction added with
  | nil => exact ⟨[], rfl⟩
  | cons request rest ih =>
    obtain ⟨a, rfl⟩ := h request List.mem_cons_self
    obtain ⟨items, rfl⟩ := ih fun request hrequest => h request (List.mem_cons_of_mem _ hrequest)
    exact ⟨a :: items, rfl⟩

/-- Pauses before the coinjoins of a round belong to it. -/
theorem MadeCalls.pausing {counts : Counts} {r : Except PyError Unit} {added : List (Request n)}
    (h : MadeCalls parties limits [] counts r added) (paused : List (Fin n)) :
    MadeCalls parties limits [] counts r (paused.map .pause ++ added) := by
  obtain ⟨turn, hcounts, hpaid, rfl, hfits, hcomplete⟩ := h
  refine ⟨{ turn with paused := paused ++ turn.paused }, hcounts, hpaid, ?_,
    ⟨hfits.started, hfits.stopped⟩, fun hr => ⟨(hcomplete hr).started, (hcomplete hr).stopped⟩⟩
  simp [Turn.asked, hpaid]

/-- Payments before the other requests of a round belong to it. -/
theorem MadeCalls.paying {counts : Counts} {r : Except PyError Unit} {added : List (Request n)}
    (h : MadeCalls parties limits [] counts r added) (paid : List (List Invoice)) :
    MadeCalls parties limits paid counts r (paid.map (.pay · counts) ++ added) := by
  obtain ⟨turn, rfl, hpaid, rfl, hfits, hcomplete⟩ := h
  refine ⟨{ turn with paid }, rfl, rfl, ?_, ⟨hfits.started, hfits.stopped⟩,
    fun hr => ⟨(hcomplete hr).started, (hcomplete hr).stopped⟩⟩
  simp [Turn.asked, hpaid]

theorem madeCalls_error (counts : Counts) (error : PyError) :
    MadeCalls parties limits [] counts (.error error) [] :=
  ⟨⟨counts, [], [], [], []⟩, rfl, rfl, rfl, ⟨List.nil_subperm, List.nil_subperm⟩,
    fun hr => by cases hr⟩

/-- A program that only asks for pauses, before the coinjoins of a round. -/
theorem emits_pausing {program : EStateM PyError (Engine σ n) Unit}
    {next : Unit → EStateM PyError (Engine σ n) Unit} {counts : Counts}
    (h : Keeps (EngineAsks (fun request => ∃ i, request = .pause i) AnyChange) program)
    (hnext : Emits (fun engine => engine.world.log) (next ())
      fun _ => MadeCalls parties limits [] counts) :
    Emits (fun engine => engine.world.log) (program >>= next)
      fun _ => MadeCalls parties limits [] counts := by
  refine (emits_of_asks h).bind (fun _ => hnext) (fun _ error added hadded => ?_)
    (fun _ _ added r added' hadded hmade => ?_)
  · obtain ⟨paused, rfl⟩ := exists_eq_map hadded
    have hmade := (@madeCalls_error σ n parties limits counts error).pausing paused
    rwa [List.append_nil] at hmade
  · obtain ⟨paused, rfl⟩ := exists_eq_map hadded
    exact hmade.pausing paused

/-- A program that only pays, before the other requests of a round. -/
theorem emits_paying {program : EStateM PyError (Engine σ n) Unit}
    {next : Unit → EStateM PyError (Engine σ n) Unit} {counts : Counts}
    (h : Keeps (EngineAsks (fun request => ∃ invoices, request = .pay invoices counts) AnyChange)
      program)
    (hnext : Emits (fun engine => engine.world.log) (next ())
      fun _ => MadeCalls parties limits [] counts) :
    Emits (fun engine => engine.world.log) (program >>= next)
      fun _ r added => ∃ paid, MadeCalls parties limits paid counts r added := by
  refine (emits_of_asks h).bind (fun _ => hnext) (fun _ error added hadded => ?_)
    (fun _ _ added r added' hadded hmade => ?_)
  · obtain ⟨paid, rfl⟩ := exists_eq_map hadded
    have hmade := (@madeCalls_error σ n parties limits counts error).paying paid
    rw [List.append_nil] at hmade
    exact ⟨paid, hmade⟩
  · obtain ⟨paid, rfl⟩ := exists_eq_map hadded
    exact ⟨paid, hmade.paying paid⟩

variable (parties limits) in
/-- The requests are those of a round, which is complete if it does not raise. -/
def MadeTurn (counts : Counts) (r : Except PyError Unit) (added : List (Request n)) : Prop :=
  ∃ turn : Turn n, turn.counts = counts ∧ added = turn.requests ∧ turn.Fits parties limits ∧
    (r = .ok () → turn.Complete parties limits)

/-- A round of the loop pays, and asks for pauses, starts and stops, in this order. -/
theorem emits_updateAll {node : MiningNode σ} (hnode : parties.node = some node) (counts : Counts) :
    Emits (fun engine => engine.world.log) (updateAll clock parties threads limits node counts)
      fun _ => MadeTurn parties limits counts := by
  have hkeep := parties.keep_anyChange clock
  have hcoinjoins : Emits (fun engine : Engine σ n => engine.world.log)
      (Engine.onWorld (updateCoinjoins clock parties threads limits counts))
      fun _ => MadeCalls parties limits [] counts :=
    (emits_updateCoinjoins counts).zoom fun _ _ => rfl
  have hasked : Emits (fun engine : Engine σ n => engine.world.log) (do
      Engine.onFunding
        (updateInvoicePayments (distributor clock parties counts) counts.block counts.round)
      updatePostmixSpends clock parties node counts
      Engine.onWorld (updateCoinjoins clock parties threads limits counts)
      Engine.onWorld (Postmix.World.sleep 1))
      fun _ r added => ∃ paid, MadeCalls parties limits paid counts r added := by
    refine emits_paying (asks_updateInvoicePayments hkeep counts fun batch => ⟨batch, rfl⟩) ?_
    refine emits_pausing (asks_updatePostmixSpends hkeep hnode (fun i => ⟨i, rfl⟩) counts) ?_
    refine hcoinjoins.bind (N := fun _ _ r added => r = .ok () ∧ added = []) (fun _ => ?_)
      (fun _ _ _ hmade => hmade) ?_
    · exact fun engine => ⟨[], (List.append_nil _).symm, rfl, rfl⟩
    · rintro _ ⟨⟩ added r added' hmade ⟨rfl, rfl⟩
      rwa [List.append_nil]
  refine emits_bind_append [.refresh counts] (fun _ => rfl) (hasked.mono ?_)
  rintro _ r added ⟨paid, turn, rfl, -, rfl, hfits, hcomplete⟩
  exact ⟨turn, rfl, rfl, hfits, hcomplete⟩

end Turns

end CoinjoinEmulator.WasabiEngine
