import CoinjoinEmulator.Errors
import CoinjoinEmulator.ProofKit.Effect
import CoinjoinEmulator.ProofKit.Json
import Mathlib.Algebra.Order.Ring.Rat
import Mathlib.Tactic.Linarith

/-! `_rpc` and the direct sends of a JoinMarket client: requests to jmwalletd with their retries, on
a clock. -/

namespace CoinjoinEmulator

open ProofKit

/-- What the client reads of an HTTP response.  `json` is `none` for a body that is no JSON. -/
structure HttpResponse where
  statusCode : Nat
  wwwAuthenticate : Bool
  json : Option Value
  text : String

namespace HttpResponse

/-- `response.json().get("message")`, for a body that is an object. -/
def message (response : HttpResponse) : Option Value :=
  (response.json.bind Value.asDict).map fun fields => (fields.get "message").getD .none

/-- Whether a 401 is about the credentials and not about the service state. -/
def isAuthFailure (response : HttpResponse) : Bool :=
  if response.statusCode ≠ 401 then false
  else if response.wwwAuthenticate then true
  else match response.message with
    | none => true
    | some message => message.asStr = some "Invalid credentials."

/-- The message of jmwalletd, or the text of the response. -/
def errorMessage (response : HttpResponse) : String :=
  match response.message.bind Value.asStr with
  | some message => if message = "" then response.text else message
  | none => response.text

/-- The exception for a status of 400 or more. -/
def statusError (response : HttpResponse) : PyError :=
  let status := "Error " ++ toString response.statusCode ++ ": "
  if response.statusCode = 409 then .exception (status ++ response.text)
  else match response.json.map Value.asDict with
    | none => .exception (status ++ response.text)
    | some none => .exception "object has no attribute 'get'"
    | some (some fields) =>
      match fields.get "message" with
      | none => .exception (status ++ "Unknown error")
      | some message => .exception (status ++ message.asStr.getD response.text)

end HttpResponse

/-- The JSON body of a `/taker/direct-send` request. -/
structure DirectSend where
  destination : String
  amountSats : Int
  txfee : Int
  mixdepth : Int
deriving DecidableEq, Repr

/-- What happens to the requests of a client, in their order: the answer to the `k`-th one or the
exception that it raises, how long it takes, and how unlocking the wallet ends there. -/
structure Wire where
  answer : Nat → Except PyError HttpResponse
  duration : Nat → Rat
  duration_nonneg : ∀ k, 0 ≤ duration k
  unlock : Nat → Except PyError Unit

/-- The requests made so far, the clock, and the direct sends that jmwalletd answered with
success. -/
structure Connection where
  requested : Nat
  now : Rat
  acknowledged : List DirectSend

abbrev Net := EStateM PyError Connection

def sleep (seconds : Rat) : Net Unit := modify fun c => { c with now := c.now + seconds }

section Rpc

variable (wire : Wire)

/-- The time and the number of one more request. -/
def nextRequest : Net Nat := do
  let k := (← get).requested
  modify fun c => { c with requested := k + 1, now := c.now + wire.duration k }
  return k

/-- jmwalletd acknowledges a direct send with a JSON answer that is no error. -/
def noteAcknowledged (sent : DirectSend) (response : HttpResponse) : Net Unit :=
  if response.statusCode < 400 ∧ response.json.isSome then
    modify fun c => { c with acknowledged := c.acknowledged ++ [sent] }
  else pure ()

/-- `requests.request(...)` for a direct send. -/
def httpRequest (sent : DirectSend) : Net HttpResponse := do
  let k ← nextRequest wire
  let response ← ofExcept (wire.answer k)
  noteAcknowledged sent response
  return response

def unlockWallet : Net Unit := do
  let k ← nextRequest wire
  ofExcept (wire.unlock k)

/-- One attempt of `_rpc`; after a renewed login there is no result yet. -/
def rpcAttempt (sent : DirectSend) : Net (Option Value) := do
  let response ← httpRequest wire sent
  if response.statusCode = 401 then
    if response.isAuthFailure then
      unlockWallet wire
      return none
    else throw (.serviceStateError response.errorMessage)
  else if 400 ≤ response.statusCode then
    throw response.statusError
  else
    match response.json with
    | some value => return some value
    | none => throw (.valueError "Expecting value")

/-- `_rpc` with a number of attempts left. -/
def rpcLoop (sent : DirectSend) : Nat → Net Value
  | 0 => throw (.rpcError "POST taker/direct-send stayed unauthorized")
  | left + 1 => do
    match ← observing (rpcAttempt wire sent) with
    | .ok (some value) => return value
    | .ok none => rpcLoop sent left
    | .error (.serviceStateError message) => throw (.serviceStateError message)
    | .error error =>
      if left = 0 then throw error
      else do
        sleep 1
        rpcLoop sent left

def rpc (sent : DirectSend) : Net Value := rpcLoop wire sent 4

/-- The retry loop of `simple_send`: the answer, or `none` for its result `False`. -/
def simpleSendLoop (sent : DirectSend) (start : Rat) : Nat → Net (Option Value)
  | 0 => return none
  | fuel + 1 => do
    if (← get).now - start < 30 then
      match ← observing (rpc wire sent) with
      | .ok response => return some response
      | .error _ => do
        sleep 2
        simpleSendLoop sent start fuel
    else return none

/-- Send funds to a single address without coinjoin, retrying for 30 seconds.  Each failed try takes
at least the 2 seconds of its pause, so 15 tries outlast them. -/
def simpleSend (destinationAddress : String) (amountSats : Int) (mixdepth : Int := 0)
    (txfee : Int := 5000) : Net (Option Value) := do
  let start := (← get).now
  simpleSendLoop wire ⟨destinationAddress, amountSats, txfee, mixdepth⟩ start 15

end Rpc

/-! ### Time -/

/-- Time does not run backwards. -/
def Later (c c' : Connection) : Prop := c.now ≤ c'.now

instance : Std.Refl Later := ⟨fun c => le_refl c.now⟩

instance : IsTrans Connection Later := ⟨fun _ _ _ h h' => le_trans h h'⟩

theorem keeps_sleep {seconds : Rat} (h : 0 ≤ seconds) : Keeps Later (sleep seconds) :=
  .modify fun c => by simp [Later, h]

section Later

variable (wire : Wire)

theorem keeps_nextRequest : Keeps Later (nextRequest wire) := fun c =>
  le_add_of_nonneg_right (wire.duration_nonneg c.requested)

theorem keeps_httpRequest (sent : DirectSend) : Keeps Later (httpRequest wire sent) := by
  refine (keeps_nextRequest wire).bind fun k =>
    Keeps.bind (R := Later) (.ofExcept (wire.answer k)) fun response => ?_
  refine Keeps.bind (R := Later) ?_ fun _ => .pure response
  exact .ite _ (.modify fun c => le_refl c.now) (.pure ())

theorem keeps_unlockWallet : Keeps Later (unlockWallet wire) :=
  (keeps_nextRequest wire).bind fun _ => .ofExcept _

theorem keeps_rpcAttempt (sent : DirectSend) : Keeps Later (rpcAttempt wire sent) := by
  refine (keeps_httpRequest wire sent).bind fun response => ?_
  refine .ite _ (.ite _ ?_ (.throw _)) (.ite _ (.throw _) ?_)
  · exact (keeps_unlockWallet wire).bind fun _ => .pure none
  · cases response.json with
    | some value => exact .pure _
    | none => exact .throw _

theorem keeps_rpcLoop (sent : DirectSend) (left : Nat) : Keeps Later (rpcLoop wire sent left) := by
  induction left with
  | zero => exact .throw _
  | succ left ih =>
    refine (keeps_rpcAttempt wire sent).observing.bind fun outcome => ?_
    have hretry : ∀ error : PyError, Keeps Later (if left = 0 then throw error else do
        sleep 1
        rpcLoop wire sent left) := fun error =>
      .ite _ (.throw error) ((keeps_sleep (by norm_num)).bind fun _ => ih)
    match outcome with
    | .ok (some value) => exact .pure value
    | .ok none => exact ih
    | .error (.serviceStateError message) => exact .throw _
    | .error (.valueError _) | .error (.runtimeError _) | .error (.timeoutError _)
    | .error (.typeError _) | .error (.keyError _) | .error (.attributeError _)
    | .error (.rpcError _) | .error (.exception _) => exact hretry _

theorem keeps_rpc (sent : DirectSend) : Keeps Later (rpc wire sent) := keeps_rpcLoop wire sent 4

end Later

/-! ### Acknowledgements -/

/-- A program that ends with an answer added one acknowledgement of the direct send, and one that
ends without an answer added none. -/
def Settles {α : Type} (sent : DirectSend) (answered : α → Bool) (c : Connection) :
    EStateM.Result PyError Connection α → Prop
  | .ok a c' => c'.acknowledged = c.acknowledged ++ if answered a then [sent] else []
  | .error _ c' => c'.acknowledged = c.acknowledged

section Settles

variable {wire : Wire} {sent : DirectSend}

theorem Settles.of_unchanged {α : Type} {answered : α → Bool} {c c1 : Connection}
    {result : EStateM.Result PyError Connection α} (h : c1.acknowledged = c.acknowledged)
    (hresult : Settles sent answered c1 result) : Settles sent answered c result := by
  cases result with
  | ok a c' =>
    rw [Settles, h] at hresult
    exact hresult
  | error error c' => exact hresult.trans h

/-- The client notes the answers that it will return. -/
def HttpResponse.acknowledges (response : HttpResponse) : Bool :=
  decide (response.statusCode < 400 ∧ response.json.isSome)

theorem settles_httpRequest (c : Connection) :
    Settles sent HttpResponse.acknowledges c ((httpRequest wire sent).run c) := by
  simp only [httpRequest, noteAcknowledged, nextRequest, EStateM.run_bind, EStateM.run_get,
    EStateM.run_modify, EStateM.run_pure, run_ofExcept]
  cases wire.answer c.requested with
  | error error => rfl
  | ok response =>
    simp only [run_ite, EStateM.run_modify, EStateM.run_pure]
    by_cases hnote : response.statusCode < 400 ∧ response.json.isSome
    · simp [hnote, Settles, HttpResponse.acknowledges]
    · rw [if_neg hnote]
      simp [Settles, HttpResponse.acknowledges, hnote]

theorem acknowledged_unlockWallet (c : Connection) :
    (stateAfter (unlockWallet wire) c).acknowledged = c.acknowledged := by
  simp only [stateAfter, unlockWallet, nextRequest, EStateM.run_bind, EStateM.run_get,
    EStateM.run_modify, EStateM.run_pure, run_ofExcept]
  cases wire.unlock c.requested <;> rfl

theorem settles_rpcAttempt (c : Connection) :
    Settles sent Option.isSome c ((rpcAttempt wire sent).run c) := by
  have hhttp := @settles_httpRequest wire sent c
  simp only [rpcAttempt, EStateM.run_bind]
  cases hrun : (httpRequest wire sent).run c with
  | error error c1 =>
    rw [hrun] at hhttp
    exact hhttp
  | ok response c1 =>
    rw [hrun, Settles, HttpResponse.acknowledges] at hhttp
    simp only [run_ite, EStateM.run_bind, EStateM.run_pure, run_throw]
    by_cases h401 : response.statusCode = 401
    · -- An answer 401 acknowledges nothing, and neither does unlocking the wallet.
      have hunchanged : c1.acknowledged = c.acknowledged := by simpa [h401] using hhttp
      rw [if_pos h401]
      split
      · have hunlock := @acknowledged_unlockWallet wire c1
        rw [stateAfter] at hunlock
        cases hrest : (unlockWallet wire).run c1 <;> rw [hrest] at hunlock
        · exact (hunlock.trans hunchanged).trans (List.append_nil _).symm
        · exact hunlock.trans hunchanged
      · exact hunchanged
    · rw [if_neg h401]
      split
      · rename_i hstatus
        have hlow : ¬response.statusCode < 400 := by omega
        simpa [Settles, hlow] using hhttp
      · rename_i hstatus
        have hlow : response.statusCode < 400 := by omega
        cases hjson : response.json with
        | some value => simpa [Settles, hlow, hjson] using hhttp
        | none => simpa [Settles, hlow, hjson, run_throw] using hhttp

theorem settles_rpcLoop (left : Nat) (c : Connection) :
    Settles sent (fun _ => true) c ((rpcLoop wire sent left).run c) := by
  induction left generalizing c with
  | zero => rfl
  | succ left ih =>
    have hattempt := @settles_rpcAttempt wire sent c
    simp only [rpcLoop, EStateM.run_bind, run_observing]
    cases hrun : (rpcAttempt wire sent).run c with
    | ok outcome c1 =>
      rw [hrun] at hattempt
      cases outcome with
      | some value => exact hattempt
      | none => exact (ih c1).of_unchanged (by simpa [Settles] using hattempt)
    | error error c1 =>
      rw [hrun] at hattempt
      have hretry : Settles sent (fun _ => true) c ((if left = 0 then throw error else do
          sleep 1
          rpcLoop wire sent left : Net Value).run c1) := by
        rw [run_ite]
        split
        · exact hattempt
        · rw [EStateM.run_bind]
          exact (ih { c1 with now := c1.now + 1 }).of_unchanged hattempt
      cases error with
      | serviceStateError message => exact hattempt
      | _ => exact hretry

/-- `_rpc` returns the answer to a direct send if and only if jmwalletd acknowledged it. -/
theorem settles_rpc (c : Connection) :
    Settles sent (fun _ => true) c ((rpc wire sent).run c) := settles_rpcLoop 4 c

end Settles

/-! ### The retry window of `simple_send` -/

/-- The connection after a pause. -/
def Connection.later (c : Connection) (seconds : Rat) : Connection :=
  { c with now := c.now + seconds }

/-- Some try of the direct send that begins within 30 seconds of `start` is answered with
success. -/
inductive Answered (wire : Wire) (sent : DirectSend) (start : Rat) : Connection → Connection → Prop
  | acknowledged {c c' : Connection} {value : Value} : c.now - start < 30 →
      (rpc wire sent).run c = .ok value c' → Answered wire sent start c c'
  | retried {c c1 c' : Connection} {error : PyError} : c.now - start < 30 →
      (rpc wire sent).run c = .error error c1 → Answered wire sent start (c1.later 2) c' →
      Answered wire sent start c c'

section SimpleSend

variable {wire : Wire} {sent : DirectSend} {start : Rat}

/-- The tries that are left cover the rest of the 30 seconds. -/
theorem fuel_after_retry {c c1 : Connection} {error : PyError} {fuel : Nat}
    (hrun : (rpc wire sent).run c = .error error c1)
    (hfuel : start + 30 ≤ c.now + 2 * ((fuel + 1 : Nat) : Rat)) :
    start + 30 ≤ (c1.later 2).now + 2 * (fuel : Rat) := by
  have hnow : c.now ≤ _ := keeps_rpc wire sent c
  rw [stateAfter_of_error hrun] at hnow
  push_cast at hfuel
  simp only [Connection.later]
  linarith

/-- The retry loop never raises, and it returns an answer if and only if one comes within its 30
seconds. -/
theorem run_simpleSendLoop {fuel : Nat} {c : Connection}
    (hfuel : start + 30 ≤ c.now + 2 * (fuel : Rat)) :
    (∃ value c', (simpleSendLoop wire sent start fuel).run c = .ok (some value) c' ∧
      Answered wire sent start c c') ∨
    ∃ c', (simpleSendLoop wire sent start fuel).run c = .ok none c' ∧
      ¬∃ c'', Answered wire sent start c c'' := by
  induction fuel generalizing c with
  | zero =>
    refine .inr ⟨c, rfl, ?_⟩
    rintro ⟨c'', h⟩
    simp at hfuel
    cases h <;> linarith
  | succ fuel ih =>
    simp only [simpleSendLoop, EStateM.run_bind, EStateM.run_get, run_ite]
    by_cases hnow : c.now - start < 30
    · rw [if_pos hnow, run_observing]
      cases hrun : (rpc wire sent).run c with
      | ok value c' => exact .inl ⟨value, c', rfl, .acknowledged hnow hrun⟩
      | error error c1 =>
        rcases ih (fuel_after_retry hrun hfuel) with
          ⟨value, c', hvalue, hanswered⟩ | ⟨c', hnone, hnot⟩
        · exact .inl ⟨value, c', hvalue, .retried hnow hrun hanswered⟩
        · refine .inr ⟨c', hnone, ?_⟩
          rintro ⟨c'', h⟩
          cases h with
          | acknowledged _ hok =>
            rw [hrun] at hok
            cases hok
          | retried _ herror hrest =>
            rw [hrun] at herror
            cases herror
            exact hnot ⟨c'', hrest⟩
    · rw [if_neg hnow]
      refine .inr ⟨c, rfl, ?_⟩
      rintro ⟨c'', h⟩
      cases h <;> exact hnow ‹_›

theorem settles_simpleSendLoop (fuel : Nat) (c : Connection) :
    Settles sent Option.isSome c ((simpleSendLoop wire sent start fuel).run c) := by
  induction fuel generalizing c with
  | zero => exact (List.append_nil _).symm
  | succ fuel ih =>
    have hrpc := @settles_rpc wire sent c
    simp only [simpleSendLoop, EStateM.run_bind, EStateM.run_get, run_ite]
    split
    · rw [run_observing]
      cases hrun : (rpc wire sent).run c with
      | ok value c' =>
        rw [hrun] at hrpc
        exact hrpc
      | error error c1 =>
        rw [hrun] at hrpc
        exact (ih (c1.later 2)).of_unchanged hrpc
    · exact (List.append_nil _).symm

/-- `simple_send` never raises.  It acknowledges the direct send once if an answer comes within the
30 seconds, and otherwise it returns without an acknowledgement. -/
theorem run_simpleSend (destinationAddress : String) (amountSats mixdepth txfee : Int)
    (c : Connection) :
    let sent : DirectSend := ⟨destinationAddress, amountSats, txfee, mixdepth⟩
    (∃ value c', (simpleSend wire destinationAddress amountSats mixdepth txfee).run c =
        .ok (some value) c' ∧ Answered wire sent c.now c c' ∧
        c'.acknowledged = c.acknowledged ++ [sent]) ∨
    ∃ c', (simpleSend wire destinationAddress amountSats mixdepth txfee).run c = .ok none c' ∧
      (¬∃ c'', Answered wire sent c.now c c'') ∧ c'.acknowledged = c.acknowledged := by
  intro sent
  have hsettles := @settles_simpleSendLoop wire sent c.now 15 c
  rcases @run_simpleSendLoop wire sent c.now 15 c (by norm_num) with
    ⟨value, c', hrun, hanswered⟩ | ⟨c', hrun, hnot⟩
  · rw [hrun] at hsettles
    exact .inl ⟨value, c', hrun, hanswered, hsettles⟩
  · rw [hrun] at hsettles
    exact .inr ⟨c', hrun, hnot, by simpa [Settles] using hsettles⟩

end SimpleSend

end CoinjoinEmulator
