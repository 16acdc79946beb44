import CoinjoinEmulator.JoinMarket.Rpc

/-! `_rpc` and `_rpc_async` with the unlocking of the wallet that they call, which calls them again:
how many requests one call sends, and whether it ends. -/

namespace CoinjoinEmulator.Jmwalletd

open ProofKit

/-- A request to jmwalletd.  `bearer` is the token of its header, which is left out for an empty
one. -/
structure HttpRequest where
  method : String
  endpoint : String
  jsonData : Value
  bearer : Value

/-- The answer to the `k`-th request, or the exception that sending it raises. -/
abbrev Service := Nat → HttpRequest → Except PyError HttpResponse

/-- The requests of a client so far, its tokens, and whether the code that runs holds
`_unlock_lock`. -/
structure ClientState where
  sent : List HttpRequest
  token : Value
  refreshToken : Value
  lockHeld : Bool

/-- How a call ends without a result: it raises, or it waits forever for a lock that it holds
itself. -/
inductive Halt where
  | raised (error : PyError)
  | waiting
deriving DecidableEq, Repr

abbrev Call := EStateM Halt ClientState

def unlockEndpoint (walletname : String) : String := "/wallet/" ++ walletname ++ "/unlock"

/-- The JSON body of an unlock request. -/
def unlockData : Value := .dict (Dict.empty.set "password" (.str "password"))

section Retry

variable (service : Service)

/-- `requests.request(...)` and `client.request(...)`. -/
def send (request : HttpRequest) : Call HttpResponse := do
  let k := (← get).sent.length
  modify fun s => { s with sent := s.sent ++ [request] }
  match service k request with
  | .ok response => return response
  | .error error => throw (.raised error)

/-- One attempt of a call; after the wallet is unlocked there is no result yet. -/
def attempt (unlock : Call Value) (statusError : HttpResponse → PyError) (request : HttpRequest) :
    Call (Option Value) := do
  let response ← send service request
  if response.statusCode = 401 then
    if response.isAuthFailure then
      let _ ← unlock
      return none
    else throw (.raised (.serviceStateError response.errorMessage))
  else if 400 ≤ response.statusCode then
    throw (.raised (statusError response))
  else
    match response.json with
    | some value => return some value
    | none => throw (.raised (.valueError "Expecting value"))

/-- The clauses that follow an attempt.  `again` is the rest of the loop, with the token of its
header. -/
def settleAttempt (again : Value → Call Value) (isLast : Bool) (bearer : Value) :
    Except Halt (Option Value) → Call Value
  | .ok (some value) => return value
  | .ok none => do again (← get).token
  | .error .waiting => throw .waiting
  | .error (.raised (.serviceStateError message)) => throw (.raised (.serviceStateError message))
  | .error (.raised error) => if isLast then throw (.raised error) else again bearer

/-- The loop of a call of `repeats` attempts with a number of them left; `bearer` is the token of
its header. -/
def attempts (unlock : Call Value) (statusError : HttpResponse → PyError)
    (method endpoint : String) (jsonData : Value) (repeats : Int) : Value → Nat → Call Value
  | _, 0 => throw (.raised (.rpcError (method ++ " " ++ endpoint ++ " stayed unauthorized after " ++
      toString repeats ++ " attempts")))
  | bearer, left + 1 => do
    let outcome ← observing
      (attempt service unlock statusError ⟨method, endpoint, jsonData, bearer⟩)
    settleAttempt (fun bearer => attempts unlock statusError method endpoint jsonData repeats bearer left)
      (left = 0) bearer outcome

/-- Store the tokens of an unlock answer. -/
def storeTokens (response : Value) : Call Value :=
  match response with
  | .dict fields => do
    modify fun s => { s with token := (fields.get "token").getD (.str "") }
    modify fun s => { s with refreshToken := (fields.get "refresh_token").getD (.str "") }
    return response
  | _ => throw (.raised (.attributeError "object has no attribute 'get'"))

variable (walletname : String)

/-- Unlock the wallet.  `stack` is how many calls of it the interpreter can nest. -/
def unlockWallet : Nat → Call Value
  | 0 => throw (.raised (.runtimeError "maximum recursion depth exceeded"))
  | stack + 1 => do
    let response ← attempts service (unlockWallet stack) HttpResponse.statusError "POST"
      (unlockEndpoint walletname) unlockData 4 (← get).token 4
    storeTokens response

def rpc (stack : Nat) (method endpoint : String) (jsonData : Value) (repeats : Int) :
    Call Value := do
  attempts service (unlockWallet service walletname stack) HttpResponse.statusError method endpoint
    jsonData repeats (← get).token repeats.toNat

/-- The exception of the asynchronous copy for a status of 400 or more. -/
def asyncStatusError (response : HttpResponse) : PyError :=
  let text := toString response.statusCode ++ ": " ++ response.text
  if response.statusCode = 409 then .exception ("Error " ++ text)
  else .exception ("HTTP Error " ++ text)

/-- `async with self._unlock_lock`: a task waits for a lock that it holds itself, and releases one
that it took when the body ends.  Another task that holds the lock only delays the call. -/
def withUnlockLock (body : Call Value) : Call Value := do
  if (← get).lockHeld then throw .waiting
  else
    modify fun s => { s with lockHeld := true }
    tryFinally body (modify fun s => { s with lockHeld := false })

def unlockWalletAsync : Nat → Call Value
  | 0 => throw (.raised (.runtimeError "maximum recursion depth exceeded"))
  | stack + 1 => withUnlockLock do
    let response ← attempts service (unlockWalletAsync stack) asyncStatusError "POST"
      (unlockEndpoint walletname) unlockData 4 (← get).token 4
    storeTokens response

def rpcAsync (stack : Nat) (method endpoint : String) (jsonData : Value) (repeats : Int) :
    Call Value := do
  attempts service (unlockWalletAsync service walletname stack) asyncStatusError method endpoint
    jsonData repeats (← get).token repeats.toNat

end Retry

/-! ### How many requests a call sends -/

/-- From a state whose lock is `held`, the program returns or raises, sends at most `n` requests and
leaves the lock as it was. -/
def Ends {α : Type} (held : Bool) (n : Nat) (program : Call α) : Prop :=
  ∀ s, s.lockHeld = held → (∀ s', program.run s ≠ .error .waiting s') ∧
    (stateAfter program s).lockHeld = held ∧
    (stateAfter program s).sent.length ≤ s.sent.length + n

section Ends

variable {α β : Type} {held : Bool} {m n : Nat}

theorem Ends.pure (a : α) : Ends held n (pure a : Call α) := fun s hs =>
  ⟨fun s' h => (by cases h), hs, Nat.le_add_right _ _⟩

theorem Ends.raise (error : PyError) : Ends held n (throw (.raised error) : Call α) := fun s hs =>
  ⟨fun s' h => (by cases h), hs, Nat.le_add_right _ _⟩

theorem Ends.mono {program : Call α} (h : Ends held m program) (hle : m ≤ n) :
    Ends held n program := fun s hs => by
  obtain ⟨hwait, hlock, hsent⟩ := h s hs
  exact ⟨hwait, hlock, by omega⟩

theorem Ends.bind {program : Call α} {next : α → Call β} (h : Ends held m program)
    (hnext : ∀ a, Ends held n (next a)) : Ends held (m + n) (program >>= next) := by
  intro s hs
  obtain ⟨hwait, hlock, hsent⟩ := h s hs
  simp only [stateAfter, EStateM.run_bind] at hlock hsent ⊢
  cases hrun : program.run s with
  | ok a s1 =>
    rw [hrun] at hlock hsent
    obtain ⟨hwait', hlock', hsent'⟩ := hnext a s1 hlock
    simp only [stateAfter, resultState] at hsent hsent' hlock' ⊢
    exact ⟨hwait', hlock', by omega⟩
  | error halt s1 =>
    rw [hrun] at hlock hsent
    refine ⟨fun s' h' => ?_, hlock, ?_⟩
    · cases h'
      exact hwait _ hrun
    · simp only [resultState] at hsent ⊢
      omega

/-- Reading the state sends nothing. -/
theorem Ends.get_bind {next : ClientState → Call β} (hnext : ∀ s, Ends held n (next s)) :
    Ends held n (get >>= next) := fun s hs => hnext s s hs

end Ends

section Bounds

variable {service : Service} {walletname : String} {held : Bool}

theorem run_send (request : HttpRequest) (s : ClientState) :
    (send service request).run s =
      match service s.sent.length request with
      | .ok response => .ok response { s with sent := s.sent ++ [request] }
      | .error error => .error (.raised error) { s with sent := s.sent ++ [request] } := by
  simp only [send, EStateM.run_bind, EStateM.run_get, EStateM.run_modify]
  cases service s.sent.length request <;> rfl

theorem ends_send (request : HttpRequest) : Ends held 1 (send service request) := by
  intro s hs
  rw [stateAfter, run_send]
  cases service s.sent.length request with
  | ok response => exact ⟨fun s' h => (by cases h), hs, by simp [resultState]⟩
  | error error => exact ⟨fun s' h => (by cases h), hs, by simp [resultState]⟩

/-- A service that never refuses the credentials of a request to this endpoint. -/
def Accepts (service : Service) (endpoint : String) : Prop :=
  ∀ k request response, request.endpoint = endpoint → service k request = .ok response →
    response.isAuthFailure = false

/-- The end of an attempt that does not unlock the wallet. -/
theorem ends_answer (statusError : HttpResponse → PyError) (response : HttpResponse) :
    Ends held 0 (if 400 ≤ response.statusCode then throw (.raised (statusError response))
      else match response.json with
        | some value => Pure.pure (some value)
        | none => throw (.raised (.valueError "Expecting value")) : Call (Option Value)) := by
  split
  · exact .raise _
  · cases response.json with
    | some value => exact .pure _
    | none => exact .raise _

/-- An attempt sends its own request and those of the unlocking that it may need. -/
theorem ends_attempt {unlock : Call Value} {n : Nat} (statusError : HttpResponse → PyError)
    (request : HttpRequest) (hunlock : Accepts service request.endpoint ∨ Ends held n unlock) :
    Ends held (1 + n) (attempt service unlock statusError request) := by
  rcases hunlock with haccepts | hunlock
  · intro s hs
    obtain ⟨hwait, hlock, hsent⟩ := @ends_send service held request s hs
    simp only [stateAfter, attempt, EStateM.run_bind] at hlock hsent ⊢
    rw [run_send] at hlock hsent ⊢
    cases hanswer : service s.sent.length request with
    | error error =>
      rw [hanswer] at hlock hsent
      exact ⟨fun s' h => (by cases h), hlock, by simp only [resultState] at hsent ⊢; omega⟩
    | ok response =>
      rw [hanswer] at hlock hsent
      have hauth := haccepts _ request response rfl hanswer
      simp only [hauth, Bool.false_eq_true, if_false]
      have hend : Ends held 0 (if response.statusCode = 401 then
          throw (.raised (.serviceStateError response.errorMessage))
        else if 400 ≤ response.statusCode then throw (.raised (statusError response))
        else match response.json with
          | some value => Pure.pure (some value)
          | none => throw (.raised (.valueError "Expecting value")) : Call (Option Value)) := by
        split
        · exact .raise _
        · exact ends_answer statusError response
      obtain ⟨hwait', hlock', hsent'⟩ := hend _ hlock
      simp only [stateAfter, resultState] at hsent hsent'
      exact ⟨hwait', hlock', by simp only [resultState]; omega⟩
  · refine (ends_send request).bind fun response => ?_
    split
    · split
      · exact hunlock.bind (n := 0) fun _ => .pure none
      · exact .raise _
    · exact (ends_answer statusError response).mono (Nat.zero_le _)

theorem ends_settleAttempt {again : Value → Call Value} {n : Nat}
    (hagain : ∀ bearer, Ends held n (again bearer)) (isLast : Bool) (bearer : Value)
    (outcome : Except Halt (Option Value)) (hwait : outcome ≠ .error .waiting) :
    Ends held n (settleAttempt again isLast bearer outcome) := by
  have hretry : ∀ error : PyError,
      Ends held n (if isLast then throw (.raised error) else again bearer) := by
    intro error
    split
    · exact .raise error
    · exact hagain bearer
  match outcome with
  | .ok (some value) => exact .pure value
  | .ok none => exact .get_bind fun s => hagain s.token
  | .error .waiting => exact absurd rfl hwait
  | .error (.raised (.serviceStateError message)) => exact .raise _
  | .error (.raised (.valueError _)) | .error (.raised (.runtimeError _))
  | .error (.raised (.timeoutError _)) | .error (.raised (.typeError _))
  | .error (.raised (.keyError _)) | .error (.raised (.attributeError _))
  | .error (.raised (.rpcError _)) | .error (.raised (.exception _)) => exact hretry _

/-- A loop sends the requests of its attempts. -/
theorem ends_attempts {unlock : Call Value} {n : Nat} (statusError : HttpResponse → PyError)
    (method : String) {endpoint : String} (jsonData : Value) (repeats : Int)
    (hunlock : Accepts service endpoint ∨ Ends held n unlock) (bearer : Value) (left : Nat) :
    Ends held (left * (1 + n))
      (attempts service unlock statusError method endpoint jsonData repeats bearer left) := by
  induction left generalizing bearer with
  | zero => exact .raise _
  | succ left ih =>
    intro s hs
    obtain ⟨hwait, hlock, hsent⟩ := ends_attempt statusError
      ⟨method, endpoint, jsonData, bearer⟩ hunlock s hs
    have hcount : (left + 1) * (1 + n) = left * (1 + n) + (1 + n) := Nat.succ_mul _ _
    simp only [stateAfter, attempts, EStateM.run_bind, run_observing] at hlock hsent ⊢
    cases hrun : (attempt service unlock statusError ⟨method, endpoint, jsonData, bearer⟩).run s with
    | ok outcome s1 =>
      rw [hrun] at hlock hsent
      obtain ⟨hwait', hlock', hsent'⟩ := ends_settleAttempt ih (left = 0) bearer
        (.ok outcome) (fun h => by cases h) s1 hlock
      simp only [stateAfter, resultState] at hsent hsent' ⊢
      exact ⟨hwait', hlock', by omega⟩
    | error halt s1 =>
      rw [hrun] at hlock hsent
      obtain ⟨hwait', hlock', hsent'⟩ := ends_settleAttempt ih (left = 0) bearer
        (.error halt) (fun h => by cases h; exact hwait s1 hrun) s1 hlock
      simp only [stateAfter, resultState] at hsent hsent' ⊢
      exact ⟨hwait', hlock', by omega⟩

theorem ends_storeTokens (response : Value) : Ends held 0 (storeTokens response) := by
  cases response with
  | dict fields => exact fun s hs => ⟨fun s' h => (by cases h), hs, Nat.le_refl _⟩
  | _ => exact .raise _

theorem ends_unlockWallet (haccepts : Accepts service (unlockEndpoint walletname)) (stack : Nat) :
    Ends held 4 (unlockWallet service walletname stack) := by
  cases stack with
  | zero => exact .raise _
  | succ stack =>
    refine .get_bind fun s => ?_
    exact (ends_attempts (n := 0) _ _ _ 4 (.inl haccepts) s.token 4).bind ends_storeTokens

/-- A body that ends while it holds the lock ends with the lock around it. -/
theorem ends_withUnlockLock {body : Call Value} {n : Nat} (hbody : Ends true n body) :
    Ends false n (withUnlockLock body) := by
  intro s hs
  obtain ⟨hwait, hlock, hsent⟩ := hbody { s with lockHeld := true } rfl
  simp only [stateAfter, withUnlockLock, EStateM.run_bind, EStateM.run_get, hs, Bool.false_eq_true,
    if_false, EStateM.run_modify, run_tryFinally] at hlock hsent ⊢
  cases hrun : body.run { s with lockHeld := true } with
  | ok value s1 =>
    rw [hrun] at hsent
    exact ⟨fun s' h => (by cases h), rfl, hsent⟩
  | error halt s1 =>
    rw [hrun] at hsent
    refine ⟨fun s' h => ?_, rfl, hsent⟩
    cases h
    exact hwait s1 hrun

theorem ends_unlockWalletAsync (haccepts : Accepts service (unlockEndpoint walletname))
    (stack : Nat) : Ends false 4 (unlockWalletAsync service walletname stack) := by
  cases stack with
  | zero => exact .raise _
  | succ stack =>
    refine ends_withUnlockLock (.get_bind fun s => ?_)
    exact (ends_attempts (n := 0) _ _ _ 4 (.inl haccepts) s.token 4).bind ends_storeTokens

end Bounds

/-! ### Both copies -/

inductive RpcCopy where
  | sync
  | async
deriving DecidableEq

/-- One call of `_rpc` or of `_rpc_async`. -/
def call (copy : RpcCopy) : Service → String → Nat → String → String → Value → Int → Call Value :=
  match copy with
  | .sync => rpc
  | .async => rpcAsync

theorem ends_call (copy : RpcCopy) {service : Service} {walletname : String}
    (haccepts : Accepts service (unlockEndpoint walletname)) (stack : Nat)
    (method endpoint : String) (jsonData : Value) (repeats : Int) :
    Ends false (repeats.toNat * 5)
      (call copy service walletname stack method endpoint jsonData repeats) := by
  cases copy with
  | sync =>
    have hunlock : Ends false 4 (unlockWallet service walletname stack) :=
      ends_unlockWallet haccepts stack
    exact .get_bind fun s => ends_attempts _ _ _ _ (.inr hunlock) s.token _
  | async =>
    have hunlock := ends_unlockWalletAsync haccepts stack
    exact .get_bind fun s => ends_attempts _ _ _ _ (.inr hunlock) s.token _

/-! ### An unlock request that is refused -/

/-- The number of sent requests does not decrease. -/
def Sends (s s' : ClientState) : Prop := s.sent.length ≤ s'.sent.length

instance : Std.Refl Sends := ⟨fun _ => Nat.le_refl _⟩

instance : IsTrans ClientState Sends := ⟨fun _ _ _ h h' => Nat.le_trans h h'⟩

section Refused

variable {service : Service} {walletname : String}

theorem sends_send (request : HttpRequest) : Keeps Sends (send service request) := by
  intro s
  rw [stateAfter, run_send]
  cases service s.sent.length request <;> simp [resultState, Sends]

theorem sends_attempt {unlock : Call Value} (hunlock : Keeps Sends unlock)
    (statusError : HttpResponse → PyError) (request : HttpRequest) :
    Keeps Sends (attempt service unlock statusError request) := by
  refine (sends_send request).bind fun response => ?_
  refine .ite _ (.ite _ ?_ (.throw _)) (.ite _ (.throw _) ?_)
  · exact hunlock.bind fun _ => .pure none
  · cases response.json with
    | some value => exact .pure _
    | none => exact .throw _

theorem sends_settleAttempt {again : Value → Call Value}
    (hagain : ∀ bearer, Keeps Sends (again bearer)) (isLast : Bool) (bearer : Value)
    (outcome : Except Halt (Option Value)) :
    Keeps Sends (settleAttempt again isLast bearer outcome) := by
  have hretry : ∀ error : PyError,
      Keeps Sends (if isLast then throw (.raised error) else again bearer) := fun error =>
    .ite _ (.throw _) (hagain bearer)
  match outcome with
  | .ok (some value) => exact .pure value
  | .ok none => exact Keeps.get.bind fun s => hagain s.token
  | .error .waiting => exact .throw _
  | .error (.raised (.serviceStateError message)) => exact .throw _
  | .error (.raised (.valueError _)) | .error (.raised (.runtimeError _))
  | .error (.raised (.timeoutError _)) | .error (.raised (.typeError _))
  | .error (.raised (.keyError _)) | .error (.raised (.attributeError _))
  | .error (.raised (.rpcError _)) | .error (.raised (.exception _)) => exact hretry _

theorem sends_attempts {unlock : Call Value} (hunlock : Keeps Sends unlock)
    (statusError : HttpResponse → PyError) (method endpoint : String) (jsonData : Value)
    (repeats : Int) (bearer : Value) (left : Nat) :
    Keeps Sends
      (attempts service unlock statusError method endpoint jsonData repeats bearer left) := by
  induction left generalizing bearer with
  | zero => exact .throw _
  | succ left ih =>
    exact (sends_attempt hunlock statusError _).observing.bind (sends_settleAttempt ih _ bearer)

theorem sends_storeTokens (response : Value) : Keeps Sends (storeTokens response) := by
  cases response with
  | dict fields => exact fun s => Nat.le_refl _
  | _ => exact .throw _

theorem sends_unlockWallet (stack : Nat) : Keeps Sends (unlockWallet service walletname stack) := by
  induction stack with
  | zero => exact .throw _
  | succ stack ih =>
    exact Keeps.get.bind fun s => (sends_attempts ih _ _ _ _ 4 s.token 4).bind sends_storeTokens

/-- A loop sends at least the requests of its first attempt. -/
theorem sends_first_attempt {unlock : Call Value} (hunlock : Keeps Sends unlock)
    (statusError : HttpResponse → PyError) (method endpoint : String) (jsonData : Value)
    (repeats : Int) (bearer : Value) (left : Nat) (s : ClientState) :
    Sends (stateAfter (attempt service unlock statusError ⟨method, endpoint, jsonData, bearer⟩) s)
      (stateAfter (attempts service unlock statusError method endpoint jsonData repeats bearer
        (left + 1)) s) := by
  rw [← stateAfter_observing]
  exact Keeps.stateAfter_bind (sends_settleAttempt
    (fun bearer => sends_attempts hunlock _ _ _ _ _ bearer left) _ bearer) s

/-- A refused attempt goes on with unlocking the wallet. -/
theorem run_attempt_refused {response : HttpResponse} (hauth : response.isAuthFailure = true)
    (hservice : ∀ k request, service k request = .ok response) (unlock : Call Value)
    (statusError : HttpResponse → PyError) (request : HttpRequest) (s : ClientState) :
    (attempt service unlock statusError request).run s =
      match unlock.run { s with sent := s.sent ++ [request] } with
      | .ok _ s' => .ok none s'
      | .error halt s' => .error halt s' := by
  have h401 : response.statusCode = 401 := by
    by_contra hother
    simp [HttpResponse.isAuthFailure, hother] at hauth
  simp only [attempt, EStateM.run_bind, run_send, hservice, h401, hauth, if_true]
  cases unlock.run { s with sent := s.sent ++ [request] } <;> rfl

section AlwaysRefused

variable {response : HttpResponse} (hauth : response.isAuthFailure = true)
  (hservice : ∀ k request, service k request = .ok response)

include hauth hservice

/-- The first attempt of a loop sends its request and what unlocking sends. -/
theorem sent_attempts_refused {unlock : Call Value} {n : Nat} (hsends : Keeps Sends unlock)
    (hunlock : ∀ s, s.sent.length + n ≤ (stateAfter unlock s).sent.length)
    (statusError : HttpResponse → PyError) (method endpoint : String) (jsonData : Value)
    (repeats : Int) (bearer : Value) (left : Nat) (s : ClientState) :
    s.sent.length + (n + 1) ≤ (stateAfter (attempts service unlock statusError method endpoint
      jsonData repeats bearer (left + 1)) s).sent.length := by
  have hfirst := @sends_first_attempt service unlock hsends statusError method endpoint
    jsonData repeats bearer left s
  have hattempt : (stateAfter (attempt service unlock statusError
        ⟨method, endpoint, jsonData, bearer⟩) s).sent.length =
      (stateAfter unlock { s with
        sent := s.sent ++ [⟨method, endpoint, jsonData, bearer⟩] }).sent.length := by
    rw [stateAfter, run_attempt_refused hauth hservice, stateAfter]
    cases unlock.run { s with sent := s.sent ++ [⟨method, endpoint, jsonData, bearer⟩] } <;> rfl
  have hnested := hunlock { s with sent := s.sent ++ [⟨method, endpoint, jsonData, bearer⟩] }
  simp only [List.length_append, List.length_singleton] at hnested
  have hle : s.sent.length + (n + 1) ≤ (stateAfter (attempt service unlock statusError
      ⟨method, endpoint, jsonData, bearer⟩) s).sent.length := by
    rw [hattempt]
    omega
  exact hle.trans hfirst

/-- Unlocking nests as deep as the interpreter allows, with a request at each level. -/
theorem sent_unlockWallet_refused (stack : Nat) (s : ClientState) :
    s.sent.length + stack ≤ (stateAfter (unlockWallet service walletname stack) s).sent.length := by
  induction stack generalizing s with
  | zero => exact sends_unlockWallet 0 s
  | succ stack ih =>
    have hloop := sent_attempts_refused hauth hservice (sends_unlockWallet stack) ih
      HttpResponse.statusError "POST" (unlockEndpoint walletname) unlockData 4 s.token 3 s
    exact hloop.trans (Keeps.stateAfter_bind sends_storeTokens s)

theorem sent_rpc_refused (stack : Nat) (method endpoint : String) (jsonData : Value)
    {repeats : Int} (hrepeats : 0 < repeats) (s : ClientState) :
    s.sent.length + (stack + 1) ≤
      (stateAfter (rpc service walletname stack method endpoint jsonData repeats) s).sent.length := by
  obtain ⟨left, rfl⟩ := Int.eq_succ_of_zero_lt hrepeats
  exact sent_attempts_refused hauth hservice (sends_unlockWallet stack)
    (sent_unlockWallet_refused hauth hservice stack) HttpResponse.statusError method endpoint
    jsonData _ s.token left s

/-- A loop waits if its first attempt waits for the lock while it unlocks the wallet. -/
theorem run_attempts_waiting {unlock : Call Value} (statusError : HttpResponse → PyError)
    (method endpoint : String) (jsonData : Value) (repeats : Int) (bearer : Value) (left : Nat)
    {s s' : ClientState} (hunlock : unlock.run
      { s with sent := s.sent ++ [⟨method, endpoint, jsonData, bearer⟩] } = .error .waiting s') :
    (attempts service unlock statusError method endpoint jsonData repeats bearer (left + 1)).run s =
      .error .waiting s' := by
  simp only [attempts, EStateM.run_bind, run_observing, run_attempt_refused hauth hservice, hunlock]
  rfl

omit hauth hservice in
theorem run_unlockWalletAsync_held (stack : Nat) {s : ClientState} (hs : s.lockHeld = true) :
    (unlockWalletAsync service walletname (stack + 1)).run s = .error .waiting s := by
  simp only [unlockWalletAsync, withUnlockLock, EStateM.run_bind, EStateM.run_get, hs, if_true,
    run_throw]

/-- The request that unlocks the wallet holds the lock, so its own refusal waits for it. -/
theorem run_unlockWalletAsync_refused (stack : Nat) {s : ClientState} (hs : s.lockHeld = false) :
    ∃ s', (unlockWalletAsync service walletname (stack + 2)).run s = .error .waiting s' := by
  have hbody : ∃ s', (attempts service (unlockWalletAsync service walletname (stack + 1))
      asyncStatusError "POST" (unlockEndpoint walletname) unlockData 4 s.token 4).run
        { s with lockHeld := true } = .error .waiting s' :=
    ⟨_, run_attempts_waiting hauth hservice _ _ _ _ _ _ 3 (run_unlockWalletAsync_held stack rfl)⟩
  obtain ⟨s', hbody⟩ := hbody
  refine ⟨{ s' with lockHeld := false }, ?_⟩
  rw [unlockWalletAsync]
  simp only [withUnlockLock, EStateM.run_bind, EStateM.run_get, hs,
    Bool.false_eq_true, if_false, EStateM.run_modify, run_tryFinally, hbody]

/-- The asynchronous copy waits for its own lock as soon as its unlock request is refused. -/
theorem run_rpcAsync_refused (stack : Nat) (method endpoint : String) (jsonData : Value)
    {s : ClientState} (hlock : s.lockHeld = false) :
    ∃ s', (rpcAsync service walletname (stack + 2) method endpoint jsonData 1).run s =
      .error .waiting s' := by
  obtain ⟨s', hs'⟩ := run_unlockWalletAsync_refused hauth hservice stack
    (s := { s with sent := s.sent ++ [⟨method, endpoint, jsonData, s.token⟩] }) hlock
  exact ⟨s', run_attempts_waiting hauth hservice _ _ _ _ 1 s.token 0 hs'⟩

end AlwaysRefused

end Refused

/-- A service that answers the requests to one endpoint from `answers`. -/
def AnswersFrom (service : Service) (endpoint : String)
    (answers : Set (Except PyError HttpResponse)) : Prop :=
  ∀ k request, request.endpoint = endpoint → service k request ∈ answers

/-- Every call ends, with a number of requests bounded by a function of its repeat count only, if
and only if no unlock request is refused for its credentials. -/
theorem call_ends_iff (copy : RpcCopy) (answers : Set (Except PyError HttpResponse)) :
    (∃ bound : Int → Nat, ∀ (service : Service) (walletname : String) (stack : Nat)
      (method endpoint : String) (jsonData : Value) (repeats : Int),
      AnswersFrom service (unlockEndpoint walletname) answers →
      Ends false (bound repeats) (call copy service walletname stack method endpoint jsonData
        repeats)) ↔
      ∀ response, .ok response ∈ answers → response.isAuthFailure = false := by
  constructor
  · rintro ⟨bound, hbound⟩ response hanswer
    by_contra hrefused
    rw [Bool.not_eq_false] at hrefused
    -- the service that refuses everything
    have hends := hbound (fun _ _ => .ok response) "wallet" (bound 1 + 2) "GET" "/session" .none 1
      (fun _ _ _ => hanswer) ⟨[], .str "", .str "", false⟩ rfl
    cases copy with
    | sync =>
      have hsent := @sent_rpc_refused (fun _ _ => .ok response) "wallet" response hrefused
        (fun _ _ => rfl) (bound 1 + 2) "GET" "/session" .none 1 Int.one_pos
          ⟨[], .str "", .str "", false⟩
      have hle := hsent.trans hends.2.2
      simp only [List.length_nil] at hle
      omega
    | async =>
      obtain ⟨s', hwait⟩ := run_rpcAsync_refused hrefused (fun _ _ => rfl)
        (bound 1) "GET" "/session" .none (s := ⟨[], .str "", .str "", false⟩) rfl
      exact hends.1 s' hwait
  · intro haccepts
    refine ⟨fun repeats => repeats.toNat * 5, fun service walletname stack method endpoint jsonData
      repeats hservice => ends_call copy ?_ stack method endpoint jsonData repeats⟩
    intro k request response hendpoint hanswer
    exact haccepts response (hanswer ▸ hservice k request hendpoint)

/-- A 401 answer of jmwalletd about an invalid token. -/
def invalidToken : HttpResponse where
  statusCode := 401
  wwwAuthenticate := true
  json := none
  text := ""

/-- The asynchronous copy never ends and the synchronous one has no bound when every answer refuses
the credentials. -/
theorem refused_call_does_not_end :
    (∃ s', (rpcAsync (fun _ _ => .ok invalidToken) "wallet" 2 "GET" "/session" .none 4).run
        ⟨[], .str "", .str "", false⟩ = .error .waiting s' ∧ s'.sent.length = 2) ∧
      ∀ bound : Int → Nat, ∃ stack, ¬Ends false (bound 4)
        (rpc (fun _ _ => .ok invalidToken) "wallet" stack "GET" "/session" .none 4) := by
  refine ⟨⟨_, rfl, rfl⟩, fun bound => ⟨bound 4, fun hends => ?_⟩⟩
  have hsent := @sent_rpc_refused (fun _ _ => .ok invalidToken) "wallet" invalidToken rfl
    (fun _ _ => rfl) (bound 4) "GET" "/session" .none 4 (by decide) ⟨[], .str "", .str "", false⟩
  have hle := hsent.trans (hends ⟨[], .str "", .str "", false⟩ rfl).2.2
  simp only [List.length_nil] at hle
  omega

end CoinjoinEmulator.Jmwalletd
