import Mathlib.Logic.Function.Basic
import Mathlib.Tactic.TypeStar

/-! Programs that put questions to a host and go on from its answers, which the programs of other
parties may come between.  What one party gets to see of the host when the others leave its part of
the state alone. -/

namespace ProofKit

/-- A program that ends with a result or puts a question.  `Reply q` is the type of the answers to
`q`. -/
inductive Session (Q : Type) (Reply : Q → Type) (α : Type) where
  | done (result : α)
  | ask (question : Q) (next : Reply question → Session Q Reply α)

namespace Session

variable {Q : Type} {Reply : Q → Type} {ε α β : Type}

def bind : Session Q Reply α → (α → Session Q Reply β) → Session Q Reply β
  | done result, f => f result
  | ask question next, f => ask question fun reply => (next reply).bind f

instance : Monad (Session Q Reply) where
  pure := done
  bind := bind

/-- Put one question. -/
def put (question : Q) : Session Q Reply (Reply question) := ask question done

/-- Every question of the program is allowed and its result meets `post`, as long as every answer
is one that `given` lets the host give. -/
def Meets (allowed : Q → Prop) (given : (q : Q) → Reply q → Prop) (post : α → Prop) :
    Session Q Reply α → Prop
  | done result => post result
  | ask question next => allowed question ∧
      ∀ reply, given question reply → (next reply).Meets allowed given post

variable {allowed : Q → Prop} {given : (q : Q) → Reply q → Prop} {post : α → Prop}
  {post' : β → Prop}

theorem Meets.bind {program : Session Q Reply α} {f : α → Session Q Reply β}
    (h : program.Meets allowed given post)
    (hf : ∀ a, post a → (f a).Meets allowed given post') :
    (program.bind f).Meets allowed given post' := by
  induction program with
  | done result => exact hf result h
  | ask question next ih => exact ⟨h.1, fun reply hreply => ih reply (h.2 reply hreply)⟩

theorem Meets.mono {program : Session Q Reply α} {post₂ : α → Prop}
    (h : program.Meets allowed given post) (hpost : ∀ a, post a → post₂ a) :
    program.Meets allowed given post₂ := by
  induction program with
  | done result => exact hpost result h
  | ask question next ih => exact ⟨h.1, fun reply hreply => ih reply (h.2 reply hreply)⟩

/-! ### Programs over operations -/

variable {P : Type} {Result : P → Type}

/-- The program that performs the operations that `script` asks for. -/
def perform (operation : (p : P) → Session Q Reply (Result p)) :
    Session P Result α → Session Q Reply α
  | done result => done result
  | ask p next => (operation p).bind fun result => (next result).perform operation

theorem Meets.perform {operation : (p : P) → Session Q Reply (Result p)}
    (h : ∀ p, (operation p).Meets allowed given fun _ => True) (script : Session P Result α) :
    (script.perform operation).Meets allowed given fun _ => True := by
  induction script with
  | done result => exact trivial
  | ask p next ih => exact (h p).bind fun result _ => ih result

/-! ### Programs that may raise an exception -/

/-- A program that puts questions and may raise an exception. -/
abbrev Raising (ε : Type) (Q : Type) (Reply : Q → Type) := ExceptT ε (Session Q Reply)

/-- Put a question whose answer may be an error. -/
def raising (question : Q) (answer : Reply question → Except ε α) : Raising ε Q Reply α :=
  ExceptT.mk (answer <$> put question)

/-- Every question is allowed, and a value that is returned meets `post`. -/
def Asks (allowed : Q → Prop) (given : (q : Q) → Reply q → Prop)
    (program : Raising ε Q Reply α) (post : α → Prop) : Prop :=
  Session.Meets allowed given (fun result => ∀ a, result = .ok a → post a) program.run

section Raising

variable {program : Raising ε Q Reply α} {f : α → Raising ε Q Reply β}

theorem asks_pure {a : α} (h : post a) :
    Asks allowed given (pure a : Raising ε Q Reply α) post := by
  rintro _ ⟨⟩
  exact h

theorem asks_throw (error : ε) :
    Asks allowed given (throw error : Raising ε Q Reply α) post := nofun

theorem Asks.bind (h : Asks allowed given program post)
    (hf : ∀ a, post a → Asks allowed given (f a) post') :
    Asks allowed given (program >>= f) post' := by
  refine Meets.bind h fun result hresult => ?_
  cases result with
  | ok a => exact hf a (hresult a rfl)
  | error error => exact nofun

theorem Asks.tryCatch {handler : ε → Raising ε Q Reply α} (h : Asks allowed given program post)
    (hhandler : ∀ error, Asks allowed given (handler error) post) :
    Asks allowed given (tryCatch program handler) post := by
  refine Meets.bind h fun result hresult => ?_
  cases result with
  | ok a => exact fun b hb => hresult b hb
  | error error => exact hhandler error

theorem Asks.mono {post₂ : α → Prop} (h : Asks allowed given program post)
    (hpost : ∀ a, post a → post₂ a) : Asks allowed given program post₂ :=
  Meets.mono h fun _ hresult a ha => hpost a (hresult a ha)

theorem asks_raising {question : Q} (answer : Reply question → Except ε α)
    (hallowed : allowed question)
    (hgiven : ∀ reply a, given question reply → answer reply = .ok a → post a) :
    Asks allowed given (raising question answer) post :=
  ⟨hallowed, fun reply hreply a ha => hgiven reply a hreply ha⟩

theorem Asks.forM {items : List α} {body : α → Raising ε Q Reply PUnit}
    (h : ∀ item ∈ items, Asks allowed given (body item) fun _ => True) :
    Asks allowed given (items.forM body) fun _ => True := by
  induction items with
  | nil => exact asks_pure trivial
  | cons item items ih =>
    exact (h item (by simp)).bind fun _ _ => ih fun item' hitem' =>
      h item' (List.mem_cons_of_mem item hitem')

end Raising

end Session

/-! ### Parties that share a host -/

/-- A host with state of type `S`.  A question comes from an owner; `D` is what else decides the
answer, and `E` is what may happen to the state between two questions. -/
structure Host (S Q : Type) (Reply : Q → Type) (O D E : Type) where
  answer : O → D → (q : Q) → S → Reply q × S
  outside : E → S → S

/-- A party takes its next turn, or something happens at the host. -/
inductive Move (N D E : Type) where
  | turn (party : N) (data : D)
  | event (e : E)

/-- The state of the host and how far each party is. -/
structure Table (S N Q : Type) (Reply : Q → Type) (α : Type) where
  state : S
  sessions : N → Session Q Reply α

namespace Host

variable {S N Q : Type} {Reply : Q → Type} {O D E α : Type} [DecidableEq N]

variable (host : Host S Q Reply O D E) (owner : N → O)

/-- One move. -/
def move (table : Table S N Q Reply α) : Move N D E → Table S N Q Reply α
  | .turn n d =>
    match table.sessions n with
    | .done _ => table
    | .ask question next =>
      let (reply, state) := host.answer (owner n) d question table.state
      { state, sessions := Function.update table.sessions n (next reply) }
  | .event e => { table with state := host.outside e table.state }

theorem move_turn_done {table : Table S N Q Reply α} {n : N} {result : α}
    (h : table.sessions n = .done result) (d : D) :
    host.move owner table (.turn n d) = table := by
  simp only [move, h]

theorem move_turn_ask {table : Table S N Q Reply α} {n : N} {question : Q}
    {next : Reply question → Session Q Reply α} (h : table.sessions n = .ask question next)
    (d : D) :
    host.move owner table (.turn n d) =
      { state := (host.answer (owner n) d question table.state).2
        sessions := Function.update table.sessions n
          (next (host.answer (owner n) d question table.state).1) } := by
  simp only [move, h]

/-- What the table is after a list of moves. -/
def moves (table : Table S N Q Reply α) (schedule : List (Move N D E)) : Table S N Q Reply α :=
  schedule.foldl (host.move owner) table

/-- The moves of an owner's parties, and the events that concern its part of the state. -/
def isOwn [DecidableEq O] (o : O) (concerns : E → Bool) : Move N D E → Bool
  | .turn n _ => decide (owner n = o)
  | .event e => concerns e

/-- The part of the state that `view` shows is one owner's: its questions depend on nothing else,
and the questions of the others and the events that do not concern it leave it as it is.  `inv` is
what every allowed question and every event keeps. -/
structure Separates (o : O) (view : S → S) (concerns : E → Bool) (inv : S → Prop)
    (allowed : O → Q → Prop) (given : O → (q : Q) → Reply q → Prop) : Prop where
  keeps : ∀ p d q s, inv s → allowed p q → inv (host.answer p d q s).2
  gives : ∀ p d q s, inv s → allowed p q → given p q (host.answer p d q s).1
  own_reply : ∀ d q s, inv s → allowed o q →
    (host.answer o d q (view s)).1 = (host.answer o d q s).1
  own_state : ∀ d q s, inv s → allowed o q →
    (host.answer o d q (view s)).2 = view (host.answer o d q s).2
  others : ∀ p d q s, inv s → p ≠ o → allowed p q → view (host.answer p d q s).2 = view s
  keeps_outside : ∀ e s, inv s → inv (host.outside e s)
  own_outside : ∀ e s, inv s → concerns e = true → host.outside e (view s) = view (host.outside e s)
  other_outside : ∀ e s, inv s → concerns e = false → view (host.outside e s) = view s

/-- A table on which `o`'s parties are as far as they are on another one, with `o`'s part of the
state. -/
structure Alone (o : O) (view : S → S) (alone table : Table S N Q Reply α) : Prop where
  state : alone.state = view table.state
  sessions : ∀ n, owner n = o → alone.sessions n = table.sessions n

section Separates

variable {host owner} {o : O} {view : S → S} {concerns : E → Bool} {inv : S → Prop}
  {allowed : O → Q → Prop} {given : O → (q : Q) → Reply q → Prop}
  {table alone : Table S N Q Reply α}

/-- What holds of a table that is reached. -/
structure Orderly (owner : N → O) (inv : S → Prop) (allowed : O → Q → Prop)
    (given : O → (q : Q) → Reply q → Prop) (table : Table S N Q Reply α) : Prop where
  state : inv table.state
  sessions : ∀ n, (table.sessions n).Meets (allowed (owner n)) (given (owner n)) fun _ => True

theorem Separates.orderly_move (h : host.Separates o view concerns inv allowed given)
    (horderly : Orderly owner inv allowed given table) (next : Move N D E) :
    Orderly owner inv allowed given (host.move owner table next) := by
  cases next with
  | event e => exact ⟨h.keeps_outside e _ horderly.state, horderly.sessions⟩
  | turn n d =>
    have hn := horderly.sessions n
    cases hsession : table.sessions n with
    | done result =>
      rw [move_turn_done host owner hsession]
      exact horderly
    | ask question next =>
      rw [hsession] at hn
      rw [move_turn_ask host owner hsession]
      refine ⟨h.keeps _ d _ _ horderly.state hn.1, fun m => ?_⟩
      by_cases hm : m = n
      · subst hm
        simp only [Function.update_self]
        exact hn.2 _ (h.gives _ d _ _ horderly.state hn.1)
      · simp only [Function.update_of_ne hm]
        exact horderly.sessions m

/-- A move of the owner's keeps the two tables together. -/
theorem Separates.own_move [DecidableEq O] (h : host.Separates o view concerns inv allowed given)
    (horderly : Orderly owner inv allowed given table) (halone : Alone owner o view alone table)
    {next : Move N D E} (hown : isOwn owner o concerns next = true) :
    Alone owner o view (host.move owner alone next) (host.move owner table next) := by
  cases next with
  | event e =>
    refine ⟨?_, halone.sessions⟩
    show host.outside e alone.state = view (host.outside e table.state)
    rw [halone.state]
    exact h.own_outside e _ horderly.state hown
  | turn n d =>
    have hn : owner n = o := by simpa [isOwn] using hown
    have hmeets := horderly.sessions n
    have hsame := halone.sessions n hn
    cases hsession : table.sessions n with
    | done result =>
      rw [move_turn_done host owner hsession, move_turn_done host owner (hsame.trans hsession)]
      exact halone
    | ask question next =>
      rw [hsession, hn] at hmeets
      rw [move_turn_ask host owner hsession, move_turn_ask host owner (hsame.trans hsession), hn,
        halone.state]
      refine ⟨h.own_state d _ _ horderly.state hmeets.1, fun m hm => ?_⟩
      by_cases hmn : m = n
      · subst hmn
        simp only [Function.update_self]
        rw [h.own_reply d _ _ horderly.state hmeets.1]
      · simp only [Function.update_of_ne hmn]
        exact halone.sessions m hm

/-- A move of another's leaves the owner's part of the state and its parties as they are. -/
theorem Separates.other_move [DecidableEq O] (h : host.Separates o view concerns inv allowed given)
    (horderly : Orderly owner inv allowed given table) (halone : Alone owner o view alone table)
    {next : Move N D E} (hother : isOwn owner o concerns next = false) :
    Alone owner o view alone (host.move owner table next) := by
  cases next with
  | event e =>
    refine ⟨?_, halone.sessions⟩
    rw [halone.state]
    exact (h.other_outside e _ horderly.state hother).symm
  | turn n d =>
    have hn : owner n ≠ o := by simpa [isOwn] using hother
    have hmeets := horderly.sessions n
    cases hsession : table.sessions n with
    | done result =>
      rw [move_turn_done host owner hsession]
      exact halone
    | ask question next =>
      rw [hsession] at hmeets
      rw [move_turn_ask host owner hsession]
      refine ⟨?_, fun m hm => ?_⟩
      · rw [halone.state]
        exact (h.others _ d _ _ horderly.state hn hmeets.1).symm
      · have hmn : m ≠ n := by
          rintro rfl
          exact hn hm
        simp only [Function.update_of_ne hmn]
        exact halone.sessions m hm

/-- Under every schedule an owner's parties get as far, and its part of the state becomes the
same, as when only the moves that are its own are made on its part of the state. -/
theorem Separates.moves_alone [DecidableEq O]
    (h : host.Separates o view concerns inv allowed given)
    (horderly : Orderly owner inv allowed given table) (halone : Alone owner o view alone table)
    (schedule : List (Move N D E)) :
    Alone owner o view (host.moves owner alone (schedule.filter (isOwn owner o concerns)))
      (host.moves owner table schedule) := by
  induction schedule generalizing table alone with
  | nil => exact halone
  | cons next schedule ih =>
    have hrest := h.orderly_move horderly next
    cases hown : isOwn owner o concerns next with
    | true =>
      rw [List.filter_cons_of_pos hown]
      exact ih hrest (h.own_move horderly halone hown)
    | false =>
      rw [List.filter_cons_of_neg (by simp [hown])]
      exact ih hrest (h.other_move horderly halone hown)

end Separates

end Host

end ProofKit
