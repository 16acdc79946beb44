import CoinjoinEmulator.ProofKit.Session

/-! What a program reaches, and within how many turns, while other parties change the state between
its turns. -/

namespace ProofKit.Host

variable {S N Q : Type} {Reply : Q → Type} {O D E α β : Type}

/-- The others' steps keep `P`. -/
def Stable (rely : S → S → Prop) (P : S → Prop) : Prop := ∀ s s', P s → rely s s' → P s'

variable (host : Host S Q Reply O D E) (o : O) (fair : D → Prop) (rely : S → S → Prop)

/-- From every state of `P` the program ends within `k` questions with a result and a state of
`post`.  What is known after each answer is something that the others keep. -/
def Reaches : Session Q Reply α → Nat → (S → Prop) → (α → S → Prop) → Prop
  | .done result, _, P, post => Stable rely P ∧ ∀ s, P s → post result s
  | .ask question next, k, P, post => Stable rely P ∧ ((∃ s, P s) → ∃ j < k,
      ∃ R : Reply question → S → Prop,
        (∀ d s, fair d → P s → R (host.answer o d question s).1 (host.answer o d question s).2) ∧
          ∀ reply, Reaches (next reply) j (R reply) post)

variable {host o fair rely} {k j : Nat} {program : Session Q Reply α} {P : S → Prop}
  {post : α → S → Prop}

theorem Reaches.stable (h : host.Reaches o fair rely program k P post) : Stable rely P := by
  cases program with
  | done result => exact h.1
  | ask question next => exact h.1

theorem Reaches.mono (h : host.Reaches o fair rely program k P post) (hk : k ≤ j) :
    host.Reaches o fair rely program j P post := by
  cases program with
  | done result => exact h
  | ask question next =>
    refine ⟨h.1, fun hP => ?_⟩
    obtain ⟨k₁, hk₁, hrest⟩ := h.2 hP
    exact ⟨k₁, by omega, hrest⟩

/-- A program from states of which more is known. -/
theorem Reaches.of_imp {P' : S → Prop} (h : host.Reaches o fair rely program k P post)
    (hstable : Stable rely P') (hP : ∀ s, P' s → P s) :
    host.Reaches o fair rely program k P' post := by
  cases program with
  | done result => exact ⟨hstable, fun s hs => h.2 s (hP s hs)⟩
  | ask question next =>
    refine ⟨hstable, fun ⟨s, hs⟩ => ?_⟩
    obtain ⟨k₁, hk₁, R, hanswer, hnext⟩ := h.2 ⟨s, hP s hs⟩
    exact ⟨k₁, hk₁, R, fun d s hd hs => hanswer d s hd (hP s hs), hnext⟩

theorem Reaches.imp {post' : α → S → Prop} (h : host.Reaches o fair rely program k P post)
    (hpost : ∀ a s, post a s → post' a s) : host.Reaches o fair rely program k P post' := by
  induction program generalizing k P with
  | done result => exact ⟨h.1, fun s hs => hpost result s (h.2 s hs)⟩
  | ask question next ih =>
    refine ⟨h.1, fun hP => ?_⟩
    obtain ⟨k₁, hk₁, R, hanswer, hnext⟩ := h.2 hP
    exact ⟨k₁, hk₁, R, hanswer, fun reply => ih reply (hnext reply)⟩

theorem reaches_of_false (program : Session Q Reply α) (hP : ∀ s, ¬ P s) :
    host.Reaches o fair rely program k P post := by
  have hstable : Stable rely P := fun s _ hs => (hP s hs).elim
  cases program with
  | done result => exact ⟨hstable, fun s hs => (hP s hs).elim⟩
  | ask question next => exact ⟨hstable, fun ⟨s, hs⟩ => (hP s hs).elim⟩

theorem reaches_done {result : α} (hstable : Stable rely P) (h : ∀ s, P s → post result s) :
    host.Reaches o fair rely (.done result) k P post := ⟨hstable, h⟩

/-- Two programs one after the other. -/
theorem Reaches.bind {f : α → Session Q Reply β} {post' : β → S → Prop}
    (h : host.Reaches o fair rely program k P post)
    (hf : ∀ a, (∃ s, post a s) → host.Reaches o fair rely (f a) j (post a) post') :
    host.Reaches o fair rely (program.bind f) (k + j) P post' := by
  induction program generalizing k P with
  | done result =>
    by_cases hP : ∃ s, P s
    · obtain ⟨s, hs⟩ := hP
      exact ((hf result ⟨s, h.2 s hs⟩).of_imp h.stable h.2).mono (by omega)
    · exact reaches_of_false _ fun s hs => hP ⟨s, hs⟩
  | ask question next ih =>
    refine ⟨h.1, fun hP => ?_⟩
    obtain ⟨k₁, hk₁, R, hanswer, hnext⟩ := h.2 hP
    exact ⟨k₁ + j, by omega, R, hanswer, fun reply => ih reply (hnext reply)⟩

/-! ### Programs that may raise an exception -/

section Raising

variable {ε : Type} {step : Session.Raising ε Q Reply α} {f : α → Session.Raising ε Q Reply β}

theorem stable_ok {post : α → S → Prop} (hstable : ∀ a, Stable rely (post a))
    (result : Except ε α) : Stable rely fun s => ∃ a, result = .ok a ∧ post a s := by
  rintro s s' ⟨a, ha, hpost⟩ hrely
  exact ⟨a, ha, hstable a s s' hpost hrely⟩

theorem Reaches.bind_ok {post : α → S → Prop} {post' : Except ε β → S → Prop}
    (h : host.Reaches o fair rely step.run k P fun result s => ∃ a, result = .ok a ∧ post a s)
    (hstable : ∀ a, Stable rely (post a))
    (hf : ∀ a, (∃ s, post a s) → host.Reaches o fair rely (f a).run j (post a) post') :
    host.Reaches o fair rely (step >>= f).run (k + j) P post' := by
  refine Reaches.bind h fun result hresult => ?_
  obtain ⟨s, a, rfl, hs⟩ := hresult
  refine (hf a ⟨s, hs⟩).of_imp (stable_ok hstable _) ?_
  rintro s ⟨b, hb, hpost⟩
  cases hb
  exact hpost

/-- A step that may raise an exception, and what follows it. -/
theorem Reaches.bind_raising {post : Except ε α → S → Prop} {post' : Except ε β → S → Prop}
    (h : host.Reaches o fair rely step.run k P post)
    (hstable : ∀ error, Stable rely (post (.error error)))
    (hf : ∀ a, host.Reaches o fair rely (f a).run j (post (.ok a)) post')
    (herror : ∀ error s, post (.error error) s → post' (.error error) s) :
    host.Reaches o fair rely (step >>= f).run (k + j) P post' := by
  refine Reaches.bind h fun result _ => ?_
  cases result with
  | ok a => exact hf a
  | error error => exact reaches_done (hstable error) (herror error)

/-- A result that was computed without a question, and what follows it. -/
theorem reaches_result {result : Except ε α} {post : Except ε β → S → Prop}
    (hok : ∀ a, host.Reaches o fair rely (f a).run k P post)
    (herror : ∀ error, host.Reaches o fair rely (.done (.error error)) k P post) :
    host.Reaches o fair rely (ExceptT.mk (pure result) >>= f).run k P post := by
  cases result with
  | ok a => exact hok a
  | error error => exact herror error

/-- A step whose exception is handled. -/
theorem Reaches.tryCatch_raising {post post' : Except ε α → S → Prop}
    {handler : ε → Session.Raising ε Q Reply α}
    (h : host.Reaches o fair rely step.run k P post)
    (hstable : ∀ a, Stable rely (post (.ok a)))
    (hok : ∀ a s, post (.ok a) s → post' (.ok a) s)
    (hhandler : ∀ error, host.Reaches o fair rely (handler error).run j (post (.error error))
      post') :
    host.Reaches o fair rely (tryCatch step handler).run (k + j) P post' := by
  show host.Reaches o fair rely (Session.bind step.run _) (k + j) P post'
  refine Reaches.bind h fun result _ => ?_
  cases result with
  | ok a => exact reaches_done (hstable a) (hok a)
  | error error => exact hhandler error

/-- A handler that is not reached. -/
theorem Reaches.tryCatch_ok {post : α → S → Prop} {handler : ε → Session.Raising ε Q Reply α}
    (h : host.Reaches o fair rely step.run k P fun result s => ∃ a, result = .ok a ∧ post a s)
    (hstable : ∀ a, Stable rely (post a)) :
    host.Reaches o fair rely (tryCatch step handler).run k P
      fun result s => ∃ a, result = .ok a ∧ post a s := by
  show host.Reaches o fair rely (Session.bind step.run _) (k + 0) P _
  refine Reaches.bind h fun result hresult => ?_
  obtain ⟨s, a, rfl, hs⟩ := hresult
  exact reaches_done (stable_ok hstable _) fun _ hs => hs

/-- A loop whose body takes one item off what is left. -/
theorem reaches_forM {ι : Type} {items : List ι} {body : ι → Session.Raising ε Q Reply PUnit}
    (left : List ι → S → Prop) (hstable : ∀ rest, Stable rely (left rest))
    (h : ∀ item ∈ items, ∀ rest, host.Reaches o fair rely (body item).run k
      (left (item :: rest)) fun result s => result = .ok ⟨⟩ ∧ left rest s) :
    host.Reaches o fair rely (items.forM body).run (items.length * k) (left items)
      fun result s => result = .ok ⟨⟩ ∧ left [] s := by
  induction items with
  | nil => exact ⟨hstable [], fun s hs => ⟨rfl, hs⟩⟩
  | cons item items ih =>
    have hfirst : host.Reaches o fair rely (body item).run k (left (item :: items))
        fun result s => ∃ a, result = .ok a ∧ left items s :=
      (h item (by simp) items).imp fun _ _ hs => ⟨⟨⟩, hs⟩
    rw [List.length_cons, Nat.add_mul, Nat.one_mul, Nat.add_comm]
    exact hfirst.bind_ok (fun _ => hstable items) fun _ _ => ih fun item' hitem' =>
      h item' (List.mem_cons_of_mem item hitem')

end Raising

/-! ### At a table -/

section Table

variable [DecidableEq N]

/-- A turn of one party. -/
def isTurnOf (n : N) : Move N D E → Bool
  | .turn m _ => decide (m = n)
  | .event _ => false

variable {owner : N → O} {n : N} {good : Table S N Q Reply α → Prop}
  {table : Table S N Q Reply α}

theorem sessions_move_of_not_turn {next : Move N D E} (h : isTurnOf n next = false) :
    (host.move owner table next).sessions n = table.sessions n := by
  cases next with
  | event e => rfl
  | turn m d =>
    have hm : n ≠ m := by
      rintro rfl
      simp [isTurnOf] at h
    cases hsession : table.sessions m with
    | done result => rw [move_turn_done host owner hsession]
    | ask question next =>
      rw [move_turn_ask host owner hsession]
      exact Function.update_of_ne hm _ _

/-- How far a party is: what is left of its program reaches the end within the questions that its
turns have left. -/
def OnWay (host : Host S Q Reply O D E) (o : O) (fair : D → Prop) (rely : S → S → Prop) (n : N)
    (k : Nat) (post : α → S → Prop) (table : Table S N Q Reply α) : Prop :=
  ∃ P : S → Prop, host.Reaches o fair rely (table.sessions n) k P post ∧ P table.state

/-- A turn of the party's brings it one question nearer to its end. -/
theorem OnWay.turn (h : OnWay host (owner n) fair rely n k post table) {d : D} (hd : fair d) :
    OnWay host (owner n) fair rely n (k - 1) post (host.move owner table (.turn n d)) := by
  obtain ⟨P, hreaches, hP⟩ := h
  cases hsession : table.sessions n with
  | done result =>
    rw [move_turn_done host owner hsession]
    rw [hsession] at hreaches
    refine ⟨P, ?_, hP⟩
    rw [hsession]
    exact hreaches
  | ask question next =>
    rw [move_turn_ask host owner hsession]
    rw [hsession] at hreaches
    obtain ⟨k₁, hk₁, R, hanswer, hnext⟩ := hreaches.2 ⟨_, hP⟩
    refine ⟨R _, ?_, hanswer d _ hd hP⟩
    show host.Reaches (owner n) fair rely (Function.update table.sessions n _ n) (k - 1) _ post
    rw [Function.update_self]
    exact (hnext _).mono (by omega)

/-- Each move of a schedule changes the state as `step` says. -/
def Along (host : Host S Q Reply O D E) (owner : N → O) (step : Move N D E → S → S → Prop) :
    Table S N Q Reply α → List (Move N D E) → Prop
  | _, [] => True
  | table, next :: schedule => step next table.state (host.move owner table next).state ∧
      host.Along owner step (host.move owner table next) schedule

instance decidableAlong (step : Move N D E → S → S → Prop)
    [∀ next s s', Decidable (step next s s')] :
    ∀ (table : Table S N Q Reply α) (schedule : List (Move N D E)),
      Decidable (host.Along owner step table schedule)
  | _, [] => isTrue trivial
  | table, next :: schedule =>
    have := decidableAlong step (host.move owner table next) schedule
    inferInstanceAs (Decidable (step next table.state (host.move owner table next).state ∧
      host.Along owner step (host.move owner table next) schedule))

/-- What every move does that starts at a good table. -/
theorem along_of_good {step : Move N D E → S → S → Prop}
    (hgood : ∀ table (next : Move N D E), good table → good (host.move owner table next))
    {schedule : List (Move N D E)} (h : ∀ next ∈ schedule, ∀ table, good table →
      step next table.state (host.move owner table next).state) (htable : good table) :
    host.Along owner step table schedule := by
  induction schedule generalizing table with
  | nil => trivial
  | cons next schedule ih =>
    exact ⟨h next (by simp) _ htable,
      ih (fun next' hnext' => h next' (List.mem_cons_of_mem next hnext')) (hgood _ _ htable)⟩

theorem Along.mp {step step' : Move N D E → S → S → Prop} {schedule : List (Move N D E)}
    (himp : host.Along owner (fun next s s' => step next s s' → step' next s s') table schedule)
    (h : host.Along owner step table schedule) : host.Along owner step' table schedule := by
  induction schedule generalizing table with
  | nil => trivial
  | cons next schedule ih => exact ⟨himp.1 h.1, ih himp.2 h.2⟩

/-- A party whose turns are fair is at its end after as many of them as its program puts
questions, whatever the others do in between that the party relies on. -/
theorem Reaches.moves {schedule : List (Move N D E)}
    (hrely : host.Along owner (fun next s s' => isTurnOf n next = false → rely s s') table schedule)
    (hfair : ∀ d, .turn n d ∈ schedule → fair d)
    (h : OnWay host (owner n) fair rely n k post table)
    (hturns : k ≤ schedule.countP (isTurnOf n)) :
    ∃ result, (host.moves owner table schedule).sessions n = .done result ∧
      post result (host.moves owner table schedule).state := by
  induction schedule generalizing table k with
  | nil =>
    obtain ⟨P, hreaches, hP⟩ := h
    cases hsession : table.sessions n with
    | done result =>
      rw [hsession] at hreaches
      exact ⟨result, hsession, hreaches.2 _ hP⟩
    | ask question next =>
      rw [hsession] at hreaches
      obtain ⟨k₁, hk₁, -⟩ := hreaches.2 ⟨_, hP⟩
      rw [List.countP_nil] at hturns
      omega
  | cons next schedule ih =>
    obtain ⟨hnext, hlater⟩ := hrely
    have hfair' : ∀ d, .turn n d ∈ schedule → fair d := fun d hd =>
      hfair d (List.mem_cons_of_mem next hd)
    cases hturn : isTurnOf n next with
    | true =>
      cases next with
      | event e => cases hturn
      | turn m d =>
        obtain rfl : m = n := of_decide_eq_true hturn
        rw [List.countP_cons_of_pos hturn] at hturns
        exact ih hlater hfair' (h.turn (hfair d (by simp))) (by omega)
    | false =>
      rw [List.countP_cons_of_neg (by simp [hturn])] at hturns
      obtain ⟨P, hreaches, hP⟩ := h
      refine ih hlater hfair' ⟨P, ?_, ?_⟩ hturns
      · rw [sessions_move_of_not_turn hturn]
        exact hreaches
      · exact hreaches.stable _ _ hP (hnext hturn)

end Table

end ProofKit.Host
