import CoinjoinEmulator.Driver.Cleanup

/-! An upload unpacks its archive once: whatever requests fail on the way, a container never gets
anything but the whole archive, and an upload that returns has put it there. -/

namespace CoinjoinEmulator.Driver

open ProofKit ProofKit.Session KubernetesDriver

variable {F : Type}

/-- A command that exited with 0 and wrote nothing to stderr. -/
def Succeeded (outcome : ExecOutcome) : Prop :=
  outcome.returncode = some 0 ∧ strip (String.join outcome.stderr) = ""

/-- What an upload changes in a container: its staged payload, if there is one, and the archives
that were unpacked. -/
structure Holdings where
  staged : Option (List Char)
  archives : List (List Base64.Byte)
deriving DecidableEq

/-- What the commands of an upload do that stages its payload at a path; `view` shows what a
container holds.  That a command unpacks the whole staged archive or nothing of it, `extractsOnce`,
is an assumption: `base64` and `tar` may leave a part of it when they fail. -/
structure Shell (containers : Containers F) (view : F → Holdings) (path : String) : Prop where
  reports : ∀ command contents, (containers.execute command contents).1.returncode ≠ none
  write : ∀ chunk contents,
    Succeeded (containers.execute (appendCommand path chunk ">") contents).1 →
      (view (containers.execute (appendCommand path chunk ">") contents).2).staged = some chunk
  append : ∀ chunk text contents, (view contents).staged = some text →
    Succeeded (containers.execute (appendCommand path chunk ">>") contents).1 →
      (view (containers.execute (appendCommand path chunk ">>") contents).2).staged =
        some (text ++ chunk)
  keeps : ∀ chunk redirect contents,
    (view (containers.execute (appendCommand path chunk redirect) contents).2).archives =
      (view contents).archives
  extract : ∀ text bytes contents, (view contents).staged = some text →
    Base64.decode false text = some bytes →
      Succeeded (containers.execute (extractCommand path) contents).1 →
        (view (containers.execute (extractCommand path) contents).2).archives =
            (view contents).archives ++ [bytes] ∧
          (view (containers.execute (extractCommand path) contents).2).staged = none
  extractsOnce : ∀ text bytes contents, (view contents).staged = some text →
    Base64.decode false text = some bytes →
      (view (containers.execute (extractCommand path) contents).2).archives =
          (view contents).archives ∨
        (view (containers.execute (extractCommand path) contents).2).archives =
          (view contents).archives ++ [bytes]
  removes : ∀ contents, (view (containers.execute (removeCommand path) contents).2).archives =
    (view contents).archives

/-! ### The pieces of a payload -/

theorem flatten_chunksOf {size : Nat} (hsize : 0 < size) (text : List Char) :
    (chunksOf size text).flatten = text := by
  have htake : ∀ n, ((List.range n).map fun i => (text.drop (i * size)).take size).flatten =
      text.take (n * size) := by
    intro n
    induction n with
    | zero => simp
    | succ n ih =>
      rw [List.range_succ, List.map_append, List.flatten_append, ih, Nat.succ_mul, List.take_add]
      simp
  unfold chunksOf
  rw [htake]
  refine List.take_of_length_le ?_
  have hdiv := Nat.div_add_mod (text.length + size - 1) size
  have hmod := Nat.mod_lt (text.length + size - 1) hsize
  rw [Nat.mul_comm] at hdiv
  omega

theorem chunksOf_ne_nil {size : Nat} (hsize : 0 < size) {text : List Char} (h : text ≠ []) :
    chunksOf size text ≠ [] := by
  intro hnil
  apply h
  rw [← flatten_chunksOf hsize text, hnil]
  rfl

/-- The first piece is written, and the other ones are appended. -/
theorem stagingCommands_eq (path : String) {payload : List Char} {chunk : List Char}
    {rest : List (List Char)} (h : chunksOf uploadCommandChunkSize payload = chunk :: rest) :
    stagingCommands path payload =
      appendCommand path chunk ">" :: (rest.map (appendCommand path · ">>") ++
        [extractCommand path]) := by
  have hrest : (rest.mapIdx fun i c => appendCommand path c (if i + 1 = 0 then ">" else ">>")) =
      rest.map (appendCommand path · ">>") := by
    refine List.ext_getElem (by simp) fun i _ _ => ?_
    simp
  unfold stagingCommands
  rw [h, List.mapIdx_cons, hrest]
  rfl

/-! ### One pod -/

section Pod

variable {O V : Type} (view : F → V) (resource : String)

/-- A part of what the pod of a name holds stays as it is, unless the pod goes away. -/
def Undisturbed (shared shared' : Shared O F) : Prop :=
  ∀ pod', shared'.cluster.pod resource = some pod' →
    ∃ pod, shared.cluster.pod resource = some pod ∧ view pod'.contents = view pod.contents

instance [DecidableEq V] (shared shared' : Shared O F) :
    Decidable (Undisturbed view resource shared shared') :=
  inferInstanceAs (Decidable (∀ pod' ∈ shared'.cluster.pod resource,
    ∃ pod ∈ shared.cluster.pod resource, view pod'.contents = view pod.contents))

/-- What holds of this part, while the pod is there. -/
def AtPod (φ : V → Prop) (shared : Shared O F) : Prop :=
  ∀ pod, shared.cluster.pod resource = some pod → φ (view pod.contents)

variable {view resource} {φ ψ χ : V → Prop}

theorem AtPod.imp {shared : Shared O F} (h : AtPod view resource φ shared)
    (hφ : ∀ v, φ v → ψ v) : AtPod view resource ψ shared := fun pod hpod => hφ _ (h pod hpod)

theorem stable_atPod (φ : V → Prop) :
    Host.Stable (Undisturbed (O := O) view resource) (AtPod view resource φ) := by
  intro shared shared' hφ hothers pod' hpod'
  obtain ⟨pod, hpod, hview⟩ := hothers pod' hpod'
  rw [hview]
  exact hφ pod hpod

variable [DecidableEq O] {containers : Containers F} {o : O} {fair : Turn → Prop}

/-- A question that changes nothing in the namespace. -/
theorem reaches_question {α : Type} {question : Question}
    (answer : Reply F question → Except Raised α)
    (h : ∀ turn (shared : Shared O F),
      ((host containers).answer o turn question shared).2.cluster = shared.cluster) :
    (host containers).Reaches o fair (Undisturbed view resource) (raising question answer).run 1
      (AtPod view resource φ) fun _ => AtPod view resource φ := by
  refine ⟨stable_atPod φ, fun _ => ⟨0, by omega, fun _ => AtPod view resource φ, ?_, ?_⟩⟩
  · intro turn shared _ hφ pod hpod
    rw [h turn shared] at hpod
    exact hφ pod hpod
  · exact fun reply => Host.reaches_done (stable_atPod φ) fun _ hs => hs

theorem cluster_answer_readPod (name : String) (turn : Turn) (shared : Shared O F) :
    ((host containers).answer o turn (.api (.readPod name)) shared).2.cluster = shared.cluster := by
  simp only [host]
  cases turn.fault with
  | none => rfl
  | some fault => cases turn.performed <;> rfl

/-- A wait for the container changes nothing in it. -/
theorem reaches_pollRunning (deadline : Rat) (polls : Nat) :
    (host containers).Reaches o fair (Undisturbed (O := O) view resource)
      (pollRunning (F := F) resource deadline polls).run (3 * polls) (AtPod view resource φ)
      fun _ => AtPod view resource φ := by
  have hstable : Host.Stable (Undisturbed (O := O) view resource) (AtPod view resource φ) :=
    stable_atPod φ
  have hdone : ∀ (k : Nat) (result : Except Raised Unit),
      (host containers).Reaches o fair (Undisturbed (O := O) view resource)
        (.done result : Session Question (Reply F) (Except Raised Unit)) k (AtPod view resource φ)
        fun _ => AtPod view resource φ := fun k result => Host.reaches_done hstable fun _ hs => hs
  induction polls with
  | zero => exact hdone _ _
  | succ polls ih =>
    unfold pollRunning
    have hread : (host containers).Reaches o fair (Undisturbed (O := O) view resource)
        (api (F := F) (.readPod resource)).run 1 (AtPod view resource φ)
        fun _ => AtPod view resource φ :=
      reaches_question _ (cluster_answer_readPod resource)
    have hclock : (host containers).Reaches o fair (Undisturbed (O := O) view resource)
        (monotonic (F := F)).run 1 (AtPod view resource φ) fun _ => AtPod view resource φ :=
      reaches_question _ fun _ _ => rfl
    have hsleep : (host containers).Reaches o fair (Undisturbed (O := O) view resource)
        (sleep (F := F) 1).run 1 (AtPod view resource φ) fun _ => AtPod view resource φ :=
      reaches_question _ fun _ _ => rfl
    rw [show 3 * (polls + 1) = 1 + (1 + (1 + 3 * polls)) by omega]
    refine hread.bind_raising (fun _ => hstable) (fun pod => ?_) fun _ _ hs => hs
    dsimp only
    split
    · exact hdone _ _
    · refine Host.reaches_result (fun running => ?_) fun _ => hdone _ _
      split
      · exact hdone _ _
      · refine hclock.bind_raising (fun _ => hstable) (fun now => ?_) fun _ _ hs => hs
        split
        · exact hdone _ _
        · exact hsleep.bind_raising (fun _ => hstable) (fun _ => ih) fun _ _ hs => hs

/-- A command changes what its pod holds, and answers, as the container does. -/
theorem serve_exec (containers : Containers F) (turn : Turn) (command : List String)
    {cluster : Cluster F} {pod : Pod F} (h : cluster.pod resource = some pod) :
    serve containers turn (.exec resource command) cluster =
        (.ok (runCommand containers turn command pod.contents).1,
          (serve containers turn (.exec resource command) cluster).2) ∧
      (serve containers turn (.exec resource command) cluster).2.pod resource =
        some { pod with contents := (runCommand containers turn command pod.contents).2 } := by
  simp only [serve, h]
  refine ⟨trivial, ?_⟩
  show Registry.find Pod.name resource (Registry.change Pod.name resource _ cluster.pods) = _
  rw [Registry.find_change_some (by exact fun _ => rfl),
    show Registry.find Pod.name resource cluster.pods = some pod from h]
  rfl

theorem serve_exec_none (containers : Containers F) (turn : Turn) (command : List String)
    {cluster : Cluster F} (h : cluster.pod resource = none) :
    (serve containers turn (.exec resource command) cluster).2.pod resource = none := by
  simp only [serve, h]

/-- What `_exec_checked` accepts. -/
def Accepted (outcome : ExecOutcome) : Prop :=
  outcome.timedOut = false ∧ (outcome.returncode = none ∨ outcome.returncode = some 0) ∧
    strip (String.join outcome.stderr) = ""

/-- What is known after the answer to a command: `χ` of what the container holds, and `ψ` if the
outcome is accepted. -/
def Answered (view : F → V) (ψ χ : V → Prop) (resource : String)
    (reply : Except ApiException ExecOutcome) : Shared O F → Prop :=
  AtPod view resource fun v => χ v ∧ ∀ outcome, reply = .ok outcome → Accepted outcome → ψ v

theorem runCommand_contents (containers : Containers F) (turn : Turn) (command : List String)
    (contents : F) :
    (runCommand containers turn command contents).2 = contents ∨
      (runCommand containers turn command contents).2 =
        (containers.execute command contents).2 := by
  unfold runCommand
  dsimp only
  split
  · split
    · exact .inr rfl
    · exact .inl rfl
  · exact .inr rfl

/-- A command that did not time out had its effect. -/
theorem runCommand_of_ended {turn : Turn} {command : List String} {contents : F}
    (h : (runCommand containers turn command contents).1.timedOut = false) :
    runCommand containers turn command contents = containers.execute command contents := by
  unfold runCommand at h ⊢
  dsimp only at h ⊢
  split at h
  · cases h
  · rw [if_neg ‹_›]

/-- A request that is answered. -/
theorem answer_api {turn : Turn} (request : Request) (shared : Shared O F)
    (h : turn.fault = none) :
    (host containers).answer o turn (.api request) shared =
      ((serve containers turn request shared.cluster).1,
        { shared with cluster := (serve containers turn request shared.cluster).2 }) := by
  simp only [host, h]
  rfl

/-- A request that fails on the way, before or after it was carried out. -/
theorem answer_api_fault {turn : Turn} {fault : ApiException} (request : Request)
    (shared : Shared O F) (h : turn.fault = some fault) :
    (host containers).answer o turn (.api request) shared =
      (.error fault, if turn.performed = true
        then { shared with cluster := (serve containers turn request shared.cluster).2 }
        else shared) := by
  simp only [host, h]

/-- One command, whose request may fail and whose end may come too late. -/
theorem answered_exec
    (hreports : ∀ command contents, (containers.execute command contents).1.returncode ≠ none)
    {command : List String} {turn : Turn} {shared : Shared O F} (hφ : AtPod view resource φ shared)
    (hdone : ∀ c, φ (view c) → Succeeded (containers.execute command c).1 →
      ψ (view (containers.execute command c).2))
    (hkept : ∀ c, φ (view c) → χ (view c))
    (hmade : ∀ c, φ (view c) → χ (view (containers.execute command c).2)) :
    Answered view ψ χ resource
      ((host containers).answer o turn (.api (.exec resource command)) shared).1
      ((host containers).answer o turn (.api (.exec resource command)) shared).2 := by
  cases hpod : shared.cluster.pod resource with
  | none =>
    have hafter := serve_exec_none containers turn command hpod
    intro pod hfound
    exfalso
    cases hfault : turn.fault with
    | none =>
      rw [answer_api _ _ hfault] at hfound
      cases hafter.symm.trans hfound
    | some fault =>
      rw [answer_api_fault _ _ hfault] at hfound
      cases hperformed : turn.performed with
      | true =>
        rw [if_pos hperformed] at hfound
        cases hafter.symm.trans hfound
      | false =>
        rw [if_neg (by rw [hperformed]; exact Bool.false_ne_true)] at hfound
        cases hpod.symm.trans hfound
  | some pod =>
    obtain ⟨hserve, hafter⟩ := serve_exec containers turn command hpod
    have hχ : χ (view (runCommand containers turn command pod.contents).2) := by
      obtain hsame | hmoved := runCommand_contents containers turn command pod.contents
      · rw [hsame]
        exact hkept _ (hφ pod hpod)
      · rw [hmoved]
        exact hmade _ (hφ pod hpod)
    intro pod' hpod'
    cases hfault : turn.fault with
    | none =>
      rw [answer_api _ _ hfault] at hpod' ⊢
      have hsame := hafter.symm.trans hpod'
      cases hsame
      refine ⟨hχ, ?_⟩
      intro outcome houtcome haccepted
      rw [hserve] at houtcome
      cases houtcome
      obtain ⟨htime, hcode, hstderr⟩ := haccepted
      rw [runCommand_of_ended htime] at hcode hstderr ⊢
      exact hdone _ (hφ pod hpod) ⟨hcode.resolve_left (hreports _ _), hstderr⟩
    | some fault =>
      rw [answer_api_fault _ _ hfault] at hpod' ⊢
      refine ⟨?_, fun _ houtcome => by cases houtcome⟩
      cases hperformed : turn.performed with
      | true =>
        rw [if_pos hperformed] at hpod'
        have hsame := hafter.symm.trans hpod'
        cases hsame
        exact hχ
      | false =>
        rw [if_neg (by rw [hperformed]; exact Bool.false_ne_true)] at hpod'
        exact hkept _ (hφ pod' hpod')

/-- What a checked command leaves: `χ` in any case, and `ψ` if it returns. -/
def Checked (view : F → V) (ψ χ : V → Prop) (resource : String) (result : Except Raised Unit) :
    Shared O F → Prop :=
  AtPod view resource fun v => χ v ∧ (result = .ok () → ψ v)

theorem reaches_execChecked
    (hreports : ∀ command contents, (containers.execute command contents).1.returncode ≠ none)
    (action : String) {command : List String}
    (hdone : ∀ c, φ (view c) → Succeeded (containers.execute command c).1 →
      ψ (view (containers.execute command c).2))
    (hkept : ∀ c, φ (view c) → χ (view c))
    (hmade : ∀ c, φ (view c) → χ (view (containers.execute command c).2)) :
    (host containers).Reaches o fair (Undisturbed (O := O) view resource)
      (execChecked (F := F) resource action command).run 1 (AtPod view resource φ)
      (Checked view ψ χ resource) := by
  refine ⟨stable_atPod φ, fun _ => ⟨0, by omega, Answered view ψ χ resource, ?_, ?_⟩⟩
  · exact fun turn shared _ hφ => answered_exec hreports hφ hdone hkept hmade
  · intro reply
    have hstable : Host.Stable (Undisturbed (O := O) view resource)
        (Answered view ψ χ resource reply) :=
      stable_atPod _
    have hfailed : ∀ error : Raised,
        (host containers).Reaches o fair (Undisturbed (O := O) view resource)
          (.done (.error error) : Session Question (Reply F) (Except Raised Unit)) 0
          (Answered view ψ χ resource reply) (Checked view ψ χ resource) := fun error =>
      Host.reaches_done hstable fun _ hs => hs.imp fun _ hc => ⟨hc.1, nofun⟩
    cases reply with
    | error error => exact hfailed _
    | ok outcome =>
      show (host containers).Reaches o fair (Undisturbed (O := O) view resource)
        (if ExecOutcome.timedOut outcome = true then
            throw (.timeoutError ("Timed out: " ++ action))
          else if ¬ (ExecOutcome.returncode outcome = none ∨
              ExecOutcome.returncode outcome = some 0) ∨
              strip (String.join (ExecOutcome.stderr outcome)) ≠ "" then throw _
          else pure () : Op F Unit).run 0 _ _
      split
      · exact hfailed _
      · rename_i htime
        split
        · exact hfailed _
        · rename_i hwell
          rw [not_or, not_not] at hwell
          refine Host.reaches_done hstable fun _ hs => hs.imp fun _ hc => ⟨hc.1, fun _ => ?_⟩
          exact hc.2 outcome rfl ⟨by simpa using htime, hwell.1, not_not.mp hwell.2⟩

/-- A checked command and what follows it, which is skipped if the command fails. -/
theorem reaches_checked_bind {ψ' : V → Prop} {k j : Nat} {step rest : Op F Unit}
    {P : Shared O F → Prop}
    (hstep : (host containers).Reaches o fair (Undisturbed (O := O) view resource) step.run k P
      (Checked view ψ χ resource))
    (hrest : (host containers).Reaches o fair (Undisturbed (O := O) view resource) rest.run j
      (AtPod view resource ψ) (Checked view ψ' χ resource)) :
    (host containers).Reaches o fair (Undisturbed (O := O) view resource)
      (step >>= fun _ => rest).run (k + j) P (Checked view ψ' χ resource) := by
  refine hstep.bind_raising (fun _ => stable_atPod _) (fun _ => ?_) fun error shared hs => ?_
  · exact hrest.of_imp (stable_atPod _) fun shared hs => hs.imp fun c hc => hc.2 rfl
  · exact hs.imp fun c hc => ⟨hc.1, nofun⟩

end Pod

/-! ### One upload -/

section Upload

section Holdings

variable (before : List (List Base64.Byte)) (archive : List Base64.Byte)

/-- A payload is staged up to a point. -/
def Staged (text : List Char) (holdings : Holdings) : Prop :=
  holdings.staged = some text ∧ holdings.archives = before

/-- The archive was unpacked, and its payload removed. -/
def Unpacked (holdings : Holdings) : Prop :=
  holdings.archives = before ++ [archive] ∧ holdings.staged = none

/-- The archive was unpacked once or not at all, and nothing else was. -/
def AtMostOnce (holdings : Holdings) : Prop :=
  holdings.archives = before ∨ holdings.archives = before ++ [archive]

variable {before archive}

theorem Staged.atMostOnce {text : List Char} {holdings : Holdings}
    (h : Staged before text holdings) : AtMostOnce before archive holdings := .inl h.2

end Holdings

variable {O : Type} [DecidableEq O] {resource : String} {containers : Containers F} {o : O}
  {fair : Turn → Prop} {view : F → Holdings} {before : List (List Base64.Byte)}
  {archive : List Base64.Byte} {path : String}

variable (hshell : Shell containers view path)

include hshell

/-- The first piece: what the file held before does not matter. -/
theorem reaches_write (action : String) (chunk : List Char) :
    (host containers).Reaches o fair (Undisturbed (O := O) view resource)
      (execChecked (F := F) resource action (appendCommand path chunk ">")).run 1
      (AtPod view resource fun v => v.archives = before)
      (Checked view (Staged before chunk) (AtMostOnce before archive)
        resource) := by
  refine reaches_execChecked hshell.reports action (fun c hc hsucceeded => ?_) (fun c hc => .inl hc)
    fun c hc => .inl ?_
  · exact ⟨hshell.write chunk c hsucceeded, by rw [hshell.keeps, hc]⟩
  · rw [hshell.keeps, hc]

/-- A further piece. -/
theorem reaches_append (action : String) (text chunk : List Char) :
    (host containers).Reaches o fair (Undisturbed (O := O) view resource)
      (execChecked (F := F) resource action (appendCommand path chunk ">>")).run 1
      (AtPod view resource (Staged before text))
      (Checked view (Staged before (text ++ chunk))
        (AtMostOnce before archive) resource) := by
  refine reaches_execChecked hshell.reports action (fun c hc hsucceeded => ?_)
    (fun c hc => hc.atMostOnce) fun c hc => .inl ?_
  · exact ⟨hshell.append chunk text c hc.1 hsucceeded, by rw [hshell.keeps, hc.2]⟩
  · rw [hshell.keeps, hc.2]

/-- The whole payload is unpacked. -/
theorem reaches_extract (action : String) :
    (host containers).Reaches o fair (Undisturbed (O := O) view resource)
      (execChecked (F := F) resource action (extractCommand path)).run 1
      (AtPod view resource (Staged before (Base64.encode archive)))
      (Checked view (Unpacked before archive) (AtMostOnce before archive)
        resource) := by
  have hdecode : Base64.decode false (Base64.encode archive) = some archive :=
    Base64.decode_encode false archive
  refine reaches_execChecked hshell.reports action (fun c hc hsucceeded => ?_)
    (fun c hc => hc.atMostOnce) fun c hc => ?_
  · obtain ⟨harchives, hstaged⟩ := hshell.extract _ archive c hc.1 hdecode hsucceeded
    exact ⟨by rw [harchives, hc.2], hstaged⟩
  · have honce := hshell.extractsOnce _ archive c hc.1 hdecode
    rwa [hc.2] at honce

/-- The pieces that are left and the extraction. -/
theorem reaches_stageRest (action : String) (rest : List (List Char)) (text : List Char)
    (htext : text ++ rest.flatten = Base64.encode archive) :
    (host containers).Reaches o fair (Undisturbed (O := O) view resource)
      (List.forM (rest.map (appendCommand path · ">>") ++ [extractCommand path])
        fun command => execChecked (F := F) resource action command).run (rest.length + 1)
      (AtPod view resource (Staged before text))
      (Checked view (Unpacked before archive) (AtMostOnce before archive)
        resource) := by
  induction rest generalizing text with
  | nil =>
    rw [List.flatten_nil, List.append_nil] at htext
    subst htext
    have hend : (host containers).Reaches o fair (Undisturbed (O := O) view resource)
        (pure () : Op F Unit).run 0
        (AtPod view resource (Unpacked before archive))
        (Checked view (Unpacked before archive) (AtMostOnce before archive)
          resource) :=
      Host.reaches_done (stable_atPod _) fun _ hs => hs.imp fun c hc => ⟨.inr hc.1, fun _ => hc⟩
    exact (reaches_checked_bind (reaches_extract hshell action) hend).mono (Nat.le_refl 1)
  | cons chunk rest ih =>
    rw [List.flatten_cons, ← List.append_assoc] at htext
    rw [List.length_cons, show rest.length + 1 + 1 = 1 + (rest.length + 1) by omega]
    exact reaches_checked_bind (reaches_append hshell action text chunk) (ih _ htext)

/-- All pieces and the extraction. -/
theorem reaches_stage (action : String) (harchive : archive ≠ []) :
    (host containers).Reaches o fair (Undisturbed (O := O) view resource)
      (List.forM (stagingCommands path (Base64.encode archive))
        fun command => execChecked (F := F) resource action command).run
      ((chunksOf uploadCommandChunkSize (Base64.encode archive)).length + 1)
      (AtPod view resource fun v => v.archives = before)
      (Checked view (Unpacked before archive) (AtMostOnce before archive)
        resource) := by
  have hsize : 0 < uploadCommandChunkSize := by decide
  have hpayload : Base64.encode archive ≠ [] := by
    intro hnil
    have hdecode : Base64.decode false (Base64.encode archive) = some archive :=
      Base64.decode_encode false archive
    rw [hnil] at hdecode
    exact harchive (Option.some.inj hdecode).symm
  obtain ⟨chunk, rest, hchunks⟩ := List.exists_cons_of_ne_nil (chunksOf_ne_nil hsize hpayload)
  have hflatten := flatten_chunksOf hsize (Base64.encode archive)
  rw [hchunks, List.flatten_cons] at hflatten
  rw [stagingCommands_eq path hchunks, hchunks, List.length_cons,
    show rest.length + 1 + 1 = 1 + (rest.length + 1) by omega]
  exact reaches_checked_bind (reaches_write hshell action chunk)
    (reaches_stageRest hshell action rest chunk hflatten)

/-- The staging file is removed after a failure, if that can be done. -/
theorem reaches_removed (action : String) (raised : Raised) :
    (host containers).Reaches o fair (Undisturbed (O := O) view resource)
      (do
        tryCatch (execChecked (F := F) resource action (removeCommand path)) fun _ => pure ()
        throw raised : Op F Unit).run 1 (AtPod view resource (AtMostOnce before archive))
      (Checked view (Unpacked before archive) (AtMostOnce before archive)
        resource) := by
  have hstable : Host.Stable (Undisturbed (O := O) view resource)
      (AtPod view resource (AtMostOnce before archive)) := stable_atPod _
  have hremove : (host containers).Reaches o fair (Undisturbed (O := O) view resource)
      (execChecked (F := F) resource action (removeCommand path)).run 1
      (AtPod view resource (AtMostOnce before archive))
      (Checked view (fun _ => True) (AtMostOnce before archive) resource) := by
    refine reaches_execChecked hshell.reports action (fun _ _ _ => trivial) (fun _ hc => hc)
      fun c hc => ?_
    unfold AtMostOnce
    rw [hshell.removes]
    exact hc
  have htried : (host containers).Reaches o fair (Undisturbed (O := O) view resource)
      (tryCatch (execChecked (F := F) resource action (removeCommand path)) fun _ => pure ()).run
      (1 + 0) (AtPod view resource (AtMostOnce before archive))
      fun _ => AtPod view resource (AtMostOnce before archive) := by
    refine hremove.tryCatch_raising (fun _ => stable_atPod _)
      (fun _ _ hs => hs.imp fun _ hc => hc.1) fun error => ?_
    exact Host.reaches_done (stable_atPod _) fun _ hs => hs.imp fun _ hc => hc.1
  refine htried.bind_raising (fun _ => hstable) (j := 0) (fun _ => ?_) fun _ _ hs =>
    hs.imp fun _ hc => ⟨hc, nofun⟩
  exact Host.reaches_done hstable fun _ hs => hs.imp fun _ hc => ⟨hc, nofun⟩

omit hshell in
theorem reaches_waitForRunningContainer (driver : KubernetesDriver) (φ : Holdings → Prop) :
    (host containers).Reaches o fair (Undisturbed (O := O) view resource)
      (driver.waitForRunningContainer (F := F) resource).run (1 + 3 * driver.timeouts.polls)
      (AtPod view resource φ) fun _ => AtPod view resource φ := by
  have hclock : (host containers).Reaches o fair (Undisturbed (O := O) view resource)
      (monotonic (F := F)).run 1 (AtPod view resource φ) fun _ => AtPod view resource φ :=
    reaches_question _ fun _ _ => rfl
  exact hclock.bind_raising (fun _ => stable_atPod φ) (fun _ => reaches_pollRunning _ _)
    fun _ _ hs => hs

omit hshell in
/-- The identifier that is drawn. -/
theorem reaches_uuid4 {identifier : String} (h : ∀ turn, fair turn → turn.uuid = identifier)
    (φ : Holdings → Prop) :
    (host containers).Reaches o fair (Undisturbed (O := O) view resource) (uuid4 (F := F)).run 1
      (AtPod view resource φ)
      fun result shared => ∃ a, result = .ok a ∧
        (a = identifier ∧ AtPod view resource φ shared) := by
  have hstable : ∀ reply : String, Host.Stable (Undisturbed (O := O) view resource)
      fun shared => reply = identifier ∧ AtPod view resource φ shared :=
    fun reply shared shared' hs hothers => ⟨hs.1, stable_atPod φ shared shared' hs.2 hothers⟩
  refine ⟨stable_atPod φ, fun _ => ⟨0, by omega, fun reply shared =>
    reply = identifier ∧ AtPod view resource φ shared, ?_, fun reply => ?_⟩⟩
  · exact fun turn shared hturn hφ => ⟨h turn hturn, hφ⟩
  · exact Host.reaches_done (hstable reply) fun shared hs => ⟨reply, rfl, hs⟩

/-- How many turns an upload takes at most. -/
def uploadTurns (driver : KubernetesDriver) (archive : List Base64.Byte) : Nat :=
  driver.timeouts.polls * 3 +
    (chunksOf uploadCommandChunkSize (Base64.encode archive)).length + 4

omit hshell in
theorem reaches_upload {identifier : String}
    (hshell : Shell containers view (remotePayload identifier)) (driver : KubernetesDriver)
    (name dstPath : String) (harchive : archive ≠ [])
    (huuid : ∀ turn, fair turn → turn.uuid = identifier) :
    (host containers).Reaches o fair (Undisturbed (O := O) view (driver.resourceName name))
      (driver.upload (F := F) name dstPath archive).run (uploadTurns driver archive)
      (AtPod view (driver.resourceName name) fun v => v.archives = before)
      (Checked view (Unpacked before archive)
        (AtMostOnce before archive) (driver.resourceName name)) := by
  have hstart : ∀ (error : Raised) (shared : Shared O F),
      AtPod view (driver.resourceName name) (fun v => v.archives = before) shared →
        Checked view (Unpacked before archive)
          (AtMostOnce before archive) (driver.resourceName name) (.error error) shared :=
    fun error shared hs => hs.imp fun c hc => ⟨.inl hc, nofun⟩
  have hstage : (host containers).Reaches o fair
      (Undisturbed (O := O) view (driver.resourceName name))
      (List.forM (stagingCommands (remotePayload identifier) (Base64.encode archive))
        fun command => execChecked (F := F) (driver.resourceName name)
          (uploadAction (driver.resourceName name) dstPath) command).run _
      (AtPod view (driver.resourceName name) fun v => v.archives = before)
      (Checked view (Unpacked before archive)
        (AtMostOnce before archive) (driver.resourceName name)) :=
    reaches_stage hshell _ harchive
  have htry := hstage.tryCatch_raising (fun _ => stable_atPod _) (fun _ _ hs => hs) fun raised =>
    (reaches_removed hshell (uploadAction (driver.resourceName name) dstPath) raised).of_imp
      (stable_atPod _) fun _ hs => hs.imp fun _ hc => hc.1
  have hdrawn : (host containers).Reaches o fair
      (Undisturbed (O := O) view (driver.resourceName name))
      (do
        let drawn ← uuid4 (F := F)
        tryCatch
          ((stagingCommands (remotePayload drawn) (Base64.encode archive)).forM fun command =>
            execChecked (driver.resourceName name)
              (uploadAction (driver.resourceName name) dstPath) command) fun raised => do
          tryCatch (execChecked (driver.resourceName name)
            (uploadAction (driver.resourceName name) dstPath) (removeCommand (remotePayload drawn)))
            fun _ => pure ()
          throw raised : Op F Unit).run
      (1 + ((chunksOf uploadCommandChunkSize (Base64.encode archive)).length + 1 + 1))
      (AtPod view (driver.resourceName name) fun v => v.archives = before)
      (Checked view (Unpacked before archive)
        (AtMostOnce before archive) (driver.resourceName name)) := by
    refine (reaches_uuid4 huuid _).bind_ok ?_ fun drawn hdrawn => ?_
    · exact fun drawn shared shared' hs hothers => ⟨hs.1, stable_atPod _ _ _ hs.2 hothers⟩
    · obtain ⟨-, rfl, -⟩ := hdrawn
      refine htry.of_imp ?_ fun _ hs => hs.2
      exact fun shared shared' hs hothers => ⟨hs.1, stable_atPod _ _ _ hs.2 hothers⟩
  refine ((reaches_waitForRunningContainer driver fun v => v.archives = before).bind_raising
    (fun _ => stable_atPod _) (fun _ => hdrawn) hstart).mono ?_
  unfold uploadTurns
  omega

end Upload

/-! ### At a table -/

section Runs

variable {O N α : Type} [DecidableEq O] [DecidableEq N] {runIds : O → String}
  (containers : Containers F)

variable {V : Type} {view : F → V}

omit [DecidableEq O] in
theorem undisturbed_of_pod {resource : String} {shared shared' : Shared O F}
    (h : shared'.cluster.pod resource = shared.cluster.pod resource) :
    Undisturbed view resource shared shared' := fun pod hpod => ⟨pod, h ▸ hpod, rfl⟩

omit [DecidableEq O] in
/-- What happens to another pod, or to a pod but not to what it holds, leaves what it holds. -/
theorem undisturbed_event {resource : String} {shared : Shared O F} {event : Event F}
    (h : ∀ contents, event ≠ .podContents resource contents) :
    Undisturbed view resource shared { shared with cluster := event.apply shared.cluster } := by
  cases event with
  | podStatus name status nodeName =>
    by_cases hresource : resource = name
    · subst hresource
      intro pod' hpod'
      have hname : ∀ pod : Pod F, ({ pod with status, nodeName } : Pod F).name = pod.name :=
        fun _ => rfl
      have hchange := Registry.find_change_some (k := resource) hname shared.cluster.pods
      obtain ⟨pod, hpod, rfl⟩ := Option.map_eq_some_iff.mp (hchange.symm.trans hpod')
      exact ⟨pod, hpod, rfl⟩
    · refine undisturbed_of_pod (Registry.find_change_ne hresource ?_ shared.cluster.pods)
      rintro pod _ ⟨⟩
      rfl
  | podContents name contents =>
    have hname : resource ≠ name := by
      rintro rfl
      exact h contents rfl
    refine undisturbed_of_pod (Registry.find_change_ne hname ?_ shared.cluster.pods)
    rintro pod _ ⟨⟩
    rfl
  | podGone name =>
    by_cases hresource : resource = name
    · subst hresource
      intro pod' hpod'
      cases (Registry.find_change_none _).symm.trans hpod'
    · refine undisturbed_of_pod (Registry.find_change_ne hresource ?_ shared.cluster.pods)
      intro pod pod' hpod
      cases hpod
  | serviceGone name => exact undisturbed_of_pod rfl

/-- A move within a thread's own run: another thread of the run takes a turn, or the processes in
the pod of a name go on. -/
def WithinRun (owner : N → O) (n : N) (resource : String) : Move N Turn (Event F) → Prop
  | .turn m _ => m ≠ n ∧ owner m = owner n
  | .event event => ∃ contents, event = .podContents resource contents

instance (owner : N → O) (n : N) (resource : String) :
    DecidablePred (WithinRun (F := F) owner n resource)
  | .turn m _ => inferInstanceAs (Decidable (m ≠ n ∧ owner m = owner n))
  | .event (.podContents name contents) =>
    decidable_of_iff (name = resource)
      ⟨fun h => ⟨contents, h ▸ rfl⟩, by rintro ⟨_, ⟨⟩⟩; rfl⟩
  | .event (.podStatus _ _ _) => isFalse (by rintro ⟨_, ⟨⟩⟩)
  | .event (.podGone _) => isFalse (by rintro ⟨_, ⟨⟩⟩)
  | .event (.serviceGone _) => isFalse (by rintro ⟨_, ⟨⟩⟩)

/-- The other runs leave what a run's pod holds. -/
theorem undisturbed_move
    (hsuffix : ∀ o p, runSuffix (runIds o) = runSuffix (runIds p) → o = p) {owner : N → O} {n : N}
    {table : Table (Shared O F) N Question (Reply F) α} (horder : InOrder runIds owner table)
    {resource : String} (hresource : ownsName (runIds (owner n)) resource = true)
    {next : Move N Turn (Event F)} (hnext : Host.isTurnOf n next = false)
    (hwithin : ¬WithinRun owner n resource next) :
    Undisturbed view resource table.state ((host containers).move owner table next).state := by
  cases next with
  | event event => exact undisturbed_event fun contents hcontents => hwithin ⟨contents, hcontents⟩
  | turn m turn =>
    have hmn : m ≠ n := by simpa [Host.isTurnOf] using hnext
    have hm : owner m ≠ owner n := fun h => hwithin ⟨hmn, h⟩
    have hview := view_turn containers hsuffix hm horder turn
    have hpart := congrArg (fun shared : Shared O F => shared.cluster.pod resource) hview
    simp only [Shared.view, pod_part hresource] at hpart
    exact undisturbed_of_pod hpart

end Runs

/-- A container's files and the archives that were unpacked in it. -/
structure Disk where
  files : String → Option (List Char)
  archives : List (List Base64.Byte)

def Disk.set (disk : Disk) (path : String) (text : Option (List Char)) : Disk :=
  { disk with files := Function.update disk.files path text }

/-- What the commands of an upload do. -/
def Disk.execute : List String → Disk → ExecOutcome × Disk
  | ["sh", "-c", script, "sh", chunk, path], disk =>
    if script = "printf \"%s\" \"$1\" > \"$2\"" then ({}, disk.set path (some chunk.toList))
    else ({}, disk.set path (some ((disk.files path).getD [] ++ chunk.toList)))
  | ["sh", "-c", _, "sh", path], disk =>
    match (disk.files path).bind (Base64.decode false) with
    | some bytes => ({}, { disk.set path none with archives := disk.archives ++ [bytes] })
    | none => ({ stderr := ["base64: invalid input"], returncode := some 1 }, disk.set path none)
  | ["rm", "-f", "--", path], disk => ({}, disk.set path none)
  | _, disk => ({}, disk)

def diskContainers : Containers Disk := ⟨fun _ => ⟨fun _ => none, []⟩, Disk.execute, fun _ => ""⟩

theorem execute_staging (script chunk path : String) (disk : Disk) :
    Disk.execute ["sh", "-c", script, "sh", chunk, path] disk =
      if script = "printf \"%s\" \"$1\" > \"$2\"" then ({}, disk.set path (some chunk.toList))
      else ({}, disk.set path (some ((disk.files path).getD [] ++ chunk.toList))) := rfl

theorem execute_write (path : String) (chunk : List Char) (disk : Disk) :
    Disk.execute (appendCommand path chunk ">") disk = ({}, disk.set path (some chunk)) := by
  unfold appendCommand
  rw [execute_staging, if_pos (by decide), String.toList_ofList]

theorem execute_append (path : String) (chunk : List Char) (disk : Disk) :
    Disk.execute (appendCommand path chunk ">>") disk =
      ({}, disk.set path (some ((disk.files path).getD [] ++ chunk))) := by
  unfold appendCommand
  rw [execute_staging, if_neg (by decide), String.toList_ofList]

theorem execute_extract {path : String} {text : List Char} {bytes : List Base64.Byte} {disk : Disk}
    (hfile : disk.files path = some text) (hdecode : Base64.decode false text = some bytes) :
    Disk.execute (extractCommand path) disk =
      ({}, { disk.set path none with archives := disk.archives ++ [bytes] }) := by
  have hbind : (disk.files path).bind (Base64.decode false) = some bytes := by
    rw [hfile, Option.bind_some, hdecode]
  unfold extractCommand
  simp only [Disk.execute, hbind]

theorem disk_reports (command : List String) (disk : Disk) :
    (Disk.execute command disk).1.returncode ≠ none := by
  unfold Disk.execute
  split
  · split <;> exact nofun
  · split <;> exact nofun
  · exact nofun
  · exact nofun

def Disk.holdings (path : String) (disk : Disk) : Holdings := ⟨disk.files path, disk.archives⟩

theorem shell_disk (path : String) : Shell diskContainers (Disk.holdings path) path where
  reports := disk_reports
  write chunk disk _ := by
    show (Disk.execute (appendCommand path chunk ">") disk).2.files path = some chunk
    rw [execute_write]
    exact Function.update_self ..
  append chunk text disk hfile _ := by
    have hstaged : disk.files path = some text := hfile
    show (Disk.execute (appendCommand path chunk ">>") disk).2.files path = some (text ++ chunk)
    rw [execute_append, hstaged]
    exact Function.update_self ..
  keeps chunk redirect disk := by
    show (Disk.execute (appendCommand path chunk redirect) disk).2.archives = disk.archives
    unfold appendCommand
    rw [execute_staging]
    split <;> rfl
  extract text bytes disk hfile hdecode _ := by
    show (Disk.execute (extractCommand path) disk).2.archives = disk.archives ++ [bytes] ∧
      (Disk.execute (extractCommand path) disk).2.files path = none
    rw [execute_extract hfile hdecode]
    exact ⟨rfl, Function.update_self ..⟩
  extractsOnce text bytes disk hfile hdecode := by
    refine .inr ?_
    show (Disk.execute (extractCommand path) disk).2.archives = disk.archives ++ [bytes]
    rw [execute_extract hfile hdecode]
  removes disk := rfl

/-- Two pods of a run and one of another, with an archive that is there already. -/
def diskCluster : Cluster Disk where
  pods := [pairPod true "btc-node" ⟨fun _ => none, [[9]]⟩,
    pairPod false "btc-node" ⟨fun _ => none, []⟩, pairPod true "wallet-000" ⟨fun _ => none, []⟩]
  services := []

theorem ofPair_diskCluster : OfPair diskCluster := by
  refine ⟨fun pod hpod => ?_, fun service hservice => ?_⟩
  · simp only [diskCluster, List.mem_cons, List.not_mem_nil, or_false] at hpod
    rcases hpod with rfl | rfl | rfl
    exacts [⟨_, _, rfl⟩, ⟨_, _, rfl⟩, ⟨_, _, rfl⟩]
  · cases hservice

/-- The first two of three threads are of one run. -/
def uploader (m : Fin 3) : Bool := decide (m ≠ 2)

/-- Each thread uploads an archive, the second one into a pod of its own. -/
def uploadScript (m : Fin 3) : Session Operation OperationResult (Except Raised Unit) :=
  .ask (.upload (if m = 1 then "wallet-000" else "btc-node") "/data" [0, 1, 2]) fun result =>
    .done result

/-- The threads take turns.  A request of the other run fails though it is carried out, the kubelet
reports, and a process in the pod writes a file. -/
def uploadSchedule : List (Move (Fin 3) Turn (Event Disk)) :=
  let round : List (Move (Fin 3) Turn (Event Disk)) :=
    [.turn 0 { uuid := "u" }, .turn 1 { uuid := "v" }, .turn 2 { uuid := "u" }]
  round ++ [.event (.podContents ((pairDrivers true).resourceName "btc-node")
      ⟨Function.update (fun _ => none) "/var/log/btc.log" (some ['x']), [[9]]⟩)] ++
    round ++ round ++ [.turn 2 { fault := some ⟨500, "", "(500)"⟩ },
      .event (.podStatus ((pairDrivers true).resourceName "btc-node") {} none)] ++
    (List.replicate 8 round).flatten

end CoinjoinEmulator.Driver
