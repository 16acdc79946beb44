import CoinjoinEmulator.Errors
import CoinjoinEmulator.ProofKit.Base64
import CoinjoinEmulator.ProofKit.Document
import CoinjoinEmulator.ProofKit.Effect

/-! Downloads from a pod: a base64 stream that arrives in arbitrary text chunks becomes a
binary file. -/

namespace CoinjoinEmulator.Driver

open ProofKit ProofKit.Base64

/-- `target` is the content of the binary file; `invalid` says whether an error is kept. -/
structure Base64Spool where
  target : List Byte := []
  pending : List Char := []
  written : Nat := 0
  invalid : Bool := false
  source : String

namespace Base64Spool

def init (name srcPath : String) : Base64Spool := { source := name ++ ":" ++ srcPath }

/-- `"".join(chunk.split())`. -/
def joinSplit (chunk : String) : List Char := chunk.toList.filter fun c => !isSpace c

variable (canonical : Bool)

/-- `_decode`.  `b64decode` is the strict decoder. -/
def decode (spool : Base64Spool) (encoded : List Char) : Base64Spool :=
  if encoded = [] then spool
  else
    match Base64.decode canonical encoded with
    | none => { spool with invalid := true }
    | some payload => { spool with
        target := spool.target ++ payload
        written := spool.written + payload.length }

def feed (spool : Base64Spool) (chunk : String) : Base64Spool :=
  if spool.invalid = true then spool
  else
    let pending := spool.pending ++ joinSplit chunk
    let usable := pending.length - pending.length % 4
    let decoded := decode canonical { spool with pending } (pending.take usable)
    { decoded with pending := pending.drop usable }

def invalidBase64 (source : String) : PyError :=
  .runtimeError ("download of " ++ source ++ " returned invalid base64")

def emptyArchive (source : String) : PyError :=
  .runtimeError ("download of " ++ source ++ " produced an empty archive")

/-- Decode what is pending when the text ends. -/
def decodePending (spool : Base64Spool) : Base64Spool :=
  if spool.invalid = false ∧ spool.pending ≠ [] then
    { decode canonical spool spool.pending with pending := [] }
  else spool

/-- Raise for invalid or empty output. -/
def finish : EStateM PyError Base64Spool Unit := do
  modify (decodePending canonical)
  let spool ← get
  if spool.invalid = true then throw (invalidBase64 spool.source)
  else if spool.written = 0 then throw (emptyArchive spool.source)
  else return ()

/-- The chunks of a download, then its end. -/
def receive (chunks : List String) : EStateM PyError Base64Spool Unit := do
  modify fun spool => chunks.foldl (feed canonical) spool
  finish canonical

/-! ### However the stream is cut -/

variable {canonical}

theorem decode_eq (spool : Base64Spool) (encoded : List Char) :
    spool.decode canonical encoded =
      match Base64.decode canonical encoded with
      | none => { spool with invalid := true }
      | some payload => { spool with
          target := spool.target ++ payload
          written := spool.written + payload.length } := by
  unfold decode
  by_cases h : encoded = []
  · subst h
    simp
  · rw [if_neg h]

theorem decode_append_of_paddedAtEnd {groups text : List Char} (hlength : 4 ∣ groups.length)
    (hpad : PaddedAtEnd (groups ++ text)) :
    Base64.decode canonical (groups ++ text) = do
      let bytes ← Base64.decode canonical groups
      let bytes' ← Base64.decode canonical text
      return bytes ++ bytes' :=
  decode_append hlength fun hmem c hc => (List.pairwise_append.mp hpad).2.2 _ hmem c hc rfl

variable (canonical) in
/-- What is known of a text after it was fed: whole groups of it are decoded and less than a group
is pending, or whole groups at its start do not decode. -/
def Fed (spool : Base64Spool) (fed : List Char) : Prop :=
  ∃ groups, 4 ∣ groups.length ∧
    if spool.invalid = true then groups <+: fed ∧ Base64.decode canonical groups = none
    else fed = groups ++ spool.pending ∧ Base64.decode canonical groups = some spool.target ∧
      spool.written = spool.target.length

theorem fed_init (name srcPath : String) : Fed canonical (init name srcPath) [] :=
  ⟨[], by simp, by simp [init]⟩

theorem Fed.feed {spool : Base64Spool} {fed : List Char} (h : Fed canonical spool fed)
    (chunk : String) (hpad : PaddedAtEnd (fed ++ joinSplit chunk)) :
    Fed canonical (spool.feed canonical chunk) (fed ++ joinSplit chunk) := by
  obtain ⟨groups, hlength, h⟩ := h
  by_cases hinvalid : spool.invalid = true
  · rw [if_pos hinvalid] at h
    have hfeed : spool.feed canonical chunk = spool := if_pos hinvalid
    rw [hfeed]
    refine ⟨groups, hlength, ?_⟩
    rw [if_pos hinvalid]
    exact ⟨h.1.trans (List.prefix_append _ _), h.2⟩
  · rw [if_neg hinvalid] at h
    obtain ⟨rfl, hgroups, hwritten⟩ := h
    set pending := spool.pending ++ joinSplit chunk with hpending
    set usable := pending.length - pending.length % 4
    rw [List.append_assoc, ← hpending] at hpad ⊢
    have hsplit : pending = pending.take usable ++ pending.drop usable :=
      (List.take_append_drop usable pending).symm
    have hlength' : 4 ∣ (groups ++ pending.take usable).length := by
      rw [List.length_append, List.length_take]
      omega
    have hdecode : Base64.decode canonical (groups ++ pending.take usable) =
        (Base64.decode canonical (pending.take usable)).map (spool.target ++ ·) := by
      rw [hsplit, ← List.append_assoc] at hpad
      rw [decode_append_of_paddedAtEnd hlength (List.pairwise_append.mp hpad).1, hgroups]
      cases Base64.decode canonical (pending.take usable) <;> rfl
    refine ⟨groups ++ pending.take usable, hlength', ?_⟩
    have hfeed : spool.feed canonical chunk =
        { decode canonical { spool with pending } (pending.take usable) with
          pending := pending.drop usable } := if_neg hinvalid
    rw [hfeed, decode_eq]
    cases hpayload : Base64.decode canonical (pending.take usable) with
    | none =>
      rw [hpayload] at hdecode
      refine ⟨?_, hdecode⟩
      exact (List.prefix_append_right_inj groups).mpr (List.take_prefix usable pending)
    | some payload =>
      rw [hpayload] at hdecode
      rw [if_neg hinvalid]
      refine ⟨?_, hdecode, ?_⟩
      · rw [List.append_assoc, ← hsplit]
      · simp [hwritten]

theorem joinSplit_join_cons (chunk : String) (chunks : List String) :
    joinSplit (String.join (chunk :: chunks)) = joinSplit chunk ++ joinSplit (String.join chunks) := by
  rw [joinSplit, String.join_cons, String.toList_append, List.filter_append]
  rfl

/-- By induction on the chunks. -/
theorem Fed.foldl {spool : Base64Spool} {fed : List Char} (h : Fed canonical spool fed)
    (chunks : List String) (hpad : PaddedAtEnd (fed ++ joinSplit (String.join chunks))) :
    Fed canonical (chunks.foldl (Base64Spool.feed canonical) spool)
      (fed ++ joinSplit (String.join chunks)) := by
  induction chunks generalizing spool fed with
  | nil =>
    rw [show joinSplit (String.join []) = [] by rw [joinSplit, String.join_nil]; rfl,
      List.append_nil]
    exact h
  | cons chunk chunks ih =>
    rw [joinSplit_join_cons, ← List.append_assoc] at hpad ⊢
    exact ih (h.feed chunk (List.pairwise_append.mp hpad).1) hpad

theorem decodePending_of_valid {spool : Base64Spool} (h : ¬spool.invalid = true) :
    spool.decodePending canonical =
      { spool.decode canonical spool.pending with pending := [] } := by
  unfold decodePending
  by_cases hpending : spool.pending = []
  · rw [if_neg fun hif => hif.2 hpending, hpending]
    unfold decode
    rw [if_pos rfl, ← hpending]
  · rw [if_pos ⟨by simpa using h, hpending⟩]

/-- How the end of a download goes, by the bytes of the whole text. -/
def finished (spool : Base64Spool) : Option (List Byte) → EStateM.Result PyError Base64Spool Unit
  | none => .error (invalidBase64 spool.source) spool
  | some [] => .error (emptyArchive spool.source) spool
  | some (_ :: _) => .ok () spool

theorem run_finish (spool : Base64Spool) :
    (finish canonical).run spool =
      let spool' := spool.decodePending canonical
      if spool'.invalid = true then .error (invalidBase64 spool'.source) spool'
      else if spool'.written = 0 then .error (emptyArchive spool'.source) spool'
      else .ok () spool' := by
  show (ite _ _ (ite _ _ _) : EStateM PyError Base64Spool Unit).run _ = _
  rw [run_ite, run_ite]
  rfl

theorem Fed.run_finish {spool : Base64Spool} {text : List Char} (h : Fed canonical spool text)
    (hpad : PaddedAtEnd text) :
    ∃ spool', (finish canonical).run spool =
        finished spool' (Base64.decode canonical text) ∧
      ∀ bytes, Base64.decode canonical text = some bytes → spool'.target = bytes := by
  obtain ⟨groups, hlength, h⟩ := h
  rw [Base64Spool.run_finish]
  by_cases hinvalid : spool.invalid = true
  · rw [if_pos hinvalid] at h
    obtain ⟨⟨rest, rfl⟩, hgroups⟩ := h
    have hpending : spool.decodePending canonical = spool :=
      if_neg fun hif => by simp [hinvalid] at hif
    rw [decode_append_of_paddedAtEnd hlength hpad, hgroups, hpending, if_pos hinvalid]
    exact ⟨spool, rfl, fun bytes hbytes => by cases hbytes⟩
  · rw [if_neg hinvalid] at h
    obtain ⟨rfl, hgroups, hwritten⟩ := h
    have hdecode : Base64.decode canonical (groups ++ spool.pending) =
        (Base64.decode canonical spool.pending).map (spool.target ++ ·) := by
      rw [decode_append_of_paddedAtEnd hlength hpad, hgroups]
      cases Base64.decode canonical spool.pending <;> rfl
    rw [decodePending_of_valid hinvalid, decode_eq, hdecode]
    cases Base64.decode canonical spool.pending with
    | none => exact ⟨_, if_pos rfl, fun bytes hbytes => by cases hbytes⟩
    | some payload =>
      rw [Option.map_some]
      dsimp only
      rw [if_neg hinvalid, hwritten, ← List.length_append]
      refine ⟨{ spool with
        target := spool.target ++ payload
        written := (spool.target ++ payload).length
        pending := [] }, ?_, fun bytes hbytes => by simpa using hbytes⟩
      cases spool.target ++ payload <;> rfl

theorem run_receive (name srcPath : String) (chunks : List String)
    (hpad : PaddedAtEnd (joinSplit (String.join chunks))) :
    let bytes := Base64.decode canonical (joinSplit (String.join chunks))
    ∃ spool, (receive canonical chunks).run (init name srcPath) = finished spool bytes ∧
      ∀ payload, bytes = some payload → spool.target = payload :=
  ((fed_init name srcPath).foldl chunks hpad).run_finish hpad

variable (canonical) in
/-- However a text is cut into chunks, and wherever white space is inserted, its download raises
exactly if the text without the white space does not decode or decodes to nothing, and otherwise
leaves its bytes.  Padding is at the end of the text. -/
theorem receive_spec (name srcPath : String) (chunks : List String)
    (hpad : PaddedAtEnd (joinSplit (String.join chunks))) :
    let bytes := Base64.decode canonical (joinSplit (String.join chunks))
    let result := (receive canonical chunks).run (init name srcPath)
    ((∃ error spool, result = .error error spool) ↔ bytes = none ∨ bytes = some []) ∧
    (∀ spool, result = .ok () spool → bytes = some spool.target) ∧
    ∀ payload, payload ≠ [] → joinSplit (String.join chunks) = encode payload →
      ∃ spool, result = .ok () spool ∧ spool.target = payload := by
  intro bytes result
  obtain ⟨spool, hresult, htarget⟩ := @run_receive canonical name srcPath chunks hpad
  have hresult : result = finished spool bytes := hresult
  rw [hresult]
  refine ⟨?_, fun spool' hok => ?_, fun payload hne htext => ?_⟩
  · cases bytes with
    | none => exact iff_of_true ⟨_, _, rfl⟩ (.inl rfl)
    | some payload =>
      cases payload with
      | nil => exact iff_of_true ⟨_, _, rfl⟩ (.inr rfl)
      | cons byte payload =>
        refine iff_of_false ?_ (by simp)
        rintro ⟨error, spool', herror⟩
        cases herror
  · cases hbytes : bytes with
    | none =>
      rw [hbytes] at hok
      cases hok
    | some payload =>
      have htarget := htarget payload hbytes
      rw [hbytes] at hok
      cases payload with
      | nil => cases hok
      | cons byte payload =>
        cases hok
        rw [htarget]
  · have hbytes : bytes = some payload := by
      show Base64.decode canonical (joinSplit (String.join chunks)) = some payload
      rw [htext, decode_encode]
    refine ⟨spool, ?_, htarget payload hbytes⟩
    rw [hbytes]
    cases payload with
    | nil => exact absurd rfl hne
    | cons byte payload => rfl

/-- Two bytes, cut before and inside their padding. -/
theorem receive_two_bytes :
    ∃ spool, (receive true ["Q", "U\nI", "", "="]).run (init "pod" "/logs") = .ok () spool ∧
      spool.target = [65, 66] :=
  (receive_spec true "pod" "/logs" ["Q", "U\nI", "", "="] (by decide +kernel)).2.2 [65, 66]
    (by decide) (by decide +kernel)

end Base64Spool

end CoinjoinEmulator.Driver
