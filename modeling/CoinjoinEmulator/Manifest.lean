import CoinjoinEmulator.ClientStartupLog
import CoinjoinEmulator.ProofKit.Sha256
import CoinjoinEmulator.RoundEvents.Evidence

/-! The producer-label manifest that records how complete the captured labels are, and what is left
of it when a write is cut off. -/

namespace CoinjoinEmulator.Manifest

open ProofKit ClientStartup

/-- A resolved path by its names. -/
abbrev Path := List String

abbrev Bytes := List Nat

/-- The contents of the regular files. -/
abbrev Disk := Path → Option Bytes

/-- Engine-owned records used to establish the producer-label contract. -/
structure ProducerLabelEvidence where
  engine : String
  complete : Bool
  sources : List String
  reason : Option String := none
  positiveRule : Option String := none
  positiveCount : Option Int := none

/-- One source file whose contents contribute producer-label evidence. -/
structure ManifestSource where
  path : String
  sizeBytes : Nat
  sha256 : List Char

structure ProducerLabelManifest where
  schemaVersion : String
  engine : String
  complete : Bool
  reason : Option String
  positiveRule : Option String
  positiveCount : Option Int
  sources : List ManifestSource

/-- `realpath` is `os.path.realpath(os.path.join(data_root, name))`, and `dump` are the pieces of
text that `json.dump` writes. -/
structure DataPath where
  root : Path
  realpath : String → Path
  dump : ProducerLabelManifest → List Bytes

/-! ### The manifest -/

def bytesInMegabyte : Nat := 1024 * 1024

/-- `hashlib.sha256(content).hexdigest()`. -/
def hexdigest (content : Bytes) : List Char :=
  let w := Sha256.digest content
  [w.a, w.b, w.c, w.d, w.e, w.f, w.g, w.h].flatMap Sha256.hexWord

/-- The digest is updated with each megabyte that is read. -/
def sha256File (content : Bytes) : List Char :=
  hexdigest ((batches bytesInMegabyte content).foldl (fun digest chunk => digest ++ chunk) [])

/-- `reason or "..."`. -/
def orReason (reason : Option String) (text : String) : String :=
  match reason with
  | some given => if given = "" then text else given
  | none => text

/-- `os.path.relpath(path, root)` of a path below the root. -/
def relpath (root path : Path) : String :=
  if path = root then "." else "/".intercalate (path.drop root.length)

/-- What the loop over the sources has recorded. -/
structure Capture where
  complete : Bool
  reason : Option String
  sourceRecords : List ManifestSource

/-- One round of the loop over the sources. -/
def recordSource (data : DataPath) (disk : Disk) (capture : Capture) (sourceName : String) :
    Capture :=
  if sourceName = "" then
    { capture with
      complete := false
      reason := some (orReason capture.reason "producer-label source path is invalid") }
  else
    let sourcePath := data.realpath sourceName
    match data.root.isPrefixOf sourcePath, disk sourcePath with
    | true, some content =>
      { capture with
        sourceRecords := capture.sourceRecords ++
          [⟨relpath data.root sourcePath, content.length, sha256File content⟩] }
    | _, _ =>
      { capture with
        complete := false
        reason := some (orReason capture.reason
          ("producer-label source is missing: " ++ sourceName)) }

/-- The loop over the sources, and the check that follows it. -/
def captureSources (data : DataPath) (disk : Disk) (evidence : ProducerLabelEvidence) : Capture :=
  let capture := evidence.sources.foldl (recordSource data disk)
    ⟨evidence.complete, evidence.reason, []⟩
  if capture.complete && capture.sourceRecords.isEmpty then
    { capture with
      complete := false
      reason := some (orReason capture.reason "producer-label capture produced no source files") }
  else capture

/-- The evidence of an engine, or what stands for none. -/
def evidenceOf (evidence : Option ProducerLabelEvidence) : ProducerLabelEvidence :=
  evidence.getD { engine := "unknown", complete := false, sources := [] }

/-- The manifest about the files that are there. -/
def producerLabelManifest (data : DataPath) (disk : Disk)
    (evidence : Option ProducerLabelEvidence) : ProducerLabelManifest :=
  let evidence := evidenceOf evidence
  let capture := captureSources data disk evidence
  { schemaVersion := "1.0"
    engine := evidence.engine
    complete := capture.complete
    reason :=
      if capture.complete then none
      else some (orReason capture.reason "producer-label capture was incomplete")
    positiveRule := evidence.positiveRule
    positiveCount := evidence.positiveCount
    sources := capture.sourceRecords }

/-! ### Writing it -/

/-- A change of the disk that other processes see at once. -/
inductive DiskStep where
  | create (path : Path)
  | append (path : Path) (piece : Bytes)
  | replace (source target : Path)

def DiskStep.apply (disk : Disk) : DiskStep → Disk
  | .create path => Function.update disk path (some [])
  | .append path piece => Function.update disk path (some ((disk path).getD [] ++ piece))
  | .replace source target =>
    Function.update (Function.update disk target (disk source)) source none

def DataPath.manifestPath (data : DataPath) : Path := data.root ++ ["coinjoin_label_manifest.json"]

def DataPath.temporaryPath (data : DataPath) : Path :=
  data.root ++ ["coinjoin_label_manifest.json.tmp"]

/-- `"\n"`. -/
def newline : Bytes := [10]

/-- The changes that `write_producer_label_manifest` makes in turn. -/
def writeProducerLabelManifest (data : DataPath) (disk : Disk)
    (evidence : Option ProducerLabelEvidence) : List DiskStep :=
  .create data.temporaryPath ::
    ((data.dump (producerLabelManifest data disk evidence) ++ [newline]).map
      (.append data.temporaryPath) ++ [.replace data.temporaryPath data.manifestPath])

/-- A write that was cut off after some of its changes, or was not. -/
structure Attempt where
  evidence : Option ProducerLabelEvidence
  made : Nat

def Attempt.apply (data : DataPath) (disk : Disk) (attempt : Attempt) : Disk :=
  ((writeProducerLabelManifest data disk attempt.evidence).take attempt.made).foldl
    DiskStep.apply disk

/-- The text of the manifest. -/
def manifestText (data : DataPath) (manifest : ProducerLabelManifest) : Bytes :=
  (data.dump manifest).flatten ++ newline

/-! ### What a manifest says -/

section Content

variable {data : DataPath} {disk : Disk}

theorem sha256File_eq (content : Bytes) : sha256File content = hexdigest content := by
  have hfold : ∀ (chunks : List Bytes) (read : Bytes),
      chunks.foldl (fun digest chunk => digest ++ chunk) read = read ++ chunks.flatten := by
    intro chunks
    induction chunks with
    | nil => simp
    | cons chunk rest ih => simp [ih]
  rw [sha256File, hfold, List.nil_append, flatten_batches (by decide)]

variable (data disk) in
/-- The record of a source that is a file below the data root. -/
def sourceRecord (sourceName : String) : Option ManifestSource :=
  if sourceName ≠ "" ∧ data.root <+: data.realpath sourceName then
    (disk (data.realpath sourceName)).map fun content =>
      ⟨relpath data.root (data.realpath sourceName), content.length, hexdigest content⟩
  else none

/-- What is wrong with a source that is not recorded. -/
def failure (sourceName : String) : String :=
  if sourceName = "" then "producer-label source path is invalid"
  else "producer-label source is missing: " ++ sourceName

theorem recordSource_of_none {sourceName : String} (h : sourceRecord data disk sourceName = none)
    (capture : Capture) :
    recordSource data disk capture sourceName = { capture with
      complete := false
      reason := some (orReason capture.reason (failure sourceName)) } := by
  unfold recordSource failure
  by_cases hname : sourceName = ""
  · rw [if_pos hname, if_pos hname]
  · rw [if_neg hname, if_neg hname]
    dsimp only
    split
    · rename_i content hprefix hfile
      rw [sourceRecord, if_pos ⟨hname, List.isPrefixOf_iff_prefix.mp hprefix⟩, hfile] at h
      cases h
    · rfl

theorem recordSource_of_some {sourceName : String} {source : ManifestSource}
    (h : sourceRecord data disk sourceName = some source) (capture : Capture) :
    recordSource data disk capture sourceName =
      { capture with sourceRecords := capture.sourceRecords ++ [source] } := by
  unfold sourceRecord at h
  split at h
  · rename_i hvalid
    obtain ⟨content, hfile, rfl⟩ := Option.map_eq_some_iff.mp h
    unfold recordSource
    rw [if_neg hvalid.1]
    simp only [List.isPrefixOf_iff_prefix.mpr hvalid.2, hfile, sha256File_eq]
  · cases h

theorem orReason_ne_empty (reason : Option String) {text : String} (h : text ≠ "") :
    orReason reason text ≠ "" := by
  unfold orReason
  split
  · split
    · exact h
    · assumption
  · exact h

theorem failure_ne_empty (sourceName : String) : failure sourceName ≠ "" := by
  unfold failure
  split
  · decide
  · intro h
    have hlength := congrArg String.length h
    rw [String.length_append] at hlength
    exact absurd hlength (by simp)

/-- A reason that was given stays. -/
theorem orReason_some {given : String} (h : given ≠ "") (text : String) :
    orReason (some given) text = given := if_neg h

theorem foldl_recordSource_reason {given : String} (h : given ≠ "") (sourceNames : List String)
    {capture : Capture} (hreason : capture.reason = some given) :
    (sourceNames.foldl (recordSource data disk) capture).reason = some given := by
  induction sourceNames generalizing capture with
  | nil => exact hreason
  | cons sourceName rest ih =>
    rw [List.foldl_cons]
    apply ih
    cases hsource : sourceRecord data disk sourceName with
    | none => rw [recordSource_of_none hsource, hreason, orReason_some h]
    | some source => rw [recordSource_of_some hsource, hreason]

/-- The loop records the sources that are there, and the first one that is not. -/
theorem foldl_recordSource (sourceNames : List String) (capture : Capture) :
    (sourceNames.foldl (recordSource data disk) capture).sourceRecords =
        capture.sourceRecords ++ sourceNames.filterMap (sourceRecord data disk) ∧
      (sourceNames.foldl (recordSource data disk) capture).complete =
        (capture.complete && sourceNames.all fun name => (sourceRecord data disk name).isSome) ∧
      ∀ name, sourceNames.find? (fun name => (sourceRecord data disk name).isNone) = some name →
        (sourceNames.foldl (recordSource data disk) capture).reason =
          some (orReason capture.reason (failure name)) := by
  induction sourceNames generalizing capture with
  | nil => simp
  | cons sourceName rest ih =>
    rw [List.foldl_cons]
    cases hsource : sourceRecord data disk sourceName with
    | none =>
      have hgiven := orReason_ne_empty capture.reason (failure_ne_empty sourceName)
      rw [recordSource_of_none hsource]
      obtain ⟨hrecords, hcomplete, -⟩ := ih { capture with
        complete := false
        reason := some (orReason capture.reason (failure sourceName)) }
      refine ⟨?_, ?_, ?_⟩
      · rw [hrecords, List.filterMap_cons_none hsource]
      · rw [hcomplete]
        simp [hsource]
      · intro name hname
        rw [List.find?_cons_of_pos (by simp [hsource]), Option.some.injEq] at hname
        rw [← hname]
        exact foldl_recordSource_reason hgiven rest rfl
    | some source =>
      rw [recordSource_of_some hsource]
      obtain ⟨hrecords, hcomplete, hreason⟩ :=
        ih { capture with sourceRecords := capture.sourceRecords ++ [source] }
      refine ⟨?_, ?_, ?_⟩
      · rw [hrecords, List.filterMap_cons_some hsource, List.append_assoc]
        rfl
      · rw [hcomplete]
        simp [hsource]
      · intro name hname
        rw [List.find?_cons_of_neg (by simp [hsource])] at hname
        exact hreason name hname

/-- The manifest records each source of the evidence that is a file below the data root, with its
size and its digest.  It is complete just when the evidence is and all sources are recorded, and
names the first source that is not. -/
structure Exact (data : DataPath) (disk : Disk) (evidence : ProducerLabelEvidence)
    (manifest : ProducerLabelManifest) : Prop where
  sources_eq : manifest.sources = evidence.sources.filterMap (sourceRecord data disk)
  complete_iff : manifest.complete = true ↔ evidence.complete = true ∧ evidence.sources ≠ [] ∧
    ∀ name ∈ evidence.sources, (sourceRecord data disk name).isSome
  reason_none_iff : manifest.reason = none ↔ manifest.complete = true
  reason_ne_empty : manifest.reason ≠ some ""
  reason_first : ∀ name,
    evidence.sources.find? (fun name => (sourceRecord data disk name).isNone) = some name →
      manifest.reason = some (orReason evidence.reason (failure name))

theorem filterMap_sourceRecord_eq_nil {sourceNames : List String}
    (h : ∀ name ∈ sourceNames, (sourceRecord data disk name).isSome) :
    sourceNames.filterMap (sourceRecord data disk) = [] ↔ sourceNames = [] := by
  rw [List.filterMap_eq_nil_iff]
  constructor
  · intro hnone
    rw [List.eq_nil_iff_forall_not_mem]
    intro name hname
    have hsome := h name hname
    rw [hnone name hname] at hsome
    cases hsome
  · rintro rfl
    simp

theorem captureSources_spec (data : DataPath) (disk : Disk) (evidence : ProducerLabelEvidence) :
    (captureSources data disk evidence).sourceRecords =
        evidence.sources.filterMap (sourceRecord data disk) ∧
      ((captureSources data disk evidence).complete = true ↔ evidence.complete = true ∧
        evidence.sources ≠ [] ∧
          ∀ name ∈ evidence.sources, (sourceRecord data disk name).isSome) ∧
      ∀ name,
        evidence.sources.find? (fun name => (sourceRecord data disk name).isNone) = some name →
          (captureSources data disk evidence).complete = false ∧
            (captureSources data disk evidence).reason =
              some (orReason evidence.reason (failure name)) := by
  obtain ⟨hrecords, hcomplete, hreason⟩ := @foldl_recordSource data disk evidence.sources
    ⟨evidence.complete, evidence.reason, []⟩
  rw [List.nil_append] at hrecords
  simp only [captureSources]
  generalize evidence.sources.foldl (recordSource data disk)
    ⟨evidence.complete, evidence.reason, []⟩ = capture at hrecords hcomplete hreason
  have hall : capture.complete = true ↔ evidence.complete = true ∧
      ∀ name ∈ evidence.sources, (sourceRecord data disk name).isSome := by
    rw [hcomplete, Bool.and_eq_true, List.all_eq_true]
  have hfailed : ∀ name,
      evidence.sources.find? (fun name => (sourceRecord data disk name).isNone) = some name →
        capture.complete = false := by
    intro name hname
    rw [Bool.eq_false_iff, ne_eq, hall]
    rintro ⟨-, hsome⟩
    have hnone := List.find?_some hname
    have hrecorded := hsome name (List.mem_of_find?_eq_some hname)
    rw [Option.isNone_iff_eq_none] at hnone
    rw [hnone] at hrecorded
    cases hrecorded
  by_cases hempty : (capture.complete && capture.sourceRecords.isEmpty) = true
  · -- nothing is there to be recorded
    rw [if_pos hempty]
    obtain ⟨hdone, hnil⟩ := Bool.and_eq_true_iff.mp hempty
    have hsome := (hall.mp hdone).2
    rw [List.isEmpty_iff, hrecords, filterMap_sourceRecord_eq_nil hsome] at hnil
    refine ⟨hrecords, ⟨fun h => (by cases h), fun h => absurd hnil h.2.1⟩, fun name hname => ?_⟩
    rw [hfailed name hname] at hdone
    cases hdone
  · rw [if_neg hempty]
    refine ⟨hrecords, ⟨fun hdone => ?_, fun h => hall.mpr ⟨h.1, h.2.2⟩⟩,
      fun name hname => ⟨hfailed name hname, hreason name hname⟩⟩
    obtain ⟨hevidence, hsome⟩ := hall.mp hdone
    refine ⟨hevidence, fun hnil => hempty ?_, hsome⟩
    rw [hdone, hrecords, hnil]
    rfl

theorem exact_producerLabelManifest (data : DataPath) (disk : Disk)
    (evidence : Option ProducerLabelEvidence) :
    Exact data disk (evidenceOf evidence) (producerLabelManifest data disk evidence) := by
  obtain ⟨hrecords, hcomplete, hreason⟩ := captureSources_spec data disk (evidenceOf evidence)
  simp only [producerLabelManifest]
  generalize captureSources data disk (evidenceOf evidence) = capture
    at hrecords hcomplete hreason
  refine ⟨hrecords, hcomplete, ?_, ?_, fun name hname => ?_⟩
  · cases capture.complete <;> simp
  · cases capture.complete with
    | true => simp
    | false =>
      have hne : orReason capture.reason "producer-label capture was incomplete" ≠ "" :=
        orReason_ne_empty _ (by decide)
      simpa using hne
  · obtain ⟨hincomplete, hfirst⟩ := hreason name hname
    have hgiven := orReason_ne_empty (evidenceOf evidence).reason (failure_ne_empty name)
    simp only [hincomplete, hfirst, orReason_some hgiven]
    rfl

end Content

/-! ### The manifest of a JoinMarket run -/

/-- The evidence that `store_round_events` returns. -/
def storedEvidence (evidence : CoinjoinEmulator.ProducerLabelEvidence) : ProducerLabelEvidence where
  engine := evidence.engine
  complete := evidence.complete
  sources := evidence.sources
  reason := evidence.reason
  positiveRule := some evidence.positiveRule
  positiveCount := some evidence.positiveCount

/-- The manifest is complete just when nothing speaks against the labels and their file is there. -/
theorem complete_storedEvidence_iff (data : DataPath) (disk : Disk)
    (unlabelledTakers positiveTxids : List String) (records : List RoundEvent) :
    (producerLabelManifest data disk (some (storedEvidence (labelEvidence
        (incompleteReasons records unlabelledTakers) positiveTxids)))).complete = true ↔
      incompleteReasons records unlabelledTakers = [] ∧
        (sourceRecord data disk "joinmarket_round_events.json").isSome := by
  have hexact := exact_producerLabelManifest data disk (some (storedEvidence
    (labelEvidence (incompleteReasons records unlabelledTakers) positiveTxids)))
  rw [hexact.complete_iff]
  simp [evidenceOf, storedEvidence, labelEvidence]

/-! ### What a write leaves -/

section Write

variable {data : DataPath}

theorem manifestPath_ne_temporaryPath (data : DataPath) :
    data.manifestPath ≠ data.temporaryPath := by
  simp [DataPath.manifestPath, DataPath.temporaryPath]

/-- The pieces that were appended are there, and nothing else was changed. -/
theorem foldl_pieces (path : Path) (pieces : List Bytes) {disk : Disk} {content : Bytes}
    (h : disk path = some content) :
    (pieces.map (DiskStep.append path)).foldl DiskStep.apply disk =
      Function.update disk path (some (content ++ pieces.flatten)) := by
  induction pieces generalizing disk content with
  | nil =>
    rw [List.flatten_nil, List.append_nil, ← h, Function.update_eq_self]
    rfl
  | cons piece rest ih =>
    have happended : DiskStep.apply disk (.append path piece) path = some (content ++ piece) := by
      simp [DiskStep.apply, h]
    rw [List.map_cons, List.foldl_cons, ih happended]
    simp only [DiskStep.apply, Function.update_idem, List.flatten_cons, List.append_assoc]

/-- A write up to its last change only makes the temporary file. -/
theorem foldl_create (path : Path) (pieces : List Bytes) (disk : Disk) :
    (DiskStep.create path :: pieces.map (DiskStep.append path)).foldl DiskStep.apply disk =
      Function.update disk path (some pieces.flatten) := by
  have hcreated : DiskStep.apply disk (.create path) path = some [] := by simp [DiskStep.apply]
  rw [List.foldl_cons, foldl_pieces path pieces hcreated, List.nil_append]
  simp only [DiskStep.apply, Function.update_idem]

/-- What an attempt leaves, by whether it made its last change. -/
theorem apply_attempt (data : DataPath) (disk : Disk) (attempt : Attempt) :
    ((writeProducerLabelManifest data disk attempt.evidence).length ≤ attempt.made ∧
      attempt.apply data disk = Function.update (Function.update disk data.manifestPath
        (some (manifestText data (producerLabelManifest data disk attempt.evidence))))
        data.temporaryPath none) ∨
    (attempt.made < (writeProducerLabelManifest data disk attempt.evidence).length ∧
      ∃ content, attempt.apply data disk = Function.update disk data.temporaryPath content) := by
  unfold Attempt.apply writeProducerLabelManifest
  generalize hpieces :
    data.dump (producerLabelManifest data disk attempt.evidence) ++ [newline] = pieces
  have htext : pieces.flatten =
      manifestText data (producerLabelManifest data disk attempt.evidence) := by
    rw [← hpieces, List.flatten_append, List.flatten_singleton, manifestText]
  rw [← List.cons_append]
  by_cases hmade : (DiskStep.create data.temporaryPath ::
      pieces.map (DiskStep.append data.temporaryPath) ++
        [DiskStep.replace data.temporaryPath data.manifestPath]).length ≤ attempt.made
  · refine .inl ⟨hmade, ?_⟩
    rw [List.take_of_length_le hmade, List.foldl_append, foldl_create, htext]
    simp only [List.foldl_cons, List.foldl_nil, DiskStep.apply, Function.update_self]
    rw [Function.update_comm (manifestPath_ne_temporaryPath data).symm, Function.update_idem]
  · refine .inr ⟨Nat.lt_of_not_le hmade, ?_⟩
    rw [List.length_append, List.length_singleton] at hmade
    rw [List.take_append_of_le_length (by omega)]
    cases attempt.made with
    | zero => exact ⟨disk data.temporaryPath, (Function.update_eq_self _ _).symm⟩
    | succ made =>
      rw [List.take_succ_cons, ← List.map_take, foldl_create]
      exact ⟨_, rfl⟩

/-- Nothing but the manifest and its temporary file differs. -/
def SameFiles (data : DataPath) (disk disk' : Disk) : Prop :=
  ∀ path, path ≠ data.manifestPath → path ≠ data.temporaryPath → disk' path = disk path

theorem sameFiles_apply (disk : Disk) (attempt : Attempt) :
    SameFiles data disk (attempt.apply data disk) := by
  intro path hmanifest htemporary
  obtain ⟨-, happly⟩ | ⟨-, content, happly⟩ := apply_attempt data disk attempt
  · rw [happly, Function.update_of_ne htemporary, Function.update_of_ne hmanifest]
  · rw [happly, Function.update_of_ne htemporary]

/-- What writes leave, each of which may be cut off anywhere. -/
structure Left (data : DataPath) (disk : Disk) (attempts : List Attempt) (disk' : Disk) : Prop where
  others : SameFiles data disk disk'
  /-- The manifest is the one before all writes, or the whole of one that was written. -/
  manifest : disk' data.manifestPath = disk data.manifestPath ∨
    ∃ attempt ∈ attempts, ∃ before manifest, SameFiles data disk before ∧
      Exact data before (evidenceOf attempt.evidence) manifest ∧
      disk' data.manifestPath = some (manifestText data manifest)
  /-- A last write that was not cut off left its manifest, and no temporary file. -/
  last : ∀ earlier attempt, attempts = earlier ++ [attempt] →
    (writeProducerLabelManifest data (earlier.foldl (Attempt.apply data) disk)
        attempt.evidence).length ≤ attempt.made →
      disk' data.manifestPath = some (manifestText data (producerLabelManifest data
        (earlier.foldl (Attempt.apply data) disk) attempt.evidence)) ∧
      disk' data.temporaryPath = none

/-- Whenever and however often a write is cut off, the manifest is the one from before, or it is
whole and says exactly what was captured. -/
theorem writes_leave_manifest (data : DataPath) (disk : Disk) (attempts : List Attempt) :
    Left data disk attempts (attempts.foldl (Attempt.apply data) disk) := by
  induction attempts using List.reverseRecOn with
  | nil =>
    refine ⟨fun _ _ _ => rfl, .inl rfl, fun earlier attempt h => ?_⟩
    cases earlier <;> cases h
  | append_singleton attempts attempt ih =>
    rw [List.foldl_append, List.foldl_cons, List.foldl_nil]
    generalize hbefore : attempts.foldl (Attempt.apply data) disk = before at ih
    have hothers : SameFiles data disk (attempt.apply data before) := fun path hm ht =>
      (sameFiles_apply before attempt path hm ht).trans (ih.others path hm ht)
    refine ⟨hothers, ?_, fun earlier attempt' hlast hmade => ?_⟩
    · obtain ⟨-, happly⟩ | ⟨-, content, happly⟩ := apply_attempt data before attempt
      · refine .inr ⟨attempt, by simp, before, _, ih.others,
          exact_producerLabelManifest data before attempt.evidence, ?_⟩
        rw [happly, Function.update_of_ne (manifestPath_ne_temporaryPath data),
          Function.update_self]
      · rw [happly, Function.update_of_ne (manifestPath_ne_temporaryPath data)]
        obtain hsame | ⟨earlier, hearlier, hfound⟩ := ih.manifest
        · exact .inl hsame
        · exact .inr ⟨earlier, List.mem_append_left _ hearlier, hfound⟩
    · obtain ⟨rfl, rfl⟩ : attempts = earlier ∧ attempt = attempt' := by
        simpa using List.append_inj' hlast rfl
      rw [hbefore] at hmade ⊢
      obtain ⟨-, happly⟩ | ⟨hcut, -⟩ := apply_attempt data before attempt
      · rw [happly, Function.update_self,
          Function.update_of_ne (manifestPath_ne_temporaryPath data), Function.update_self]
        exact ⟨rfl, rfl⟩
      · exact absurd hmade (Nat.not_le_of_lt hcut)

end Write

end CoinjoinEmulator.Manifest
