import CoinjoinEmulator.Driver.Kubernetes

/-! The names, labels and selectors of the runs that share a namespace, and that a driver asks for
nothing but its own run's resources. -/

namespace CoinjoinEmulator.Driver

open ProofKit ProofKit.Session

/-- A driver that shares its namespace with other runs. -/
structure KubernetesDriver.InRun (driver : KubernetesDriver) (runId : String) : Prop where
  reuse : driver.reuseNamespace = true
  run : driver.runId = some runId
  valid : isRunId runId = true

/-- A name that ends with a run's suffix. -/
def ownsName (runId name : String) : Bool := ('-' :: runSuffix runId).isSuffixOf name.toList

@[simp] theorem length_runSuffix (runId : String) : (runSuffix runId).length = 16 := by
  simp [runSuffix, runSuffixLength]

/-- A name ends with one run suffix. -/
theorem runSuffix_eq_of_ownsName {runId runId' name : String} (h : ownsName runId name = true)
    (h' : ownsName runId' name = true) : runSuffix runId = runSuffix runId' := by
  have hs := List.isSuffixOf_iff_suffix.mp h
  have hs' := List.isSuffixOf_iff_suffix.mp h'
  have hsuffix := List.suffix_of_suffix_length_le hs hs' (by simp)
  have heq := hsuffix.eq_of_length (by simp)
  exact (List.cons.inj heq).2

theorem isRunId_ne_empty {runId : String} (h : isRunId runId = true) : runId ≠ "" := by
  rintro rfl
  revert h
  decide

theorem isRunIdChar_of_isRunId {runId : String} (h : isRunId runId = true) :
    ∀ c ∈ runId.toList, isRunIdChar c = true := by
  unfold isRunId at h
  simp only [Bool.and_eq_true, List.all_eq_true] at h
  exact h.1.1.2

/-- The name and the value of a term. -/
theorem selectorTerm_eq {key : List Char} (value : List Char) (h : ∀ c ∈ key, (c != '=') = true) :
    selectorTerm (key ++ '=' :: value) = (String.ofList key, String.ofList value) := by
  unfold selectorTerm
  rw [List.takeWhile_append_of_pos h, List.dropWhile_append_of_pos h]
  simp

section Names

variable {driver : KubernetesDriver} {runId : String} (hrun : driver.InRun runId)

include hrun

theorem truthy_runId : truthy driver.runId = some runId := by
  rw [hrun.run]
  simp [truthy, Option.filter, isRunId_ne_empty hrun.valid]

theorem resourceName_eq (name : String) :
    driver.resourceName name = String.ofList (name.toList.take 46 ++ '-' :: runSuffix runId) := by
  unfold KubernetesDriver.resourceName
  rw [truthy_runId hrun, hrun.reuse]
  rfl

theorem ownsName_resourceName (name : String) :
    ownsName runId (driver.resourceName name) = true := by
  rw [resourceName_eq hrun, ownsName, String.toList_ofList]
  exact List.isSuffixOf_iff_suffix.mpr ⟨name.toList.take 46, rfl⟩

/-- A resource name of a run is a DNS label by its length. -/
theorem length_resourceName_le (name : String) : (driver.resourceName name).length ≤ 63 := by
  rw [resourceName_eq hrun, String.length_ofList]
  simp only [List.length_append, List.length_take, List.length_cons, length_runSuffix]
  omega

/-- Two names of a run are one resource exactly when they agree on what the suffix leaves of
them. -/
theorem resourceName_inj_iff (name name' : String) :
    driver.resourceName name = driver.resourceName name' ↔
      name.toList.take 46 = name'.toList.take 46 := by
  rw [resourceName_eq hrun, resourceName_eq hrun, String.ofList_inj]
  exact List.append_left_inj _

theorem lookup_resourceLabels (name : String) :
    (driver.resourceLabels name).lookup runIdLabel = some runId := by
  unfold KubernetesDriver.resourceLabels
  rw [truthy_runId hrun]
  rfl

theorem cleanupSelector_eq :
    driver.cleanupSelector =
      managedByLabel ++ "=" ++ managedByValue ++ ("," ++ runIdLabel ++ "=" ++ runId) := by
  unfold KubernetesDriver.cleanupSelector
  rw [truthy_runId hrun]

/-- The API server reads the cleanup selector as the two terms that it was written from. -/
theorem selectorTerms_cleanupSelector :
    selectorTerms driver.cleanupSelector =
      [(managedByLabel, managedByValue), (runIdLabel, runId)] := by
  have hcomma : ',' ∉ runId.toList := fun h => by
    have := isRunIdChar_of_isRunId hrun.valid _ h
    revert this
    decide
  have htext : driver.cleanupSelector.toList = [','].intercalate
      [(managedByLabel ++ "=" ++ managedByValue).toList,
        (runIdLabel ++ "=").toList ++ runId.toList] := by
    rw [cleanupSelector_eq hrun]
    simp [List.intercalate, String.toList_append]
  have hsplit : driver.cleanupSelector.toList.splitOn ',' =
      [(managedByLabel ++ "=" ++ managedByValue).toList,
        (runIdLabel ++ "=").toList ++ runId.toList] := by
    rw [htext]
    refine List.splitOn_intercalate ',' ?_ (by simp)
    intro term hterm
    simp only [List.mem_cons, List.not_mem_nil, or_false] at hterm
    obtain rfl | rfl := hterm
    · decide
    · rw [List.mem_append, not_or]
      exact ⟨by decide, hcomma⟩
  have hmanaged : (managedByLabel ++ "=" ++ managedByValue).toList =
      managedByLabel.toList ++ '=' :: managedByValue.toList := by decide
  have hlabel : (runIdLabel ++ "=").toList ++ runId.toList =
      runIdLabel.toList ++ '=' :: runId.toList := by
    rw [String.toList_append, List.append_assoc]
    rfl
  unfold selectorTerms
  rw [hsplit, hmanaged, hlabel]
  show [selectorTerm _, selectorTerm _] = _
  rw [selectorTerm_eq _ (List.all_eq_true.mp (by decide)),
    selectorTerm_eq _ (List.all_eq_true.mp (by decide))]
  simp only [String.ofList_toList]

/-- What the cleanup selector selects is labelled with the run. -/
theorem lookup_of_selects {labels : List (String × String)}
    (h : selects driver.cleanupSelector labels = true) :
    labels.lookup runIdLabel = some runId := by
  unfold selects at h
  rw [selectorTerms_cleanupSelector hrun] at h
  simp only [List.all_cons, List.all_nil, Bool.and_true, Bool.and_eq_true, beq_iff_eq] at h
  exact h.2

/-- A cleanup selects what its driver creates. -/
theorem selects_resourceLabels (name : String) :
    selects driver.cleanupSelector (driver.resourceLabels name) = true := by
  have hlookup := lookup_resourceLabels hrun name
  unfold selects
  rw [selectorTerms_cleanupSelector hrun]
  simp only [List.all_cons, List.all_nil, Bool.and_true, hlookup, beq_self_eq_true]
  rfl

end Names

end CoinjoinEmulator.Driver
