import AnnotationGraft.Proofs.Command.Running
import AnnotationGraft.Proofs.FileSystem.Operations
import AnnotationGraft.Proofs.Graft.Course
import AnnotationGraft.Proofs.Graft.Recipient
import AnnotationGraft.Proofs.Graft.Stopping

/-!
# What donors can reach

The recipient of a donor is told by the donor's bytes, and a batch reads and stores what it is told.
`ClassName.StaysBelow` says of a class that its path leads down from any base: no component of it is
empty, or stands for a directory that it follows or for the one above.  All that a donor can name is
such a class, be it a name or an array type (`ClassName.staysBelow_of_isClassName`).

`Settings.Confines` says what follows for attempts, batches and class trees.  That a class is not
asked for is said by a comparison: a source that gives something else for it, or a file system that
does something else with its file, makes no difference.
-/

namespace AnnotationGraft

/-- The classes below a directory of a file tree in memory. -/
abbrev classTree (root : String) : ClassTree (StateM FileTree) := ⟨FileTree.fileSystem, root⟩

/-- The path of a class leads down from any base. -/
structure ClassName.StaysBelow (name : ClassName) : Prop where
  components : ∀ part ∈ Path.components name.filePath, part ≠ "" ∧ part ≠ "." ∧ part ≠ ".."
  relative : name.filePath.startsWith "/" = false
  below : ∀ (tree : FileTree) (root : String), tree.placeOf ((classTree root).pathOf name)
    = tree.placeOf root ++ Path.components name.filePath

theorem Path.IsName.ne {component : String} (h : IsName component) :
    component ≠ "" ∧ component ≠ "." ∧ component ≠ ".." := by
  obtain ⟨hhere, habove⟩ := h
  refine ⟨?_, ?_, habove⟩
  · rintro rfl
    exact absurd hhere (by decide)
  · rintro rfl
    exact absurd hhere (by decide)

theorem ClassName.staysBelow_of_isClassName {name : ClassName}
    (h : Descriptor.isClassName name.internal = true) : name.StaysBelow where
  components _ hpart := ((hasNames_filePath h).isName hpart).ne
  relative := (hasNames_filePath h).startsWith_slash
  below _ root := FileTree.placeOf_join_filePath h root

/-! ## Computations that ask for some classes only -/

section Monads

variable {m : Type → Type} [Monad m]

theorem mapM_congr {α β : Type} {f f' : α → m β} {as : List α} (h : ∀ a ∈ as, f' a = f a) :
    as.mapM f' = as.mapM f := by
  rw [List.mapM, List.mapM]
  -- `mapM` collects its results in reverse, after what it has collected before.
  generalize ([] : List β) = collected
  induction as generalizing collected with
  | nil => rfl
  | cons a as ih =>
    rw [List.forall_mem_cons] at h
    rw [List.mapM.loop, List.mapM.loop, h.1]
    exact congrArg _ (funext fun b => ih h.2 (b :: collected))

/-- What is handed on depends on what becomes of the classes that reports have written. -/
theorem emit_congr {accept accept' : ClassName → Bytes → m (Except (List String) Unit)}
    {reports : List AttemptReport}
    (h : ∀ report ∈ reports, ∀ name bytes, report.encoded? = some (name, bytes) →
      accept' name = accept name) : emit accept' reports = emit accept reports := by
  have houtputs : ∀ output ∈ reports.filterMap AttemptReport.encoded?,
      accept' output.1 = accept output.1 := by
    intro output houtput
    obtain ⟨report, hreport, hencoded⟩ := List.mem_filterMap.1 houtput
    exact h report hreport output.1 output.2 hencoded
  rw [emit, emit]
  generalize reports.filterMap AttemptReport.encoded? = outputs at houtputs
  generalize 0 = count
  induction outputs generalizing count with
  | nil => rfl
  | cons output outputs ih =>
    rw [List.forall_mem_cons] at houtputs
    rw [emitFrom, emitFrom, houtputs.1]
    refine congrArg _ (funext fun result => ?_)
    cases result with
    | ok _ => exact ih houtputs.2 (count + 1)
    | error causes => rfl

/-- The recipients of donors are loaded from their files and no others. -/
theorem ClassTree.recipients_congr {settings : Settings} {tree tree' : ClassTree m}
    {donors : List Donor} (h : ∀ donor ∈ donors, ∀ name,
      settings.recipientOfBytes? donor.bytes = some name → tree'.load name = tree.load name) :
    tree'.recipients settings donors = tree.recipients settings donors := by
  rw [recipients, recipients]
  refine congrArg (· >>= _) (mapM_congr fun name hname => ?_)
  obtain ⟨donor, hdonor, hrecipient⟩ := List.mem_filterMap.1 (List.mem_eraseDups.1 hname)
  rw [h donor hdonor name hrecipient]

end Monads

/-! ## What settings let donors reach -/

namespace Settings

variable {settings : Settings} {name : ClassName}

theorem staysBelow_of_recipientOf {donor : ClassFile} (h : settings.recipientOf donor = .ok name) :
    name.StaysBelow :=
  ClassName.staysBelow_of_isClassName (names_iff.1 (recipientOf_eq_ok_iff.1 h)).2

theorem staysBelow_of_recipientOfBytes? {donorBytes : Bytes}
    (h : settings.recipientOfBytes? donorBytes = some name) : name.StaysBelow := by
  obtain ⟨donor, -, hnames⟩ := recipientOfBytes?_eq_some_iff.1 h
  exact staysBelow_of_recipientOf (recipientOf_eq_ok_iff.2 hnames)

/-- What loading does with a class that does not stay below makes no difference to an attempt. -/
theorem attemptWith_congr {m : Type → Type} [Monad m] (label : String) (donorBytes : Bytes)
    {load load' : ClassName → m Loaded}
    (h : ∀ name : ClassName, name.StaysBelow → load' name = load name) :
    settings.attemptWith label donorBytes load' = settings.attemptWith label donorBytes load := by
  unfold attemptWith prepare
  cases ClassFile.decode donorBytes with
  | error e => rfl
  | ok donor =>
    simp only
    cases hrequest : settings.request donor with
    | error reason => rfl
    | ok request =>
      have hbelow := staysBelow_of_recipientOf (request_eq_ok_iff.1 hrequest).1
      exact congrArg (· >>= _) (h _ hbelow)

/-- The reports of a batch name classes that stay below. -/
theorem staysBelow_of_mem_runBatch {source : ClassName → Loaded} {donors : List Donor}
    {report : AttemptReport} (hreport : report ∈ settings.runBatch source donors)
    (hname : report.recipient = some name ∨ ∃ bytes, report.encoded? = some (name, bytes)) :
    name.StaysBelow := by
  rcases hname with hrecipient | ⟨bytes, hencoded⟩
  · rw [runBatch_eq_chain] at hreport
    obtain ⟨i, hi⟩ := List.mem_iff_getElem?.1 hreport
    obtain ⟨donor, load, -, rfl⟩ := exists_attempt_of_chain hi
    rw [recipient_attempt] at hrecipient
    exact staysBelow_of_recipientOfBytes? hrecipient
  · exact ClassName.staysBelow_of_isClassName (isClassName_of_mem_runBatch hreport hencoded)

/-- Whatever its donors are, a batch asks for classes below a base and for no others, and has no
others stored. -/
structure Confines (settings : Settings) : Prop where
  named : ∀ donor name, settings.recipientOf donor = .ok name → name.StaysBelow
  /-- An attempt loads no other class, whatever loading does. -/
  attempted : ∀ {m : Type → Type} [Monad m] label donorBytes (load load' : ClassName → m Loaded),
    (∀ name : ClassName, name.StaysBelow → load' name = load name) →
    settings.attemptWith label donorBytes load' = settings.attemptWith label donorBytes load
  /-- A batch asks its source for no other class, be it taken apart or not, or stopped. -/
  asked : ∀ donors source source', (∀ name : ClassName, name.StaysBelow →
      source' name = source name) →
    settings.runBatch source' donors = settings.runBatch source donors
      ∧ ∀ stop, settings.runBatchUntil source' stop donors
        = settings.runBatchUntil source stop donors
  /-- Of a class tree on any file system no other class is read as a recipient. -/
  loaded : ∀ {m : Type → Type} [Monad m] (tree : ClassTree m) (fileSystem : FileSystem m) donors,
    (∀ name : ClassName, name.StaysBelow →
      fileSystem.read (tree.pathOf name) = tree.fileSystem.read (tree.pathOf name)) →
    ClassTree.recipients ⟨fileSystem, tree.root⟩ settings donors = tree.recipients settings donors
  /-- The reports of a batch name no other class, as a recipient or as one that was written. -/
  reported : ∀ donors source, ∀ report ∈ settings.runBatch source donors, ∀ name : ClassName,
    (report.recipient = some name ∨ ∃ bytes, report.encoded? = some (name, bytes)) →
    name.StaysBelow
  /-- No other class is handed on to be stored. -/
  handed : ∀ {m : Type → Type} [Monad m]
      (accept accept' : ClassName → Bytes → m (Except (List String) Unit)) source donors,
    (∀ name : ClassName, name.StaysBelow → accept' name = accept name) →
    emit accept' (settings.runBatch source donors) = emit accept (settings.runBatch source donors)
      ∧ ∀ stop, emit accept' (settings.runBatchUntil source stop donors)
        = emit accept (settings.runBatchUntil source stop donors)

/-- No donor can make a batch read or store a class outside of the directory of its classes. -/
theorem confines (settings : Settings) : settings.Confines where
  named donor name h := staysBelow_of_recipientOf h
  attempted label donorBytes load load' h := attemptWith_congr label donorBytes h
  asked donors source source' h := by
    have hagree : ∀ donor ∈ donors, ∀ name,
        settings.recipientOfBytes? donor.bytes = some name → source' name = source name :=
      fun donor _ name hname => h name (staysBelow_of_recipientOfBytes? hname)
    refine ⟨?_, fun stop => runChain_congr hagree []⟩
    rw [runBatch_eq_chain, runBatch_eq_chain, chain_congr hagree]
  loaded tree fileSystem donors h := by
    refine ClassTree.recipients_congr fun donor _ name hname => ?_
    have hread := h name (staysBelow_of_recipientOfBytes? hname)
    rw [ClassTree.load, ClassTree.load]
    exact congrArg (· >>= _) hread
  reported donors source report hreport name hname := staysBelow_of_mem_runBatch hreport hname
  handed accept accept' source donors h := by
    have hbelow : ∀ report ∈ settings.runBatch source donors, ∀ name bytes,
        report.encoded? = some (name, bytes) → accept' name = accept name :=
      fun report hreport name bytes hencoded =>
        h name (staysBelow_of_mem_runBatch hreport (.inr ⟨bytes, hencoded⟩))
    refine ⟨emit_congr hbelow, fun stop => emit_congr fun report hreport => ?_⟩
    have hfront : IsUpToFirst stop (settings.runBatchUntil source stop donors)
        (settings.chain source donors) := runChain_isUpToFirst [] donors
    rw [runBatch_eq_chain] at hbelow
    exact hbelow report (hfront.subset hreport)

/-- The array `[I` stays below any base.  What a source gives for `../R` makes no difference. -/
theorem confines_shortMarkers :
    shortMarkers.recipientOf shortMarkers.arrayLiteral = .ok ⟨"[I"⟩
      ∧ (⟨"[I"⟩ : ClassName).StaysBelow
      ∧ shortMarkers.runBatch (fun name => if name = ⟨"../R"⟩ then .ok [] else twoClasses name)
        sharedRecipient = shortMarkers.runBatch twoClasses sharedRecipient := by
  have hconfines := confines shortMarkers
  have harray : shortMarkers.recipientOf shortMarkers.arrayLiteral = .ok ⟨"[I"⟩ :=
    (hasLiteral_arrayLiteral shortMarkers).recipientOf_of_isFieldType rfl (by decide +kernel)
  refine ⟨harray, hconfines.named _ _ harray, (hconfines.asked _ _ _ fun name hname => ?_).1⟩
  have hother : name ≠ ⟨"../R"⟩ := by
    rintro rfl
    exact (hname.components ".." (by decide +kernel)).2.2 rfl
  exact if_neg hother

end Settings

end AnnotationGraft
