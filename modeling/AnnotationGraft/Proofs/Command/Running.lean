import AnnotationGraft.Proofs.Command.Reading
import AnnotationGraft.Proofs.Command.Storing
import AnnotationGraft.Proofs.Graft.Transplant

/-!
# The steps of a run of `graft`

On a lawful file system a run of `graft` makes the attempts on the class tree as it was in the
beginning, whatever the options, and then stores the classes that they have written, unless it is a
dry run: `IsLawful.run_runGraft`.  Without attempts it fails, and nothing changes
(`IsLawful.run_runGraft_of_error`).

What the attempts have written, they have written of classes that could be read.  So no two of these
classes have one file in the class tree, even where there are links
(`IsLawful.eq_of_placeOf?_root`).
-/

namespace AnnotationGraft

variable {σ π : Type}

/-! ## The steps of a run -/

theorem Settings.check_of_validate {settings : Settings} (h : settings.validate = .ok ()) :
    settings.check = .ok () := by
  rw [check, h]

theorem run_storeAll {fileSystem : FileSystem (StateM σ)} {target : String}
    {reports : List AttemptReport} {before after : σ} {result : Except EmissionError Nat}
    (h : (emit (ClassTree.store ⟨fileSystem, target⟩) reports).run before = (result, after)) :
    (ClassTree.storeAll ⟨fileSystem, target⟩ reports).run.run before
      = (result.mapError EmissionError.chain, after) := by
  refine (run_bind_eq h).trans ?_
  cases result <;> rfl

namespace FileSystem.IsLawful

variable {fileSystem : FileSystem (StateM σ)} {view : FileView σ π}
  (laws : fileSystem.IsLawful view) {formats : Formats} {settings : Settings}
  {arguments : GraftArguments} {before : σ}

include laws

theorem run_runGraft_of_missing {e : FileError}
    (hmissing : ((fileSystem.canonical arguments.directory).run before).1 = .error e) :
    (runGraft formats fileSystem settings arguments).run.run before
      = (.error ["Invalid classes directory " ++ arguments.directory, e.message], before) := by
  have hcanonical := laws.canonical arguments.directory before
  rw [hmissing] at hcanonical
  rw [runGraft, run_bind_of_ok (run_liftM_state hcanonical)]
  exact run_bind_of_error (run_liftM_except _)

/-- What a run comes to: the attempts on the class tree, whatever the options, and then the classes
stored that they have written, unless it is a dry run. -/
theorem run_runGraft {root : String} (hvalid : settings.validate = .ok ())
    (hroot : ((fileSystem.canonical arguments.directory).run before).1 = .ok root) :
    (runGraft formats fileSystem settings arguments).run.run before =
      match ClassTree.attemptsIn ⟨fileSystem, root⟩ before settings with
      | .error causes => (.error causes, before)
      | .ok reports =>
        if arguments.dryRun then
          (.ok (.reported (formats.report arguments reports 0)
            (reports.any AttemptReport.isFailed)), before)
        else
          match (emit (ClassTree.store ⟨fileSystem, arguments.out.getD root⟩) reports).run before
            with
          | (.ok written, after) =>
            (.ok (.reported (formats.report arguments reports written)
              (reports.any AttemptReport.isFailed)), after)
          | (.error e, after) => (.error e.chain, after) := by
  have hcanonical := laws.canonical arguments.directory before
  rw [hroot] at hcanonical
  rw [runGraft, run_bind_of_ok (run_liftM_state hcanonical),
    run_bind_of_ok (run_liftM_except (describeFailure
      ("Invalid classes directory " ++ arguments.directory) (.ok root)))]
  -- Sequential or not, the settings differ in `parallel` at most.
  obtain ⟨b, hb⟩ : ∃ b, (if arguments.sequential then { settings with parallel := false }
      else settings) = { settings with parallel := b } := by
    split
    · exact ⟨false, rfl⟩
    · exact ⟨settings.parallel, rfl⟩
  have hcheck : ({ settings with parallel := b } : Settings).check = .ok () :=
    Settings.check_of_validate hvalid
  rw [hb]
  dsimp only
  rw [hcheck, run_bind_of_ok (run_liftM_except (.ok ())), ClassTree.attemptsIn]
  have hdonors := laws.run_donors root before
  cases hread : ClassTree.donorsIn ⟨fileSystem, root⟩ before with
  | error causes =>
    rw [hread] at hdonors
    rw [run_bind_of_error hdonors]
    rfl
  | ok donors =>
    rw [hread] at hdonors
    obtain ⟨source, hsource, hagrees⟩ :=
      laws.exists_run_recipients { settings with parallel := b } root donors before
    rw [run_bind_of_ok hdonors, run_bind_of_ok (run_liftM_state hsource)]
    dsimp only [Except.map]
    -- The recipients were loaded beforehand, but only those that the donors name.
    rw [settings.runBatch_congr b hagrees]
    cases arguments.dryRun with
    | true => rfl
    | false =>
      rw [if_neg Bool.false_ne_true, if_neg Bool.false_ne_true]
      rcases hemit : (emit (ClassTree.store ⟨fileSystem, arguments.out.getD root⟩)
        (settings.runBatch (ClassTree.sourceIn ⟨fileSystem, root⟩ before) donors)).run before
        with ⟨result, after⟩
      have hstore := run_storeAll hemit
      cases result with
      | ok written => rw [run_bind_of_ok hstore]; rfl
      | error e => rw [run_bind_of_error hstore]

/-- Where there are no attempts, nothing changes. -/
theorem run_runGraft_of_error {causes : List String} (hvalid : settings.validate = .ok ())
    (hcauses : fileSystem.attempts settings arguments.directory before = .error causes) :
    (runGraft formats fileSystem settings arguments).run.run before = (.error causes, before) := by
  cases hroot : ((fileSystem.canonical arguments.directory).run before).1 with
  | error e =>
    rw [laws.run_runGraft_of_missing hroot]
    rw [attempts, hroot] at hcauses
    cases hcauses
    rfl
  | ok root =>
    rw [attempts_eq_of_canonical hroot] at hcauses
    rw [laws.run_runGraft hvalid hroot, hcauses]

/-- A command line that asks for grafting prints the report of the run, or the reason of its
failure. -/
theorem run_runCommand_graft {commandLine : List String} {config : Option String}
    (hcommand : formats.commandLine commandLine = .ok (.run config (.graft arguments)))
    (hsettings : ((loadSettings formats fileSystem config).run.run before).1 = .ok settings) :
    (runCommandWith formats fileSystem commandLine).run before =
      match (runGraft formats fileSystem settings arguments).run.run before with
      | (.ok ending, after) => (ending, after)
      | (.error causes, after) => (.failed causes, after) := by
  have hloaded := laws.onlyReads_loadSettings formats config before
  rw [hsettings] at hloaded
  have hsubcommand : (runSubcommand formats fileSystem config (.graft arguments)).run.run before
      = (runGraft formats fileSystem settings arguments).run.run before := by
    rw [runSubcommand, run_bind_of_ok hloaded]
  rw [runCommandWith, hcommand]
  rcases hrun : (runGraft formats fileSystem settings arguments).run.run before
    with ⟨result, after⟩
  rw [hrun] at hsubcommand
  dsimp only
  rw [run_bind_eq hsubcommand]
  cases result <;> rfl

end FileSystem.IsLawful

/-! ## What is written -/

namespace Settings

variable {settings : Settings} {name : ClassName} {bytes : Bytes}

/-- The recipient of a donor is the class that its marker names. -/
theorem recipientOfBytes?_eq_some_iff {donorBytes : Bytes} :
    settings.recipientOfBytes? donorBytes = some name ↔
      ∃ donor, ClassFile.decode donorBytes = .ok donor ∧ settings.Names donor name := by
  rw [recipientOfBytes?]
  cases ClassFile.decode donorBytes with
  | error e => exact iff_of_false nofun fun ⟨_, h, _⟩ => nomatch h
  | ok donor =>
    simp only [Except.ok.injEq, exists_eq_left', ← recipientOf_eq_ok_iff]
    cases settings.recipientOf donor <;> simp [Except.toOption]

/-- What is written is written of a class with a proper name. -/
theorem isClassName_of_mem_runBatch {source : ClassName → Loaded} {donors : List Donor}
    {report : AttemptReport} (hreport : report ∈ settings.runBatch source donors)
    (hencoded : report.encoded? = some (name, bytes)) :
    Descriptor.isClassName name.internal = true := by
  rw [runBatch_eq_chain] at hreport
  obtain ⟨i, hi⟩ := List.mem_iff_getElem?.1 hreport
  obtain ⟨donor, load, -, rfl⟩ := exists_attempt_of_chain hi
  have hwritten : (settings.attempt donor.label donor.bytes load).writtenOf? name = some bytes := by
    rw [AttemptReport.writtenOf?, hencoded]
    exact if_pos rfl
  have hrecipient := recipientOfBytes?_of_writtenOf? hwritten
  obtain ⟨-, -, marker, -, -, hname⟩ := recipientOfBytes?_eq_some_iff.1 hrecipient
  exact hname

/-- What is written was written of a class that the source gives under its name. -/
theorem exists_source_of_lastWritten {source : ClassName → Loaded} {donors : List Donor}
    (h : lastWritten (settings.chain source donors) name = some bytes) :
    ∃ sourceBytes recipient, source name = .ok sourceBytes
      ∧ ClassFile.decode sourceBytes = .ok recipient ∧ recipient.name = name := by
  -- The first attempt that writes the class is the one that loads it from the source.
  induction donors using List.reverseRecOn generalizing bytes with
  | nil => cases h
  | append_singleton donors donor ih =>
    cases hbefore : lastWritten (settings.chain source donors) name with
    | some earlier => exact ih hbefore
    | none =>
      rw [chain_concat, lastWritten_concat, hbefore, Option.or_none] at h
      obtain ⟨fusion, houtcome⟩ := AttemptReport.writtenOf?_eq_some_iff.1 h
      obtain ⟨donorClass, recipientBytes, recipient, -, hload, hrecipient, hgrafts⟩ :=
        outcome_attempt_eq_encoded_iff.1 houtcome
      rw [loadAfter, hbefore] at hload
      exact ⟨recipientBytes, recipient, hload, hrecipient, hgrafts.name⟩

end Settings

/-- What loading gives is the content of the file of the class. -/
theorem ClassTree.sourceIn_eq_ok_iff {fileSystem : FileSystem (StateM σ)} {root : String}
    {state : σ} {name : ClassName} {bytes : Bytes} :
    ClassTree.sourceIn ⟨fileSystem, root⟩ state name = .ok bytes
      ↔ ((fileSystem.read (Path.join root name.filePath)).run state).1 = .ok bytes := by
  rcases hread : (fileSystem.read (Path.join root name.filePath)).run state with ⟨result, after⟩
  rw [sourceIn, load, pathOf, run_bind_eq hread]
  cases result with
  | error e => constructor <;> intro h <;> cases h
  | ok content => constructor <;> intro h <;> cases h <;> rfl

namespace FileSystem.IsLawful

variable {fileSystem : FileSystem (StateM σ)} {view : FileView σ π}
  (laws : fileSystem.IsLawful view) {settings : Settings} {root : String} {donors : List Donor}
  {before after : σ}

include laws

/-- Two classes of a class tree that a batch has written never have one file in it: each was read
from its file, and a class file has one class. -/
theorem eq_of_placeOf?_root {name name' : ClassName} {bytes bytes' : Bytes} {place : π}
    (hwritten : lastWritten (settings.runBatch
      (ClassTree.sourceIn ⟨fileSystem, root⟩ before) donors) name = some bytes)
    (hwritten' : lastWritten (settings.runBatch
      (ClassTree.sourceIn ⟨fileSystem, root⟩ before) donors) name' = some bytes')
    (hkeeps : view.KeepsPaths before after)
    (hplace : view.placeOf? after (Path.join root name.filePath) = some place)
    (hplace' : view.placeOf? after (Path.join root name'.filePath) = some place) :
    name = name' := by
  rw [Settings.runBatch_eq_chain] at hwritten hwritten'
  have hcontent : ∀ {name bytes}, lastWritten (settings.chain
        (ClassTree.sourceIn ⟨fileSystem, root⟩ before) donors) name = some bytes →
      view.placeOf? after (Path.join root name.filePath) = some place →
      ∃ content recipient, view.contentAt? before place = some content
        ∧ ClassFile.decode content = .ok recipient ∧ recipient.name = name := by
    intro name bytes hwritten hplace
    obtain ⟨content, recipient, hsource, hrecipient, hname⟩ :=
      Settings.exists_source_of_lastWritten hwritten
    obtain ⟨place', hplace', hcontent⟩ :=
      laws.content_of_read _ _ _ (ClassTree.sourceIn_eq_ok_iff.1 hsource)
    obtain rfl : place' = place := Option.some.inj ((hkeeps _ _ hplace').symm.trans hplace)
    exact ⟨content, recipient, hcontent, hrecipient, hname⟩
  obtain ⟨content, recipient, hbefore, hrecipient, rfl⟩ := hcontent hwritten hplace
  obtain ⟨content', recipient', hbefore', hrecipient', rfl⟩ := hcontent hwritten' hplace'
  obtain rfl := Option.some.inj (hbefore.symm.trans hbefore')
  rw [Except.ok.inj (hrecipient.symm.trans hrecipient')]

end FileSystem.IsLawful

end AnnotationGraft
