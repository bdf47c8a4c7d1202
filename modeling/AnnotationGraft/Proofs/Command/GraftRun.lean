import AnnotationGraft.Proofs.Command.Reports
import AnnotationGraft.Proofs.Command.Running
import AnnotationGraft.Proofs.FileSystem.Operations

/-!
# A run of `graft`

What a run of `graft` comes to, on any lawful file system and with any formats: `runCommand_graft`
says what it prints, which files are other ones afterwards, and with which code it exits.
`FileView.IsGraftRun` is a run that has a report.  A run without attempts, because the directory or
one of its class files cannot be read, exits with 1 as well.

Two things that one may expect do not hold.  The exit code is not told by the attempts alone, as
there need not be any.  And where the output goes elsewhere, links there may lead two classes to one
file, so that what was written of one is lost.  In place this never happens
(`FileView.IsGraftRun.inPlace`), nor where there are no links (`FileTree.holdsLast_of_isGraftRun`).
-/

namespace AnnotationGraft

variable {σ π : Type}

/-! ## The whole command -/

theorem AttemptReport.isFailed_iff {report : AttemptReport} :
    report.isFailed = true ↔ ∃ e, report.outcome = .failed e := by
  unfold isFailed
  cases report.outcome <;> simp

theorem Ending.code_reported_eq_one_iff {output : String} {reports : List AttemptReport} :
    (Ending.reported output (reports.any AttemptReport.isFailed)).code = 1
      ↔ ∃ report ∈ reports, ∃ e, report.outcome = .failed e := by
  simp [code, AttemptReport.isFailed_iff]

/-- Each class that reports have written is in its file below a directory, as it was written
last. -/
def FileView.HoldsLast (view : FileView σ π) (state : σ) (target : String)
    (reports : List AttemptReport) : Prop :=
  ∀ name bytes, lastWritten reports name = some bytes →
    ∃ place, view.placeOf? state (Path.join target name.filePath) = some place
      ∧ view.contentAt? state place = some bytes

/-- A run of `graft` has reported attempts on the class tree at a root, and has stored what they
have written, unless it was a dry run. -/
structure FileView.IsGraftRun [DecidableEq π] (view : FileView σ π) (formats : Formats)
    (arguments : GraftArguments) (root : String) (reports : List AttemptReport) (before : σ)
    (ending : Ending) (after : σ) : Prop where
  succeeds : ending.failure? = none
  /-- A dry run changes nothing, and tells that nothing was written. -/
  dryRun : arguments.dryRun = true →
    after = before ∧ formats.Shows arguments reports 0 ending.output
  /-- Any other run tells how many attempts have succeeded. -/
  counts : arguments.dryRun = false → formats.Shows arguments reports
    (reports.filterMap AttemptReport.encoded?).length ending.output
  /-- It stores what was written below the directory for the output, or else in place. -/
  stores : arguments.dryRun = false →
    view.StoresLast before (arguments.out.getD root) reports after
  /-- In place, no two classes that were written have one file. -/
  inPlace : arguments.dryRun = false → arguments.out = none → view.HoldsLast after root reports

/-- The command line asks for grafting with settings that can be used, and the file system stores
what it is asked to. -/
structure FileSystem.IsGraftCommand (fileSystem : FileSystem (StateM σ)) (formats : Formats)
    (commandLine : List String) (arguments : GraftArguments) (settings : Settings) (before : σ) :
    Prop where
  asks : ∃ config, formats.commandLine commandLine = .ok (.run config (.graft arguments))
    ∧ ((loadSettings formats fileSystem config).run.run before).1 = .ok settings
  valid : settings.validate = .ok ()
  stores : arguments.dryRun = false → ∀ root reports,
    ((fileSystem.canonical arguments.directory).run before).1 = .ok root →
    fileSystem.attempts settings arguments.directory before = .ok reports →
    fileSystem.StoresEvery before (arguments.out.getD root) reports

section Command

variable {fileSystem : FileSystem (StateM σ)} {view : FileView σ π}
  (laws : fileSystem.IsLawful view) {formats : Formats} {commandLine : List String}
  {arguments : GraftArguments} {settings : Settings} {before : σ}
  (hcommand : fileSystem.IsGraftCommand formats commandLine arguments settings before)

include laws hcommand

/-- Where the directory or one of its class files cannot be read there are no attempts, and the run
fails. -/
theorem runCommand_graft_of_unreadable {causes : List String}
    (hcauses : fileSystem.attempts settings arguments.directory before = .error causes) :
    (runCommandWith formats fileSystem commandLine).run before = (.failed causes, before) := by
  obtain ⟨config, hasks, hsettings⟩ := hcommand.asks
  rw [laws.run_runCommand_graft hasks hsettings,
    laws.run_runGraft_of_error hcommand.valid hcauses]

/-- Where there are attempts, they are reported, and what they have written is stored. -/
theorem exists_isGraftRun [DecidableEq π] {root : String} {reports : List AttemptReport}
    (hroot : ((fileSystem.canonical arguments.directory).run before).1 = .ok root)
    (hreports : fileSystem.attempts settings arguments.directory before = .ok reports) :
    ∃ ending after, (runCommandWith formats fileSystem commandLine).run before = (ending, after)
      ∧ (ending.code = 1 ↔ ∃ report ∈ reports, ∃ e, report.outcome = .failed e)
      ∧ view.IsGraftRun formats arguments root reports before ending after := by
  obtain ⟨config, hasks, hsettings⟩ := hcommand.asks
  have hrun := laws.run_runCommand_graft hasks hsettings
  have hattempts := hreports
  rw [FileSystem.attempts_eq_of_canonical hroot] at hattempts
  rw [laws.run_runGraft hcommand.valid hroot, hattempts] at hrun
  dsimp only at hrun
  obtain ⟨donors, -, hbatch⟩ := ClassTree.attemptsIn_eq_ok_iff.1 hattempts
  have hshown : ∀ written,
      formats.Shows arguments reports written (formats.report arguments reports written) :=
    hbatch ▸ formats.shows_report arguments settings _ donors
  cases hdry : arguments.dryRun with
  | true =>
    have hkeeps : arguments.dryRun ≠ false := ne_of_eq_of_ne hdry nofun
    rw [hdry] at hrun
    exact ⟨_, before, hrun, Ending.code_reported_eq_one_iff, rfl, fun _ => ⟨rfl, hshown 0⟩,
      fun h => absurd h hkeeps, fun h => absurd h hkeeps, fun h => absurd h hkeeps⟩
  | false =>
    have hstores : arguments.dryRun ≠ true := ne_of_eq_of_ne hdry nofun
    rw [hdry] at hrun
    rcases hemit : (emit (ClassTree.store ⟨fileSystem, arguments.out.getD root⟩) reports).run before
      with ⟨result, after⟩
    cases result with
    | error e =>
      exact absurd (congrArg Prod.fst hemit) (hcommand.stores hdry root reports hroot hreports e)
    | ok written =>
      rw [hemit] at hrun
      obtain ⟨hcount, hleft⟩ := laws.storesLast_of_emit hemit
      refine ⟨_, after, hrun, Ending.code_reported_eq_one_iff, rfl, fun h => absurd h hstores,
        fun _ => ?_, fun _ => hleft, fun _ hout name bytes hlast => ?_⟩
      · rw [List.length_filterMap_eq_countP]
        exact hcount ▸ hshown written
      · rw [hout] at hleft
        obtain ⟨place, hplace⟩ := hleft.reached name bytes hlast
        refine ⟨place, hplace, hleft.written name bytes place hlast hplace fun other hother => ?_⟩
        obtain ⟨otherBytes, hother⟩ := Option.isSome_iff_exists.1 hother
        rw [← hbatch] at hlast hother
        exact fun hsame => laws.eq_of_placeOf?_root hother hlast hleft.paths hsame hplace

/-- A run of `graft` with valid settings reports the attempts on the class tree as it was in the
beginning, whichever options are given.  Unless it is a dry run, which changes nothing, it leaves in
the files of the classes below the directory for the output, or else below the class tree, what was
written last of them, and changes no other file.  It exits with 1 when one of the attempts has
failed, and also when there are none because the directory or one of its class files cannot be read;
then it prints the reason only, and changes nothing. -/
theorem runCommand_graft [DecidableEq π] :
    ∃ ending after, (runCommandWith formats fileSystem commandLine).run before = (ending, after)
      ∧ (ending.code = 1 ↔ fileSystem.IsUnreadable arguments.directory before
        ∨ ∃ reports, fileSystem.attempts settings arguments.directory before = .ok reports
          ∧ ∃ report ∈ reports, ∃ e, report.outcome = .failed e)
      ∧ (∀ causes, fileSystem.attempts settings arguments.directory before = .error causes →
        ending.output = "" ∧ ending.failure? = some (failureText causes) ∧ after = before)
      ∧ ∀ root reports, ((fileSystem.canonical arguments.directory).run before).1 = .ok root →
        fileSystem.attempts settings arguments.directory before = .ok reports →
        view.IsGraftRun formats arguments root reports before ending after := by
  have hunreadable := laws.exists_attempts_eq_error_iff settings arguments.directory before
  cases hattempts : fileSystem.attempts settings arguments.directory before with
  | error causes =>
    rw [hattempts] at hunreadable
    refine ⟨_, before, runCommand_graft_of_unreadable laws hcommand hattempts,
      iff_of_true rfl (.inl (hunreadable.1 ⟨causes, rfl⟩)), ?_, nofun⟩
    intro causes' hsame
    cases hsame
    exact ⟨rfl, rfl, rfl⟩
  | ok reports =>
    rw [hattempts] at hunreadable
    have hreadable : ¬ fileSystem.IsUnreadable arguments.directory before :=
      fun h => nomatch hunreadable.2 h
    obtain ⟨root, hroot⟩ : ∃ root,
        ((fileSystem.canonical arguments.directory).run before).1 = .ok root := by
      cases hcanonical : ((fileSystem.canonical arguments.directory).run before).1 with
      | error e => exact absurd (.directory hcanonical) hreadable
      | ok root => exact ⟨root, rfl⟩
    obtain ⟨ending, after, hrun, hcode, hgraft⟩ :=
      exists_isGraftRun laws hcommand hroot hattempts
    refine ⟨ending, after, hrun, ?_, nofun, fun root' reports' hroot' hsame => ?_⟩
    · rw [or_iff_right hreadable, hcode]
      simp
    · cases hroot.symm.trans hroot'
      cases hsame
      exact hgraft

end Command

/-- In a file tree there are no links, so that no two classes have one file, wherever the output
goes. -/
theorem FileTree.holdsLast_of_isGraftRun {formats : Formats} {arguments : GraftArguments}
    {settings : Settings} {before after : FileTree} {root : String}
    {reports : List AttemptReport} {ending : Ending}
    (h : FileTree.view.IsGraftRun formats arguments root reports before ending after)
    (hreports : ClassTree.attemptsIn ⟨FileTree.fileSystem, root⟩ before settings = .ok reports)
    (hdry : arguments.dryRun = false) :
    FileTree.view.HoldsLast after (arguments.out.getD root) reports := by
  intro name bytes hlast
  obtain ⟨place, hplace⟩ := (h.stores hdry).reached name bytes hlast
  refine ⟨place, hplace, (h.stores hdry).written name bytes place hlast hplace ?_⟩
  intro other hother hsame
  have hname : ∀ {name}, (lastWritten reports name).isSome →
      Descriptor.isClassName name.internal = true := by
    intro name hwritten
    obtain ⟨bytes, hlast⟩ := Option.isSome_iff_exists.1 hwritten
    obtain ⟨report, hreport, hwritten⟩ := exists_mem_of_lastSome hlast
    obtain ⟨fusion, houtcome⟩ := AttemptReport.writtenOf?_eq_some_iff.1 hwritten
    have hencoded : report.encoded? = some (name, bytes) := by
      rw [AttemptReport.encoded?, houtcome]
    obtain ⟨donors, -, rfl⟩ := ClassTree.attemptsIn_eq_ok_iff.1 hreports
    exact Settings.isClassName_of_mem_runBatch hreport hencoded
  refine FileTree.eq_of_placeOf?_join (hname hother) (hname ?_) hsame hplace
  rw [hlast]
  rfl

/-! ## A class tree at the top -/

namespace Settings

open FileTree (fileSystem)

/-- A settings file with short markers. -/
def shortMarkersText : String := "recipient_marker = \"LR;\"\nfuse_marker = \"LF;\"\n"

/-- How the settings file and the command lines of the runs below are read. -/
theorem standard_reads :
    Formats.standard.settings "graft.toml" shortMarkersText.toUTF8.toList = .ok shortMarkers
      ∧ Formats.standard.commandLine ["graft", ".", "--config", "graft.toml"]
        = .ok (.run (some "graft.toml") (.graft ⟨".", none, false, false, false⟩))
      ∧ Formats.standard.commandLine ["graft", "classes", "--out", "out", "--config", "graft.toml"]
        = .ok (.run (some "graft.toml") (.graft ⟨"classes", some "out", false, false, false⟩))
      ∧ ∀ directory ∈ [".", "nope"], Formats.standard.commandLine ["graft", directory]
        = .ok (.run none (.graft ⟨directory, none, false, false, false⟩)) := by
  decide +kernel

/-- A tree with a donor, its recipient and a settings file at the top. -/
def markedTree : FileTree where
  top := .directory [("R.class", .file plainField), ("T.class", .file markedField),
    ("graft.toml", .file shortMarkersText.toUTF8.toList)]
  working := []

theorem locate_recipient_markedTree : markedTree.locate "/R.class"
    = .ok ⟨["R.class"], [markedTree.top], some (.file plainField)⟩ :=
  FileTree.locate_of_steps rfl (by decide) rfl

theorem read_markedTree {path : String} {names : List String} {parents : List FileNode}
    {content : Bytes}
    (h : markedTree.locate path = .ok ⟨names, parents, some (.file content)⟩) :
    (fileSystem.read path).run markedTree = (.ok content, markedTree) := by
  change (markedTree.read path, markedTree) = _
  rw [FileTree.read, h]
  rfl

/-- The paths at the top. -/
theorem paths_top :
    Path.join "/" (⟨"R"⟩ : ClassName).filePath = "/R.class"
      ∧ Path.join "/" "R.class" = "/R.class" ∧ Path.join "/" "T.class" = "/T.class"
      ∧ Path.parent "/R.class" = "/" := by
  simp [Path.join_eq, ClassName.filePath, Path.parent, Path.above, Path.dropTrailing]

/-- The donors below the top. -/
def markedDonors : List Donor := [⟨"R.class", plainField⟩, ⟨"T.class", markedField⟩]

theorem donorsIn_markedTree :
    ClassTree.donorsIn ⟨fileSystem, "/"⟩ markedTree = .ok markedDonors := by
  have hwalk : markedTree.walk "/" = [.ok ⟨[], .directory⟩, .ok ⟨["R.class"], .file⟩,
      .ok ⟨["T.class"], .file⟩, .ok ⟨["graft.toml"], .file⟩] := by
    rw [FileTree.walk, FileTree.locate_top rfl rfl]
    rfl
  have hfiles : ClassTree.classFilesIn ⟨fileSystem, "/"⟩ markedTree
      = [["R.class"], ["T.class"]] := by
    refine ClassTree.classFilesIn_eq_of_sorted ?_ (by decide)
    change (markedTree.walk "/").filterMap _ = _
    rw [hwalk]
    simp +decide [ClassTree.classFileOf?, Path.isClassFileName_iff]
  obtain ⟨-, hrecipient, hdonor, -⟩ := paths_top
  have hplain : ((fileSystem.read (Path.join "/" "R.class")).run markedTree).1
      = .ok plainField := by
    rw [hrecipient]
    exact congrArg Prod.fst (read_markedTree locate_recipient_markedTree)
  have hmarked : ((fileSystem.read (Path.join "/" "T.class")).run markedTree).1
      = .ok markedField := by
    rw [hdonor]
    exact congrArg Prod.fst (read_markedTree (FileTree.locate_of_steps rfl (by decide) rfl))
  rw [FileTree.isLawful.donorsIn_eq_ok_iff, hfiles]
  exact .cons ⟨hplain, rfl⟩ (.cons ⟨hmarked, rfl⟩ .nil)

/-- The reports on the donors below the top, the first of which is the recipient of the other. -/
def markedReports : List AttemptReport :=
  shortMarkers.chain (fun _ => .ok plainField) markedDonors

/-- Only the second donor names a recipient.  Its attempt writes the recipient with the annotation,
and no attempt fails. -/
theorem outcomes_markedReports :
    (∀ donor ∈ markedDonors, ∀ name ∈ shortMarkers.recipientOfBytes? donor.bytes, name = ⟨"R"⟩)
      ∧ markedReports.filterMap AttemptReport.encoded? = [(⟨"R"⟩, graftedField)]
      ∧ lastWritten markedReports ⟨"R"⟩ = some graftedField
      ∧ ∀ report ∈ markedReports, report.isFailed = false := by
  decide +kernel

theorem attemptsIn_markedTree :
    ClassTree.attemptsIn ⟨fileSystem, "/"⟩ markedTree shortMarkers = .ok markedReports := by
  refine ClassTree.attemptsIn_eq_ok_iff.2 ⟨markedDonors, donorsIn_markedTree, ?_⟩
  rw [runBatch_eq_chain]
  refine chain_congr fun donor hdonor name hname => ?_
  obtain rfl := outcomes_markedReports.1 donor hdonor name hname
  rw [ClassTree.sourceIn_eq_ok_iff, paths_top.1, read_markedTree locate_recipient_markedTree]

theorem storesEvery_markedTree : fileSystem.StoresEvery markedTree "/" markedReports := by
  obtain ⟨hrecipient, -, -, hparent⟩ := paths_top
  have hwrite : (fileSystem.write "/R.class" graftedField).run markedTree
      = (.ok (), markedTree.put ["R.class"] (.file graftedField)) := by
    change markedTree.write "/R.class" graftedField = _
    rw [FileTree.write, locate_recipient_markedTree]
    rfl
  have hstore : (ClassTree.store ⟨fileSystem, "/"⟩ ⟨"R"⟩ graftedField).run markedTree
      = (.ok (), markedTree.put ["R.class"] (.file graftedField)) := by
    rw [ClassTree.store, ClassTree.pathOf, hrecipient, hparent,
      run_bind_eq (FileTree.run_createDirectories_top rfl rfl)]
    dsimp only
    rw [run_bind_eq hwrite]
    rfl
  intro e h
  rw [emit, outcomes_markedReports.2.1, emitFrom, run_bind_eq hstore] at h
  cases h

theorem canonical_markedTree : ((fileSystem.canonical ".").run markedTree).1 = .ok "/" :=
  FileTree.canonical_here rfl rfl

theorem attempts_markedTree :
    fileSystem.attempts shortMarkers "." markedTree = .ok markedReports := by
  rw [FileSystem.attempts_eq_of_canonical canonical_markedTree,
    attemptsIn_markedTree]

theorem isGraftCommand_markedTree : fileSystem.IsGraftCommand .standard
    ["graft", ".", "--config", "graft.toml"] ⟨".", none, false, false, false⟩ shortMarkers
    markedTree where
  asks := by
    have hread : (fileSystem.read "graft.toml").run markedTree
        = (.ok shortMarkersText.toUTF8.toList, markedTree) :=
      read_markedTree (FileTree.locate_of_steps rfl (by decide) rfl)
    exact ⟨some "graft.toml", standard_reads.2.1, loadSettings_of_read hread standard_reads.1⟩
  valid := rfl
  stores _ root reports hroot hreports := by
    cases canonical_markedTree.symm.trans hroot
    cases attempts_markedTree.symm.trans hreports
    exact storesEvery_markedTree

/-- The donor is grafted onto its recipient, in place, and nothing fails. -/
theorem runCommand_graft_markedTree :
    ∃ ending after,
      (runCommand fileSystem ["graft", ".", "--config", "graft.toml"]).run markedTree
        = (ending, after)
      ∧ ending.code ≠ 1 ∧ after.contentAt? ["R.class"] = some graftedField := by
  obtain ⟨ending, after, hrun, hcode, -, hgraft⟩ :=
    runCommand_graft FileTree.isLawful isGraftCommand_markedTree
  have hleft := hgraft "/" markedReports canonical_markedTree attempts_markedTree
  obtain ⟨-, -, hlast, hsucceeded⟩ := outcomes_markedReports
  refine ⟨ending, after, hrun, ?_, ?_⟩
  · rw [ne_eq, hcode, ← FileTree.isLawful.exists_attempts_eq_error_iff shortMarkers,
      attempts_markedTree]
    rintro (⟨causes, hcauses⟩ | ⟨reports, hreports, report, hreport, e, houtcome⟩)
    · cases hcauses
    · cases hreports
      have hisFailed := AttemptReport.isFailed_iff.2 ⟨e, houtcome⟩
      rw [hsucceeded report hreport] at hisFailed
      cases hisFailed
  · obtain ⟨place, hplace, hcontent⟩ := hleft.inPlace rfl rfl _ _ hlast
    have hbefore : FileTree.view.placeOf? markedTree "/R.class" = some ["R.class"] :=
      FileTree.placeOf?_eq_some_iff.2 ⟨_, locate_recipient_markedTree, rfl⟩
    have hafter := (hleft.stores rfl).paths _ _ hbefore
    rw [← paths_top.1] at hafter
    obtain rfl := Option.some.inj (hafter.symm.trans hplace)
    exact hcontent

end Settings

/-! ## What attempts do not tell -/

/-- The run exits with 1 exactly when one of its attempts has failed. -/
def FileSystem.ExitsByAttempts (fileSystem : FileSystem (StateM σ)) (commandLine : List String)
    (arguments : GraftArguments) (settings : Settings) (before : σ) : Prop :=
  ((runCommand fileSystem commandLine).run before).1.code = 1 ↔
    ∃ reports, fileSystem.attempts settings arguments.directory before = .ok reports
      ∧ ∃ report ∈ reports, ∃ e, report.outcome = .failed e

/-- A run without attempts fails, although no attempt has. -/
theorem FileSystem.IsLawful.not_exitsByAttempts {fileSystem : FileSystem (StateM σ)}
    {view : FileView σ π} (laws : fileSystem.IsLawful view) {commandLine : List String}
    {arguments : GraftArguments} {settings : Settings} {before : σ}
    (hcommand : fileSystem.IsGraftCommand .standard commandLine arguments settings before)
    (hunreadable : fileSystem.IsUnreadable arguments.directory before) :
    ¬ fileSystem.ExitsByAttempts commandLine arguments settings before := by
  obtain ⟨causes, hcauses⟩ :=
    (laws.exists_attempts_eq_error_iff settings arguments.directory before).2 hunreadable
  rw [ExitsByAttempts, runCommand, runCommand_graft_of_unreadable laws hcommand hcauses, hcauses]
  intro hcode
  obtain ⟨reports, hreports, -⟩ := hcode.1 rfl
  cases hreports

namespace Settings

/-- A tree whose only class file may not be read. -/
def sealedTree : FileTree where
  top := .directory [("T.class", .file markedField)]
  working := []
  denied := [["T.class"]]

theorem isUnreadable_sealedTree : FileTree.fileSystem.IsUnreadable "." sealedTree := by
  have hfile : sealedTree.locate "/T.class"
      = .ok ⟨["T.class"], [sealedTree.top], some (.file markedField)⟩ :=
    FileTree.locate_of_steps rfl (by decide) rfl
  have hcanonical : ((FileTree.fileSystem.canonical ".").run sealedTree).1 = .ok "/" :=
    FileTree.canonical_here rfl rfl
  have hfound : ["T.class"] ∈ ClassTree.classFilesIn ⟨FileTree.fileSystem, "/"⟩ sealedTree := by
    refine ClassTree.mem_classFilesIn_iff.2 ⟨?_, by simp [Path.isClassFileName_iff]⟩
    change _ ∈ sealedTree.walk "/"
    rw [FileTree.walk, FileTree.locate_top rfl rfl]
    exact .tail _ (.head _)
  have hread : ((FileTree.fileSystem.read (["T.class"].foldl Path.join "/")).run sealedTree).1
      = .error .permissionDenied := by
    change sealedTree.read (Path.join "/" "T.class") = _
    rw [paths_top.2.2.1, FileTree.read, hfile]
    rfl
  exact .classFile hcanonical hfound hread

theorem isGraftCommand_sealedTree {directory : String} (hdirectory : directory ∈ [".", "nope"])
    (hunreadable : FileTree.fileSystem.IsUnreadable directory sealedTree) :
    FileTree.fileSystem.IsGraftCommand .standard ["graft", directory]
      ⟨directory, none, false, false, false⟩ {} sealedTree where
  asks := ⟨none, standard_reads.2.2.2 directory hdirectory, rfl⟩
  valid := rfl
  stores _ root reports _ hreports := by
    obtain ⟨causes, hcauses⟩ :=
      (FileTree.isLawful.exists_attempts_eq_error_iff {} directory sealedTree).2 hunreadable
    cases hcauses.symm.trans hreports

theorem isUnreadable_nope_sealedTree : FileTree.fileSystem.IsUnreadable "nope" sealedTree := by
  have hnothing : sealedTree.follow "nope" = .ok ⟨["nope"], [sealedTree.top], none⟩ :=
    FileTree.follow_of_locate (FileTree.locate_of_steps rfl (by decide) rfl)
  have hmissing : ((FileTree.fileSystem.canonical "nope").run sealedTree).1
      = .error .notFound := by
    change sealedTree.canonical "nope" = _
    rw [FileTree.canonical, hnothing]
    rfl
  exact .directory hmissing

/-! ## Links -/

/-- Where a path leads when the file of the class `S` below `out` is a link to the one of `R`. -/
def linkTarget (path : String) : String :=
  if path = "out/S.class" then "out/R.class" else path

/-- A file system with the given files and a link, in which every directory is there. -/
def linkedFiles : FileSystem (StateM (List (String × Bytes))) where
  canonical path := fun files => (.ok path, files)
  read path := fun files =>
    ((files.lookup (linkTarget path)).elim (Except.error FileError.notFound) Except.ok, files)
  walk path := fun files =>
    ((files.map fun file => Path.components file.1).filterMap fun components =>
      if components.head? = some path then some (.ok ⟨components.tail, .file⟩) else none, files)
  isDirectory _ := fun files => (true, files)
  createDirectory _ := fun files => (.ok (), files)
  write path content := fun files => (.ok (), (linkTarget path, content) :: files)

/-- Each file is at the place where its path leads. -/
def linkedView : FileView (List (String × Bytes)) String where
  placeOf? _ path := some (linkTarget path)
  contentAt? files place := files.lookup place

theorem lookup_of_read_linkedFiles {path : String} {files : List (String × Bytes)}
    {content : Bytes} (h : ((linkedFiles.read path).run files).1 = .ok content) :
    files.lookup (linkTarget path) = some content := by
  change (files.lookup (linkTarget path)).elim (Except.error FileError.notFound) Except.ok = _ at h
  cases hfound : files.lookup (linkTarget path) <;> rw [hfound] at h <;> cases h
  rfl

theorem isLawful_linkedFiles : linkedFiles.IsLawful linkedView where
  canonical _ _ := rfl
  isDirectory _ _ := rfl
  walk _ _ := rfl
  read _ _ := rfl
  content_of_read path files content h := ⟨linkTarget path, rfl, lookup_of_read_linkedFiles h⟩
  createDirectory _ files := .refl files
  write path content before after h := by
    cases h
    refine ⟨fun _ _ hplace => hplace, linkTarget path, rfl, List.lookup_cons_self, ?_⟩
    intro other hother
    change List.lookup other _ = _
    rw [List.lookup_cons, beq_false_of_ne hother]
    rfl

/-- Two donors with their recipients, and a settings file. -/
def classesWithSettings : List (String × Bytes) :=
  [("classes/R.class", plainField), ("classes/S.class", bareField),
    ("classes/T.class", markedField), ("classes/U.class", foreignField),
    ("graft.toml", shortMarkersText.toUTF8.toList)]

/-- The class files as donors. -/
def linkedDonors : List Donor :=
  [⟨"R.class", plainField⟩, ⟨"S.class", bareField⟩, ⟨"T.class", markedField⟩,
    ⟨"U.class", foreignField⟩]

theorem canonical_linkedFiles :
    ((linkedFiles.canonical "classes").run classesWithSettings).1 = .ok "classes" := rfl

/-- The attempts write the first class and the second one.  What they write last on a path that
leads to the file of `R` is not what they write of `R`. -/
theorem outcomes_linkedDonors :
    (∀ donor ∈ linkedDonors, ∀ name ∈ shortMarkers.recipientOfBytes? donor.bytes,
        name = ⟨"R"⟩ ∨ name = ⟨"S"⟩)
      ∧ lastWritten (shortMarkers.chain twoClasses linkedDonors) ⟨"R"⟩ = some graftedField
      ∧ (lastSome (fun report =>
          report.encoded?.bind (linkedView.storedAt [] "out" "out/R.class"))
          (shortMarkers.chain twoClasses linkedDonors)).any (· ≠ graftedField) := by
  decide +kernel

theorem read_linkedFiles {path : String} {content : Bytes}
    (h : classesWithSettings.lookup (linkTarget path) = some content) :
    (linkedFiles.read path).run classesWithSettings = (.ok content, classesWithSettings) := by
  change ((classesWithSettings.lookup _).elim _ _, _) = _
  rw [h]
  rfl

theorem attempts_linkedFiles : linkedFiles.attempts shortMarkers "classes" classesWithSettings
    = .ok (shortMarkers.chain twoClasses linkedDonors) := by
  have hfiles : ClassTree.classFilesIn ⟨linkedFiles, "classes"⟩ classesWithSettings
      = [["R.class"], ["S.class"], ["T.class"], ["U.class"]] := by
    have hwalk : ((linkedFiles.walk "classes").run classesWithSettings).1
        = [.ok ⟨["R.class"], .file⟩, .ok ⟨["S.class"], .file⟩, .ok ⟨["T.class"], .file⟩,
          .ok ⟨["U.class"], .file⟩] := rfl
    refine ClassTree.classFilesIn_eq_of_sorted ?_ (by decide)
    rw [hwalk]
    simp [ClassTree.classFileOf?, Path.isClassFileName_iff]
  have hread : ∀ {file content},
      classesWithSettings.lookup (linkTarget (Path.join "classes" file)) = some content →
        ((linkedFiles.read (Path.join "classes" file)).run classesWithSettings).1
          = .ok content :=
    fun h => congrArg Prod.fst (read_linkedFiles h)
  have hdonors : ClassTree.donorsIn ⟨linkedFiles, "classes"⟩ classesWithSettings
      = .ok linkedDonors := by
    rw [isLawful_linkedFiles.donorsIn_eq_ok_iff, hfiles]
    refine .cons ⟨hread ?_, rfl⟩ (.cons ⟨hread ?_, rfl⟩ (.cons ⟨hread ?_, rfl⟩
      (.cons ⟨hread ?_, rfl⟩ .nil)))
    all_goals
      rw [Path.join_eq]
      rfl
  rw [FileSystem.attempts_eq_of_canonical canonical_linkedFiles]
  refine ClassTree.attemptsIn_eq_ok_iff.2 ⟨linkedDonors, hdonors, ?_⟩
  rw [runBatch_eq_chain]
  refine chain_congr fun donor hdonor name hname => ?_
  obtain rfl | rfl := outcomes_linkedDonors.1 donor hdonor name hname
  all_goals
    refine ClassTree.sourceIn_eq_ok_iff.2 (hread ?_)
    rw [Path.join_eq]
    rfl

theorem run_store_linkedFiles (target : String) (name : ClassName) (bytes : Bytes)
    (files : List (String × Bytes)) :
    (ClassTree.store ⟨linkedFiles, target⟩ name bytes).run files
      = (.ok (), (linkTarget (Path.join target name.filePath), bytes) :: files) := by
  have hcreates : ∀ path, (linkedFiles.createDirectories path).run files = (.ok (), files) := by
    intro path
    rw [FileSystem.createDirectories]
    cases Path.ancestors path <;> rfl
  rw [ClassTree.store, run_bind_eq (hcreates _)]
  rfl

theorem storesEvery_linkedFiles (files : List (String × Bytes)) (target : String)
    (reports : List AttemptReport) : linkedFiles.StoresEvery files target reports := by
  intro e
  rw [emit]
  generalize reports.filterMap AttemptReport.encoded? = outputs
  generalize 0 = count
  induction outputs generalizing count files with
  | nil => exact nofun
  | cons output outputs ih =>
    rw [emitFrom, run_bind_eq (run_store_linkedFiles target _ _ files)]
    exact ih _ _

theorem isGraftCommand_linkedFiles : linkedFiles.IsGraftCommand .standard
    ["graft", "classes", "--out", "out", "--config", "graft.toml"]
    ⟨"classes", some "out", false, false, false⟩ shortMarkers classesWithSettings where
  asks := by
    have hread : (linkedFiles.read "graft.toml").run classesWithSettings
        = (.ok shortMarkersText.toUTF8.toList, classesWithSettings) := read_linkedFiles rfl
    exact ⟨some "graft.toml", standard_reads.2.2.1, loadSettings_of_read hread standard_reads.1⟩
  valid := rfl
  stores _ root reports _ _ := storesEvery_linkedFiles _ _ _

/-- What was written of `R` is lost, as the output for `S` goes to the same file. -/
theorem not_holdsLast_linkedFiles : ∃ ending after,
    (runCommand linkedFiles ["graft", "classes", "--out", "out", "--config", "graft.toml"]).run
        classesWithSettings = (ending, after)
      ∧ ¬ linkedView.HoldsLast after "out" (shortMarkers.chain twoClasses linkedDonors) := by
  obtain ⟨ending, after, hrun, -, hgraft⟩ := exists_isGraftRun isLawful_linkedFiles
    isGraftCommand_linkedFiles canonical_linkedFiles attempts_linkedFiles
  refine ⟨ending, after, hrun, fun hholds => ?_⟩
  have hpath : linkTarget (Path.join "out" (⟨"R"⟩ : ClassName).filePath) = "out/R.class" := by
    simp [linkTarget, Path.join_eq, ClassName.filePath]
  obtain ⟨-, hlast, hother⟩ := outcomes_linkedDonors
  have hstate : linkedView.storedAt after = linkedView.storedAt [] := rfl
  generalize shortMarkers.chain twoClasses linkedDonors = reports at hgraft hholds hlast hother
  obtain ⟨place, hplace, hcontent⟩ := hholds _ _ hlast
  obtain rfl : "out/R.class" = place := by
    rw [← hpath]
    exact Option.some.inj hplace
  obtain ⟨stored, hstored, hdiffers⟩ := (Option.any_eq_true _ _).1 hother
  have hleft := (hgraft.stores rfl).contentAt? "out/R.class"
  rw [Option.getD_some, hstate, hstored, hcontent, Option.some_or] at hleft
  exact of_decide_eq_true hdiffers (Option.some.inj hleft).symm

/-- There are runs whose exit code is not told by their attempts: where a class file may not be
read, and where the directory is not there.  And there are links with which a class that was written
is not in its file. -/
theorem not_exitsByAttempts_not_holdsLast :
    (FileTree.fileSystem.IsGraftCommand .standard ["graft", "."]
        ⟨".", none, false, false, false⟩ {} sealedTree
      ∧ ¬ FileTree.fileSystem.ExitsByAttempts ["graft", "."]
        ⟨".", none, false, false, false⟩ {} sealedTree)
    ∧ (FileTree.fileSystem.IsGraftCommand .standard ["graft", "nope"]
        ⟨"nope", none, false, false, false⟩ {} sealedTree
      ∧ ¬ FileTree.fileSystem.ExitsByAttempts ["graft", "nope"]
        ⟨"nope", none, false, false, false⟩ {} sealedTree)
    ∧ linkedFiles.IsLawful linkedView
    ∧ linkedFiles.IsGraftCommand .standard
        ["graft", "classes", "--out", "out", "--config", "graft.toml"]
        ⟨"classes", some "out", false, false, false⟩ shortMarkers classesWithSettings
    ∧ ∃ reports ending after,
        linkedFiles.attempts shortMarkers "classes" classesWithSettings = .ok reports
          ∧ (runCommand linkedFiles
              ["graft", "classes", "--out", "out", "--config", "graft.toml"]).run
              classesWithSettings = (ending, after)
          ∧ ¬ linkedView.HoldsLast after "out" reports := by
  have hsealed := isGraftCommand_sealedTree (by simp) isUnreadable_sealedTree
  have hnope := isGraftCommand_sealedTree (by simp) isUnreadable_nope_sealedTree
  obtain ⟨ending, after, hrun, hlost⟩ := not_holdsLast_linkedFiles
  exact ⟨⟨hsealed, FileTree.isLawful.not_exitsByAttempts hsealed isUnreadable_sealedTree⟩,
    ⟨hnope, FileTree.isLawful.not_exitsByAttempts hnope isUnreadable_nope_sealedTree⟩,
    isLawful_linkedFiles, isGraftCommand_linkedFiles, _, ending, after, attempts_linkedFiles, hrun,
    hlost⟩

end Settings

end AnnotationGraft
