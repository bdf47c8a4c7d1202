import AnnotationGraft.Command.Run
import AnnotationGraft.Proofs.FileSystem.Laws
import AnnotationGraft.Proofs.Graft.Course
import AnnotationGraft.Proofs.Graft.Parallel

/-!
# Reading a class tree

Before it stores anything, a run of the command only reads, and what it reads is what was there when
it began.  `ClassTree.donorsIn` and `ClassTree.sourceIn` are the donors and the recipients that a
class tree gives, and `FileSystem.attempts` are the attempts on them: they are told from the state
and the settings alone.  There are none when the directory is not there or one of its class files
cannot be read (`IsLawful.exists_attempts_eq_error_iff`); what a walk cannot look at is passed over
(`ClassTree.mem_classFilesIn_iff`).

A run loads the recipients before it begins with the attempts.  As loading only reads, it makes no
difference whether each attempt loads its recipient when it needs it: `IsLawful.run_chainWith_load`.
-/

namespace AnnotationGraft

variable {σ π : Type}

/-! ## What a class tree gives -/

namespace ClassTree

variable (tree : ClassTree (StateM σ)) (state : σ)

/-- The class files of the tree. -/
def classFilesIn : List (List String) := (tree.classFiles.run state).1

/-- The donors of the tree. -/
def donorsIn : Except (List String) (List Donor) := (tree.donors.run.run state).1

/-- What loading a recipient from the tree gives. -/
def sourceIn (name : ClassName) : Loaded := ((tree.load name).run state).1

/-- The attempts on the tree: on each of its donors, unless one of them cannot be read. -/
def attemptsIn (settings : Settings) : Except (List String) (List AttemptReport) :=
  (tree.donorsIn state).map (settings.runBatch (tree.sourceIn state))

variable {tree state} {file : List String} {donor : Donor} {donors : List Donor}

/-- The class files are the files with the name of one that a walk comes to, whatever it could not
look at. -/
theorem mem_classFilesIn_iff : file ∈ tree.classFilesIn state ↔
    .ok ⟨file, .file⟩ ∈ ((tree.fileSystem.walk tree.root).run state).1
      ∧ Path.isClassFileName (file.getLastD ((Path.components tree.root).getLastD "")) = true := by
  change file ∈ (List.filterMap _ _).mergeSort _ ↔ _
  rw [List.mem_mergeSort, List.mem_filterMap]
  constructor
  · intro h
    obtain ⟨found, hfound, hfile⟩ := h
    rcases found with e | ⟨components, kind⟩
    · cases hfile
    · rw [classFileOf?] at hfile
      dsimp only at hfile
      split at hfile
      · next hnamed =>
        cases hfile
        obtain ⟨rfl, hname⟩ := hnamed
        exact ⟨hfound, hname⟩
      · cases hfile
  · intro h
    exact ⟨_, h.1, if_pos ⟨rfl, h.2⟩⟩

theorem classFilesIn_eq_of_sorted {files : List (List String)}
    (hfound : ((tree.fileSystem.walk tree.root).run state).1.filterMap (classFileOf? tree.root)
      = files)
    (hsorted : files.Pairwise fun file file' => Path.compareComponents file file' = true) :
    tree.classFilesIn state = files := by
  subst hfound
  exact List.mergeSort_of_pairwise hsorted

theorem attemptsIn_eq_ok_iff {settings : Settings} {reports : List AttemptReport} :
    tree.attemptsIn state settings = .ok reports ↔ ∃ donors, tree.donorsIn state = .ok donors
      ∧ settings.runBatch (tree.sourceIn state) donors = reports := by
  rw [attemptsIn]
  cases tree.donorsIn state <;> simp [Except.map]

end ClassTree

/-- The attempts of a run of `graft` on a directory, unless the directory or one of its class files
cannot be read. -/
def FileSystem.attempts (fileSystem : FileSystem (StateM σ)) (settings : Settings)
    (directory : String) (state : σ) : Except (List String) (List AttemptReport) := do
  let root ← describeFailure ("Invalid classes directory " ++ directory)
    ((fileSystem.canonical directory).run state).1
  ClassTree.attemptsIn ⟨fileSystem, root⟩ state settings

/-- A directory is not there, or one of its class files cannot be read. -/
inductive FileSystem.IsUnreadable (fileSystem : FileSystem (StateM σ)) (directory : String)
    (state : σ) : Prop where
  | directory {e : FileError} (missing : ((fileSystem.canonical directory).run state).1 = .error e)
  | classFile {root : String} {file : List String} {e : FileError}
    (there : ((fileSystem.canonical directory).run state).1 = .ok root)
    (found : file ∈ ClassTree.classFilesIn ⟨fileSystem, root⟩ state)
    (unread : ((fileSystem.read (file.foldl Path.join root)).run state).1 = .error e)

theorem FileSystem.attempts_eq_of_canonical {fileSystem : FileSystem (StateM σ)}
    {settings : Settings} {directory root : String} {state : σ}
    (h : ((fileSystem.canonical directory).run state).1 = .ok root) :
    fileSystem.attempts settings directory state
      = ClassTree.attemptsIn ⟨fileSystem, root⟩ state settings := by
  rw [attempts, h]
  rfl

/-- The settings in a file that can be read. -/
theorem loadSettings_of_read {formats : Formats} {fileSystem : FileSystem (StateM σ)} {state : σ}
    {path : String} {content : Bytes} {settings : Settings}
    (hread : (fileSystem.read path).run state = (.ok content, state))
    (hsettings : formats.settings path content = .ok settings) :
    ((loadSettings formats fileSystem (some path)).run.run state).1 = .ok settings := by
  rw [loadSettings, run_bind_of_ok (run_liftM_state hread),
    run_bind_of_ok (run_liftM_except (describeFailure _ (.ok _))), run_liftM_except, hsettings]

/-! ## Reading changes nothing -/

namespace FileSystem.IsLawful

variable {fileSystem : FileSystem (StateM σ)} {view : FileView σ π}
  (laws : fileSystem.IsLawful view) {state : σ} {root : String} {settings : Settings}
  {donors : List Donor}

include laws

theorem onlyReads_loadSettings (formats : Formats) (config : Option String) :
    OnlyReads (loadSettings formats fileSystem config).run := by
  cases config with
  | none => exact .pure _
  | some path =>
    exact (laws.read path).lift.bind_run fun content =>
      (OnlyReads.liftM_except _).bind_run fun content => .liftM_except _

theorem onlyReads_load (root : String) (name : ClassName) :
    OnlyReads (ClassTree.load ⟨fileSystem, root⟩ name) := by
  refine (laws.read _).bind fun result => ?_
  cases result <;> exact .pure _

theorem onlyReads_readDonor (root : String) (file : List String) :
    OnlyReads (ClassTree.readDonor ⟨fileSystem, root⟩ file).run := by
  refine (laws.read _).lift.bind_run fun result => ?_
  cases result <;> exact .pure _

/-! ## Donors -/

/-- Each class file is read on its own. -/
theorem run_donors_eq_mapM (root : String) (state : σ) :
    (ClassTree.donors ⟨fileSystem, root⟩).run.run state
      = ((ClassTree.classFilesIn ⟨fileSystem, root⟩ state).mapM fun file =>
          ((ClassTree.readDonor ⟨fileSystem, root⟩ file).run.run state).1, state) := by
  have hfiles : OnlyReads (ClassTree.classFiles ⟨fileSystem, root⟩) :=
    (laws.walk root).bind fun found => .pure _
  rw [ClassTree.donors, run_bind_of_ok (run_liftM_state (hfiles state))]
  exact OnlyReads.run_mapM_except (laws.onlyReads_readDonor root) _

theorem run_donors (root : String) (state : σ) :
    (ClassTree.donors ⟨fileSystem, root⟩).run.run state
      = (ClassTree.donorsIn ⟨fileSystem, root⟩ state, state) := by
  rw [ClassTree.donorsIn, laws.run_donors_eq_mapM]

theorem run_readDonor_eq_ok_iff {file : List String} {donor : Donor} :
    ((ClassTree.readDonor ⟨fileSystem, root⟩ file).run.run state).1 = .ok donor ↔
      ((fileSystem.read (file.foldl Path.join root)).run state).1 = .ok donor.bytes
        ∧ donor.label = "/".intercalate file := by
  rw [ClassTree.readDonor, run_bind_of_ok (run_liftM_state (laws.read _ state))]
  cases ((fileSystem.read (file.foldl Path.join root)).run state).1 with
  | error e => exact iff_of_false nofun nofun
  | ok bytes =>
    constructor
    · intro h
      cases h
      exact ⟨rfl, rfl⟩
    · intro h
      obtain ⟨label, donorBytes⟩ := donor
      obtain ⟨hbytes, rfl⟩ := h
      cases hbytes
      rfl

/-- The donors are the class files, if each of them can be read. -/
theorem donorsIn_eq_ok_iff : ClassTree.donorsIn ⟨fileSystem, root⟩ state = .ok donors ↔
    List.Forall₂ (fun file donor =>
        ((fileSystem.read (file.foldl Path.join root)).run state).1 = .ok donor.bytes
          ∧ donor.label = "/".intercalate file)
      (ClassTree.classFilesIn ⟨fileSystem, root⟩ state) donors := by
  rw [ClassTree.donorsIn, laws.run_donors_eq_mapM, except_mapM_eq_ok_iff]
  simp only [laws.run_readDonor_eq_ok_iff]

/-- There are no donors when a class file cannot be read. -/
theorem exists_donorsIn_eq_error_iff :
    (∃ causes, ClassTree.donorsIn ⟨fileSystem, root⟩ state = .error causes) ↔
      ∃ file ∈ ClassTree.classFilesIn ⟨fileSystem, root⟩ state, ∃ e,
        ((fileSystem.read (file.foldl Path.join root)).run state).1 = .error e := by
  have hfails : ∀ file,
      (∃ causes, ((ClassTree.readDonor ⟨fileSystem, root⟩ file).run.run state).1 = .error causes)
        ↔ ∃ e, ((fileSystem.read (file.foldl Path.join root)).run state).1 = .error e := by
    intro file
    rw [ClassTree.readDonor, run_bind_of_ok (run_liftM_state (laws.read _ state))]
    cases ((fileSystem.read (file.foldl Path.join root)).run state).1 with
    | error e => exact iff_of_true ⟨_, rfl⟩ ⟨e, rfl⟩
    | ok bytes => exact iff_of_false nofun nofun
  rw [ClassTree.donorsIn, laws.run_donors_eq_mapM, exists_except_mapM_eq_error_iff]
  simp only [hfails]

/-! ## Recipients -/

/-- The recipients of the donors are loaded as they are there. -/
theorem exists_run_recipients (settings : Settings) (root : String) (donors : List Donor)
    (state : σ) : ∃ source,
      (ClassTree.recipients ⟨fileSystem, root⟩ settings donors).run state = (source, state)
        ∧ ∀ donor ∈ donors, ∀ name, settings.recipientOfBytes? donor.bytes = some name →
          source name = ClassTree.sourceIn ⟨fileSystem, root⟩ state name := by
  have hreads : ∀ name, OnlyReads
      (do return (name, ← ClassTree.load ⟨fileSystem, root⟩ name) :
        StateM σ (ClassName × Loaded)) :=
    fun name => (laws.onlyReads_load root name).bind fun loaded => .pure _
  refine ⟨_, run_bind_eq (OnlyReads.run_mapM hreads _ state), fun donor hdonor name hname => ?_⟩
  have hmem : name ∈ (donors.filterMap fun d => settings.recipientOfBytes? d.bytes).eraseDups :=
    List.mem_eraseDups.2 (List.mem_filterMap.2 ⟨donor, hdonor, hname⟩)
  exact congrArg (fun found : Option Loaded => found.getD (.error []))
    (List.lookup_graph (ClassTree.sourceIn ⟨fileSystem, root⟩ state) hmem)

end FileSystem.IsLawful

/-! ## Loading when it is needed -/

namespace Settings

variable {settings : Settings}

/-- Runs donors in order, after what was written before.  Each attempt loads its recipient when it
needs it. -/
def chainWith {m : Type → Type} [Monad m] (settings : Settings) (load : ClassName → m Loaded)
    (grafted : Grafted) : List Donor → m (List AttemptReport)
  | [] => return []
  | donor :: donors => do
    let report ← settings.attemptWith donor.label donor.bytes fun name =>
      match grafted.lookup name with
      | some bytes => return .ok bytes
      | none => load name
    return report :: (← settings.chainWith load (grafted.note report) donors)

theorem run_attemptWith {load : ClassName → StateM σ Loaded} (h : ∀ name, OnlyReads (load name))
    (label : String) (donorBytes : Bytes) (state : σ) :
    (settings.attemptWith label donorBytes load).run state
      = (settings.attempt label donorBytes fun name => ((load name).run state).1, state) := by
  unfold attemptWith attempt
  cases settings.prepare label donorBytes with
  | error report => rfl
  | ok awaiting => exact run_bind_eq (h _ state)

/-- Where loading only reads, every attempt loads what was there in the beginning. -/
theorem run_chainWith {load : ClassName → StateM σ Loaded} (h : ∀ name, OnlyReads (load name))
    (grafted : Grafted) (donors : List Donor) (state : σ) :
    (settings.chainWith load grafted donors).run state
      = (settings.runChain (fun name => ((load name).run state).1) (fun _ => false) grafted donors,
        state) := by
  induction donors generalizing grafted with
  | nil => rfl
  | cons donor donors ih =>
    have hload : ∀ name, OnlyReads (match grafted.lookup name with
        | some bytes => (return .ok bytes : StateM σ Loaded)
        | none => load name) := by
      intro name
      cases grafted.lookup name with
      | none => exact h name
      | some bytes => exact .pure _
    rw [chainWith, run_bind_eq (run_attemptWith hload donor.label donor.bytes state),
      run_bind_eq (ih _), runChain_cons]
    have hsource : (fun name => ((match grafted.lookup name with
        | some bytes => (return .ok bytes : StateM σ Loaded)
        | none => load name).run state).1)
        = grafted.load fun name => ((load name).run state).1 := by
      funext name
      rw [Grafted.load]
      cases grafted.lookup name <;> rfl
    rw [hsource]
    rfl

/-- A batch is decided by what its source gives for the recipients of the donors, whether it is
taken apart or not. -/
theorem runBatch_congr (settings : Settings) (b : Bool) {source source' : ClassName → Loaded}
    {donors : List Donor}
    (h : ∀ donor ∈ donors, ∀ name, settings.recipientOfBytes? donor.bytes = some name →
      source' name = source name) :
    ({ settings with parallel := b } : Settings).runBatch source' donors
      = settings.runBatch source donors := by
  rw [runBatch_eq_chain, runBatch_eq_chain, chain_parallel, chain_congr h]

end Settings

namespace FileSystem.IsLawful

variable {fileSystem : FileSystem (StateM σ)} {view : FileView σ π}
  (laws : fileSystem.IsLawful view)

include laws

/-- A batch whose attempts load their recipients when they need them is the batch whose recipients
are loaded before it begins. -/
theorem run_chainWith_load (settings : Settings) (root : String) (donors : List Donor)
    (state : σ) :
    (settings.chainWith (ClassTree.load ⟨fileSystem, root⟩) [] donors).run state
      = (do
          let source ← ClassTree.recipients ⟨fileSystem, root⟩ settings donors
          return settings.runBatch source donors : StateM σ (List AttemptReport)).run state := by
  obtain ⟨source, hsource, hagrees⟩ :=
    laws.exists_run_recipients settings root donors state
  rw [run_bind_eq hsource, Settings.run_chainWith (laws.onlyReads_load root)]
  have hsame : settings.runBatch source donors
      = settings.chain (ClassTree.sourceIn ⟨fileSystem, root⟩ state) donors := by
    rw [settings.runBatch_eq_chain, Settings.chain_congr hagrees]
  exact congrArg (·, state) hsame.symm

/-- There are no attempts exactly when the directory or one of its class files cannot be read. -/
theorem exists_attempts_eq_error_iff (settings : Settings) (directory : String) (state : σ) :
    (∃ causes, fileSystem.attempts settings directory state = .error causes) ↔
      fileSystem.IsUnreadable directory state := by
  cases hroot : ((fileSystem.canonical directory).run state).1 with
  | error e =>
    refine iff_of_true ⟨["Invalid classes directory " ++ directory, e.message], ?_⟩
      (.directory hroot)
    rw [attempts, hroot]
    rfl
  | ok root =>
    have hdonors : (∃ causes, fileSystem.attempts settings directory state = .error causes)
        ↔ ∃ causes, ClassTree.donorsIn ⟨fileSystem, root⟩ state = .error causes := by
      rw [attempts_eq_of_canonical hroot, ClassTree.attemptsIn]
      cases ClassTree.donorsIn ⟨fileSystem, root⟩ state <;> simp [Except.map]
    rw [hdonors, laws.exists_donorsIn_eq_error_iff]
    constructor
    · intro h
      obtain ⟨file, hfile, e, he⟩ := h
      exact .classFile hroot hfile he
    · intro h
      cases h with
      | directory missing =>
        rw [hroot] at missing
        cases missing
      | classFile there found unread =>
        obtain rfl := Except.ok.inj (hroot.symm.trans there)
        exact ⟨_, found, _, unread⟩

end FileSystem.IsLawful

end AnnotationGraft
