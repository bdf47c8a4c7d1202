import AnnotationGraft.Graft.Batch
import AnnotationGraft.Proofs.Graft.Grafting
import AnnotationGraft.Proofs.Positions

/-!
# Chains

A chain runs donors one after another.  Of what it has written before, an attempt sees what was last
written of its own recipient and nothing else: `attempt_congr` for one attempt, and
`chain_concat` for the last attempt of a chain, in terms of `lastWritten`.

So two chains may be run side by side, one of them with some of the donors left out and with another
source.  As long as everything that was written of a recipient is kept, the reports on this
recipient are the same in both: `forall₂_chain_keepAt`.
-/

namespace AnnotationGraft

/-! ## One attempt -/

namespace Awaiting

variable (attempt : Awaiting) (settings : Settings) (loaded : Loaded)

theorem label_complete : (attempt.complete settings loaded).label = attempt.label := by
  unfold complete
  split
  · rfl
  · split
    · rfl
    · dsimp only
      split <;> rfl

theorem recipient_complete :
    (attempt.complete settings loaded).recipient = some attempt.request.recipient := by
  unfold complete
  split
  · rfl
  · split
    · rfl
    · dsimp only
      split <;> rfl

end Awaiting

/-- What an attempt has written of a recipient. -/
def AttemptReport.writtenOf? (report : AttemptReport) (name : ClassName) : Option Bytes :=
  match report.encoded? with
  | some (written, bytes) => if written = name then some bytes else none
  | none => none

theorem AttemptReport.writtenOf?_eq_some_iff {report : AttemptReport} {name : ClassName}
    {bytes : Bytes} :
    report.writtenOf? name = some bytes ↔
      ∃ fusion, report.outcome = .encoded name bytes fusion := by
  unfold writtenOf? encoded?
  cases report.outcome with
  | encoded written output fusion =>
    by_cases hname : written = name
    · simp [hname]
    · simp [hname]
  | skipped reason => simp
  | failed error => simp

namespace Settings

variable {settings : Settings} {label : String} {donorBytes : Bytes} {name : ClassName}
  {load load' : ClassName → Loaded}

/-- A donor resolves to the class that its attempt asks for. -/
theorem recipientOfBytes?_eq_toOption (settings : Settings) (label : String) (donorBytes : Bytes) :
    settings.recipientOfBytes? donorBytes
      = (settings.prepare label donorBytes).toOption.map fun awaiting =>
          awaiting.request.recipient := by
  unfold recipientOfBytes? prepare
  cases ClassFile.decode donorBytes with
  | error e => rfl
  | ok donor =>
    simp only [request]
    cases settings.recipientOf donor <;> rfl

/-- An attempt either ends before it has a recipient, or is decided by what loading it gives. -/
theorem attempt_cases (settings : Settings) (label : String) (donorBytes : Bytes) :
    (settings.recipientOfBytes? donorBytes = none ∧ ∃ report : AttemptReport,
      report.label = label ∧ report.recipient = none ∧ report.encoded? = none
        ∧ ∀ load, settings.attempt label donorBytes load = report)
    ∨ ∃ awaiting : Awaiting, awaiting.label = label
      ∧ settings.recipientOfBytes? donorBytes = some awaiting.request.recipient
      ∧ ∀ load, settings.attempt label donorBytes load
        = awaiting.complete settings (load awaiting.request.recipient) := by
  rw [recipientOfBytes?_eq_toOption settings label]
  unfold attempt prepare
  cases ClassFile.decode donorBytes with
  | error e => exact .inl ⟨rfl, _, rfl, rfl, rfl, fun _ => rfl⟩
  | ok donor =>
    simp only
    cases settings.request donor with
    | error reason => exact .inl ⟨rfl, _, rfl, rfl, rfl, fun _ => rfl⟩
    | ok request => exact .inr ⟨⟨label, donor, request⟩, rfl, rfl, fun _ => rfl⟩

theorem label_attempt : (settings.attempt label donorBytes load).label = label := by
  rcases attempt_cases settings label donorBytes with
    ⟨-, report, hlabel, -, -, hreport⟩ | ⟨awaiting, hlabel, -, hreport⟩
  · rw [hreport, hlabel]
  · rw [hreport, Awaiting.label_complete, hlabel]

theorem recipient_attempt : (settings.attempt label donorBytes load).recipient
    = settings.recipientOfBytes? donorBytes := by
  rcases attempt_cases settings label donorBytes with
    ⟨hnone, report, -, hrecipient, -, hreport⟩ | ⟨awaiting, -, hsome, hreport⟩
  · rw [hreport, hrecipient, hnone]
  · rw [hreport, Awaiting.recipient_complete, hsome]

/-- Two ways of loading that agree on the recipient of a donor give the same report. -/
theorem attempt_congr (h : ∀ name, settings.recipientOfBytes? donorBytes = some name →
      load name = load' name) :
    settings.attempt label donorBytes load = settings.attempt label donorBytes load' := by
  rcases attempt_cases settings label donorBytes with
    ⟨-, report, -, -, -, hreport⟩ | ⟨awaiting, -, hsome, hreport⟩
  · rw [hreport, hreport]
  · rw [hreport, hreport, h _ hsome]

/-- Only the recipient of a donor is written. -/
theorem recipientOfBytes?_of_writtenOf? {bytes : Bytes}
    (h : (settings.attempt label donorBytes load).writtenOf? name = some bytes) :
    settings.recipientOfBytes? donorBytes = some name := by
  obtain ⟨fusion, houtcome⟩ := AttemptReport.writtenOf?_eq_some_iff.1 h
  rcases attempt_cases settings label donorBytes with
    ⟨-, report, -, -, hnone, hreport⟩ | ⟨awaiting, -, hsome, hreport⟩
  · rw [hreport] at houtcome
    rw [AttemptReport.encoded?, houtcome] at hnone
    cases hnone
  · rw [hreport] at houtcome
    rw [hsome, (Awaiting.outcome_complete_eq_encoded_iff.1 houtcome).1]

theorem writtenOf?_attempt_eq_none (h : settings.recipientOfBytes? donorBytes ≠ some name) :
    (settings.attempt label donorBytes load).writtenOf? name = none :=
  Option.eq_none_iff_forall_ne_some.2 fun _ hbytes => h (recipientOfBytes?_of_writtenOf? hbytes)

end Settings

/-! ## What reports have written -/

/-- What was written last of a recipient. -/
def lastWritten (reports : List AttemptReport) (name : ClassName) : Option Bytes :=
  lastSome (fun report => report.writtenOf? name) reports

/-- Loads a recipient after reports: what was last written of it, or else what its source gives. -/
def loadAfter (reports : List AttemptReport) (source : ClassName → Loaded) (name : ClassName) :
    Loaded :=
  match lastWritten reports name with
  | some bytes => .ok bytes
  | none => source name

theorem lastWritten_concat (reports : List AttemptReport) (report : AttemptReport)
    (name : ClassName) : lastWritten (reports ++ [report]) name
      = (report.writtenOf? name).or (lastWritten reports name) :=
  lastSome_concat _ reports report

theorem loadAfter_concat (reports : List AttemptReport) (report : AttemptReport)
    (source : ClassName → Loaded) (name : ClassName) :
    loadAfter (reports ++ [report]) source name =
      match report.writtenOf? name with
      | some bytes => .ok bytes
      | none => loadAfter reports source name := by
  rw [loadAfter, lastWritten_concat]
  cases report.writtenOf? name <;> rfl

theorem lookup_note (grafted : Grafted) (report : AttemptReport) (name : ClassName) :
    (grafted.note report).lookup name
      = (report.writtenOf? name).or (grafted.lookup name) := by
  unfold Grafted.note AttemptReport.writtenOf?
  cases report.encoded? with
  | none => rfl
  | some output =>
    obtain ⟨written, bytes⟩ := output
    by_cases hname : written = name
    · simp [hname]
    · simp [hname, List.lookup_cons, beq_false_of_ne (Ne.symm hname)]

theorem lookup_foldl_note (reports : List AttemptReport) (grafted : Grafted) (name : ClassName) :
    (reports.foldl Grafted.note grafted).lookup name
      = (lastWritten reports name).or (grafted.lookup name) := by
  induction reports using List.reverseRecOn with
  | nil => rfl
  | append_singleton reports report ih =>
    rw [List.foldl_append, List.foldl_cons, List.foldl_nil, lookup_note, ih, lastWritten_concat,
      Option.or_assoc]

theorem load_foldl_note (reports : List AttemptReport) (source : ClassName → Loaded) :
    Grafted.load (reports.foldl Grafted.note []) source = loadAfter reports source := by
  funext name
  rw [Grafted.load, lookup_foldl_note, List.lookup_nil, Option.or_none]
  rfl

/-! ## One donor more -/

namespace Settings

variable {settings : Settings} {source source' : ClassName → Loaded}

/-- The reports of donors that are run one after another, to the last. -/
def chain (settings : Settings) (source : ClassName → Loaded) (donors : List Donor) :
    List AttemptReport :=
  settings.runChain source (fun _ => false) [] donors

theorem runChain_cons (grafted : Grafted) (donor : Donor) (donors : List Donor) :
    settings.runChain source (fun _ => false) grafted (donor :: donors) =
      settings.attempt donor.label donor.bytes (grafted.load source) ::
        settings.runChain source (fun _ => false) (grafted.note
          (settings.attempt donor.label donor.bytes (grafted.load source))) donors := rfl

theorem runChain_append (grafted : Grafted) (donors donors' : List Donor) :
    settings.runChain source (fun _ => false) grafted (donors ++ donors') =
      settings.runChain source (fun _ => false) grafted donors ++
        settings.runChain source (fun _ => false)
          ((settings.runChain source (fun _ => false) grafted donors).foldl Grafted.note grafted)
          donors' := by
  induction donors generalizing grafted with
  | nil => rfl
  | cons donor donors ih =>
    rw [List.cons_append, runChain_cons, runChain_cons, ih, List.cons_append, List.foldl_cons]

/-- The last attempt of a chain loads what the reports before have written. -/
theorem chain_concat (donors : List Donor) (donor : Donor) :
    settings.chain source (donors ++ [donor]) = settings.chain source donors ++
      [settings.attempt donor.label donor.bytes
        (loadAfter (settings.chain source donors) source)] := by
  rw [chain, runChain_append, runChain_cons, load_foldl_note]
  rfl

/-- Two sources that agree on the recipients of the donors give the same reports, after what was
written before and up to the same stop. -/
theorem runChain_congr {stop : AttemptReport → Bool} {donors : List Donor}
    (h : ∀ donor ∈ donors, ∀ name,
      settings.recipientOfBytes? donor.bytes = some name → source' name = source name)
    (grafted : Grafted) : settings.runChain source' stop grafted donors
      = settings.runChain source stop grafted donors := by
  induction donors generalizing grafted with
  | nil => rfl
  | cons donor donors ih =>
    rw [List.forall_mem_cons] at h
    have hreport : settings.attempt donor.label donor.bytes (grafted.load source')
        = settings.attempt donor.label donor.bytes (grafted.load source) := by
      refine attempt_congr fun name hname => ?_
      rw [Grafted.load, Grafted.load, h.1 name hname]
    rw [runChain, runChain, hreport, ih h.2]

theorem chain_congr {donors : List Donor} (h : ∀ donor ∈ donors, ∀ name,
      settings.recipientOfBytes? donor.bytes = some name → source' name = source name) :
    settings.chain source' donors = settings.chain source donors :=
  runChain_congr h []

/-- There is a report for each donor, with its label and its recipient. -/
theorem map_chain (settings : Settings) (source : ClassName → Loaded) (donors : List Donor) :
    (settings.chain source donors).map (fun report => (report.label, report.recipient))
      = donors.map fun donor => (donor.label, settings.recipientOfBytes? donor.bytes) := by
  induction donors using List.reverseRecOn with
  | nil => rfl
  | append_singleton donors donor ih =>
    rw [chain_concat, List.map_append, List.map_append, ih, List.map_singleton, List.map_singleton,
      label_attempt, recipient_attempt]

theorem length_chain (settings : Settings) (source : ClassName → Loaded) (donors : List Donor) :
    (settings.chain source donors).length = donors.length := by
  simpa using congrArg List.length (map_chain settings source donors)

/-- Every report is that of an attempt on the donor at its position. -/
theorem exists_attempt_of_chain {donors : List Donor} {i : Nat} {report : AttemptReport}
    (h : (settings.chain source donors)[i]? = some report) :
    ∃ donor load, donors[i]? = some donor
      ∧ settings.attempt donor.label donor.bytes load = report := by
  induction donors using List.reverseRecOn with
  | nil => cases h
  | append_singleton donors donor ih =>
    have hlength := length_chain settings source donors
    rw [chain_concat] at h
    rcases Nat.lt_trichotomy i donors.length with hlt | rfl | hgt
    · rw [List.getElem?_append_left (hlength ▸ hlt)] at h
      rw [List.getElem?_append_left hlt]
      exact ih h
    · rw [← hlength, List.getElem?_concat_length] at h
      exact ⟨donor, _, List.getElem?_concat_length, Option.some.inj h⟩
    · rw [List.getElem?_eq_none] at h
      · cases h
      · rw [List.length_append, hlength]
        exact hgt

theorem recipient_of_chain {donors : List Donor} {i : Nat} {report : AttemptReport}
    (h : (settings.chain source donors)[i]? = some report) :
    (donors.map fun donor => settings.recipientOfBytes? donor.bytes)[i]?
      = some report.recipient := by
  obtain ⟨donor, load, hdonor, rfl⟩ := exists_attempt_of_chain h
  rw [List.getElem?_map, hdonor, recipient_attempt]
  rfl

/-- What is written is written of the recipient that the report names. -/
theorem writtenOf?_eq_none_of_chain {donors : List Donor} {i : Nat} {report : AttemptReport}
    {name : ClassName} (h : (settings.chain source donors)[i]? = some report)
    (hname : report.recipient ≠ some name) : report.writtenOf? name = none := by
  obtain ⟨donor, load, -, rfl⟩ := exists_attempt_of_chain h
  rw [recipient_attempt] at hname
  exact writtenOf?_attempt_eq_none hname

end Settings

/-! ## Donors left out -/

namespace Settings

variable {settings : Settings} {source source' : ClassName → Loaded} {keep : Nat → Bool}
  {target : Option ClassName}

/-- Two chains side by side, the second with some donors left out and with another source.  If
nothing that was written of the target is left out, and both sources give the same for it, then the
reports on the target are the same, and so is what was last written of it. -/
theorem forall₂_chain_keepAt (hsource : ∀ name, target = some name → source' name = source name)
    (donors : List Donor)
    (hdropped : ∀ i report, keep i = false → (settings.chain source donors)[i]? = some report →
      ∀ name, target = some name → report.writtenOf? name = none) :
    List.Forall₂ (fun report report' => report.recipient = target → report' = report)
        (keepAt keep (settings.chain source donors))
        (settings.chain source' (keepAt keep donors))
      ∧ ∀ name, target = some name →
        lastWritten (settings.chain source' (keepAt keep donors)) name
          = lastWritten (settings.chain source donors) name := by
  -- From the left the induction would have to carry what was written before.
  induction donors using List.reverseRecOn with
  | nil => exact ⟨.nil, fun _ _ => rfl⟩
  | append_singleton donors donor ih =>
    have hlength := length_chain settings source donors
    rw [chain_concat] at hdropped
    obtain ⟨hreports, hwritten⟩ := ih fun i report hi hreport => hdropped i report hi
      ((List.getElem?_append_left (List.getElem?_eq_some_iff.1 hreport).1).trans hreport)
    rw [chain_concat, keepAt_concat, keepAt_concat, hlength]
    by_cases hkeep : keep donors.length = true
    · rw [if_pos hkeep, if_pos hkeep, chain_concat]
      have hlast : settings.recipientOfBytes? donor.bytes = target →
          settings.attempt donor.label donor.bytes
              (loadAfter (settings.chain source' (keepAt keep donors)) source')
            = settings.attempt donor.label donor.bytes
              (loadAfter (settings.chain source donors) source) := by
        intro htarget
        refine attempt_congr fun name hname => ?_
        rw [htarget] at hname
        rw [loadAfter, loadAfter, hwritten name hname, hsource name hname]
      refine ⟨List.rel_append hreports (.cons ?_ .nil), fun name hname => ?_⟩
      · rw [recipient_attempt]
        exact hlast
      · rw [lastWritten_concat, lastWritten_concat, hwritten name hname]
        by_cases htarget : settings.recipientOfBytes? donor.bytes = target
        · rw [hlast htarget]
        · rw [hname] at htarget
          rw [writtenOf?_attempt_eq_none htarget, writtenOf?_attempt_eq_none htarget]
    · rw [if_neg hkeep, if_neg hkeep, List.append_nil, List.append_nil]
      refine ⟨hreports, fun name hname => ?_⟩
      have hnone := hdropped donors.length _ (Bool.eq_false_of_not_eq_true hkeep)
        (hlength ▸ List.getElem?_concat_length) name hname
      rw [lastWritten_concat, hnone, Option.none_or, hwritten name hname]

/-- If all that is kept is on the target, then the kept donors have the reports that they have among
all donors. -/
theorem chain_keepAt (target : Option ClassName) (donors : List Donor)
    (hkept : ∀ i report, keep i = true → (settings.chain source donors)[i]? = some report →
      report.recipient = target)
    (hdropped : ∀ i report, keep i = false → (settings.chain source donors)[i]? = some report →
      ∀ name, target = some name → report.writtenOf? name = none) :
    settings.chain source (keepAt keep donors) = keepAt keep (settings.chain source donors) := by
  have hsource : ∀ name, target = some name → source name = source name := fun _ _ => rfl
  have hsame := (forall₂_chain_keepAt hsource donors hdropped).1
  have htarget : ∀ report ∈ keepAt keep (settings.chain source donors),
      report.recipient = target := by
    intro report hreport
    obtain ⟨i, hi, hkeep⟩ := mem_keepAt_iff.1 hreport
    exact hkept i report hkeep hi
  rw [← List.forall₂_eq_eq_eq]
  have hboth := (List.forall₂_and_left _ _).2 ⟨htarget, hsame⟩
  exact (hboth.imp fun _ _ hreport => hreport.2 hreport.1).flip

end Settings

end AnnotationGraft
