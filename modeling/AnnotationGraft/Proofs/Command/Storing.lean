import AnnotationGraft.Command.ClassTree
import AnnotationGraft.Proofs.FileSystem.Laws
import AnnotationGraft.Proofs.Graft.Chain

/-!
# Storing classes

On a lawful file system, storing a class gives its file the bytes of the class, and no other file is
another one afterwards: `IsLawful.writes_of_store`.  So storing what reports have written, one after
another, leaves in each file what was written last of the classes whose file it is, and leaves every
other file alone: `IsLawful.storesLast_of_emit`.  The induction is on what there is to store, and
the invariant says of each place what the last output for this place is.

Links may lead the paths of two classes to one file.  Then the file has what was written last of
either, so that only a class whose file is its own is sure to have it in the end
(`StoresLast.written`).
-/

namespace AnnotationGraft

theorem isSome_lastWritten {reports : List AttemptReport} {report : AttemptReport}
    {name : ClassName} {bytes : Bytes} (hreport : report ∈ reports)
    (hencoded : report.encoded? = some (name, bytes)) : (lastWritten reports name).isSome := by
  refine isSome_lastSome hreport ?_
  rw [AttemptReport.writtenOf?, hencoded]
  simp

variable {σ π : Type} [DecidableEq π]

namespace FileView

variable (view : FileView σ π)

/-- What storing a class leaves at a place, if the path of the class leads there. -/
def storedAt (state : σ) (target : String) (place : π) (output : ClassName × Bytes) :
    Option Bytes :=
  if view.placeOf? state (Path.join target output.1.filePath) = some place then some output.2
  else none

/-- Classes were stored: each has its file, and every file has what was stored there last, or else
what it had. -/
structure StoresAll (before : σ) (target : String) (outputs : List (ClassName × Bytes))
    (after : σ) : Prop where
  paths : view.KeepsPaths before after
  reached : ∀ output ∈ outputs, ∃ place,
    view.placeOf? after (Path.join target output.1.filePath) = some place
  contentAt? : ∀ place, view.contentAt? after place
    = (lastSome (view.storedAt after target place) outputs).or (view.contentAt? before place)

/-- What reports have written was stored below a directory. -/
structure StoresLast (before : σ) (target : String) (reports : List AttemptReport)
    (after : σ) : Prop where
  paths : view.KeepsPaths before after
  /-- The path of a class that was written leads to a file. -/
  reached : ∀ name bytes, lastWritten reports name = some bytes →
    ∃ place, view.placeOf? after (Path.join target name.filePath) = some place
  /-- A file has what was written last of the classes whose file it is, or else what it had. -/
  contentAt? : ∀ place, view.contentAt? after place
    = (lastSome (fun report => report.encoded?.bind (view.storedAt after target place)) reports).or
        (view.contentAt? before place)
  /-- The file of a class has what was written last of the class, unless it is the file of another
  class too. -/
  written : ∀ name bytes place, lastWritten reports name = some bytes →
    view.placeOf? after (Path.join target name.filePath) = some place →
    (∀ other, (lastWritten reports other).isSome →
      view.placeOf? after (Path.join target other.filePath) = some place → other = name) →
    view.contentAt? after place = some bytes
  /-- A file that is another one is the file of a class that was written. -/
  untouched : ∀ place, view.contentAt? after place ≠ view.contentAt? before place →
    ∃ name bytes, lastWritten reports name = some bytes
      ∧ view.placeOf? after (Path.join target name.filePath) = some place

variable {view} {before between after : σ} {target : String}
  {outputs : List (ClassName × Bytes)} {reports : List AttemptReport} {name : ClassName}
  {bytes : Bytes}

/-! ## One class after another -/

theorem storesAll_nil (state : σ) (target : String) : view.StoresAll state target [] state :=
  ⟨.refl state, List.forall_mem_nil _, fun _ => rfl⟩

/-- One class is stored before the others. -/
theorem Writes.storesAll (h : view.Writes before (Path.join target name.filePath) bytes between)
    (hrest : view.StoresAll between target outputs after) :
    view.StoresAll before target ((name, bytes) :: outputs) after := by
  obtain ⟨place, hbetween, hcontent, hothers⟩ := h.written
  have hplace := hrest.paths _ _ hbetween
  refine ⟨h.paths.trans hrest.paths, ?_, fun other => ?_⟩
  · rw [List.forall_mem_cons]
    exact ⟨⟨place, hplace⟩, hrest.reached⟩
  · rw [hrest.contentAt?, lastSome_cons, Option.or_assoc, storedAt, hplace]
    congr 1
    by_cases hother : other = place
    · rw [hother, if_pos rfl, hcontent]
      rfl
    · rw [if_neg fun hsame => hother (Option.some.inj hsame).symm, hothers other hother]
      rfl

/-- What a class that is stored leaves at a place is what was written of it, if no other one is
stored there. -/
theorem lastSome_storedAt {place : π}
    (hplace : view.placeOf? after (Path.join target name.filePath) = some place)
    (halone : ∀ other, (lastWritten reports other).isSome →
      view.placeOf? after (Path.join target other.filePath) = some place → other = name) :
    lastSome (fun report => report.encoded?.bind (view.storedAt after target place)) reports
      = lastWritten reports name := by
  refine lastSome_congr fun report hreport => ?_
  rw [AttemptReport.writtenOf?]
  cases hencoded : report.encoded? with
  | none => rfl
  | some output =>
    obtain ⟨other, written⟩ := output
    have hother := isSome_lastWritten hreport hencoded
    rw [Option.bind_some, storedAt]
    exact if_congr ⟨halone other hother, fun hsame => by rw [hsame, hplace]⟩ rfl rfl

/-- Where a file is another one, a class was stored. -/
theorem exists_written_of_ne {place : π}
    (hcontent : view.contentAt? after place
      = (lastSome (fun report => report.encoded?.bind (view.storedAt after target place))
          reports).or (view.contentAt? before place))
    (hdiffers : view.contentAt? after place ≠ view.contentAt? before place) :
    ∃ name bytes, lastWritten reports name = some bytes
      ∧ view.placeOf? after (Path.join target name.filePath) = some place := by
  cases hlast : lastSome (fun report => report.encoded?.bind (view.storedAt after target place))
      reports with
  | none =>
    rw [hlast, Option.none_or] at hcontent
    exact absurd hcontent hdiffers
  | some stored =>
    obtain ⟨report, hreport, hstored⟩ := exists_mem_of_lastSome hlast
    obtain ⟨⟨name, bytes⟩, hencoded, hplace⟩ := Option.bind_eq_some_iff.1 hstored
    rw [storedAt] at hplace
    split at hplace
    · next hsame =>
      obtain ⟨last, hlast⟩ := Option.isSome_iff_exists.1 (isSome_lastWritten hreport hencoded)
      exact ⟨name, last, hlast, hsame⟩
    · cases hplace

/-- The classes that reports have written are in their files, each as it was written last. -/
theorem StoresAll.storesLast
    (h : view.StoresAll before target (reports.filterMap AttemptReport.encoded?) after) :
    view.StoresLast before target reports after := by
  have hcontent : ∀ place, view.contentAt? after place
      = (lastSome (fun report => report.encoded?.bind (view.storedAt after target place))
          reports).or (view.contentAt? before place) := by
    intro place
    rw [h.contentAt?, lastSome_filterMap]
  refine ⟨h.paths, fun name bytes hlast => ?_, hcontent,
    fun name bytes place hlast hplace halone => ?_,
    fun place => exists_written_of_ne (hcontent place)⟩
  · obtain ⟨report, hreport, hwritten⟩ := exists_mem_of_lastSome hlast
    obtain ⟨fusion, houtcome⟩ := AttemptReport.writtenOf?_eq_some_iff.1 hwritten
    refine h.reached (name, bytes) (List.mem_filterMap.2 ⟨report, hreport, ?_⟩)
    rw [AttemptReport.encoded?, houtcome]
  · rw [hcontent, lastSome_storedAt hplace halone, hlast]
    rfl

end FileView

/-! ## Storing on a lawful file system -/

namespace FileSystem

variable {fileSystem : FileSystem (StateM σ)} {view : FileView σ π} {before after : σ}
  {target : String} {outputs : List (ClassName × Bytes)} {reports : List AttemptReport}

/-- The file system stores every class that reports have written: no attempt at storing fails. -/
def StoresEvery (fileSystem : FileSystem (StateM σ)) (state : σ) (target : String)
    (reports : List AttemptReport) : Prop :=
  ∀ e, ((emit (ClassTree.store ⟨fileSystem, target⟩) reports).run state).1 ≠ .error e

namespace IsLawful

variable (laws : fileSystem.IsLawful view)

include laws

omit [DecidableEq π] in
theorem writes_of_store {name : ClassName} {bytes : Bytes}
    (h : (ClassTree.store ⟨fileSystem, target⟩ name bytes).run before = (.ok (), after)) :
    view.Writes before (Path.join target name.filePath) bytes after := by
  rw [ClassTree.store, ClassTree.pathOf] at h
  generalize Path.join target name.filePath = path at h ⊢
  rcases hcreate : (fileSystem.createDirectories (Path.parent path)).run before
    with ⟨created, between⟩
  have hkeeps := laws.keepsFiles_createDirectories (Path.parent path) before
  rw [hcreate] at hkeeps
  rw [run_bind_eq hcreate] at h
  cases created with
  | error e => cases h
  | ok u =>
    rcases hwrite : (fileSystem.write path bytes).run between with ⟨written, after'⟩
    rw [run_bind_eq hwrite] at h
    cases written with
    | error e => cases h
    | ok u =>
      cases h
      exact hkeeps.writes (laws.write _ _ _ _ hwrite)

/-- Storing that never fails stores everything, and counts it. -/
theorem storesAll_of_emitFrom {count n : Nat}
    (h : (emitFrom (ClassTree.store ⟨fileSystem, target⟩) count outputs).run before
      = (.ok n, after)) :
    n = count + outputs.length ∧ view.StoresAll before target outputs after := by
  induction outputs generalizing count before with
  | nil =>
    cases h
    exact ⟨rfl, FileView.storesAll_nil _ target⟩
  | cons output outputs ih =>
    obtain ⟨name, bytes⟩ := output
    rw [emitFrom] at h
    rcases hstore : (ClassTree.store ⟨fileSystem, target⟩ name bytes).run before
      with ⟨accepted, between⟩
    rw [run_bind_eq hstore] at h
    cases accepted with
    | error causes => cases h
    | ok u =>
      obtain ⟨hcount, hrest⟩ := ih h
      refine ⟨?_, (laws.writes_of_store hstore).storesAll hrest⟩
      rw [hcount, List.length_cons]
      omega

theorem storesLast_of_emit {n : Nat}
    (h : (emit (ClassTree.store ⟨fileSystem, target⟩) reports).run before = (.ok n, after)) :
    n = (BatchSummary.of reports).encoded ∧ view.StoresLast before target reports after := by
  obtain ⟨hcount, hstored⟩ := laws.storesAll_of_emitFrom h
  refine ⟨?_, hstored.storesLast⟩
  rw [hcount, Nat.zero_add]
  exact List.length_filterMap_eq_countP

end IsLawful

end FileSystem

end AnnotationGraft
