import AnnotationGraft.Proofs.Graft.Chain
import AnnotationGraft.Proofs.Graft.Grouping

/-!
# Groups side by side

A batch may be taken apart into groups of donors, one for each recipient, which go on side by side:
every group has its own memory of what it has written, and any group may take the next step.
`Interleaves` is this, with the reports in the order in which they come.

Whichever group takes the next step, the reports are those of the groups one after another
(`Interleaves.perm`), and a group by itself has the reports that its donors have among all donors
(`runGroup_eq`).  So the reports, put in the order of the donors, are those of one chain:
`inOrder_of_interleaves`.
-/

namespace AnnotationGraft

/-- A group of donors under way. -/
structure GroupRun where
  /-- The positions of the donors that are still to be run. -/
  pending : List Nat
  /-- What the group has written. -/
  grafted : Grafted

namespace Settings

variable (settings : Settings) (source : ClassName → Loaded) (donors : List Donor)

/-- The positions of donors, grouped by recipient. -/
def groups : List (List Nat) :=
  groupByRecipient (donors.map fun donor => settings.recipientOfBytes? donor.bytes)

/-- The groups before their first steps. -/
def started : List GroupRun := (settings.groups donors).map fun group => ⟨group, []⟩

/-- The reports of groups that go on side by side, in the order in which they come.  A step runs the
next donor of one of the groups, which notes what is written. -/
inductive Interleaves : List GroupRun → List (Nat × AttemptReport) → Prop where
  | done {groups : List GroupRun} (h : ∀ group ∈ groups, group.pending = []) :
      Interleaves groups []
  | step (front : List GroupRun) {back : List GroupRun} {position : Nat} {pending : List Nat}
      {grafted : Grafted} {donor : Donor} {report : AttemptReport}
      {reports : List (Nat × AttemptReport)}
      (hdonor : donors[position]? = some donor)
      (hreport : settings.attempt donor.label donor.bytes (grafted.load source) = report)
      (hrest : Interleaves (front ++ ⟨pending, grafted.note report⟩ :: back) reports) :
      Interleaves (front ++ ⟨position :: pending, grafted⟩ :: back) ((position, report) :: reports)

/-- The reports of a group that goes on by itself, each with the position of its donor. -/
def finish (group : GroupRun) : List (Nat × AttemptReport) :=
  group.pending.zip (settings.runChain source (fun _ => false) group.grafted
    (group.pending.filterMap fun position => donors[position]?))

variable {settings source donors} {groups : List GroupRun} {reports : List (Nat × AttemptReport)}

theorem finish_cons {position : Nat} {pending : List Nat} {grafted : Grafted} {donor : Donor}
    (hdonor : donors[position]? = some donor) :
    settings.finish source donors ⟨position :: pending, grafted⟩ =
      (position, settings.attempt donor.label donor.bytes (grafted.load source)) ::
        settings.finish source donors ⟨pending, grafted.note
          (settings.attempt donor.label donor.bytes (grafted.load source))⟩ := by
  rw [finish, List.filterMap_cons_some hdonor, runChain_cons]
  rfl

/-! ## Any order of steps -/

/-- Whichever group takes the next step, the same reports come. -/
theorem Interleaves.perm (h : settings.Interleaves source donors groups reports) :
    reports.Perm (groups.flatMap (settings.finish source donors)) := by
  induction h with
  | @done groups h =>
    have hnone : groups.flatMap (settings.finish source donors) = [] := by
      rw [List.flatMap_eq_nil_iff]
      intro group hgroup
      rw [finish, h group hgroup]
      rfl
    rw [hnone]
  | @step front back position pending grafted donor report reports hdonor hreport _ ih =>
    subst hreport
    rw [List.flatMap_append, List.flatMap_cons] at ih ⊢
    rw [finish_cons hdonor, List.cons_append]
    exact (ih.cons _).trans List.perm_middle.symm

/-- A group that has ended takes no more steps. -/
theorem Interleaves.cons_ended (h : settings.Interleaves source donors groups reports)
    (grafted : Grafted) : settings.Interleaves source donors (⟨[], grafted⟩ :: groups) reports := by
  induction h with
  | done h =>
    refine .done fun group hgroup => ?_
    rcases List.mem_cons.1 hgroup with rfl | hgroup
    · rfl
    · exact h group hgroup
  | @step front back _ _ _ _ _ _ hdonor hreport _ ih =>
    exact .step (_ :: front) hdonor hreport ih

/-- One of the orders is that of the groups one after another. -/
theorem interleaves_finish
    (h : ∀ group ∈ groups, ∀ position ∈ group.pending, position < donors.length) :
    settings.Interleaves source donors groups (groups.flatMap (settings.finish source donors)) := by
  induction groups with
  | nil => exact .done nofun
  | cons group groups ih =>
    have hgroups := ih fun g hg => h g (List.mem_cons_of_mem _ hg)
    obtain ⟨pending, grafted⟩ := group
    have hpending : ∀ position ∈ pending, position < donors.length := h _ List.mem_cons_self
    clear h
    -- The first group takes all its steps before the others take any.
    induction pending generalizing grafted with
    | nil => exact hgroups.cons_ended grafted
    | cons position pending ihp =>
      have hdonor := List.getElem?_eq_getElem (hpending position List.mem_cons_self)
      rw [List.flatMap_cons, finish_cons hdonor]
      exact .step [] hdonor rfl
        (ihp _ fun p hp => hpending p (List.mem_cons_of_mem _ hp))

/-! ## A group among all donors -/

/-- A group by itself has the reports that its donors have among all donors. -/
theorem runGroup_eq {group : List Nat} (h : group ∈ settings.groups donors) :
    settings.runGroup source donors group
      = group.filterMap fun i => (settings.chain source donors)[i]?.map fun report =>
          (i, report) := by
  obtain ⟨target, keep, rfl, hkept, hdropped⟩ := exists_of_mem_groupByRecipient h
  have hchain : settings.chain source (keepAt keep donors)
      = keepAt keep (settings.chain source donors) := by
    refine chain_keepAt target donors ?_ ?_
    · intro i report hi hreport
      exact Option.some.inj ((recipient_of_chain hreport).symm.trans (hkept i hi))
    · intro i report hi hreport name hname
      refine writtenOf?_eq_none_of_chain hreport fun hrecipient => ?_
      exact hdropped i hi name hname (by rw [recipient_of_chain hreport, hrecipient, hname])
  have hlength := length_chain settings source donors
  rw [List.length_map, runGroup, filterMap_getElem?_filter_range, ← chain, hchain, ← hlength,
    zip_keepAt]

/-- The reports of all groups are those of all donors. -/
theorem perm_flatMap_runGroup (settings : Settings) (source : ClassName → Loaded)
    (donors : List Donor) :
    ((settings.groups donors).flatMap (settings.runGroup source donors)).Perm
      (numbered (settings.chain source donors)) := by
  have hlength := length_chain settings source donors
  have hperm := (perm_flatten_groupByRecipient
    (donors.map fun donor => settings.recipientOfBytes? donor.bytes)).filterMap
      fun i => (settings.chain source donors)[i]?.map fun report => (i, report)
  rw [List.length_map, ← hlength, filterMap_range_eq_numbered, List.filterMap_flatten,
    ← List.flatMap_def] at hperm
  rwa [List.flatMap_congr fun group hgroup => runGroup_eq hgroup]

/-! ## Batches -/

/-- Whatever the order in which groups take their steps and reports are collected, the reports in
the order of the donors are those of one chain. -/
theorem inOrder_of_interleaves
    (h : settings.Interleaves source donors (settings.started donors) reports)
    {collected : List (Nat × AttemptReport)} (hcollected : collected.Perm reports) :
    inOrder collected = settings.chain source donors := by
  refine inOrder_of_perm ((hcollected.trans h.perm).trans ?_)
  rw [started, List.flatMap_map]
  exact perm_flatMap_runGroup settings source donors

/-- A batch that is taken apart runs its groups in one of the orders. -/
theorem interleaves_started (settings : Settings) (source : ClassName → Loaded)
    (donors : List Donor) : settings.Interleaves source donors (settings.started donors)
      ((settings.groups donors).flatMap (settings.runGroup source donors)) := by
  have hpositions : ∀ run ∈ settings.started donors, ∀ position ∈ run.pending,
      position < donors.length := by
    intro run hrun position hposition
    obtain ⟨group, hgroup, rfl⟩ := List.mem_map.1 hrun
    have hmem := (perm_flatten_groupByRecipient _).mem_iff.1
      (List.mem_flatten.2 ⟨group, hgroup, hposition⟩)
    rwa [List.mem_range, List.length_map] at hmem
  have hrun : settings.Interleaves source donors (settings.started donors)
      ((settings.started donors).flatMap (settings.finish source donors)) :=
    interleaves_finish hpositions
  rwa [started, List.flatMap_map] at hrun

/-- Taken apart or not, a batch has the reports of one chain. -/
theorem runBatch_eq_chain (settings : Settings) (source : ClassName → Loaded)
    (donors : List Donor) : settings.runBatch source donors = settings.chain source donors := by
  unfold runBatch
  split
  · exact inOrder_of_interleaves (interleaves_started settings source donors) (.refl _)
  · rfl

/-! ## Attempts under both settings -/

section Irrelevance

variable (settings : Settings) (b : Bool)

theorem fuseAll_parallel (done : FusionReport) (pairs : List Pairing) :
    ({ settings with parallel := b } : Settings).fuseAll done pairs
      = settings.fuseAll done pairs := by
  induction pairs generalizing done with
  | nil => rfl
  | cons pair pairs ih => exact bind_congr fun report => ih (done ++ report)

theorem fuseMatched_parallel (donor recipient : ClassFile) (request : GraftRequest)
    (pairs : List Pairing) :
    ({ settings with parallel := b } : Settings).fuseMatched donor request pairs recipient
      = settings.fuseMatched donor request pairs recipient := by
  unfold fuseMatched applyFusion
  simp only [fuseAll_parallel]
  rfl

/-- An attempt does not depend on whether batches are taken apart. -/
theorem attempt_parallel (label : String) (donorBytes : Bytes) (load : ClassName → Loaded) :
    ({ settings with parallel := b } : Settings).attempt label donorBytes load
      = settings.attempt label donorBytes load := by
  have hcomplete : ∀ awaiting : Awaiting,
      awaiting.complete { settings with parallel := b } = awaiting.complete settings := by
    intro awaiting
    funext loaded
    unfold Awaiting.complete Awaiting.graftedBytes
    simp only [fuseMatched_parallel]
    rfl
  unfold attempt
  simp only [hcomplete]
  rfl

theorem chain_parallel (source : ClassName → Loaded) (donors : List Donor) :
    ({ settings with parallel := b } : Settings).chain source donors
      = settings.chain source donors := by
  induction donors using List.reverseRecOn with
  | nil => rfl
  | append_singleton donors donor ih => rw [chain_concat, chain_concat, ih, attempt_parallel]

end Irrelevance

/-- A batch that is taken apart has the reports of one that is not, whatever the order in which its
groups take their steps and its reports are collected. -/
theorem runBatch_parallel (settings : Settings) (source : ClassName → Loaded)
    (donors : List Donor) :
    ({ settings with parallel := true } : Settings).runBatch source donors
        = ({ settings with parallel := false } : Settings).runBatch source donors
      ∧ ∀ reports collected, settings.Interleaves source donors (settings.started donors) reports →
        collected.Perm reports →
        inOrder collected
          = ({ settings with parallel := false } : Settings).runBatch source donors := by
  have hparallel : ∀ b, ({ settings with parallel := b } : Settings).runBatch source donors
      = settings.chain source donors := by
    intro b
    rw [runBatch_eq_chain, chain_parallel]
  refine ⟨by rw [hparallel, hparallel], fun reports collected hreports hcollected => ?_⟩
  rw [hparallel, inOrder_of_interleaves hreports hcollected]

/-- A donor for the class `R`.  Its field `x` carries the fuse marker and a visible `LB;`, and the
class itself the fuse marker and a visible `LC;`. -/
def markedClass : Bytes :=
  [202, 254, 186, 190, 0, 0, 0, 52, 0, 11, 1, 0, 1, 86, 7, 0, 1, 1, 0, 1, 120, 1, 0, 1, 73, 1, 0, 3,
    76, 70, 59, 1, 0, 3, 76, 66, 59, 1, 0, 25, 82, 117, 110, 116, 105, 109, 101, 86, 105, 115, 105,
    98, 108, 101, 65, 110, 110, 111, 116, 97, 116, 105, 111, 110, 115, 1, 0, 3, 76, 82, 59, 1, 0, 5,
    118, 97, 108, 117, 101, 1, 0, 3, 76, 67, 59, 0, 33, 0, 2, 0, 0, 0, 0, 0, 1, 0, 0, 0, 3, 0, 4, 0,
    1, 0, 7, 0, 0, 0, 10, 0, 2, 0, 5, 0, 0, 0, 6, 0, 0, 0, 0, 0, 1, 0, 7, 0, 0, 0, 19, 0, 3, 0, 8,
    0, 1, 0, 9, 99, 0, 8, 0, 5, 0, 0, 0, 10, 0, 0]

/-- A donor for the class `S`.  Its field `x` carries the fuse marker and a visible `LA;`. -/
def foreignField : Bytes :=
  [202, 254, 186, 190, 0, 0, 0, 52, 0, 11, 1, 0, 1, 85, 7, 0, 1, 1, 0, 1, 120, 1, 0, 1, 73, 1, 0, 3,
    76, 70, 59, 1, 0, 3, 76, 65, 59, 1, 0, 25, 82, 117, 110, 116, 105, 109, 101, 86, 105, 115, 105,
    98, 108, 101, 65, 110, 110, 111, 116, 97, 116, 105, 111, 110, 115, 1, 0, 3, 76, 82, 59, 1, 0, 5,
    118, 97, 108, 117, 101, 1, 0, 3, 76, 83, 59, 0, 33, 0, 2, 0, 0, 0, 0, 0, 1, 0, 0, 0, 3, 0, 4, 0,
    1, 0, 7, 0, 0, 0, 10, 0, 2, 0, 5, 0, 0, 0, 6, 0, 0, 0, 0, 0, 1, 0, 7, 0, 0, 0, 11, 0, 1, 0, 8,
    0, 1, 0, 9, 99, 0, 10]

/-- The class `S`, with a field `x`. -/
def bareField : Bytes :=
  [202, 254, 186, 190, 0, 0, 0, 52, 0, 5, 1, 0, 1, 83, 7, 0, 1, 1, 0, 1, 120, 1, 0, 1, 73, 0, 33, 0,
    2, 0, 0, 0, 0, 0, 1, 0, 0, 0, 3, 0, 4, 0, 0, 0, 0, 0, 0]

/-- Two donors for one recipient, and between them bytes that are no class and a donor for another
recipient. -/
def sharedRecipient : List Donor :=
  [⟨"first", markedField⟩, ⟨"broken", []⟩, ⟨"other", foreignField⟩, ⟨"second", markedClass⟩]

/-- A source of the classes `R` and `S`. -/
def twoClasses (name : ClassName) : Loaded :=
  if name.internal = "R" then .ok plainField
  else if name.internal = "S" then .ok bareField
  else .error ["no class file"]

/-- The groups of the other donors go on between the two donors that share a recipient, and the
reports are collected from the last to the first. -/
theorem runBatch_sharedRecipient :
    ({ shortMarkers with parallel := true } : Settings).runBatch twoClasses sharedRecipient
        = ({ shortMarkers with parallel := false } : Settings).runBatch twoClasses sharedRecipient
      ∧ ∃ reports, shortMarkers.Interleaves twoClasses sharedRecipient
          (shortMarkers.started sharedRecipient) reports
        ∧ reports.reverse.Perm reports
        ∧ inOrder reports.reverse = ({ shortMarkers with parallel := false } : Settings).runBatch
          twoClasses sharedRecipient := by
  have hstarted : shortMarkers.started sharedRecipient = [⟨[0, 3], []⟩, ⟨[1], []⟩, ⟨[2], []⟩] := by
    have hgroups : shortMarkers.groups sharedRecipient = [[0, 3], [1], [2]] := by decide +kernel
    rw [started, hgroups]
    rfl
  have hrun : ∃ reports, shortMarkers.Interleaves twoClasses sharedRecipient
      (shortMarkers.started sharedRecipient) reports := by
    rw [hstarted]
    refine ⟨_, .step [⟨[0, 3], []⟩, ⟨[1], []⟩] rfl rfl <| .step [] rfl rfl <|
      .step [⟨[3], _⟩] rfl rfl <| .step [] rfl rfl <| .done ?_⟩
    simp
  obtain ⟨reports, hreports⟩ := hrun
  obtain ⟨hsame, hany⟩ := runBatch_parallel shortMarkers twoClasses sharedRecipient
  exact ⟨hsame, reports, hreports, List.reverse_perm _, hany _ _ hreports (List.reverse_perm _)⟩

end Settings

end AnnotationGraft
