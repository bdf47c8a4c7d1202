import AnnotationGraft.Proofs.Graft.Parallel

/-!
# Batches that stop

A batch that may stop runs its donors one after another.  Up to where it stops it does what the
whole batch does, so its reports are the first ones of the whole batch, up to and including the
first that is a reason to stop: `Settings.runChain_isUpToFirst` for a chain after what was written
before, `Settings.runBatchUntil_isUpToFirst` for a batch, be it taken apart or not.

The donors after that one have no part in it: the reports are those of a batch without them.
-/

namespace AnnotationGraft

/-- A list has what another one has up to and including its first item that passes a test, or all of
it if none does. -/
def IsUpToFirst {α : Type} (test : α → Bool) (items all : List α) : Prop :=
  (∀ x ∈ all, test x = false) ∧ items = all
    ∨ ∃ front x back, all = front ++ x :: back ∧ (∀ y ∈ front, test y = false) ∧ test x = true
      ∧ items = front ++ [x]

namespace IsUpToFirst

variable {α : Type} {test : α → Bool} {x : α} {items all : List α}

theorem cons_of_pos (h : test x = true) (all : List α) : IsUpToFirst test [x] (x :: all) :=
  .inr ⟨[], x, all, rfl, nofun, h, rfl⟩

theorem cons_of_neg (hx : test x = false) (h : IsUpToFirst test items all) :
    IsUpToFirst test (x :: items) (x :: all) := by
  rcases h with ⟨hall, rfl⟩ | ⟨front, y, back, rfl, hfront, hy, rfl⟩
  · exact .inl ⟨List.forall_mem_cons.2 ⟨hx, hall⟩, rfl⟩
  · exact .inr ⟨x :: front, y, back, rfl, List.forall_mem_cons.2 ⟨hx, hfront⟩, hy, rfl⟩

theorem subset (h : IsUpToFirst test items all) : items ⊆ all := by
  rcases h with ⟨-, rfl⟩ | ⟨front, x, back, rfl, -, -, rfl⟩
  · exact List.Subset.refl _
  · exact fun y hy => List.mem_append.2 ((List.mem_append.1 hy).imp_right fun hx =>
      List.mem_cons.2 (.inl (List.mem_singleton.1 hx)))

end IsUpToFirst

namespace Settings

variable {settings : Settings} {source : ClassName → Loaded} {stop : AttemptReport → Bool}

/-- A chain that may stop has the reports of the whole chain, up to where it stops. -/
theorem runChain_isUpToFirst (grafted : Grafted) (donors : List Donor) :
    IsUpToFirst stop (settings.runChain source stop grafted donors)
      (settings.runChain source (fun _ => false) grafted donors) := by
  induction donors generalizing grafted with
  | nil => exact .inl ⟨List.forall_mem_nil _, rfl⟩
  | cons donor donors ih =>
    rw [runChain_cons, runChain]
    cases hstop : stop (settings.attempt donor.label donor.bytes (grafted.load source)) with
    | true => exact IsUpToFirst.cons_of_pos hstop _
    | false => exact (ih _).cons_of_neg hstop

/-- It has the reports of a chain without the donors after that. -/
theorem runChain_eq_take (grafted : Grafted) (donors : List Donor) :
    settings.runChain source stop grafted donors =
      settings.runChain source (fun _ => false) grafted
        (donors.take (settings.runChain source stop grafted donors).length) := by
  induction donors generalizing grafted with
  | nil => rfl
  | cons donor donors ih =>
    rw [runChain]
    cases hstop : stop (settings.attempt donor.label donor.bytes (grafted.load source)) with
    | true => rfl
    | false =>
      simp only [Bool.false_eq_true, if_false]
      rw [List.length_cons, List.take_succ_cons, runChain_cons, ← ih]

/-- A batch that may stop has the reports of the whole batch up to and including the first that is a
reason to stop, or all of them: of the batch as the settings have it run, and of its groups side by
side in any order.  The donors after that have no part in it. -/
theorem runBatchUntil_isUpToFirst (settings : Settings) (source : ClassName → Loaded)
    (stop : AttemptReport → Bool) (donors : List Donor) :
    IsUpToFirst stop (settings.runBatchUntil source stop donors)
        (settings.runBatch source donors)
      ∧ (∀ reports collected, settings.Interleaves source donors (settings.started donors) reports →
        collected.Perm reports →
        IsUpToFirst stop (settings.runBatchUntil source stop donors) (inOrder collected))
      ∧ settings.runBatchUntil source stop donors = settings.runBatch source
        (donors.take (settings.runBatchUntil source stop donors).length) := by
  have hchain : IsUpToFirst stop (settings.runBatchUntil source stop donors)
      (settings.chain source donors) := runChain_isUpToFirst [] donors
  refine ⟨?_, fun reports collected hreports hcollected => ?_, ?_⟩
  · rwa [runBatch_eq_chain]
  · rwa [inOrder_of_interleaves hreports hcollected]
  · rw [runBatch_eq_chain, chain, runBatchUntil]
    exact runChain_eq_take [] donors

/-- The second of four donors fails.  Two reports are given, the first ones of the whole batch, also
when its groups go on side by side and their reports are collected from the last to the first. -/
theorem runBatchUntil_sharedRecipient :
    ∃ reports, shortMarkers.Interleaves twoClasses sharedRecipient
        (shortMarkers.started sharedRecipient) reports
      ∧ reports.reverse.Perm reports
      ∧ IsUpToFirst AttemptReport.isFailed
        (shortMarkers.runBatchUntil twoClasses AttemptReport.isFailed sharedRecipient)
        (inOrder reports.reverse)
      ∧ shortMarkers.runBatchUntil twoClasses AttemptReport.isFailed sharedRecipient
        = shortMarkers.runBatch twoClasses [⟨"first", markedField⟩, ⟨"broken", []⟩] := by
  have hlength : (shortMarkers.runBatchUntil twoClasses AttemptReport.isFailed
      sharedRecipient).length = 2 := by decide +kernel
  obtain ⟨reports, hrun⟩ : ∃ reports, shortMarkers.Interleaves twoClasses sharedRecipient
      (shortMarkers.started sharedRecipient) reports :=
    ⟨_, interleaves_started shortMarkers twoClasses sharedRecipient⟩
  obtain ⟨-, hany, htaken⟩ :=
    runBatchUntil_isUpToFirst shortMarkers twoClasses AttemptReport.isFailed sharedRecipient
  have htake : sharedRecipient.take 2 = [⟨"first", markedField⟩, ⟨"broken", []⟩] := rfl
  rw [hlength, htake] at htaken
  exact ⟨reports, hrun, List.reverse_perm _, hany _ _ hrun (List.reverse_perm _), htaken⟩

end Settings

end AnnotationGraft
