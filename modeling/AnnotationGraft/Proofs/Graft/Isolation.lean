import AnnotationGraft.Proofs.Graft.Parallel

/-!
# Donors of a batch by themselves

The report of a donor depends on the donors before it only through what they have written of its
recipient.  A donor that has written nothing, or that names another recipient, may be left out, and
the source may change its mind about every other class: `runBatch_isolated`.
-/

namespace AnnotationGraft

theorem AttemptReport.writtenOf?_of_encoded?_eq_none {report : AttemptReport}
    (h : report.encoded? = none) (name : ClassName) : report.writtenOf? name = none := by
  rw [writtenOf?, h]

namespace Settings

variable {settings : Settings} {source source' : ClassName → Loaded} {donors : List Donor}
  {keep : Nat → Bool} {i : Nat} {own : AttemptReport}

/-- A report stays the same with some donors left out and with another source, if nothing that is
left out has written its recipient, and both sources give the same for its recipient. -/
theorem getElem?_chain_keepAt (hown : (settings.chain source donors)[i]? = some own)
    (hkeep : keep i = true)
    (hdropped : ∀ j report, keep j = false → (settings.chain source donors)[j]? = some report →
      report.encoded? = none ∨ report.recipient ≠ own.recipient)
    (hsource : ∀ name, own.recipient = some name → source' name = source name) :
    (settings.chain source' (keepAt keep donors))[Nat.count (fun j => keep j = true) i]?
      = some own := by
  have hwritten : ∀ j report, keep j = false → (settings.chain source donors)[j]? = some report →
      ∀ name, own.recipient = some name → report.writtenOf? name = none := by
    intro j report hj hreport name hname
    rcases hdropped j report hj hreport with hnone | hother
    · exact AttemptReport.writtenOf?_of_encoded?_eq_none hnone name
    · exact writtenOf?_eq_none_of_chain hreport (hname ▸ hother)
  have hsame := (forall₂_chain_keepAt hsource donors hwritten).1
  obtain ⟨hlt, hget⟩ := List.getElem?_eq_some_iff.1
    ((getElem?_keepAt hkeep (settings.chain source donors)).trans hown)
  have hlt' := hsame.length_eq ▸ hlt
  have heq := hsame.get hlt hlt'
  simp only [List.get_eq_getElem, hget] at heq
  rw [List.getElem?_eq_getElem hlt', heq trivial]

/-- A batch has a report for each donor, in order, with the label and the recipient of the donor.  A
report stays the same without any of the donors that have written nothing or that name another
recipient, and with any source that gives the same for its recipient. -/
theorem runBatch_isolated (settings : Settings) (source : ClassName → Loaded)
    (donors : List Donor) :
    (settings.runBatch source donors).map (fun report => (report.label, report.recipient))
        = donors.map (fun donor => (donor.label, settings.recipientOfBytes? donor.bytes))
      ∧ ∀ i own, (settings.runBatch source donors)[i]? = some own →
        (∀ keep : Nat → Bool, keep i = true →
          (∀ j report, keep j = false → (settings.runBatch source donors)[j]? = some report →
            report.encoded? = none ∨ report.recipient ≠ own.recipient) →
          (settings.runBatch source (keepAt keep donors))[Nat.count (fun j => keep j = true) i]?
            = some own)
        ∧ ∀ source' : ClassName → Loaded,
          (∀ name, own.recipient = some name → source' name = source name) →
          (settings.runBatch source' donors)[i]? = some own := by
  simp only [runBatch_eq_chain]
  refine ⟨map_chain settings source donors,
    fun i own hown => ⟨fun keep hkeep hdropped => ?_, fun source' h => ?_⟩⟩
  · have hsource : ∀ name, own.recipient = some name → source name = source name :=
      fun _ _ => rfl
    exact getElem?_chain_keepAt hown hkeep hdropped hsource
  · have hnone : ∀ j report, (fun _ : Nat => true) j = false →
        (settings.chain source donors)[j]? = some report →
        report.encoded? = none ∨ report.recipient ≠ own.recipient := fun _ _ hj => nomatch hj
    have hall := getElem?_chain_keepAt hown rfl hnone h
    rwa [keepAt_true, Nat.count_of_forall fun _ _ => rfl] at hall

/-- The second donor of a shared recipient has the same report without the donors between, and with
a source that has lost the other recipient. -/
theorem runBatch_sharedRecipient_isolated :
    ∃ own, (shortMarkers.runBatch twoClasses sharedRecipient)[3]? = some own
      ∧ (shortMarkers.runBatch twoClasses [⟨"first", markedField⟩, ⟨"second", markedClass⟩])[1]?
        = some own
      ∧ (shortMarkers.runBatch (fun name => if name = ⟨"S"⟩ then .error [] else twoClasses name)
          sharedRecipient)[3]? = some own := by
  have hrecipients : sharedRecipient.map (fun donor => shortMarkers.recipientOfBytes? donor.bytes)
      = [some ⟨"R"⟩, none, some ⟨"S"⟩, some ⟨"R"⟩] := by decide +kernel
  have hrecipient : ∀ (j : Nat) (report : AttemptReport),
      (shortMarkers.runBatch twoClasses sharedRecipient)[j]? = some report →
      [some ⟨"R"⟩, none, some ⟨"S"⟩, some ⟨"R"⟩][j]? = some report.recipient := by
    intro j report hreport
    rw [runBatch_eq_chain] at hreport
    exact hrecipients ▸ recipient_of_chain hreport
  have hlength : (shortMarkers.runBatch twoClasses sharedRecipient).length = 4 := by
    rw [runBatch_eq_chain, length_chain]
    rfl
  have hown := List.getElem?_eq_getElem (hlength ▸ (by decide : 3 < 4))
  obtain ⟨hkept, hsource⟩ :=
    (runBatch_isolated shortMarkers twoClasses sharedRecipient).2 3 _ hown
  have htarget := Option.some.inj (hrecipient 3 _ hown)
  refine ⟨_, hown, hkept (fun j => j = 0 || j = 3) rfl ?_, hsource _ ?_⟩
  · intro j report hdropped hreport
    rw [← htarget]
    match j, hrecipient j report hreport with
    | 1, hnone => exact .inr (Option.some.inj hnone ▸ by decide)
    | 2, hother => exact .inr (Option.some.inj hother ▸ by decide)
    | _ + 4, hend => cases hend
  · intro name hname
    have hne : name ≠ ⟨"S"⟩ := by
      rintro rfl
      exact absurd (htarget.trans hname) (by decide)
    exact if_neg hne

end Settings

end AnnotationGraft
