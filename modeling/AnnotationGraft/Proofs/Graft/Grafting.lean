import AnnotationGraft.Proofs.Graft.Verification

/-!
# Grafting

An attempt ends in bytes exactly when each of its steps succeeds (`outcome_attempt_eq_encoded_iff`).
With verification on, these bytes are those of a graft of the recipient (`isGraftOf_of_graft`), and
grafting onto them once more gives the same bytes (`graft_of_graft`).
-/

namespace AnnotationGraft

variable {settings : Settings} {donor recipient : ClassFile} {donorBytes recipientBytes : Bytes}
  {bytes : Bytes} {name : ClassName} {report : FusionReport} {pairs : List Pairing}

/-! ## The steps of an attempt -/

theorem GraftRequest.matchOnto_eq_ok_iff {request : GraftRequest} :
    request.matchOnto recipient = .ok pairs ↔
      recipient.name = request.recipient ∧ recipient.matchAll request.members = .ok pairs := by
  unfold matchOnto
  by_cases hname : recipient.name = request.recipient
  · rw [if_neg (not_not.2 hname)]
    cases hmatch : recipient.matchAll request.members with
    | error mismatches =>
      constructor
      · exact nofun
      · exact fun h => nomatch h.2
    | ok found =>
      constructor
      · intro h
        cases h
        exact ⟨hname, rfl⟩
      · intro h
        cases h.2
        rfl
  · rw [if_pos hname]
    constructor
    · intro h
      cases hmatch : recipient.matchAll request.members <;> rw [hmatch] at h <;> cases h
    · exact fun h => absurd h.1 hname

theorem Settings.request_eq_ok_iff {request : GraftRequest} :
    settings.request donor = .ok request ↔
      settings.recipientOf donor = .ok request.recipient
        ∧ request.members = settings.fuseMembers donor
        ∧ request.classLevel = settings.fusesClass donor := by
  unfold Settings.request
  rw [except_bind_eq_ok_iff]
  constructor
  · intro h
    obtain ⟨name, hname, hrequest⟩ := h
    cases hrequest
    exact ⟨hname, rfl, rfl⟩
  · intro h
    obtain ⟨hname, hmembers, hclass⟩ := h
    refine ⟨request.recipient, hname, ?_⟩
    rw [← hmembers, ← hclass]
    rfl

theorem Settings.fuseMatched_eq_ok_iff {request : GraftRequest} {grafted : ClassFile} :
    settings.fuseMatched donor request pairs recipient = .ok (grafted, report) ↔
      settings.applyFusion donor pairs request.classLevel recipient = .ok report grafted := by
  unfold fuseMatched EStateM.run
  cases settings.applyFusion donor pairs request.classLevel recipient with
  | error fault left => exact ⟨nofun, nofun⟩
  | ok fusion left => simp [and_comm]

namespace Awaiting

variable {attempt : Awaiting} {loaded : Loaded}

theorem matchLoaded_eq_ok_iff :
    attempt.matchLoaded loaded = .ok (recipient, pairs) ↔
      ∃ bytes, loaded = .ok bytes ∧ ClassFile.decode bytes = .ok recipient
        ∧ attempt.request.matchOnto recipient = .ok pairs := by
  unfold matchLoaded
  cases loaded with
  | error causes =>
    constructor
    · exact nofun
    · exact fun h => nomatch h
  | ok bytes =>
    simp only [Except.ok.injEq, exists_eq_left']
    cases hdecode : ClassFile.decode bytes with
    | error e =>
      constructor
      · exact nofun
      · exact fun h => nomatch h.1
    | ok found =>
      simp only [except_bind_eq_ok_iff]
      constructor
      · intro h
        obtain ⟨pairs', hmatch, hpure⟩ := h
        cases hpure
        exact ⟨rfl, hmatch⟩
      · intro h
        obtain ⟨hfound, hmatch⟩ := h
        cases hfound
        exact ⟨pairs, hmatch, rfl⟩

theorem graftedBytes_eq_ok_iff :
    attempt.graftedBytes settings recipient pairs = .ok (report, bytes) ↔
      ∃ grafted, settings.applyFusion attempt.donor pairs attempt.request.classLevel recipient
          = .ok report grafted ∧ grafted.encode = .ok bytes := by
  unfold graftedBytes
  rw [except_bind_eq_ok_iff]
  constructor
  · intro h
    obtain ⟨⟨grafted, fusion⟩, hfused, hbytes⟩ := h
    simp only at hbytes
    cases hencode : grafted.encode with
    | error e =>
      rw [hencode] at hbytes
      cases hbytes
    | ok written =>
      rw [hencode] at hbytes
      cases hbytes
      exact ⟨grafted, Settings.fuseMatched_eq_ok_iff.1 hfused, hencode⟩
  · intro h
    obtain ⟨grafted, hfused, hencode⟩ := h
    refine ⟨(grafted, report), Settings.fuseMatched_eq_ok_iff.2 hfused, ?_⟩
    simp only [hencode]
    rfl

theorem verify_eq_ok_iff :
    attempt.verify settings recipient bytes = .ok () ↔
      (settings.verifyOutput = true → recipient.verifyGrafted bytes = .ok ()) := by
  unfold verify
  split
  · next hverify =>
    rw [hverify]
    cases recipient.verifyGrafted bytes with
    | error fault =>
      constructor
      · exact nofun
      · exact fun h => nomatch h rfl
    | ok u =>
      exact ⟨fun _ _ => rfl, fun _ => rfl⟩
  · next hverify =>
    exact ⟨fun _ h => absurd h hverify, fun _ => rfl⟩

theorem outcome_complete_eq_encoded_iff :
    (attempt.complete settings loaded).outcome = .encoded name bytes report ↔
      name = attempt.request.recipient ∧ ∃ recipient pairs,
        attempt.matchLoaded loaded = .ok (recipient, pairs)
          ∧ attempt.graftedBytes settings recipient pairs = .ok (report, bytes)
          ∧ attempt.verify settings recipient bytes = .ok () := by
  unfold complete
  cases hmatched : attempt.matchLoaded loaded with
  | error e =>
    constructor
    · exact nofun
    · exact fun h => nomatch h.2
  | ok matched =>
    obtain ⟨found, pairs⟩ := matched
    simp only [Except.ok.injEq, Prod.mk.injEq]
    cases hgrafted : attempt.graftedBytes settings found pairs with
    | error e =>
      constructor
      · exact nofun
      · intro h
        obtain ⟨-, _, _, ⟨rfl, rfl⟩, hok, -⟩ := h
        rw [hgrafted] at hok
        cases hok
    | ok written =>
      obtain ⟨fusion, written⟩ := written
      simp only
      cases hverify : attempt.verify settings found written with
      | error e =>
        constructor
        · exact nofun
        · intro h
          obtain ⟨-, _, _, ⟨rfl, rfl⟩, hok, hverified⟩ := h
          rw [hgrafted] at hok
          cases hok
          rw [hverify] at hverified
          cases hverified
      | ok u =>
        constructor
        · intro h
          cases h
          exact ⟨rfl, found, pairs, ⟨rfl, rfl⟩, hgrafted, hverify⟩
        · intro h
          obtain ⟨rfl, _, _, ⟨rfl, rfl⟩, hok, -⟩ := h
          rw [hgrafted] at hok
          cases hok
          rfl

end Awaiting

namespace Settings

/-- What has to succeed, once donor and recipient are read, for an attempt to end in bytes. -/
structure Grafts (settings : Settings) (donor recipient : ClassFile) (name : ClassName)
    (bytes : Bytes) (report : FusionReport) : Prop where
  asked : settings.recipientOf donor = .ok name
  name : recipient.name = name
  fused : ∃ pairs, recipient.matchAll (settings.fuseMembers donor) = .ok pairs
    ∧ settings.applyFusion donor pairs (settings.fusesClass donor) recipient
      = .ok report (settings.fused donor recipient)
  written : (settings.fused donor recipient).encode = .ok bytes
  verified : settings.verifyOutput = true → recipient.verifyGrafted bytes = .ok ()

theorem outcome_attempt_eq_encoded_iff {label : String} {load : ClassName → Loaded} :
    (settings.attempt label donorBytes load).outcome = .encoded name bytes report ↔
      ∃ donor recipientBytes recipient, ClassFile.decode donorBytes = .ok donor
        ∧ load name = .ok recipientBytes ∧ ClassFile.decode recipientBytes = .ok recipient
        ∧ settings.Grafts donor recipient name bytes report := by
  unfold attempt prepare
  cases hdonor : ClassFile.decode donorBytes with
  | error e => exact ⟨nofun, fun h => nomatch h⟩
  | ok donor =>
    simp only [Except.ok.injEq, exists_and_left, exists_eq_left']
    cases hrequest : settings.request donor with
    | error reason =>
      constructor
      · exact nofun
      · intro h
        obtain ⟨recipientBytes, -, recipient, -, hgrafts⟩ := h
        have hok : settings.request donor = .ok ⟨name, _, _⟩ :=
          request_eq_ok_iff.2 ⟨hgrafts.asked, rfl, rfl⟩
        rw [hrequest] at hok
        cases hok
    | ok request =>
      obtain ⟨hasked, hmembers, hclass⟩ := request_eq_ok_iff.1 hrequest
      simp only [Awaiting.outcome_complete_eq_encoded_iff, Awaiting.matchLoaded_eq_ok_iff,
        Awaiting.graftedBytes_eq_ok_iff, Awaiting.verify_eq_ok_iff,
        GraftRequest.matchOnto_eq_ok_iff, hmembers, hclass]
      constructor
      · intro h
        obtain ⟨rfl, recipient, pairs, ⟨recipientBytes, hload, hrecipient, hname, hmatch⟩,
          ⟨grafted, hfused, hencode⟩, hverified⟩ := h
        obtain ⟨report', hok⟩ := applyFusion_eq_ok hmatch
        rw [hfused] at hok
        cases hok
        exact ⟨recipientBytes, hload, recipient, hrecipient, hasked, hname, ⟨pairs, hmatch, hfused⟩,
          hencode, hverified⟩
      · intro h
        obtain ⟨recipientBytes, hload, recipient, hrecipient, hgrafts⟩ := h
        obtain ⟨pairs, hmatch, hfused⟩ := hgrafts.fused
        obtain rfl : request.recipient = name :=
          Except.ok.inj (hasked.symm.trans hgrafts.asked)
        exact ⟨rfl, recipient, pairs, ⟨recipientBytes, hload, hrecipient, hgrafts.name, hmatch⟩,
          ⟨_, hfused, hgrafts.written⟩, hgrafts.verified⟩

theorem outcome_graft_eq_encoded_iff :
    (settings.graft donorBytes recipientBytes).outcome = .encoded name bytes report ↔
      ∃ donor recipient, ClassFile.decode donorBytes = .ok donor
        ∧ ClassFile.decode recipientBytes = .ok recipient
        ∧ settings.Grafts donor recipient name bytes report := by
  rw [graft, outcome_attempt_eq_encoded_iff]
  simp only [Except.ok.injEq, exists_and_left, exists_eq_left']

/-! ## The bytes of a graft -/

/-- Verified bytes are those of a graft of the recipient. -/
theorem Grafts.exists_decode (h : settings.Grafts donor recipient name bytes report)
    (hverify : settings.verifyOutput = true) (hdonor : donor.IsWellFormed)
    (hrecipient : recipient.IsWellFormed) :
    ∃ output, ClassFile.decode bytes = .ok output ∧ settings.IsGraftOf donor recipient output
      ∧ output.encode = .ok bytes := by
  obtain ⟨pool, hwritten⟩ := ClassFile.encode_eq_ok_iff.1 h.written
  have hwf : (settings.fused donor recipient).IsWellFormed := isWellFormed_fused hdonor hrecipient
  refine ⟨_, ClassFile.decode_of_verified hdonor hrecipient hwritten (h.verified hverify),
    isGraftOf_regrouped_fused hdonor hrecipient hwritten.extends_pool, ?_⟩
  exact ClassFile.encode_eq_ok_iff.2 ⟨pool, hwritten.regrouped
    (fun m hm => (hwf.members m hm).attributes) hwf.attributes⟩

/-- A graft that was written can be grafted once more, which writes the same bytes. -/
theorem Grafts.again (h : settings.Grafts donor recipient name bytes report)
    {output : ClassFile} (hgraft : settings.IsGraftOf donor recipient output)
    (hdecode : ClassFile.decode bytes = .ok output) (hencode : output.encode = .ok bytes)
    (hdonor : donor.IsWellFormed) :
    ∃ report', settings.Grafts donor output name bytes report'
      ∧ (((settings.fuseMembers donor).map (·.id)).Nodup → report'.isNoop = true) := by
  obtain ⟨houtput, -⟩ := ClassFile.isWellFormed_of_decode hdecode
  have hheld := hgraft.holds
  have hsame := hheld.fused_eq_self hdonor houtput
  obtain ⟨pairs, hmatch, -⟩ := h.fused
  have hmatchOutput : output.matchAll (settings.fuseMembers donor) = .ok pairs := by
    rw [← hmatch, ClassFile.matchAll_congr hgraft.map_id]
  obtain ⟨report', hfused⟩ := applyFusion_eq_ok hmatchOutput
  refine ⟨report', ⟨h.asked, hgraft.name.trans h.name, ⟨pairs, hmatchOutput, hfused⟩, ?_, ?_⟩, ?_⟩
  · rw [hsame, hencode]
  · intro _
    exact ClassFile.verifyGrafted_eq_ok_iff.2 ⟨output, hdecode, .refl output⟩
  · intro hnodup
    exact hheld.isNoop_of_applyFusion hdonor houtput hnodup hmatchOutput hfused

/-- Grafting changes only what the donor gives. -/
theorem isGraftOf_of_graft (hverify : settings.verifyOutput = true)
    (h : (settings.graft donorBytes recipientBytes).outcome = .encoded name bytes report) :
    ∃ donor recipient output, ClassFile.decode donorBytes = .ok donor
      ∧ ClassFile.decode recipientBytes = .ok recipient ∧ ClassFile.decode bytes = .ok output
      ∧ settings.IsGraftOf donor recipient output := by
  obtain ⟨donor, recipient, hdonor, hrecipient, hgrafts⟩ := outcome_graft_eq_encoded_iff.1 h
  obtain ⟨output, houtput, hgraft, -⟩ := hgrafts.exists_decode hverify
    (ClassFile.isWellFormed_of_decode hdonor).1 (ClassFile.isWellFormed_of_decode hrecipient).1
  exact ⟨donor, recipient, output, hdonor, hrecipient, houtput, hgraft⟩

/-- Settings with short markers. -/
def shortMarkers : Settings := { recipientMarker := "LR;", fuseMarker := "LF;" }

/-- A donor for the class `R`.  Its field `x` carries the fuse marker and a visible `LA;`. -/
def markedField : Bytes :=
  [202, 254, 186, 190, 0, 0, 0, 52, 0, 12, 1, 0, 1, 84, 7, 0, 1, 1, 0, 1, 120, 1, 0, 1, 73, 1, 0,
    25, 82, 117, 110, 116, 105, 109, 101, 86, 105, 115, 105, 98, 108, 101, 65, 110, 110, 111, 116,
    97, 116, 105, 111, 110, 115, 1, 0, 3, 76, 70, 59, 1, 0, 3, 76, 65, 59, 1, 0, 1, 118, 3, 0, 0,
    0, 1, 1, 0, 3, 76, 82, 59, 1, 0, 5, 118, 97, 108, 117, 101, 0, 33, 0, 2, 0, 0, 0, 0, 0, 1, 0,
    0, 0, 3, 0, 4, 0, 1, 0, 5, 0, 0, 0, 15, 0, 2, 0, 6, 0, 0, 0, 7, 0, 1, 0, 8, 73, 0, 9, 0, 0, 0,
    1, 0, 5, 0, 0, 0, 11, 0, 1, 0, 10, 0, 1, 0, 11, 99, 0, 10]

/-- The class `R`, whose field `x` carries an invisible `LA;` and is deprecated. -/
def plainField : Bytes :=
  [202, 254, 186, 190, 0, 0, 0, 52, 0, 8, 1, 0, 1, 82, 7, 0, 1, 1, 0, 1, 120, 1, 0, 1, 73, 1, 0,
    27, 82, 117, 110, 116, 105, 109, 101, 73, 110, 118, 105, 115, 105, 98, 108, 101, 65, 110, 110,
    111, 116, 97, 116, 105, 111, 110, 115, 1, 0, 3, 76, 65, 59, 1, 0, 10, 68, 101, 112, 114, 101,
    99, 97, 116, 101, 100, 0, 33, 0, 2, 0, 0, 0, 0, 0, 1, 0, 0, 0, 3, 0, 4, 0, 2, 0, 5, 0, 0, 0, 6,
    0, 1, 0, 6, 0, 0, 0, 7, 0, 0, 0, 0, 0, 0, 0, 0]

/-- The class `R` grafted: the invisible attribute is gone, and a visible one stands at the end. -/
def graftedField : Bytes :=
  [202, 254, 186, 190, 0, 0, 0, 52, 0, 11, 1, 0, 1, 82, 7, 0, 1, 1, 0, 1, 120, 1, 0, 1, 73, 1, 0,
    27, 82, 117, 110, 116, 105, 109, 101, 73, 110, 118, 105, 115, 105, 98, 108, 101, 65, 110, 110,
    111, 116, 97, 116, 105, 111, 110, 115, 1, 0, 3, 76, 65, 59, 1, 0, 10, 68, 101, 112, 114, 101,
    99, 97, 116, 101, 100, 1, 0, 25, 82, 117, 110, 116, 105, 109, 101, 86, 105, 115, 105, 98, 108,
    101, 65, 110, 110, 111, 116, 97, 116, 105, 111, 110, 115, 1, 0, 1, 118, 3, 0, 0, 0, 1, 0, 33,
    0, 2, 0, 0, 0, 0, 0, 1, 0, 0, 0, 3, 0, 4, 0, 2, 0, 7, 0, 0, 0, 0, 0, 8, 0, 0, 0, 11, 0, 1, 0,
    6, 0, 1, 0, 9, 73, 0, 10, 0, 0, 0, 0]

theorem graft_plainField :
    (shortMarkers.graft markedField plainField).outcome = .encoded ⟨"R"⟩ graftedField
      ⟨[], [⟨.member ⟨.field, "x", "I"⟩, "LA;"⟩], []⟩ := by
  decide +kernel

/-- The donor's annotation takes the place of the one of the other retention. -/
theorem isGraftOf_plainField : shortMarkers.verifyOutput = true
    ∧ (shortMarkers.graft markedField plainField).outcome = .encoded ⟨"R"⟩ graftedField
      ⟨[], [⟨.member ⟨.field, "x", "I"⟩, "LA;"⟩], []⟩
    ∧ ∃ donor recipient output, ClassFile.decode markedField = .ok donor
      ∧ ClassFile.decode plainField = .ok recipient ∧ ClassFile.decode graftedField = .ok output
      ∧ shortMarkers.IsGraftOf donor recipient output :=
  ⟨rfl, graft_plainField, isGraftOf_of_graft rfl graft_plainField⟩

/-- Grafting onto the bytes of a graft gives the same bytes, and if the identities of the
fuse-marked members are distinct, then nothing is reported to be changed. -/
theorem graft_of_graft (hverify : settings.verifyOutput = true)
    (h : (settings.graft donorBytes recipientBytes).outcome = .encoded name bytes report) :
    ∃ donor report', ClassFile.decode donorBytes = .ok donor
      ∧ (settings.graft donorBytes bytes).outcome = .encoded name bytes report'
      ∧ (((settings.fuseMembers donor).map (·.id)).Nodup → report'.isNoop = true) := by
  obtain ⟨donor, recipient, hdonor, hrecipient, hgrafts⟩ := outcome_graft_eq_encoded_iff.1 h
  have hwf := (ClassFile.isWellFormed_of_decode hdonor).1
  obtain ⟨output, houtput, hgraft, hencode⟩ := hgrafts.exists_decode hverify hwf
    (ClassFile.isWellFormed_of_decode hrecipient).1
  obtain ⟨report', hagain, hnoop⟩ := hgrafts.again hgraft houtput hencode hwf
  exact ⟨donor, report', hdonor,
    outcome_graft_eq_encoded_iff.2 ⟨donor, output, hdonor, houtput, hagain⟩, hnoop⟩

/-- The grafted class stays as it is. -/
theorem graft_graftedField : shortMarkers.verifyOutput = true
    ∧ (shortMarkers.graft markedField plainField).outcome = .encoded ⟨"R"⟩ graftedField
      ⟨[], [⟨.member ⟨.field, "x", "I"⟩, "LA;"⟩], []⟩
    ∧ ∃ donor report', ClassFile.decode markedField = .ok donor
      ∧ (shortMarkers.graft markedField graftedField).outcome
        = .encoded ⟨"R"⟩ graftedField report'
      ∧ (((shortMarkers.fuseMembers donor).map (·.id)).Nodup → report'.isNoop = true) :=
  ⟨rfl, graft_plainField, graft_of_graft rfl graft_plainField⟩

end Settings

end AnnotationGraft
