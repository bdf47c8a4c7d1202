import AnnotationGraft.Graft.Fusion
import AnnotationGraft.Proofs.Annotations.History
import AnnotationGraft.Proofs.ClassFile.AttributeOrigin
import AnnotationGraft.Proofs.ClassFile.RoundTrip

/-!
# Classes that were read and changed

Annotations are put into the sets of a class that was read, and taken out of them.  A change keeps
a class well-formed if what it puts in can be read back (`ClassFile.IsWellFormed.edit`), and so does
a sequence of changes.

So whatever is written of such a class is written again as the same bytes once it has been read
(`ClassFile.encode_of_encode_editAll`).  Writing puts the annotations in the order of their
attributes, leaves empty attributes out, adds attributes and adds constants; reading what was
written and writing it again does nothing of that a second time.
-/

namespace AnnotationGraft

/-! ## Annotations that can be read back -/

mutual

/-- Whether a value may stand at a depth, whatever the retention of the annotations in it. -/
def ElementValue.isReadable (depth : Nat) (x : ElementValue) : Bool :=
  match x with
  | .enumConstant type _ => depth ≤ maxDepth && Descriptor.isObjectType type
  | .classLiteral d => depth ≤ maxDepth && Descriptor.isResultType d
  | .nested a => depth ≤ maxDepth && a.isReadable (depth + 1)
  | .array vs => depth ≤ maxDepth && ElementValue.areReadable (depth + 1) vs
  | _ => depth ≤ maxDepth
termination_by structural x

/-- Whether all values may stand at a depth. -/
def ElementValue.areReadable (depth : Nat) (vs : List ElementValue) : Bool :=
  match vs with
  | [] => true
  | v :: vs => v.isReadable depth && ElementValue.areReadable depth vs
termination_by structural vs

/-- Whether the values of all elements may stand at a depth. -/
def ElementValue.elementsReadable (depth : Nat) (es : List (String × ElementValue)) : Bool :=
  match es with
  | [] => true
  | (_, v) :: es => v.isReadable depth && ElementValue.elementsReadable depth es
termination_by structural es

/-- Whether the kind is an object descriptor and the values may stand at a depth. -/
def AnnotationUse.isReadable (depth : Nat) (a : AnnotationUse) : Bool :=
  match a with
  | ⟨kind, _, es⟩ => Descriptor.isObjectType kind && ElementValue.elementsReadable depth es
termination_by structural a

end

/-- With one retention throughout, what can be read back is well-formed. -/
theorem isWellFormed_withRetention (r : Retention) :
    (∀ v : ElementValue, ∀ depth,
        (v.withRetention r).isWellFormed r depth = v.isReadable depth) ∧
      ∀ a : AnnotationUse, ∀ depth,
        (a.withRetention r).isWellFormed r depth = a.isReadable depth := by
  apply nested_induction
  case plain =>
    intro v hplain depth
    cases v <;> first | rfl | cases hplain
  case nested =>
    intro a ih depth
    rw [ElementValue.withRetention, ElementValue.isWellFormed, ih, ElementValue.isReadable]
  case array =>
    intro vs ih depth
    have hvs : ElementValue.areWellFormed r (depth + 1) (ElementValue.valuesWithRetention r vs)
        = ElementValue.areReadable (depth + 1) vs := by
      induction vs with
      | nil => rfl
      | cons v vs ihvs =>
        rw [ElementValue.valuesWithRetention, ElementValue.areWellFormed, ElementValue.areReadable,
          ih v List.mem_cons_self, ihvs fun w hw => ih w (List.mem_cons_of_mem v hw)]
    rw [ElementValue.withRetention, ElementValue.isWellFormed, hvs, ElementValue.isReadable]
  case use =>
    intro kind s es ih depth
    have hes : ElementValue.elementsWellFormed r depth (ElementValue.elementsWithRetention r es)
        = ElementValue.elementsReadable depth es := by
      induction es with
      | nil => rfl
      | cons e es ihes =>
        rw [ElementValue.elementsWithRetention, ElementValue.elementsWellFormed,
          ElementValue.elementsReadable, ih e List.mem_cons_self,
          ihes fun w hw => ih w (List.mem_cons_of_mem e hw)]
    rw [AnnotationUse.withRetention, AnnotationUse.isWellFormed, hes, AnnotationUse.isReadable]
    simp

/-! ## Changes of a set -/

/-- Whether what the change puts in can be read back. -/
def SetEdit.isReadable : SetEdit → Bool
  | insert a => a.isReadable 0
  | remove _ => true

namespace AnnotationSet

/-- The annotation that is put into a set is normalized, so it may as well have been before. -/
theorem IsWellFormed.insert_of_isReadable {s : AnnotationSet} (hs : s.IsWellFormed)
    {a : AnnotationUse} (ha : a.isReadable 0 = true) : (s.insert a).IsWellFormed := by
  have hnormal : a.normalize.isWellFormed a.normalize.retention 0 = true := by
    rw [AnnotationUse.retention_normalize, AnnotationUse.normalize,
      (isWellFormed_withRetention a.retention).2, ha]
  have hinsert : s.insert a = s.insert a.normalize := by
    rw [insert_eq, insert_eq, AnnotationUse.normalize_of_isWellFormed hnormal]
  rw [hinsert]
  exact hs.insert hnormal

theorem IsWellFormed.remove {s : AnnotationSet} (hs : s.IsWellFormed) (kind : String) :
    (s.remove kind).IsWellFormed where
  kinds_nodup := nodup_kinds_remove hs.kinds_nodup kind
  entries a ha := hs.entries a (mem_of_mem_entries_remove ha)

theorem IsWellFormed.edit {s : AnnotationSet} (hs : s.IsWellFormed) {change : SetEdit}
    (h : change.isReadable = true) : (s.edit change).IsWellFormed := by
  cases change with
  | insert a => exact hs.insert_of_isReadable h
  | remove kind => exact hs.remove kind

end AnnotationSet

/-! ## Changes of a class -/

/-- A change of the annotations of a class, or of those of its member at a position. -/
inductive ClassEdit where
  | onClass (change : SetEdit)
  | onMember (position : Nat) (change : SetEdit)

/-- What the change does to the set that it is about. -/
def ClassEdit.change : ClassEdit → SetEdit
  | onClass change => change
  | onMember _ change => change

namespace ClassFile

/-- The class after a change. -/
def edit (c : ClassFile) : ClassEdit → ClassFile
  | .onClass change => c.withAnnotations (c.annotations.edit change)
  | .onMember position change =>
    { c with
      members := c.members.modify position fun m =>
        m.withAnnotations (m.attributes.annotations.edit change) }

/-- The class after a sequence of changes. -/
def editAll (c : ClassFile) (edits : List ClassEdit) : ClassFile := edits.foldl edit c

/-- Whether the fields stand before the methods depends on the identities of the members only. -/
theorem fieldsFirst_of_map_id {c d : ClassFile}
    (hids : d.members.map (·.id) = c.members.map (·.id))
    (hc : c.membersOfKind .field ++ c.membersOfKind .method = c.members) :
    d.membersOfKind .field ++ d.membersOfKind .method = d.members := by
  have hsplit := List.take_append_drop (c.membersOfKind .field).length d.members
  have hfields : (d.members.take (c.membersOfKind .field).length).map (·.id)
      = (c.membersOfKind .field).map (·.id) := by
    rw [List.map_take, hids, ← hc, List.map_append, List.take_left' (List.length_map _)]
  have hmethods : (d.members.drop (c.membersOfKind .field).length).map (·.id)
      = (c.membersOfKind .method).map (·.id) := by
    rw [List.map_drop, hids, ← hc, List.map_append, List.drop_left' (List.length_map _)]
  have hkind : ∀ kind (ms : List Member), ms.map (·.id) = (c.membersOfKind kind).map (·.id) →
      ∀ m ∈ ms, m.id.kind = kind := by
    intro kind ms hms m hm
    obtain ⟨m', hm', hid⟩ := List.mem_map.1 (hms ▸ List.mem_map_of_mem hm)
    rw [← hid]
    exact of_decide_eq_true (List.mem_filter.1 hm').2
  obtain ⟨hfield, hmethod⟩ := Scan.membersOfKind_append hsplit.symm
    (hkind .field _ hfields) (hkind .method _ hmethods)
  rw [hfield, hmethod, hsplit]

/-- A change keeps a class well-formed. -/
theorem IsWellFormed.edit {c : ClassFile} (hc : c.IsWellFormed) {e : ClassEdit}
    (h : e.change.isReadable = true) : (c.edit e).IsWellFormed := by
  cases e with
  | onClass change =>
    exact { hc with
      attributes := hc.attributes.withAnnotations (hc.attributes.annotations.edit h) }
  | onMember position change =>
    have hget : ∀ i, (c.edit (.onMember position change)).members[i]? = c.members[i]?.map fun m =>
        if position = i then m.withAnnotations (m.attributes.annotations.edit change) else m :=
      fun i => List.getElem?_modify _ _ _ _
    have hids : (c.edit (.onMember position change)).members.map (·.id)
        = c.members.map (·.id) := by
      apply List.ext_getElem?
      intro i
      rw [List.getElem?_map, List.getElem?_map, hget, Option.map_map]
      congr 1
      funext m
      simp only [Function.comp_apply]
      split <;> rfl
    refine { hc with fieldsFirst := fieldsFirst_of_map_id hids hc.fieldsFirst, members := ?_ }
    intro m hm
    obtain ⟨i, hi⟩ := List.getElem?_of_mem hm
    rw [hget, Option.map_eq_some_iff] at hi
    obtain ⟨before, hbefore, rfl⟩ := hi
    have hwf := hc.members before (List.mem_of_getElem? hbefore)
    split
    · exact { hwf with
        attributes := hwf.attributes.withAnnotations (hwf.attributes.annotations.edit h) }
    · exact hwf

/-- A sequence of changes keeps a class well-formed. -/
theorem IsWellFormed.editAll {c : ClassFile} (hc : c.IsWellFormed) {edits : List ClassEdit}
    (h : ∀ e ∈ edits, e.change.isReadable = true) : (c.editAll edits).IsWellFormed := by
  induction edits generalizing c with
  | nil => exact hc
  | cons e edits ih =>
    obtain ⟨he, hedits⟩ := List.forall_mem_cons.1 h
    exact ih (hc.edit he) hedits

/-! ## Writing again -/

/-- Where no verbatim slot bears the name of an annotation attribute, every role stays. -/
theorem rolesStay_of_forall {c : ClassFile}
    (h : ∀ t ∈ c.tables, ∀ (r : Retention) info, .verbatim r.attributeName info ∉ t.slots) :
    c.RolesStay := by
  have htable : ∀ t ∈ c.tables, t.RolesStay := by
    intro t ht name info r hmem hname
    rw [← Retention.attributeName_of_ofAttributeName? hname] at hmem
    exact absurd hmem (h t ht r info)
  obtain ⟨hclass, hmembers⟩ := forall_mem_tables_iff.1 htable
  exact ⟨hmembers, hclass⟩

/-- What is written of a class that was read and changed is written again, byte for byte, once it
has been read. -/
theorem encode_of_encode_editAll {source bytes : Bytes} {c : ClassFile} {edits : List ClassEdit}
    (h : decode source = .ok c) (hedits : ∀ e ∈ edits, e.change.isReadable = true)
    (hnames : ∀ t ∈ (c.editAll edits).tables, ∀ (r : Retention) info,
      .verbatim r.attributeName info ∉ t.slots)
    (hencode : (c.editAll edits).encode = .ok bytes) :
    ∃ again, decode bytes = .ok again ∧ again.encode = .ok bytes := by
  have hwf := (isWellFormed_of_decode h).1.editAll hedits
  obtain ⟨pool, hwrites⟩ := encode_eq_ok_iff.1 hencode
  have hdecode := hwrites.decode_eq hwf (hwf.keepsRoles (rolesStay_of_forall hnames))
  have hagain := hwrites.regrouped (fun m hm => (hwf.members m hm).attributes) hwf.attributes
  exact ⟨_, hdecode, encode_eq_ok_iff.2 ⟨pool, hagain⟩⟩

/-- Changes of `twoRetentionsRead` that empty one attribute of the field and create one of the
class, for an annotation that holds one of the other retention. -/
def twoRetentionsEdits : List ClassEdit :=
  [.onMember 0 (.remove "LA;"), .onMember 0 (.insert ⟨"LC;", .visible, [("v", .string "s")]⟩),
    .onClass (.insert ⟨"LD;", .invisible, [("w", .nested ⟨"LE;", .visible, []⟩)]⟩)]

/-- The changed class is written, read and written again. -/
theorem encode_twoRetentionsEdits : ∃ bytes again,
    decode twoRetentionsBytes = .ok twoRetentionsRead
      ∧ (twoRetentionsRead.editAll twoRetentionsEdits).encode = .ok bytes
      ∧ decode bytes = .ok again ∧ again.encode = .ok bytes := by
  have hok : (twoRetentionsRead.editAll twoRetentionsEdits).encode.isOk = true := by
    decide +kernel
  obtain ⟨bytes, hencode⟩ : ∃ bytes,
      (twoRetentionsRead.editAll twoRetentionsEdits).encode = .ok bytes := by
    cases hrun : (twoRetentionsRead.editAll twoRetentionsEdits).encode with
    | error e =>
      rw [hrun] at hok
      cases hok
    | ok bytes => exact ⟨bytes, rfl⟩
  have hnames : ∀ t ∈ (twoRetentionsRead.editAll twoRetentionsEdits).tables,
      ∀ (r : Retention) info, .verbatim r.attributeName info ∉ t.slots := by
    intro t ht r info hmem
    have hslots : (twoRetentionsRead.editAll twoRetentionsEdits).tables.map (·.slots)
        = [[], [.annotations .visible, .verbatim "Synthetic" [], .annotations .invisible]] := by
      decide +kernel
    have ht' := hslots ▸ List.mem_map_of_mem (f := AttributeTable.slots) ht
    rcases List.mem_pair.1 ht' with hnone | hfield
    · rw [hnone] at hmem
      cases hmem
    · rw [hfield] at hmem
      have hname : r.attributeName = "Synthetic" ∧ info = [] := by simpa using hmem
      cases r <;> exact absurd hname.1 (by decide)
  obtain ⟨again, hread, hagain⟩ :=
    encode_of_encode_editAll decode_twoRetentionsBytes (by decide +kernel) hnames hencode
  exact ⟨bytes, again, decode_twoRetentionsBytes, hencode, hread, hagain⟩

end ClassFile

end AnnotationGraft
