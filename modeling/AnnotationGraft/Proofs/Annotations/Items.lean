import AnnotationGraft.Proofs.Annotations.Wire
import AnnotationGraft.Proofs.ConstantPool.Demand

/-!
# The items of what is written

Whatever is written is a row of items: tags, indices into the pool, counts of tables, and lengths
of attributes.  Each item may be refused for a reason of its own (`Item.Fits`), and the indices
together for what they ask of the pool.  `Interning.Asks` says of a computation that it succeeds
exactly where neither happens: it is kept by everything that writing is made of.

`ElementValue.items` and `AnnotationUse.items` are the items of values and annotations.  They are
what writing asks for, and the bytes written are as many as the items take
(`Interning.writes_annotationUse`).
-/

namespace AnnotationGraft

/-! ## Items -/

/-- Something that is written of a class. -/
inductive Item where
  | tag (tag : UInt8)
  /-- The index of what is asked of the pool. -/
  | index (request : Request)
  /-- The count that stands before a table of so many entries. -/
  | count (table : TableKind) (entries : Nat)
  /-- The length that stands before the body of an attribute, of so many bytes. -/
  | length (bytes : Nat)

namespace Item

/-- Whether an item can be written, if the pool has room. -/
def Fits : Item → Prop
  | tag _ => True
  | index request => request.Fits
  | count _ entries => entries ≤ maxWord
  | length bytes => bytes < 0x100000000

/-- What an item asks of the pool. -/
def request? : Item → Option Request
  | index request => some request
  | _ => none

/-- The bytes that an item takes. -/
def size : Item → Nat
  | tag _ => 1
  | index _ => 2
  | count _ _ => 2
  | length _ => 4

/-- What items ask of the pool, in their order. -/
def requests (items : List Item) : List Request := items.filterMap request?

/-- The bytes that items take. -/
def sizes (items : List Item) : Nat := items.foldr (fun item bytes => item.size + bytes) 0

/-- All items fit: counts, texts and lengths, each within its own limit. -/
theorem forall_fits_iff {items : List Item} :
    (∀ item ∈ items, item.Fits) ↔
      (∀ table entries, .count table entries ∈ items → entries ≤ maxWord)
        ∧ (∀ s, .index (.text s) ∈ items ∨ .index (.className s) ∈ items →
          (ModifiedUtf8.encode s).length ≤ maxWord)
        ∧ ∀ bytes, .length bytes ∈ items → bytes < 0x100000000 := by
  constructor
  · intro h
    exact ⟨fun _ _ hitem => h _ hitem, fun s hitem => hitem.elim (h _) (h _), fun _ hitem =>
      h _ hitem⟩
  · intro h item hitem
    obtain ⟨hcounts, htexts, hlengths⟩ := h
    cases item with
    | tag _ => exact trivial
    | count table entries => exact hcounts table entries hitem
    | length bytes => exact hlengths bytes hitem
    | index request =>
      cases request with
      | constant _ => exact trivial
      | text s => exact htexts s (.inl hitem)
      | className name => exact htexts name (.inr hitem)

theorem requests_append (items items' : List Item) :
    requests (items ++ items') = requests items ++ requests items' :=
  List.filterMap_append

theorem sizes_cons (item : Item) (items : List Item) :
    sizes (item :: items) = item.size + sizes items := rfl

theorem sizes_append (items items' : List Item) :
    sizes (items ++ items') = sizes items + sizes items' := by
  induction items with
  | nil => simp [sizes]
  | cons item items ih =>
    rw [List.cons_append, sizes_cons, sizes_cons, ih]
    omega

/-- The parts of a row take as many bytes together as the items that they are made of. -/
theorem length_flatten_eq_sizes {α : Type} {items : α → List Item} {as : List α}
    {parts : List Bytes}
    (h : List.Forall₂ (fun a (part : Bytes) => part.length = sizes (items a)) as parts) :
    parts.flatten.length = sizes (as.flatMap items) := by
  induction h with
  | nil => rfl
  | cons hpart _ ih =>
    rw [List.flatten_cons, List.length_append, hpart, ih, List.flatMap_cons, sizes_append]

end Item

open Item (requests sizes)

/-! ## Computations that ask for items -/

namespace Interning

variable {α β : Type} {items items' : List Item}

/-- The computation succeeds exactly where each of the items fits and the pool that they ask for is
within the limit.  It leaves this pool, adds no text that is too long, and its result is such as `R`
says. -/
structure Asks (e : Interning α) (items : List Item) (R : α → Prop) : Prop where
  leaves : ∀ {p q : ConstantPool} {a : α}, e p = .ok a q →
    q = p.grown (requests items) ∧ (∀ item ∈ items, item.Fits) ∧ (p.TextsFit → q.TextsFit) ∧ R a
  succeeds : ∀ {p : ConstantPool}, (∀ item ∈ items, item.Fits) →
    (p.grown (requests items)).size ≤ maxWord → ∃ a q, e p = .ok a q

/-- The computation asks for the items, and gives as many bytes as they take. -/
def Writes (e : Interning Bytes) (items : List Item) : Prop :=
  e.Asks items fun bytes => bytes.length = sizes items

theorem asks_pure {R : α → Prop} {a : α} (h : R a) : Asks (pure a : Interning α) [] R where
  leaves hrun := by
    cases hrun
    exact ⟨rfl, nofun, id, h⟩
  succeeds _ _ := ⟨a, _, rfl⟩

variable {R : α → Prop} {S : β → Prop}

theorem Asks.bind {x : Interning α} {f : α → Interning β} (hx : x.Asks items R)
    (hf : ∀ a, R a → (f a).Asks items' S) : (x >>= f).Asks (items ++ items') S where
  leaves hrun := by
    obtain ⟨a, mid, hxrun, hfrun⟩ := bind_eq_ok_iff.1 hrun
    obtain ⟨rfl, hfits, htexts, ha⟩ := hx.leaves hxrun
    obtain ⟨rfl, hfits', htexts', hb⟩ := (hf a ha).leaves hfrun
    rw [Item.requests_append, ConstantPool.grown_append]
    exact ⟨rfl, List.forall_mem_append.2 ⟨hfits, hfits'⟩, fun hp => htexts' (htexts hp), hb⟩
  succeeds {p} hfits hsize := by
    obtain ⟨hfirst, hrest⟩ := List.forall_mem_append.1 hfits
    rw [Item.requests_append] at hsize
    obtain ⟨a, mid, hxrun⟩ :=
      hx.succeeds hfirst (Nat.le_trans (ConstantPool.size_grown_le_append _ _ _) hsize)
    obtain ⟨rfl, -, -, ha⟩ := hx.leaves hxrun
    rw [ConstantPool.grown_append] at hsize
    obtain ⟨b, q, hfrun⟩ := (hf a ha).succeeds hrest hsize
    exact ⟨b, q, bind_eq_ok_iff.2 ⟨a, _, hxrun, hfrun⟩⟩

theorem Asks.map {x : Interning α} (hx : x.Asks items R) {g : α → β}
    (hg : ∀ a, R a → S (g a)) : (x >>= fun a => pure (g a)).Asks items S := by
  rw [← List.append_nil items]
  exact hx.bind fun a ha => asks_pure (hg a ha)

theorem Asks.mono {e : Interning α} {T : α → Prop} (he : e.Asks items R) (h : ∀ a, R a → T a) :
    e.Asks items T where
  leaves hrun := by
    obtain ⟨hgrown, hfits, htexts, ha⟩ := he.leaves hrun
    exact ⟨hgrown, hfits, htexts, h _ ha⟩
  succeeds := he.succeeds

theorem Asks.mapM {f : α → Interning β} {as : List α} {items : α → List Item}
    {R : α → β → Prop} (h : ∀ a ∈ as, (f a).Asks (items a) (R a)) :
    (as.mapM f).Asks (as.flatMap items) (List.Forall₂ R as) := by
  induction as with
  | nil => exact asks_pure .nil
  | cons a as ih =>
    rw [List.mapM_cons, List.flatMap_cons]
    refine (h a List.mem_cons_self).bind fun b hb => ?_
    exact (ih fun a' ha' => h a' (List.mem_cons_of_mem a ha')).map fun bs hbs => .cons hb hbs

/-- A tag asks for nothing. -/
theorem Writes.tagged {e : Interning Bytes} (h : e.Writes items) (tag : UInt8) :
    Writes (e >>= fun bytes => pure (tag :: bytes)) (.tag tag :: items) := by
  have htagged : Asks (e >>= fun bytes => pure (tag :: bytes)) items
      fun bytes => bytes.length = sizes (.tag tag :: items) := by
    refine h.map fun bytes hbytes => ?_
    rw [List.length_cons, hbytes, Item.sizes_cons, Item.size]
    omega
  refine ⟨fun hrun => ?_, fun hfits => ?_⟩
  · obtain ⟨hgrown, hfits, htexts, hlength⟩ := htagged.leaves hrun
    exact ⟨hgrown, List.forall_mem_cons.2 ⟨trivial, hfits⟩, htexts, hlength⟩
  · exact htagged.succeeds (List.forall_mem_cons.1 hfits).2

theorem Writes.append {e : Interning Bytes} {f : Interning Bytes} (he : e.Writes items)
    (hf : f.Writes items') :
    Writes (e >>= fun front => f >>= fun back => pure (front ++ back)) (items ++ items') := by
  refine he.bind fun front hfront => ?_
  refine hf.map fun back hback => ?_
  rw [List.length_append, hfront, hback, Item.sizes_append]

/-- The parts of a row are written one after another. -/
theorem Writes.flatten {f : α → Interning Bytes} {as : List α} {items : α → List Item}
    (h : ∀ a ∈ as, (f a).Writes (items a)) :
    Writes (as.mapM f >>= fun parts => pure parts.flatten) (as.flatMap items) :=
  (Asks.mapM h).map fun _ => Item.length_flatten_eq_sizes

/-! ## Single items -/

theorem asks_index (request : Request) (h : ∀ c, request = .constant c → c.Fits) :
    request.index.Asks [.index request] fun _ => True where
  leaves hrun := by
    have hfits := Request.fits_of_granted hrun
    obtain rfl := Request.eq_granting_of_granted hrun
    exact ⟨rfl, List.forall_mem_singleton.2 hfits, fun hp => hp.granting hfits h, trivial⟩
  succeeds hfits hsize := by
    obtain ⟨i, hi⟩ := Request.granted_of_fits (hfits _ List.mem_cons_self) hsize
    exact ⟨i, _, hi⟩

theorem writes_reference (request : Request) (h : ∀ c, request = .constant c → c.Fits) :
    (reference request.index).Writes [.index request] :=
  (asks_index request h).map fun _ _ => rfl

theorem writes_constant {c : Constant} (h : c.Fits) :
    (reference (constant c)).Writes [.index (.constant c)] :=
  writes_reference (.constant c) fun _ heq => by rwa [← Request.constant.inj heq]

theorem writes_text (s : String) : (reference (utf8 s)).Writes [.index (.text s)] :=
  writes_reference (.text s) nofun

theorem writes_className (name : String) :
    (reference (className name)).Writes [.index (.className name)] :=
  writes_reference (.className name) nofun

/-- A check against limits asks for the items that have to fit, and for nothing of the pool. -/
theorem asks_ofExcept {x : Except EncodeError α} (hrequests : requests items = [])
    (hx : (∃ a, x = .ok a) ↔ ∀ item ∈ items, item.Fits) :
    Asks (MonadExcept.ofExcept x : Interning α) items fun _ => True where
  leaves hrun := by
    cases x with
    | error e => cases hrun
    | ok a =>
      cases hrun
      rw [hrequests]
      exact ⟨rfl, hx.1 ⟨_, rfl⟩, id, trivial⟩
  succeeds {p} hfits _ := by
    obtain ⟨a, rfl⟩ := hx.2 hfits
    exact ⟨a, p, rfl⟩

theorem writes_count (table : TableKind) (entries : Nat) :
    (count table entries).Writes [.count table entries] := by
  have hcount : (∃ word, tableCount table entries = .ok word) ↔
      ∀ item ∈ [Item.count table entries], item.Fits := by
    simp only [tableCount_eq_ok_iff, exists_and_left, exists_eq, and_true,
      List.forall_mem_singleton, Item.Fits]
  exact (asks_ofExcept rfl hcount).map fun _ _ => rfl

end Interning

/-! ## The items of annotations -/

mutual

/-- The items of a value. -/
def ElementValue.items (x : ElementValue) : List Item :=
  match x with
  | .byte v => [.tag 'B'.toUInt8, .index (.constant (.integer v))]
  | .char v => [.tag 'C'.toUInt8, .index (.constant (.integer v))]
  | .int v => [.tag 'I'.toUInt8, .index (.constant (.integer v))]
  | .short v => [.tag 'S'.toUInt8, .index (.constant (.integer v))]
  | .boolean v => [.tag 'Z'.toUInt8, .index (.constant (.integer v))]
  | .long v => [.tag 'J'.toUInt8, .index (.constant (.long v))]
  | .float bits => [.tag 'F'.toUInt8, .index (.constant (.float bits))]
  | .double bits => [.tag 'D'.toUInt8, .index (.constant (.double bits))]
  | .string text => [.tag 's'.toUInt8, .index (.text text)]
  | .enumConstant type name => [.tag 'e'.toUInt8, .index (.text type), .index (.text name)]
  | .classLiteral d => [.tag 'c'.toUInt8, .index (.text d)]
  | .nested a => .tag '@'.toUInt8 :: a.items
  | .array vs =>
    .tag '['.toUInt8 :: .count .arrayValue vs.length :: ElementValue.itemsOfValues vs
termination_by structural x

/-- The items of values. -/
def ElementValue.itemsOfValues (vs : List ElementValue) : List Item :=
  match vs with
  | [] => []
  | v :: vs => v.items ++ ElementValue.itemsOfValues vs
termination_by structural vs

/-- The items of elements: of each its name, and the items of its value. -/
def ElementValue.itemsOfElements (es : List (String × ElementValue)) : List Item :=
  match es with
  | [] => []
  | (name, v) :: es => .index (.text name) :: v.items ++ ElementValue.itemsOfElements es
termination_by structural es

/-- The items of an annotation. -/
def AnnotationUse.items (a : AnnotationUse) : List Item :=
  match a with
  | ⟨kind, _, es⟩ =>
    .index (.text kind) :: .count .elementValuePairs es.length :: ElementValue.itemsOfElements es
termination_by structural a

end

theorem ElementValue.itemsOfValues_eq_flatMap (vs : List ElementValue) :
    itemsOfValues vs = vs.flatMap items := by
  induction vs with
  | nil => rfl
  | cons v vs ih => rw [itemsOfValues, ih, List.flatMap_cons]

theorem ElementValue.itemsOfElements_eq_flatMap (es : List (String × ElementValue)) :
    itemsOfElements es = es.flatMap fun e => .index (.text e.1) :: e.2.items := by
  induction es with
  | nil => rfl
  | cons e es ih => rw [itemsOfElements, ih, List.flatMap_cons]

namespace Interning

theorem writes_element {e : String × ElementValue} (h : (elementValue e.2).Writes e.2.items) :
    (element e).Writes (.index (.text e.1) :: e.2.items) :=
  (writes_text e.1).append h

/-- A value and an annotation are written as their items. -/
theorem writes_values :
    (∀ v : ElementValue, (elementValue v).Writes v.items) ∧
      ∀ a : AnnotationUse, (annotationUse a).Writes a.items := by
  apply nested_induction
  case plain =>
    intro v hplain
    cases v with
    | byte _ | char _ | int _ | short _ | boolean _ | long _ | float _ | double _ =>
      rw [elementValue]
      exact (writes_constant fun _ hutf8 => by cases hutf8).tagged _
    | string text | classLiteral text =>
      rw [elementValue]
      exact (writes_text text).tagged _
    | enumConstant type name =>
      rw [elementValue, ElementValue.items]
      have h := ((writes_text type).append (writes_text name)).tagged 'e'.toUInt8
      simpa only [bind_assoc, pure_bind, List.cons_append, List.nil_append] using h
    | nested _ | array _ => cases hplain
  case nested =>
    intro a ih
    rw [elementValue]
    exact ih.tagged _
  case array =>
    intro vs ih
    rw [elementValue, elementValuesAfter_eq, ElementValue.items]
    have h := ((writes_count .arrayValue vs.length).append (Writes.flatten ih)).tagged '['.toUInt8
    rw [← ElementValue.itemsOfValues_eq_flatMap] at h
    simpa only [bind_assoc, pure_bind, List.reverse_nil, List.flatten_nil, List.cons_append,
      List.nil_append] using h
  case use =>
    intro kind r es ih
    rw [annotationUse, elementsAfter_eq, AnnotationUse.items]
    have hes := Writes.flatten fun e he => writes_element (ih e he)
    have h := (writes_text kind).append ((writes_count .elementValuePairs es.length).append hes)
    rw [← ElementValue.itemsOfElements_eq_flatMap] at h
    simpa only [bind_assoc, pure_bind, List.reverse_nil, List.flatten_nil, List.cons_append,
      List.nil_append, List.append_assoc] using h

/-- An annotation is written as its items. -/
theorem writes_annotationUse (a : AnnotationUse) : (annotationUse a).Writes a.items :=
  writes_values.2 a

end Interning

end AnnotationGraft
