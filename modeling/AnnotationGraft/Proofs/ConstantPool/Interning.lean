import AnnotationGraft.Proofs.ConstantPool.Growth

/-!
# Interning settles

A computation that interns constants only adds to the pool, and once it has run, running it again on
the pool that it left, or on a larger one, gives the same result and adds nothing.
`Interning.Settles` says so, together with the soundness of the pool that is left; it holds of
`constant` and `utf8` and is kept by everything that writing is made of.

`Interning.Gives` is a run that adds nothing.  On a settled pool a computation is as good as a
function, and `gives_bind_iff`, `gives_mapM_iff` and their like take it apart into its steps.
-/

namespace AnnotationGraft.Interning

variable {α β : Type}

/-- What is kept by every step of writing. -/
structure Settles (e : Interning α) : Prop where
  extends_run : ∀ {p q : ConstantPool} {a : α}, e p = .ok a q → q.Extends p
  /-- The result is the same on every pool that extends the one that is left. -/
  again : ∀ {p q larger : ConstantPool} {a : α}, e p = .ok a q → larger.Extends q →
    e larger = .ok a larger
  sound : ∀ {p q : ConstantPool} {a : α}, e p = .ok a q → p.IsSound → q.IsSound

/-- The computation gives `a` and adds nothing to the pool. -/
def Gives (e : Interning α) (pool : ConstantPool) (a : α) : Prop := e pool = .ok a pool

theorem Settles.gives {e : Interning α} (h : e.Settles) {p q : ConstantPool} {a : α}
    (hrun : e p = .ok a q) : e.Gives q a := h.again hrun (.refl q)

/-! ## One step after another -/

theorem bind_eq_ok_iff {x : Interning α} {f : α → Interning β} {p q : ConstantPool} {b : β} :
    (x >>= f) p = .ok b q ↔ ∃ a mid, x p = .ok a mid ∧ f a mid = .ok b q := by
  change EStateM.bind x f p = .ok b q ↔ _
  unfold EStateM.bind
  cases x p with
  | error e mid => simp
  | ok a mid =>
    constructor
    · exact fun hf => ⟨a, mid, rfl, hf⟩
    · intro h
      obtain ⟨_, _, heq, hf⟩ := h
      cases heq
      exact hf

theorem bind_eq_error_iff {x : Interning α} {f : α → Interning β} {p q : ConstantPool}
    {err : EncodeError} :
    (x >>= f) p = .error err q ↔
      x p = .error err q ∨ ∃ a mid, x p = .ok a mid ∧ f a mid = .error err q := by
  change EStateM.bind x f p = .error err q ↔ _
  unfold EStateM.bind
  cases x p with
  | error e mid => simp
  | ok a mid => simp

theorem settles_pure (a : α) : Settles (pure a : Interning α) where
  extends_run h := by cases h; exact .refl _
  again h _ := by cases h; rfl
  sound h hp := by cases h; exact hp

theorem settles_throw (e : EncodeError) : Settles (throw e : Interning α) where
  extends_run h := by cases h
  again h _ := by cases h
  sound h _ := by cases h

theorem settles_ofExcept (x : Except EncodeError α) :
    Settles (MonadExcept.ofExcept x : Interning α) := by
  cases x with
  | error e => exact settles_throw e
  | ok a => exact settles_pure a

theorem Settles.bind {x : Interning α} {f : α → Interning β} (hx : x.Settles)
    (hf : ∀ a, (f a).Settles) : (x >>= f).Settles where
  extends_run h := by
    obtain ⟨a, mid, hxrun, hfrun⟩ := bind_eq_ok_iff.1 h
    exact ((hf a).extends_run hfrun).trans (hx.extends_run hxrun)
  again h hlarger := by
    obtain ⟨a, mid, hxrun, hfrun⟩ := bind_eq_ok_iff.1 h
    have hmid := (hf a).extends_run hfrun
    exact bind_eq_ok_iff.2
      ⟨a, _, hx.again hxrun (hlarger.trans hmid), (hf a).again hfrun hlarger⟩
  sound h hp := by
    obtain ⟨a, mid, hxrun, hfrun⟩ := bind_eq_ok_iff.1 h
    exact (hf a).sound hfrun (hx.sound hxrun hp)

theorem Settles.mapM {f : α → Interning β} {as : List α} (h : ∀ a ∈ as, (f a).Settles) :
    (as.mapM f).Settles := by
  induction as with
  | nil => exact settles_pure []
  | cons a as ih =>
    rw [List.mapM_cons]
    refine (h a (by simp)).bind fun b => ?_
    exact (ih fun a' ha' => h a' (by simp [ha'])).bind fun bs => settles_pure _

theorem gives_pure_iff {pool : ConstantPool} {a b : α} :
    Gives (pure a) pool b ↔ b = a := by
  constructor
  · intro h
    cases h
    rfl
  · intro h
    subst h
    rfl

theorem gives_ofExcept_iff {x : Except EncodeError α} {pool : ConstantPool} {a : α} :
    Gives (MonadExcept.ofExcept x) pool a ↔ x = .ok a := by
  cases x with
  | error e => exact ⟨nofun, nofun⟩
  | ok b =>
    rw [Except.ok.injEq, eq_comm]
    exact gives_pure_iff

/-- A run that adds nothing consists of steps that add nothing. -/
theorem gives_bind_iff {x : Interning α} {f : α → Interning β} (hx : x.Settles)
    (hf : ∀ a, (f a).Settles) {pool : ConstantPool} {b : β} :
    Gives (x >>= f) pool b ↔ ∃ a, x.Gives pool a ∧ (f a).Gives pool b := by
  constructor
  · intro h
    obtain ⟨a, mid, hxrun, hfrun⟩ := bind_eq_ok_iff.1 h
    have hmid : mid = pool := (hx.extends_run hxrun).antisymm ((hf a).extends_run hfrun)
    subst hmid
    exact ⟨a, hxrun, hfrun⟩
  · intro h
    obtain ⟨a, hxrun, hfrun⟩ := h
    exact bind_eq_ok_iff.2 ⟨a, pool, hxrun, hfrun⟩

theorem gives_mapM_iff {f : α → Interning β} {as : List α} (h : ∀ a ∈ as, (f a).Settles)
    {pool : ConstantPool} {bs : List β} :
    Gives (as.mapM f) pool bs ↔ List.Forall₂ (fun a b => (f a).Gives pool b) as bs := by
  induction as generalizing bs with
  | nil => rw [List.mapM_nil, gives_pure_iff, List.forall₂_nil_left_iff]
  | cons a as ih =>
    have htail : ∀ a' ∈ as, (f a').Settles := fun a' ha' => h a' (by simp [ha'])
    rw [List.mapM_cons,
      gives_bind_iff (h a (by simp)) fun b => (Settles.mapM htail).bind fun bs => settles_pure _]
    simp only [gives_bind_iff (Settles.mapM htail) fun bs => settles_pure _, gives_pure_iff,
      ih htail, List.forall₂_cons_left_iff]
    constructor
    · intro h
      obtain ⟨b, hb, bs', hbs', rfl⟩ := h
      exact ⟨b, bs', hb, hbs', rfl⟩
    · intro h
      obtain ⟨b, bs', hb, hbs', rfl⟩ := h
      exact ⟨b, hb, bs', hbs', rfl⟩

/-! ## Constants -/

/-- What interning a constant does: it is found, or it is added at the end. -/
theorem constant_eq_ok_iff {c : Constant} {p q : ConstantPool} {i : UInt16} :
    constant c p = .ok i q ↔
      (∃ k, p.indexOf? c = some k ∧ i = UInt16.ofNat k ∧ q = p) ∨
        p.indexOf? c = none ∧ p.size + c.width ≤ maxWord ∧ i = UInt16.ofNat p.size
          ∧ q = p.push c := by
  unfold constant
  cases h : p.indexOf? c with
  | some k => simp [eq_comm]
  | none =>
    simp only
    split
    · next hover => simp [Nat.not_le.2 hover]
    · next hfits => simp [Nat.not_lt.1 hfits, eq_comm]

theorem constant_extends {c : Constant} {p q : ConstantPool} {i : UInt16}
    (h : constant c p = .ok i q) : q.Extends p := by
  rcases constant_eq_ok_iff.1 h with ⟨_, _, _, rfl⟩ | ⟨_, _, _, rfl⟩
  · exact .refl _
  · exact ConstantPool.extends_push p c

/-- After interning, the constant is found at the index that was given. -/
theorem indexOf?_of_constant {c : Constant} {p q : ConstantPool} {i : UInt16}
    (h : constant c p = .ok i q) : ∃ k, q.indexOf? c = some k ∧ i = UInt16.ofNat k := by
  rcases constant_eq_ok_iff.1 h with ⟨k, hk, hi, rfl⟩ | ⟨hnone, _, hi, rfl⟩
  · exact ⟨k, hk, hi⟩
  · exact ⟨p.size, ConstantPool.indexOf?_push hnone, hi⟩

theorem constant_again {c : Constant} {p q larger : ConstantPool} {i : UInt16}
    (h : constant c p = .ok i q) (hlarger : larger.Extends q) :
    constant c larger = .ok i larger := by
  obtain ⟨k, hk, hi⟩ := indexOf?_of_constant h
  exact constant_eq_ok_iff.2 (.inl ⟨k, hlarger.indexOf? hk, hi, rfl⟩)

/-- The pool stays sound when the constant refers to what it has to. -/
theorem constant_sound {c : Constant} {p q : ConstantPool} {i : UInt16}
    (h : constant c p = .ok i q) (hp : p.IsSound)
    (hc : ∀ j, (p.push c).checkEntry (j, c) = .ok ()) : q.IsSound := by
  rcases constant_eq_ok_iff.1 h with ⟨_, _, _, rfl⟩ | ⟨_, hfits, _, rfl⟩
  · exact hp
  · exact hp.push hfits (hc _)

theorem gives_constant_iff {c : Constant} {pool : ConstantPool} {i : UInt16} :
    Gives (constant c) pool i ↔ ∃ k, pool.indexOf? c = some k ∧ i = UInt16.ofNat k := by
  constructor
  · exact indexOf?_of_constant
  · intro h
    obtain ⟨k, hk, hi⟩ := h
    exact constant_eq_ok_iff.2 (.inl ⟨k, hk, hi, rfl⟩)

/-- A constant without references settles. -/
theorem settles_constant {c : Constant}
    (hc : ∀ (pool : ConstantPool) (j : UInt16), pool.checkEntry (j, c) = .ok ()) :
    (constant c).Settles where
  extends_run := constant_extends
  again := constant_again
  sound h hp := constant_sound h hp (hc _)

/-! ## Texts and class names -/

theorem settles_utf8 (text : String) : (utf8 text).Settles := by
  unfold utf8
  simp only
  split
  · exact settles_throw _
  · exact settles_constant fun _ _ => rfl

theorem gives_utf8_iff {text : String} {pool : ConstantPool} {i : UInt16} :
    Gives (utf8 text) pool i ↔
      (ModifiedUtf8.encode text).length ≤ maxWord
        ∧ Gives (constant (.utf8 (ModifiedUtf8.encode text))) pool i := by
  unfold utf8
  simp only
  split
  · next hlong => exact ⟨nofun, fun h => absurd h.1 (Nat.not_le.2 hlong)⟩
  · next hshort => exact ⟨fun h => ⟨Nat.not_lt.1 hshort, h⟩, fun h => h.2⟩

/-- In a pool that a class file can count, an interned text stands at its index. -/
theorem get?_of_gives_utf8 {text : String} {pool : ConstantPool} {i : UInt16}
    (hsize : pool.size ≤ maxWord) (h : Gives (utf8 text) pool i) :
    pool.get? i = some (.utf8 (ModifiedUtf8.encode text)) := by
  obtain ⟨k, hk, rfl⟩ := gives_constant_iff.1 (gives_utf8_iff.1 h).2
  exact ConstantPool.get?_ofNat_of_indexOf? hsize hk

/-- The name that a class entry refers to is interned before the entry, so the entry's reference is
right when it is added. -/
theorem settles_className (name : String) : (className name).Settles where
  extends_run h := by
    obtain ⟨text, mid, htext, hclass⟩ := bind_eq_ok_iff.1 h
    exact (constant_extends hclass).trans ((settles_utf8 name).extends_run htext)
  again h hlarger := by
    obtain ⟨text, mid, htext, hclass⟩ := bind_eq_ok_iff.1 h
    have hmid := constant_extends hclass
    exact bind_eq_ok_iff.2 ⟨text, _, (settles_utf8 name).again htext (hlarger.trans hmid),
      constant_again hclass hlarger⟩
  sound h hp := by
    obtain ⟨text, mid, htext, hclass⟩ := bind_eq_ok_iff.1 h
    have hmid := (settles_utf8 name).sound htext hp
    have hget := get?_of_gives_utf8 hmid.size_le ((settles_utf8 name).gives htext)
    refine constant_sound hclass hmid fun j => ?_
    refine except_forM_eq_ok_iff.2 fun reference href => ?_
    rw [List.mem_singleton.1 href]
    exact ConstantPool.checkReference_eq_ok_iff.2
      ⟨_, (ConstantPool.extends_push mid _).get? hget, rfl⟩

theorem gives_className_iff {name : String} {pool : ConstantPool} {i : UInt16} :
    Gives (className name) pool i ↔
      ∃ text, Gives (utf8 name) pool text ∧ Gives (constant (.classInfo text)) pool i := by
  constructor
  · intro h
    obtain ⟨text, mid, htext, hclass⟩ := bind_eq_ok_iff.1 h
    have hmid : mid = pool :=
      ((settles_utf8 name).extends_run htext).antisymm (constant_extends hclass)
    subst hmid
    exact ⟨text, htext, hclass⟩
  · intro h
    obtain ⟨text, htext, hclass⟩ := h
    exact bind_eq_ok_iff.2 ⟨text, pool, htext, hclass⟩

/-! ## Counts -/

theorem tableCount_eq_ok_iff {table : TableKind} {items : Nat} {count : UInt16} :
    tableCount table items = .ok count ↔ items ≤ maxWord ∧ count = UInt16.ofNat items := by
  unfold tableCount
  split
  · next h => simp [h, eq_comm]
  · next h => simp [h]

end AnnotationGraft.Interning
