import AnnotationGraft.Text.ModifiedUtf8

/-!
# Groups of bytes

Modified UTF-8 is a sequence of groups, each of which stands for one unit.  `Group` is the syntax of
a group and says nothing of how one is read or written.

* Reading finds the groups of a byte sequence, and there is at most one way to find them
  (`units?_eq_some_iff`).
* Writing gives each unit a group (`exists_group_unitBytes`), and no group of that unit is shorter
  (`length_unitBytes_le`).  A unit may have groups of two or three lengths; groups of one unit that
  are equally long are equal (`Group.bytes_eq`).
-/

namespace AnnotationGraft.ModifiedUtf8

/-- The bytes that may follow the first one of a group. -/
def IsTail (b : UInt8) : Prop := 0x80 ≤ b.toNat ∧ b.toNat ≤ 0xBF

instance (b : UInt8) : Decidable (IsTail b) := inferInstanceAs (Decidable (_ ∧ _))

/-- A group of bytes. -/
inductive Group where
  /-- A byte by itself is neither zero nor above 7F. -/
  | one (b : UInt8) (hb : 0x01 ≤ b.toNat ∧ b.toNat ≤ 0x7F)
  /-- A byte from C0 to DF asks for one more. -/
  | two (b c : UInt8) (hb : 0xC0 ≤ b.toNat ∧ b.toNat ≤ 0xDF) (hc : IsTail c)
  /-- A byte from E0 to EF asks for two more. -/
  | three (b c d : UInt8) (hb : 0xE0 ≤ b.toNat ∧ b.toNat ≤ 0xEF) (hc : IsTail c) (hd : IsTail d)

namespace Group

/-- The bytes of a group. -/
def bytes : Group → Bytes
  | one b _ => [b]
  | two b c _ _ => [b, c]
  | three b c d _ _ _ => [b, c, d]

/-- The unit that a group stands for.  A byte adds what it is above the least byte of its place, six
bits to each place. -/
def unit : Group → UInt16
  | one b _ => b.toUInt16
  | two b c _ _ => UInt16.ofNat ((b.toNat - 0xC0) * 0x40 + (c.toNat - 0x80))
  | three b c d _ _ _ =>
    UInt16.ofNat ((b.toNat - 0xE0) * 0x1000 + (c.toNat - 0x80) * 0x40 + (d.toNat - 0x80))

/-- Groups of one unit that are equally long are equal. -/
theorem bytes_eq {g h : Group} (hunit : g.unit = h.unit)
    (hlength : g.bytes.length = h.bytes.length) : g.bytes = h.bytes := by
  have hnat := congrArg UInt16.toNat hunit
  cases g with
  | one b hb =>
    cases h with
    | one b' hb' =>
      have hbyte : b = b' := UInt8.toNat_inj.1 (by simpa [unit] using hnat)
      subst hbyte
      rfl
    | two | three => simp [bytes] at hlength
  | two b c hb hc =>
    cases h with
    | two b' c' hb' hc' =>
      simp only [unit, UInt16.toNat_ofNat', IsTail] at hnat hc hc'
      have hfirst : b = b' := UInt8.toNat_inj.1 (by omega)
      have hsecond : c = c' := UInt8.toNat_inj.1 (by omega)
      subst hfirst hsecond
      rfl
    | one | three => simp [bytes] at hlength
  | three b c d hb hc hd =>
    cases h with
    | three b' c' d' hb' hc' hd' =>
      simp only [unit, UInt16.toNat_ofNat', IsTail] at hnat hc hd hc' hd'
      have hfirst : b = b' := UInt8.toNat_inj.1 (by omega)
      have hsecond : c = c' := UInt8.toNat_inj.1 (by omega)
      have hthird : d = d' := UInt8.toNat_inj.1 (by omega)
      subst hfirst hsecond hthird
      rfl
    | one | two => simp [bytes] at hlength

/-- No byte of a group is zero or above EF. -/
theorem toNat_of_mem_bytes {g : Group} {b : UInt8} (hb : b ∈ g.bytes) :
    b.toNat ≠ 0 ∧ b.toNat ≤ 0xEF := by
  cases g with
  | one b' hb' =>
    rw [bytes, List.mem_singleton] at hb
    subst hb
    omega
  | two b' c hb' hc =>
    simp only [bytes, List.mem_cons, List.not_mem_nil, or_false, IsTail] at hb hc
    rcases hb with rfl | rfl <;> omega
  | three b' c d hb' hc hd =>
    simp only [bytes, List.mem_cons, List.not_mem_nil, or_false, IsTail] at hb hc hd
    rcases hb with rfl | rfl | rfl <;> omega

end Group

/-! ## Reading -/

theorem isContinuation_eq_true_iff {b : UInt8} : isContinuation b = true ↔ IsTail b := by
  simp only [isContinuation, IsTail, Bool.and_eq_true, decide_eq_true_eq]
  omega

theorem unitOfTwo_eq {b c : UInt8} (hb : 0xC0 ≤ b.toNat ∧ b.toNat ≤ 0xDF) (hc : IsTail c) :
    unitOfTwo b c = (Group.two b c hb hc).unit := by
  have hfirst : b.toNat % 0x20 = b.toNat - 0xC0 := by omega
  have hsecond : c.toNat % 0x40 = c.toNat - 0x80 := by
    have := hc.1
    have := hc.2
    omega
  rw [unitOfTwo, hfirst, hsecond, Group.unit]

theorem unitOfThree_eq {b c d : UInt8} (hb : 0xE0 ≤ b.toNat ∧ b.toNat ≤ 0xEF) (hc : IsTail c)
    (hd : IsTail d) : unitOfThree b c d = (Group.three b c d hb hc hd).unit := by
  have hfirst : b.toNat % 0x10 = b.toNat - 0xE0 := by omega
  have htail : ∀ {t : UInt8}, IsTail t → t.toNat % 0x40 = t.toNat - 0x80 := by
    intro t ht
    have := ht.1
    have := ht.2
    omega
  rw [unitOfThree, hfirst, htail hc, htail hd, Group.unit]

/-- A group is read as its unit. -/
theorem unitsOnto_group (g : Group) (done : List UInt16) (rest : Bytes) :
    unitsOnto done (g.bytes ++ rest) = unitsOnto (g.unit :: done) rest := by
  cases g with
  | one b hb =>
    rw [Group.bytes, List.singleton_append, unitsOnto.eq_def]
    simp only [if_neg (show ¬b.toNat = 0 by omega), if_pos (show b.toNat < 0x80 by omega),
      Group.unit]
  | two b c hb hc =>
    rw [Group.bytes, List.cons_append, List.singleton_append, unitsOnto, if_neg (by omega),
      if_neg (by omega), if_pos (by omega), if_pos (isContinuation_eq_true_iff.2 hc),
      unitOfTwo_eq hb hc]
  | three b c d hb hc hd =>
    rw [Group.bytes, List.cons_append, List.cons_append, List.singleton_append, unitsOnto,
      if_neg (by omega), if_neg (by omega), if_neg (by omega), if_pos (by omega)]
    simp only [isContinuation_eq_true_iff.2 hc, isContinuation_eq_true_iff.2 hd, Bool.and_true,
      if_true, unitOfThree_eq hb hc hd]

theorem unitsOnto_groups (groups : List Group) (done : List UInt16) :
    unitsOnto done (groups.flatMap Group.bytes) = some (done.reverse ++ groups.map Group.unit) := by
  induction groups generalizing done with
  | nil => simp [unitsOnto]
  | cons g groups ih =>
    rw [List.flatMap_cons, unitsOnto_group, ih]
    simp

/-- What is read is a sequence of groups. -/
theorem exists_groups_of_unitsOnto {done units : List UInt16} {bytes : Bytes}
    (h : unitsOnto done bytes = some units) :
    ∃ groups : List Group, groups.flatMap Group.bytes = bytes := by
  fun_induction unitsOnto done bytes with
  | case1 => exact ⟨[], rfl⟩
  | case2 => cases h
  | case3 done b rest hpos hb ih =>
    obtain ⟨groups, rfl⟩ := ih h
    exact ⟨.one b (by omega) :: groups, rfl⟩
  | case4 done b hpos hone htwo c rest hc ih =>
    obtain ⟨groups, rfl⟩ := ih h
    exact ⟨.two b c (by omega) (isContinuation_eq_true_iff.1 hc) :: groups, rfl⟩
  | case5 | case6 => cases h
  | case7 done b hpos hone htwo hthree c d rest hcd ih =>
    obtain ⟨groups, rfl⟩ := ih h
    obtain ⟨hc, hd⟩ := Bool.and_eq_true_iff.1 hcd
    exact ⟨.three b c d (by omega) (isContinuation_eq_true_iff.1 hc)
      (isContinuation_eq_true_iff.1 hd) :: groups, rfl⟩
  | case8 | case9 | case10 => cases h

theorem units?_groups (groups : List Group) :
    units? (groups.flatMap Group.bytes) = some (groups.map Group.unit) := unitsOnto_groups groups []

/-- The units that are read are those of the groups into which the bytes split. -/
theorem units?_eq_some_iff {bytes : Bytes} {units : List UInt16} :
    units? bytes = some units ↔
      ∃ groups : List Group, groups.flatMap Group.bytes = bytes
        ∧ groups.map Group.unit = units := by
  constructor
  · intro h
    obtain ⟨groups, rfl⟩ := exists_groups_of_unitsOnto h
    rw [units?_groups, Option.some.injEq] at h
    exact ⟨groups, rfl, h⟩
  · rintro ⟨groups, rfl, rfl⟩
    exact units?_groups groups

/-! ## Writing -/

/-- The byte that continues a group with six bits. -/
theorem toNat_tail {n : Nat} (hn : n < 0x40) : (UInt8.ofNat (0x80 + n)).toNat = 0x80 + n :=
  UInt8.toNat_ofNat_of_lt' (show 0x80 + n < 256 by omega)

theorem isTail_ofNat {n : Nat} (hn : n < 0x40) : IsTail (UInt8.ofNat (0x80 + n)) := by
  rw [IsTail, toNat_tail hn]
  omega

/-- The bytes of a unit are a group of it. -/
theorem exists_group_unitBytes (u : UInt16) : ∃ g : Group, g.bytes = unitBytes u ∧ g.unit = u := by
  have hu := u.toNat_lt
  have hlow : u.toNat % 0x40 < 0x40 := by omega
  unfold unitBytes
  split
  · next htwo =>
    have hfirst : (UInt8.ofNat (0xC0 + u.toNat / 0x40)).toNat = 0xC0 + u.toNat / 0x40 :=
      UInt8.toNat_ofNat_of_lt' (show 0xC0 + u.toNat / 0x40 < 256 by omega)
    refine ⟨.two _ _ (by rw [hfirst]; omega) (isTail_ofNat hlow), rfl, UInt16.toNat_inj.1 ?_⟩
    rw [Group.unit, UInt16.toNat_ofNat', hfirst, toNat_tail hlow]
    omega
  next htwo =>
  split
  · next hone =>
    have hbyte : (UInt8.ofNat u.toNat).toNat = u.toNat :=
      UInt8.toNat_ofNat_of_lt' (show u.toNat < 256 by omega)
    refine ⟨.one _ (by rw [hbyte]; omega), rfl, UInt16.toNat_inj.1 ?_⟩
    rw [Group.unit, UInt8.toNat_toUInt16, hbyte]
  · have hmiddle : u.toNat / 0x40 % 0x40 < 0x40 := by omega
    have hfirst : (UInt8.ofNat (0xE0 + u.toNat / 0x1000)).toNat = 0xE0 + u.toNat / 0x1000 :=
      UInt8.toNat_ofNat_of_lt' (show 0xE0 + u.toNat / 0x1000 < 256 by omega)
    refine ⟨.three _ _ _ (by rw [hfirst]; omega) (isTail_ofNat hmiddle) (isTail_ofNat hlow), rfl,
      UInt16.toNat_inj.1 ?_⟩
    rw [Group.unit, UInt16.toNat_ofNat', hfirst, toNat_tail hmiddle, toNat_tail hlow]
    omega

/-- The bytes of several units are groups of them. -/
theorem exists_groups_unitBytes (units : List UInt16) :
    ∃ groups : List Group, groups.flatMap Group.bytes = units.flatMap unitBytes
      ∧ groups.map Group.unit = units := by
  induction units with
  | nil => exact ⟨[], rfl, rfl⟩
  | cons u units ih =>
    obtain ⟨g, hbytes, hunit⟩ := exists_group_unitBytes u
    obtain ⟨groups, hgroups, hunits⟩ := ih
    exact ⟨g :: groups, by rw [List.flatMap_cons, List.flatMap_cons, hbytes, hgroups],
      by rw [List.map_cons, hunit, hunits]⟩

/-- No group of a unit is shorter than the one that is written. -/
theorem length_unitBytes_le (g : Group) : (unitBytes g.unit).length ≤ g.bytes.length := by
  unfold unitBytes
  cases g with
  | one b hb =>
    have hunit : (Group.one b hb).unit.toNat = b.toNat := UInt8.toNat_toUInt16 b
    rw [if_neg (by omega), if_pos (by omega)]
    exact Nat.le_refl 1
  | two b c hb hc =>
    have hunit : (Group.two b c hb hc).unit.toNat < 0x800 := by
      simp only [Group.unit, UInt16.toNat_ofNat', IsTail] at hc ⊢
      omega
    split
    · exact Nat.le_refl 2
    next htwo =>
    rw [if_pos (by omega)]
    exact Nat.le_succ 1
  | three b c d hb hc hd =>
    split
    · exact Nat.le_succ 2
    · split
      · exact Nat.le_add_left 1 2
      · exact Nat.le_refl 3

/-- A group is as short as any group of its unit. -/
def Group.IsShortest (g : Group) : Prop :=
  ∀ h : Group, h.unit = g.unit → g.bytes.length ≤ h.bytes.length

/-- The shortest group of a unit is the one that is written. -/
theorem Group.isShortest_iff {g : Group} : g.IsShortest ↔ unitBytes g.unit = g.bytes := by
  obtain ⟨written, hwritten, hunit⟩ := exists_group_unitBytes g.unit
  constructor
  · intro h
    have hlength := Nat.le_antisymm (length_unitBytes_le g) (hwritten ▸ h written hunit)
    rw [← hwritten] at hlength ⊢
    exact bytes_eq hunit hlength
  · intro h other hother
    rw [← h, ← hother]
    exact length_unitBytes_le other

/-- Zero is written in two bytes, for a byte that is zero is no group. -/
example : (Group.two 0xC0 0x80 (by decide) (by decide)).IsShortest :=
  Group.isShortest_iff.2 (by decide)

end AnnotationGraft.ModifiedUtf8
