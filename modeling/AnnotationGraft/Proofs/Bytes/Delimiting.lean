import AnnotationGraft.Proofs.Bytes.Reading

/-!
# Scans that know where they end

`Scan.Delimits` says of a scan that whenever it succeeds, the bytes that it took are enough and none
of them is spare.  Whatever follows them is left over, and a proper prefix of them alone is reported
as truncated: the report names a field that begins within the prefix and ends beyond it.

No two of the byte sequences that such a scan takes begin one another, so it reads a prefix-free
language.  The property is kept by the monad and by the tables of a class file.  A step within a
body takes nothing of the input, so `within` delimits whatever the step inside it does.
-/

namespace AnnotationGraft.Scan

variable {α β σ : Type}

/-- The scan reports `cut`, which begins at offset `n`, as truncated: a field that begins in it, or
right after it, needs bytes beyond it. -/
def FindsTruncated (s : Scan α) (n : Nat) (cut : Bytes) : Prop :=
  ∃ offset needed, s ⟨cut, n⟩ = .error (.truncated offset needed)
    ∧ n ≤ offset ∧ offset ≤ n + cut.length ∧ n + cut.length < offset + needed

/-- From offset `n` on, the scan takes exactly `taken` and gives `a`, whatever follows.  It needs
every byte of `taken`. -/
structure DelimitsAt (s : Scan α) (n : Nat) (taken : Bytes) (a : α) : Prop where
  takes : ∀ rest, s ⟨taken ++ rest, n⟩ = .ok (a, ⟨rest, n + taken.length⟩)
  needs : ∀ cut missing, taken = cut ++ missing → missing ≠ [] → s.FindsTruncated n cut

/-- Whenever the scan succeeds, it delimits the bytes that it took. -/
def Delimits (s : Scan α) : Prop :=
  ∀ input a after, s input = .ok (a, after) →
    ∃ taken, input.rest = taken ++ after.rest ∧ s.DelimitsAt input.offset taken a

/-! ## Steps that take nothing -/

/-- A scan that takes nothing and does not look at the input. -/
theorem delimits_of_const {s : Scan α} {x : Except DecodeError α}
    (h : ∀ input, s input = x.map fun a => (a, input)) : Delimits s := by
  intro input a after hrun
  rw [h] at hrun
  cases x with
  | error e => cases hrun
  | ok b =>
    cases hrun
    refine ⟨[], rfl, fun rest => h _, fun cut missing htaken hmissing => ?_⟩
    exact absurd (List.append_eq_nil_iff.1 htaken.symm).2 hmissing

theorem delimits_pure (a : α) : Delimits (pure a) :=
  delimits_of_const (x := .ok a) fun _ => rfl

theorem delimits_throw (e : DecodeError) : Delimits (throw e : Scan α) :=
  delimits_of_const (x := .error e) fun _ => rfl

theorem delimits_ofExcept (x : Except DecodeError α) :
    Delimits (MonadExcept.ofExcept x : Scan α) :=
  delimits_of_const (ofExcept_run x)

/-- What is within a body was delimited with the body. -/
theorem delimits_within (body : Bytes) (start : Nat) (step : Scan α) :
    Delimits (within body start step) := by
  refine delimits_of_const (x := (step ⟨body, start⟩).map fun found =>
    (found.1, found.2.rest.length)) fun input => ?_
  unfold within
  cases step ⟨body, start⟩ <;> rfl

theorem delimits_offset : Delimits offset := by
  intro input n after hrun
  cases hrun
  refine ⟨[], rfl, fun rest => rfl, fun cut missing htaken hmissing => ?_⟩
  exact absurd (List.append_eq_nil_iff.1 htaken.symm).2 hmissing

/-! ## Steps that take bytes -/

/-- A step that takes a fixed number of bytes, and finds fewer of them truncated, delimits them. -/
theorem delimits_of_count {s : Scan α} (count : Nat)
    (hshort : ∀ input : Input, input.rest.length < count →
      s input = .error (.truncated input.offset count))
    (henough : ∀ taken, taken.length = count → ∃ a, ∀ rest n,
      s ⟨taken ++ rest, n⟩ = .ok (a, ⟨rest, n + count⟩)) : Delimits s := by
  intro input a after hrun
  rcases Nat.lt_or_ge input.rest.length count with hlt | hge
  · rw [hshort input hlt] at hrun
    cases hrun
  · have hlength : (input.rest.take count).length = count := List.length_take_of_le hge
    obtain ⟨b, htakes⟩ := henough _ hlength
    have hsplit := htakes (input.rest.drop count) input.offset
    rw [List.take_append_drop] at hsplit
    cases hrun.symm.trans hsplit
    refine ⟨input.rest.take count, (List.take_append_drop _ _).symm, ⟨fun rest => ?_, ?_⟩⟩
    · rw [htakes rest input.offset, hlength]
    · intro cut missing htaken hmissing
      have hcut : cut.length < count := by
        have hpos := List.length_pos_iff.2 hmissing
        rw [htaken, List.length_append] at hlength
        omega
      exact ⟨input.offset, count, hshort ⟨cut, _⟩ hcut, by omega, by omega, by omega⟩

theorem delimits_byte : Delimits byte := by
  refine delimits_of_count 1 (fun input hshort => ?_) fun taken hlength => ?_
  · have hnil : input.rest = [] := List.length_eq_zero_iff.1 (by omega)
    simp [byte, hnil]
  · obtain ⟨b, rfl⟩ := List.length_eq_one_iff.1 hlength
    exact ⟨b, fun _ _ => rfl⟩

theorem delimits_word16 : Delimits word16 := by
  refine delimits_of_count 2 (fun input hshort => ?_) fun taken hlength => ?_
  · unfold word16
    split
    · next heq =>
      simp only [heq, List.length_cons] at hshort
      omega
    · rfl
  · obtain ⟨b1, b0, rfl⟩ := List.length_eq_two.1 hlength
    exact ⟨_, fun _ _ => rfl⟩

theorem delimits_word32 : Delimits word32 := by
  refine delimits_of_count 4 (fun input hshort => ?_) fun taken hlength => ?_
  · unfold word32
    split
    · next heq =>
      simp only [heq, List.length_cons] at hshort
      omega
    · rfl
  · obtain ⟨b3, b2, b1, b0, rfl⟩ : ∃ b3 b2 b1 b0, taken = [b3, b2, b1, b0] := by
      match taken, hlength with
      | [b3, b2, b1, b0], _ => exact ⟨b3, b2, b1, b0, rfl⟩
    exact ⟨_, fun _ _ => rfl⟩

theorem delimits_word64 : Delimits word64 := by
  refine delimits_of_count 8 (fun input hshort => ?_) fun taken hlength => ?_
  · unfold word64
    split
    · next heq =>
      simp only [heq, List.length_cons] at hshort
      omega
    · rfl
  · match taken, hlength with
    | [_, _, _, _, _, _, _, _], _ => exact ⟨_, fun _ _ => rfl⟩

theorem delimits_bytes (count : Nat) : Delimits (bytes count) := by
  refine delimits_of_count count (fun input hshort => ?_) fun taken hlength => ?_
  · have hfound : (input.rest.take count).length ≠ count := by
      rw [List.length_take]
      omega
    simp only [bytes, if_neg hfound]
  · subst hlength
    exact ⟨taken, fun rest n => bytes_run_append taken rest n⟩

/-! ## One step after another -/

/-- A cut falls into what the first step took, or the first step takes its part and the cut falls
into what the second took. -/
theorem DelimitsAt.bind {s : Scan α} {f : α → Scan β} {n : Nat} {front back : Bytes} {a : α} {b : β}
    (hs : s.DelimitsAt n front a) (hf : (f a).DelimitsAt (n + front.length) back b) :
    (s >>= f).DelimitsAt n (front ++ back) b where
  takes rest := by
    rw [List.append_assoc, bind_ok (hs.takes _), hf.takes rest, List.length_append, Nat.add_assoc]
  needs cut missing htaken hmissing := by
    rcases List.append_eq_append_iff.1 htaken with ⟨inner, rfl, hback⟩ | ⟨inner, hfront, hmore⟩
    · -- The cut falls into what the second step took.
      obtain ⟨offset, needed, hrun, hle, hwithin, hbeyond⟩ := hf.needs inner missing hback hmissing
      have hlength : (front ++ inner).length = front.length + inner.length := List.length_append
      exact ⟨offset, needed, by rw [bind_ok (hs.takes inner), hrun], by omega, by omega, by omega⟩
    · by_cases hinner : inner = []
      · -- The first step takes just what it needs, and the second finds nothing.
        subst hinner
        rw [List.append_nil] at hfront
        subst hfront
        obtain ⟨offset, needed, hrun, hle, hwithin, hbeyond⟩ := hf.needs [] back rfl
          (by rintro rfl; exact hmissing (by simpa using hmore))
        have htakes := hs.takes []
        rw [List.append_nil] at htakes
        exact ⟨offset, needed, by rw [bind_ok htakes, hrun], by omega, by simpa using hwithin,
          by simpa using hbeyond⟩
      · obtain ⟨offset, needed, hrun, hbounds⟩ := hs.needs cut inner hfront hinner
        exact ⟨offset, needed, bind_error hrun f, hbounds⟩

theorem Delimits.bind {s : Scan α} {f : α → Scan β} (hs : Delimits s) (hf : ∀ a, Delimits (f a)) :
    Delimits (s >>= f) := by
  intro input b after hrun
  obtain ⟨a, ⟨rest, mid⟩, hsrun, hfrun⟩ := bind_eq_ok_iff.1 hrun
  obtain ⟨front, hfront, hsat⟩ := hs input a _ hsrun
  obtain ⟨back, hback, hfat⟩ := hf a _ b after hfrun
  have htakes := hsat.takes rest
  rw [← hfront] at htakes
  cases hsrun.symm.trans htakes
  exact ⟨front ++ back, by rw [hfront, show rest = back ++ after.rest from hback,
    List.append_assoc], hsat.bind hfat⟩

theorem Delimits.map {s : Scan α} (hs : Delimits s) (g : α → β) :
    Delimits (s >>= fun a => pure (g a)) :=
  hs.bind fun a => delimits_pure (g a)

/-! ## Tables and loops -/

theorem delimits_times {item : Scan α} (h : Delimits item) (count : Nat) :
    Delimits (times count item) := by
  unfold times
  induction count with
  | zero => exact delimits_pure []
  | succ count ih =>
    rw [List.replicate_succ, List.mapM_cons]
    exact h.bind fun a => ih.map (a :: ·)

theorem delimits_table {item : Scan α} (h : Delimits item) : Delimits (table item) :=
  delimits_word16.bind fun count => delimits_times h count.toNat

theorem delimits_foldlM {f : σ → Scan σ} (h : ∀ state, Delimits (f state)) (count : Nat)
    (init : σ) : Delimits ((List.replicate count ()).foldlM (fun state _ => f state) init) := by
  induction count generalizing init with
  | zero => exact delimits_pure init
  | succ count ih =>
    rw [List.replicate_succ, List.foldlM_cons]
    exact (h init).bind ih

end AnnotationGraft.Scan
