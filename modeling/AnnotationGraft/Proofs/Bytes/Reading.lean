import AnnotationGraft.Bytes.Scan
import Mathlib.Data.List.Forall2

/-!
# What a scan takes and what it gives

Four ways to say what a scan does, each with the lemmas that carry it through the monad and through
the tables of a class file.

* `Scan.Reads`: the scan takes exactly the given bytes, wherever they stand and whatever follows
  them, and gives the given value.
* `Scan.Meets`: the scan takes exactly the given bytes and gives a value with a property, or it
  fails; it may fail only when a condition does not hold.
* `Scan.Fails`: the scan fails with the given error where the given bytes stand.
* `Scan.Ensures`: whenever the scan succeeds, the bytes that it took and the value that it gave are
  related.

`Reads`, `Meets` and `Fails` start from the bytes, as a writer leaves them.  `Ensures` starts from a
success on bytes that nobody has written.
-/

namespace AnnotationGraft.Scan

variable {α β σ : Type}

/-- The scan takes exactly `bytes` and gives `a`. -/
def Reads (s : Scan α) (bytes : Bytes) (a : α) : Prop :=
  ∀ rest n, s ⟨bytes ++ rest, n⟩ = .ok (a, ⟨rest, n + bytes.length⟩)

/-- The scan takes exactly `bytes` and gives a value with the property `Q`, or it fails, but never
when `sure` holds. -/
def Meets (s : Scan α) (bytes : Bytes) (sure : Prop) (Q : α → Prop) : Prop :=
  ∀ rest n,
    match s ⟨bytes ++ rest, n⟩ with
    | .ok (a, after) => after = ⟨rest, n + bytes.length⟩ ∧ Q a
    | .error _ => ¬ sure

/-- The scan fails with `e` on `bytes`, wherever they stand and whatever follows them. -/
def Fails (s : Scan α) (bytes : Bytes) (e : DecodeError) : Prop :=
  ∀ rest n, s ⟨bytes ++ rest, n⟩ = .error e

/-- Whenever the scan succeeds, `R` relates the bytes that it took to the value that it gave. -/
def Ensures (s : Scan α) (R : Bytes → α → Prop) : Prop :=
  ∀ input a after, s input = .ok (a, after) → ∃ bytes, input.rest = bytes ++ after.rest ∧ R bytes a

/-! ## One step after another -/

theorem bind_ok {s : Scan α} {input after : Input} {a : α} (h : s input = .ok (a, after))
    (f : α → Scan β) : (s >>= f) input = f a after := by
  simp only [bind, StateT.bind, h, Except.bind]

theorem bind_error {s : Scan α} {input : Input} {e : DecodeError} (h : s input = .error e)
    (f : α → Scan β) : (s >>= f) input = .error e := by
  simp only [bind, StateT.bind, h, Except.bind]

theorem bind_eq_ok_iff {s : Scan α} {f : α → Scan β} {input after : Input} {b : β} :
    (s >>= f) input = .ok (b, after) ↔
      ∃ a mid, s input = .ok (a, mid) ∧ f a mid = .ok (b, after) := by
  cases h : s input with
  | error e => simp [bind_error h]
  | ok found =>
    obtain ⟨a, mid⟩ := found
    rw [bind_ok h]
    constructor
    · exact fun hf => ⟨a, mid, rfl, hf⟩
    · intro h
      obtain ⟨_, _, heq, hf⟩ := h
      cases heq
      exact hf

theorem pure_run (a : α) (input : Input) : (pure a : Scan α) input = .ok (a, input) := rfl

theorem ofExcept_run (x : Except DecodeError α) (input : Input) :
    (MonadExcept.ofExcept x : Scan α) input = x.map fun a => (a, input) := by
  cases x <;> rfl

/-! ## Scans of given bytes -/

theorem reads_pure (a : α) : Reads (pure a) [] a := by
  intro rest n
  simp [pure_run]

theorem reads_ofExcept {x : Except DecodeError α} {a : α} (h : x = .ok a) :
    Reads (MonadExcept.ofExcept x) [] a := by
  intro rest n
  simp [ofExcept_run, h, Except.map]

theorem Reads.bind {s : Scan α} {f : α → Scan β} {front back : Bytes} {a : α} {b : β}
    (hs : Reads s front a) (hf : Reads (f a) back b) : Reads (s >>= f) (front ++ back) b := by
  intro rest n
  rw [List.append_assoc, bind_ok (hs _ n), hf rest _, List.length_append, Nat.add_assoc]

/-- A step that takes nothing leaves all the bytes to the next one. -/
theorem Reads.bind_nil {s : Scan α} {f : α → Scan β} {bytes : Bytes} {a : α} {b : β}
    (hs : Reads s [] a) (hf : Reads (f a) bytes b) : Reads (s >>= f) bytes b :=
  hs.bind hf

theorem Reads.map {s : Scan α} {bytes : Bytes} {a : α} (hs : Reads s bytes a) (g : α → β) :
    Reads (s >>= fun a => pure (g a)) bytes (g a) := by
  simpa using hs.bind (f := fun a => pure (g a)) (reads_pure (g a))

theorem reads_byte (b : UInt8) : Reads byte [b] b := fun _ _ => rfl

theorem reads_word16 (w : UInt16) : Reads word16 (BigEndian.ofUInt16 w) w :=
  word16_run_append w

theorem reads_word32 (w : UInt32) : Reads word32 (BigEndian.ofUInt32 w) w :=
  word32_run_append w

theorem reads_word64 (w : UInt64) : Reads word64 (BigEndian.ofUInt64 w) w :=
  word64_run_append w

theorem reads_bytes {count : Nat} {text : Bytes} (h : count = text.length) :
    Reads (bytes count) text text := by
  subst h
  exact bytes_run_append text

/-- Items that are read one by one are read in turn. -/
theorem reads_times {item : Scan α} {parts : List Bytes} {as : List α}
    (h : List.Forall₂ (Reads item) parts as) : Reads (times as.length item) parts.flatten as := by
  unfold times
  induction h with
  | nil => exact reads_pure []
  | @cons part a parts as hpart _ ih =>
    rw [List.length_cons, List.replicate_succ, List.mapM_cons]
    exact hpart.bind (ih.map _)

/-- The count of a table as the table's reader sees it. -/
theorem toNat_tableCount {count : Nat} (h : count ≤ 65535) :
    (UInt16.ofNat count).toNat = count := by
  rw [UInt16.toNat_ofNat']
  exact Nat.mod_eq_of_lt (by omega)

theorem reads_table {item : Scan α} {parts : List Bytes} {as : List α}
    (h : List.Forall₂ (Reads item) parts as) (hfits : as.length ≤ 65535) :
    Reads (table item) (BigEndian.ofUInt16 (UInt16.ofNat as.length) ++ parts.flatten) as := by
  unfold table
  refine (reads_word16 _).bind ?_
  rw [toNat_tableCount hfits]
  exact reads_times h

/-! ## Scans that may fail -/

theorem Reads.meets {s : Scan α} {bytes : Bytes} {a : α} {Q : α → Prop} (h : Reads s bytes a)
    (hQ : Q a) (sure : Prop) : Meets s bytes sure Q := by
  intro rest n
  rw [h rest n]
  exact ⟨rfl, hQ⟩

theorem Meets.mono {s : Scan α} {bytes : Bytes} {sure sure' : Prop} {Q Q' : α → Prop}
    (h : Meets s bytes sure Q) (hsure : sure' → sure) (hQ : ∀ a, Q a → Q' a) :
    Meets s bytes sure' Q' := by
  intro rest n
  have hrun := h rest n
  split at hrun
  · next a after _ => exact ⟨hrun.1, hQ a hrun.2⟩
  · exact fun hs => hrun (hsure hs)

theorem Meets.bind {s : Scan α} {f : α → Scan β} {front back : Bytes} {sure : Prop}
    {Q : α → Prop} {Q' : β → Prop} (hs : Meets s front sure Q)
    (hf : ∀ a, Q a → Meets (f a) back sure Q') : Meets (s >>= f) (front ++ back) sure Q' := by
  intro rest n
  have hrun := hs (back ++ rest) n
  rw [List.append_assoc]
  split at hrun
  · next a after heq =>
    rw [bind_ok heq, hrun.1, List.length_append, ← Nat.add_assoc]
    exact hf a hrun.2 rest _
  · next e heq =>
    rw [bind_error heq]
    exact hrun

theorem Reads.bind_meets {s : Scan α} {f : α → Scan β} {front back : Bytes} {a : α} {sure : Prop}
    {Q : β → Prop} (hs : Reads s front a) (hf : Meets (f a) back sure Q) :
    Meets (s >>= f) (front ++ back) sure Q :=
  (hs.meets (Q := (· = a)) rfl sure).bind fun _ ha => ha ▸ hf

theorem meets_pure {a : α} {Q : α → Prop} (h : Q a) (sure : Prop) : Meets (pure a) [] sure Q :=
  (reads_pure a).meets h sure

theorem Meets.map {s : Scan α} {bytes : Bytes} {sure : Prop} {Q : α → Prop} {Q' : β → Prop}
    {g : α → β} (hs : Meets s bytes sure Q) (hg : ∀ a, Q a → Q' (g a)) :
    Meets (s >>= fun a => pure (g a)) bytes sure Q' := by
  simpa using hs.bind fun a ha => meets_pure (Q := Q') (hg a ha) sure

/-- Items with a property each are read in turn. -/
theorem meets_times {γ : Type} {item : Scan α} {sure : γ → Prop} {Q : γ → α → Prop}
    {parts : List Bytes} {cs : List γ}
    (h : List.Forall₂ (fun part c => Meets item part (sure c) (Q c)) parts cs) :
    Meets (times cs.length item) parts.flatten (∀ c ∈ cs, sure c)
      (fun as => List.Forall₂ Q cs as) := by
  unfold times
  induction h with
  | nil => exact meets_pure .nil _
  | @cons part c parts cs hpart _ ih =>
    rw [List.length_cons, List.replicate_succ, List.mapM_cons]
    refine (hpart.mono (fun hs => hs c (by simp)) fun _ ha => ha).bind fun a ha => ?_
    exact (ih.mono (fun hs c' hc' => hs c' (by simp [hc'])) fun _ has => has).map
      fun as has => .cons ha has

theorem meets_table {γ : Type} {item : Scan α} {sure : γ → Prop} {Q : γ → α → Prop}
    {parts : List Bytes} {cs : List γ}
    (h : List.Forall₂ (fun part c => Meets item part (sure c) (Q c)) parts cs)
    (hfits : cs.length ≤ 65535) :
    Meets (table item) (BigEndian.ofUInt16 (UInt16.ofNat cs.length) ++ parts.flatten)
      (∀ c ∈ cs, sure c) (fun as => List.Forall₂ Q cs as) := by
  unfold table
  refine (reads_word16 _).bind_meets ?_
  rw [toNat_tableCount hfits]
  exact meets_times h

/-- A scan that is sure to give one value reads it. -/
theorem Meets.reads {s : Scan α} {bytes : Bytes} {sure : Prop} {a : α}
    (h : Meets s bytes sure (· = a)) (hsure : sure) : Reads s bytes a := by
  intro rest n
  have hrun := h rest n
  split at hrun
  · next b after heq =>
    obtain ⟨rfl, rfl⟩ := hrun
    exact heq
  · exact absurd hsure hrun

/-- The offset is some number, and nothing is taken for it. -/
theorem meets_offset (sure : Prop) : Meets offset [] sure fun _ => True :=
  fun _ _ => ⟨rfl, trivial⟩

/-- A property of the state of a loop, for the items read so far, that every round keeps. -/
theorem meets_foldlM {γ : Type} {f : σ → Scan σ} {sure : Prop} {I : List γ → σ → Prop}
    {R : γ → Bytes → Prop} {cs : List γ} {parts : List Bytes} {init : σ}
    (hparts : List.Forall₂ R cs parts) (hinit : I [] init)
    (hstep : ∀ front c back part state, cs = front ++ c :: back → R c part → I front state →
      Meets (f state) part sure (I (front ++ [c]))) :
    Meets ((List.replicate cs.length ()).foldlM (fun state _ => f state) init) parts.flatten sure
      (I cs) := by
  suffices hgen : ∀ (rest front : List γ) (state : σ) (parts : List Bytes), cs = front ++ rest →
      List.Forall₂ R rest parts → I front state →
      Meets ((List.replicate rest.length ()).foldlM (fun state _ => f state) state) parts.flatten
        sure (I cs) from hgen cs [] init parts rfl hparts hinit
  intro rest
  induction rest with
  | nil =>
    intro front state parts hcs hparts hstate
    obtain rfl := List.forall₂_nil_left_iff.1 hparts
    rw [List.append_nil] at hcs
    exact meets_pure (hcs ▸ hstate) sure
  | cons c rest ih =>
    intro front state parts hcs hparts hstate
    obtain ⟨part, parts, hpart, hrest, rfl⟩ := List.forall₂_cons_left_iff.1 hparts
    rw [List.length_cons, List.replicate_succ, List.foldlM_cons, List.flatten_cons]
    refine (hstep front c rest part state hcs hpart hstate).bind fun state' hstate' => ?_
    exact ih (front ++ [c]) state' parts (by rw [hcs]; simp) hrest hstate'

/-- A step that reads the whole body leaves none of it. -/
theorem reads_within {s : Scan α} {body : Bytes} {a : α} (h : Reads s body a) (start : Nat) :
    Reads (within body start s) [] (a, 0) := by
  intro rest n
  have hrun := h [] start
  rw [List.append_nil] at hrun
  simp only [within, hrun]
  rfl

/-- A step within a body takes nothing from the input. -/
theorem meets_within (s : Scan α) (body : Bytes) (start : Nat) :
    Meets (within body start s) [] False fun _ => True := by
  intro rest n
  unfold within
  cases s ⟨body, start⟩ with
  | error e => exact id
  | ok found => exact ⟨rfl, trivial⟩

theorem meets_throw (e : DecodeError) (bytes : Bytes) (Q : α → Prop) :
    Meets (throw e) bytes False Q :=
  fun _ _ => id

/-! ## Scans that fail -/

theorem fails_throw (e : DecodeError) (bytes : Bytes) : Fails (throw e : Scan α) bytes e :=
  fun _ _ => rfl

/-- What a step fails on is enough for those after it to be left out. -/
theorem Fails.bind {s : Scan α} {bytes : Bytes} {e : DecodeError} (h : Fails s bytes e)
    (f : α → Scan β) (back : Bytes) : Fails (s >>= f) (bytes ++ back) e := by
  intro rest n
  rw [List.append_assoc]
  exact bind_error (h (back ++ rest) n) f

theorem Fails.map {s : Scan α} {bytes : Bytes} {e : DecodeError} (h : Fails s bytes e)
    (f : α → Scan β) : Fails (s >>= f) bytes e := by
  simpa using h.bind f []

theorem Reads.bind_fails {s : Scan α} {f : α → Scan β} {front back : Bytes} {a : α}
    {e : DecodeError} (hs : Reads s front a) (hf : Fails (f a) back e) :
    Fails (s >>= f) (front ++ back) e := by
  intro rest n
  rw [List.append_assoc, bind_ok (hs (back ++ rest) n)]
  exact hf rest _

/-- Where items with a property are read and those without it fail with one error, the first without
it ends the reading. -/
theorem fails_times {item : Scan α} {P : α → Prop} {e : DecodeError} {parts : List Bytes}
    {as : List α}
    (h : List.Forall₂ (fun part a => (P a → Reads item part a) ∧ (¬ P a → Fails item part e))
      parts as)
    (hnot : ¬ ∀ a ∈ as, P a) : Fails (times as.length item) parts.flatten e := by
  unfold times
  induction h with
  | nil => exact absurd (List.forall_mem_nil P) hnot
  | @cons part a parts as hpart _ ih =>
    rw [List.length_cons, List.replicate_succ, List.mapM_cons, List.flatten_cons]
    rw [List.forall_mem_cons] at hnot
    by_cases ha : P a
    · have hrest : ¬ ∀ a ∈ as, P a := fun hall => hnot ⟨ha, hall⟩
      exact (hpart.1 ha).bind_fails ((ih hrest).map _)
    · exact (hpart.2 ha).bind _ _

theorem fails_table {item : Scan α} {P : α → Prop} {e : DecodeError} {parts : List Bytes}
    {as : List α}
    (h : List.Forall₂ (fun part a => (P a → Reads item part a) ∧ (¬ P a → Fails item part e))
      parts as)
    (hnot : ¬ ∀ a ∈ as, P a) (hfits : as.length ≤ 65535) :
    Fails (table item) (BigEndian.ofUInt16 (UInt16.ofNat as.length) ++ parts.flatten) e := by
  unfold table
  refine (reads_word16 _).bind_fails ?_
  rw [toNat_tableCount hfits]
  exact fails_times h hnot

/-! ## Scans that have succeeded -/

theorem Ensures.mono {s : Scan α} {R R' : Bytes → α → Prop} (h : Ensures s R)
    (hR : ∀ bytes a, R bytes a → R' bytes a) : Ensures s R' := by
  intro input a after hrun
  obtain ⟨bytes, hbytes, ha⟩ := h input a after hrun
  exact ⟨bytes, hbytes, hR bytes a ha⟩

/-- Two things that a scan ensures hold of the same bytes. -/
theorem Ensures.and {s : Scan α} {R R' : Bytes → α → Prop} (h : Ensures s R)
    (h' : Ensures s R') : Ensures s fun bytes a => R bytes a ∧ R' bytes a := by
  intro input a after hrun
  obtain ⟨bytes, hbytes, hR⟩ := h input a after hrun
  obtain ⟨bytes', hbytes', hR'⟩ := h' input a after hrun
  obtain rfl : bytes' = bytes := List.append_cancel_right (hbytes'.symm.trans hbytes)
  exact ⟨bytes', hbytes, hR, hR'⟩

theorem ensures_pure {a : α} {R : Bytes → α → Prop} (h : R [] a) : Ensures (pure a) R := by
  intro input a' after hrun
  cases hrun
  exact ⟨[], rfl, h⟩

theorem ensures_throw (e : DecodeError) (R : Bytes → α → Prop) : Ensures (throw e) R := by
  intro input a after hrun
  cases hrun

theorem ensures_ofExcept {x : Except DecodeError α} {R : Bytes → α → Prop}
    (h : ∀ a, x = .ok a → R [] a) : Ensures (MonadExcept.ofExcept x) R := by
  intro input a after hrun
  rw [ofExcept_run] at hrun
  cases x with
  | error e => cases hrun
  | ok a' =>
    cases hrun
    exact ⟨[], rfl, h a rfl⟩

/-- What the first step took stands before what the second took; the second step may rely on what
the first ensures. -/
theorem Ensures.bind {s : Scan α} {f : α → Scan β} {R : Bytes → α → Prop} {R' : Bytes → β → Prop}
    (hs : Ensures s R)
    (hf : ∀ front a, R front a → Ensures (f a) fun back b => R' (front ++ back) b) :
    Ensures (s >>= f) R' := by
  intro input b after hrun
  obtain ⟨a, mid, hsrun, hfrun⟩ := bind_eq_ok_iff.1 hrun
  obtain ⟨front, hfront, ha⟩ := hs input a mid hsrun
  obtain ⟨back, hback, hb⟩ := hf front a ha mid b after hfrun
  exact ⟨front ++ back, by rw [hfront, hback, List.append_assoc], hb⟩

theorem Ensures.map {s : Scan α} {R : Bytes → α → Prop} {R' : Bytes → β → Prop} {g : α → β}
    (hs : Ensures s R) (hg : ∀ bytes a, R bytes a → R' bytes (g a)) :
    Ensures (s >>= fun a => pure (g a)) R' := by
  refine hs.bind fun front a ha => ensures_pure ?_
  rw [List.append_nil]
  exact hg front a ha

theorem ensures_byte : Ensures byte fun bytes b => bytes = [b] := by
  intro input b after hrun
  unfold byte at hrun
  split at hrun
  · next heq =>
    cases hrun
    exact ⟨[b], by simp [heq], rfl⟩
  · cases hrun

theorem ensures_word16 : Ensures word16 fun bytes w => bytes = BigEndian.ofUInt16 w := by
  intro input w after hrun
  unfold word16 at hrun
  split at hrun
  · next b1 b0 rest heq =>
    cases hrun
    exact ⟨[b1, b0], by simp [heq], (BigEndian.ofUInt16_toUInt16 b1 b0).symm⟩
  · cases hrun

theorem ensures_word32 : Ensures word32 fun bytes w => bytes = BigEndian.ofUInt32 w := by
  intro input w after hrun
  unfold word32 at hrun
  split at hrun
  · next b3 b2 b1 b0 rest heq =>
    cases hrun
    exact ⟨[b3, b2, b1, b0], by simp [heq], (BigEndian.ofUInt32_toUInt32 b3 b2 b1 b0).symm⟩
  · cases hrun

theorem ensures_word64 : Ensures word64 fun bytes w => bytes = BigEndian.ofUInt64 w := by
  intro input w after hrun
  unfold word64 at hrun
  split at hrun
  · next b7 b6 b5 b4 b3 b2 b1 b0 rest heq =>
    cases hrun
    exact ⟨[b7, b6, b5, b4, b3, b2, b1, b0], by simp [heq],
      (BigEndian.ofUInt64_toUInt64 b7 b6 b5 b4 b3 b2 b1 b0).symm⟩
  · cases hrun

theorem ensures_bytes (count : Nat) :
    Ensures (bytes count) fun taken text => taken = text ∧ text.length = count := by
  intro input text after hrun
  simp only [bytes] at hrun
  split at hrun
  · next hlen =>
    cases hrun
    exact ⟨_, (List.take_append_drop count input.rest).symm, rfl, hlen⟩
  · cases hrun

theorem ensures_offset : Ensures offset fun bytes _ => bytes = [] := by
  intro input n after hrun
  cases hrun
  exact ⟨[], rfl, rfl⟩

/-- What a step within a body ensures holds of the body if the step leaves none of it. -/
theorem ensures_within {s : Scan α} {R : Bytes → α → Prop} (h : Ensures s R) (body : Bytes)
    (start : Nat) :
    Ensures (within body start s) fun bytes found =>
      bytes = [] ∧ (found.2 = 0 → R body found.1) := by
  intro input found after hrun
  unfold within at hrun
  split at hrun
  · next a inner heq =>
    cases hrun
    refine ⟨[], rfl, rfl, fun hunread => ?_⟩
    obtain ⟨taken, htaken, ha⟩ := h _ a inner heq
    have hbody : body = taken := by
      rw [List.eq_nil_of_length_eq_zero hunread, List.append_nil] at htaken
      exact htaken
    rwa [hbody]
  · cases hrun

theorem ensures_times {item : Scan α} {R : Bytes → α → Prop} (h : Ensures item R) (count : Nat) :
    Ensures (times count item) fun bytes as =>
      as.length = count ∧ ∃ parts, bytes = parts.flatten ∧ List.Forall₂ R parts as := by
  unfold times
  induction count with
  | zero => exact ensures_pure ⟨rfl, [], rfl, .nil⟩
  | succ count ih =>
    rw [List.replicate_succ, List.mapM_cons]
    refine h.bind fun part a ha => ih.map ?_
    intro bytes as h
    obtain ⟨hlen, parts, rfl, has⟩ := h
    exact ⟨by rw [List.length_cons, hlen], part :: parts, rfl, .cons ha has⟩

theorem ensures_table {item : Scan α} {R : Bytes → α → Prop} (h : Ensures item R) :
    Ensures (table item) fun bytes as =>
      as.length ≤ 65535 ∧ ∃ parts,
        bytes = BigEndian.ofUInt16 (UInt16.ofNat as.length) ++ parts.flatten
          ∧ List.Forall₂ R parts as := by
  unfold table
  refine ensures_word16.bind ?_
  intro front count h
  subst h
  refine (ensures_times h count.toNat).mono ?_
  intro bytes as h
  obtain ⟨hlen, parts, rfl, has⟩ := h
  have hcount := count.toNat_lt
  refine ⟨by omega, parts, ?_, has⟩
  rw [hlen, UInt16.ofNat_toNat]

/-- What holds of every item holds of every one of a table. -/
theorem ensures_table_forall {item : Scan α} {P : α → Prop}
    (h : Ensures item fun _ a => P a) : Ensures (table item) fun _ as => ∀ a ∈ as, P a := by
  refine (ensures_table h).mono ?_
  intro bytes as has
  obtain ⟨-, parts, -, hparts⟩ := has
  have hboth := hparts.flip.imp fun a part (ha : P a) => (⟨ha, trivial⟩ : P a ∧ True)
  exact ((List.forall₂_and_left _ _).1 hboth).1

/-- A property of the state of a loop that every round keeps. -/
theorem ensures_foldlM {f : σ → Scan σ} {I : Nat → Bytes → σ → Prop} {init : σ}
    (hinit : I 0 [] init)
    (hstep : ∀ n taken state, I n taken state →
      Ensures (f state) fun bytes state' => I (n + 1) (taken ++ bytes) state')
    (count : Nat) :
    Ensures ((List.replicate count ()).foldlM (fun state _ => f state) init) (I count) := by
  suffices hgen : ∀ count n taken state, I n taken state →
      Ensures ((List.replicate count ()).foldlM (fun state _ => f state) state)
        fun bytes state' => I (n + count) (taken ++ bytes) state' by
    simpa using hgen count 0 [] init hinit
  intro count
  induction count with
  | zero =>
    intro n taken state hstate
    exact ensures_pure (by simpa using hstate)
  | succ count ih =>
    intro n taken state hstate
    rw [List.replicate_succ, List.foldlM_cons]
    refine (hstep n taken state hstate).bind fun bytes state' hstate' => ?_
    refine (ih (n + 1) (taken ++ bytes) state' hstate').mono fun back state'' h => ?_
    rw [← List.append_assoc, ← Nat.add_assoc, Nat.add_right_comm]
    exact h

end AnnotationGraft.Scan
