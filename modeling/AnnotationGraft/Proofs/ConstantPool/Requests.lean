import AnnotationGraft.Proofs.ConstantPool.Layout
import Mathlib.Data.List.Induction

/-!
# A pool over any run of requests

A pool begins empty and is asked for constants, texts and class names, one after another; some of
the requests may be refused.  `ConstantPool.after` is the pool that a run of requests leaves.

One request at a time: `Request.isServed` says what is given for it and what it leaves of the pool,
and `Request.isTidy_leaves` that it keeps the invariant `ConstantPool.IsTidy`.  Over a run: the pool
is tidy (`ConstantPool.isTidy_after`), and it extends every pool that it has been
(`ConstantPool.after_append_extends`), so that an index, once given, keeps its meaning.
`ConstantPool.isDependable_after` puts these together.
-/

namespace AnnotationGraft

/-- What a pool may be asked for. -/
inductive Request where
  | constant (c : Constant)
  | text (s : String)
  | className (name : String)

namespace Request

/-- The index that the request asks for. -/
def index : Request → Interning UInt16
  | constant c => Interning.constant c
  | text s => Interning.utf8 s
  | className name => Interning.className name

/-- The pool that the request leaves, whether it is granted or refused. -/
def leaves (request : Request) (pool : ConstantPool) : ConstantPool :=
  match request.index pool with
  | .ok _ left => left
  | .error _ left => left

/-- What was asked for stands at the index. -/
def StandsAt (pool : ConstantPool) (i : UInt16) : Request → Prop
  | constant c => pool.get i = .ok c
  | text s => pool.get i = .ok (.utf8 (ModifiedUtf8.encode s))
  | className name => (∃ text, pool.get i = .ok (.classInfo text)) ∧ pool.className i = .ok name

/-- What becomes of a request to a pool. -/
structure IsServed (request : Request) (pool : ConstantPool) : Prop where
  /-- The pool grows at its end only. -/
  extends_leaves : (request.leaves pool).Extends pool
  /-- Where an index is given, what was asked for stands there and nowhere else, and asking for it
  again gives the same index and adds nothing. -/
  granted : ∀ i left, request.index pool = .ok i left →
    request.StandsAt left i ∧ (∀ j, left.get j = left.get i → j = i)
      ∧ request.index left = .ok i left
  /-- Where none is given, the pool stays as it is, or the text of a class name was added. -/
  refused : ∀ e left, request.index pool = .error e left →
    left = pool ∨ ∃ name, request = .className name
      ∧ pool.indexOf? (.utf8 (ModifiedUtf8.encode name)) = none
      ∧ left = pool.push (.utf8 (ModifiedUtf8.encode name))

end Request

namespace ConstantPool

/-- The pool after a run of requests, from the first to the last. -/
def after (requests : List Request) : ConstantPool :=
  requests.foldl (fun pool request => request.leaves pool) empty

/-- What every request keeps of a pool. -/
structure IsTidy (pool : ConstantPool) : Prop where
  laidOut : pool.IsLaidOut
  size_le : pool.size ≤ maxWord
  distinct : pool.HasDistinctEntries

/-- What may be relied on in the pool that a run of requests has left. -/
structure IsDependable (pool : ConstantPool) (requests : List Request) : Prop where
  /-- Slot 0 is empty, and the slot after each long or double entry, and no other. -/
  emptySlots : ∀ k, pool.slots.toList[k]? = some none ↔
    k = 0 ∨ ∃ j c, k = j + 1 ∧ pool.slots.toList[j]? = some (some c)
      ∧ (c.kind = .long ∨ c.kind = .double)
  size_le : pool.size ≤ 65535
  /-- No two slots hold the same constant. -/
  distinct : ∀ (j k : Nat) (c : Constant), pool.slots.toList[j]? = some (some c) →
    pool.slots.toList[k]? = some (some c) → j = k
  /-- An index that was given in the course of the run keeps its meaning. -/
  lasting : ∀ earlier request later i left, requests = earlier ++ request :: later →
    request.index (after earlier) = .ok i left →
    pool.Extends left ∧ request.StandsAt pool i ∧ request.index pool = .ok i pool
  /-- Any request more is served. -/
  served : ∀ request : Request, request.IsServed pool

/-! ## Tidy pools -/

theorem isTidy_empty : empty.IsTidy where
  laidOut := ⟨[], rfl⟩
  size_le := by decide
  distinct := List.nodup_nil

/-- A constant that is not there yet, and for which there is room, may be added. -/
theorem IsTidy.push {pool : ConstantPool} (h : pool.IsTidy) {c : Constant}
    (hnew : pool.indexOf? c = none) (hroom : pool.size + c.width ≤ maxWord) :
    (pool.push c).IsTidy where
  laidOut := h.laidOut.push c
  size_le := by rwa [size_push]
  distinct := by
    have hnot : c ∉ pool.entries.map (·.2) := by
      rw [map_snd_entries, List.mem_filterMap]
      rintro ⟨slot, hslot, rfl⟩
      obtain ⟨k, hk⟩ := List.getElem?_of_mem hslot
      exact indexOf?_eq_none_iff.1 hnew k hk
    rw [HasDistinctEntries, entries_push, List.map_append, List.map_singleton]
    refine List.nodup_append.2 ⟨h.distinct, by simp, ?_⟩
    intro a ha b hb hab
    obtain rfl := List.mem_singleton.1 hb
    subst hab
    exact hnot ha

/-- In a tidy pool an entry stands at one index only. -/
theorem IsTidy.eq_of_get_eq {pool : ConstantPool} (h : pool.IsTidy) {i j : UInt16} {c : Constant}
    (hi : pool.get i = .ok c) (hj : pool.get j = .ok c) : j = i := by
  have hslots := h.distinct.eq_of_getElem? (get?_eq_some_iff.1 (get_eq_ok_iff.1 hj))
    (get?_eq_some_iff.1 (get_eq_ok_iff.1 hi))
  exact UInt16.toNat_inj.1 hslots

end ConstantPool

/-! ## One request -/

namespace Interning

/-- What interning a constant does where it fails: nothing. -/
theorem constant_eq_error {c : Constant} {p q : ConstantPool} {e : EncodeError}
    (h : constant c p = .error e q) : q = p := by
  unfold constant at h
  split at h
  · cases h
  · dsimp only at h
    split at h
    · cases h
      rfl
    · cases h

theorem utf8_eq (s : String) :
    utf8 s = if maxWord < (ModifiedUtf8.encode s).length
      then throw (.stringTooLong (ModifiedUtf8.encode s).length)
      else constant (.utf8 (ModifiedUtf8.encode s)) := rfl

theorem utf8_eq_error {s : String} {p q : ConstantPool} {e : EncodeError}
    (h : utf8 s p = .error e q) : q = p := by
  rw [utf8_eq] at h
  split at h
  · cases h
    rfl
  · exact constant_eq_error h

/-- An interned text is found where it was, or was added at the end. -/
theorem utf8_eq_ok {s : String} {p q : ConstantPool} {i : UInt16} (h : utf8 s p = .ok i q) :
    constant (.utf8 (ModifiedUtf8.encode s)) p = .ok i q := by
  rw [utf8_eq] at h
  split at h
  · cases h
  · exact h

theorem isTidy_constant {c : Constant} {p q : ConstantPool} {i : UInt16}
    (h : constant c p = .ok i q) (hp : p.IsTidy) : q.IsTidy := by
  rcases constant_eq_ok_iff.1 h with ⟨_, _, _, rfl⟩ | ⟨hnew, hroom, _, rfl⟩
  · exact hp
  · exact hp.push hnew hroom

theorem isTidy_utf8 {s : String} {p q : ConstantPool} {i : UInt16} (h : utf8 s p = .ok i q)
    (hp : p.IsTidy) : q.IsTidy :=
  isTidy_constant (utf8_eq_ok h) hp

end Interning

namespace Request

variable {request : Request} {pool left : ConstantPool} {i : UInt16} {e : EncodeError}

theorem leaves_of_ok (h : request.index pool = .ok i left) : request.leaves pool = left := by
  rw [leaves, h]

theorem leaves_of_error (h : request.index pool = .error e left) : request.leaves pool = left := by
  rw [leaves, h]

/-- A request that is granted is granted again, with the same index, on every larger pool. -/
theorem index_again (h : request.index pool = .ok i left) {larger : ConstantPool}
    (hlarger : larger.Extends left) : request.index larger = .ok i larger := by
  cases request with
  | constant c => exact Interning.constant_again h hlarger
  | text s => exact (Interning.settles_utf8 s).again h hlarger
  | className name => exact (Interning.settles_className name).again h hlarger

/-- A request that adds nothing is for something that stands at its index. -/
theorem standsAt_of_gives (hsize : pool.size ≤ maxWord) (h : request.index pool = .ok i pool) :
    request.StandsAt pool i := by
  cases request with
  | constant c => exact ConstantPool.get_eq_ok_iff.2 (Interning.get?_of_gives_constant hsize h)
  | text s => exact ConstantPool.get_eq_ok_iff.2 (Interning.get?_of_gives_utf8 hsize h)
  | className name =>
    obtain ⟨text, -, hclass⟩ := Interning.gives_className_iff.1 h
    exact ⟨⟨text, ConstantPool.get_eq_ok_iff.2 (Interning.get?_of_gives_constant hsize hclass)⟩,
      Interning.className_of_gives hsize h⟩

/-- Some entry stands at the index at which what was asked for stands. -/
theorem StandsAt.exists_get (h : request.StandsAt pool i) : ∃ c, pool.get i = .ok c := by
  cases request with
  | constant c => exact ⟨c, h⟩
  | text s => exact ⟨_, h⟩
  | className name =>
    obtain ⟨text, hget⟩ := h.1
    exact ⟨_, hget⟩

/-- A refusal leaves the pool as it was, but for the text of a class name. -/
theorem index_eq_error (h : request.index pool = .error e left) :
    left = pool ∨ ∃ name, request = .className name
      ∧ pool.indexOf? (.utf8 (ModifiedUtf8.encode name)) = none
      ∧ left = pool.push (.utf8 (ModifiedUtf8.encode name)) := by
  cases request with
  | constant c => exact .inl (Interning.constant_eq_error h)
  | text s => exact .inl (Interning.utf8_eq_error h)
  | className name =>
    rcases Interning.bind_eq_error_iff.1 h with htext | ⟨text, mid, htext, hclass⟩
    · exact .inl (Interning.utf8_eq_error htext)
    · obtain rfl : left = mid := Interning.constant_eq_error hclass
      rcases Interning.constant_eq_ok_iff.1 (Interning.utf8_eq_ok htext) with
        ⟨_, _, _, hsame⟩ | ⟨hnew, _, _, hpush⟩
      · exact .inl hsame
      · exact .inr ⟨name, rfl, hnew, hpush⟩

theorem extends_of_ok (h : request.index pool = .ok i left) : left.Extends pool := by
  cases request with
  | constant c => exact Interning.constant_extends h
  | text s => exact (Interning.settles_utf8 s).extends_run h
  | className name => exact (Interning.settles_className name).extends_run h

/-- A request only adds to the pool. -/
theorem extends_leaves (request : Request) (pool : ConstantPool) :
    (request.leaves pool).Extends pool := by
  cases h : request.index pool with
  | ok i left =>
    rw [leaves_of_ok h]
    exact extends_of_ok h
  | error e left =>
    rw [leaves_of_error h]
    rcases index_eq_error h with rfl | ⟨name, _, _, rfl⟩
    · exact .refl left
    · exact ConstantPool.extends_push pool _

/-- A request leaves a tidy pool tidy. -/
theorem isTidy_leaves (request : Request) (hpool : pool.IsTidy) : (request.leaves pool).IsTidy := by
  cases h : request.index pool with
  | ok i left =>
    rw [leaves_of_ok h]
    cases request with
    | constant c => exact Interning.isTidy_constant h hpool
    | text s => exact Interning.isTidy_utf8 h hpool
    | className name =>
      obtain ⟨text, mid, htext, hclass⟩ := Interning.bind_eq_ok_iff.1 h
      exact Interning.isTidy_constant hclass (Interning.isTidy_utf8 htext hpool)
  | error e left =>
    rw [leaves_of_error h]
    cases request with
    | constant c => rwa [Interning.constant_eq_error h]
    | text s => rwa [Interning.utf8_eq_error h]
    | className name =>
      rcases Interning.bind_eq_error_iff.1 h with htext | ⟨text, mid, htext, hclass⟩
      · rwa [Interning.utf8_eq_error htext]
      · rw [Interning.constant_eq_error hclass]
        exact Interning.isTidy_utf8 htext hpool

/-- What becomes of a request to a tidy pool. -/
theorem isServed (request : Request) (hpool : pool.IsTidy) : request.IsServed pool where
  extends_leaves := request.extends_leaves pool
  granted i left h := by
    have hleft : left.IsTidy := leaves_of_ok h ▸ isTidy_leaves request hpool
    have hagain : request.index left = .ok i left := index_again h (.refl left)
    have hstands := standsAt_of_gives hleft.size_le hagain
    obtain ⟨c, hc⟩ := hstands.exists_get
    exact ⟨hstands, fun j hj => hleft.eq_of_get_eq hc (hj.trans hc), hagain⟩
  refused e left h := index_eq_error h

end Request

/-! ## A run of requests -/

namespace ConstantPool

theorem after_concat (requests : List Request) (request : Request) :
    after (requests ++ [request]) = request.leaves (after requests) := by
  rw [after, List.foldl_append]
  rfl

/-- Every run of requests leaves a tidy pool. -/
theorem isTidy_after (requests : List Request) : (after requests).IsTidy := by
  induction requests using List.reverseRecOn with
  | nil => exact isTidy_empty
  | append_singleton requests request ih =>
    rw [after_concat]
    exact request.isTidy_leaves ih

/-- A longer run leaves a larger pool. -/
theorem after_append_extends (earlier later : List Request) :
    (after (earlier ++ later)).Extends (after earlier) := by
  induction later using List.reverseRecOn with
  | nil =>
    rw [List.append_nil]
    exact .refl _
  | append_singleton later request ih =>
    rw [← List.append_assoc, after_concat]
    exact (request.extends_leaves _).trans ih

/-- Whatever a pool has been asked for, it may be relied on. -/
theorem isDependable_after (requests : List Request) :
    (after requests).IsDependable requests := by
  have htidy := isTidy_after requests
  refine ⟨fun k => htidy.laidOut.getElem?_eq_none_iff, htidy.size_le,
    fun j k c hj hk => htidy.distinct.eq_of_getElem? hj hk, ?_,
    fun request => request.isServed htidy⟩
  intro earlier request later i left hrequests hgranted
  have hlarger : (after requests).Extends left := by
    rw [hrequests, List.append_cons, ← Request.leaves_of_ok hgranted, ← after_concat]
    exact after_append_extends (earlier ++ [request]) later
  have hagain := Request.index_again hgranted hlarger
  exact ⟨hlarger, Request.standsAt_of_gives htidy.size_le hagain, hagain⟩

end ConstantPool

end AnnotationGraft
