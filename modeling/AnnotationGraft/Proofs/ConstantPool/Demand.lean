import AnnotationGraft.Proofs.ConstantPool.Requests
import AnnotationGraft.Proofs.ConstantPool.Segment

/-!
# What requests ask of a pool

Were there no limit to a pool, every request could be granted: `ConstantPool.grown` is the pool that
requests would leave.  It has as many slots more as the distinct constants need that were asked for
and were not there (`ConstantPool.size_grown`), however often each of them was asked for.

A request is granted on a pool exactly when its text fits into an entry and the pool that it would
leave is within the limit (`Request.granted_of_fits`, `Request.eq_granting_of_granted`).
-/

namespace AnnotationGraft

/-- Whether the text that a request is for, if it is for one, is short enough for an entry. -/
def Request.Fits : Request → Prop
  | constant _ => True
  | text s => (ModifiedUtf8.encode s).length ≤ maxWord
  | className name => (ModifiedUtf8.encode name).length ≤ maxWord

namespace ConstantPool

variable {pool larger : ConstantPool}

/-! ## Pools without limit -/

/-- The pool with a constant, which is added at the end if it is not there. -/
def holding (pool : ConstantPool) (c : Constant) : ConstantPool :=
  match pool.indexOf? c with
  | some _ => pool
  | none => pool.push c

/-- The index of the first entry of a text. -/
def textIndex (pool : ConstantPool) (s : String) : UInt16 :=
  UInt16.ofNat ((pool.indexOf? (.utf8 (ModifiedUtf8.encode s))).getD 0)

/-- The pool with what a request asks for. -/
def granting (pool : ConstantPool) : Request → ConstantPool
  | .constant c => pool.holding c
  | .text s => pool.holding (.utf8 (ModifiedUtf8.encode s))
  | .className name =>
    let texts := pool.holding (.utf8 (ModifiedUtf8.encode name))
    texts.holding (.classInfo (texts.textIndex name))

/-- The pool with what requests ask for, from the first to the last. -/
def grown (pool : ConstantPool) (requests : List Request) : ConstantPool :=
  requests.foldl granting pool

theorem holding_of_mem {c : Constant} {k : Nat} (h : pool.indexOf? c = some k) :
    pool.holding c = pool := by
  rw [holding, h]

theorem holding_of_not_mem {c : Constant} (h : pool.indexOf? c = none) :
    pool.holding c = pool.push c := by
  rw [holding, h]

theorem extends_holding (pool : ConstantPool) (c : Constant) : (pool.holding c).Extends pool := by
  cases h : pool.indexOf? c with
  | some k =>
    rw [holding_of_mem h]
    exact .refl pool
  | none =>
    rw [holding_of_not_mem h]
    exact extends_push pool c

theorem exists_indexOf?_holding (pool : ConstantPool) (c : Constant) :
    ∃ k, (pool.holding c).indexOf? c = some k := by
  cases h : pool.indexOf? c with
  | some k =>
    rw [holding_of_mem h]
    exact ⟨k, h⟩
  | none =>
    rw [holding_of_not_mem h]
    exact ⟨_, indexOf?_push h⟩

theorem extends_granting (pool : ConstantPool) (request : Request) :
    (pool.granting request).Extends pool := by
  cases request with
  | constant c => exact extends_holding pool c
  | text s => exact extends_holding pool _
  | className name => exact (extends_holding _ _).trans (extends_holding pool _)

theorem grown_cons (pool : ConstantPool) (request : Request) (requests : List Request) :
    pool.grown (request :: requests) = (pool.granting request).grown requests := rfl

theorem grown_append (pool : ConstantPool) (earlier later : List Request) :
    pool.grown (earlier ++ later) = (pool.grown earlier).grown later :=
  List.foldl_append

theorem extends_grown (pool : ConstantPool) (requests : List Request) :
    (pool.grown requests).Extends pool := by
  induction requests generalizing pool with
  | nil => exact .refl pool
  | cons request requests ih => exact (ih _).trans (extends_granting pool request)

/-- What is asked for first does not make the pool larger than all that is asked for. -/
theorem size_grown_le_append (pool : ConstantPool) (earlier later : List Request) :
    (pool.grown earlier).size ≤ (pool.grown (earlier ++ later)).size := by
  rw [grown_append]
  exact (extends_grown _ later).size_le

/-! ## How much a pool grows -/

/-- The constants that a request needs in a pool that holds its text. -/
def neededBy (pool : ConstantPool) : Request → List Constant
  | .constant c => [c]
  | .text s => [.utf8 (ModifiedUtf8.encode s)]
  | .className name =>
    [.utf8 (ModifiedUtf8.encode name), .classInfo (pool.textIndex name)]

/-- The slots that constants take. -/
def slotsOf (cs : List Constant) : Nat := cs.foldr (fun c slots => c.width + slots) 0

/-- The constants that requests need and the pool does not hold, each one once.  A class entry
refers to the first entry of its text in the pool that the requests leave. -/
def missing (pool : ConstantPool) (requests : List Request) : List Constant :=
  ((requests.flatMap (pool.grown requests).neededBy).filter
    fun c => (pool.indexOf? c).isNone).eraseDups

/-- In a larger pool a text is found at the same index. -/
theorem Extends.textIndex_eq (h : larger.Extends pool) {s : String} {k : Nat}
    (hk : pool.indexOf? (.utf8 (ModifiedUtf8.encode s)) = some k) :
    larger.textIndex s = pool.textIndex s := by
  rw [textIndex, textIndex, hk, h.indexOf? hk]

theorem granting_eq_foldl (h : larger.Extends (pool.granting request)) :
    pool.granting request = (larger.neededBy request).foldl holding pool := by
  cases request with
  | constant c => rfl
  | text s => rfl
  | className name =>
    obtain ⟨k, hk⟩ := exists_indexOf?_holding pool (.utf8 (ModifiedUtf8.encode name))
    have htext := (h.trans (extends_holding _ _)).textIndex_eq hk
    rw [neededBy, htext]
    rfl

/-- The pool grows by the constants that are needed, one after another. -/
theorem grown_eq_foldl (requests : List Request) (h : larger.Extends (pool.grown requests)) :
    pool.grown requests = (requests.flatMap larger.neededBy).foldl holding pool := by
  induction requests generalizing pool with
  | nil => rfl
  | cons request requests ih =>
    rw [grown_cons] at h ⊢
    rw [List.flatMap_cons, List.foldl_append, ih h,
      ← granting_eq_foldl (h.trans (extends_grown _ requests))]

theorem indexOf?_push_eq_none_iff {c d : Constant} :
    (pool.push c).indexOf? d = none ↔ pool.indexOf? d = none ∧ d ≠ c := by
  have hslots : ∀ p : ConstantPool, p.indexOf? d = none ↔ some d ∉ p.slots.toList := by
    intro p
    rw [indexOf?_eq_none_iff, List.mem_iff_getElem?, not_exists]
  rw [hslots, hslots, slots_push]
  simp [List.mem_replicate]

/-- Constants take the slots of those that are not there, and each of them only once. -/
theorem size_foldl_holding (pool : ConstantPool) (cs : List Constant) :
    (cs.foldl holding pool).size
      = pool.size + slotsOf (cs.filter fun c => (pool.indexOf? c).isNone).eraseDups := by
  induction cs generalizing pool with
  | nil => rfl
  | cons c cs ih =>
    rw [List.foldl_cons, ih]
    cases h : pool.indexOf? c with
    | some k => simp [holding_of_mem h, h]
    | none =>
      have hrest : cs.filter (fun d => ((pool.push c).indexOf? d).isNone)
          = (cs.filter fun d => (pool.indexOf? d).isNone).filter fun d => !d == c := by
        rw [List.filter_filter]
        refine List.filter_congr fun d _ => Bool.eq_iff_iff.2 ?_
        simp [indexOf?_push_eq_none_iff, and_comm]
      rw [holding_of_not_mem h, size_push, hrest, List.filter_cons_of_pos (by simp [h]),
        List.eraseDups_cons]
      simp only [slotsOf, List.foldr_cons]
      omega

/-- A pool grows by the slots of what is missing in it. -/
theorem size_grown (pool : ConstantPool) (requests : List Request) :
    (pool.grown requests).size = pool.size + slotsOf (pool.missing requests) := by
  rw [grown_eq_foldl requests (.refl _), size_foldl_holding]
  rfl

/-! ## Texts -/

theorem Extends.textsFit (h : larger.Extends pool) (hlarger : larger.TextsFit) :
    pool.TextsFit := by
  rw [textsFit_iff, map_snd_entries] at hlarger ⊢
  exact fun c hc => hlarger c ((h.sublist.filterMap id).subset hc)

theorem TextsFit.holding (h : pool.TextsFit) {c : Constant} (hc : c.Fits) :
    (pool.holding c).TextsFit := by
  cases hindex : pool.indexOf? c with
  | some k => rwa [holding_of_mem hindex]
  | none =>
    rw [holding_of_not_mem hindex, textsFit_iff, entries_push, List.map_append]
    refine List.forall_mem_append.2 ⟨textsFit_iff.1 h, ?_⟩
    exact List.forall_mem_singleton.2 hc

theorem TextsFit.granting (h : pool.TextsFit) {request : Request} (hrequest : request.Fits)
    (hc : ∀ c, request = .constant c → c.Fits) : (pool.granting request).TextsFit := by
  have htext : ∀ s : String, (ModifiedUtf8.encode s).length ≤ maxWord →
      (pool.holding (.utf8 (ModifiedUtf8.encode s))).TextsFit := by
    intro s hs
    refine h.holding fun bytes hbytes => ?_
    cases hbytes
    exact hs
  cases request with
  | constant c => exact h.holding (hc c rfl)
  | text s => exact htext s hrequest
  | className name => exact (htext name hrequest).holding nofun

end ConstantPool

/-! ## Requests within the limit -/

namespace Interning

variable {c : Constant} {name : String} {p q : ConstantPool} {i : UInt16}

theorem holding_of_constant (h : constant c p = .ok i q) : q = p.holding c := by
  rcases constant_eq_ok_iff.1 h with ⟨k, hk, -, rfl⟩ | ⟨hnone, -, -, rfl⟩
  · rw [ConstantPool.holding_of_mem hk]
  · rw [ConstantPool.holding_of_not_mem hnone]

theorem constant_eq_ok_of_size_le (h : (p.holding c).size ≤ maxWord) :
    ∃ i, constant c p = .ok i (p.holding c) := by
  cases hc : p.indexOf? c with
  | some k =>
    rw [ConstantPool.holding_of_mem hc]
    exact ⟨_, constant_eq_ok_iff.2 (.inl ⟨k, hc, rfl, rfl⟩)⟩
  | none =>
    rw [ConstantPool.holding_of_not_mem hc] at h ⊢
    rw [ConstantPool.size_push] at h
    exact ⟨_, constant_eq_ok_iff.2 (.inr ⟨hc, h, rfl, rfl⟩)⟩

/-- A text that was interned is found first at the index that was given. -/
theorem textIndex_of_constant
    (h : constant (.utf8 (ModifiedUtf8.encode name)) p = .ok i q) : q.textIndex name = i := by
  obtain ⟨k, hk, rfl⟩ := indexOf?_of_constant h
  rw [ConstantPool.textIndex, hk, Option.getD_some]

/-- A text that fits is interned as the constant that holds it. -/
theorem utf8_of_fits (h : (ModifiedUtf8.encode name).length ≤ maxWord) :
    utf8 name = constant (.utf8 (ModifiedUtf8.encode name)) := by
  rw [utf8_eq, if_neg (Nat.not_lt.2 h)]

theorem fits_of_utf8 (h : utf8 name p = .ok i q) :
    (ModifiedUtf8.encode name).length ≤ maxWord := by
  rw [utf8_eq] at h
  split at h
  · cases h
  · next hshort => exact Nat.not_lt.1 hshort

end Interning

namespace Request

variable {request : Request} {pool left : ConstantPool} {i : UInt16}

/-- A request that was granted leaves the pool with what it asks for. -/
theorem eq_granting_of_granted (h : request.index pool = .ok i left) :
    left = pool.granting request := by
  cases request with
  | constant c => exact Interning.holding_of_constant h
  | text s => exact Interning.holding_of_constant (Interning.utf8_eq_ok h)
  | className name =>
    obtain ⟨text, texts, htext, hclass⟩ := Interning.bind_eq_ok_iff.1 h
    have htexts := Interning.utf8_eq_ok htext
    rw [Interning.holding_of_constant hclass, ← Interning.textIndex_of_constant htexts,
      Interning.holding_of_constant htexts]
    rfl

/-- A request for a text is granted only if the text fits. -/
theorem fits_of_granted (h : request.index pool = .ok i left) : request.Fits := by
  cases request with
  | constant c => exact trivial
  | text s => exact Interning.fits_of_utf8 h
  | className name =>
    obtain ⟨text, texts, htext, -⟩ := Interning.bind_eq_ok_iff.1 h
    exact Interning.fits_of_utf8 htext

/-- A request that fits is granted, if the pool that it asks for is within the limit. -/
theorem granted_of_fits (hfits : request.Fits) (hsize : (pool.granting request).size ≤ maxWord) :
    ∃ i, request.index pool = .ok i (pool.granting request) := by
  cases request with
  | constant c => exact Interning.constant_eq_ok_of_size_le hsize
  | text s =>
    rw [index, Interning.utf8_of_fits hfits]
    exact Interning.constant_eq_ok_of_size_le hsize
  | className name =>
    have hfirst := Nat.le_trans (ConstantPool.extends_holding _ _).size_le hsize
    obtain ⟨text, htext⟩ := Interning.constant_eq_ok_of_size_le hfirst
    have hgranting : pool.granting (.className name)
        = (pool.holding (.utf8 (ModifiedUtf8.encode name))).holding (.classInfo text) := by
      rw [← Interning.textIndex_of_constant htext]
      rfl
    rw [hgranting] at hsize ⊢
    obtain ⟨j, hclass⟩ := Interning.constant_eq_ok_of_size_le hsize
    rw [← Interning.utf8_of_fits hfits] at htext
    refine ⟨j, ?_⟩
    rw [index, Interning.className]
    exact Interning.bind_eq_ok_iff.2 ⟨text, _, htext, hclass⟩

end Request

end AnnotationGraft
