/-!
# Computations on a state

`Moves R x` says that a computation leaves the state in the relation `R` to what it was.  The
relations of interest are reflexive and transitive, so a computation is in one of them when its
steps are (`Moves.bind`).  A computation that only reads is in the relation of equality
(`OnlyReads`); a list of such computations gives what each of them gives on its own.

A computation may also fail.  The lemmas on `ExceptT` say what a run comes to by what its first step
comes to.
-/

namespace AnnotationGraft

variable {σ α β ε : Type}

/-- Whatever the state, the computation leaves one that is in the relation to it. -/
def Moves (R : σ → σ → Prop) (x : StateM σ α) : Prop := ∀ state, R state (x.run state).2

section Moves

variable {R : σ → σ → Prop}

theorem moves_pure (hrefl : ∀ state, R state state) (a : α) : Moves R (pure a) := hrefl

theorem Moves.bind (htrans : ∀ {before between after}, R before between → R between after →
      R before after) {x : StateM σ α} {f : α → StateM σ β} (hx : Moves R x)
    (hf : ∀ a, Moves R (f a)) : Moves R (x >>= f) :=
  fun state => htrans (hx state) (hf (x.run state).1 (x.run state).2)

theorem run_bind_eq {x : StateM σ α} {f : α → StateM σ β} {a : α} {before between : σ}
    (h : x.run before = (a, between)) : (x >>= f).run before = (f a).run between := by
  rw [StateT.run_bind, h]
  rfl

end Moves

/-! ## Reading -/

/-- The computation leaves the state as it is. -/
def OnlyReads (x : StateM σ α) : Prop := ∀ state, x.run state = ((x.run state).1, state)

namespace OnlyReads

theorem pure (a : α) : OnlyReads (Pure.pure a : StateM σ α) := fun _ => rfl

theorem bind {x : StateM σ α} {f : α → StateM σ β} (hx : OnlyReads x)
    (hf : ∀ a, OnlyReads (f a)) : OnlyReads (x >>= f) := by
  intro state
  rw [run_bind_eq (hx state)]
  exact hf _ state

theorem moves {R : σ → σ → Prop} (hrefl : ∀ state, R state state) {x : StateM σ α}
    (hx : OnlyReads x) : Moves R x := by
  intro state
  rw [hx state]
  exact hrefl state

/-- Computations that only read give what each of them gives on its own. -/
theorem run_mapM {f : α → StateM σ β} (hf : ∀ a, OnlyReads (f a)) (as : List α) (state : σ) :
    (as.mapM f).run state = (as.map fun a => ((f a).run state).1, state) := by
  induction as with
  | nil => rfl
  | cons a as ih =>
    rw [List.mapM_cons, run_bind_eq (hf a state), run_bind_eq ih]
    rfl

end OnlyReads

/-! ## Failing -/

section Running

variable {before between : σ} {x : ExceptT ε (StateM σ) α} {f : α → ExceptT ε (StateM σ) β}

theorem run_bind_of_ok {a : α} (h : x.run.run before = (.ok a, between)) :
    (x >>= f).run.run before = (f a).run.run between := by
  rw [ExceptT.run_bind, run_bind_eq h]

theorem run_bind_of_error {e : ε} (h : x.run.run before = (.error e, between)) :
    (x >>= f).run.run before = (.error e, between) := by
  rw [ExceptT.run_bind, run_bind_eq h]
  rfl

theorem run_liftM_state {y : StateM σ α} {a : α} (h : y.run before = (a, between)) :
    (liftM y : ExceptT ε (StateM σ) α).run.run before = (.ok a, between) := by
  change (Except.ok <$> y).run before = _
  rw [StateT.run_map, h]
  rfl

theorem run_liftM_except (result : Except ε α) :
    (liftM result : ExceptT ε (StateM σ) α).run.run before = (result, before) := by
  cases result <;> rfl

namespace OnlyReads

theorem liftM_except (result : Except ε α) :
    OnlyReads (liftM result : ExceptT ε (StateM σ) α).run := by
  intro state
  rw [run_liftM_except]

theorem lift {y : StateM σ α} (h : OnlyReads y) :
    OnlyReads (liftM y : ExceptT ε (StateM σ) α).run := by
  intro state
  rw [run_liftM_state (h state)]

theorem bind_run (hx : OnlyReads x.run) (hf : ∀ a, OnlyReads (f a).run) :
    OnlyReads (x >>= f).run := by
  rw [ExceptT.run_bind]
  refine hx.bind fun result => ?_
  cases result with
  | ok a => exact hf a
  | error e => exact .pure _

/-- Computations that only read succeed together when each of them does on its own. -/
theorem run_mapM_except (hf : ∀ a, OnlyReads (f a).run) (as : List α) :
    (as.mapM f).run.run before = (as.mapM fun a => ((f a).run.run before).1, before) := by
  induction as with
  | nil => rfl
  | cons a as ih =>
    rw [List.mapM_cons, List.mapM_cons]
    have ha := hf a before
    cases hresult : ((f a).run.run before).1 with
    | error e =>
      rw [hresult] at ha
      exact run_bind_of_error ha
    | ok b =>
      rw [hresult] at ha
      rw [run_bind_of_ok ha]
      cases hrest : as.mapM fun a => ((f a).run.run before).1 with
      | error e =>
        rw [hrest] at ih
        exact run_bind_of_error ih
      | ok bs =>
        rw [hrest] at ih
        exact run_bind_of_ok ih

end OnlyReads

end Running

end AnnotationGraft
