import Mathlib

/-! # Runs of asynchronous programs

An `async` function, once everything it can observe is fixed (what its sockets
deliver, what its clocks read, when each future becomes ready), does a
determined finite sequence of things and then returns or panics.  A `Run` is
that sequence: events other parties can see, and suspension points, where the
task waits and where whoever owns the future may drop it.

Dropping the future at a suspension point keeps exactly the events emitted
before it (`droppedAt`), so everything a dropped run does is a prefix of what
the completed run does (`droppedAt_prefix`).  A deadline (`timeout`) polls the
run first and gives up at the first wait that does not fit in what is left of
it.
-/
namespace VrpcSidecar

/-- A run of an asynchronous program against a fixed environment: `E` is the type
of its observable events, `α` that of its result. -/
inductive Run (E : Type) (α : Type) where
  /-- The program returns. -/
  | ret (a : α)
  /-- An observable event, then the rest. -/
  | emit (e : E) (k : Run E α)
  /-- A suspension of `ms` milliseconds, then the rest. -/
  | wait (ms : Nat) (k : Run E α)
  /-- The program panics. -/
  | panicked

namespace Run
variable {E α β γ : Type}

/-- Sequencing: the second program starts where the first returns. -/
def andThen : Run E α → (α → Run E β) → Run E β
  | .ret a, f => f a
  | .emit e k, f => .emit e (andThen k f)
  | .wait ms k, f => .wait ms (andThen k f)
  | .panicked, _ => .panicked

instance : Monad (Run E) where
  pure := Run.ret
  bind := Run.andThen

/-- The events of the completed run. -/
def log : Run E α → List E
  | .ret _ => []
  | .emit e k => e :: log k
  | .wait _ k => log k
  | .panicked => []

/-- What the completed run returns; `none` when it panics. -/
def result : Run E α → Option α
  | .ret a => some a
  | .emit _ k => result k
  | .wait _ k => result k
  | .panicked => none

/-- The time the completed run spends waiting. -/
def elapsed : Run E α → Nat
  | .ret _ => 0
  | .emit _ k => elapsed k
  | .wait ms k => ms + elapsed k
  | .panicked => 0

/-- The events, and the time passed, when the future is dropped at its `n`-th
suspension point; `none` when the run has ended by then. -/
def droppedAt : Nat → Run E α → Option (List E × Nat)
  | _, .ret _ => none
  | _, .panicked => none
  | n, .emit e k => (droppedAt n k).map (fun d => (e :: d.1, d.2))
  | 0, .wait _ _ => some ([], 0)
  | n + 1, .wait ms k => (droppedAt n k).map (fun d => (d.1, ms + d.2))

/-- A single observable event. -/
def emitOne (e : E) : Run E Unit := .emit e (.ret ())

/-- A single suspension. -/
def waitFor (ms : Nat) : Run E Unit := .wait ms (.ret ())

/-- Several observable events, one after the other. -/
def emitAll (es : List E) : Run E Unit := es.foldr Run.emit (.ret ())

/-- The run with its events replaced or left out. -/
def filterMapEvents {F : Type} (g : E → Option F) : Run E α → Run F α
  | .ret a => .ret a
  | .emit e k =>
    match g e with
    | some f => .emit f (filterMapEvents g k)
    | none => filterMapEvents g k
  | .wait ms k => .wait ms (filterMapEvents g k)
  | .panicked => .panicked

/-- The run together with the time it took, as `Instant::elapsed` measures it. -/
def timed (r : Run E α) : Run E (α × Nat) := r.andThen (fun a => .ret (a, r.elapsed))

/-- The run under a deadline `d` milliseconds away: `none` when it is still
waiting as the deadline passes.  The run is polled before the timer, so a wait
that ends exactly at the deadline is not cut off. -/
def timeout : Nat → Run E α → Run E (Option α)
  | _, .ret a => .ret (some a)
  | d, .emit e k => .emit e (timeout d k)
  | d, .wait ms k => if ms ≤ d then .wait ms (timeout (d - ms) k) else .wait d (.ret none)
  | _, .panicked => .panicked

/-! ## Composition -/

@[simp] theorem pure_eq (a : α) : (pure a : Run E α) = .ret a := rfl

@[simp] theorem bind_eq (r : Run E α) (f : α → Run E β) : (r >>= f) = r.andThen f := rfl

@[simp] theorem ret_andThen (a : α) (f : α → Run E β) : (Run.ret a).andThen f = f a := rfl

@[simp] theorem emit_andThen (e : E) (k : Run E α) (f : α → Run E β) :
    (Run.emit e k).andThen f = .emit e (k.andThen f) := rfl

@[simp] theorem wait_andThen (ms : Nat) (k : Run E α) (f : α → Run E β) :
    (Run.wait ms k).andThen f = .wait ms (k.andThen f) := rfl

@[simp] theorem panicked_andThen (f : α → Run E β) :
    (Run.panicked : Run E α).andThen f = .panicked := rfl

@[simp] theorem emitOne_andThen (e : E) (f : Unit → Run E β) :
    (emitOne e).andThen f = .emit e (f ()) := rfl

@[simp] theorem waitFor_andThen (ms : Nat) (f : Unit → Run E β) :
    (waitFor ms).andThen f = .wait ms (f ()) := rfl

@[simp] theorem result_ret (a : α) : (Run.ret a : Run E α).result = some a := rfl
@[simp] theorem result_emit (e : E) (k : Run E α) : (Run.emit e k).result = k.result := rfl
@[simp] theorem result_wait (ms : Nat) (k : Run E α) : (Run.wait ms k).result = k.result := rfl
@[simp] theorem log_ret (a : α) : (Run.ret a : Run E α).log = [] := rfl
@[simp] theorem log_emit (e : E) (k : Run E α) : (Run.emit e k).log = e :: k.log := rfl
@[simp] theorem log_wait (ms : Nat) (k : Run E α) : (Run.wait ms k).log = k.log := rfl

/-- The result of a sequence is the result of its second part at the first's. -/
theorem result_andThen (r : Run E α) (f : α → Run E β) :
    (r.andThen f).result = r.result.bind (fun a => (f a).result) := by
  induction r with
  | ret a => rfl
  | emit e k ih => simpa using ih
  | wait ms k ih => simpa using ih
  | panicked => rfl

/-- A sequence returns what its second part returns from a result of its first. -/
theorem result_andThen_eq_some {r : Run E α} {f : α → Run E β} {b : β} :
    (r.andThen f).result = some b ↔ ∃ a, r.result = some a ∧ (f a).result = some b := by
  rw [result_andThen, Option.bind_eq_some_iff]

/-- The events of a sequence whose first part returns `a`. -/
theorem log_andThen {r : Run E α} {a : α} (h : r.result = some a) (f : α → Run E β) :
    (r.andThen f).log = r.log ++ (f a).log := by
  induction r with
  | ret b =>
    obtain rfl := Option.some.inj h
    rfl
  | emit e k ih => simpa using ih h
  | wait ms k ih => simpa using ih h
  | panicked => cases h

/-- A sequence takes the time of its two parts. -/
theorem elapsed_andThen {r : Run E α} {a : α} (h : r.result = some a) (f : α → Run E β) :
    (r.andThen f).elapsed = r.elapsed + (f a).elapsed := by
  induction r with
  | ret b =>
    obtain rfl := Option.some.inj h
    exact (Nat.zero_add _).symm
  | emit e k ih => exact ih h
  | wait ms k ih =>
    rw [wait_andThen, elapsed, elapsed, ih h]
    omega
  | panicked => cases h

/-- Returning something else from a run leaves its events alone. -/
theorem log_andThen_ret (r : Run E α) (f : α → β) : (r.andThen (fun a => .ret (f a))).log = r.log := by
  induction r with
  | ret a => rfl
  | emit e k ih => exact congrArg (e :: ·) ih
  | wait ms k ih => exact ih
  | panicked => rfl

@[simp] theorem result_timed (r : Run E α) :
    r.timed.result = r.result.map (fun a => (a, r.elapsed)) := by
  rw [timed, result_andThen]
  cases r.result <;> rfl

theorem log_timed {r : Run E α} {a : α} (h : r.result = some a) : r.timed.log = r.log := by
  rw [timed, log_andThen h]
  simp

/-! ## Dropped futures -/

/-- **What a dropped run has done, the completed run does too**: its events are a
prefix of the completed run's. -/
theorem droppedAt_prefix {r : Run E α} {n : Nat} {d : List E × Nat}
    (h : r.droppedAt n = some d) : d.1 <+: r.log := by
  induction r generalizing n d with
  | ret a => cases n <;> cases h
  | panicked => cases n <;> cases h
  | emit e k ih =>
    rw [droppedAt] at h
    obtain ⟨d', hd', rfl⟩ := Option.map_eq_some_iff.mp h
    exact List.cons_prefix_cons.mpr ⟨rfl, ih hd'⟩
  | wait ms k ih =>
    cases n with
    | zero =>
      obtain rfl := Option.some.inj h
      exact List.nil_prefix
    | succ n =>
      obtain ⟨d', hd', rfl⟩ := Option.map_eq_some_iff.mp h
      exact ih (d := d') hd'

/-! ## Deadlines -/

/-- A deadline only cuts events off. -/
theorem log_timeout_prefix (d : Nat) (r : Run E α) : (timeout d r).log <+: r.log := by
  induction r generalizing d with
  | ret a => exact List.prefix_refl _
  | panicked => exact List.prefix_refl _
  | emit e k ih => exact List.cons_prefix_cons.mpr ⟨rfl, ih d⟩
  | wait ms k ih =>
    rw [timeout]
    split
    · exact ih _
    · exact List.nil_prefix

/-- A run that beats its deadline returns what it returns without one. -/
theorem result_of_timeout {d : Nat} {r : Run E α} {a : α}
    (h : (timeout d r).result = some (some a)) : r.result = some a := by
  induction r generalizing d with
  | ret b => exact Option.some.inj h
  | panicked => cases h
  | emit e k ih => exact ih h
  | wait ms k ih =>
    rw [timeout] at h
    split at h
    · exact ih h
    · cases h

/-- A run that can return can return under a deadline, if only to say that it
passed. -/
theorem timeout_returns {d : Nat} {r : Run E α} {a : α} (h : r.result = some a) :
    ∃ o, (timeout d r).result = some o ∧ (o = none ∨ o = some a) := by
  induction r generalizing d with
  | ret b =>
    obtain rfl := Option.some.inj h
    exact ⟨some b, rfl, Or.inr rfl⟩
  | panicked => cases h
  | emit e k ih => exact ih h
  | wait ms k ih =>
    rw [timeout]
    split
    · exact ih h
    · exact ⟨none, rfl, Or.inl rfl⟩

/-- A run that waits no longer than its deadline is not cut off. -/
theorem timeout_of_elapsed_le {d : Nat} {r : Run E α} {a : α} (h : r.result = some a)
    (hd : r.elapsed ≤ d) : (timeout d r).result = some (some a) := by
  induction r generalizing d with
  | ret b => exact congrArg some h
  | panicked => cases h
  | emit e k ih => exact ih h hd
  | wait ms k ih =>
    have hms : ms + k.elapsed ≤ d := hd
    rw [timeout, if_pos (by omega)]
    exact ih h (by omega)

/-- **A run under a deadline takes its own time or that of the deadline**, whichever is
less. -/
theorem elapsed_timeout {d : Nat} {r : Run E α} {a : α} (h : r.result = some a) :
    (timeout d r).elapsed = min d r.elapsed := by
  induction r generalizing d with
  | ret b => exact (Nat.min_zero d).symm
  | panicked => cases h
  | emit e k ih => exact ih h
  | wait ms k ih =>
    rw [timeout, elapsed]
    split
    · rw [elapsed, ih h]
      omega
    · show d + 0 = _
      omega

/-- It is cut off exactly when it takes longer. -/
theorem timeout_eq_none_iff {d : Nat} {r : Run E α} {a : α} (h : r.result = some a) :
    (timeout d r).result = some none ↔ d < r.elapsed := by
  induction r generalizing d with
  | ret b =>
    have hne : (timeout d (.ret b : Run E α)).result = some (some b) := rfl
    rw [hne]
    simp [elapsed]
  | panicked => cases h
  | emit e k ih => exact ih h
  | wait ms k ih =>
    rw [timeout, elapsed]
    split
    · rw [result_wait, ih h]
      omega
    · rw [result_wait, result_ret]
      exact iff_of_true rfl (by omega)

/-! ## Replaced events -/

section FilterMap
variable {F : Type} (g : E → Option F)

@[simp] theorem filterMapEvents_ret (a : α) : filterMapEvents g (.ret a) = .ret a := rfl

@[simp] theorem filterMapEvents_panicked :
    filterMapEvents g (.panicked : Run E α) = .panicked := rfl

/-- Replacing events goes through sequencing. -/
@[simp] theorem filterMapEvents_andThen (r : Run E α) (f : α → Run E β) :
    filterMapEvents g (r.andThen f) =
      (filterMapEvents g r).andThen (fun a => filterMapEvents g (f a)) := by
  induction r with
  | ret a => rfl
  | emit e k ih =>
    rw [emit_andThen, filterMapEvents, filterMapEvents]
    cases g e with
    | none => exact ih
    | some f' => exact congrArg (Run.emit f') ih
  | wait ms k ih => exact congrArg (Run.wait ms) ih
  | panicked => rfl

theorem filterMapEvents_comp {G : Type} (h : F → Option G) (r : Run E α) :
    filterMapEvents h (filterMapEvents g r) = filterMapEvents (fun e => (g e).bind h) r := by
  induction r with
  | ret a => rfl
  | emit e k ih =>
    rw [filterMapEvents, filterMapEvents]
    cases g e with
    | none => exact ih
    | some f =>
      rw [Option.bind_some]
      dsimp only
      rw [filterMapEvents, ih]
  | wait ms k ih => exact congrArg (Run.wait ms) ih
  | panicked => rfl

theorem filterMapEvents_some (r : Run E α) : filterMapEvents some r = r := by
  induction r with
  | ret a => rfl
  | emit e k ih => exact congrArg (Run.emit e) ih
  | wait ms k ih => exact congrArg (Run.wait ms) ih
  | panicked => rfl

/-- Leaving every event out of a run of events leaves nothing. -/
theorem filterMapEvents_emitAll (es : List E) :
    filterMapEvents g (emitAll es) = emitAll (es.filterMap g) := by
  induction es with
  | nil => rfl
  | cons e es ih =>
    show filterMapEvents g (.emit e (emitAll es)) = _
    rw [filterMapEvents]
    cases hg : g e with
    | none => rw [List.filterMap_cons_none hg, ← ih]
    | some f =>
      rw [List.filterMap_cons_some hg, ih]
      rfl

@[simp] theorem result_filterMapEvents (r : Run E α) :
    (filterMapEvents g r).result = r.result := by
  induction r with
  | ret a => rfl
  | emit e k ih =>
    rw [filterMapEvents]
    cases g e with
    | none => exact ih
    | some f => exact ih
  | wait ms k ih => exact ih
  | panicked => rfl

@[simp] theorem log_filterMapEvents (r : Run E α) :
    (filterMapEvents g r).log = r.log.filterMap g := by
  induction r with
  | ret a => rfl
  | emit e k ih =>
    rw [filterMapEvents, log_emit]
    cases hg : g e with
    | none => rw [List.filterMap_cons_none hg, ← ih]
    | some f => rw [List.filterMap_cons_some hg, ← ih, log_emit]
  | wait ms k ih => exact ih
  | panicked => rfl

end FilterMap

@[simp] theorem result_emitAll (es : List E) : (emitAll es).result = some () := by
  induction es with
  | nil => rfl
  | cons e es ih => exact ih

@[simp] theorem log_emitAll (es : List E) : (emitAll es).log = es := by
  induction es with
  | nil => rfl
  | cons e es ih => exact congrArg (e :: ·) ih

end Run
end VrpcSidecar
