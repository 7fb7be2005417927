import VrpcSidecar.AsyncRuns

/-! # Many runs side by side

A server polls the futures of its calls in an order nobody controls, and drops the future
of a call whose client is gone.  A `Pool` is the state of such a server: the phase each
task is in, and the events of all tasks in the order they happened.  A step advances one
task by one `Advance`, and nothing is assumed of the order of the steps.

`Reaches` says how far a single run has come.  `Accounted` relates the phase of a task to
what the log holds of it, and `accounted` proves the relation in every reachable state: a
task that has ended has left what it leaves on its own (`Job.Leaves`), and a running one a
part of that.  `completes` goes the other way: a running task can reach its end, whatever the
other tasks do.

A `Service` puts a life around the pool: it boots or gives up, accepts calls, and after a
signal drains them and stops.  `Service.sound` says what holds in each stage, and
`drain_completes` that a drain can always end with every call answered.
-/
namespace VrpcSidecar

/-! ## How far a run has come -/

namespace Run
variable {E α β : Type}

/-- The run has emitted `es` and waited `t` milliseconds at `n` suspension points, and
`rest` is left of it. -/
inductive Reaches (r : Run E α) : List E → Nat → Nat → Run E α → Prop where
  | refl : Reaches r [] 0 0 r
  | emit {es : List E} {t n : Nat} {e : E} {k : Run E α} (h : Reaches r es t n (.emit e k)) :
      Reaches r (es ++ [e]) t n k
  | wait {es : List E} {t n ms : Nat} {k : Run E α} (h : Reaches r es t n (.wait ms k)) :
      Reaches r es (t + ms) (n + 1) k

namespace Reaches
variable {r rest : Run E α} {es : List E} {t n : Nat}

theorem log_eq (h : Reaches r es t n rest) : r.log = es ++ rest.log := by
  induction h with
  | refl => rfl
  | emit h ih => rw [ih, List.append_assoc, log_emit, List.singleton_append]
  | wait h ih => rw [ih, log_wait]

theorem result_eq (h : Reaches r es t n rest) : r.result = rest.result := by
  induction h with
  | refl => rfl
  | emit h ih => rw [ih, result_emit]
  | wait h ih => rw [ih, result_wait]

/-- Dropping what is left drops the run, at a later suspension point. -/
theorem droppedAt_add (h : Reaches r es t n rest) (m : Nat) :
    r.droppedAt (n + m) = (rest.droppedAt m).map (fun d => (es ++ d.1, t + d.2)) := by
  induction h generalizing m with
  | refl =>
    rw [Nat.zero_add]
    simp
  | emit h ih =>
    rw [ih, droppedAt, Option.map_map]
    congr 1
    funext d
    simp
  | wait h ih =>
    rw [Nat.add_assoc, Nat.add_comm 1 m, ih, droppedAt, Option.map_map]
    congr 1
    funext d
    simp [Nat.add_assoc]

/-- At a suspension point the run can be dropped. -/
theorem droppedAt_wait {ms : Nat} {k : Run E α} (h : Reaches r es t n (.wait ms k)) :
    r.droppedAt n = some (es, t) := by
  have hdrop := h.droppedAt_add 0
  rw [Nat.add_zero] at hdrop
  rw [hdrop]
  simp [droppedAt]

end Reaches

/-- A run after which nothing waits is dropped where its first part is. -/
theorem droppedAt_andThen {r : Run E α} {f : α → Run E β}
    (hf : ∀ a m, (f a).droppedAt m = none) (n : Nat) :
    (r.andThen f).droppedAt n = r.droppedAt n := by
  induction r generalizing n with
  | ret a =>
    rw [ret_andThen, hf]
    cases n <;> rfl
  | emit e k ih => rw [emit_andThen, droppedAt, ih, droppedAt]
  | wait ms k ih =>
    cases n with
    | zero => rfl
    | succ n => rw [wait_andThen, droppedAt, ih, droppedAt]
  | panicked => cases n <;> rfl

/-- Replacing events replaces them in a dropped run too. -/
theorem droppedAt_filterMapEvents {F : Type} (g : E → Option F) (r : Run E α) (n : Nat) :
    (filterMapEvents g r).droppedAt n =
      (r.droppedAt n).map (fun d => (d.1.filterMap g, d.2)) := by
  induction r generalizing n with
  | ret a => cases n <;> rfl
  | panicked => cases n <;> rfl
  | emit e k ih =>
    rw [filterMapEvents, droppedAt, Option.map_map]
    cases hg : g e with
    | none =>
      dsimp only
      rw [ih]
      congr 1
      funext d
      simp [hg]
    | some f =>
      dsimp only
      rw [droppedAt, ih, Option.map_map]
      congr 1
      funext d
      simp [hg]
  | wait ms k ih =>
    cases n with
    | zero => rfl
    | succ n =>
      rw [filterMapEvents, droppedAt, droppedAt, ih, Option.map_map, Option.map_map]
      rfl

end Run

/-! ## Tasks -/

/-- A task: its run, and what the destructors of the values it holds emit when its future
is dropped `t` milliseconds after it started. -/
structure Job (E α : Type) where
  run : Run E α
  onDrop : Nat → List E

namespace Job
variable {E α β : Type}

/-- The task with its result changed. -/
def map (f : α → β) (job : Job E α) : Job E β :=
  ⟨job.run.andThen (fun a => .ret (f a)), job.onDrop⟩

/-- The task with its events embedded in a larger type. -/
def embed {F : Type} (g : E → F) (job : Job E α) : Job F α :=
  ⟨job.run.filterMapEvents (fun e => some (g e)), fun t => (job.onDrop t).map g⟩

/-- **What an ended task leaves**: with a result, the events of its run; without one, the
events up to a suspension point and those of its destructors. -/
inductive Leaves (job : Job E α) : Option α → List E → Prop where
  | returned {a : α} (h : job.run.result = some a) : Leaves job (some a) job.run.log
  | dropped {n : Nat} {d : List E × Nat} (h : job.run.droppedAt n = some d) :
      Leaves job none (d.1 ++ job.onDrop d.2)

/-- A task that returns at once is never dropped. -/
theorem leaves_ret_iff {a : α} {onDrop : Nat → List E} {o : Option α} {es : List E} :
    (⟨.ret a, onDrop⟩ : Job E α).Leaves o es ↔ o = some a ∧ es = [] := by
  constructor
  · intro h
    cases h with
    | returned h => exact ⟨h.symm, rfl⟩
    | dropped h => cases h
  · rintro ⟨rfl, rfl⟩
    exact .returned rfl

/-- A task that left a result returned it. -/
theorem Leaves.result_eq {job : Job E α} {a : α} {es : List E} (h : job.Leaves (some a) es) :
    job.run.result = some a := by
  cases h with
  | returned h => exact h

/-- It left the events of its run. -/
theorem Leaves.log_eq {job : Job E α} {a : α} {es : List E} (h : job.Leaves (some a) es) :
    es = job.run.log := by
  cases h with
  | returned h => rfl

/-- Without destructors, a task leaves a part of the events of its run. -/
theorem Leaves.log_prefix {job : Job E α} {o : Option α} {es : List E} (h : job.Leaves o es)
    (hdrop : ∀ t, job.onDrop t = []) : es <+: job.run.log := by
  cases h with
  | returned h => exact List.prefix_refl _
  | dropped h =>
    rw [hdrop, List.append_nil]
    exact Run.droppedAt_prefix h

theorem result_map (f : α → β) (job : Job E α) :
    (job.map f).run.result = job.run.result.map f := by
  rw [map, Run.result_andThen]
  cases job.run.result <;> rfl

theorem log_map (f : α → β) (job : Job E α) : (job.map f).run.log = job.run.log :=
  Run.log_andThen_ret _ f

theorem droppedAt_map (f : α → β) (job : Job E α) (n : Nat) :
    (job.map f).run.droppedAt n = job.run.droppedAt n :=
  Run.droppedAt_andThen (fun a m => by cases m <;> rfl) n

/-- Changing the result changes nothing else. -/
theorem leaves_map_iff {f : α → β} {job : Job E α} {o : Option β} {es : List E} :
    (job.map f).Leaves o es ↔ ∃ o', job.Leaves o' es ∧ o = o'.map f := by
  constructor
  · intro h
    cases h with
    | returned h =>
      rw [result_map] at h
      obtain ⟨a, ha, rfl⟩ := Option.map_eq_some_iff.mp h
      rw [log_map]
      exact ⟨some a, .returned ha, rfl⟩
    | dropped h =>
      rw [droppedAt_map] at h
      exact ⟨none, .dropped h, rfl⟩
  · rintro ⟨o', h, rfl⟩
    cases h with
    | returned h =>
      rw [← log_map f job]
      exact .returned (by rw [result_map, h]; rfl)
    | dropped h =>
      have hd := (droppedAt_map f job _).trans h
      exact .dropped hd

section Embed
variable {F : Type} (g : E → F)

theorem result_embed (job : Job E α) : (job.embed g).run.result = job.run.result :=
  Run.result_filterMapEvents _ _

theorem log_embed (job : Job E α) : (job.embed g).run.log = job.run.log.map g := by
  rw [embed, Run.log_filterMapEvents]
  simp

theorem droppedAt_embed (job : Job E α) (n : Nat) :
    (job.embed g).run.droppedAt n =
      (job.run.droppedAt n).map (fun d => (d.1.map g, d.2)) := by
  rw [embed, Run.droppedAt_filterMapEvents]
  simp

variable {g}

/-- An embedded task leaves its events, embedded. -/
theorem leaves_embed_iff {job : Job E α} {o : Option α} {fs : List F} :
    (job.embed g).Leaves o fs ↔ ∃ es, job.Leaves o es ∧ fs = es.map g := by
  constructor
  · intro h
    cases h with
    | returned h =>
      rw [result_embed] at h
      exact ⟨_, .returned h, log_embed g job⟩
    | dropped h =>
      rw [droppedAt_embed] at h
      obtain ⟨d, hd, rfl⟩ := Option.map_eq_some_iff.mp h
      exact ⟨_, .dropped hd, (List.map_append ..).symm⟩
  · rintro ⟨es, h, rfl⟩
    cases h with
    | returned h =>
      rw [← log_embed]
      exact .returned ((result_embed g job).trans h)
    | dropped h =>
      rw [List.map_append]
      have hd := (droppedAt_embed g job _).trans (congrArg _ h)
      exact .dropped hd

end Embed

end Job

/-- What has become of a task. -/
inductive Phase (E α : Type) where
  | idle
  | running (rest : Run E α) (elapsed : Nat)
  | returned (a : α)
  | dropped

/-- **One step of one task**, with the events it emits.  A future is dropped at a
suspension point only; a panic unwinds through the destructors. -/
inductive Advance {E α : Type} (job : Job E α) : Phase E α → List E → Phase E α → Prop where
  | start : Advance job .idle [] (.running job.run 0)
  | emit {e : E} {k : Run E α} {t : Nat} : Advance job (.running (.emit e k) t) [e] (.running k t)
  | wake {ms : Nat} {k : Run E α} {t : Nat} :
      Advance job (.running (.wait ms k) t) [] (.running k (t + ms))
  | finish {a : α} {t : Nat} : Advance job (.running (.ret a) t) [] (.returned a)
  | drop {ms : Nat} {k : Run E α} {t : Nat} :
      Advance job (.running (.wait ms k) t) (job.onDrop t) .dropped
  | unwind {t : Nat} : Advance job (.running .panicked t) (job.onDrop t) .dropped

/-- **What a task has emitted, by the phase it is in.** -/
inductive Accounted {E α : Type} (job : Job E α) : Phase E α → List E → Prop where
  | idle : Accounted job .idle []
  | running {rest : Run E α} {es : List E} {t n : Nat} (h : job.run.Reaches es t n rest) :
      Accounted job (.running rest t) es
  | returned {a : α} (h : job.run.result = some a) : Accounted job (.returned a) job.run.log
  | dropped {n : Nat} {d : List E × Nat} (h : job.run.droppedAt n = some d) :
      Accounted job .dropped (d.1 ++ job.onDrop d.2)
  | unwound {es : List E} {t n : Nat} (h : job.run.Reaches es t n .panicked) :
      Accounted job .dropped (es ++ job.onDrop t)

/-- A step of a task keeps the account. -/
theorem Accounted.advance {E α : Type} {job : Job E α} {ph ph' : Phase E α} {es es' : List E}
    (h : Accounted job ph es) (hstep : Advance job ph es' ph') :
    Accounted job ph' (es ++ es') := by
  cases hstep with
  | start =>
    cases h
    exact .running .refl
  | emit =>
    cases h with
    | running h => exact .running h.emit
  | wake =>
    cases h with
    | running h =>
      rw [List.append_nil]
      exact .running h.wait
  | finish =>
    cases h with
    | running h =>
      rw [List.append_nil]
      have hlog := h.log_eq
      rw [Run.log_ret, List.append_nil] at hlog
      rw [← hlog]
      exact .returned h.result_eq
  | drop =>
    cases h with
    | running h => exact .dropped h.droppedAt_wait
  | unwind =>
    cases h with
    | running h => exact .unwound h

/-! ## Pools -/

/-- The phases of all tasks, and the events so far with the tasks that emitted them. -/
structure Pool (I E α : Type) where
  phase : I → Phase E α
  log : List (I × E)

namespace Pool
variable {I E α : Type} [DecidableEq I]

/-- No task has started. -/
def initial : Pool I E α := ⟨fun _ => .idle, []⟩

/-- The events one task has emitted. -/
def eventsOf (s : Pool I E α) (i : I) : List E :=
  s.log.filterMap (fun p => if p.1 = i then some p.2 else none)

theorem mem_eventsOf {s : Pool I E α} {i : I} {e : E} : e ∈ s.eventsOf i ↔ (i, e) ∈ s.log := by
  rw [eventsOf, List.mem_filterMap]
  constructor
  · rintro ⟨⟨j, e'⟩, hmem, h⟩
    split at h
    · rename_i hij
      cases h
      cases hij
      exact hmem
    · cases h
  · intro hmem
    exact ⟨_, hmem, if_pos rfl⟩

/-- The task `i` goes into a phase and emits `es`. -/
def put (s : Pool I E α) (i : I) (ph : Phase E α) (es : List E) : Pool I E α :=
  ⟨Function.update s.phase i ph, s.log ++ es.map (fun e => (i, e))⟩

@[simp] theorem phase_put_self (s : Pool I E α) (i : I) (ph : Phase E α) (es : List E) :
    (s.put i ph es).phase i = ph := Function.update_self ..

theorem phase_put_other (s : Pool I E α) {i j : I} (h : j ≠ i) (ph : Phase E α) (es : List E) :
    (s.put i ph es).phase j = s.phase j := Function.update_of_ne h ..

theorem eventsOf_put_self (s : Pool I E α) (i : I) (ph : Phase E α) (es : List E) :
    (s.put i ph es).eventsOf i = s.eventsOf i ++ es := by
  have hown : (es.map (fun e => (i, e))).filterMap
      (fun p : I × E => if p.1 = i then some p.2 else none) = es := by
    rw [List.filterMap_map]
    simp
  rw [eventsOf, put, List.filterMap_append, hown]
  rfl

theorem eventsOf_put_other (s : Pool I E α) {i j : I} (h : j ≠ i) (ph : Phase E α)
    (es : List E) : (s.put i ph es).eventsOf j = s.eventsOf j := by
  have hnone : (es.map (fun e => (i, e))).filterMap
      (fun p : I × E => if p.1 = j then some p.2 else none) = [] := by
    rw [List.filterMap_map, List.filterMap_eq_nil_iff]
    intro e _
    exact if_neg (Ne.symm h)
  rw [eventsOf, put, List.filterMap_append, hnone, List.append_nil]
  rfl

/-- Two steps of one task are one longer one. -/
theorem put_put (s : Pool I E α) (i : I) (ph ph' : Phase E α) (es es' : List E) :
    (s.put i ph es).put i ph' es' = s.put i ph' (es ++ es') := by
  simp [put, List.append_assoc]

/-- **A step of the pool**: some task advances. -/
inductive Step (jobs : I → Job E α) (s : Pool I E α) : Pool I E α → Prop where
  | advance {i : I} {es : List E} {ph : Phase E α} (h : Advance (jobs i) (s.phase i) es ph) :
      Step jobs s (s.put i ph es)

/-- The states the pool can get into from one with no task started. -/
def Reachable (jobs : I → Job E α) (s : Pool I E α) : Prop :=
  Relation.ReflTransGen (Step jobs) initial s

variable {jobs : I → Job E α} {s : Pool I E α}

/-- The account of every task survives a step of any task. -/
theorem Step.accounted {s' : Pool I E α} (hstep : Step jobs s s')
    (h : ∀ i, Accounted (jobs i) (s.phase i) (s.eventsOf i)) (i : I) :
    Accounted (jobs i) (s'.phase i) (s'.eventsOf i) := by
  obtain ⟨hadv⟩ := hstep
  rename_i j es ph
  by_cases hij : i = j
  · subst hij
    rw [phase_put_self, eventsOf_put_self]
    exact (h i).advance hadv
  · rw [phase_put_other s hij, eventsOf_put_other s hij]
    exact h i

/-- **In every reachable state every task is accounted for.** -/
theorem accounted (h : Reachable jobs s) (i : I) :
    Accounted (jobs i) (s.phase i) (s.eventsOf i) := by
  induction h generalizing i with
  | refl => exact .idle
  | tail _ hstep ih => exact hstep.accounted ih i

/-- A task that has not started has emitted nothing. -/
theorem eventsOf_idle (h : Reachable jobs s) {i : I} (hi : s.phase i = .idle) :
    s.eventsOf i = [] := by
  have hacc := accounted h i
  rw [hi] at hacc
  generalize s.eventsOf i = es at hacc ⊢
  cases hacc
  rfl

/-- A task that returned has emitted the events of its run, whatever ran beside it. -/
theorem leaves_returned (h : Reachable jobs s) {i : I} {a : α} (hi : s.phase i = .returned a) :
    (jobs i).Leaves (some a) (s.eventsOf i) := by
  have hacc := accounted h i
  rw [hi] at hacc
  generalize s.eventsOf i = es at hacc ⊢
  cases hacc with
  | returned hres => exact .returned hres

/-- A task whose run does not panic, and that was dropped, was dropped at a suspension
point. -/
theorem leaves_dropped (h : Reachable jobs s) {i : I} {a : α}
    (hrun : (jobs i).run.result = some a) (hi : s.phase i = .dropped) :
    (jobs i).Leaves none (s.eventsOf i) := by
  have hacc := accounted h i
  rw [hi] at hacc
  generalize s.eventsOf i = es at hacc ⊢
  cases hacc with
  | dropped hd => exact .dropped hd
  | unwound hreach =>
    rw [hreach.result_eq] at hrun
    cases hrun

/-! ## Schedules -/

/-- A running task can be polled to its end. -/
theorem completes {i : I} {rest : Run E α} {t : Nat} {a : α} (hi : s.phase i = .running rest t)
    (hrun : rest.result = some a) :
    Relation.ReflTransGen (Step jobs) s (s.put i (.returned a) rest.log) := by
  induction rest generalizing s t with
  | ret b =>
    obtain rfl := Option.some.inj hrun
    exact .single (.advance (hi ▸ .finish))
  | emit e k ih =>
    have hstep : Step jobs s (s.put i (.running k t) [e]) := .advance (hi ▸ .emit)
    have hrest := ih (s := s.put i (.running k t) [e]) (phase_put_self ..) hrun
    rw [put_put] at hrest
    exact .head hstep hrest
  | wait ms k ih =>
    have hstep : Step jobs s (s.put i (.running k (t + ms)) []) := .advance (hi ▸ .wake)
    have hrest := ih (s := s.put i (.running k (t + ms)) []) (phase_put_self ..) hrun
    rw [put_put] at hrest
    exact .head hstep hrest
  | panicked => cases hrun

/-- A task that has not started can start. -/
theorem starts {i : I} (hi : s.phase i = .idle) :
    Step jobs s (s.put i (.running (jobs i).run 0) []) := .advance (hi ▸ .start)

/-- A task that waits would leave, if it were dropped, what it has emitted and what its
destructors emit. -/
theorem leaves_suspended (h : Reachable jobs s) {i : I} {ms t : Nat} {k : Run E α}
    (hi : s.phase i = .running (.wait ms k) t) :
    (jobs i).Leaves none (s.eventsOf i ++ (jobs i).onDrop t) := by
  have hacc := accounted h i
  rw [hi] at hacc
  generalize s.eventsOf i = es at hacc ⊢
  cases hacc with
  | running hreach => exact .dropped hreach.droppedAt_wait

/-- Only finitely many tasks have started. -/
theorem finitely_started (h : Reachable jobs s) : ∃ is : List I, ∀ i, s.phase i ≠ .idle → i ∈ is := by
  induction h with
  | refl => exact ⟨[], fun i hi => absurd rfl hi⟩
  | tail _ hstep ih =>
    obtain ⟨is, his⟩ := ih
    obtain ⟨hadv⟩ := hstep
    rename_i j es ph
    refine ⟨j :: is, fun i hi => ?_⟩
    by_cases hij : i = j
    · exact List.mem_cons.mpr (.inl hij)
    · rw [phase_put_other _ hij] at hi
      exact List.mem_cons_of_mem _ (his i hi)

end Pool

/-! ## Services -/

/-- What a service is doing; `B` is what its boot makes. -/
inductive Stage (B : Type) where
  | booting
  | accepting (b : B)
  | draining (b : B)
  | stopped (code : Nat)

/-- The stage of a service, and the calls it serves. -/
structure Service (B I E α : Type) where
  stage : Stage B
  pool : Pool I E α

/-- The task is between its start and its end. -/
def Phase.IsRunning {E α : Type} (ph : Phase E α) : Prop := ∃ rest t, ph = .running rest t

namespace Service
variable {B I E α : Type} [DecidableEq I]

def initial : Service B I E α := ⟨.booting, .initial⟩

/-- **A step of a service** whose boot ends as `boot` says.  A call may still start while
the service drains: its connection was there before the signal. -/
inductive Step (boot : Except Nat B) (jobs : B → I → Job E α) :
    Service B I E α → Service B I E α → Prop where
  | up {b : B} {p : Pool I E α} (h : boot = .ok b) : Step boot jobs ⟨.booting, p⟩ ⟨.accepting b, p⟩
  | abort {code : Nat} {p : Pool I E α} (h : boot = .error code) :
      Step boot jobs ⟨.booting, p⟩ ⟨.stopped code, p⟩
  | serve {b : B} {p p' : Pool I E α} (h : Pool.Step (jobs b) p p') :
      Step boot jobs ⟨.accepting b, p⟩ ⟨.accepting b, p'⟩
  | signal {b : B} {p : Pool I E α} : Step boot jobs ⟨.accepting b, p⟩ ⟨.draining b, p⟩
  | drain {b : B} {p p' : Pool I E α} (h : Pool.Step (jobs b) p p') :
      Step boot jobs ⟨.draining b, p⟩ ⟨.draining b, p'⟩
  /-- A server that shuts down gracefully returns once the last of its calls has ended. -/
  | stop {b : B} {p : Pool I E α} (h : ∀ i, ¬ (p.phase i).IsRunning) :
      Step boot jobs ⟨.draining b, p⟩ ⟨.stopped 0, p⟩

/-- The states of a service since its start. -/
def Reachable (boot : Except Nat B) (jobs : B → I → Job E α) (s : Service B I E α) : Prop :=
  Relation.ReflTransGen (Step boot jobs) initial s

/-- **What holds in each stage.** -/
inductive Sound (boot : Except Nat B) (jobs : B → I → Job E α) : Service B I E α → Prop where
  | booting : Sound boot jobs ⟨.booting, .initial⟩
  | aborted {code : Nat} (h : boot = .error code) : Sound boot jobs ⟨.stopped code, .initial⟩
  | accepting {b : B} {p : Pool I E α} (h : boot = .ok b) (hp : Pool.Reachable (jobs b) p) :
      Sound boot jobs ⟨.accepting b, p⟩
  | draining {b : B} {p : Pool I E α} (h : boot = .ok b) (hp : Pool.Reachable (jobs b) p) :
      Sound boot jobs ⟨.draining b, p⟩
  | stopped {b : B} {p : Pool I E α} (h : boot = .ok b) (hp : Pool.Reachable (jobs b) p)
      (hended : ∀ i, ¬ (p.phase i).IsRunning) : Sound boot jobs ⟨.stopped 0, p⟩

variable {boot : Except Nat B} {jobs : B → I → Job E α} {s s' : Service B I E α}

/-- A step keeps it. -/
theorem Sound.step (h : Sound boot jobs s) (hstep : Step boot jobs s s') : Sound boot jobs s' := by
  cases hstep with
  | up hb =>
    cases h
    exact .accepting hb .refl
  | abort hb =>
    cases h
    exact .aborted hb
  | serve hp' =>
    cases h with
    | accepting hb hp => exact .accepting hb (hp.tail hp')
  | signal =>
    cases h with
    | accepting hb hp => exact .draining hb hp
  | drain hp' =>
    cases h with
    | draining hb hp => exact .draining hb (hp.tail hp')
  | stop hended =>
    cases h with
    | draining hb hp => exact .stopped hb hp hended

/-- **It holds in every reachable state.** -/
theorem sound (h : Reachable boot jobs s) : Sound boot jobs s := by
  induction h with
  | refl => exact .booting
  | tail _ hstep ih => exact ih.step hstep

/-- A service whose boot fails serves nothing. -/
theorem Sound.of_error {code : Nat} (h : Sound boot jobs s) (hb : boot = .error code) :
    s.pool = .initial ∧ (s.stage = .booting ∨ s.stage = .stopped code) := by
  cases h with
  | booting => exact ⟨rfl, .inl rfl⟩
  | aborted hb' =>
    cases hb.symm.trans hb'
    exact ⟨rfl, .inr rfl⟩
  | accepting hb' _ => cases hb.symm.trans hb'
  | draining hb' _ => cases hb.symm.trans hb'
  | stopped hb' _ _ => cases hb.symm.trans hb'

/-- The calls of a service run as its boot set them up. -/
theorem Sound.of_ok {b : B} (h : Sound boot jobs s) (hb : boot = .ok b) :
    Pool.Reachable (jobs b) s.pool := by
  cases h with
  | booting => exact .refl
  | aborted _ => exact .refl
  | accepting hb' hp =>
    cases hb.symm.trans hb'
    exact hp
  | draining hb' hp =>
    cases hb.symm.trans hb'
    exact hp
  | stopped hb' hp _ =>
    cases hb.symm.trans hb'
    exact hp

/-- Once it has stopped, no call runs. -/
theorem Sound.ended {code : Nat} (h : Sound boot jobs s) (hstage : s.stage = .stopped code) (i : I) :
    ¬ (s.pool.phase i).IsRunning := by
  cases h with
  | booting => cases hstage
  | aborted _ =>
    rintro ⟨rest, t, hrun⟩
    cases hrun
  | accepting _ _ => cases hstage
  | draining _ _ => cases hstage
  | stopped _ _ hended => exact hended i

/-! ### Draining -/

/-- Steps of the calls are steps of a service that drains. -/
theorem drain_steps {b : B} {p p' : Pool I E α}
    (h : Relation.ReflTransGen (Pool.Step (jobs b)) p p') :
    Relation.ReflTransGen (Step boot jobs) ⟨.draining b, p⟩ ⟨.draining b, p'⟩ := by
  induction h with
  | refl => exact .refl
  | tail _ hstep ih => exact ih.tail (.drain hstep)

/-- What a call becomes when it is left to finish. -/
inductive Finished (job : Job E α) : Phase E α → Phase E α → Prop where
  | kept {ph : Phase E α} (h : ¬ ph.IsRunning) : Finished job ph ph
  | answered {rest : Run E α} {t : Nat} {a : α} (h : job.run.result = some a) :
      Finished job (.running rest t) (.returned a)

/-- Every running call of a list can be polled to its end. -/
theorem pool_completes {jobs : I → Job E α} (hjobs : ∀ i, ∃ a, (jobs i).run.result = some a)
    (is : List I) {p : Pool I E α} (hp : Pool.Reachable jobs p)
    (his : ∀ i, (p.phase i).IsRunning → i ∈ is) :
    ∃ p', Relation.ReflTransGen (Pool.Step jobs) p p' ∧
      ∀ i, ¬ (p'.phase i).IsRunning ∧ Finished (jobs i) (p.phase i) (p'.phase i) := by
  induction is generalizing p with
  | nil =>
    have hnone : ∀ i, ¬ (p.phase i).IsRunning := fun i hi => absurd (his i hi) List.not_mem_nil
    exact ⟨p, .refl, fun i => ⟨hnone i, .kept (hnone i)⟩⟩
  | cons j is ih =>
    by_cases hj : (p.phase j).IsRunning
    · obtain ⟨rest, t, hphase⟩ := hj
      -- the task returns what its run returns
      obtain ⟨a, ha⟩ := hjobs j
      have hacc := Pool.accounted hp j
      rw [hphase] at hacc
      obtain ⟨-⟩ := hacc
      rename_i n hreach
      have hrest : rest.result = some a := hreach.result_eq.symm.trans ha
      have hsteps : Relation.ReflTransGen (Pool.Step jobs) p (p.put j (.returned a) rest.log) :=
        Pool.completes hphase hrest
      have hself : (p.put j (.returned a) rest.log).phase j = .returned a := Pool.phase_put_self ..
      obtain ⟨p', hp', hended⟩ := ih (hp.trans hsteps) (fun i hi => by
        by_cases hij : i = j
        · subst hij
          rw [hself] at hi
          obtain ⟨_, _, hi⟩ := hi
          cases hi
        · rw [Pool.phase_put_other _ hij] at hi
          exact (List.mem_cons.mp (his i hi)).resolve_left hij)
      refine ⟨p', hsteps.trans hp', fun i => ⟨(hended i).1, ?_⟩⟩
      by_cases hij : i = j
      · subst hij
        have hfin := (hended i).2
        rw [hself] at hfin
        rw [hphase]
        generalize p'.phase i = ph at hfin
        cases hfin
        exact .answered ha
      · have hfin := (hended i).2
        rwa [Pool.phase_put_other _ hij] at hfin
    · exact ih hp (fun i hi => (List.mem_cons.mp (his i hi)).resolve_left (fun hij => hj (hij ▸ hi)))

/-- **A drain can end with every call answered**: from any state of a service that drains,
whose calls do not panic, it can stop without dropping one. -/
theorem drain_completes {b : B} (hs : Reachable boot jobs s) (hstage : s.stage = .draining b)
    (hjobs : ∀ i, ∃ a, (jobs b i).run.result = some a) :
    ∃ s', Relation.ReflTransGen (Step boot jobs) s s' ∧ s'.stage = .stopped 0 ∧
      ∀ i, Finished (jobs b i) (s.pool.phase i) (s'.pool.phase i) := by
  obtain ⟨stage, p⟩ := s
  cases hstage
  have hp : Pool.Reachable (jobs b) p := by
    obtain ⟨⟩ := sound hs
    assumption
  obtain ⟨is, his⟩ := Pool.finitely_started hp
  obtain ⟨p', hsteps, hended⟩ := pool_completes hjobs is hp (fun i hi => his i (fun hidle => by
    obtain ⟨_, _, hi⟩ := hi
    cases hidle.symm.trans hi))
  have hstop : Step boot jobs ⟨.draining b, p'⟩ ⟨.stopped 0, p'⟩ := .stop (fun i => (hended i).1)
  exact ⟨_, (drain_steps hsteps).tail hstop, rfl, fun i => (hended i).2⟩

end Service

end VrpcSidecar
