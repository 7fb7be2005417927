import VrpcSidecar.AsyncRuns
import VrpcSidecar.ByteStrings

/-! # Streamed bodies under a byte cap

A body arrives as a sequence of frames, each some time after the one before: data
of any length, trailers, or an error.  `collect` is `http_body_util`'s
`Limited::new(body, cap).collect()`: it counts the allowance down, fails on the
first data frame larger than what is left of it, and stops at the first error.

Which of its three results it gives depends on the frames alone
(`result_collect`): the data before the first error either exceeds the cap, or is
cut short by an error, or is all of the body.
-/
namespace VrpcSidecar

/-- What one poll of a body gives before its end. -/
inductive BodyEvent where
  | data (bs : Bytes)
  | trailers
  | error

/-- A body: its frames, each with the time until it arrives, the time until its
end after the last of them, and the lower bound of its size hint.  A body that never ends is
not one; a run that reads such a body can only be dropped. -/
structure BodyStream where
  frames : List (Nat × BodyEvent)
  eof : Nat
  sizeHintLower : Nat

/-- Why a body was not collected. -/
inductive CollectError where
  | lengthLimit
  | body
  deriving DecidableEq

/-- The data delivered before the first error. -/
def delivered : List (Nat × BodyEvent) → Bytes
  | [] => []
  | (_, .data bs) :: rest => bs ++ delivered rest
  | (_, .trailers) :: rest => delivered rest
  | (_, .error) :: _ => []

/-- The contents of the data frames, in order, whatever comes between them. -/
def dataFrames : List (Nat × BodyEvent) → List Bytes
  | [] => []
  | (_, .data bs) :: rest => bs :: dataFrames rest
  | (_, .trailers) :: rest => dataFrames rest
  | (_, .error) :: rest => dataFrames rest

/-- The frames contain an error. -/
def hasError : List (Nat × BodyEvent) → Bool
  | [] => false
  | (_, .error) :: _ => true
  | _ :: rest => hasError rest

namespace BodyStream

/-- The data of a body up to its first error. -/
def content (b : BodyStream) : Bytes := delivered b.frames

/-- The body breaks off with an error. -/
def fails (b : BodyStream) : Bool := hasError b.frames

/-- The body was received completely and is within the cap. -/
def Within (b : BodyStream) (cap : Nat) : Prop := b.content.length ≤ cap ∧ b.fails = false

end BodyStream

/-- Without an error the data delivered is that of all data frames. -/
theorem delivered_eq_flatten {frames : List (Nat × BodyEvent)} (h : hasError frames = false) :
    delivered frames = (dataFrames frames).flatten := by
  induction frames with
  | nil => rfl
  | cons f rest ih =>
    obtain ⟨ms, ev⟩ := f
    cases ev with
    | data bs =>
      rw [delivered, dataFrames, List.flatten_cons, ih h]
    | trailers => exact ih h
    | error => cases h

/-- The flag says whether one of the frames is an error. -/
theorem hasError_eq_false_iff {frames : List (Nat × BodyEvent)} :
    hasError frames = false ↔ ∀ f ∈ frames, f.2 ≠ .error := by
  induction frames with
  | nil => simp [hasError]
  | cons f rest ih =>
    obtain ⟨ms, ev⟩ := f
    rw [List.forall_mem_cons, ← ih]
    cases ev <;> simp [hasError]

/-- The loop of `Limited::collect`: `left` is the allowance that remains, `acc`
the data collected so far. -/
def collectLoop {E : Type} (eof : Nat) :
    Nat → Bytes → List (Nat × BodyEvent) → Run E (Except CollectError Bytes)
  | _, acc, [] => do
    Run.waitFor eof
    return .ok acc
  | left, acc, (ms, ev) :: rest => do
    Run.waitFor ms
    match ev with
    | .data bs =>
      -- the frame that exceeds the allowance is not collected
      if left < bs.length then return .error .lengthLimit
      else collectLoop eof (left - bs.length) (acc ++ bs) rest
    | .trailers => collectLoop eof left acc rest
    | .error => return .error .body

/-- `Limited::new(body, cap).collect()`. -/
def collect {E : Type} (cap : Nat) (b : BodyStream) : Run E (Except CollectError Bytes) :=
  collectLoop b.eof cap [] b.frames

theorem result_collectLoop {E : Type} (eof left : Nat) (acc : Bytes)
    (frames : List (Nat × BodyEvent)) :
    (collectLoop (E := E) eof left acc frames).result =
      some (if left < (delivered frames).length then .error .lengthLimit
        else if hasError frames then .error .body
        else .ok (acc ++ delivered frames)) := by
  induction frames generalizing left acc with
  | nil => simp [collectLoop, delivered, hasError]
  | cons f rest ih =>
    obtain ⟨ms, ev⟩ := f
    cases ev with
    | data bs =>
      simp only [collectLoop, Run.bind_eq, Run.waitFor_andThen, Run.result_wait, delivered,
        hasError, List.length_append]
      -- The allowance shrinks by the frame, so the comparison is with the sum of the lengths.
      by_cases h : left < bs.length
      · rw [if_pos h, if_pos (by omega)]
        rfl
      · rw [if_neg h, ih]
        by_cases h' : left - bs.length < (delivered rest).length
        · rw [if_pos h', if_pos (by omega)]
        · have hfits : ¬ left < bs.length + (delivered rest).length := by omega
          rw [if_neg h', if_neg hfits, List.append_assoc]
          rfl
    | trailers => exact ih left acc
    | error => simp [collectLoop, delivered, hasError]

/-- **What collecting a body gives**: whether it is over the cap, broken off, or
complete is read off its frames. -/
theorem result_collect {E : Type} (cap : Nat) (b : BodyStream) :
    (collect (E := E) cap b).result =
      some (if cap < b.content.length then .error .lengthLimit
        else if b.fails then .error .body
        else .ok b.content) :=
  result_collectLoop b.eof cap [] b.frames

/-- Collecting a body has no observable effect. -/
theorem log_collect {E : Type} (cap : Nat) (b : BodyStream) :
    (collect (E := E) cap b).log = [] := by
  suffices key : ∀ (frames : List (Nat × BodyEvent)) (left : Nat) (acc : Bytes),
      (collectLoop (E := E) b.eof left acc frames).log = [] from key b.frames cap []
  intro frames
  induction frames with
  | nil => intro left acc; rfl
  | cons f rest ih =>
    intro left acc
    obtain ⟨ms, ev⟩ := f
    cases ev with
    | data bs =>
      simp only [collectLoop, Run.bind_eq, Run.waitFor_andThen, Run.log_wait]
      split
      · rfl
      · exact ih _ _
    | trailers => exact ih _ _
    | error => rfl

/-- A body is collected exactly when it is complete and within the cap. -/
theorem collect_ok_iff {E : Type} {cap : Nat} {b : BodyStream} {bs : Bytes} :
    (collect (E := E) cap b).result = some (.ok bs) ↔ b.Within cap ∧ bs = b.content := by
  rw [result_collect, BodyStream.Within]
  by_cases hcap : cap < b.content.length
  · rw [if_pos hcap]
    simp only [Option.some.injEq, reduceCtorEq, false_iff]
    rintro ⟨⟨hle, -⟩, -⟩
    omega
  · rw [if_neg hcap]
    cases b.fails with
    | true => simp
    | false => simp [Nat.le_of_not_lt hcap, eq_comm]

/-- Collecting always comes to an end. -/
theorem collect_returns {E : Type} (cap : Nat) (b : BodyStream) :
    ∃ r, (collect (E := E) cap b).result = some r :=
  ⟨_, result_collect cap b⟩

end VrpcSidecar
