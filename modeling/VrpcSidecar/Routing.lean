import VrpcSidecar.TaskPools
import VrpcSidecar.HttpTypes

/-! # Routing requests

A router as `axum` builds one.  A path has handlers by method and a handler for the other
methods, whose answer names the methods that are allowed; a `GET` handler serves `HEAD` as
well.  A path with no route is served by the fallback.  Layers wrap every handler of the
router they are added to, and merging two routers keeps the layers of each.

A handler is a task: what it does when it is polled to its end, and what its destructors
do when the connection goes away before.
-/
namespace VrpcSidecar

def HeaderName.allow : HeaderName := .of "allow"

/-- A handler that takes the request as it is. -/
abbrev Handler (E : Type) := Request → Job E Response

namespace Handler
variable {E : Type}

/-- A handler that answers at once. -/
def always (resp : Response) : Handler E := fun _ => ⟨.ret resp, fun _ => []⟩

/-- A layer that changes the response of a handler, given the headers of the request. -/
def mapResponse (f : HeaderMap → Response → Response) (h : Handler E) : Handler E :=
  fun req => (h req).map (f req.headers)

end Handler

/-- The handlers of one path. -/
structure MethodRouter (E : Type) where
  onGet : Option (Handler E)
  onPost : Option (Handler E)
  fallback : Handler E
  /-- The value of `Allow` on an answer of the fallback; `none` when none is added. -/
  allowed : Option Bytes

namespace MethodRouter
variable {E : Type}

/-- `routing::get`. -/
def get (h : Handler E) : MethodRouter E :=
  ⟨some h, none, .always StatusCode.methodNotAllowed.intoResponse, some (ascii "GET,HEAD")⟩

/-- `routing::post`. -/
def post (h : Handler E) : MethodRouter E :=
  ⟨none, some h, .always StatusCode.methodNotAllowed.intoResponse, some (ascii "POST")⟩

/-- `routing::any`. -/
def any (h : Handler E) : MethodRouter E := ⟨none, none, h, none⟩

/-- `MethodRouter::fallback`. -/
def withFallback (m : MethodRouter E) (h : Handler E) : MethodRouter E := { m with fallback := h }

/-- `MethodRouter::layer`. -/
def layer (m : MethodRouter E) (f : Handler E → Handler E) : MethodRouter E :=
  ⟨m.onGet.map f, m.onPost.map f, f m.fallback, m.allowed⟩

/-- The answer of the fallback names the methods that are allowed, unless it does so
itself. -/
def addAllow (allowed : Option Bytes) (resp : Response) : Response :=
  match allowed with
  | none => resp
  | some methods =>
    if resp.headers.getAll .allow = [] then
      { resp with headers := resp.headers.append .allow methods }
    else resp

/-- The methods a `GET` route serves. -/
def IsRead (method : Bytes) : Prop := method = ascii "GET" ∨ method = ascii "HEAD"

instance (method : Bytes) : Decidable (IsRead method) := inferInstanceAs (Decidable (_ ∨ _))

/-- The handler of a method. -/
def select (m : MethodRouter E) (method : Bytes) : Option (Handler E) :=
  if IsRead method then m.onGet
  else if method = ascii "POST" then m.onPost
  else none

/-- `MethodRouter::call`. -/
def call (m : MethodRouter E) : Handler E := fun req =>
  match m.select req.method with
  | some h => h req
  | none => (m.fallback req).map (addAllow m.allowed)

theorem select_layer (m : MethodRouter E) (f : Handler E → Handler E) (method : Bytes) :
    (m.layer f).select method = (m.select method).map f := by
  unfold select layer
  split
  · rfl
  · split <;> rfl

theorem select_get (h : Handler E) (method : Bytes) :
    (get h).select method = if IsRead method then some h else none := by
  unfold select get
  by_cases hread : IsRead method
  · rw [if_pos hread, if_pos hread]
  · rw [if_neg hread, if_neg hread]
    exact ite_self none

theorem select_post (h fallback : Handler E) (method : Bytes) :
    ((post h).withFallback fallback).select method =
      if method = ascii "POST" then some h else none := by
  unfold select post withFallback
  by_cases hget : IsRead method
  · have hpost : method ≠ ascii "POST" := by
      rintro rfl
      exact absurd hget (by decide)
    rw [if_pos hget, if_neg hpost]
  · rw [if_neg hget]

theorem select_any (h : Handler E) (method : Bytes) : (any h).select method = none := by
  unfold select any
  split
  · rfl
  · split <;> rfl

/-- What the handler of a method leaves. -/
theorem leaves_call {m : MethodRouter E} {req : Request} {o : Option Response} {es : List E}
    (h : (m.call req).Leaves o es) :
    (∃ handler, m.select req.method = some handler ∧ (handler req).Leaves o es) ∨
      m.select req.method = none ∧ ∃ o', (m.fallback req).Leaves o' es ∧
        o = o'.map (addAllow m.allowed) := by
  unfold call at h
  cases hselect : m.select req.method with
  | some handler =>
    rw [hselect] at h
    exact .inl ⟨handler, rfl, h⟩
  | none =>
    rw [hselect] at h
    exact .inr ⟨rfl, Job.leaves_map_iff.mp h⟩

end MethodRouter

/-- A router: the routes in the order they were added, and what serves other paths. -/
structure Router (E : Type) where
  routes : List (Bytes × MethodRouter E)
  fallback : Option (MethodRouter E)

namespace Router
variable {E : Type}

/-- `Router::new`. -/
def new : Router E := ⟨[], none⟩

/-- `Router::route`. -/
def route (r : Router E) (path : Bytes) (m : MethodRouter E) : Router E :=
  { r with routes := r.routes ++ [(path, m)] }

/-- `Router::fallback`. -/
def withFallback (r : Router E) (m : MethodRouter E) : Router E := { r with fallback := some m }

/-- `Router::layer`: the routes added so far, and the fallback. -/
def layer (r : Router E) (f : Handler E → Handler E) : Router E :=
  ⟨r.routes.map (fun p => (p.1, p.2.layer f)), r.fallback.map (fun m => m.layer f)⟩

/-- `Router::merge`. -/
def merge (r r' : Router E) : Router E :=
  ⟨r.routes ++ r'.routes, r.fallback.orElse (fun _ => r'.fallback)⟩

/-- The handlers of a path; without a fallback, other paths are answered with 404. -/
def methods (r : Router E) (path : Bytes) : MethodRouter E :=
  match r.routes.lookup path with
  | some m => m
  | none => r.fallback.getD (.any (.always ⟨⟨404, by decide, by decide⟩, .empty, []⟩))

/-- The response to a `HEAD` request has no body. -/
def withoutBody (method : Bytes) (resp : Response) : Response :=
  if method = ascii "HEAD" then { resp with body := [] } else resp

/-- **What a router does with a request.** -/
def serve (r : Router E) : Handler E := fun req =>
  ((r.methods req.uri.path).call req).map (withoutBody req.method)

end Router

end VrpcSidecar
