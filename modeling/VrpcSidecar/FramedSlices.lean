import VrpcSidecar.BinaryHttp

/-! # Where the slices of a framed input lie

A reader that returns strings does not say where in its input they stood.  Here a
`Slice` of an input is a position and a length, and the readers of `BinaryHttp` are
run with a record of the slices they take (`takenStrings`, `takenSections`).  The
record changes nothing: cutting the recorded slices out of the input gives the strings
the plain reader returns, and every slice lies inside the input.
-/
namespace VrpcSidecar

/-- A part of an input: where it starts and how long it is. -/
structure Slice where
  start : Nat
  length : Nat
  deriving DecidableEq

namespace Slice

/-- The bytes of an input in a slice. -/
def cut (f : Bytes) (sl : Slice) : Bytes := (f.drop sl.start).take sl.length

/-- The slice does not reach past the end of the input. -/
def Inside (f : Bytes) (sl : Slice) : Prop := sl.start + sl.length ≤ f.length

/-- The slice of length `n` at the point of `f` where `rest` is left. -/
def upTo (f rest : Bytes) (n : Nat) : Slice := ⟨f.length - rest.length, n⟩

/-- The empty slice at the end of an input. -/
def atEnd (f : Bytes) : Slice := ⟨f.length, 0⟩

theorem cut_upTo {f str rest : Bytes} (h : str ++ rest <:+ f) :
    cut f (upTo f (str ++ rest) str.length) = str := by
  obtain ⟨init, rfl⟩ := h
  have hstart : (init ++ (str ++ rest)).length - (str ++ rest).length = init.length := by simp
  rw [cut, upTo, hstart, List.drop_left' rfl, List.take_left' rfl]

theorem inside_upTo {f str rest : Bytes} (h : str ++ rest <:+ f) :
    Inside f (upTo f (str ++ rest) str.length) := by
  have hlen := h.length_le
  simp only [Inside, upTo, List.length_append] at hlen ⊢
  omega

theorem cut_atEnd (f : Bytes) : cut f (atEnd f) = [] := List.take_zero

theorem inside_atEnd (f : Bytes) : Inside f (atEnd f) := Nat.le_refl _

end Slice

namespace BinaryHttp

/-- A string that was read is a slice of the input, before what is left. -/
theorem suffix_of_readPrefixed {s str rest : Bytes} (h : readPrefixed s = .got str rest) :
    str ++ rest <:+ s := by
  obtain ⟨enc, ⟨w, -, rfl⟩, rfl⟩ := prefixed_of_read h
  exact ⟨encodeVarint w str.length, (List.append_assoc _ _ _).symm⟩

section Taken
variable (f : Bytes)

/-- `readStrings` with the slices of `f` it takes. -/
def takenStrings : Nat → Bytes → Option (List Slice × Bytes)
  | 0, s => some ([], s)
  | n + 1, s =>
    match readPrefixed s with
    | .got str rest => (takenStrings n rest).map
        (fun r => (Slice.upTo f (str ++ rest) str.length :: r.1, r.2))
    | _ => none

/-- `readSections` with the slices of `f` it takes, those missing at its end as empty. -/
def takenSections : Nat → Bytes → Option (List Slice × Bytes)
  | 0, s => some ([], s)
  | n + 1, s =>
    match readPrefixed s with
    | .got sec rest => (takenSections n rest).map
        (fun r => (Slice.upTo f (sec ++ rest) sec.length :: r.1, r.2))
    | .eof => some (List.replicate (n + 1) (Slice.atEnd f), [])
    | .truncated => none

/-- `readSlices` with the slices it takes: four strings, three sections. -/
def takenSlices : Option (List Slice × List Slice × Bytes) := do
  let (strs, tail) ← takenStrings f 4 f
  let (secs, padding) ← takenSections f 3 tail
  return (strs, secs, padding)

variable {f}

/-- **What the recorded reading of strings takes**: slices inside the input, whose bytes
are the strings. -/
theorem takenStrings_spec {n : Nat} {s rest : Bytes} {slices : List Slice} (hs : s <:+ f)
    (h : takenStrings f n s = some (slices, rest)) :
    readStrings n s = some (slices.map (Slice.cut f), rest) ∧ rest <:+ f ∧
      slices.length = n ∧ ∀ sl ∈ slices, sl.Inside f := by
  induction n generalizing s slices with
  | zero =>
    cases h
    exact ⟨rfl, hs, rfl, by simp⟩
  | succ n ih =>
    rw [takenStrings] at h
    split at h
    · rename_i str tail hr
      obtain ⟨⟨slices', rest'⟩, hrec, he⟩ := Option.map_eq_some_iff.mp h
      cases he
      have hsuf : str ++ tail <:+ f := (suffix_of_readPrefixed hr).trans hs
      obtain ⟨hread, hrest, hlen, hinside⟩ := ih ((List.suffix_append str tail).trans hsuf) hrec
      refine ⟨?_, hrest, by simp [hlen], ?_⟩
      · rw [readStrings, hr]
        dsimp only
        rw [hread, Option.map_some, List.map_cons, Slice.cut_upTo hsuf]
      · exact List.forall_mem_cons.mpr ⟨Slice.inside_upTo hsuf, hinside⟩
    · cases h

/-- **What the recorded reading of sections takes**, those missing at the end as empty
slices there. -/
theorem takenSections_spec {n : Nat} {s rest : Bytes} {slices : List Slice} (hs : s <:+ f)
    (h : takenSections f n s = some (slices, rest)) :
    readSections n s = some (slices.map (Slice.cut f), rest) ∧
      slices.length = n ∧ ∀ sl ∈ slices, sl.Inside f := by
  induction n generalizing s slices with
  | zero =>
    cases h
    exact ⟨rfl, rfl, by simp⟩
  | succ n ih =>
    rw [takenSections] at h
    split at h
    · rename_i sec tail hr
      obtain ⟨⟨slices', rest'⟩, hrec, he⟩ := Option.map_eq_some_iff.mp h
      cases he
      have hsuf : sec ++ tail <:+ f := (suffix_of_readPrefixed hr).trans hs
      obtain ⟨hread, hlen, hinside⟩ := ih ((List.suffix_append sec tail).trans hsuf) hrec
      refine ⟨?_, by simp [hlen], ?_⟩
      · rw [readSections, hr]
        dsimp only
        rw [hread, Option.map_some, List.map_cons, Slice.cut_upTo hsuf]
      · exact List.forall_mem_cons.mpr ⟨Slice.inside_upTo hsuf, hinside⟩
    · rename_i hr
      cases h
      refine ⟨?_, by simp, ?_⟩
      · rw [readSections, hr, List.map_replicate, Slice.cut_atEnd]
      · intro sl hsl
        rw [List.eq_of_mem_replicate hsl]
        exact Slice.inside_atEnd f
    · cases h

/-- **The recorded reader is the reader**: cut out of the input, its slices are what
`readSlices` returns, and they all lie inside. -/
theorem takenSlices_spec {strs secs : List Slice} {padding : Bytes}
    (h : takenSlices f = some (strs, secs, padding)) :
    readSlices f = some (strs.map (Slice.cut f), secs.map (Slice.cut f), padding) ∧
      strs.length = 4 ∧ secs.length = 3 ∧ ∀ sl ∈ strs ++ secs, sl.Inside f := by
  simp only [takenSlices, Option.bind_eq_bind, Option.bind_eq_some_iff, Prod.exists,
    Option.pure_def, Option.some.injEq, Prod.mk.injEq] at h
  obtain ⟨strs', tail, hstrs, secs', padding', hsecs, rfl, rfl, rfl⟩ := h
  obtain ⟨hread, htail, hlen, hinside⟩ := takenStrings_spec List.suffix_rfl hstrs
  obtain ⟨hread', hlen', hinside'⟩ := takenSections_spec htail hsecs
  refine ⟨readSlices_iff.mpr ⟨tail, hread, hread'⟩, hlen, hlen', ?_⟩
  exact List.forall_mem_append.mpr ⟨hinside, hinside'⟩

end Taken

end BinaryHttp
end VrpcSidecar
