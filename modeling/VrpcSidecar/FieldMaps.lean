import Mathlib

/-! # Ordered multimaps

The header maps of the source are multi-valued: a name is held once, with the
sequence of its values in the order they were appended, and iteration visits the
names in the order of their first insertion, each with all its values.  A
`MultiMap` is such a map over arbitrary keys; that no key is held twice and that
every held key has a value are fields of the structure, so that "the values of
`k`" is one sequence and a key without values is an absent key.

`getAll_append` and `getAll_appendAll` say what appending does to the values of a
key; `toList_append_fresh` and `toList_append_last` say what it does to the
iteration order.
-/
namespace VrpcSidecar

/-- Append `v` to the values of `k`, which becomes the last key when it is new. -/
def appendEntry {K V : Type} [DecidableEq K] (k : K) (v : V) :
    List (K × List V) → List (K × List V)
  | [] => [(k, [v])]
  | (k', vs) :: rest =>
    if k' = k then (k', vs ++ [v]) :: rest else (k', vs) :: appendEntry k v rest

section AppendEntry
variable {K V : Type} [DecidableEq K] {k : K} {v : V} {es : List (K × List V)}

theorem mem_keys_appendEntry (a : K) :
    a ∈ (appendEntry k v es).map Prod.fst ↔ a = k ∨ a ∈ es.map Prod.fst := by
  induction es with
  | nil => simp [appendEntry]
  | cons e es ih =>
    obtain ⟨k', vs⟩ := e
    by_cases h : k' = k
    · subst h
      simp [appendEntry]
    · simp only [appendEntry, if_neg h, List.map_cons, List.mem_cons, ih]
      tauto

theorem nodup_appendEntry (h : (es.map Prod.fst).Nodup) :
    ((appendEntry k v es).map Prod.fst).Nodup := by
  induction es with
  | nil => simp [appendEntry]
  | cons e es ih =>
    obtain ⟨k', vs⟩ := e
    rw [List.map_cons, List.nodup_cons] at h
    by_cases hk : k' = k
    · rw [appendEntry, if_pos hk, List.map_cons, List.nodup_cons]
      exact h
    · rw [appendEntry, if_neg hk, List.map_cons, List.nodup_cons]
      refine ⟨?_, ih h.2⟩
      intro hmem
      rcases (mem_keys_appendEntry k').mp hmem with he | he
      · exact hk he
      · exact h.1 he

theorem nonempty_appendEntry (h : ∀ e ∈ es, e.2 ≠ []) : ∀ e ∈ appendEntry k v es, e.2 ≠ [] := by
  induction es with
  | nil => simp [appendEntry]
  | cons e es ih =>
    obtain ⟨k', vs⟩ := e
    have htail : ∀ e ∈ es, e.2 ≠ [] := fun e he => h e (List.mem_cons_of_mem _ he)
    have hhead : vs ≠ [] := h (k', vs) List.mem_cons_self
    intro e he
    rw [appendEntry] at he
    split at he
    · rcases List.mem_cons.mp he with rfl | he
      · simp
      · exact htail e he
    · rcases List.mem_cons.mp he with rfl | he
      · exact hhead
      · exact ih htail e he

end AppendEntry

/-- **An ordered multimap**: each key once, in the order of first insertion, with
its values in the order they were appended. -/
structure MultiMap (K V : Type) where
  /-- The keys with their values. -/
  entries : List (K × List V)
  /-- No key is held twice. -/
  distinct : (entries.map Prod.fst).Nodup
  /-- A held key has a value. -/
  inhabited : ∀ e ∈ entries, e.2 ≠ []

namespace MultiMap
variable {K V : Type} [DecidableEq K]

omit [DecidableEq K] in
@[ext] theorem ext {m m' : MultiMap K V} (h : m.entries = m'.entries) : m = m' := by
  cases m
  cases m'
  simpa using h

/-- The map without entries. -/
def empty : MultiMap K V := ⟨[], by simp, by simp⟩

/-- Append a value to those of `k`. -/
def append (m : MultiMap K V) (k : K) (v : V) : MultiMap K V :=
  ⟨appendEntry k v m.entries, nodup_appendEntry m.distinct, nonempty_appendEntry m.inhabited⟩

/-- Append the pairs of a list in order. -/
def appendAll (m : MultiMap K V) (ps : List (K × V)) : MultiMap K V :=
  ps.foldl (fun m p => m.append p.1 p.2) m

/-- Every key paired with each of its values. -/
def pairs (es : List (K × List V)) : List (K × V) :=
  es.flatMap (fun e => e.2.map (fun v => (e.1, v)))

/-- The pairs of the map in iteration order. -/
def toList (m : MultiMap K V) : List (K × V) := pairs m.entries

/-- The values of `k`, in order. -/
def getAll (m : MultiMap K V) (k : K) : List V :=
  (m.toList.filter (fun p => p.1 = k)).map Prod.snd

/-- The map holds a value for `k`. -/
def Holds (m : MultiMap K V) (k : K) : Prop := ∃ p ∈ m.toList, p.1 = k

omit [DecidableEq K] in
/-- The key of the last entry. -/
def lastKey (m : MultiMap K V) : Option K := m.entries.getLast?.map Prod.fst

omit [DecidableEq K] in
@[simp] theorem toList_empty : (empty : MultiMap K V).toList = [] := rfl

@[simp] theorem appendAll_nil (m : MultiMap K V) : m.appendAll [] = m := rfl

@[simp] theorem appendAll_cons (m : MultiMap K V) (p : K × V) (ps : List (K × V)) :
    m.appendAll (p :: ps) = (m.append p.1 p.2).appendAll ps := rfl

theorem appendAll_append (m : MultiMap K V) (ps qs : List (K × V)) :
    m.appendAll (ps ++ qs) = (m.appendAll ps).appendAll qs := by
  simp [appendAll, List.foldl_append]

theorem holds_iff_getAll (m : MultiMap K V) (k : K) : m.Holds k ↔ m.getAll k ≠ [] := by
  simp only [Holds, getAll, ne_eq, List.map_eq_nil_iff, List.filter_eq_nil_iff,
    decide_eq_true_eq, not_forall, not_not, exists_prop]

/-! ## The values of a key -/

theorem values_eq_nil {es : List (K × List V)} {a : K} (h : a ∉ es.map Prod.fst) :
    ((pairs es).filter (fun p => p.1 = a)).map Prod.snd = [] := by
  rw [List.map_eq_nil_iff, List.filter_eq_nil_iff]
  intro p hp hpa
  obtain ⟨e, he, hpe⟩ := List.mem_flatMap.mp hp
  obtain ⟨w, -, rfl⟩ := List.mem_map.mp hpe
  exact h (of_decide_eq_true hpa ▸ List.mem_map_of_mem he)

theorem values_appendEntry (k a : K) (v : V) {es : List (K × List V)}
    (hnd : (es.map Prod.fst).Nodup) :
    ((pairs (appendEntry k v es)).filter (fun p => p.1 = a)).map Prod.snd =
      ((pairs es).filter (fun p => p.1 = a)).map Prod.snd ++ if k = a then [v] else [] := by
  induction es with
  | nil =>
    by_cases h : k = a <;> simp [appendEntry, pairs, h]
  | cons e es ih =>
    obtain ⟨k', vs⟩ := e
    rw [List.map_cons, List.nodup_cons] at hnd
    by_cases hk : k' = k
    · subst hk
      by_cases ha : k' = a
      · subst ha
        -- the key is at the front, so none of the later entries has it
        have hnone := values_eq_nil hnd.1
        simp only [pairs, List.map_eq_nil_iff] at hnone
        simp [appendEntry, pairs, hnone]
      · simp [appendEntry, pairs, ha]
    · have htail := ih hnd.2
      simp only [pairs] at htail ⊢
      rw [appendEntry, if_neg hk]
      simp only [List.flatMap_cons, List.filter_append, List.map_append, htail, List.append_assoc]

/-- **Appending adds its value at the end of the values of its key and leaves the
others alone.** -/
theorem getAll_append (m : MultiMap K V) (k a : K) (v : V) :
    (m.append k v).getAll a = m.getAll a ++ if k = a then [v] else [] :=
  values_appendEntry k a v m.distinct

/-- The values of a key after a sequence of appends. -/
theorem getAll_appendAll (m : MultiMap K V) (ps : List (K × V)) (a : K) :
    (m.appendAll ps).getAll a =
      m.getAll a ++ (ps.filter (fun p => p.1 = a)).map Prod.snd := by
  induction ps generalizing m with
  | nil => simp
  | cons p ps ih =>
    rw [appendAll_cons, ih, getAll_append]
    by_cases h : p.1 = a <;> simp [h]

@[simp] theorem getAll_empty (a : K) : (empty : MultiMap K V).getAll a = [] := rfl

/-- The values of a key among the pairs whose keys pass a test. -/
theorem values_filter (ps : List (K × V)) (keep : K → Bool) (a : K) :
    ((ps.filter (fun p => keep p.1)).filter (fun p => p.1 = a)).map Prod.snd =
      if keep a then (ps.filter (fun p => p.1 = a)).map Prod.snd else [] := by
  rw [List.filter_filter]
  split
  · rename_i ha
    congr 1
    apply List.filter_congr
    intro p _
    by_cases hp : p.1 = a <;> simp [hp, ha]
  · rename_i ha
    rw [List.map_eq_nil_iff, List.filter_eq_nil_iff]
    intro p _
    by_cases hp : p.1 = a <;> simp [hp, ha]

/-- Among pairs with distinct keys, a key has the one value it came with. -/
theorem values_of_distinct {ps : List (K × V)} (hd : (ps.map Prod.fst).Nodup) {p : K × V}
    (hp : p ∈ ps) : (ps.filter (fun q => q.1 = p.1)).map Prod.snd = [p.2] := by
  induction ps with
  | nil => cases hp
  | cons q ps ih =>
    rw [List.map_cons, List.nodup_cons] at hd
    rcases List.mem_cons.mp hp with rfl | hmem
    · have hnone : ps.filter (fun q => q.1 = p.1) = [] := by
        rw [List.filter_eq_nil_iff]
        intro q hq he
        exact hd.1 (of_decide_eq_true he ▸ List.mem_map_of_mem hq)
      rw [List.filter_cons, if_pos (decide_eq_true rfl), hnone]
      rfl
    · have hne : ¬ q.1 = p.1 := by
        intro he
        exact hd.1 (he ▸ List.mem_map_of_mem hmem)
      rw [List.filter_cons, if_neg (by simpa using hne)]
      exact ih hd.2 hmem

/-- **A map rebuilt from another**: the pairs whose keys pass a test, and then pairs of
its own.  A key that passes keeps its values in order; one that does not has only the
new ones. -/
theorem getAll_rebuilt (m : MultiMap K V) (keep : K → Bool) (own : List (K × V)) (a : K) :
    ((empty.appendAll (m.toList.filter (fun p => keep p.1))).appendAll own).getAll a =
      (if keep a then m.getAll a else []) ++ (own.filter (fun p => p.1 = a)).map Prod.snd := by
  rw [getAll_appendAll, getAll_appendAll, getAll_empty, List.nil_append, values_filter]
  rfl

/-! ## Iteration order -/

theorem appendEntry_fresh {k : K} (v : V) {es : List (K × List V)}
    (h : k ∉ es.map Prod.fst) : appendEntry k v es = es ++ [(k, [v])] := by
  induction es with
  | nil => rfl
  | cons e es ih =>
    obtain ⟨k', vs⟩ := e
    rw [List.map_cons, List.mem_cons, not_or] at h
    rw [appendEntry, if_neg (fun he => h.1 he.symm), ih h.2]
    rfl

omit [DecidableEq K] in
theorem holds_iff_mem_keys (m : MultiMap K V) (k : K) : m.Holds k ↔ k ∈ m.entries.map Prod.fst := by
  constructor
  · rintro ⟨p, hp, rfl⟩
    obtain ⟨e, he, hpe⟩ := List.mem_flatMap.mp hp
    obtain ⟨v, -, rfl⟩ := List.mem_map.mp hpe
    exact List.mem_map_of_mem he
  · intro h
    obtain ⟨e, he, rfl⟩ := List.mem_map.mp h
    obtain ⟨v, vs, hvs⟩ := List.exists_cons_of_ne_nil (m.inhabited e he)
    refine ⟨(e.1, v), List.mem_flatMap.mpr ⟨e, he, ?_⟩, rfl⟩
    simp [hvs]

/-- A value appended under a new key comes last. -/
theorem toList_append_fresh {m : MultiMap K V} {k : K} (v : V) (h : ¬ m.Holds k) :
    (m.append k v).toList = m.toList ++ [(k, v)] ∧ (m.append k v).lastKey = some k := by
  rw [holds_iff_mem_keys] at h
  have key : (m.append k v).entries = m.entries ++ [(k, [v])] := appendEntry_fresh v h
  simp [toList, pairs, lastKey, key]

/-- A value appended under the key already last comes last. -/
theorem toList_append_last {m : MultiMap K V} {k : K} (v : V) (h : m.lastKey = some k) :
    (m.append k v).toList = m.toList ++ [(k, v)] ∧ (m.append k v).lastKey = some k := by
  obtain ⟨e, he, rfl⟩ := Option.map_eq_some_iff.mp h
  obtain ⟨init, hinit⟩ := List.getLast?_eq_some_iff.mp he
  obtain ⟨k, vs⟩ := e
  have hfresh : k ∉ init.map Prod.fst := by
    have hd := m.distinct
    rw [hinit, List.map_append, List.nodup_append] at hd
    intro hk
    exact hd.2.2 k hk k (by simp) rfl
  have key : (m.append k v).entries = init ++ [(k, vs ++ [v])] := by
    show appendEntry k v m.entries = _
    rw [hinit]
    clear hinit he h
    induction init with
    | nil => simp [appendEntry]
    | cons e init ih =>
      obtain ⟨k', ws⟩ := e
      rw [List.map_cons, List.mem_cons, not_or] at hfresh
      rw [List.cons_append, appendEntry, if_neg (fun hk => hfresh.1 hk.symm), ih hfresh.2]
      rfl
  simp [toList, pairs, lastKey, key, hinit]

/-- Values appended one after the other under the key already last come last, in
order. -/
theorem toList_appendAll_last {m : MultiMap K V} {k : K} (vs : List V) (h : m.lastKey = some k) :
    (m.appendAll (vs.map (fun v => (k, v)))).toList = m.toList ++ vs.map (fun v => (k, v)) ∧
      (m.appendAll (vs.map (fun v => (k, v)))).lastKey = some k := by
  induction vs generalizing m with
  | nil => exact ⟨by simp, h⟩
  | cons v vs ih =>
    obtain ⟨hl, hk⟩ := toList_append_last v h
    obtain ⟨hl', hk'⟩ := ih hk
    refine ⟨?_, hk'⟩
    rw [List.map_cons, appendAll_cons, hl', hl, List.append_assoc]
    rfl

/-- Values appended one after the other under a new key come last, in order. -/
theorem toList_appendAll_fresh {m : MultiMap K V} {k : K} (vs : List V) (h : ¬ m.Holds k) :
    (m.appendAll (vs.map (fun v => (k, v)))).toList = m.toList ++ vs.map (fun v => (k, v)) := by
  cases vs with
  | nil => simp
  | cons v vs =>
    obtain ⟨hl, hk⟩ := toList_append_fresh v h
    rw [List.map_cons, appendAll_cons, (toList_appendAll_last vs hk).1, hl, List.append_assoc]
    rfl

theorem holds_append {m : MultiMap K V} {k a : K} {v : V} :
    (m.append k v).Holds a ↔ a = k ∨ m.Holds a := by
  rw [holds_iff_mem_keys, holds_iff_mem_keys]
  exact mem_keys_appendEntry a

/-- Pairs appended under distinct new keys come last, in order. -/
theorem toList_appendAll_distinct {m : MultiMap K V} {ps : List (K × V)}
    (hd : (ps.map Prod.fst).Nodup) (hnew : ∀ p ∈ ps, ¬ m.Holds p.1) :
    (m.appendAll ps).toList = m.toList ++ ps := by
  induction ps generalizing m with
  | nil => simp
  | cons p ps ih =>
    rw [List.map_cons, List.nodup_cons] at hd
    have hfresh : ∀ q ∈ ps, ¬ (m.append p.1 p.2).Holds q.1 := by
      intro q hq
      rw [holds_append, not_or]
      refine ⟨?_, hnew q (List.mem_cons_of_mem _ hq)⟩
      rintro he
      exact hd.1 (he ▸ List.mem_map_of_mem hq)
    rw [appendAll_cons, ih hd.2 hfresh,
      (toList_append_fresh p.2 (hnew p List.mem_cons_self)).1, List.append_assoc]
    rfl

end MultiMap
end VrpcSidecar
