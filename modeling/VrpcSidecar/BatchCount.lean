import VrpcSidecar.UpstreamGuard

/-! # The batch count against the grammar

`batch_size` counts with the sequence access of `serde_json`, one skipped element
after the other.  `SeqTail` is the shape that loop walks over: what stands before an
element depends on whether it is the first.  The loop counts exactly the elements of
that shape (`visitSeq_complete`, `visitSeq_sound`), the shape is the rest of an array
of the grammar (`seqTail_iff`), and so the count is the length of the array the body
starts with (`batchSize_counts`).
-/
namespace VrpcSidecar
open JsonText SerdeJson

/-! ## Sequences as the loop sees them -/

/-- `s` is what is left of an array with `k` elements to come, up to its bracket. -/
inductive SeqTail : Bool → Nat → Bytes → Prop where
  | close {first : Bool} {w : Bytes} (hw : Spaces w) : SeqTail first 0 (w ++ [0x5d])
  | element {first : Bool} {k : Nat} {sep v s : Bytes} (hsep : Separator first sep)
      (hv : Json .value v) (t : SeqTail false k s) : SeqTail first (k + 1) (sep ++ (v ++ s))

/-- After an element, the rest of an array ends the value before it. -/
theorem SeqTail.delimited {k : Nat} {s : Bytes} (h : SeqTail false k s) (suffix : Bytes) :
    Delimited (s ++ suffix) := by
  cases h with
  | @close _ w hw =>
    rw [List.append_assoc]
    exact delimited_spaces hw (Or.inr (Or.inl rfl)) _
  | @element _ k sep v s hsep hv t =>
    obtain ⟨w, w', hw, -, rfl⟩ := hsep
    rw [List.append_assoc, List.append_assoc]
    exact delimited_spaces hw (Or.inl rfl) _

/-- An element followed by the rest of an array is a list of items. -/
theorem SeqTail.items {k : Nat} {s : Bytes} (h : SeqTail false k s) :
    ∀ {w v : Bytes}, Spaces w → Json .value v → Json (.items (k + 1)) (w ++ (v ++ s)) := by
  generalize hf : false = first at h
  induction h with
  | close hw' => exact fun hw hv => Json.lastItem hw hv hw'
  | element hsep hv' t ih =>
    subst hf
    obtain ⟨w₁, w₂, hw₁, hw₂, rfl⟩ := hsep
    intro w v hw hv
    rw [List.append_assoc, List.cons_append]
    exact Json.item hw hv hw₁ (ih rfl hw₂ hv')

/-- A list of items is an element followed by the rest of an array. -/
theorem seqTail_of_items {k : Nat} {s : Bytes} (h : Json (.items k) s) :
    ∃ k' w v t, k = k' + 1 ∧ Spaces w ∧ Json .value v ∧ SeqTail false k' t ∧ s = w ++ (v ++ t) := by
  -- The other shapes of the grammar are no lists of items.
  generalize hsh : Shape.items k = sh at h
  induction h generalizing k with
  | @lastItem w v w' hw hv hw' _ =>
    cases hsh
    exact ⟨0, w, v, w' ++ [0x5d], rfl, hw, hv, SeqTail.close hw', rfl⟩
  | @item k w v w' s hw hv hw' hs _ ih =>
    cases hsh
    obtain ⟨k', w₁, v₁, t, rfl, hw₁, hv₁, ht, rfl⟩ := ih rfl
    have hsep : Separator false (w' ++ 0x2c :: w₁) := ⟨w', w₁, hw', hw₁, rfl⟩
    refine ⟨k' + 1, w, v, (w' ++ 0x2c :: w₁) ++ (v₁ ++ t), rfl, hw, hv,
      SeqTail.element hsep hv₁ ht, ?_⟩
    rw [List.append_assoc, List.cons_append]
  | _ => cases hsh

/-- **The shape the loop walks over is the rest of an array.** -/
theorem seqTail_iff {k : Nat} {s : Bytes} : SeqTail true k s ↔ ArrayTail k s := by
  constructor
  · intro h
    cases h with
    | close hw => exact Or.inl ⟨rfl, _, hw, rfl⟩
    | element hsep hv t => exact Or.inr (t.items hsep hv)
  · rintro (⟨rfl, w, hw, rfl⟩ | h)
    · exact SeqTail.close hw
    · obtain ⟨k', w, v, t, rfl, hw, hv, ht, rfl⟩ := seqTail_of_items h
      exact SeqTail.element hw hv ht

/-! ## The counting loop -/

section Count
variable {lib : Crates}

/-- The loop counts every element, and stops at the bracket. -/
theorem visitSeq_complete (hj : lib.json.SeqRule) {first : Bool} {k : Nat} {s : Bytes}
    (h : SeqTail first k s) (suffix : Bytes) (n : Nat) :
    ∃ w, Spaces w ∧ visitSeq lib first n (s ++ suffix) = some (n + k, w ++ 0x5d :: suffix) := by
  induction h generalizing n with
  | @close first w hw =>
    refine ⟨w, hw, ?_⟩
    have hend : lib.json.nextElement first ((w ++ [0x5d]) ++ suffix) = .ok none :=
      (hj.ended first _).mpr ⟨w, suffix, hw, by simp⟩
    rw [visitSeq, hend, List.append_assoc]
    rfl
  | @element first k sep v s hsep hv t ih =>
    obtain ⟨hlen, hnext⟩ := hj.complete first sep v (s ++ suffix) hsep hv (t.delimited suffix)
    obtain ⟨w, hw, hrest⟩ := ih (n + 1)
    refine ⟨w, hw, ?_⟩
    rw [List.append_assoc, List.append_assoc, visitSeq, hnext]
    dsimp only
    rw [hrest]
    congr 2
    omega

/-- What the loop counts is there. -/
theorem visitSeq_sound (hj : lib.json.SeqRule) {first : Bool} {n m : Nat} {s rest : Bytes}
    (h : visitSeq lib first n s = some (m, rest)) :
    ∃ k t suffix, SeqTail first k t ∧ s = t ++ suffix ∧ m = n + k := by
  -- Every element takes a byte at least, so the induction is on the length of the input.
  induction hlen : s.length using Nat.strong_induction_on generalizing first n s with
  | _ l ih =>
    rw [visitSeq] at h
    split at h
    · cases h
    · rename_i hend
      obtain ⟨w, r, hw, rfl⟩ := (hj.ended first s).mp hend
      cases h
      exact ⟨0, w ++ [0x5d], r, SeqTail.close hw, by simp, rfl⟩
    · rename_i r hnext
      obtain ⟨sep, v, hsep, hv, hs⟩ := hj.sound first s r hnext
      obtain ⟨k, t, suffix, ht, hr, rfl⟩ := ih r.1.length (hlen ▸ r.2) h rfl
      refine ⟨k + 1, sep ++ (v ++ t), suffix, SeqTail.element hsep hv ht, ?_, by omega⟩
      rw [hs, hr]
      simp

/-- **Deserializing counts the array the input starts with.** -/
theorem deserializeSeq_eq_some (hj : lib.json.SeqRule) {body : Bytes} {k : Nat} :
    deserializeSeq lib body = some k ↔
      ∃ w s suffix, Spaces w ∧ ArrayTail k s ∧ body = w ++ 0x5b :: (s ++ suffix) := by
  constructor
  · intro h
    obtain ⟨rest, hbegin, h⟩ := Option.bind_eq_some_iff.mp h
    obtain ⟨⟨n, rest'⟩, hvisit, h⟩ := Option.bind_eq_some_iff.mp h
    obtain ⟨_, -, h⟩ := Option.bind_eq_some_iff.mp h
    cases h
    obtain ⟨w, hw, rfl⟩ := (hj.begins body rest).mp hbegin
    obtain ⟨k', t, suffix, ht, rfl, hk⟩ := visitSeq_sound hj hvisit
    rw [Nat.zero_add] at hk
    exact ⟨w, t, suffix, hw, seqTail_iff.mp (hk ▸ ht), rfl⟩
  · rintro ⟨w, s, suffix, hw, hs, rfl⟩
    have hbegin : lib.json.beginSeq (w ++ 0x5b :: (s ++ suffix)) = some (s ++ suffix) :=
      (hj.begins _ _).mpr ⟨w, hw, rfl⟩
    obtain ⟨w', hw', hvisit⟩ := visitSeq_complete hj (seqTail_iff.mpr hs) suffix 0
    have hend : lib.json.endSeq (w' ++ 0x5d :: suffix) = some suffix :=
      (hj.ends _ _).mpr ⟨w', hw', rfl⟩
    simp [deserializeSeq, hbegin, hvisit, hend]

end Count

/-! ## The batch -/

/-- **The body starts with an array of `k` elements**: after whitespace, and whatever
follows it. -/
def StartsWithArray (body : Bytes) (k : Nat) : Prop :=
  ∃ w s suffix, Spaces w ∧ ArrayTail k s ∧ body = w ++ 0x5b :: (s ++ suffix)

section Batch
variable {lib : Crates} {body : Bytes}

/-- The first byte that is no whitespace, after whitespace. -/
theorem find_after_spaces {w : Bytes} (hw : Spaces w) (t : Bytes) :
    (w ++ 0x5b :: t).find? (fun b => !(b = 0x20 || b = 0x09 || b = 0x0a || b = 0x0d)) =
      some 0x5b := by
  have hnone : w.find? (fun b => !(b = 0x20 || b = 0x09 || b = 0x0a || b = 0x0d)) = none := by
    rw [List.find?_eq_none]
    intro b hb
    have hspace : (b = 0x20 || b = 0x09 || b = 0x0a || b = 0x0d : Bool) = true := hw b hb
    rw [hspace]
    decide
  rw [List.find?_append, hnone]
  rfl

theorem startsWithArray_iff (hj : lib.json.SeqRule) {k : Nat} :
    StartsWithArray body k ↔ deserializeSeq lib body = some k :=
  (deserializeSeq_eq_some hj).symm

/-- The count of a body that starts with an array. -/
theorem batchSize_of_array (hj : lib.json.SeqRule) {k : Nat} (h : StartsWithArray body k) :
    batchSize lib body = max 1 k := by
  have hcount := (startsWithArray_iff hj).mp h
  obtain ⟨w, s, suffix, hw, -, rfl⟩ := h
  rw [batchSize, find_after_spaces hw, if_neg (by simp), hcount]
  cases k with
  | zero => rfl
  | succ k => exact (Nat.max_eq_right (Nat.le_add_left 1 k)).symm

/-- The count of any other body. -/
theorem batchSize_of_not_array (hj : lib.json.SeqRule) (h : ¬ ∃ k, StartsWithArray body k) :
    batchSize lib body = 1 := by
  have hnone : deserializeSeq lib body = none := by
    cases hd : deserializeSeq lib body with
    | none => rfl
    | some k => exact absurd ⟨k, (startsWithArray_iff hj).mpr hd⟩ h
  rw [batchSize, hnone]
  exact ite_self _

end Batch

/-- **The batch count is the reference count.**  A body that starts with an array of `k`
elements counts as `max 1 k`, any other as 1, and `k` is the same however the body is
taken apart.  So the first JSON value of a body that reaches the upstream, in any run,
is not an array or has at most `max_batch_size` elements. -/
theorem batchSize_counts (lib : Crates) (hj : lib.json.SeqRule) :
    (∀ body k, StartsWithArray body k →
      batchSize lib body = max 1 k ∧ ∀ k', StartsWithArray body k' → k' = k) ∧
    (∀ body, (¬ ∃ k, StartsWithArray body k) → batchSize lib body = 1) ∧
    ∀ (up : UpstreamClient) (signer : SigningState lib) (cfg : ConfidentialConfig) (env : Env)
      (req : Request) (log : List Event), Observed lib up signer cfg env req log →
      ∀ upReq ∈ sends log, ∀ k, StartsWithArray upReq.body k → k ≤ cfg.maxBatchSize := by
  refine ⟨fun body k h => ⟨batchSize_of_array hj h, fun k' h' => ?_⟩,
    fun body => batchSize_of_not_array hj, ?_⟩
  · have hk := (startsWithArray_iff hj).mp h
    rw [(startsWithArray_iff hj).mp h'] at hk
    exact Option.some.inj hk
  · intro up signer cfg env req log hlog upReq hmem k hk
    obtain ⟨plaintext, ctx, nonce, inner, -, -, hbatch, hreq⟩ :=
      mem_sends_exchange.mp (hlog.sends_prefix.subset hmem)
    rw [innerUpstreamRequest_body hreq] at hk
    rw [batchSize_of_array hj hk] at hbatch
    exact (Nat.le_max_right 1 k).trans hbatch

open KnownAnswers in
/-- A batch of two, one of them a nested array, after whitespace and before more text. -/
theorem batchSize_counts_two :
    StartsWithArray (ascii " [1, [\"a\", 2] ]x") 2 ∧
      batchSize crates (ascii " [1, [\"a\", 2] ]x") = 2 := by
  have hcount : deserializeSeq crates (ascii " [1, [\"a\", 2] ]x") = some 2 := by decide +kernel
  have hstarts := (@startsWithArray_iff crates _ json_seq 2).mpr hcount
  exact ⟨hstarts, ((batchSize_counts crates json_seq).1 _ 2 hstarts).1⟩

end VrpcSidecar
