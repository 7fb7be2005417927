import VrpcSidecar.FramedSlices
import VrpcSidecar.InnerLanguage

/-! # The size check and the reader it protects

`check_field_sections` walks the lengths of a plaintext before `bhttp` reads it, so
that no field section over 64 KiB is ever built.  That is only worth something when the
two look at the same bytes.  The walk is run here with a record of the slices it skips
(`skippedSlices`); they are the slices the reader of RFC 9292 takes, at the same places
(`skippedSlices_taken`), and `precheck_agrees` is the whole comparison.
-/
namespace VrpcSidecar
open BinaryHttp

/-! ## The slices that are skipped -/

section Skipped
variable (f : Bytes)

/-- The first loop of `check_field_sections`, with the slices of `f` it skips. -/
def skippedStrings : Nat → Bytes → Except InnerError (List Slice × Bytes)
  | 0, rest => .ok ([], rest)
  | n + 1, rest => do
    match ← takeVarint rest with
    | (none, _) => .error .badRequest
    | (some len, rest) =>
      let (slices, last) ← skippedStrings n (← skip rest len)
      return (Slice.upTo f rest len.toNat :: slices, last)

/-- The second loop, with the slices of `f` it skips. -/
def skippedSections : List UInt64 → Bytes → Except InnerError (List Slice)
  | [], _ => .ok []
  | limit :: limits, rest => do
    match ← takeVarint rest with
    | (none, _) => .ok []
    | (some len, rest) =>
      if len > limit then .error .badRequest
      else do
        let slices ← skippedSections limits (← skip rest len)
        return Slice.upTo f rest len.toNat :: slices

/-- `check_field_sections`, with the slices it skips. -/
def skippedSlices : Except InnerError (List Slice) := do
  let (strs, rest) ← skippedStrings f 4 f
  let secs ← skippedSections f [maxFieldSectionBytes, 0xffffffffffffffff, maxFieldSectionBytes] rest
  return strs ++ secs

/-- Without the record the first loop is that of the source. -/
theorem skippedStrings_erase (n : Nat) (rest : Bytes) :
    (skippedStrings f n rest).map Prod.snd = skipStrings n rest := by
  induction n generalizing rest with
  | zero => rfl
  | succ n ih =>
    rw [skippedStrings, skipStrings]
    cases takeVarint rest with
    | error e => rfl
    | ok r =>
      obtain ⟨len | len, tail⟩ := r
      · rfl
      · show ((skip tail len >>= fun after => _) : Except InnerError _).map Prod.snd =
          (skip tail len >>= fun after => skipStrings n after)
        cases skip tail len with
        | error e => rfl
        | ok after =>
          show ((skippedStrings f n after >>= fun r => _) : Except InnerError _).map Prod.snd =
            skipStrings n after
          rw [← ih]
          cases skippedStrings f n after <;> rfl

/-- Without the record the second loop is that of the source. -/
theorem skippedSections_erase (limits : List UInt64) (rest : Bytes) :
    (skippedSections f limits rest).map (fun _ => ()) = skipSections limits rest := by
  induction limits generalizing rest with
  | nil => rfl
  | cons limit limits ih =>
    rw [skippedSections, skipSections]
    cases takeVarint rest with
    | error e => rfl
    | ok r =>
      obtain ⟨len | len, tail⟩ := r
      · rfl
      · show ((if len > limit then .error .badRequest else skip tail len >>= fun after => _) :
            Except InnerError _).map (fun _ => ()) =
          if len > limit then .error .badRequest
          else skip tail len >>= fun after => skipSections limits after
        split
        · rfl
        · cases skip tail len with
          | error e => rfl
          | ok after =>
            show ((skippedSections f limits after >>= fun r => _) : Except InnerError _).map
              (fun _ => ()) = skipSections limits after
            rw [← ih]
            cases skippedSections f limits after <;> rfl

/-- **Without the record the walk is `check_field_sections`.** -/
theorem skippedSlices_erase : (skippedSlices f).map (fun _ => ()) = checkFieldSections f := by
  rw [skippedSlices, checkFieldSections, ← skippedStrings_erase f]
  cases skippedStrings f 4 f with
  | error e => rfl
  | ok r =>
    obtain ⟨strs, rest⟩ := r
    show ((skippedSections f _ rest >>= fun secs => _) : Except InnerError _).map (fun _ => ()) =
      skipSections _ rest
    rw [← skippedSections_erase f]
    cases skippedSections f _ rest <;> rfl

end Skipped

/-! ## The slices that are read -/

/-- A length that was taken and skipped is a string the reader takes. -/
theorem readPrefixed_of_skip {rest tail after : Bytes} {len : UInt64}
    (hlen : takeVarint rest = .ok (some len, tail)) (hskip : skip tail len = .ok after) :
    ∃ str, readPrefixed rest = .got str after ∧ str ++ after = tail ∧ str.length = len.toNat := by
  rw [takeVarint_eq] at hlen
  split at hlen
  · cases hlen
  · cases hlen
  · rename_i v tail' hr
    cases hlen
    rw [skip, toNat_readVarint hr] at hskip
    split at hskip
    · rename_i hle
      cases hskip
      refine ⟨tail.take v, ?_, List.take_append_drop v tail, ?_⟩
      · rw [readPrefixed, hr]
        exact if_pos hle
      · rw [List.length_take, Nat.min_eq_left hle, toNat_readVarint hr]
    · cases hskip

theorem readPrefixed_of_end {rest tail : Bytes} (h : takeVarint rest = .ok (none, tail)) :
    readPrefixed rest = .eof := by
  have hend : readVarint rest = .eof := by
    rw [takeVarint_eq] at h
    split at h
    · assumption
    · cases h
    · cases h
  rw [readPrefixed, hend]

section Taken
variable {f : Bytes}

/-- The strings that are skipped are the strings that are read. -/
theorem skippedStrings_taken {n : Nat} {s rest : Bytes} {slices : List Slice}
    (h : skippedStrings f n s = .ok (slices, rest)) :
    takenStrings f n s = some (slices, rest) := by
  induction n generalizing s slices with
  | zero =>
    cases h
    rfl
  | succ n ih =>
    rw [skippedStrings] at h
    obtain ⟨⟨len | len, tail⟩, hlen, h⟩ := bind_eq_ok.mp h
    · cases h
    obtain ⟨after, hskip, h⟩ := bind_eq_ok.mp h
    obtain ⟨⟨slices', rest'⟩, hrec, h⟩ := bind_eq_ok.mp h
    cases h
    obtain ⟨str, hread, rfl, hstr⟩ := readPrefixed_of_skip hlen hskip
    rw [takenStrings, hread]
    dsimp only
    rw [ih hrec, hstr]
    rfl

/-- The sections that are skipped are the first that are read; the others are missing
at the end of the input. -/
theorem skippedSections_taken {limits : List UInt64} {s : Bytes} {slices : List Slice}
    (h : skippedSections f limits s = .ok slices) :
    slices.length ≤ limits.length ∧ ∃ padding, takenSections f limits.length s =
      some (slices ++ List.replicate (limits.length - slices.length) (Slice.atEnd f), padding) := by
  induction limits generalizing s slices with
  | nil =>
    cases h
    exact ⟨Nat.le_refl 0, s, rfl⟩
  | cons limit limits ih =>
    rw [skippedSections] at h
    obtain ⟨⟨len | len, tail⟩, hlen, h⟩ := bind_eq_ok.mp h
    · cases h
      refine ⟨Nat.zero_le _, [], ?_⟩
      rw [List.length_cons, takenSections, readPrefixed_of_end hlen]
      rfl
    · dsimp only at h
      split at h
      · cases h
      obtain ⟨after, hskip, h⟩ := bind_eq_ok.mp h
      obtain ⟨slices', hrec, h⟩ := bind_eq_ok.mp h
      cases h
      obtain ⟨str, hread, rfl, hstr⟩ := readPrefixed_of_skip hlen hskip
      obtain ⟨hle, padding, htaken⟩ := ih hrec
      refine ⟨Nat.succ_le_succ hle, padding, ?_⟩
      rw [List.length_cons, takenSections, hread]
      dsimp only
      rw [htaken, hstr, List.length_cons, Nat.add_sub_add_right]
      rfl

/-- **The slices that are skipped are the slices that are read**, from the same places;
what is read and was not skipped are the sections missing at the end. -/
theorem skippedSlices_taken {skipped : List Slice} (h : skippedSlices f = .ok skipped) :
    ∃ strs secs padding, takenSlices f = some (strs, secs, padding) ∧
      4 ≤ skipped.length ∧ skipped.length ≤ 7 ∧
      strs ++ secs = skipped ++ List.replicate (7 - skipped.length) (Slice.atEnd f) := by
  obtain ⟨⟨strs, rest⟩, hstrs, h⟩ := bind_eq_ok.mp h
  obtain ⟨secs, hsecs, h⟩ := bind_eq_ok.mp h
  cases h
  have htaken := skippedStrings_taken hstrs
  obtain ⟨-, -, hlen, -⟩ := takenStrings_spec List.suffix_rfl htaken
  obtain ⟨hle, padding, htaken'⟩ := skippedSections_taken hsecs
  simp only [List.length_cons, List.length_nil, Nat.zero_add, Nat.reduceAdd] at hle htaken'
  refine ⟨strs, secs ++ List.replicate (3 - secs.length) (Slice.atEnd f), padding, ?_, ?_, ?_, ?_⟩
  · rw [takenSlices, htaken]
    show (takenSections f 3 rest >>= fun r => _) = _
    rw [htaken']
    rfl
  · rw [List.length_append, hlen]
    omega
  · rw [List.length_append, hlen]
    omega
  · rw [List.length_append, hlen, List.append_assoc]
    have hcount : 7 - (4 + secs.length) = 3 - secs.length := by omega
    rw [hcount]

end Taken

/-! ## The two decoders agree -/

/-- The walk accepts what the framing allows, with field sections of at most 64 KiB. -/
theorem checkFieldSections_ok_iff (f : Bytes) :
    checkFieldSections f = .ok () ↔ ∃ strs hsec content tsec padding,
      readSlices f = some (strs, [hsec, content, tsec], padding) ∧
        hsec.length ≤ 65536 ∧ tsec.length ≤ 65536 := by
  rw [checkFieldSections_eq]
  constructor
  · intro h
    split at h
    · rename_i strs hsec content tsec padding hslices
      split at h
      · rename_i hle
        exact ⟨strs, hsec, content, tsec, padding, hslices, hle⟩
      · cases h
    · cases h
  · rintro ⟨strs, hsec, content, tsec, padding, hslices, hle⟩
    rw [hslices]
    exact if_pos hle

/-- **No parser differential between the size check and the reader.**  The walk accepts
exactly the inputs whose framing the reader of RFC 9292 accepts and whose header and
trailer sections are at most 65536 bytes.  The slices it then skipped are those the
reader takes, at the same places and inside the input, up to sections missing at the
end, which the reader takes as empty.  What `bhttp` builds its fields from are sections
of at most 65536 bytes. -/
theorem precheck_agrees (lib : Crates) (hread : lib.bhttp.ReadRule) (f : Bytes) :
    (checkFieldSections f = .ok () ↔ ∃ strs hsec content tsec padding,
      readSlices f = some (strs, [hsec, content, tsec], padding) ∧
        hsec.length ≤ 65536 ∧ tsec.length ≤ 65536) ∧
    (skippedSlices f).map (fun _ => ()) = checkFieldSections f ∧
    (checkFieldSections f = .ok () → ∃ skipped strs secs padding,
      skippedSlices f = .ok skipped ∧ takenSlices f = some (strs, secs, padding) ∧
        4 ≤ skipped.length ∧ skipped.length ≤ 7 ∧
        strs ++ secs = skipped ++ List.replicate (7 - skipped.length) (Slice.atEnd f) ∧
        readSlices f = some (strs.map (Slice.cut f), secs.map (Slice.cut f), padding) ∧
        strs.length = 4 ∧ secs.length = 3 ∧ ∀ sl ∈ strs ++ secs, sl.Inside f) ∧
    (checkFieldSections f = .ok () → ∀ m, lib.bhttp.readBhttp (0 :: f) = some m →
      ∃ strs hsec content tsec padding header trailer,
        readSlices f = some (strs, [hsec, content, tsec], padding) ∧
        hsec.length ≤ 65536 ∧ tsec.length ≤ 65536 ∧
        Fields header hsec ∧ Fields trailer tsec ∧
        m.content = content ∧ withoutCookies m.header = withoutCookies header) := by
  refine ⟨checkFieldSections_ok_iff f, skippedSlices_erase f, ?_, ?_⟩
  · intro hok
    have hskipped := skippedSlices_erase f
    rw [hok] at hskipped
    cases hs : skippedSlices f with
    | error e =>
      rw [hs] at hskipped
      cases hskipped
    | ok skipped =>
      obtain ⟨strs, secs, padding, htaken, hge, hle, hsame⟩ := skippedSlices_taken hs
      obtain ⟨hslices, hstrs, hsecs, hinside⟩ := takenSlices_spec htaken
      exact ⟨skipped, strs, secs, padding, rfl, htaken, hge, hle, hsame, hslices, hstrs, hsecs,
        hinside⟩
  · intro hok m' hm'
    obtain ⟨strs, hsec, content, tsec, padding, hslices, hle, hle'⟩ :=
      (checkFieldSections_ok_iff f).mp hok
    cases hr : readRequest f with
    | none =>
      rw [hread.refuses f hr] at hm'
      cases hm'
    | some m =>
      obtain ⟨m'', hm'', hsame⟩ := hread.reads f m hr
      obtain rfl := Option.some.inj (hm'.symm.trans hm'')
      obtain ⟨padding', method, scheme, authority, path, hsec', tsec', tail, -, hstrs, hsecs, hh, ht⟩ :=
        readRequest_iff.mp hr
      have hslices' := readSlices_iff.mpr
        ⟨tail, readStrings_iff.mpr ⟨rfl, hstrs⟩, readSections_iff.mpr ⟨rfl, hsecs⟩⟩
      obtain ⟨rfl, hrest, rfl⟩ : _ ∧ _ ∧ _ := by
        simpa only [Option.some.injEq, Prod.mk.injEq] using hslices'.symm.trans hslices
      simp only [List.cons.injEq, and_true] at hrest
      obtain ⟨rfl, rfl, rfl⟩ := hrest
      exact ⟨_, _, _, _, _, m.header, m.trailer, hslices, hle, hle', hh, ht, hsame.content,
        hsame.header⟩

open KnownAnswers in
/-- The plaintext of the vector passes, and what was skipped is what the reader takes. -/
theorem precheck_agrees_vector :
    checkFieldSections (bhttpRequest.drop 1) = .ok () ∧
      ∃ skipped strs secs padding, skippedSlices (bhttpRequest.drop 1) = .ok skipped ∧
        takenSlices (bhttpRequest.drop 1) = some (strs, secs, padding) ∧
        strs ++ secs = skipped ++ List.replicate (7 - skipped.length)
          (Slice.atEnd (bhttpRequest.drop 1)) := by
  have hok : checkFieldSections (bhttpRequest.drop 1) = .ok () := by decide +kernel
  obtain ⟨-, -, hslices, -⟩ := precheck_agrees crates bhttp_reads (bhttpRequest.drop 1)
  obtain ⟨skipped, strs, secs, padding, hs, ht, -, -, hsame, -⟩ := hslices hok
  exact ⟨hok, skipped, strs, secs, padding, hs, ht, hsame⟩

end VrpcSidecar
