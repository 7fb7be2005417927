import VrpcSidecar.JsonGrammar

/-! # Skipping JSON values

A scanner for the grammar of `JsonGrammar`: it keeps nothing of what it reads and
only says where the value ends.  It skips exactly one value (`skip_sound`,
`skip_complete`): a value followed by something that can follow a value in a text
is skipped whole, and whatever is skipped is a value.
-/
namespace VrpcSidecar.JsonText

/-! ## Whitespace and digits -/

/-- Skip leading whitespace. -/
def skipSpaces (s : Bytes) : Bytes := s.dropWhile isSpace

theorem skipSpaces_spec (s : Bytes) : ∃ w, Spaces w ∧ s = w ++ skipSpaces s := by
  refine ⟨s.takeWhile isSpace, ?_, (List.takeWhile_append_dropWhile).symm⟩
  intro b hb
  exact List.mem_takeWhile_imp hb

/-- Whitespace before a byte that is not whitespace is skipped exactly. -/
theorem skipSpaces_append {w : Bytes} (hw : Spaces w) {b : UInt8} (hb : isSpace b = false)
    (t : Bytes) : skipSpaces (w ++ b :: t) = b :: t := by
  rw [skipSpaces, List.dropWhile_append_of_pos hw, List.dropWhile_cons_of_neg (by simp [hb])]

theorem dropDigits_append {ds r : Bytes} (hds : ∀ b ∈ ds, isDigit b = true)
    (hr : ∀ b t, r = b :: t → isDigit b = false) : (ds ++ r).dropWhile isDigit = r := by
  rw [List.dropWhile_append_of_pos hds]
  cases r with
  | nil => rfl
  | cons b t => rw [List.dropWhile_cons_of_neg (by simp [hr b t rfl])]

theorem takeDigits (s : Bytes) : ∀ b ∈ s.takeWhile isDigit, isDigit b = true :=
  fun _ hb => List.mem_takeWhile_imp hb

/-! ## Scanning strings, numbers and literals -/

/-- Where a scanner stands inside a string: at a plain byte, after a backslash, or
with `n + 1` hexadecimal digits of a `\u` escape to come. -/
inductive StringState where
  | plain
  | escape
  | hex (n : Nat)

/-- Skip the rest of a string. -/
def skipString : StringState → Bytes → Option Bytes
  | _, [] => none
  | .plain, b :: s =>
    if b = 0x22 then some s
    else if b = 0x5c then skipString .escape s
    else if b < 0x20 then none
    else skipString .plain s
  | .escape, b :: s =>
    if b = 0x75 then skipString (.hex 3) s
    else if isEscape b then skipString .plain s
    else none
  | .hex 0, b :: s => if isHex b then skipString .plain s else none
  | .hex (n + 1), b :: s => if isHex b then skipString (.hex n) s else none

/-- What completes a string from each state of the scanner. -/
def Completes : StringState → Bytes → Prop
  | .plain, str => StringTail str
  | .escape, str => StringTail (0x5c :: str)
  | .hex n, str => ∃ hs t, hs.length = n + 1 ∧ (∀ b ∈ hs, isHex b = true) ∧ StringTail t ∧
      str = hs ++ t

theorem StringTail.skip {s : Bytes} (h : StringTail s) (r : Bytes) :
    skipString .plain (s ++ r) = some r := by
  induction h with
  | close => rw [List.cons_append, List.nil_append, skipString, if_pos rfl]
  | @plain b s hq hb hc t ih =>
    have hlt : ¬ b < 0x20 := by simpa using hc
    rw [List.cons_append, skipString, if_neg hq, if_neg hb, if_neg hlt, ih]
  | @escape b s hb t ih =>
    have hu : b ≠ 0x75 := by
      rintro rfl
      exact absurd hb (by decide)
    rw [List.cons_append, List.cons_append, skipString, if_neg (by decide), if_pos rfl, skipString,
      if_neg hu, if_pos hb, ih]
  | @unicode x y z u s hx hy hz hu t ih =>
    simp only [List.cons_append]
    rw [skipString, if_neg (by decide), if_pos rfl, skipString, if_pos rfl, skipString, if_pos hx,
      skipString, if_pos hy, skipString, if_pos hz, skipString, if_pos hu, ih]

theorem completes_of_skip {st : StringState} {s r : Bytes} (h : skipString st s = some r) :
    ∃ str, Completes st str ∧ s = str ++ r := by
  induction s generalizing st with
  | nil => cases st <;> cases h
  | cons b s ih =>
    cases st with
    | plain =>
      rw [skipString] at h
      split at h
      · rename_i hq
        obtain rfl := Option.some.inj h
        exact ⟨[0x22], StringTail.close, by rw [hq]; rfl⟩
      · rename_i hq
        split at h
        · rename_i hb
          obtain ⟨str, hstr, rfl⟩ := ih h
          exact ⟨0x5c :: str, hstr, by rw [hb]; rfl⟩
        · rename_i hb
          split at h
          · cases h
          · rename_i hlt
            obtain ⟨str, hstr, rfl⟩ := ih h
            exact ⟨b :: str, StringTail.plain hq hb (by simpa using hlt) hstr, rfl⟩
    | escape =>
      rw [skipString] at h
      split at h
      · rename_i hu
        obtain ⟨str, ⟨hs, t, hlen, hhex, ht, rfl⟩, rfl⟩ := ih h
        obtain ⟨x, y, z, u, rfl⟩ : ∃ x y z u, hs = [x, y, z, u] := List.length_eq_four.mp hlen
        simp only [List.forall_mem_cons] at hhex
        obtain ⟨hx, hy, hz, hu', -⟩ := hhex
        exact ⟨_, StringTail.unicode hx hy hz hu' ht, by rw [hu]; rfl⟩
      · split at h
        · rename_i he
          obtain ⟨str, hstr, rfl⟩ := ih h
          exact ⟨b :: str, StringTail.escape he hstr, rfl⟩
        · cases h
    | hex n =>
      cases n with
      | zero =>
        rw [skipString] at h
        split at h
        · rename_i hb
          obtain ⟨str, hstr, rfl⟩ := ih h
          exact ⟨b :: str, ⟨[b], str, rfl, by simpa using hb, hstr, rfl⟩, rfl⟩
        · cases h
      | succ n =>
        rw [skipString] at h
        split at h
        · rename_i hb
          obtain ⟨str, ⟨hs, t, hlen, hhex, ht, rfl⟩, rfl⟩ := ih h
          exact ⟨b :: (hs ++ t), ⟨b :: hs, t, by simp [hlen],
            List.forall_mem_cons.mpr ⟨hb, hhex⟩, ht, rfl⟩, rfl⟩
        · cases h

/-- Skip one or more digits. -/
def skipDigits : Bytes → Option Bytes
  | [] => none
  | d :: t => if isDigit d then some (t.dropWhile isDigit) else none

/-- Skip one byte if it is one of `signs`. -/
def dropSign (signs : Bytes) : Bytes → Bytes
  | [] => []
  | c :: t => if c ∈ signs then t else c :: t

/-- Skip the integer part of a number. -/
def skipInt : Bytes → Option Bytes
  | [] => none
  | d :: t =>
    if d = 0x30 then
      if (t.head?.map isDigit).getD false then none else some t
    else if isDigit d then some (t.dropWhile isDigit)
    else none

/-- Skip the fraction of a number, if there is one. -/
def skipFrac : Bytes → Option Bytes
  | [] => some []
  | c :: t => if c = 0x2e then skipDigits t else some (c :: t)

/-- Skip the exponent of a number, if there is one. -/
def skipExp : Bytes → Option Bytes
  | [] => some []
  | c :: t => if c = 0x65 ∨ c = 0x45 then skipDigits (dropSign [0x2b, 0x2d] t) else some (c :: t)

/-- Skip a number. -/
def skipNumber (s : Bytes) : Option Bytes :=
  ((skipInt (dropSign [0x2d] s)).bind skipFrac).bind skipExp

/-- The input does not go on with a digit. -/
def NoDigit (r : Bytes) : Prop := ∀ b t, r = b :: t → isDigit b = false

theorem skipDigits_complete {ds r : Bytes} (h : Digits ds) (hr : NoDigit r) :
    skipDigits (ds ++ r) = some r := by
  obtain ⟨d, t, rfl⟩ := List.exists_cons_of_ne_nil h.1
  have hd : isDigit d = true := h.2 d List.mem_cons_self
  rw [List.cons_append, skipDigits, if_pos hd,
    dropDigits_append (fun b hb => h.2 b (List.mem_cons_of_mem _ hb)) hr]

theorem skipDigits_sound {s r : Bytes} (h : skipDigits s = some r) :
    ∃ ds, Digits ds ∧ s = ds ++ r := by
  cases s with
  | nil => cases h
  | cons d t =>
    rw [skipDigits] at h
    split at h
    · rename_i hd
      obtain rfl := Option.some.inj h
      refine ⟨d :: t.takeWhile isDigit, ⟨by simp, ?_⟩, ?_⟩
      · intro b hb
        rcases List.mem_cons.mp hb with rfl | hb
        · exact hd
        · exact takeDigits t b hb
      · rw [List.cons_append, List.takeWhile_append_dropWhile]
    · cases h

theorem skipInt_complete {i r : Bytes} (h : IntPart i) (hr : NoDigit r) :
    skipInt (i ++ r) = some r := by
  rcases h with rfl | ⟨d, ds, rfl, hd, hne, hds⟩
  · rw [List.cons_append, List.nil_append, skipInt, if_pos rfl, if_neg]
    cases r with
    | nil => simp
    | cons b t => simp [hr b t rfl]
  · rw [List.cons_append, skipInt, if_neg hne, if_pos hd, dropDigits_append hds hr]

theorem skipInt_sound {s r : Bytes} (h : skipInt s = some r) : ∃ i, IntPart i ∧ s = i ++ r := by
  cases s with
  | nil => cases h
  | cons d t =>
    rw [skipInt] at h
    split at h
    · rename_i hd
      split at h
      · cases h
      · obtain rfl := Option.some.inj h
        exact ⟨[0x30], Or.inl rfl, by rw [hd]; rfl⟩
    · rename_i hne
      split at h
      · rename_i hd
        obtain rfl := Option.some.inj h
        refine ⟨d :: t.takeWhile isDigit, Or.inr ⟨d, _, rfl, hd, hne, takeDigits t⟩, ?_⟩
        rw [List.cons_append, List.takeWhile_append_dropWhile]
      · cases h

theorem skipFrac_sound {s r : Bytes} (h : skipFrac s = some r) : ∃ f, FracPart f ∧ s = f ++ r := by
  cases s with
  | nil => exact ⟨[], Or.inl rfl, Option.some.inj h⟩
  | cons c t =>
    rw [skipFrac] at h
    split at h
    · rename_i hc
      obtain ⟨ds, hds, rfl⟩ := skipDigits_sound h
      exact ⟨0x2e :: ds, Or.inr ⟨ds, rfl, hds⟩, by rw [hc]; rfl⟩
    · exact ⟨[], Or.inl rfl, Option.some.inj h⟩

theorem dropSign_sound (signs s : Bytes) :
    ∃ sign, (sign = [] ∨ ∃ c ∈ signs, sign = [c]) ∧ s = sign ++ dropSign signs s := by
  cases s with
  | nil => exact ⟨[], Or.inl rfl, rfl⟩
  | cons c t =>
    rw [dropSign]
    split
    · exact ⟨[c], Or.inr ⟨c, ‹_›, rfl⟩, rfl⟩
    · exact ⟨[], Or.inl rfl, rfl⟩

theorem skipExp_sound {s r : Bytes} (h : skipExp s = some r) : ∃ e, ExpPart e ∧ s = e ++ r := by
  cases s with
  | nil => exact ⟨[], Or.inl rfl, Option.some.inj h⟩
  | cons c t =>
    rw [skipExp] at h
    split at h
    · rename_i hc
      obtain ⟨ds, hds, hr⟩ := skipDigits_sound h
      obtain ⟨sign, hsign, ht⟩ := dropSign_sound [0x2b, 0x2d] t
      refine ⟨c :: (sign ++ ds), Or.inr ⟨c, sign, ds, rfl, hc, ?_, hds⟩, ?_⟩
      · rcases hsign with rfl | ⟨b, hb, rfl⟩
        · exact Or.inl rfl
        · rcases List.mem_cons.mp hb with rfl | hb
          · exact Or.inr (Or.inl rfl)
          · exact Or.inr (Or.inr (congrArg (fun x => [x]) (List.mem_singleton.mp hb)))
      · rw [ht, hr]
        simp
    · exact ⟨[], Or.inl rfl, Option.some.inj h⟩

theorem skipNumber_sound {s r : Bytes} (h : skipNumber s = some r) :
    ∃ t, Number t ∧ s = t ++ r := by
  obtain ⟨x, hx, he⟩ := Option.bind_eq_some_iff.mp h
  obtain ⟨y, hi, hf⟩ := Option.bind_eq_some_iff.mp hx
  obtain ⟨sign, hsign, hs⟩ := dropSign_sound [0x2d] s
  obtain ⟨i, hip, hiy⟩ := skipInt_sound hi
  obtain ⟨f, hfp, rfl⟩ := skipFrac_sound hf
  obtain ⟨e, hep, rfl⟩ := skipExp_sound he
  refine ⟨sign ++ (i ++ (f ++ e)), ⟨sign, i, f, e, rfl, ?_, hip, hfp, hep⟩, ?_⟩
  · rcases hsign with rfl | ⟨c, hc, rfl⟩
    · exact Or.inl rfl
    · exact Or.inr (congrArg (fun x => [x]) (List.mem_singleton.mp hc))
  · rw [hs, hiy]
    simp

/-- What can follow a value does not continue a number. -/
theorem Delimited.not_number {r : Bytes} (h : Delimited r) :
    ∀ b t, r = b :: t → isDigit b = false ∧ b ≠ 0x2e ∧ b ≠ 0x65 ∧ b ≠ 0x45 := by
  intro b t hr
  have hb := h b t hr
  simp only [isDigit, isSpace, Bool.or_eq_true, decide_eq_true_eq, Bool.and_eq_false_iff,
    decide_eq_false_iff_not, UInt8.le_iff_toNat_le, ← UInt8.toNat_inj, ne_eq,
    UInt8.reduceToNat] at hb ⊢
  omega

theorem skipExp_complete {e r : Bytes} (h : ExpPart e) (hr : Delimited r) :
    skipExp (e ++ r) = some r := by
  rcases h with rfl | ⟨c, sign, ds, rfl, hc, hsign, hds⟩
  · cases r with
    | nil => rfl
    | cons b t =>
      obtain ⟨-, -, h1, h2⟩ := hr.not_number b t rfl
      rw [List.nil_append, skipExp, if_neg (by simp [h1, h2])]
  · have hnd : NoDigit r := fun b t hb => (hr.not_number b t hb).1
    have hdrop : dropSign [0x2b, 0x2d] ((sign ++ ds) ++ r) = ds ++ r := by
      obtain ⟨d, ds', rfl⟩ := List.exists_cons_of_ne_nil hds.1
      have hd : isDigit d = true := hds.2 d List.mem_cons_self
      rcases hsign with rfl | rfl | rfl
      · have hns : d ∉ ([0x2b, 0x2d] : Bytes) := by
          intro hm
          rcases List.mem_cons.mp hm with rfl | hm
          · exact absurd hd (by decide)
          · rw [List.mem_singleton.mp hm] at hd
            exact absurd hd (by decide)
        rw [List.nil_append, List.cons_append, dropSign, if_neg hns]
      · rfl
      · rfl
    rw [List.cons_append, skipExp, if_pos hc, hdrop, skipDigits_complete hds hnd]

theorem skipFrac_complete {f y : Bytes} (h : FracPart f)
    (hy : ∀ b t, y = b :: t → isDigit b = false ∧ b ≠ 0x2e) : skipFrac (f ++ y) = some y := by
  rcases h with rfl | ⟨ds, rfl, hds⟩
  · cases y with
    | nil => rfl
    | cons b t => rw [List.nil_append, skipFrac, if_neg (hy b t rfl).2]
  · rw [List.cons_append, skipFrac, if_pos rfl,
      skipDigits_complete hds (fun b t hb => (hy b t hb).1)]

/-- A number followed by what can follow a value is skipped whole. -/
theorem skipNumber_complete {t r : Bytes} (h : Number t) (hr : Delimited r) :
    skipNumber (t ++ r) = some r := by
  obtain ⟨sign, i, f, e, rfl, hsign, hi, hf, he⟩ := h
  have hexp : ∀ b t, e ++ r = b :: t → isDigit b = false ∧ b ≠ 0x2e := by
    intro b t hb
    rcases he with rfl | ⟨c, s, ds, rfl, hc, -⟩
    · exact ⟨(hr.not_number b t hb).1, (hr.not_number b t hb).2.1⟩
    · obtain ⟨rfl, -⟩ := List.cons.inj hb
      rcases hc with rfl | rfl <;> decide
  have hfrac : NoDigit (f ++ (e ++ r)) := by
    intro b t hb
    rcases hf with rfl | ⟨ds, rfl, -⟩
    · exact (hexp b t hb).1
    · obtain ⟨rfl, -⟩ := List.cons.inj hb
      decide
  have hdrop : dropSign [0x2d] (sign ++ (i ++ (f ++ (e ++ r)))) = i ++ (f ++ (e ++ r)) := by
    rcases hsign with rfl | rfl
    · rcases hi with rfl | ⟨d, ds, rfl, hd, -⟩
      · rfl
      · have hns : d ∉ ([0x2d] : Bytes) := by
          intro hm
          rw [List.mem_singleton.mp hm] at hd
          exact absurd hd (by decide)
        rw [List.nil_append, List.cons_append, dropSign, if_neg hns]
    · rfl
  have hassoc : sign ++ (i ++ (f ++ e)) ++ r = sign ++ (i ++ (f ++ (e ++ r))) := by simp
  rw [hassoc, skipNumber, hdrop, skipInt_complete hi hfrac, Option.bind_some,
    skipFrac_complete hf hexp, Option.bind_some, skipExp_complete he hr]

/-! ## Scanning values -/

/-- What the scanner is skipping: the shapes of the grammar without the count. -/
inductive Mode where
  | value
  | items
  | members

/-- The mode that skips texts of a shape. -/
def Shape.mode : Shape → Mode
  | .value => .value
  | .items _ => .items
  | .members => .members

/-- `s` after the expected bytes, if it starts with them. -/
def skipLiteral : Bytes → Bytes → Option Bytes
  | [], s => some s
  | _ :: _, [] => none
  | c :: cs, b :: s => if b = c then skipLiteral cs s else none

/-- The rest after the closing byte `c` if it comes next, whitespace aside; what
`k` gives otherwise. -/
def closeOr (c : UInt8) (s : Bytes) (k : Option Bytes) : Option Bytes :=
  match skipSpaces s with
  | [] => none
  | b :: r => if b = c then some r else k

/-- After an element: a comma and what `k` makes of the rest, or the closing
byte `c`. -/
def commaOr (c : UInt8) (s : Bytes) (k : Bytes → Option Bytes) : Option Bytes :=
  match skipSpaces s with
  | [] => none
  | b :: r => if b = 0x2c then k r else if b = c then some r else none

/-- Skip a member name and the colon after it. -/
def skipKey (s : Bytes) : Option Bytes :=
  match skipSpaces s with
  | [] => none
  | b :: t =>
    if b = 0x22 then
      (skipString .plain t).bind (fun r =>
        match skipSpaces r with
        | [] => none
        | c :: r' => if c = 0x3a then some r' else none)
    else none

/-- Skip one value, or the elements or members up to the closing byte.  `fuel`
bounds the recursion; the length of the input is always enough. -/
def skip : Nat → Mode → Bytes → Option Bytes
  | 0, _, _ => none
  | _ + 1, .value, [] => none
  | fuel + 1, .value, b :: t =>
    if b = 0x22 then skipString .plain t
    else if b = 0x5b then closeOr 0x5d t (skip fuel .items t)
    else if b = 0x7b then closeOr 0x7d t (skip fuel .members t)
    else if b = 0x6e then skipLiteral [0x75, 0x6c, 0x6c] t
    else if b = 0x74 then skipLiteral [0x72, 0x75, 0x65] t
    else if b = 0x66 then skipLiteral [0x61, 0x6c, 0x73, 0x65] t
    else skipNumber (b :: t)
  | fuel + 1, .items, s =>
    (skip fuel .value (skipSpaces s)).bind (fun r => commaOr 0x5d r (skip fuel .items))
  | fuel + 1, .members, s =>
    (skipKey s).bind (fun s' =>
      (skip fuel .value (skipSpaces s')).bind (fun r => commaOr 0x7d r (skip fuel .members)))

/-! ### Everything skipped is a text of its shape -/

/-- `s` is a text of the mode followed by `r`. -/
def Skipped : Mode → Bytes → Bytes → Prop
  | .value, s, r => ∃ v, Json .value v ∧ s = v ++ r
  | .items, s, r => ∃ k x, Json (.items k) x ∧ s = x ++ r
  | .members, s, r => ∃ x, Json .members x ∧ s = x ++ r

theorem skipLiteral_sound {cs s r : Bytes} (h : skipLiteral cs s = some r) : s = cs ++ r := by
  induction cs generalizing s with
  | nil => exact Option.some.inj h
  | cons c cs ih =>
    cases s with
    | nil => cases h
    | cons b s =>
      rw [skipLiteral] at h
      split at h
      · rename_i hb
        rw [hb, ih h]
        rfl
      · cases h

theorem skipLiteral_complete (cs r : Bytes) : skipLiteral cs (cs ++ r) = some r := by
  induction cs with
  | nil => rfl
  | cons c cs ih => rw [List.cons_append, skipLiteral, if_pos rfl, ih]

theorem closeOr_sound {c : UInt8} {s r : Bytes} {k : Option Bytes} (h : closeOr c s k = some r) :
    (∃ w, Spaces w ∧ s = (w ++ [c]) ++ r) ∨ k = some r := by
  obtain ⟨w, hw, hs⟩ := skipSpaces_spec s
  unfold closeOr at h
  split at h
  · cases h
  · rename_i b t hb
    split at h
    · rename_i hbc
      obtain rfl := Option.some.inj h
      left
      exact ⟨w, hw, by rw [hs, hb, hbc]; simp⟩
    · exact Or.inr h

theorem commaOr_sound {c : UInt8} {s r : Bytes} {k : Bytes → Option Bytes}
    (h : commaOr c s k = some r) :
    ∃ w, Spaces w ∧ ((s = (w ++ [c]) ++ r) ∨ ∃ t, s = w ++ 0x2c :: t ∧ k t = some r) := by
  obtain ⟨w, hw, hs⟩ := skipSpaces_spec s
  unfold commaOr at h
  split at h
  · cases h
  · rename_i b t hb
    refine ⟨w, hw, ?_⟩
    split at h
    · rename_i hbc
      exact Or.inr ⟨t, by rw [hs, hb, hbc], h⟩
    · split at h
      · rename_i hbc
        obtain rfl := Option.some.inj h
        left
        rw [hs, hb, hbc]
        simp
      · cases h

theorem skipKey_sound {s r : Bytes} (h : skipKey s = some r) :
    ∃ w key w₁, Spaces w ∧ StringTail key ∧ Spaces w₁ ∧
      s = w ++ 0x22 :: (key ++ (w₁ ++ 0x3a :: r)) := by
  obtain ⟨w, hw, hs⟩ := skipSpaces_spec s
  unfold skipKey at h
  split at h
  · cases h
  · rename_i b t hb
    split at h
    · rename_i hq
      obtain ⟨x, hx, hcol⟩ := Option.bind_eq_some_iff.mp h
      obtain ⟨key, hkey, rfl⟩ := completes_of_skip hx
      obtain ⟨w₁, hw₁, hs₁⟩ := skipSpaces_spec x
      split at hcol
      · cases hcol
      · rename_i c t' hc
        split at hcol
        · rename_i hcolon
          obtain rfl := Option.some.inj hcol
          refine ⟨w, key, w₁, hw, hkey, hw₁, ?_⟩
          rw [hs, hb, hq, hs₁, hc, hcolon]
        · cases hcol
    · cases h

/-- **Whatever is skipped is a text of the grammar.** -/
theorem skip_sound {fuel : Nat} {m : Mode} {s r : Bytes} (h : skip fuel m s = some r) :
    Skipped m s r := by
  induction fuel generalizing m s r with
  | zero => cases h
  | succ fuel ih =>
    cases m with
    | value =>
      cases s with
      | nil => cases h
      | cons b t =>
        rw [skip] at h
        split at h
        · rename_i hb
          obtain ⟨str, hstr, rfl⟩ := completes_of_skip h
          exact ⟨_, Json.string hstr, by rw [hb]; rfl⟩
        split at h
        · rename_i hb
          rcases closeOr_sound h with ⟨w, hw, rfl⟩ | hrec
          · exact ⟨_, Json.emptyArray hw, by rw [hb]; rfl⟩
          · obtain ⟨k, x, hx, rfl⟩ := ih hrec
            exact ⟨_, Json.array hx, by rw [hb]; rfl⟩
        split at h
        · rename_i hb
          rcases closeOr_sound h with ⟨w, hw, rfl⟩ | hrec
          · exact ⟨_, Json.emptyObject hw, by rw [hb]; rfl⟩
          · obtain ⟨x, hx, rfl⟩ := ih hrec
            exact ⟨_, Json.object hx, by rw [hb]; rfl⟩
        split at h
        · rename_i hb
          exact ⟨_, Json.literal (Or.inl rfl), by rw [hb, skipLiteral_sound h]; rfl⟩
        split at h
        · rename_i hb
          exact ⟨_, Json.literal (Or.inr (Or.inl rfl)), by rw [hb, skipLiteral_sound h]; rfl⟩
        split at h
        · rename_i hb
          exact ⟨_, Json.literal (Or.inr (Or.inr rfl)), by rw [hb, skipLiteral_sound h]; rfl⟩
        · obtain ⟨n, hn, hs⟩ := skipNumber_sound h
          exact ⟨n, Json.number hn, hs⟩
    | items =>
      rw [skip] at h
      obtain ⟨x, hx, hc⟩ := Option.bind_eq_some_iff.mp h
      obtain ⟨w, hw, hs⟩ := skipSpaces_spec s
      obtain ⟨v, hv, hvx⟩ := ih hx
      rw [hvx] at hs
      obtain ⟨w', hw', hend | ⟨t, ht, hrec⟩⟩ := commaOr_sound hc
      · exact ⟨1, _, Json.lastItem hw hv hw', by rw [hs, hend]; simp⟩
      · obtain ⟨k, y, hy, rfl⟩ := ih hrec
        exact ⟨k + 1, _, Json.item hw hv hw' hy, by rw [hs, ht]; simp⟩
    | members =>
      rw [skip] at h
      obtain ⟨s', hk, h⟩ := Option.bind_eq_some_iff.mp h
      obtain ⟨w, key, w₁, hw, hkey, hw₁, hs⟩ := skipKey_sound hk
      obtain ⟨x, hx, hc⟩ := Option.bind_eq_some_iff.mp h
      obtain ⟨w₂, hw₂, hs'⟩ := skipSpaces_spec s'
      obtain ⟨v, hv, hvx⟩ := ih hx
      rw [hvx] at hs'
      obtain ⟨w₃, hw₃, hend | ⟨t, ht, hrec⟩⟩ := commaOr_sound hc
      · exact ⟨_, Json.lastMember hw hkey hw₁ hw₂ hv hw₃, by rw [hs, hs', hend]; simp⟩
      · obtain ⟨y, hy, rfl⟩ := ih hrec
        exact ⟨_, Json.member hw hkey hw₁ hw₂ hv hw₃ hy, by rw [hs, hs', ht]; simp⟩

/-! ### Every text is skipped whole -/

theorem items_head {k : Nat} {s : Bytes} (h : Json (.items k) s) :
    ∃ w b t, Spaces w ∧ s = w ++ b :: t ∧ isSpace b = false ∧ b ≠ 0x5d := by
  cases h with
  | @lastItem w v w' hw hv hw' =>
    obtain ⟨b, t, rfl, hb, -, -, hne, -⟩ := value_head hv
    exact ⟨w, b, _, hw, rfl, hb, hne⟩
  | @item k w v w' s hw hv hw' hs =>
    obtain ⟨b, t, rfl, hb, -, -, hne, -⟩ := value_head hv
    exact ⟨w, b, _, hw, rfl, hb, hne⟩

theorem members_head {s : Bytes} (h : Json .members s) :
    ∃ w t, Spaces w ∧ s = w ++ 0x22 :: t := by
  cases h with
  | lastMember hw hkey hw₁ hw₂ hv hw₃ => exact ⟨_, _, hw, rfl⟩
  | member hw hkey hw₁ hw₂ hv hw₃ hs => exact ⟨_, _, hw, rfl⟩

theorem closeOr_close {c : UInt8} (hc : isSpace c = false) {w : Bytes} (hw : Spaces w) (r : Bytes)
    (k : Option Bytes) : closeOr c ((w ++ [c]) ++ r) k = some r := by
  have hs : (w ++ [c]) ++ r = w ++ c :: r := by simp
  rw [closeOr, hs, skipSpaces_append hw hc]
  exact if_pos rfl

theorem closeOr_other {c b : UInt8} (hb : isSpace b = false) (hbc : b ≠ c) {w : Bytes}
    (hw : Spaces w) (t : Bytes) (k : Option Bytes) : closeOr c (w ++ b :: t) k = k := by
  rw [closeOr, skipSpaces_append hw hb]
  exact if_neg hbc

theorem commaOr_close {c : UInt8} (hc : isSpace c = false) (hne : c ≠ 0x2c) {w : Bytes}
    (hw : Spaces w) (r : Bytes) (k : Bytes → Option Bytes) :
    commaOr c (w ++ c :: r) k = some r := by
  rw [commaOr, skipSpaces_append hw hc]
  dsimp only
  rw [if_neg hne, if_pos rfl]

theorem commaOr_comma {c : UInt8} {w : Bytes} (hw : Spaces w) (t : Bytes)
    (k : Bytes → Option Bytes) : commaOr c (w ++ 0x2c :: t) k = k t := by
  rw [commaOr, skipSpaces_append hw (by decide)]
  exact if_pos rfl

theorem skipKey_complete {w key w₁ : Bytes} (hw : Spaces w) (hkey : StringTail key)
    (hw₁ : Spaces w₁) (r : Bytes) : skipKey (w ++ 0x22 :: (key ++ (w₁ ++ 0x3a :: r))) = some r := by
  rw [skipKey, skipSpaces_append hw (by decide)]
  dsimp only
  rw [if_pos rfl, hkey.skip, Option.bind_some, skipSpaces_append hw₁ (by decide)]
  exact if_pos rfl

theorem skipSpaces_value {w v : Bytes} (hw : Spaces w) (hv : Json .value v) (r : Bytes) :
    skipSpaces (w ++ (v ++ r)) = v ++ r := by
  obtain ⟨b, t, rfl, hb, -⟩ := value_head hv
  rw [List.cons_append]
  exact skipSpaces_append hw hb _

theorem delimited_spaces {w : Bytes} (hw : Spaces w) {c : UInt8}
    (hc : c = 0x2c ∨ c = 0x5d ∨ c = 0x7d) (r : Bytes) : Delimited (w ++ c :: r) := by
  intro b t hb
  cases w with
  | nil =>
    obtain ⟨rfl, -⟩ := List.cons.inj hb
    exact Or.inr hc
  | cons x w =>
    obtain ⟨rfl, -⟩ := List.cons.inj hb
    exact Or.inl (hw x List.mem_cons_self)

/-- A number starts with a minus sign or a digit. -/
theorem number_head {n : Bytes} (h : Number n) : ∃ b t, n = b :: t ∧ b ≠ 0x22 ∧ b ≠ 0x5b ∧
    b ≠ 0x7b ∧ b ≠ 0x6e ∧ b ≠ 0x74 ∧ b ≠ 0x66 := by
  obtain ⟨sign, i, f, e, rfl, hsign, hi, -, -⟩ := h
  rcases hsign with rfl | rfl
  · rcases hi with rfl | ⟨d, ds, rfl, hd, -⟩
    · exact ⟨0x30, _, rfl, by decide⟩
    · refine ⟨d, _, rfl, ?_⟩
      simp only [isDigit, Bool.and_eq_true, decide_eq_true_eq, UInt8.le_iff_toNat_le,
        ← UInt8.toNat_inj, ne_eq, UInt8.reduceToNat] at hd ⊢
      omega
  · exact ⟨0x2d, _, rfl, by decide⟩

/-- **Every text is skipped whole**, a value when something that can follow it
follows. -/
theorem skip_complete {sh : Shape} {s : Bytes} (h : Json sh s) :
    ∀ fuel r, s.length ≤ fuel → (sh = .value → Delimited r) →
      skip fuel sh.mode (s ++ r) = some r := by
  induction h with
  | literal ht =>
    intro fuel r hf _
    rcases ht with rfl | rfl | rfl <;> cases fuel <;> try (simp at hf; done)
    all_goals
      simp only [Shape.mode, List.cons_append, List.nil_append, skip]
      exact skipLiteral_complete _ r
  | number hn =>
    intro fuel r hf hr
    obtain ⟨b, t, rfl, h1, h2, h3, h4, h5, h6⟩ := number_head hn
    cases fuel with
    | zero => simp at hf
    | succ fuel =>
      rw [List.cons_append, Shape.mode, skip, if_neg h1, if_neg h2, if_neg h3, if_neg h4, if_neg h5,
        if_neg h6]
      exact skipNumber_complete hn (hr rfl)
  | string hs =>
    intro fuel r hf _
    cases fuel with
    | zero => simp at hf
    | succ fuel =>
      rw [List.cons_append, Shape.mode, skip, if_pos rfl]
      exact hs.skip r
  | emptyArray hw =>
    intro fuel r hf _
    cases fuel with
    | zero => simp at hf
    | succ fuel =>
      rw [List.cons_append, Shape.mode, skip, if_neg (by decide), if_pos rfl]
      exact closeOr_close (by decide) hw r _
  | array hs ih =>
    intro fuel r hf _
    cases fuel with
    | zero => simp at hf
    | succ fuel =>
      have hrec := ih fuel r (by simpa using hf) (by simp)
      obtain ⟨w, b, t, hw, hst, hb, hne⟩ := items_head hs
      rw [List.cons_append, Shape.mode, skip, if_neg (by decide), if_pos rfl]
      rw [hst, List.append_assoc, List.cons_append] at hrec ⊢
      rw [closeOr_other hb hne hw]
      exact hrec
  | emptyObject hw =>
    intro fuel r hf _
    cases fuel with
    | zero => simp at hf
    | succ fuel =>
      rw [List.cons_append, Shape.mode, skip, if_neg (by decide), if_neg (by decide), if_pos rfl]
      exact closeOr_close (by decide) hw r _
  | object hs ih =>
    intro fuel r hf _
    cases fuel with
    | zero => simp at hf
    | succ fuel =>
      have hrec := ih fuel r (by simpa using hf) (by simp)
      obtain ⟨w, t, hw, hst⟩ := members_head hs
      rw [List.cons_append, Shape.mode, skip, if_neg (by decide), if_neg (by decide), if_pos rfl]
      rw [hst, List.append_assoc, List.cons_append] at hrec ⊢
      rw [closeOr_other (by decide) (by decide) hw]
      exact hrec
  | @lastItem w v w' hw hv hw' ihv =>
    intro fuel r hf _
    simp only [List.length_append, List.length_cons, List.length_nil] at hf
    cases fuel with
    | zero => omega
    | succ fuel =>
      have hv' := ihv fuel (w' ++ 0x5d :: r) (by omega)
        (fun _ => delimited_spaces hw' (Or.inr (Or.inl rfl)) r)
      have hshape : (w ++ (v ++ (w' ++ [0x5d]))) ++ r = w ++ (v ++ (w' ++ 0x5d :: r)) := by simp
      rw [hshape, Shape.mode, skip, skipSpaces_value hw hv]
      rw [Shape.mode] at hv'
      rw [hv', Option.bind_some, commaOr_close (by decide) (by decide) hw']
  | @item k w v w' s hw hv hw' hs ihv ihs =>
    intro fuel r hf _
    simp only [List.length_append, List.length_cons] at hf
    cases fuel with
    | zero => omega
    | succ fuel =>
      have hv' := ihv fuel (w' ++ 0x2c :: (s ++ r)) (by omega)
        (fun _ => delimited_spaces hw' (Or.inl rfl) (s ++ r))
      have hs' := ihs fuel r (by omega) (by simp)
      have hshape : (w ++ (v ++ (w' ++ 0x2c :: s))) ++ r = w ++ (v ++ (w' ++ 0x2c :: (s ++ r))) := by
        simp
      rw [hshape, Shape.mode, skip, skipSpaces_value hw hv]
      simp only [Shape.mode] at hv' hs'
      rw [hv', Option.bind_some, commaOr_comma hw', hs']
  | @lastMember w key w₁ w₂ v w₃ hw hkey hw₁ hw₂ hv hw₃ ihv =>
    intro fuel r hf _
    simp only [List.length_append, List.length_cons, List.length_nil] at hf
    cases fuel with
    | zero => omega
    | succ fuel =>
      have hv' := ihv fuel (w₃ ++ 0x7d :: r) (by omega)
        (fun _ => delimited_spaces hw₃ (Or.inr (Or.inr rfl)) r)
      have hshape : (w ++ 0x22 :: (key ++ (w₁ ++ 0x3a :: (w₂ ++ (v ++ (w₃ ++ [0x7d])))))) ++ r =
          w ++ 0x22 :: (key ++ (w₁ ++ 0x3a :: (w₂ ++ (v ++ (w₃ ++ 0x7d :: r))))) := by simp
      rw [hshape, Shape.mode, skip, skipKey_complete hw hkey hw₁, Option.bind_some,
        skipSpaces_value hw₂ hv]
      rw [Shape.mode] at hv'
      rw [hv', Option.bind_some, commaOr_close (by decide) (by decide) hw₃]
  | @member w key w₁ w₂ v w₃ s hw hkey hw₁ hw₂ hv hw₃ hs ihv ihs =>
    intro fuel r hf _
    simp only [List.length_append, List.length_cons] at hf
    cases fuel with
    | zero => omega
    | succ fuel =>
      have hv' := ihv fuel (w₃ ++ 0x2c :: (s ++ r)) (by omega)
        (fun _ => delimited_spaces hw₃ (Or.inl rfl) (s ++ r))
      have hs' := ihs fuel r (by omega) (by simp)
      have hshape : (w ++ 0x22 :: (key ++ (w₁ ++ 0x3a :: (w₂ ++ (v ++ (w₃ ++ 0x2c :: s)))))) ++ r =
          w ++ 0x22 :: (key ++ (w₁ ++ 0x3a :: (w₂ ++ (v ++ (w₃ ++ 0x2c :: (s ++ r)))))) := by simp
      rw [hshape, Shape.mode, skip, skipKey_complete hw hkey hw₁, Option.bind_some,
        skipSpaces_value hw₂ hv]
      simp only [Shape.mode] at hv' hs'
      rw [hv', Option.bind_some, commaOr_comma hw₃, hs']

end VrpcSidecar.JsonText
