import VrpcSidecar.ByteStrings

/-! # Texts

A `&str` as the list of its characters: the white space of Unicode, trimming, the
bytes of a text in UTF-8, which determine it, and the texts that are hexadecimal.
-/
namespace VrpcSidecar

/-- A text, as its characters. -/
abbrev Text := List Char

/-- `char::is_whitespace`: the characters with the property `White_Space`. -/
def isWhitespace (c : Char) : Bool :=
  let n := c.toNat
  (0x09 ≤ n && n ≤ 0x0d) || n = 0x20 || n = 0x85 || n = 0xa0 || n = 0x1680 ||
    (0x2000 ≤ n && n ≤ 0x200a) || n = 0x2028 || n = 0x2029 || n = 0x202f || n = 0x205f ||
    n = 0x3000

/-- `char::is_ascii_graphic`: the printable characters of ASCII but the space. -/
def isAsciiGraphic (c : Char) : Bool := 0x21 ≤ c.toNat && c.toNat ≤ 0x7e

/-- `str::trim`. -/
def trim (s : Text) : Text := (s.dropWhile isWhitespace).rdropWhile isWhitespace

/-- `str::trim_start_matches` for a pattern of two characters: it is removed as often as
the text starts with it. -/
def trimStartMatches (a b : Char) : Text → Text
  | x :: y :: rest => if x = a ∧ y = b then trimStartMatches a b rest else x :: y :: rest
  | s => s

/-- `str::as_bytes`. -/
def utf8 (s : Text) : Bytes := s.flatMap String.utf8EncodeChar

theorem isWhitespace_of_graphic {c : Char} (h : isAsciiGraphic c = true) :
    isWhitespace c = false := by
  simp only [isAsciiGraphic, Bool.and_eq_true, decide_eq_true_eq] at h
  simp only [isWhitespace, Bool.or_eq_false_iff, Bool.and_eq_false_iff, decide_eq_false_iff_not]
  omega

/-- A text without white space is trimmed. -/
theorem trim_eq_self {s : Text} (h : ∀ c ∈ s, isWhitespace c = false) : trim s = s := by
  have hdrop : s.dropWhile isWhitespace = s := by
    rw [List.dropWhile_eq_self_iff]
    intro hpos hc
    rw [h _ (List.getElem_mem hpos)] at hc
    cases hc
  rw [trim, hdrop, List.rdropWhile_eq_self_iff]
  intro hne hc
  rw [h _ (List.getLast_mem hne)] at hc
  cases hc

/-- Trimming keeps what is not white space. -/
theorem mem_trim {s : Text} {c : Char} (h : c ∈ s) (hc : isWhitespace c = false) : c ∈ trim s := by
  have hdropped : c ∈ s.dropWhile isWhitespace := by
    rw [← List.takeWhile_append_dropWhile (p := isWhitespace) (l := s)] at h
    refine (List.mem_append.mp h).resolve_left (fun hfront => ?_)
    rw [List.mem_takeWhile_imp hfront] at hc
    cases hc
  unfold trim
  generalize s.dropWhile isWhitespace = t at hdropped
  rw [← @List.rdropWhile_append_rtakeWhile _ isWhitespace t] at hdropped
  refine (List.mem_append.mp hdropped).resolve_right (fun hback => ?_)
  rw [List.mem_rtakeWhile_imp hback] at hc
  cases hc

/-- The text of a string of ASCII. -/
def asciiText (bs : Bytes) : Text := bs.map (fun b => Char.ofNat b.toNat)

theorem utf8_asciiText {bs : Bytes} (h : Visible bs) : utf8 (asciiText bs) = bs := by
  have hbyte : ∀ b : UInt8, b ≤ 0x7e → String.utf8EncodeChar (Char.ofNat b.toNat) = [b] := by
    decide +kernel
  induction bs with
  | nil => rfl
  | cons b bs ih =>
    rw [Visible, List.forall_mem_cons] at h
    rw [asciiText, List.map_cons, utf8, List.flatMap_cons, hbyte b h.1.2]
    exact congrArg _ (ih h.2)

/-- **The bytes of a text determine it.** -/
theorem utf8_injective {s t : Text} (h : utf8 s = utf8 t) : s = t := by
  have hbytes : s.utf8Encode = t.utf8Encode := congrArg List.toByteArray h
  rw [← String.toByteArray_ofList, ← String.toByteArray_ofList, String.toByteArray_inj] at hbytes
  exact String.ofList_injective hbytes

theorem utf8_of_utf8Encode {s : Text} {bs : Bytes} (h : s.utf8Encode = bs.toByteArray) :
    utf8 s = bs := by
  have hdata : (utf8 s).toByteArray.data.toList = bs.toByteArray.data.toList :=
    congrArg (fun b => b.data.toList) h
  simpa using hdata

/-! ## Repeated patterns -/

/-- A pattern of two characters, `k` times over. -/
def repeated (k : Nat) (a b : Char) : Text := (List.replicate k [a, b]).flatten

theorem repeated_succ (k : Nat) (a b : Char) : repeated (k + 1) a b = a :: b :: repeated k a b := by
  simp [repeated, List.replicate_succ]

@[simp] theorem length_repeated (k : Nat) (a b : Char) : (repeated k a b).length = 2 * k := by
  simp [repeated, Nat.mul_comm]

theorem eq_or_eq_of_mem_repeated {k : Nat} {a b c : Char} (h : c ∈ repeated k a b) :
    c = a ∨ c = b := by
  simp only [repeated, List.mem_flatten, List.mem_replicate] at h
  obtain ⟨pair, ⟨-, rfl⟩, hc⟩ := h
  simpa using hc

/-- What trimming removes is the pattern, some number of times. -/
theorem exists_repeated_append (a b : Char) (s : Text) :
    ∃ k, s = repeated k a b ++ trimStartMatches a b s := by
  induction s using trimStartMatches.induct a b with
  | case1 x y rest hxy ih =>
    obtain ⟨k, hk⟩ := ih
    obtain ⟨rfl, rfl⟩ := hxy
    refine ⟨k + 1, ?_⟩
    rw [trimStartMatches, if_pos ⟨rfl, rfl⟩, repeated_succ, List.cons_append, List.cons_append, ← hk]
  | case2 x y rest hxy =>
    refine ⟨0, ?_⟩
    rw [trimStartMatches, if_neg hxy]
    rfl
  | case3 s hs =>
    refine ⟨0, ?_⟩
    rw [trimStartMatches]
    · rfl
    · exact hs

/-- Trimming removes the pattern as often as it is there. -/
theorem trimStartMatches_repeated_append (a b : Char) (k : Nat) (s : Text) :
    trimStartMatches a b (repeated k a b ++ s) = trimStartMatches a b s := by
  induction k with
  | zero => rfl
  | succ k ih =>
    rw [repeated_succ, List.cons_append, List.cons_append, trimStartMatches, if_pos ⟨rfl, rfl⟩, ih]

/-- Trimming leaves alone what the pattern's second character is not in. -/
theorem trimStartMatches_eq_self {a b : Char} {s : Text} (h : b ∉ s) :
    trimStartMatches a b s = s := by
  unfold trimStartMatches
  split
  · rename_i x y rest
    rw [if_neg]
    rintro ⟨-, rfl⟩
    exact h (by simp)
  · rfl

/-! ## Hexadecimal text -/

/-- The character is the digit of value `v`, of either case. -/
def HexDigit (c : Char) (v : Nat) : Prop :=
  (v < 10 ∧ c.toNat = '0'.toNat + v) ∨
    (10 ≤ v ∧ v < 16 ∧ (c.toNat = 'a'.toNat + (v - 10) ∨ c.toNat = 'A'.toNat + (v - 10)))

/-- The text is the bytes, written with two digits each, the upper one first. -/
inductive HexText : Text → Bytes → Prop
  | nil : HexText [] []
  | byte {hi lo : Char} {h l : Nat} {b : UInt8} {text : Text} {bytes : Bytes}
      (upper : HexDigit hi h) (lower : HexDigit lo l) (value : b.toNat = 16 * h + l)
      (rest : HexText text bytes) : HexText (hi :: lo :: text) (b :: bytes)

/-- The same in numbers. -/
theorem hexDigit_codes {c : Char} {v : Nat} :
    HexDigit c v ↔ (v < 10 ∧ c.toNat = 48 + v) ∨
      (10 ≤ v ∧ v < 16 ∧ (c.toNat = 97 + (v - 10) ∨ c.toNat = 65 + (v - 10))) := Iff.rfl

theorem HexDigit.lt {c : Char} {v : Nat} (h : HexDigit c v) : v < 16 := by
  obtain ⟨hlt, -⟩ | ⟨-, hlt, -⟩ := h <;> omega

theorem HexDigit.graphic {c : Char} {v : Nat} (h : HexDigit c v) : isAsciiGraphic c = true := by
  rw [hexDigit_codes] at h
  simp only [isAsciiGraphic, Bool.and_eq_true, decide_eq_true_eq]
  omega

/-- A digit is a character of ASCII, and its byte is read as its value. -/
theorem hexDigit_iff {c : Char} {v : Nat} :
    HexDigit c v ↔ c.toNat < 0x80 ∧ hexValue (UInt8.ofNat c.toNat) = some v := by
  rw [hexDigit_codes]
  by_cases hc : c.toNat < 0x80
  · have hbyte : (UInt8.ofNat c.toNat).toNat = c.toNat := by
      rw [UInt8.toNat_ofNat']
      omega
    simp only [hexValue, UInt8.le_iff_toNat_le, hbyte, UInt8.reduceToNat]
    split
    · simp only [Option.some.injEq]
      omega
    · split
      · simp only [Option.some.injEq]
        omega
      · split
        · simp only [Option.some.injEq]
          omega
        · simp only [reduceCtorEq, and_false, iff_false]
          omega
  · omega

theorem utf8EncodeChar_of_ascii {c : Char} (hc : c.toNat < 0x80) :
    String.utf8EncodeChar c = [UInt8.ofNat c.toNat] := by
  rw [String.utf8EncodeChar]
  exact if_pos (Nat.le_of_lt_succ hc)

/-- The bytes of a character outside ASCII have their upper bit set. -/
theorem le_of_mem_utf8EncodeChar {c : Char} (hc : ¬ c.toNat < 0x80) {b : UInt8}
    (hb : b ∈ String.utf8EncodeChar c) : 0x80 ≤ b.toNat := by
  have hbyte : ∀ n, n < 256 → 0x80 ≤ n → 0x80 ≤ (UInt8.ofNat n).toNat := by
    intro n hlt hle
    rwa [UInt8.toNat_ofNat', Nat.mod_eq_of_lt hlt]
  have hascii : ¬ c.val.toNat ≤ 0x7f := by
    intro h
    exact hc (Nat.lt_succ_of_le h)
  rw [String.utf8EncodeChar, if_neg hascii] at hb
  split at hb
  · simp only [List.mem_cons, List.not_mem_nil, or_false] at hb
    rcases hb with rfl | rfl <;> apply hbyte <;> omega
  · split at hb
    · simp only [List.mem_cons, List.not_mem_nil, or_false] at hb
      rcases hb with rfl | rfl | rfl <;> apply hbyte <;> omega
    · simp only [List.mem_cons, List.not_mem_nil, or_false] at hb
      rcases hb with rfl | rfl | rfl | rfl <;> apply hbyte <;> omega

/-- A text of ASCII is one byte a character. -/
theorem utf8_of_ascii {s : Text} (h : ∀ c ∈ s, c.toNat < 0x80) :
    utf8 s = s.map fun c => UInt8.ofNat c.toNat := by
  induction s with
  | nil => rfl
  | cons c s ih =>
    rw [List.forall_mem_cons] at h
    obtain ⟨hc, hs⟩ := h
    rw [utf8, List.flatMap_cons, utf8EncodeChar_of_ascii hc]
    exact congrArg _ (ih hs)

/-- What stands before a byte of ASCII is a text of its own. -/
theorem exists_utf8_of_append {t : Text} {xs ys : Bytes} (h : utf8 t = xs ++ ys)
    (hys : ∀ b, ys.head? = some b → b.toNat < 0x80) : ∃ s, utf8 s = xs := by
  induction t generalizing xs with
  | nil =>
    obtain ⟨rfl, -⟩ := List.append_eq_nil_iff.mp h.symm
    exact ⟨[], rfl⟩
  | cons c t ih =>
    have hcons : String.utf8EncodeChar c ++ utf8 t = xs ++ ys := h
    rcases List.append_eq_append_iff.mp hcons with ⟨mid, rfl, hmid⟩ | ⟨mid, hc, hmid⟩
    · obtain ⟨s, rfl⟩ := ih hmid
      exact ⟨c :: s, rfl⟩
    · -- the text before the cut ends within the bytes of `c`
      cases xs with
      | nil => exact ⟨[], rfl⟩
      | cons x xs =>
        cases mid with
        | nil => exact ⟨[c], (List.append_nil _).trans (hc.trans (List.append_nil _))⟩
        | cons b mid =>
          have hlt : b.toNat < 0x80 := hys b (by rw [hmid]; rfl)
          by_cases hascii : c.toNat < 0x80
          · rw [utf8EncodeChar_of_ascii hascii] at hc
            have hlen := congrArg List.length hc
            simp at hlen
          · have hge := le_of_mem_utf8EncodeChar hascii (b := b) (by rw [hc]; simp)
            omega

theorem isValidUTF8_of_append {xs ys : Bytes} (h : (xs ++ ys).toByteArray.IsValidUTF8)
    (hys : ∀ b, ys.head? = some b → b.toNat < 0x80) : xs.toByteArray.IsValidUTF8 := by
  obtain ⟨t, ht⟩ := h
  obtain ⟨s, rfl⟩ := exists_utf8_of_append (utf8_of_utf8Encode ht.symm) hys
  exact ⟨s, rfl⟩

/-- A hexadecimal digit is of ASCII. -/
theorem hexValue_of_le {b : UInt8} (h : 0x80 ≤ b.toNat) : hexValue b = none := by
  simp only [hexValue, UInt8.le_iff_toNat_le, UInt8.reduceToNat]
  rw [if_neg (by omega), if_neg (by omega), if_neg (by omega)]

/-- Every byte that is decoded is a digit. -/
theorem hexValue_of_hexDecode {data bytes : Bytes} (h : hexDecode data = some bytes) :
    ∀ b ∈ data, ∃ v, hexValue b = some v := by
  induction data using hexDecode.induct generalizing bytes with
  | case1 => simp
  | case2 b => cases h
  | case3 hi lo rest ih =>
    simp only [hexDecode, Option.bind_eq_bind, Option.bind_eq_some_iff, Option.pure_def,
      Option.some.injEq] at h
    obtain ⟨u, hu, l, hl, tail, htail, -⟩ := h
    rw [List.forall_mem_cons, List.forall_mem_cons]
    exact ⟨⟨u, hu⟩, ⟨l, hl⟩, ih htail⟩

/-- A text that decodes is of ASCII. -/
theorem ascii_of_hexDecode_utf8 {s : Text} {bytes : Bytes} (h : hexDecode (utf8 s) = some bytes) :
    ∀ c ∈ s, c.toNat < 0x80 := by
  intro c hc
  by_contra hlt
  obtain ⟨b, hb⟩ := List.exists_mem_of_ne_nil _ (String.utf8EncodeChar_ne_nil (c := c))
  obtain ⟨v, hv⟩ := hexValue_of_hexDecode h b (List.mem_flatMap_of_mem hc hb)
  rw [hexValue_of_le (le_of_mem_utf8EncodeChar hlt hb)] at hv
  cases hv

theorem HexText.hexDecode_utf8 {s : Text} {bytes : Bytes} (h : HexText s bytes) :
    hexDecode (utf8 s) = some bytes := by
  induction h with
  | nil => rfl
  | @byte hi lo u l b text bytes upper lower value rest ih =>
    obtain ⟨hhi, hu⟩ := hexDigit_iff.mp upper
    obtain ⟨hlo, hl⟩ := hexDigit_iff.mp lower
    have hb : UInt8.ofNat (16 * u + l) = b := by
      rw [← value, UInt8.ofNat_toNat]
    rw [utf8, List.flatMap_cons, List.flatMap_cons, utf8EncodeChar_of_ascii hhi,
      utf8EncodeChar_of_ascii hlo, List.singleton_append, List.singleton_append, hexDecode, hu, hl]
    change (hexDecode (utf8 text)).bind _ = _
    rw [ih, ← hb]
    rfl

/-- **Exactly the hexadecimal texts decode**, each to the bytes it is written for. -/
theorem hexDecode_utf8_iff {s : Text} {bytes : Bytes} :
    hexDecode (utf8 s) = some bytes ↔ HexText s bytes := by
  refine ⟨?_, HexText.hexDecode_utf8⟩
  intro h
  have hascii := ascii_of_hexDecode_utf8 h
  rw [utf8_of_ascii hascii] at h
  -- The recursion of the decoder takes two characters at a time.
  induction s using List.twoStepInduction generalizing bytes with
  | nil =>
    cases h
    exact .nil
  | singleton c => cases h
  | cons_cons hi lo text ih _ =>
    rw [List.forall_mem_cons, List.forall_mem_cons] at hascii
    obtain ⟨hhi, hlo, htext⟩ := hascii
    simp only [List.map_cons, hexDecode, Option.bind_eq_bind, Option.bind_eq_some_iff,
      Option.pure_def, Option.some.injEq] at h
    obtain ⟨u, hu, l, hl, tail, htail, rfl⟩ := h
    have hupper := hexDigit_iff.mpr ⟨hhi, hu⟩
    have hlower := hexDigit_iff.mpr ⟨hlo, hl⟩
    refine .byte hupper hlower ?_ (ih htail htext)
    rw [UInt8.toNat_ofNat', Nat.mod_eq_of_lt]
    have := hupper.lt
    have := hlower.lt
    omega

/-- A hexadecimal text has two digits a byte. -/
theorem HexText.length_eq {s : Text} {bytes : Bytes} (h : HexText s bytes) :
    s.length = 2 * bytes.length := by
  induction h with
  | nil => rfl
  | byte upper lower value rest ih =>
    simp only [List.length_cons]
    omega

theorem HexText.hexDigit_of_mem {s : Text} {bytes : Bytes} (h : HexText s bytes) {c : Char}
    (hc : c ∈ s) : ∃ v, HexDigit c v := by
  induction h with
  | nil => simp at hc
  | byte upper lower value rest ih =>
    rcases List.mem_cons.mp hc with rfl | hc
    · exact ⟨_, upper⟩
    · rcases List.mem_cons.mp hc with rfl | hc
      · exact ⟨_, lower⟩
      · exact ih hc

/-- An even number of digits is the text of some bytes. -/
theorem exists_hexText {s : Text} (hdigits : ∀ c ∈ s, ∃ v, HexDigit c v)
    (heven : s.length % 2 = 0) : ∃ bytes, HexText s bytes := by
  induction s using List.twoStepInduction with
  | nil => exact ⟨[], .nil⟩
  | singleton c => simp at heven
  | cons_cons hi lo text ih _ =>
    rw [List.forall_mem_cons, List.forall_mem_cons] at hdigits
    obtain ⟨⟨h, hhi⟩, ⟨l, hlo⟩, htext⟩ := hdigits
    simp only [List.length_cons] at heven
    obtain ⟨bytes, hbytes⟩ := ih htext (by omega)
    have hvalue : (UInt8.ofNat (16 * h + l)).toNat = 16 * h + l := by
      have := hhi.lt
      have := hlo.lt
      rw [UInt8.toNat_ofNat']
      omega
    exact ⟨_, .byte hhi hlo hvalue hbytes⟩

end VrpcSidecar
