import VrpcSidecar.JsonScanner
import VrpcSidecar.Texts

/-! # JSON strings and objects

A writer for strings and objects, in the compact form that leaves no space, and a reader.
Strings hold any bytes: the quote, the backslash and the control characters are escaped.
The reader undoes every escape of the grammar, finds the members of an object and leaves
the texts of their values as they are.

What is written is a text of the grammar (`json_writeObject`), and it is read back
(`readObject_writeObject`, `asString_writeString`), whatever the strings hold.
-/
namespace VrpcSidecar.JsonText

/-! ## Strings -/

/-- The byte after the backslash, for the bytes with an escape of two bytes. -/
def shortEscape (b : UInt8) : Option UInt8 :=
  if b = 0x22 ∨ b = 0x5c then some b
  else if b = 0x08 then some 0x62
  else if b = 0x0c then some 0x66
  else if b = 0x0a then some 0x6e
  else if b = 0x0d then some 0x72
  else if b = 0x09 then some 0x74
  else none

/-- A byte of a string, as it is written. -/
def escapeByte (b : UInt8) : Bytes :=
  match shortEscape b with
  | some e => [0x5c, e]
  | none =>
    if b < 0x20 then [0x5c, 0x75, 0x30, 0x30, hexDigit (b.toNat / 16), hexDigit (b.toNat % 16)]
    else [b]

/-- A string, as it is written. -/
def writeString (s : Bytes) : Bytes := 0x22 :: (s.flatMap escapeByte ++ [0x22])

/-- The byte a two-byte escape stands for. -/
def unescape (b : UInt8) : Option UInt8 :=
  if b = 0x22 ∨ b = 0x5c ∨ b = 0x2f then some b
  else if b = 0x62 then some 0x08
  else if b = 0x66 then some 0x0c
  else if b = 0x6e then some 0x0a
  else if b = 0x72 then some 0x0d
  else if b = 0x74 then some 0x09
  else none

/-- The code unit of four digits. -/
def codeUnit (x y z u : UInt8) : Option Nat := do
  let x ← hexValue x
  let y ← hexValue y
  let z ← hexValue z
  let u ← hexValue u
  return ((x * 16 + y) * 16 + z) * 16 + u

/-- The bytes of the character with this code point. -/
def codePoint (n : Nat) : Bytes := String.utf8EncodeChar (Char.ofNat n)

/-- Put bytes in front of a string that was read. -/
def prepend (bs : Bytes) (p : Bytes × Bytes) : Bytes × Bytes := (bs ++ p.1, p.2)

/-- Read the rest of a string after its opening quote: its bytes, and what follows it. -/
def readString : Bytes → Option (Bytes × Bytes)
  | [] => none
  | 0x22 :: rest => some ([], rest)
  | 0x5c :: 0x75 :: x :: y :: z :: u :: rest =>
    match codeUnit x y z u with
    | none => none
    | some n =>
      if n < 0xd800 ∨ 0xdfff < n then (readString rest).map (prepend (codePoint n))
      else if n < 0xdc00 then
        -- the second half of a pair of surrogates has to follow
        match rest with
        | 0x5c :: 0x75 :: x :: y :: z :: u :: rest =>
          match codeUnit x y z u with
          | none => none
          | some m =>
            if 0xdc00 ≤ m ∧ m ≤ 0xdfff then
              (readString rest).map
                (prepend (codePoint (0x10000 + (n - 0xd800) * 0x400 + (m - 0xdc00))))
            else none
        | _ => none
      else none
  | 0x5c :: e :: rest =>
    match unescape e with
    | none => none
    | some b => (readString rest).map (prepend [b])
  | b :: rest => if b < 0x20 then none else (readString rest).map (prepend [b])
termination_by s => s.length

theorem readString_plain {b : UInt8} (hq : b ≠ 0x22) (hb : b ≠ 0x5c) (hc : 0x20 ≤ b)
    (rest : Bytes) : readString (b :: rest) = (readString rest).map (prepend [b]) := by
  have hlt : ¬ b < 0x20 := by simpa using hc
  rw [readString.eq_def]
  split
  · rename_i heq
    cases heq
  · rename_i heq
    exact absurd (List.cons.inj heq).1 hq
  · rename_i heq
    exact absurd (List.cons.inj heq).1 hb
  · rename_i heq
    exact absurd (List.cons.inj heq).1 hb
  · rename_i heq
    cases heq
    rw [if_neg hlt]

theorem readString_escape {e b : UInt8} (he : e ≠ 0x75) (h : unescape e = some b) (rest : Bytes) :
    readString (0x5c :: e :: rest) = (readString rest).map (prepend [b]) := by
  rw [readString.eq_def]
  split
  · rename_i heq
    cases heq
  · rename_i heq
    cases heq
  · rename_i heq
    cases heq
    exact absurd rfl he
  · rename_i heq
    cases heq
    rw [h]
  · rename_i hnot heq
    cases heq
    exact absurd rfl (hnot _ _ rfl)

/-- A control character is written as four digits. -/
theorem readString_control {b : UInt8} (h : b < 0x20) (rest : Bytes) :
    readString ([0x5c, 0x75, 0x30, 0x30, hexDigit (b.toNat / 16), hexDigit (b.toNat % 16)] ++ rest) =
      (readString rest).map (prepend [b]) := by
  have hunit : codeUnit 0x30 0x30 (hexDigit (b.toNat / 16)) (hexDigit (b.toNat % 16)) =
      some b.toNat ∧ b.toNat < 0xd800 ∧ codePoint b.toNat = [b] := by
    revert b
    decide +kernel
  obtain ⟨hunit, hlow, hpoint⟩ := hunit
  simp only [List.cons_append, List.nil_append]
  rw [readString, hunit]
  dsimp only
  rw [if_pos (Or.inl hlow), hpoint]

/-- A short escape stands for its byte. -/
theorem unescape_shortEscape {b e : UInt8} (h : shortEscape b = some e) :
    unescape e = some b ∧ isEscape e = true := by
  have key : ∀ b, (shortEscape b).all (fun e => decide (unescape e = some b) && isEscape e) = true := by
    decide +kernel
  have hb := key b
  rw [h, Option.all_some, Bool.and_eq_true, decide_eq_true_eq] at hb
  exact hb

theorem ne_of_shortEscape {b : UInt8} (h : shortEscape b = none) : b ≠ 0x22 ∧ b ≠ 0x5c := by
  constructor
  · rintro rfl
    cases h
  · rintro rfl
    cases h

/-- **What a byte is written as is read as that byte.** -/
theorem readString_escapeByte (b : UInt8) (rest : Bytes) :
    readString (escapeByte b ++ rest) = (readString rest).map (prepend [b]) := by
  unfold escapeByte
  cases hshort : shortEscape b with
  | some e =>
    obtain ⟨hb, he⟩ := unescape_shortEscape hshort
    have hne : e ≠ 0x75 := by
      rintro rfl
      cases hb
    exact readString_escape hne hb rest
  | none =>
    obtain ⟨hq, hb⟩ := ne_of_shortEscape hshort
    dsimp only
    by_cases hlt : b < 0x20
    · rw [if_pos hlt]
      exact readString_control hlt rest
    · rw [if_neg hlt]
      exact readString_plain hq hb (by simpa using hlt) rest

/-- **Every string is read back.** -/
theorem readString_written (s rest : Bytes) :
    readString (s.flatMap escapeByte ++ 0x22 :: rest) = some (s, rest) := by
  induction s with
  | nil =>
    rw [List.flatMap_nil, List.nil_append, readString]
  | cons b s ih =>
    rw [List.flatMap_cons, List.append_assoc, readString_escapeByte, ih]
    rfl

/-- **What is written is a string of the grammar.** -/
theorem stringTail_written (s : Bytes) : StringTail (s.flatMap escapeByte ++ [0x22]) := by
  induction s with
  | nil => exact .close
  | cons b s ih =>
    rw [List.flatMap_cons, List.append_assoc, escapeByte]
    cases hshort : shortEscape b with
    | some e => exact .escape (unescape_shortEscape hshort).2 ih
    | none =>
      obtain ⟨hq, hb⟩ := ne_of_shortEscape hshort
      dsimp only
      by_cases hlt : b < 0x20
      · have hhex : ∀ n, n < 16 → isHex (hexDigit n) = true := by
          intro n hn
          rw [isHex, hexValue_hexDigit_of_lt hn]
          rfl
        have := b.toNat_lt
        rw [if_pos hlt]
        exact .unicode (by decide) (by decide) (hhex _ (by omega)) (hhex _ (by omega)) ih
      · rw [if_neg hlt]
        exact .plain hq hb (by simpa using hlt) ih

theorem json_writeString (s : Bytes) : Json .value (writeString s) := .string (stringTail_written s)

/-- The string that a value is. -/
def asString : Bytes → Option Bytes
  | 0x22 :: t =>
    match readString t with
    | some (s, []) => some s
    | _ => none
  | _ => none

theorem asString_writeString (s : Bytes) : asString (writeString s) = some s := by
  rw [writeString, asString, readString_written]

/-! ## Objects -/

/-- The members of an object up to its closing brace, each a name and the text of a
value. -/
def writeMembers : List (Bytes × Bytes) → Bytes
  | [] => [0x7d]
  | [(name, v)] => writeString name ++ 0x3a :: (v ++ [0x7d])
  | (name, v) :: m :: ms => writeString name ++ 0x3a :: (v ++ 0x2c :: writeMembers (m :: ms))

/-- An object, as it is written. -/
def writeObject (ms : List (Bytes × Bytes)) : Bytes := 0x7b :: writeMembers ms

/-- Read a member: its name, the text of its value, and what follows it. -/
def readMember (s : Bytes) : Option ((Bytes × Bytes) × Bytes) := do
  let (name, s) ← match skipSpaces s with
    | 0x22 :: t => readString t
    | _ => none
  let s ← match skipSpaces s with
    | 0x3a :: t => some (skipSpaces t)
    | _ => none
  let rest ← skip s.length .value s
  return ((name, s.take (s.length - rest.length)), rest)

/-- Read the members of an object up to its closing brace. -/
def readMembers : Nat → Bytes → Option (List (Bytes × Bytes) × Bytes)
  | 0, _ => none
  | fuel + 1, s => do
    let (m, s) ← readMember s
    match skipSpaces s with
    | 0x2c :: s => (readMembers fuel s).map (fun p => (m :: p.1, p.2))
    | 0x7d :: s => some ([m], s)
    | _ => none

/-- The members of the object that a text is. -/
def readObject (s : Bytes) : Option (List (Bytes × Bytes)) :=
  match skipSpaces s with
  | 0x7b :: t =>
    let read := match skipSpaces t with
      | 0x7d :: r => some ([], r)
      | _ => readMembers t.length t
    read.bind (fun p => if skipSpaces p.2 = [] then some p.1 else none)
  | _ => none

/-- The value of a member; of several with one name, the last one's. -/
def member (name : Bytes) (ms : List (Bytes × Bytes)) : Option Bytes :=
  ((ms.filter (fun m => m.1 = name)).getLast?).map Prod.snd

/-- When no name comes twice, it is the value of the one with this name. -/
theorem member_of_nodup {ms : List (Bytes × Bytes)} {name v : Bytes}
    (hnodup : (ms.map Prod.fst).Nodup) (h : (name, v) ∈ ms) : member name ms = some v := by
  have honly : ms.filter (fun m => m.1 = name) = [(name, v)] := by
    induction ms with
    | nil => cases h
    | cons m ms ih =>
      rw [List.map_cons, List.nodup_cons] at hnodup
      rcases List.mem_cons.mp h with rfl | h
      · rw [List.filter_cons_of_pos (by simp), List.filter_eq_nil_iff.mpr]
        intro m' hm' heq
        exact hnodup.1 (List.mem_map.mpr ⟨m', hm', of_decide_eq_true heq⟩)
      · have hne : m.1 ≠ name := by
          rintro rfl
          exact hnodup.1 (List.mem_map.mpr ⟨_, h, rfl⟩)
        rw [List.filter_cons_of_neg (by simpa using hne)]
        exact ih hnodup.2 h
  rw [member, honly]
  rfl

theorem skipSpaces_of_head {b : UInt8} (h : isSpace b = false) (t : Bytes) :
    skipSpaces (b :: t) = b :: t := by
  have hnone : Spaces [] := fun b hb => absurd hb List.not_mem_nil
  exact skipSpaces_append hnone h t

/-- **A written member is read back**, when something that can follow a value follows. -/
theorem readMember_written {name v r : Bytes} (hv : Json .value v) (hr : Delimited r) :
    readMember (writeString name ++ 0x3a :: (v ++ r)) = some ((name, v), r) := by
  obtain ⟨b, t, hbt, hb, -⟩ := value_head hv
  have hspaces : skipSpaces (v ++ r) = v ++ r := by
    rw [hbt, List.cons_append]
    exact skipSpaces_of_head hb _
  have hskip : skip (v ++ r).length .value (v ++ r) = some r := by
    apply skip_complete hv
    · rw [List.length_append]
      exact Nat.le_add_right _ _
    · exact fun _ => hr
  have htake : (v ++ r).take ((v ++ r).length - r.length) = v := by
    rw [List.length_append, Nat.add_sub_cancel]
    exact List.take_left
  have hquote : isSpace 0x22 = false := by decide
  have hcolon : isSpace 0x3a = false := by decide
  have hname : readString (name.flatMap escapeByte ++ 0x22 :: 0x3a :: (v ++ r)) =
      some (name, 0x3a :: (v ++ r)) := readString_written _ _
  have hshape : writeString name ++ 0x3a :: (v ++ r) =
      0x22 :: (name.flatMap escapeByte ++ 0x22 :: 0x3a :: (v ++ r)) := by simp [writeString]
  rw [readMember, hshape, skipSpaces_of_head hquote]
  simp only [hname, Option.bind_eq_bind, Option.bind_some, skipSpaces_of_head hcolon, hspaces,
    hskip, htake, Option.pure_def]

theorem delimited_head {c : UInt8} (h : c = 0x2c ∨ c = 0x5d ∨ c = 0x7d) (r : Bytes) :
    Delimited (c :: r) := by
  intro b t hbt
  cases hbt
  exact .inr h

/-- The members of an object are read back. -/
theorem readMembers_written {m : Bytes × Bytes} {ms : List (Bytes × Bytes)}
    (h : ∀ p ∈ m :: ms, Json .value p.2) (r : Bytes) {fuel : Nat} (hfuel : ms.length < fuel) :
    readMembers fuel (writeMembers (m :: ms) ++ r) = some (m :: ms, r) := by
  have hcomma : isSpace 0x2c = false := by decide
  have hbrace : isSpace 0x7d = false := by decide
  induction ms generalizing m fuel with
  | nil =>
    obtain ⟨name, v⟩ := m
    obtain ⟨fuel, rfl⟩ : ∃ n, fuel = n + 1 := Nat.exists_eq_add_one.mpr hfuel
    have hshape : writeMembers [(name, v)] ++ r = writeString name ++ 0x3a :: (v ++ 0x7d :: r) := by
      simp [writeMembers]
    rw [readMembers, hshape,
      readMember_written (h _ List.mem_cons_self) (delimited_head (.inr (.inr rfl)) r)]
    simp only [Option.bind_eq_bind, Option.bind_some, skipSpaces_of_head hbrace]
  | cons m' ms ih =>
    obtain ⟨name, v⟩ := m
    rw [List.length_cons] at hfuel
    obtain ⟨fuel, rfl⟩ : ∃ n, fuel = n + 1 := Nat.exists_eq_add_one.mpr (by omega)
    have hshape : writeMembers ((name, v) :: m' :: ms) ++ r =
        writeString name ++ 0x3a :: (v ++ 0x2c :: (writeMembers (m' :: ms) ++ r)) := by
      simp [writeMembers]
    rw [readMembers, hshape,
      readMember_written (h _ List.mem_cons_self) (delimited_head (.inl rfl) _)]
    simp only [Option.bind_eq_bind, Option.bind_some, skipSpaces_of_head hcomma,
      ih (fun p hp => h p (List.mem_cons_of_mem _ hp)) (Nat.lt_of_succ_lt_succ hfuel),
      Option.map_some]

theorem writeMembers_head (m : Bytes × Bytes) (ms : List (Bytes × Bytes)) :
    ∃ t, writeMembers (m :: ms) = 0x22 :: t := by
  obtain ⟨name, v⟩ := m
  cases ms with
  | nil => exact ⟨_, rfl⟩
  | cons m' ms => exact ⟨_, rfl⟩

/-- A member takes more than one byte. -/
theorem length_le_writeMembers (ms : List (Bytes × Bytes)) :
    ms.length < (writeMembers ms).length := by
  induction ms with
  | nil => exact Nat.zero_lt_one
  | cons m ms ih =>
    obtain ⟨name, v⟩ := m
    cases ms with
    | nil =>
      simp only [writeMembers, List.length_append, List.length_cons, List.length_nil]
      omega
    | cons m' ms =>
      simp only [writeMembers, List.length_append, List.length_cons] at ih ⊢
      omega

/-- **Every object is read back**, whatever its names and whatever the texts of its values. -/
theorem readObject_writeObject {ms : List (Bytes × Bytes)} (h : ∀ p ∈ ms, Json .value p.2) :
    readObject (writeObject ms) = some ms := by
  have hopen : isSpace 0x7b = false := by decide
  have hquote : isSpace 0x22 = false := by decide
  rw [readObject, writeObject, skipSpaces_of_head hopen]
  cases ms with
  | nil => rfl
  | cons m ms =>
    obtain ⟨t, ht⟩ := writeMembers_head m ms
    have hread := readMembers_written h [] (Nat.lt_of_succ_lt (length_le_writeMembers (m :: ms)))
    rw [List.append_nil, ht] at hread
    simp only [ht, skipSpaces_of_head hquote, hread]
    rfl

/-- **What is written is a value of the grammar.** -/
theorem json_writeObject {ms : List (Bytes × Bytes)} (h : ∀ p ∈ ms, Json .value p.2) :
    Json .value (writeObject ms) := by
  have hnone : Spaces [] := fun b hb => absurd hb List.not_mem_nil
  cases ms with
  | nil => exact .emptyObject hnone
  | cons m ms =>
    refine .object ?_
    induction ms generalizing m with
    | nil =>
      obtain ⟨name, v⟩ := m
      have hmember := Json.lastMember hnone (stringTail_written name) hnone hnone
        (h _ List.mem_cons_self) hnone
      simpa [writeMembers, writeString] using hmember
    | cons m' ms ih =>
      obtain ⟨name, v⟩ := m
      have hrest := ih m' (fun p hp => h p (List.mem_cons_of_mem _ hp))
      have hmember := Json.member hnone (stringTail_written name) hnone hnone
        (h _ List.mem_cons_self) hnone hrest
      simpa [writeMembers, writeString] using hmember

end VrpcSidecar.JsonText
