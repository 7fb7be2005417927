import VrpcSidecar.InnerLanguage
import VrpcSidecar.Relay

/-! # The messages of the clients

Two programs outside the sidecar write Binary HTTP: the client of the integration tests,
`bhttp_request`, and the generator of the known-answer vectors, `encodeRequest` and
`encodeResponse`.  Both build their messages with their own variable-length integers, and
both panic on what these cannot hold: the client from 2^30 on, the generator already from
2^14 on.

`bhttpRequest_decodes` says what the sidecar makes of every request a client can write, and
`generator_agrees` that the generator writes the same bytes wherever it writes any.
-/
namespace VrpcSidecar
open BinaryHttp

/-- `opt.expect(..)`, and a call that panics where it fails. -/
def orPanicked {α : Type} : Option α → Fallible α
  | some a => .ok a
  | none => .error .panicked

theorem orPanicked_eq_ok {α : Type} {o : Option α} {a : α} : orPanicked o = .ok a ↔ o = some a := by
  cases o with
  | none => simp [orPanicked]
  | some b => simp [orPanicked]

/-- The loop over the fields of a section, which both writers have. -/
def fieldsLoop (vec : Bytes → Bytes → Fallible Bytes) : List Field → Bytes → Fallible Bytes
  | [], sec => .ok sec
  | f :: rest, sec => do
    let sec ← vec f.name sec
    let sec ← vec f.value sec
    fieldsLoop vec rest sec

/-! ## The client of the tests -/

namespace Client

/-- `varint`. -/
def varint (v : Nat) (out : Bytes) : Fallible Bytes :=
  if v < 2 ^ 6 then .ok (out ++ [UInt8.ofNat v])
  else if v < 2 ^ 14 then .ok (out ++ toBE 2 (UInt16.ofNat v ||| 0x4000).toNat)
  -- the assertion
  else if v < 2 ^ 30 then .ok (out ++ toBE 4 (UInt32.ofNat v ||| 0x80000000).toNat)
  else .error .panicked

/-- `vec_`. -/
def vec (bytes out : Bytes) : Fallible Bytes := do
  let out ← varint bytes.length out
  return out ++ bytes

/-- The loop over the strings of control data. -/
def controls : List Bytes → Bytes → Fallible Bytes
  | [], out => .ok out
  | control :: rest, out => do
    let out ← vec control out
    controls rest out

/-- `bhttp_request`. -/
def bhttpRequest (method path : Bytes) (fields : List Field) (body : Bytes) : Fallible Bytes := do
  let out ← controls [method, ascii "https", ascii "localhost", path] [0x00]
  let sec ← fieldsLoop vec fields []
  let out ← vec sec out
  let out ← vec body out
  vec [] out

end Client

/-! ## The generator of the vectors -/

namespace Generator

/-- `innerRequest` of the generator. -/
structure InnerRequest where
  method : Bytes
  scheme : Bytes
  authority : Bytes
  path : Bytes
  fields : List Field
  body : Bytes

/-- `innerResponse` of the generator. -/
structure InnerResponse where
  status : Int
  fields : List Field
  body : Bytes

/-- `appendVarint`. -/
def appendVarint (b : Bytes) (v : Int) : Fallible Bytes :=
  if v < 2 ^ 6 then .ok (b ++ [UInt8.ofInt v])
  else if v < 2 ^ 14 then .ok (b ++ [UInt8.ofNat (0x40 ||| v.toNat >>> 8), UInt8.ofInt v])
  else .error .panicked

/-- `appendVec`. -/
def appendVec (b v : Bytes) : Fallible Bytes := do
  let b ← appendVarint b v.length
  return b ++ v

/-- `appendFields`. -/
def appendFields (b : Bytes) (fields : List Field) : Fallible Bytes := do
  let sec ← fieldsLoop (fun v b => appendVec b v) fields []
  appendVec b sec

/-- `encodeRequest`. -/
def encodeRequest (r : InnerRequest) : Fallible Bytes := do
  let b ← appendVarint [] 0
  let b ← appendVec b r.method
  let b ← appendVec b r.scheme
  let b ← appendVec b r.authority
  let b ← appendVec b r.path
  let b ← appendFields b r.fields
  let b ← appendVec b r.body
  appendFields b []

/-- `encodeResponse`. -/
def encodeResponse (r : InnerResponse) : Fallible Bytes := do
  let b ← appendVarint [] 1
  let b ← appendVarint b r.status
  let b ← appendFields b r.fields
  let b ← appendVec b r.body
  appendFields b []

end Generator

/-! ## What the writers write -/

/-- The bytes, or a panic when a length reaches the bound. -/
def below (bound n : Nat) (bytes : Bytes) : Fallible Bytes :=
  if n < bound then .ok bytes else .error .panicked

theorem below_bind {bound n : Nat} {bytes : Bytes} (k : Bytes → Fallible Bytes) :
    (below bound n bytes >>= k) = if n < bound then k bytes else .error .panicked := by
  unfold below
  split
  · rfl
  · rfl

/-- The lengths a writer meets in a request are below its bound. -/
structure Encodable (bound : Nat) (method scheme authority path : Bytes) (fields : List Field)
    (body : Bytes) : Prop where
  method : method.length < bound
  scheme : scheme.length < bound
  authority : authority.length < bound
  path : path.length < bound
  section_lt : (writeFields fields).length < bound
  body : body.length < bound

theorem encodable_iff (bound : Nat) (method scheme authority path : Bytes) (fields : List Field)
    (body : Bytes) :
    Encodable bound method scheme authority path fields body ↔
      method.length < bound ∧ scheme.length < bound ∧ authority.length < bound ∧
        path.length < bound ∧ (writeFields fields).length < bound ∧ body.length < bound :=
  ⟨fun h => ⟨h.method, h.scheme, h.authority, h.path, h.section_lt, h.body⟩,
    fun ⟨h₁, h₂, h₃, h₄, h₅, h₆⟩ => ⟨h₁, h₂, h₃, h₄, h₅, h₆⟩⟩

instance (bound : Nat) (method scheme authority path : Bytes) (fields : List Field)
    (body : Bytes) : Decidable (Encodable bound method scheme authority path fields body) :=
  decidable_of_iff _ (encodable_iff bound method scheme authority path fields body).symm

theorem writeFields_cons (f : Field) (fs : List Field) :
    writeFields (f :: fs) = writePrefixed f.name ++ (writePrefixed f.value ++ writeFields fs) := by
  simp [writeFields]

section Varints

theorem shortest_one {v : Nat} (h : v < 2 ^ 6) : VarintWidth.shortest v = .one := if_pos h

theorem shortest_two {v : Nat} (h : ¬ v < 2 ^ 6) (h' : v < 2 ^ 14) :
    VarintWidth.shortest v = .two := by
  rw [VarintWidth.shortest, if_neg h, if_pos h']

theorem shortest_four {v : Nat} (h : ¬ v < 2 ^ 6) (h' : ¬ v < 2 ^ 14) (h'' : v < 2 ^ 30) :
    VarintWidth.shortest v = .four := by
  rw [VarintWidth.shortest, if_neg h, if_neg h', if_pos h'']

/-- A tag above the bits of a number is added to it. -/
theorem or_tag {v i : Nat} (tag : Nat) (h : v < 2 ^ i) : v ||| 2 ^ i * tag = tag * 2 ^ i + v := by
  rw [Nat.or_comm, ← Nat.two_pow_add_eq_or_of_lt h, Nat.mul_comm]

theorem encodeVarint_one (v : Nat) : encodeVarint .one v = [UInt8.ofNat v] := by
  show toBE 1 (0 * 2 ^ 6 + v) = _
  simp [toBE]

/-- **The integers of the client** are the shortest ones. -/
theorem Client.varint_eq (v : Nat) (out : Bytes) :
    Client.varint v out = below (2 ^ 30) v (out ++ encodeVarint (VarintWidth.shortest v) v) := by
  unfold Client.varint
  by_cases h₆ : v < 2 ^ 6
  · rw [if_pos h₆, below, if_pos (by omega), shortest_one h₆, encodeVarint_one]
  · rw [if_neg h₆]
    by_cases h₁₄ : v < 2 ^ 14
    · have hor : (UInt16.ofNat v ||| 0x4000).toNat = 1 * 2 ^ 14 + v := by
        rw [UInt16.toNat_or, UInt16.toNat_ofNat', Nat.mod_eq_of_lt (by omega)]
        exact or_tag 1 h₁₄
      rw [if_pos h₁₄, below, if_pos (by omega), shortest_two h₆ h₁₄, hor]
      rfl
    · rw [if_neg h₁₄]
      by_cases h₃₀ : v < 2 ^ 30
      · have hor : (UInt32.ofNat v ||| 0x80000000).toNat = 2 * 2 ^ 30 + v := by
          rw [UInt32.toNat_or, UInt32.toNat_ofNat', Nat.mod_eq_of_lt (by omega)]
          exact or_tag 2 h₃₀
        rw [if_pos h₃₀, below, if_pos h₃₀, shortest_four h₆ h₁₄ h₃₀, hor]
        rfl
      · rw [if_neg h₃₀, below, if_neg h₃₀]

/-- **The integers of the generator** are the shortest ones too. -/
theorem Generator.appendVarint_eq (b : Bytes) (v : Nat) :
    Generator.appendVarint b v =
      below (2 ^ 14) v (b ++ encodeVarint (VarintWidth.shortest v) v) := by
  have hbyte : UInt8.ofInt (v : Int) = UInt8.ofNat v := by
    apply UInt8.toNat_inj.mp
    rw [UInt8.toNat_ofNat', UInt8.ofInt, UInt8.toNat_ofNat']
    omega
  unfold Generator.appendVarint
  rw [hbyte, Int.toNat_natCast]
  by_cases h₆ : v < 2 ^ 6
  · rw [if_pos (by omega), below, if_pos (by omega), shortest_one h₆, encodeVarint_one]
  · rw [if_neg (by omega)]
    by_cases h₁₄ : v < 2 ^ 14
    · have hhigh : 0x40 ||| v >>> 8 = (1 * 2 ^ 14 + v) / 256 ^ 1 := by
        have hlt : v >>> 8 < 2 ^ 6 := by
          rw [Nat.shiftRight_eq_div_pow]
          omega
        have hor : v >>> 8 ||| 0x40 = 1 * 2 ^ 6 + v >>> 8 := or_tag 1 hlt
        rw [Nat.or_comm, hor, Nat.shiftRight_eq_div_pow]
        omega
      have hlow : UInt8.ofNat v = UInt8.ofNat ((1 * 2 ^ 14 + v) % 256 ^ 1) := by
        apply UInt8.toNat_inj.mp
        rw [UInt8.toNat_ofNat', UInt8.toNat_ofNat']
        omega
      rw [if_pos (by omega), below, if_pos h₁₄, shortest_two h₆ h₁₄, hhigh, hlow]
      show _ = Except.ok (b ++ toBE 2 (1 * 2 ^ 14 + v))
      simp [toBE]
    · rw [if_neg (by omega), below, if_neg h₁₄]

end Varints

section Sections
variable {bound : Nat} {vec : Bytes → Bytes → Fallible Bytes}

/-- A function that appends a string behind its length, up to a bound. -/
def WritesBelow (bound : Nat) (vec : Bytes → Bytes → Fallible Bytes) : Prop :=
  ∀ str out, vec str out = below bound str.length (out ++ writePrefixed str)

theorem Client.writesBelow_vec : WritesBelow (2 ^ 30) Client.vec := by
  intro str out
  rw [Client.vec, Client.varint_eq, below_bind, below, writePrefixed, ← List.append_assoc]
  rfl

theorem Generator.writesBelow_appendVec :
    WritesBelow (2 ^ 14) (fun v b => Generator.appendVec b v) := by
  intro str out
  show Generator.appendVec out str = _
  rw [Generator.appendVec, Generator.appendVarint_eq, below_bind, below, writePrefixed,
    ← List.append_assoc]
  rfl

/-- The loop writes the section; where it panics, the section is too long as well. -/
theorem fieldsLoop_cases (hvec : WritesBelow bound vec) (fs : List Field) (sec : Bytes) :
    fieldsLoop vec fs sec = .ok (sec ++ writeFields fs) ∨
      (fieldsLoop vec fs sec = .error .panicked ∧ bound ≤ (writeFields fs).length) := by
  induction fs generalizing sec with
  | nil =>
    left
    show Except.ok sec = Except.ok (sec ++ [])
    rw [List.append_nil]
  | cons f fs ih =>
    have hname := length_lt_writePrefixed f.name
    have hvalue := length_lt_writePrefixed f.value
    rw [fieldsLoop, hvec, below_bind, writeFields_cons, List.length_append, List.length_append]
    by_cases hn : f.name.length < bound
    · rw [if_pos hn, hvec, below_bind]
      by_cases hv : f.value.length < bound
      · rw [if_pos hv]
        rcases ih (sec ++ writePrefixed f.name ++ writePrefixed f.value) with h | ⟨h, hlong⟩
        · left
          rw [h, List.append_assoc, List.append_assoc]
        · right
          exact ⟨h, by omega⟩
      · right
        rw [if_neg hv]
        exact ⟨rfl, by omega⟩
    · right
      rw [if_neg hn]
      exact ⟨rfl, by omega⟩

/-- Writing the fields and then their section. -/
theorem fieldsLoop_bind (hvec : WritesBelow bound vec) (fs : List Field) (out : Bytes)
    (k : Bytes → Fallible Bytes) :
    (fieldsLoop vec fs [] >>= fun sec => vec sec out >>= k) =
      if (writeFields fs).length < bound then k (out ++ writePrefixed (writeFields fs))
      else .error .panicked := by
  rcases fieldsLoop_cases hvec fs [] with h | ⟨h, hlong⟩
  · rw [h, ok_bind, List.nil_append, hvec, below_bind]
  · rw [h, if_neg (Nat.not_lt.mpr hlong)]
    rfl

end Sections

section Requests

/-- Appending a string behind its length and going on. -/
theorem WritesBelow.bind {bound : Nat} {vec : Bytes → Bytes → Fallible Bytes}
    (hvec : WritesBelow bound vec) (str out : Bytes) (k : Bytes → Fallible Bytes) :
    (vec str out >>= k) =
      if str.length < bound then k (out ++ writePrefixed str) else .error .panicked := by
  rw [hvec, below_bind]

/-- **The client writes every request that is short enough**, and panics on the others. -/
theorem Client.bhttpRequest_eq (method path : Bytes) (fields : List Field) (body : Bytes) :
    Client.bhttpRequest method path fields body =
      if Encodable (2 ^ 30) method (ascii "https") (ascii "localhost") path fields body then
        .ok (0x00 :: writeRequest method (ascii "https") (ascii "localhost") path fields body)
      else .error .panicked := by
  have hvec := Client.writesBelow_vec
  have hnil : ([] : Bytes).length < 2 ^ 30 := by decide
  have hhttps : (ascii "https").length < 2 ^ 30 := by decide
  have hlocalhost : (ascii "localhost").length < 2 ^ 30 := by decide
  have hlast : ∀ out, Client.vec [] out = .ok (out ++ writePrefixed []) := by
    intro out
    rw [hvec, below, if_pos hnil]
  simp only [Client.bhttpRequest, Client.controls, fieldsLoop_bind hvec]
  simp only [hvec.bind, if_pos hhttps, if_pos hlocalhost, hlast]
  by_cases h : Encodable (2 ^ 30) method (ascii "https") (ascii "localhost") path fields body
  · rw [if_pos h.method, if_pos h.path, ok_bind, if_pos h.section_lt, if_pos h.body, if_pos h]
    simp only [writeRequest, List.append_assoc, List.cons_append, List.nil_append]
  · rw [if_neg h]
    rw [encodable_iff] at h
    split_ifs
    · exact absurd ⟨‹_›, hhttps, hlocalhost, ‹_›, ‹_›, ‹_›⟩ h
    all_goals rfl

theorem Generator.appendFields_bind (b : Bytes) (fields : List Field)
    (k : Bytes → Fallible Bytes) :
    (Generator.appendFields b fields >>= k) =
      if (writeFields fields).length < 2 ^ 14 then k (b ++ writePrefixed (writeFields fields))
      else .error .panicked := by
  rw [Generator.appendFields, bind_assoc]
  exact fieldsLoop_bind Generator.writesBelow_appendVec fields b k

theorem Generator.appendFields_nil (b : Bytes) :
    Generator.appendFields b [] = .ok (b ++ writePrefixed []) := by
  have h := Generator.appendFields_bind b [] .ok
  rw [if_pos (by decide)] at h
  rw [← bind_pure (Generator.appendFields b [])]
  exact h

theorem Generator.appendVec_bind (b v : Bytes) (k : Bytes → Fallible Bytes) :
    (Generator.appendVec b v >>= k) =
      if v.length < 2 ^ 14 then k (b ++ writePrefixed v) else .error .panicked :=
  Generator.writesBelow_appendVec.bind v b k

/-- **The generator writes every request that is short enough for it**, and panics on the
others. -/
theorem Generator.encodeRequest_eq (r : Generator.InnerRequest) :
    Generator.encodeRequest r =
      if Encodable (2 ^ 14) r.method r.scheme r.authority r.path r.fields r.body then
        .ok (0x00 :: writeRequest r.method r.scheme r.authority r.path r.fields r.body)
      else .error .panicked := by
  have hzero : Generator.appendVarint [] 0 = .ok [0x00] := rfl
  simp only [Generator.encodeRequest, hzero, ok_bind, Generator.appendVec_bind,
    Generator.appendFields_bind, Generator.appendFields_nil]
  by_cases h : Encodable (2 ^ 14) r.method r.scheme r.authority r.path r.fields r.body
  · rw [if_pos h.method, if_pos h.scheme, if_pos h.authority, if_pos h.path, if_pos h.section_lt,
      if_pos h.body, if_pos h]
    simp only [writeRequest, List.append_assoc, List.cons_append, List.nil_append]
  · rw [if_neg h]
    rw [encodable_iff] at h
    split_ifs
    · exact absurd ⟨‹_›, ‹_›, ‹_›, ‹_›, ‹_›, ‹_›⟩ h
    all_goals rfl

/-- The generator writes the responses that are short enough for it. -/
theorem Generator.encodeResponse_eq (status : Nat) (fields : List Field) (body : Bytes) :
    Generator.encodeResponse ⟨status, fields, body⟩ =
      if status < 2 ^ 14 ∧ (writeFields fields).length < 2 ^ 14 ∧ body.length < 2 ^ 14 then
        .ok (writeResponse status fields body [])
      else .error .panicked := by
  have hone : Generator.appendVarint [] 1 = .ok (encodeVarint .one 1) := rfl
  simp only [Generator.encodeResponse, hone, ok_bind, Generator.appendVarint_eq, below_bind,
    Generator.appendVec_bind, Generator.appendFields_bind, Generator.appendFields_nil]
  by_cases h : status < 2 ^ 14 ∧ (writeFields fields).length < 2 ^ 14 ∧ body.length < 2 ^ 14
  · rw [if_pos h.1, if_pos h.2.1, if_pos h.2.2, if_pos h]
    simp only [writeResponse, List.append_assoc]
    rfl
  · rw [if_neg h]
    split_ifs
    · exact absurd ⟨‹_›, ‹_›, ‹_›⟩ h
    all_goals rfl

end Requests

/-! ## What the sidecar makes of them -/

/-- **A written request that is admitted**: its fields have names and fit, and the rest is
acceptable. -/
structure Admitted (m : InnerMessage) : Prop where
  names : ∀ f ∈ m.header, f.name ≠ []
  section_le : (writeFields m.header).length ≤ 65536
  acceptable : Acceptable m

section Decoding
variable {method scheme authority path content : Bytes} {header : List Field}

/-- A written request encodes the request it was written from, and no other; with a name
that is empty or a section that is too long, none. -/
theorem isInnerRequest_writeRequest
    (h : Encodable (2 ^ 62) method scheme authority path header content) {m : InnerMessage} :
    IsInnerRequest (0x00 :: writeRequest method scheme authority path header content) m ↔
      m = ⟨method, scheme, authority, path, header, content, []⟩ ∧
        (∀ f ∈ header, f.name ≠ []) ∧ (writeFields header).length ≤ 65536 := by
  have hslices := readSlices_writeRequest h.method h.scheme h.authority h.path h.section_lt h.body
  obtain ⟨tail, hstrs, hsecs⟩ := readSlices_iff.mp hslices
  constructor
  · rintro ⟨s, tail', padding, hsec, tsec, hs, hstrs', hsecs', hh, ht, hheader, htrailer⟩
    obtain rfl := (List.cons.inj hs).2
    have hslices' := readSlices_iff.mpr
      ⟨tail', readStrings_iff.mpr ⟨rfl, hstrs'⟩, readSections_iff.mpr ⟨rfl, hsecs'⟩⟩
    obtain ⟨mmethod, mscheme, mauthority, mpath, mheader, mcontent, mtrailer⟩ := m
    cases Option.some.inj (hslices.symm.trans hslices')
    obtain ⟨hfields, hnames⟩ := (fields_writeFields_iff h.section_lt).mp hheader
    have hnone := readFields_iff.mpr htrailer
    rw [readFields_iff.mpr Fields.nil, Option.some.injEq] at hnone
    dsimp only at hfields hnone
    subst hfields hnone
    exact ⟨rfl, hnames, hh⟩
  · rintro ⟨rfl, hnames, hle⟩
    exact ⟨_, tail, [], writeFields header, [], rfl, (readStrings_iff.mp hstrs).2,
      (readSections_iff.mp hsecs).2, hle, Nat.zero_le _,
      (fields_writeFields_iff h.section_lt).mpr ⟨rfl, hnames⟩, Fields.nil⟩

variable {lib : Crates}

/-- **What a written request decodes to.** -/
theorem decodeInner_writeRequest (hm : lib.http.MethodRule) (hv : lib.http.ValueRule)
    (hr : lib.bhttp.ReadRule)
    (h : Encodable (2 ^ 62) method scheme authority path header content) :
    (Admitted ⟨method, scheme, authority, path, header, content, []⟩ →
      decodeInner lib (0x00 :: writeRequest method scheme authority path header content) =
        if content ≠ [] ∧ contentTypes header = [] then .error .unsupportedMediaType
        else .ok ⟨method, path, (contentTypes header).head?, accepts header, content⟩) ∧
    (¬ Admitted ⟨method, scheme, authority, path, header, content, []⟩ →
      decodeInner lib (0x00 :: writeRequest method scheme authority path header content) =
        .error .badRequest) := by
  constructor
  · intro hadmitted
    exact ((isInnerRequest_writeRequest h).mpr ⟨rfl, hadmitted.names, hadmitted.section_le⟩).decode
      hm hv hr hadmitted.acceptable
  · intro hnot
    have habsurd : ∀ m, IsInnerRequest
        (0x00 :: writeRequest method scheme authority path header content) m → ¬ Acceptable m := by
      intro m hp ha
      obtain ⟨rfl, hnames, hle⟩ := (isInnerRequest_writeRequest h).mp hp
      exact hnot ⟨hnames, hle, ha⟩
    cases hd : decodeInner lib
        (0x00 :: writeRequest method scheme authority path header content) with
    | ok r =>
      obtain ⟨m, hp, ha, -⟩ := decodeInner_ok hm hv hr hd
      exact absurd ha (habsurd m hp)
    | error e =>
      rcases decodeInner_error hm hv hr hd with rfl | ⟨-, m, hp, ha, -⟩
      · rfl
      · exact absurd ha (habsurd m hp)

theorem Encodable.mono {bound bound' : Nat} (hle : bound ≤ bound')
    (h : Encodable bound method scheme authority path header content) :
    Encodable bound' method scheme authority path header content :=
  ⟨h.method.trans_le hle, h.scheme.trans_le hle, h.authority.trans_le hle, h.path.trans_le hle,
    h.section_lt.trans_le hle, h.body.trans_le hle⟩

end Decoding

/-- **Every request a client writes is decoded to itself, or refused for what it is.**  The
client panics exactly on lengths from 2^30 on.  What it writes decodes to its method, its
path, its content type, its accept values and its body, when its fields have names and fit
and the rest is acceptable; without a type for its body it is answered with 415, and
everything else is a bad request. -/
theorem bhttpRequest_decodes (lib : Crates) (hm : lib.http.MethodRule) (hv : lib.http.ValueRule)
    (hr : lib.bhttp.ReadRule) (method path : Bytes) (fields : List Field) (body : Bytes) :
    (Client.bhttpRequest method path fields body = .error .panicked ↔
      ¬ Encodable (2 ^ 30) method (ascii "https") (ascii "localhost") path fields body) ∧
    ∀ p, Client.bhttpRequest method path fields body = .ok p →
      (Admitted ⟨method, ascii "https", ascii "localhost", path, fields, body, []⟩ →
        decodeInner lib p =
          if body ≠ [] ∧ contentTypes fields = [] then .error .unsupportedMediaType
          else .ok ⟨method, path, (contentTypes fields).head?, accepts fields, body⟩) ∧
      (¬ Admitted ⟨method, ascii "https", ascii "localhost", path, fields, body, []⟩ →
        decodeInner lib p = .error .badRequest) := by
  rw [Client.bhttpRequest_eq]
  by_cases h : Encodable (2 ^ 30) method (ascii "https") (ascii "localhost") path fields body
  · rw [if_pos h]
    refine ⟨iff_of_false ?_ (not_not_intro h), ?_⟩
    · intro hne
      cases hne
    · intro p hp
      cases hp
      exact decodeInner_writeRequest hm hv hr (h.mono (by decide))
  · rw [if_neg h]
    refine ⟨iff_of_true rfl h, ?_⟩
    intro p hp
    cases hp

namespace KnownAnswers

/-- The fields of the vector's request. -/
def jsonFields : List Field := [⟨ascii "content-type", ascii "application/json"⟩]

theorem writes : Client.bhttpRequest (ascii "POST") (ascii "/") jsonFields rpcRequest =
    .ok KnownAnswers.bhttpRequest := by
  decide

theorem admitted : Admitted ⟨ascii "POST", ascii "https", ascii "localhost", ascii "/", jsonFields,
    rpcRequest, []⟩ :=
  ⟨by decide, by decide, by decide +kernel, by decide, by decide, by decide, by decide, by decide,
    by decide +kernel⟩

end KnownAnswers

open KnownAnswers in
/-- The client writes the request of the vector, which decodes to itself. -/
theorem bhttpRequest_decodes_vector :
    Client.bhttpRequest (ascii "POST") (ascii "/") jsonFields rpcRequest =
        .ok KnownAnswers.bhttpRequest ∧
      decodeInner crates KnownAnswers.bhttpRequest = .ok ⟨ascii "POST", ascii "/",
        some (ascii "application/json"), [], rpcRequest⟩ := by
  obtain ⟨-, hdecodes⟩ := bhttpRequest_decodes crates http_methods http_values bhttp_reads
    (ascii "POST") (ascii "/") jsonFields rpcRequest
  refine ⟨writes, ((hdecodes _ writes).1 admitted).trans ?_⟩
  rfl

/-- **The generator agrees with the client and with the sidecar.**  It panics exactly on
requests with lengths from 2^14 on; what it writes for the scheme and the authority of the
client, the client writes too; and a final response of the sidecar and the generator's for
the same parts are read as one message. -/
theorem generator_agrees (lib : Crates) (hstatus : lib.bhttp.StatusRule)
    (hwrite : lib.bhttp.WriteRule) :
    (∀ r, Generator.encodeRequest r = .error .panicked ↔
      ¬ Encodable (2 ^ 14) r.method r.scheme r.authority r.path r.fields r.body) ∧
    (∀ r p, Generator.encodeRequest r = .ok p → r.scheme = ascii "https" →
      r.authority = ascii "localhost" →
      Client.bhttpRequest r.method r.path r.fields r.body = .ok p) ∧
    ∀ (status : Nat) (contentType : List HeaderValue) (body p q : Bytes), 200 ≤ status →
      status ≤ 599 →
      Generator.encodeResponse ⟨status, contentTypeFields contentType, body⟩ = .ok p →
      encodeResponse lib ⟨status, contentType, body⟩ = some q →
      readResponse p = some (responseMessage status contentType body) ∧
        readResponse q = readResponse p := by
  refine ⟨fun r => ?_, fun r p hp hscheme hauthority => ?_, ?_⟩
  · rw [Generator.encodeRequest_eq]
    by_cases h : Encodable (2 ^ 14) r.method r.scheme r.authority r.path r.fields r.body
    · rw [if_pos h]
      refine iff_of_false ?_ (not_not_intro h)
      intro hne
      cases hne
    · rw [if_neg h]
      exact iff_of_true rfl h
  · rw [Generator.encodeRequest_eq] at hp
    split at hp
    · rename_i h
      cases hp
      rw [hscheme, hauthority] at h
      rw [Client.bhttpRequest_eq, if_pos (h.mono (by decide)), hscheme, hauthority]
    · cases hp
  · intro status contentType body p q hle hge hp hq
    have hnames : ∀ f ∈ contentTypeFields contentType, f.name ≠ [] := by
      intro f hf
      obtain ⟨v, -, rfl⟩ := List.mem_map.mp hf
      show ascii "content-type" ≠ []
      decide
    have hsidecar : readResponse q = some (responseMessage status contentType body) := by
      rw [encodeResponse, hstatus status hle hge] at hq
      exact readResponse_writeToVec hwrite hle hq
    have hgenerator : readResponse p = some (responseMessage status contentType body) := by
      rw [Generator.encodeResponse_eq] at hp
      split at hp
      · rename_i h
        cases hp
        have hrep : Representable (contentTypeFields contentType) body :=
          ⟨hnames, by omega, by omega⟩
        exact (isResponse_writeResponse (by omega) hrep).read (by omega)
      · cases hp
    exact ⟨hgenerator, hsidecar.trans hgenerator.symm⟩

open KnownAnswers in
/-- On the vector the generator, the client and the sidecar write the same bytes. -/
theorem generator_agrees_vector :
    Client.bhttpRequest (ascii "POST") (ascii "/") jsonFields rpcRequest =
        .ok KnownAnswers.bhttpRequest ∧
      readResponse bhttpResponse =
        some (responseMessage 200 [ascii "application/json"] rpcResponse) := by
  obtain ⟨-, hrequests, hresponses⟩ := generator_agrees crates bhttp_statuses bhttp_writes
  have hrequest : Generator.encodeRequest ⟨ascii "POST", ascii "https", ascii "localhost",
      ascii "/", jsonFields, rpcRequest⟩ = .ok KnownAnswers.bhttpRequest := by
    decide
  have hresponse : Generator.encodeResponse ⟨200, contentTypeFields [ascii "application/json"],
      rpcResponse⟩ = .ok bhttpResponse := by
    decide
  have hsidecar : encodeResponse crates ⟨200, [ascii "application/json"], rpcResponse⟩ =
      some bhttpResponse := by
    decide
  exact ⟨hrequests _ _ hrequest rfl rfl,
    (hresponses 200 _ _ _ _ (by decide) (by decide) hresponse hsidecar).1⟩

end VrpcSidecar
