import VrpcSidecar.JsonObjects
import VrpcSidecar.NonceFormat
import VrpcSidecar.QueryStrings

/-! # An attestation on the wire

What the `derive`s of `attestation.rs` make of its two types.  `AttestationQuery` is read
from the pairs of a query string, and a second `nonce` is refused; `AsksFor` says which
query strings carry a nonce (`visitMap_asks_iff`).  `AttestationResponse` is a struct of
four fields, and `serde_json` writes it: `JsonCrate` is what the sidecar uses of it to write
and a client to read, and `FieldRule` what the two rely on.
-/
namespace VrpcSidecar
open QueryStrings JsonText

/-! ## The query -/

/-- The visitor that `Deserialize` derives: one `nonce` at most, other names are skipped. -/
def AttestationQuery.visitMap : Option Text → List (Text × Text) → Option AttestationQuery
  | nonce, [] => some ⟨nonce⟩
  | nonce, (name, value) :: rest =>
    if name = "nonce".toList then
      if nonce.isSome then none else visitMap (some value) rest
    else visitMap nonce rest

/-- The query has the values of the pairs named `nonce`, when there is one at most. -/
theorem AttestationQuery.visitMap_iff {nonce : Option Text} {ps : List (Text × Text)}
    {q : AttestationQuery} :
    AttestationQuery.visitMap nonce ps = some q ↔
      nonce.toList ++ (ps.filter (fun p => p.1 = "nonce".toList)).map Prod.snd = q.nonce.toList := by
  induction ps generalizing nonce with
  | nil =>
    obtain ⟨n⟩ := q
    rw [visitMap, List.filter_nil, List.map_nil, List.append_nil, Option.some.injEq,
      AttestationQuery.mk.injEq]
    cases nonce <;> cases n <;> simp
  | cons p ps ih =>
    obtain ⟨name, value⟩ := p
    rw [visitMap, List.filter_cons]
    by_cases hname : name = "nonce".toList
    · rw [if_pos hname, if_pos (decide_eq_true hname), List.map_cons]
      cases nonce with
      | none =>
        rw [if_neg (by decide), ih]
        rfl
      | some text =>
        -- a second value makes the list longer than an option is
        have hsome : (some text).isSome = true := rfl
        rw [if_pos hsome]
        refine iff_of_false (by simp) (fun hlong => ?_)
        have hlen := congrArg List.length hlong
        have hle : q.nonce.toList.length ≤ 1 := Option.length_toList_le
        simp only [Option.toList_some, List.length_append, List.length_cons] at hlen
        omega
    · rw [if_neg hname, ih, if_neg (by simpa using hname)]

/-- **The query string asks for a quote over the nonce**: of its pairs exactly one is named
`nonce`, and its value is a text that is, within white space, any number of prefixes and
the digits of the nonce. -/
def AsksFor (query : Bytes) (nonce : Block 32) : Prop :=
  ∃ text, valuesOf (ascii "nonce") query = [utf8 text] ∧ ∃ (i j : Nat) (digits : Text),
    trim text = repeated i '0' 'x' ++ repeated j '0' 'X' ++ digits ∧ HexText digits nonce.bytes

/-- A query string asks for one nonce at most. -/
theorem AsksFor.unique {query : Bytes} {nonce nonce' : Block 32} (h : AsksFor query nonce)
    (h' : AsksFor query nonce') : nonce = nonce' := by
  obtain ⟨text, hvalues, hformat⟩ := h
  obtain ⟨text', hvalues', hformat'⟩ := h'
  have hsame := List.singleton_inj.mp (hvalues.symm.trans hvalues')
  obtain rfl := utf8_injective hsame
  have hparse := parseUserNonce_ok_iff.mpr hformat
  exact Except.ok.inj (hparse.symm.trans (parseUserNonce_ok_iff.mpr hformat'))

/-- The replacement character is in no text that is read as a nonce. -/
theorem not_mem_of_parseUserNonce {s : Text} {nonce : Block 32}
    (h : parseUserNonce s = .ok nonce) : replacementCharacter ∉ s := by
  intro hmem
  obtain ⟨i, j, digits, htrim, hdigits⟩ := parseUserNonce_ok_iff.mp h
  have hmark := mem_trim hmem (by decide)
  rw [htrim, List.mem_append, List.mem_append] at hmark
  rcases hmark with (hx | hX) | hdigit
  · rcases eq_or_eq_of_mem_repeated hx with h0 | hx
    · exact absurd h0 (by decide)
    · exact absurd hx (by decide)
  · rcases eq_or_eq_of_mem_repeated hX with h0 | hX
    · exact absurd h0 (by decide)
    · exact absurd hX (by decide)
  · obtain ⟨v, hv⟩ := hdigits.hexDigit_of_mem hdigit
    exact absurd (hexDigit_iff.mp hv).1 (by decide)

/-- **Which query strings carry a nonce.** -/
theorem visitMap_asks_iff (lossy : Lossy) {query : Bytes} {nonce : Block 32} :
    (∃ q, AttestationQuery.visitMap none (textPairs lossy query) = some q ∧
      extractNonce q = .ok nonce) ↔ AsksFor query nonce := by
  have hname : replacementCharacter ∉ "nonce".toList := by decide
  have hbytes : utf8 "nonce".toList = ascii "nonce" := by decide
  have hvalues := textPairs_values lossy hname query
  rw [hbytes] at hvalues
  have hreads : ∀ q, AttestationQuery.visitMap none (textPairs lossy query) = some q ↔
      (valuesOf (ascii "nonce") query).map lossy.decode = q.nonce.toList := by
    intro q
    rw [AttestationQuery.visitMap_iff, hvalues]
    rfl
  constructor
  · rintro ⟨⟨_ | text⟩, hq, hextract⟩
    · cases hextract
    · obtain ⟨value, hvalue, hdecode⟩ := List.map_eq_singleton_iff.mp ((hreads _).mp hq)
      -- a text with a mark is no nonce, so the value is the text in UTF-8
      have hparse : parseUserNonce text = .ok nonce := hextract
      obtain rfl := (lossy.decode_eq_iff (not_mem_of_parseUserNonce hparse)).mp hdecode
      exact ⟨text, hvalue, parseUserNonce_ok_iff.mp hparse⟩
  · rintro ⟨text, hvalue, hformat⟩
    refine ⟨⟨some text⟩, (hreads _).mpr ?_, parseUserNonce_ok_iff.mpr hformat⟩
    rw [hvalue, List.map_singleton, lossy.valid]
    rfl

/-! ## The response -/

/-- The value of a field: a string, or a quote, which dstack's SDK says how to write. -/
inductive JsonValue where
  | string (s : Bytes)
  | quote (q : GetQuoteResponse)

/-- The part of `serde_json` that puts a struct on the wire, and the part with which a client
reads it. -/
structure JsonCrate where
  /-- `to_vec`, of a struct with these fields. -/
  toVec : List (Text × JsonValue) → Bytes
  /-- `v[name].as_str()`, for the value `v` of a text. -/
  strAt : Text → Bytes → Option Bytes

/-- A text that a struct holds under a name is read back under it. -/
def JsonCrate.FieldRule (json : JsonCrate) : Prop :=
  ∀ (fields : List (Text × JsonValue)) (name text : Text), (fields.map Prod.fst).Nodup →
    (name, .string (utf8 text)) ∈ fields → json.strAt name (json.toVec fields) = some (utf8 text)

/-- The fields of an `AttestationResponse`; one of them is renamed. -/
def AttestationResponse.fields (r : AttestationResponse) : List (Text × JsonValue) :=
  [("quote".toList, .quote r.quote), ("pubkey".toList, .string r.pubkey),
    ("composeHash".toList, .string r.composeHash), ("app_compose".toList, .string r.appCompose)]

/-- `Json`, of an `AttestationResponse`. -/
def AttestationResponse.toJson (json : JsonCrate) (r : AttestationResponse) : Bytes :=
  json.toVec r.fields

/-- **Each text of an attestation is read back under its name.** -/
theorem AttestationResponse.strAt_toJson {json : JsonCrate} (hjson : json.FieldRule)
    {r : AttestationResponse} {name text : Text} (h : (name, .string (utf8 text)) ∈ r.fields) :
    json.strAt name (r.toJson json) = some (utf8 text) := by
  have hnodup : (r.fields.map Prod.fst).Nodup := by
    simp only [AttestationResponse.fields, List.map_cons, List.map_nil]
    decide
  exact hjson r.fields name text hnodup h

namespace KnownAnswers

/-- The text of a field's value. -/
def fieldJson : JsonValue → Bytes
  | .string s => writeString s
  | .quote q => writeObject [(ascii "quote", writeString q.quote),
      (ascii "event_log", writeString q.eventLog), (ascii "report_data", writeString q.reportData),
      (ascii "vm_config", writeString q.vmConfig)]

theorem json_fieldJson (v : JsonValue) : Json .value (fieldJson v) := by
  cases v with
  | string s => exact json_writeString s
  | quote q =>
    apply json_writeObject
    intro p hp
    simp only [List.mem_cons, List.not_mem_nil, or_false] at hp
    rcases hp with rfl | rfl | rfl | rfl <;> exact json_writeString _

/-- A struct as a JSON object in the compact form. -/
def structJson : JsonCrate where
  toVec fields := writeObject (fields.map (fun f => (utf8 f.1, fieldJson f.2)))
  strAt name v := ((readObject v).bind (member (utf8 name))).bind asString

theorem structJson_fields : structJson.FieldRule := by
  intro fields name text hnodup hmem
  have hvalues : ∀ p ∈ fields.map (fun f => (utf8 f.1, fieldJson f.2)), Json .value p.2 := by
    intro p hp
    obtain ⟨f, -, rfl⟩ := List.mem_map.mp hp
    exact json_fieldJson f.2
  have hnames : ((fields.map (fun f => (utf8 f.1, fieldJson f.2))).map Prod.fst).Nodup := by
    have hinj : Function.Injective utf8 := fun _ _ => utf8_injective
    have hutf8 := hnodup.map hinj
    rw [List.map_map] at hutf8 ⊢
    exact hutf8
  have hmember := member_of_nodup hnames (List.mem_map.mpr ⟨_, hmem, rfl⟩)
  simp only [structJson, readObject_writeObject hvalues, Option.bind_some]
  rw [hmember]
  exact asString_writeString _

end KnownAnswers

end VrpcSidecar
