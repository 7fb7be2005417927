import VrpcSidecar.JsonScanner
import VrpcSidecar.Confidential

/-! # Crates on the known-answer vector

A concrete build of the crates, on which the general results can be evaluated.  Its
parsers and encoders are those of the grammars.  Its cryptography is a table: on the
`post-json-rpc` vector of `tests/vectors/confidential.json` (and on signatures made
with the same test seed) every function returns what the real one does, and
elsewhere it is a scheme without secrecy that obeys the same rules.  The last section
is the exchange of the vector: a sidecar with the test seed in front of a node that
answers the inner request.
-/
namespace VrpcSidecar.KnownAnswers

/-! ## Parsers and encoders -/

/-- The bytes `http` takes in a path. -/
def isPathByte (b : UInt8) : Bool :=
  b = 0x21 || b = 0x22 || (0x24 ≤ b && b ≤ 0x3b) || b = 0x3d || (0x40 ≤ b && b ≤ 0x5f) ||
    (0x61 ≤ b && b ≤ 0x7e) || 0x80 ≤ b

/-- The bytes it takes in a query. -/
def isQueryByte (b : UInt8) : Bool :=
  b = 0x21 || (0x24 ≤ b && b ≤ 0x3b) || b = 0x3d || (0x3f ≤ b && b ≤ 0x7e) || 0x80 ≤ b

/-- **The character rules for a path and query**: permitted bytes before and after the
first `?`, and valid UTF-8; a fragment is cut off and not looked at.  An asterisk starts no
longer text. -/
structure IsTarget (bs : Bytes) : Prop where
  path : ∀ b ∈ beforeQuery (withoutFragment bs), isPathByte b = true
  query : ∀ b ∈ (withoutFragment bs).dropWhile (fun b => b ≠ 0x3f), isQueryByte b = true
  text : (withoutFragment bs).toByteArray.IsValidUTF8
  alone : bs.head? = some 0x2a → bs = ascii "*"

instance (bs : Bytes) : Decidable (IsTarget bs) :=
  decidable_of_iff ((∀ b ∈ beforeQuery (withoutFragment bs), isPathByte b = true) ∧
    (∀ b ∈ (withoutFragment bs).dropWhile (fun b => b ≠ 0x3f), isQueryByte b = true) ∧
    (withoutFragment bs).toByteArray.IsValidUTF8 ∧ (bs.head? = some 0x2a → bs = ascii "*"))
    ⟨fun ⟨h₁, h₂, h₃, h₄⟩ => ⟨h₁, h₂, h₃, h₄⟩, fun ⟨h₁, h₂, h₃, h₄⟩ => ⟨h₁, h₂, h₃, h₄⟩⟩

/-- The path and query of a text up to a fragment, split at the first `?`. -/
def pathAndQueryTryFrom (bs : Bytes) : Option PathAndQuery :=
  if IsTarget bs then some (.ofBytes (withoutFragment bs)) else none

/-- The bytes of a scheme. -/
def isSchemeByte (b : UInt8) : Bool :=
  (0x30 ≤ b && b ≤ 0x39) || (0x41 ≤ b && b ≤ 0x5a) || (0x61 ≤ b && b ≤ 0x7a) ||
    (ascii "+-.").contains b

/-- The bytes of an authority, percent-encoding aside. -/
def isAuthorityByte (b : UInt8) : Bool :=
  isSchemeByte b || (ascii "!$&'()*,:;=@[]_~").contains b

/-- The URI with a scheme, an authority and what follows it. -/
def uriWith (scheme authority : Option Bytes) (rest : Bytes) : Option Uri :=
  (pathAndQueryTryFrom rest).map (fun target => ⟨scheme, authority, target⟩)

/-- The URI of a text in one of its four forms. -/
def uriFromStr (u : Bytes) : Option Uri :=
  let scheme := u.takeWhile isSchemeByte
  let tail := u.dropWhile isSchemeByte
  let authority := (tail.drop 3).takeWhile isAuthorityByte
  let rest := (tail.drop 3).dropWhile isAuthorityByte
  if u.length > 65534 then none
  else if u.head? = some 0x2f then uriWith none none u
  else if u = ascii "*" then uriWith none none u
  else if tail.take 3 = ascii "://" then
    if authority = [] ∨ ¬ ∀ b ∈ rest.head?, b = 0x2f ∨ b = 0x3f ∨ b = 0x23 then none
    else uriWith (some scheme) (some authority) rest
  else if u ≠ [] ∧ ∀ b ∈ u, isAuthorityByte b then uriWith none (some u) []
  else none

def http : HttpCrate where
  methodFromBytes bs := if IsToken bs then some bs else none
  headerValueFromBytes bs := if IsHeaderValue bs then some bs else none
  pathAndQueryTryFrom := pathAndQueryTryFrom
  uriFromParts scheme authority pq :=
    if scheme.isSome = authority.isSome then some ⟨scheme, authority, pq⟩ else none
  uriFromStr := uriFromStr

theorem http_methods : http.MethodRule := by
  intro bs m
  simp only [http]
  split
  · simp [*, eq_comm]
  · simp [*]

theorem http_values : http.ValueRule := by
  intro bs v
  simp only [http]
  split
  · simp [*, eq_comm]
  · simp [*]

theorem isPathByte_ge : ∀ b : UInt8, isPathByte b = true → 0x21 ≤ b := by decide +kernel

theorem isQueryByte_ge : ∀ b : UInt8, isQueryByte b = true → 0x21 ≤ b := by decide +kernel

theorem accepts_iff {bs : Bytes} : http.Accepts bs ↔ IsTarget bs := by
  show (pathAndQueryTryFrom bs).isSome = true ↔ _
  rw [pathAndQueryTryFrom]
  split <;> simp [*]

theorem http_targets : http.TargetRule where
  keeps bs pq _ _ h := by
    change pathAndQueryTryFrom bs = some pq at h
    rw [pathAndQueryTryFrom] at h
    split at h
    · exact (Option.some.inj h).symm
    · cases h
  asterisk _ hstar h := (accepts_iff.mp h).alone hstar

/-- A path in front of a target belongs to its path. -/
theorem target_parts {path : Bytes} (hquery : 0x3f ∉ path) (hfragment : 0x23 ∉ path) (bs : Bytes) :
    withoutFragment (path ++ bs) = path ++ withoutFragment bs ∧
      beforeQuery (withoutFragment (path ++ bs)) = path ++ beforeQuery (withoutFragment bs) ∧
      (withoutFragment (path ++ bs)).dropWhile (fun b => b ≠ 0x3f) =
        (withoutFragment bs).dropWhile (fun b => b ≠ 0x3f) := by
  have hne : ∀ c, c ∉ path → ∀ b ∈ path, (decide (b ≠ c)) = true := by
    intro c hc b hb
    rw [decide_eq_true_eq]
    rintro rfl
    exact hc hb
  have hcut : withoutFragment (path ++ bs) = path ++ withoutFragment bs :=
    List.takeWhile_append_of_pos (hne 0x23 hfragment)
  refine ⟨hcut, ?_, ?_⟩
  · rw [hcut]
    exact List.takeWhile_append_of_pos (hne 0x3f hquery)
  · rw [hcut]
    exact List.dropWhile_append_of_pos (hne 0x3f hquery)

theorem http_characters : http.CharacterRule where
  root := by decide +kernel
  continues path rest bs hhead hquery hfragment hrest hjoined _ hbs _ := by
    rw [accepts_iff] at hjoined hbs ⊢
    obtain ⟨hcut, hbefore, hafter⟩ := target_parts hquery hfragment bs
    obtain ⟨hcut', hbefore', -⟩ := target_parts hquery hfragment rest
    refine ⟨?_, ?_, ?_, ?_⟩
    · rw [hbefore]
      intro b hb
      rcases List.mem_append.mp hb with hb | hb
      · exact hjoined.path b (hbefore' ▸ List.mem_append_left _ hb)
      · exact hbs.path b hb
    · rw [hafter]
      exact hbs.query
    · rw [hcut, List.toByteArray_append]
      refine .append (isValidUTF8_of_append (hcut' ▸ hjoined.text) ?_) hbs.text
      intro b hb
      rw [withoutFragment, List.head?_takeWhile, Option.filter_eq_some_iff] at hb
      rcases hrest b hb.1 with rfl | rfl | rfl <;> decide
    · intro hstar
      rw [List.head?_append, hhead] at hstar
      cases hstar

theorem http_assembles : http.AssembleRule := fun _ _ _ => rfl

theorem http_paths : http.PathRule := by
  intro bs pq h
  simp only [http, pathAndQueryTryFrom] at h
  split at h
  · rename_i htarget
    cases h
    refine ⟨rfl, ?_⟩
    intro b hb
    have hsplit : b ∈ beforeQuery (withoutFragment bs) ++
        (withoutFragment bs).dropWhile (fun b => b ≠ 0x3f) := by
      rw [beforeQuery, List.takeWhile_append_dropWhile]
      exact hb
    rcases List.mem_append.mp hsplit with hb | hb
    · exact isPathByte_ge b (htarget.path b hb)
    · exact isQueryByte_ge b (htarget.query b hb)
  · cases h

theorem uriWith_eq_some {scheme authority : Option Bytes} {rest : Bytes} {uri : Uri}
    (h : uriWith scheme authority rest = some uri) :
    IsTarget rest ∧ uri = ⟨scheme, authority, .ofBytes (withoutFragment rest)⟩ := by
  obtain ⟨target, htarget, rfl⟩ := Option.map_eq_some_iff.mp h
  rw [pathAndQueryTryFrom] at htarget
  split at htarget
  · cases htarget
    exact ⟨‹_›, rfl⟩
  · cases htarget

theorem not_mem_takeWhile {test : UInt8 → Bool} {b : UInt8} (h : test b = false) (bs : Bytes) :
    b ∉ bs.takeWhile test := by
  intro hb
  rw [List.mem_takeWhile_imp hb] at h
  cases h

/-- An authority has none of the bytes that end it. -/
theorem authority_clean (bs : Bytes) : 0x2f ∉ bs.takeWhile isAuthorityByte ∧
    0x3f ∉ bs.takeWhile isAuthorityByte ∧ 0x23 ∉ bs.takeWhile isAuthorityByte :=
  ⟨not_mem_takeWhile (by decide) bs, not_mem_takeWhile (by decide) bs,
    not_mem_takeWhile (by decide) bs⟩

theorem http_uris : http.UriRule := by
  intro u uri h
  simp only [http, uriFromStr] at h
  split at h
  · cases h
  rename_i hlen
  refine ⟨Nat.le_of_not_lt hlen, ?_⟩
  split at h
  · rename_i hslash
    obtain ⟨htarget, rfl⟩ := uriWith_eq_some h
    obtain ⟨rest, rfl⟩ := List.head?_eq_some_iff.mp hslash
    exact ⟨_, .origin, fun _ => accepts_iff.mpr htarget, rfl⟩
  split at h
  · rename_i hstar
    obtain ⟨htarget, rfl⟩ := uriWith_eq_some h
    exact ⟨u, hstar ▸ .asterisk, fun _ => accepts_iff.mpr htarget, rfl⟩
  split at h
  · rename_i hsep
    split at h
    · cases h
    rename_i hok
    rw [not_or, not_not] at hok
    obtain ⟨htarget, rfl⟩ := uriWith_eq_some h
    refine ⟨_, ?_, fun _ => accepts_iff.mpr htarget, rfl⟩
    have hu : u = u.takeWhile isSchemeByte ++ (ascii "://" ++
        (((u.dropWhile isSchemeByte).drop 3).takeWhile isAuthorityByte ++
          ((u.dropWhile isSchemeByte).drop 3).dropWhile isAuthorityByte)) := by
      rw [List.takeWhile_append_dropWhile, ← hsep, List.take_append_drop,
        List.takeWhile_append_dropWhile]
    have hcase : eqIgnoreCase (u.takeWhile isSchemeByte) (u.takeWhile isSchemeByte) = true :=
      (eqIgnoreCase_iff _ _).mpr rfl
    have hform := UrlForm.absolute hcase
      ⟨not_mem_takeWhile (by decide) u, not_mem_takeWhile (by decide) u⟩ hok.1
      (authority_clean ((u.dropWhile isSchemeByte).drop 3)) hok.2
    rw [← hu] at hform
    exact hform
  · split at h
    · rename_i hauth
      obtain ⟨htarget, rfl⟩ := uriWith_eq_some h
      have hall : u.takeWhile isAuthorityByte = u := List.takeWhile_eq_self_iff.mpr hauth.2
      have hclean := authority_clean u
      rw [hall] at hclean
      exact ⟨[], .authority hauth.1 hclean, fun hnil => (by cases hnil), rfl⟩
    · cases h

theorem http_parts : http.PartsRule := by
  intro scheme authority pq u h
  simp only [http] at h
  split at h
  · exact (Option.some.inj h).symm
  · cases h

open BinaryHttp in
def bhttp : BhttpCrate where
  statusTryFrom n := if 100 ≤ n ∧ n ≤ 599 then some n else none
  readBhttp p :=
    match p with
    | 0 :: s => readRequest s
    | _ => none
  writeBhttp m :=
    match m.control with
    | .response status =>
      ([writeResponse status m.header m.content m.trailer],
        status < 2 ^ 62 && (writeFields m.header).length < 2 ^ 62 && m.content.length < 2 ^ 62)
    | .request _ _ _ _ => ([], false)

theorem bhttp_statuses : bhttp.StatusRule := fun n h₁ h₂ => if_pos ⟨by omega, h₂⟩

theorem bhttp_reads : bhttp.ReadRule where
  refuses _ h := h
  reads _ m h := ⟨m, h, rfl, rfl, rfl⟩

theorem bhttp_writes : bhttp.WriteRule where
  sound status header content chunks h hne := by
    simp only [bhttp, Prod.mk.injEq, Bool.and_eq_true, decide_eq_true_eq] at h
    obtain ⟨rfl, ⟨hs, hh⟩, hc⟩ := h
    rw [List.flatten_singleton]
    exact BinaryHttp.isResponse_writeResponse hs ⟨hne, hh, hc⟩
  complete status header content hs h := by
    simp only [bhttp, Bool.and_eq_true, decide_eq_true_eq]
    exact ⟨⟨hs, h.header_lt⟩, h.content_lt⟩

/-! ## The JSON sequence -/

section Json
open JsonText

/-- Whitespace and then the byte `c`. -/
def expect (c : UInt8) (s : Bytes) : Option Bytes :=
  match skipSpaces s with
  | [] => none
  | b :: r => if b = c then some r else none

theorem expect_iff {c : UInt8} (hc : isSpace c = false) {s r : Bytes} :
    expect c s = some r ↔ ∃ w, Spaces w ∧ s = w ++ c :: r := by
  constructor
  · intro h
    obtain ⟨w, hw, hs⟩ := skipSpaces_spec s
    unfold expect at h
    split at h
    · cases h
    · rename_i b r' heq
      split at h
      · rename_i hb
        cases h
        exact ⟨w, hw, by rw [← hb, ← heq]; exact hs⟩
      · cases h
  · rintro ⟨w, hw, rfl⟩
    rw [expect, skipSpaces_append hw hc]
    exact if_pos rfl

/-- One value at the front of `t`, a part of the input `s`. -/
def readValue (s t : Bytes) : Except Unit (Option { r : Bytes // r.length < s.length }) :=
  match JsonText.skip t.length .value t with
  | none => .error ()
  | some r => if h : r.length < s.length then .ok (some ⟨r, h⟩) else .error ()

/-- The next element of a sequence: the end at `]`, a value, or an error. -/
def nextElement (first : Bool) (s : Bytes) :
    Except Unit (Option { r : Bytes // r.length < s.length }) :=
  match skipSpaces s with
  | [] => .error ()
  | b :: t =>
    if b = 0x5d then .ok none
    else if first then readValue s (b :: t)
    else if b = 0x2c then readValue s (skipSpaces t)
    else .error ()

def json : SerdeJson where
  beginSeq := expect 0x5b
  nextElement := nextElement
  endSeq := expect 0x5d

theorem readValue_ok {s t : Bytes} {r : { r : Bytes // r.length < s.length }}
    (h : readValue s t = .ok (some r)) : ∃ v, Json .value v ∧ t = v ++ r.1 := by
  unfold readValue at h
  split at h
  · cases h
  · rename_i r' hskip
    split at h
    · cases h
      exact skip_sound hskip
    · cases h

theorem readValue_ne_none (s t : Bytes) : readValue s t ≠ .ok none := by
  unfold readValue
  split
  · simp
  · split <;> simp

theorem readValue_delimited (sep : Bytes) {v r : Bytes} (hv : Json .value v) (hr : Delimited r) :
    ∃ h, readValue (sep ++ (v ++ r)) (v ++ r) = .ok (some ⟨r, h⟩) := by
  have hlen : r.length < (sep ++ (v ++ r)).length := by
    have := List.length_pos_iff.mpr (value_ne_nil hv)
    simp only [List.length_append]
    omega
  have hskip : JsonText.skip (v ++ r).length .value (v ++ r) = some r :=
    skip_complete hv _ r (by simp) (fun _ => hr)
  refine ⟨hlen, ?_⟩
  rw [readValue, hskip]
  exact dif_pos hlen

theorem json_seq : json.SeqRule where
  begins s r := expect_iff (by decide)
  ended first s := by
    obtain ⟨w, hw, hs⟩ := skipSpaces_spec s
    simp only [json]
    constructor
    · intro h
      unfold nextElement at h
      split at h
      · cases h
      · rename_i b t heq
        split at h
        · rename_i hb
          exact ⟨w, t, hw, by rw [← hb, ← heq]; exact hs⟩
        · split at h
          · exact absurd h (readValue_ne_none _ _)
          · split at h
            · exact absurd h (readValue_ne_none _ _)
            · cases h
    · rintro ⟨w', r, hw', rfl⟩
      rw [nextElement, skipSpaces_append hw' (by decide)]
      exact if_pos rfl
  sound first s r h := by
    obtain ⟨w, hw, hs⟩ := skipSpaces_spec s
    simp only [json] at h
    unfold nextElement at h
    split at h
    · cases h
    · rename_i b t heq
      rw [heq] at hs
      split at h
      · cases h
      · split at h
        · rename_i hfirst
          obtain ⟨v, hv, hvr⟩ := readValue_ok h
          exact ⟨w, v, by rw [SerdeJson.Separator, if_pos hfirst]; exact hw, hv, by rw [← hvr]; exact hs⟩
        · rename_i hfirst
          split at h
          · rename_i hb
            obtain ⟨v, hv, hvr⟩ := readValue_ok h
            obtain ⟨w', hw', ht⟩ := skipSpaces_spec t
            refine ⟨w ++ 0x2c :: w', v, ?_, hv, ?_⟩
            · rw [SerdeJson.Separator, if_neg hfirst]
              exact ⟨w, w', hw, hw', rfl⟩
            · rw [List.append_assoc, List.cons_append, ← hvr, ← ht, ← hb]
              exact hs
          · cases h
  complete first sep v r hsep hv hr := by
    obtain ⟨b, t, rfl, hb, hcomma, -, hclose, -⟩ := value_head hv
    cases first with
    | true =>
      obtain ⟨h, hread⟩ := readValue_delimited sep hv hr
      refine ⟨h, ?_⟩
      have hskip : skipSpaces (sep ++ (b :: t ++ r)) = b :: (t ++ r) := skipSpaces_append hsep hb _
      simp only [json]
      rw [nextElement, hskip]
      dsimp only
      rw [if_neg hclose, if_pos rfl]
      exact hread
    | false =>
      obtain ⟨w, w', hw, hw', rfl⟩ := hsep
      obtain ⟨h, hread⟩ := readValue_delimited (w ++ 0x2c :: w') hv hr
      refine ⟨h, ?_⟩
      have hskip : skipSpaces ((w ++ 0x2c :: w') ++ (b :: t ++ r)) =
          0x2c :: (w' ++ (b :: t ++ r)) := by
        rw [List.append_assoc]
        exact skipSpaces_append hw (by decide) _
      have hskip' : skipSpaces (w' ++ (b :: t ++ r)) = b :: t ++ r := skipSpaces_append hw' hb _
      simp only [json]
      rw [nextElement, hskip]
      dsimp only
      rw [if_neg (by decide), if_neg (by decide), if_pos rfl, hskip']
      exact hread
  ends s r := expect_iff (by decide)

end Json

/-! ## The vector -/

/-- The `n` bytes of a number. -/
def block (n v : Nat) : Block n := ⟨toBE n v, length_toBE n v⟩

def testSeed : Block 32 :=
  block 32 0x112233445566778899aabbccddeeff000f1e2d3c4b5a69788796a5b4c3d2e1f0

def testPublicKey : Block 32 :=
  block 32 0x9b58e5628f7632f23c7f6837196b2892cd217855ca961318e5950b8e849ba538

/-- `SHA-512(seed)[0..32]`. -/
def testScalar : Block 32 :=
  block 32 0x683cd62939133d434f463c517cac2b5e22c1b77338d9367361100d4c82dcdccc

/-- `SHA-512(seed)[32..64]`. -/
def testPrefix : Block 32 :=
  block 32 0xe3db1754899b5b45beb8ebfa5452fea8938f6833aba063de0a85ae6057a8ec74

def skR : Block 32 :=
  block 32 0x683cd62939133d434f463c517cac2b5e22c1b77338d9367361100d4c82dcdc4c

def pkR : Block 32 :=
  block 32 0x6ffa23f97ea11199a707e64f994c231f18bb61ee34f6fb05bbeabf4d140d0456

def bhttpRequest : Bytes :=
  toBE 32 0x0004504f5354056874747073096c6f63616c686f7374012f1e0c636f6e74656e ++
    toBE 32 0x742d74797065106170706c69636174696f6e2f6a736f6e3f7b226a736f6e7270 ++
    toBE 32 0x63223a22322e30222c226964223a312c226d6574686f64223a226574685f626c ++
    toBE 24 0x6f636b4e756d626572222c22706172616d73223a5b5d7d00

def enc : Block 32 :=
  block 32 0x2a92b7344e112cbbc2c1674b413a5a35399a978e14abc40dfd36b4affbe24264

def requestCiphertext : Bytes :=
  toBE 32 0x52d4af2e398d6dc0becaa0b25dfe53b3f0fe67aa3b8e6b6e81c3f86587cac57f ++
    toBE 32 0xac8b4de7a710b21bf4214cea0e9c1209bdd727011ed1ea903c4da26af4ddae10 ++
    toBE 32 0x9e246bd22c150e45ff9d9df55dfefcaab61a1119ad6a43a043316b5e80a4b4b1 ++
    toBE 32 0x4a27d5d9632a7d31010497683232147fbcfe426c8569ed9075071141b98a0acc ++
    toBE 8 0x085ed8050026482e

def exportSecret : Bytes :=
  toBE 32 0xc11beede82991480946911b3dda55a4a705d2a5e43467d1acafe331acb3d24f6

def bhttpResponse : Bytes :=
  toBE 32 0x0140c81e0c636f6e74656e742d74797065106170706c69636174696f6e2f6a73 ++
    toBE 32 0x6f6e287b226a736f6e727063223a22322e30222c226964223a312c2272657375 ++
    toBE 12 0x6c74223a2230783130227d00

def responseNonce : Block 32 :=
  block 32 0x0cd87274d67084caaf0e0d36c8496db7fef55fe0e125750aa608d5e20ffc2d12

/-- `HKDF-Extract(enc || response_nonce, export_secret)`. -/
def prk : Bytes := toBE 32 0xab106b41379b8f2372d6180feb8fe0922ce89b8f297f1cd031110e8a50f6de69

def aeadKey : Bytes := toBE 32 0xbabd50e320be0320fd5055c2d51acc847ccd5cc0fd0197c41592669a5d5c8642

def aeadNonce : Bytes := toBE 12 0x031879ac297535b27a496e76

def responseCiphertext : Bytes :=
  toBE 32 0xf7bc127ee6055b8ca0e8a6639db6781ae18f494e8109c70a66da626596242ac0 ++
    toBE 32 0xec1750e8567fc204dcaf03e12e52066ff95ed371750eb3c8d7efe4e93ac13c57 ++
    toBE 28 0xf7422466a08e3149874feb5e5c252cd0fffb348006c7fb963ea2ae6c

/-- `encapsulated_request`. -/
def encapsulatedRequest : Bytes :=
  toBE 7 0x00002000010002 ++ (enc.bytes ++ requestCiphertext)

/-- `encapsulated_response`. -/
def encapsulatedResponse : Bytes := responseNonce.bytes ++ responseCiphertext

/-- The chain id of the signatures below. -/
def chainId : Bytes := ascii "42161"

/-- Their time. -/
def timestampMs : UInt64 := 1700000000000

/-- The body of the vector's inner request. -/
def rpcRequest : Bytes :=
  ascii "\x7b\"jsonrpc\":\"2.0\",\"id\":1,\"method\":\"eth_blockNumber\",\"params\":[]\x7d"

/-- The body of the vector's inner response. -/
def rpcResponse : Bytes :=
  ascii "\x7b\"jsonrpc\":\"2.0\",\"id\":1,\"result\":\"0x10\"\x7d"

/-- The same body compressed with gzip. -/
def gzippedResponse : Bytes :=
  toBE 32 0x1f8b0800000000000203ab56ca2acecf2b2a4856b25232d23350d251ca4c51b2 ++
    toBE 27 0x32d4512a4a2d2ecd29018a1a54181a28d502001ad5be4528000000

/-- SHA-256 of what is signed. -/
def digests : List (Bytes × Bytes) :=
  [(chainId, toBE 32 0x936a20303015aca26be61e6782c83b1de6b4b25f3dbdf555a97d85e0477a53a9),
    (encapsulatedRequest, toBE 32 0x6ea2b9e8169babeaf7b6570d6f2b8ff57149269be11700b0c5d668721151c82b),
    (encapsulatedResponse, toBE 32 0xa2f1c3c31fef00a9935e815256a443bcdabd6c347869b2f93a4fced909047aec),
    (rpcRequest, toBE 32 0xe9fe48cb1f0588638dfe9366943d6e4578f4af468dd9111cea377fb49c605e16),
    (rpcResponse, toBE 32 0x1cbad5965a1b70f5acb781e267c4a7f1d32501dbcece953f98027ec0d3c68694),
    (gzippedResponse, toBE 32 0x2f45eebfdcc640372aa7c5d4b59d96355c39b2932fdf6d11bfd5e40b8e099584)]

/-- The value a table holds for a key, nothing when it holds none. -/
def lookup (table : List (Bytes × Bytes)) (key : Bytes) : Bytes :=
  ((table.find? (fun e => e.1 = key)).map Prod.snd).getD []

def sha256 (bs : Bytes) : Block 32 := Block.padded 32 (lookup digests bs)

/-- The pre-image of a signature at `timestampMs`. -/
def preImage (request response : Bytes) : Bytes :=
  (sha256 chainId).bytes ++ ((sha256 request).bytes ++ ((sha256 response).bytes ++ toLE timestampMs))

/-- The signatures the test seed makes. -/
def signatures : List (Bytes × Bytes) :=
  [(preImage encapsulatedRequest encapsulatedResponse,
      toBE 32 0xf055b4c20c23b4bae4be8f550d8263ece95bda39f6c9e6f0d55c29bf2c9e8ceb ++
        toBE 32 0x3dd8aba710b8b1f11055d57e96d00fc4fd8bb171393a2a73a42cfe13ad145c07),
    (preImage rpcRequest rpcResponse,
      toBE 32 0xbf17602854d42596608782c4c929e11ffec3ba77fd8be2a65b6cfb58d8af2b4b ++
        toBE 32 0x5ebb913cefea9d5f2bbc02fa6d9a70e418cb9d0a43d0681d343092cab159f00c),
    (preImage rpcRequest gzippedResponse,
      toBE 32 0xed5f221175deee7f836c8cf4e831c30bf58c66269344c0777c58ab4c339b1e0d ++
        toBE 32 0xda66418bb357093d43996c76bd809af55c581109754e9de04199260c1a7dbe0d)]

/-! ## The cryptography -/

/-- An AEAD known on one plaintext; any other plaintext is followed by a zero tag. -/
structure KnownAead where
  plain : Bytes
  cipher : Bytes
  size : cipher.length = plain.length + 16
  tag : cipher.drop plain.length ≠ List.replicate 16 0

namespace KnownAead
variable (k : KnownAead)

def wrap (p : Bytes) : Bytes := if p = k.plain then k.cipher else p ++ List.replicate 16 0

def unwrap (c : Bytes) : Option Bytes :=
  if c = k.cipher then some k.plain
  else if c.drop (c.length - 16) = List.replicate 16 0 then some (c.take (c.length - 16))
  else none

theorem length_wrap (p : Bytes) : (k.wrap p).length = p.length + 16 := by
  unfold wrap
  split
  · rename_i h
    rw [h]
    exact k.size
  · simp

theorem unwrap_wrap (p : Bytes) : k.unwrap (k.wrap p) = some p := by
  by_cases h : p = k.plain
  · rw [wrap, if_pos h, unwrap, if_pos rfl, h]
  · have hlen : (p ++ List.replicate 16 (0 : UInt8)).length - 16 = p.length := by simp
    have hne : p ++ List.replicate 16 0 ≠ k.cipher := by
      intro hc
      have hp : p.length = k.plain.length := by
        have := k.size
        rw [← hc, List.length_append, List.length_replicate] at this
        omega
      apply k.tag
      rw [← hc, ← hp, List.drop_left]
    rw [wrap, if_neg h, unwrap, if_neg hne, hlen, List.drop_left, List.take_left, if_pos rfl]

end KnownAead

def requestAead : KnownAead where
  plain := bhttpRequest
  cipher := requestCiphertext
  size := by decide +kernel
  tag := by decide

def responseAead : KnownAead where
  plain := bhttpResponse
  cipher := responseCiphertext
  size := by decide
  tag := by decide

/-- The bytes as a key, when there are 32 of them. -/
def keyFromBytes (bs : Bytes) : Option (Block 32) :=
  if h : bs.length = 32 then some ⟨bs, h⟩ else none

theorem keyFromBytes_bytes (b : Block 32) : keyFromBytes b.bytes = some b := dif_pos b.size

/-- SHA-512 of the test seed; other strings are filled up. -/
def sha512 (bs : Bytes) : Block 64 :=
  if bs = testSeed.bytes then Block.padded 64 (testScalar.bytes ++ testPrefix.bytes)
  else Block.padded 64 bs

/-- The points are the integers, with the real encodings of the vector's point. -/
def compress (point : ℤ) : Block 32 :=
  if point = clampedScalar (littleEndian testScalar.bytes) then testPublicKey
  else block 32 point.toNat

def toMontgomery (pk : Block 32) : Block 32 := if pk = testPublicKey then pkR else pk

def curve : KeyCurve where
  Point := ℤ
  base := 1
  compress := compress
  uCoord point := toMontgomery (compress point)

def kem : Kem where
  PrivateKey := Block 32
  PublicKey := Block 32
  EncappedKey := Block 32
  privateKeyFromBytes := keyFromBytes
  encappedKeyFromBytes := keyFromBytes
  encappedKeyToBytes := id
  skToPk sk := toMontgomery (compress (clampedScalar (littleEndian sk.bytes)))
  publicKeyToBytes := id

def receiver : ReceiverContext :=
  ⟨fun _ n => some (Block.padded n exportSecret), fun ct _ => requestAead.unwrap ct⟩

def sender : SenderContext :=
  ⟨fun _ n => some (Block.padded n exportSecret), fun pt _ => some (requestAead.wrap pt)⟩

/-- HPKE of the vector; the randomness of the sender is its encapsulated key. -/
def hpke : Hpke kem where
  setupReceiver _ _ _ := some receiver
  setupSender _ _ rng := some (Block.padded 32 rng, sender)

theorem hpke_matches : hpke.MatchRule where
  setup sk info rng enc snd h := by
    cases h
    refine ⟨_, rfl, rfl, ?_, ?_, fun label n _ => ⟨_, rfl⟩⟩
    · rintro pt aad ct ⟨⟩
      exact requestAead.unwrap_wrap pt
    · rintro pt aad ct ⟨⟩
      exact requestAead.length_wrap pt
  encapped enc := keyFromBytes_bytes enc

def hkdf : Hkdf where
  extract _ _ := prk
  expand _ info n :=
    if n ≤ 255 * 32 then some (Block.padded n (if info = ascii "key" then aeadKey else aeadNonce))
    else none

theorem hkdf_expands : hkdf.ExpandRule := fun _ _ _ h => ⟨_, if_pos h⟩

def aes256Gcm : Gcm where
  Cipher := Block 32
  Nonce := Block 12
  keySize := 32
  nonceSize := 12
  tagSize := 16
  limit := 2 ^ 36
  newFromSlice := keyFromBytes
  nonceTryFrom bs := if h : bs.length = 12 then some ⟨bs, h⟩ else none
  encryptInOut _ _ _ buf :=
    (⟨(responseAead.wrap buf).take buf.length, by
        rw [List.length_take, responseAead.length_wrap]
        omega⟩,
      some ⟨(responseAead.wrap buf).drop buf.length, by
        rw [List.length_drop, responseAead.length_wrap]
        omega⟩)
  decrypt _ _ _ ct := responseAead.unwrap ct

theorem aes256Gcm_aead : aes256Gcm.AeadRule where
  key k h := ⟨_, dif_pos h⟩
  nonce n h := ⟨_, dif_pos h⟩
  succeeds _ _ _ _ _ := ⟨_, rfl⟩
  undone c n aad p tag h := by
    cases h
    show responseAead.unwrap ((responseAead.wrap p).take p.length ++
      (responseAead.wrap p).drop p.length) = some p
    rw [List.take_append_drop, responseAead.unwrap_wrap]

def ed25519 : Ed25519 where
  verifyingKey seed :=
    compress (clampedScalar (littleEndian ((sha512 seed.bytes).bytes.take 32)))
  sign _ msg := Block.padded 64 (lookup signatures msg)
  verify _ msg sig := sig = Block.padded 64 (lookup signatures msg)
  toScalarBytes seed := ⟨(sha512 seed.bytes).bytes.take 32, by simp⟩
  toMontgomery := toMontgomery

theorem ed25519_signs : ed25519.SignRule := fun _ _ => decide_eq_true rfl

/-- **The crates of the vector.** -/
def crates : Crates where
  http := http
  bhttp := bhttp
  json := json
  kem := kem
  hpkeAesGcm256 := hpke
  hkdf := hkdf
  aes256Gcm := aes256Gcm
  aes256Gcm_keySize := rfl
  sha256 := sha256
  ed25519 := ed25519

theorem curve_keys : CurveRule crates curve sha512 where
  scalarBytes _ := rfl
  verifyingKey _ := congrArg compress (nsmul_one _).symm
  toMontgomery _ := rfl
  privateKey secret := ⟨secret, keyFromBytes_bytes secret,
    congrArg (fun point => toMontgomery (compress point)) (nsmul_one _).symm⟩
  publicKey := Function.injective_id

/-! ## The exchange -/

def signer : SigningState crates where
  signingKey := testSeed
  kemSecret := skR
  chainId := chainId
  chainIdHash := sha256 chainId
  pubkeyHex := prefixedHex testPublicKey.bytes
  kemSecret_eq := by decide
  kem_checked := by decide
  chainIdHash_eq := rfl
  pubkeyHex_eq := by decide

/-- A sidecar in front of a node on the same host, without a body cap. -/
def upstream : UpstreamClient :=
  ⟨⟨some (ascii "http"), some (ascii "127.0.0.1:8545"), ⟨ascii "/", PathAndQuery.noQuery⟩⟩, none⟩

/-- A body that arrives in one frame. -/
def bodyOf (bs : Bytes) : BodyStream := ⟨[(0, .data bs)], 0, 0⟩

@[simp] theorem content_bodyOf (bs : Bytes) : (bodyOf bs).content = bs := List.append_nil bs

theorem within_bodyOf {cap : Nat} {bs : Bytes} (h : bs.length ≤ cap) : (bodyOf bs).Within cap :=
  ⟨(congrArg List.length (content_bodyOf bs)).trans_le h, rfl⟩

/-- A response with status 200 and the given fields and body. -/
def answerWith (fields : List (HeaderName × HeaderValue)) (body : Bytes) : Incoming :=
  ⟨.ok, MultiMap.empty.appendAll fields, bodyOf body⟩

@[simp] theorem content_answerWith (fields : List (HeaderName × HeaderValue)) (body : Bytes) :
    (answerWith fields body).body.content = body := content_bodyOf body

/-- The node answers after 5 ms. -/
def envWith (resp : Incoming) : Env where
  upstream _ := (5, some resp)
  nonce := some responseNonce
  preCheckClock := 1700000000000 * 1000000
  signClock := 1700000000000 * 1000000

/-- The node of the vector. -/
def env : Env :=
  envWith (answerWith [(.contentType, ascii "application/json")] rpcResponse)

/-- The limits a test server runs with. -/
def config : ConfidentialConfig := ⟨8 * 1024 * 1024, usizeMax, 1000, 25000⟩

/-- A `POST` of the body to a path. -/
def post (path : String) (body : Bytes) : Request :=
  ⟨ascii "POST", ⟨none, none, ⟨ascii path, PathAndQuery.noQuery⟩⟩, MultiMap.empty, bodyOf body⟩

@[simp] theorem content_post (path : String) (body : Bytes) :
    (post path body).body.content = body := content_bodyOf body

/-- The inner request of the vector. -/
def innerRequest : InnerRequest :=
  ⟨ascii "POST", ascii "/", some (ascii "application/json"), [], rpcRequest⟩

theorem decoded : decodeInner crates bhttpRequest = .ok innerRequest := by decide +kernel

/-- The message relayed to its sender. -/
def relayed : BinaryHttp.Message := responseMessage 200 [ascii "application/json"] rpcResponse

theorem relays : (callUpstream crates upstream config env innerRequest).result =
    some (.ok (200, relayed)) := by decide +kernel

end VrpcSidecar.KnownAnswers
