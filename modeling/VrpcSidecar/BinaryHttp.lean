import VrpcSidecar.VarintFraming

/-! # Known-length Binary HTTP

The known-length messages of RFC 9292, as a grammar and as a reader.  A request
is four length-prefixed strings of control data followed by a header section, the
content and a trailer section, each length-prefixed; sections missing at the end
of the input count as empty, and bytes after the last section are padding.  A
field section is a sequence of name and value strings, the names not empty,
that fills it exactly.

Every grammar here allows any width for every length; the reader accepts exactly
the grammar (`readStrings_iff`, `readSections_iff`, `readFields_iff`) and returns
the strings it describes.
-/
namespace VrpcSidecar.BinaryHttp

/-! ## Strings and sections -/

/-- `s` is the given strings, each length-prefixed, followed by `rest`. -/
inductive Strings : List Bytes → Bytes → Bytes → Prop where
  | nil (rest : Bytes) : Strings [] rest rest
  | cons {str enc s rest : Bytes} {strs : List Bytes} (h : Prefixed str enc)
      (t : Strings strs s rest) : Strings (str :: strs) (enc ++ s) rest

/-- `s` is the given sections, each length-prefixed, followed by `padding`; the
last of them may be missing at the end of the input, and are then empty. -/
inductive Sections : List Bytes → Bytes → Bytes → Prop where
  | done (padding : Bytes) : Sections [] padding padding
  | absent (n : Nat) : Sections (List.replicate (n + 1) []) [] []
  | present {sec enc s padding : Bytes} {secs : List Bytes} (h : Prefixed sec enc)
      (t : Sections secs s padding) : Sections (sec :: secs) (enc ++ s) padding

/-- Read `n` length-prefixed strings. -/
def readStrings : Nat → Bytes → Option (List Bytes × Bytes)
  | 0, s => some ([], s)
  | n + 1, s =>
    match readPrefixed s with
    | .got str rest => (readStrings n rest).map (fun r => (str :: r.1, r.2))
    | _ => none

/-- Read `n` sections, those missing at the end of the input as empty. -/
def readSections : Nat → Bytes → Option (List Bytes × Bytes)
  | 0, s => some ([], s)
  | n + 1, s =>
    match readPrefixed s with
    | .got sec rest => (readSections n rest).map (fun r => (sec :: r.1, r.2))
    | .eof => some (List.replicate (n + 1) [], [])
    | .truncated => none

theorem Strings.read {strs : List Bytes} {s rest : Bytes} (h : Strings strs s rest) :
    readStrings strs.length s = some (strs, rest) := by
  induction h with
  | nil rest => rfl
  | cons hp t ih =>
    rw [List.length_cons, readStrings, hp.read]
    exact congrArg (Option.map _) ih

theorem strings_of_read {n : Nat} {strs : List Bytes} {s rest : Bytes}
    (h : readStrings n s = some (strs, rest)) : strs.length = n ∧ Strings strs s rest := by
  induction n generalizing s strs with
  | zero =>
    cases h
    exact ⟨rfl, Strings.nil _⟩
  | succ n ih =>
    rw [readStrings] at h
    split at h
    · rename_i str tail hr
      obtain ⟨⟨strs', rest'⟩, hrec, he⟩ := Option.map_eq_some_iff.mp h
      cases he
      obtain ⟨enc, hp, rfl⟩ := prefixed_of_read hr
      obtain ⟨hlen, hstrs⟩ := ih hrec
      exact ⟨by simp [hlen], Strings.cons hp hstrs⟩
    · cases h

/-- The reader of mandatory strings accepts exactly the grammar. -/
theorem readStrings_iff {n : Nat} {strs : List Bytes} {s rest : Bytes} :
    readStrings n s = some (strs, rest) ↔ strs.length = n ∧ Strings strs s rest :=
  ⟨strings_of_read, fun ⟨hn, h⟩ => hn ▸ h.read⟩

theorem readPrefixed_nil : readPrefixed [] = .eof := rfl

theorem Sections.read {secs : List Bytes} {s padding : Bytes} (h : Sections secs s padding) :
    readSections secs.length s = some (secs, padding) := by
  induction h with
  | done padding => rfl
  | absent n => rw [List.length_replicate, readSections, readPrefixed_nil]
  | present hp t ih =>
    rw [List.length_cons, readSections, hp.read]
    exact congrArg (Option.map _) ih

theorem sections_of_read {n : Nat} {secs : List Bytes} {s padding : Bytes}
    (h : readSections n s = some (secs, padding)) :
    secs.length = n ∧ Sections secs s padding := by
  induction n generalizing s secs with
  | zero =>
    cases h
    exact ⟨rfl, Sections.done _⟩
  | succ n ih =>
    rw [readSections] at h
    split at h
    · rename_i sec tail hr
      obtain ⟨⟨secs', padding'⟩, hrec, he⟩ := Option.map_eq_some_iff.mp h
      cases he
      obtain ⟨enc, hp, rfl⟩ := prefixed_of_read hr
      obtain ⟨hlen, hsecs⟩ := ih hrec
      exact ⟨by simp [hlen], Sections.present hp hsecs⟩
    · rename_i hr
      obtain rfl := readPrefixed_eof hr
      cases h
      exact ⟨by simp, Sections.absent n⟩
    · cases h

/-- The reader of optional sections accepts exactly the grammar. -/
theorem readSections_iff {n : Nat} {secs : List Bytes} {s padding : Bytes} :
    readSections n s = some (secs, padding) ↔ secs.length = n ∧ Sections secs s padding :=
  ⟨sections_of_read, fun ⟨hn, h⟩ => hn ▸ h.read⟩

/-- No section is longer than a length that can be written. -/
theorem Sections.length_lt {secs : List Bytes} {s padding : Bytes} (h : Sections secs s padding) :
    ∀ sec ∈ secs, sec.length < 2 ^ 62 := by
  induction h with
  | done padding => simp
  | absent n =>
    intro sec hsec
    rw [List.eq_of_mem_replicate hsec]
    simp
  | present hp t ih =>
    intro sec' hsec'
    rcases List.mem_cons.mp hsec' with rfl | hmem
    · obtain ⟨w, hlt, -⟩ := hp
      exact hlt.trans_le (Nat.pow_le_pow_right (by decide) w.bits_le)
    · exact ih sec' hmem

/-! ## Field sections -/

/-- One field of a section. -/
structure Field where
  name : Bytes
  value : Bytes
  deriving DecidableEq

/-- `sec` is exactly the given fields: each a non-empty name and a value. -/
inductive Fields : List Field → Bytes → Prop where
  | nil : Fields [] []
  | cons {name value en ev sec : Bytes} {fs : List Field} (hne : name ≠ [])
      (hn : Prefixed name en) (hv : Prefixed value ev) (t : Fields fs sec) :
      Fields (⟨name, value⟩ :: fs) (en ++ (ev ++ sec))

/-- Read the fields of a section; `fuel` bounds the recursion, and every field
takes at least one byte of it. -/
def readFieldsAux : Nat → Bytes → Option (List Field)
  | _, [] => some []
  | 0, _ :: _ => none
  | fuel + 1, b :: s =>
    match readPrefixed (b :: s) with
    | .got name rest =>
      if name = [] then none
      else
        match readPrefixed rest with
        | .got value rest' => (readFieldsAux fuel rest').map (fun fs => ⟨name, value⟩ :: fs)
        | _ => none
    | _ => none

/-- Read the fields of a section. -/
def readFields (sec : Bytes) : Option (List Field) := readFieldsAux sec.length sec

theorem Fields.readAux {fs : List Field} {sec : Bytes} (h : Fields fs sec) :
    ∀ fuel, sec.length ≤ fuel → readFieldsAux fuel sec = some fs := by
  induction h with
  | nil => intro fuel _; cases fuel <;> rfl
  | @cons name value en ev sec fs hne hn hv t ih =>
    intro fuel hfuel
    obtain ⟨b, en', rfl⟩ := List.exists_cons_of_ne_nil hn.ne_nil
    have hvlen : 0 < ev.length := List.length_pos_iff.mpr hv.ne_nil
    cases fuel with
    | zero => simp at hfuel
    | succ fuel =>
      have hrest : readFieldsAux fuel sec = some fs := ih fuel (by simp at hfuel; omega)
      have hread := hn.read (ev ++ sec)
      rw [List.cons_append] at hread ⊢
      rw [readFieldsAux, hread]
      dsimp only
      rw [if_neg hne, hv.read]
      exact congrArg (Option.map _) hrest

theorem fields_of_readAux {fuel : Nat} {sec : Bytes} {fs : List Field}
    (h : readFieldsAux fuel sec = some fs) : Fields fs sec := by
  induction fuel generalizing sec fs with
  | zero =>
    cases sec with
    | nil => cases h; exact Fields.nil
    | cons b s => cases h
  | succ fuel ih =>
    cases sec with
    | nil => cases h; exact Fields.nil
    | cons b s =>
      rw [readFieldsAux] at h
      split at h
      · rename_i name rest hn
        split at h
        · cases h
        · rename_i hne
          split at h
          · rename_i value rest' hv
            obtain ⟨fs', hrec, rfl⟩ := Option.map_eq_some_iff.mp h
            obtain ⟨en, hpn, hs⟩ := prefixed_of_read hn
            obtain ⟨ev, hpv, hs'⟩ := prefixed_of_read hv
            rw [hs, hs']
            exact Fields.cons hne hpn hpv (ih hrec)
          · cases h
      · cases h

/-- The field reader accepts exactly the sections that fields fill. -/
theorem readFields_iff {sec : Bytes} {fs : List Field} : readFields sec = some fs ↔ Fields fs sec :=
  ⟨fields_of_readAux, fun h => h.readAux sec.length (Nat.le_refl _)⟩

/-! ## Messages -/

/-- Control data: the request line, or the status of a final response. -/
inductive Control where
  | request (method scheme authority path : Bytes)
  | response (status : Nat)
  deriving DecidableEq

/-- A Binary HTTP message without informational responses. -/
structure Message where
  control : Control
  header : List Field
  content : Bytes
  trailer : List Field
  deriving DecidableEq

/-- `s` is a known-length request after its framing indicator, with padding. -/
def IsRequest (s : Bytes) (m : Message) (padding : Bytes) : Prop :=
  ∃ method scheme authority path hsec tsec tail,
    m.control = .request method scheme authority path ∧
    Strings [method, scheme, authority, path] s tail ∧
    Sections [hsec, m.content, tsec] tail padding ∧
    Fields m.header hsec ∧ Fields m.trailer tsec

/-- The slices of a known-length request: the four strings of control data, the
three sections, and what is left. -/
def readSlices (s : Bytes) : Option (List Bytes × List Bytes × Bytes) := do
  let (strs, tail) ← readStrings 4 s
  let (secs, padding) ← readSections 3 tail
  return (strs, secs, padding)

theorem readSlices_iff {s padding : Bytes} {strs secs : List Bytes} :
    readSlices s = some (strs, secs, padding) ↔
      ∃ tail, readStrings 4 s = some (strs, tail) ∧ readSections 3 tail = some (secs, padding) := by
  simp only [readSlices, Option.bind_eq_bind, Option.bind_eq_some_iff, Prod.exists,
    Option.pure_def, Option.some.injEq, Prod.mk.injEq]
  constructor
  · rintro ⟨strs', tail, hs, secs', p', hp, rfl, rfl, rfl⟩
    exact ⟨tail, hs, hp⟩
  · rintro ⟨tail, hs, hp⟩
    exact ⟨strs, tail, hs, secs, padding, hp, rfl, rfl, rfl⟩

/-- Read a known-length request after its framing indicator. -/
def readRequest (s : Bytes) : Option Message :=
  match readSlices s with
  | some ([method, scheme, authority, path], [hsec, content, tsec], _) => do
    let header ← readFields hsec
    let trailer ← readFields tsec
    return ⟨.request method scheme authority path, header, content, trailer⟩
  | _ => none

/-- **The request reader accepts exactly the known-length requests.** -/
theorem readRequest_iff {s : Bytes} {m : Message} :
    readRequest s = some m ↔ ∃ padding, IsRequest s m padding := by
  constructor
  · intro h
    unfold readRequest at h
    split at h
    · rename_i method scheme authority path hsec content tsec padding hslices
      obtain ⟨tail, hstr, hsec'⟩ := readSlices_iff.mp hslices
      simp only [Option.bind_eq_bind, Option.bind_eq_some_iff, Option.pure_def,
        Option.some.injEq] at h
      obtain ⟨header, hh, trailer, ht, rfl⟩ := h
      exact ⟨padding, method, scheme, authority, path, hsec, tsec, tail, rfl,
        (readStrings_iff.mp hstr).2, (readSections_iff.mp hsec').2,
        readFields_iff.mp hh, readFields_iff.mp ht⟩
    · cases h
  · rintro ⟨padding, method, scheme, authority, path, hsec, tsec, tail, hc, hstr, hsecs, hh, ht⟩
    obtain ⟨control, header, content, trailer⟩ := m
    dsimp only at hc hsecs hh ht
    subst hc
    have hslices : readSlices s =
        some ([method, scheme, authority, path], [hsec, content, tsec], padding) :=
      readSlices_iff.mpr ⟨tail, readStrings_iff.mpr ⟨rfl, hstr⟩, readSections_iff.mpr ⟨rfl, hsecs⟩⟩
    simp [readRequest, hslices, readFields_iff.mpr hh, readFields_iff.mpr ht]

/-- `s` is a known-length response with its framing indicator: the indicator 1, a
final status, and the sections, in any widths. -/
def IsResponse (s : Bytes) (status : Nat) (header : List Field) (content : Bytes)
    (trailer : List Field) : Prop :=
  ∃ wf ws : VarintWidth, ∃ hsec tsec tail,
    status < 2 ^ ws.bits ∧ s = encodeVarint wf 1 ++ (encodeVarint ws status ++ tail) ∧
    Sections [hsec, content, tsec] tail [] ∧ Fields header hsec ∧ Fields trailer tsec

/-- Read a known-length response after its framing indicator.  Statuses 100 to 199
are informational: each comes with its own field section, and the final response
follows. -/
def readFinal : Nat → Bytes → Option Message
  | 0, _ => none
  | fuel + 1, s =>
    match readVarint s with
    | .got status rest =>
      if 100 ≤ status ∧ status < 200 then
        match readPrefixed rest with
        | .got sec rest' => (readFields sec).bind (fun _ => readFinal fuel rest')
        | _ => none
      else
        match readSections 3 rest with
        | some ([hsec, content, tsec], _) => do
          let header ← readFields hsec
          let trailer ← readFields tsec
          return ⟨.response status, header, content, trailer⟩
        | _ => none
    | _ => none

/-- Read a known-length response. -/
def readResponse (s : Bytes) : Option Message :=
  match readVarint s with
  | .got 1 rest => readFinal (rest.length + 1) rest
  | _ => none

/-- **The response reader reads every encoding of a final response back.** -/
theorem IsResponse.read {s : Bytes} {status : Nat} {header trailer : List Field} {content : Bytes}
    (h : IsResponse s status header content trailer) (hfinal : ¬ (100 ≤ status ∧ status < 200)) :
    readResponse s = some ⟨.response status, header, content, trailer⟩ := by
  obtain ⟨wf, ws, hsec, tsec, tail, hlt, rfl, hsecs, hh, ht⟩ := h
  have hone : 1 < 2 ^ wf.bits := Nat.one_lt_two_pow (by simp [VarintWidth.bits])
  have hread : readSections 3 tail = some ([hsec, content, tsec], []) :=
    readSections_iff.mpr ⟨rfl, hsecs⟩
  rw [readResponse, readVarint_encode hone]
  show readFinal _ _ = _
  rw [readFinal, readVarint_encode hlt]
  dsimp only
  rw [if_neg hfinal, hread]
  simp [readFields_iff.mpr hh, readFields_iff.mpr ht]

/-! ## Writing -/

/-- The section a writer produces from a list of fields. -/
def writeFields (fs : List Field) : Bytes :=
  fs.flatMap (fun f => writePrefixed f.name ++ writePrefixed f.value)

/-- The response a writer produces: narrowest widths, every section present. -/
def writeResponse (status : Nat) (header : List Field) (content : Bytes) (trailer : List Field) :
    Bytes :=
  encodeVarint .one 1 ++ (encodeVarint (VarintWidth.shortest status) status ++
    (writePrefixed (writeFields header) ++ (writePrefixed content ++
      writePrefixed (writeFields trailer))))

/-- Every length written for the message is below `2 ^ 62`, and no name is empty. -/
structure Representable (header : List Field) (content : Bytes) : Prop where
  names : ∀ f ∈ header, f.name ≠ []
  header_lt : (writeFields header).length < 2 ^ 62
  content_lt : content.length < 2 ^ 62

theorem length_lt_writePrefixed (str : Bytes) : str.length < (writePrefixed str).length := by
  simp [writePrefixed]

theorem fields_writeFields {fs : List Field} (hne : ∀ f ∈ fs, f.name ≠ [])
    (hlt : (writeFields fs).length < 2 ^ 62) : Fields fs (writeFields fs) := by
  induction fs with
  | nil => exact Fields.nil
  | cons f fs ih =>
    have hsplit : writeFields (f :: fs) =
        writePrefixed f.name ++ (writePrefixed f.value ++ writeFields fs) := by
      simp [writeFields]
    rw [hsplit] at hlt ⊢
    have hn := length_lt_writePrefixed f.name
    have hv := length_lt_writePrefixed f.value
    simp only [List.length_append] at hlt
    exact Fields.cons (hne f List.mem_cons_self) (prefixed_writePrefixed (by omega))
      (prefixed_writePrefixed (by omega))
      (ih (fun g hg => hne g (List.mem_cons_of_mem _ hg)) (by omega))

/-- What the writer produces is an encoding of the response. -/
theorem isResponse_writeResponse {status : Nat} {header : List Field} {content : Bytes}
    (hs : status < 2 ^ 62) (h : Representable header content) :
    IsResponse (writeResponse status header content []) status header content [] := by
  refine ⟨.one, VarintWidth.shortest status, writeFields header, [],
    writePrefixed (writeFields header) ++ (writePrefixed content ++ writePrefixed []),
    VarintWidth.lt_shortest hs, rfl, ?_, fields_writeFields h.names h.header_lt, Fields.nil⟩
  refine Sections.present (prefixed_writePrefixed h.header_lt)
    (Sections.present (prefixed_writePrefixed h.content_lt) ?_)
  have hnil : Prefixed [] (writePrefixed []) := prefixed_writePrefixed (by simp)
  simpa using Sections.present hnil (Sections.done [])

/-- What one writer wrote is told apart from what follows it. -/
theorem writePrefixed_append_inj {str str' rest enc' rest' : Bytes} (h : str.length < 2 ^ 62)
    (h' : Prefixed str' enc') (heq : writePrefixed str ++ rest = enc' ++ rest') :
    str = str' ∧ rest = rest' := by
  have hread := (prefixed_writePrefixed h).read rest
  rw [heq, h'.read rest'] at hread
  injection hread with hstr hrest
  exact ⟨hstr.symm, hrest.symm⟩

/-- **A written section encodes the fields it was written from, and nothing else**; with a
name that is empty it encodes nothing. -/
theorem fields_writeFields_iff {fs gs : List Field} (hlt : (writeFields fs).length < 2 ^ 62) :
    Fields gs (writeFields fs) ↔ gs = fs ∧ ∀ f ∈ fs, f.name ≠ [] := by
  constructor
  · intro h
    induction fs generalizing gs with
    | nil =>
      generalize hsec : writeFields [] = sec at h
      cases h with
      | nil => exact ⟨rfl, fun f hf => absurd hf List.not_mem_nil⟩
      | cons _ hn _ _ => exact absurd (List.append_eq_nil_iff.mp hsec.symm).1 hn.ne_nil
    | cons f fs ih =>
      have hsplit : writeFields (f :: fs) =
          writePrefixed f.name ++ (writePrefixed f.value ++ writeFields fs) := by
        simp [writeFields]
      have hname := length_lt_writePrefixed f.name
      have hvalue := length_lt_writePrefixed f.value
      rw [hsplit] at h hlt
      simp only [List.length_append] at hlt
      generalize hsec : writePrefixed f.name ++ (writePrefixed f.value ++ writeFields fs) = sec at h
      cases h with
      | nil =>
        have hnil := congrArg List.length hsec
        simp only [List.length_append, List.length_nil] at hnil
        omega
      | cons hne hn hv ht =>
        obtain ⟨hfname, hrest⟩ := writePrefixed_append_inj (by omega) hn hsec
        obtain ⟨hfvalue, hrest⟩ := writePrefixed_append_inj (by omega) hv hrest
        rw [← hrest] at ht
        obtain ⟨rfl, hnames⟩ := ih (by omega) ht
        subst hfname hfvalue
        refine ⟨rfl, fun f' hf' => ?_⟩
        rcases List.mem_cons.mp hf' with rfl | hf'
        · exact hne
        · exact hnames f' hf'
  · rintro ⟨rfl, hnames⟩
    exact fields_writeFields hnames hlt

/-- The request a writer produces after the framing indicator: narrowest widths, every
section present and no trailers. -/
def writeRequest (method scheme authority path : Bytes) (header : List Field) (content : Bytes) :
    Bytes :=
  writePrefixed method ++ (writePrefixed scheme ++ (writePrefixed authority ++
    (writePrefixed path ++ (writePrefixed (writeFields header) ++ (writePrefixed content ++
      writePrefixed [])))))

/-- The slices of a written request. -/
theorem readSlices_writeRequest {method scheme authority path content : Bytes}
    {header : List Field} (hm : method.length < 2 ^ 62) (hs : scheme.length < 2 ^ 62)
    (ha : authority.length < 2 ^ 62) (hp : path.length < 2 ^ 62)
    (hh : (writeFields header).length < 2 ^ 62) (hc : content.length < 2 ^ 62) :
    readSlices (writeRequest method scheme authority path header content) =
      some ([method, scheme, authority, path], [writeFields header, content, []], []) := by
  have hnil : Prefixed [] (writePrefixed []) := prefixed_writePrefixed (by simp)
  have hsecs : Sections [writeFields header, content, []]
      (writePrefixed (writeFields header) ++ (writePrefixed content ++ writePrefixed [])) [] := by
    refine Sections.present (prefixed_writePrefixed hh)
      (Sections.present (prefixed_writePrefixed hc) ?_)
    simpa using Sections.present hnil (Sections.done [])
  have hstrs : Strings [method, scheme, authority, path]
      (writeRequest method scheme authority path header content) _ :=
    .cons (prefixed_writePrefixed hm) (.cons (prefixed_writePrefixed hs)
      (.cons (prefixed_writePrefixed ha) (.cons (prefixed_writePrefixed hp) (.nil _))))
  exact readSlices_iff.mpr
    ⟨_, readStrings_iff.mpr ⟨rfl, hstrs⟩, readSections_iff.mpr ⟨rfl, hsecs⟩⟩

end VrpcSidecar.BinaryHttp
