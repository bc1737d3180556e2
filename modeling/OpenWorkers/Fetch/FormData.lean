import OpenWorkers.Lib.Multipart
import OpenWorkers.Lib.Text

/-!
# A FormData as the body of a fetch

`__serializeFormData` writes the entries of a `FormData` as multipart/form-data, and
`__encodeFetchBody` sends the bytes with the boundary in the `Content-Type`.  A string is one of
JavaScript, a list of 16 bit units.  The names, the file names and the types go into the header
lines as they are; nothing in them is escaped or refused.

`parse` is the other side and not from the source: the parts of the body (`Multipart.read`), with
their texts decoded.  It gives an entry as a `Field`.  `Entry.field` is the entry as it was put in,
`Entry.sent` the entry with the defaults that the code puts for a file name or a type that is
missing.  The body parses back to the entries if no name or file name has a quote or a line break,
no type a line break or blanks at an end, no string a lone surrogate, and no default was put; and
only then (`formData_round_trip`).  A name that is not so can pass a string off as a file, give
the body of another entry, or add a part (`name_forges_parts`).
-/

namespace OpenWorkers.Fetch

open List Option
open Utf16 (isSurrogate wellFormed)

abbrev JsString := List UInt16

/-- A literal of the source; they are all ASCII. -/
def js (s : String) : JsString := s.toList.map fun c => UInt16.ofNat c.toNat

def CRLF : JsString := js "\r\n"

structure Blob where
  bytes : List UInt8
  type : JsString
  /-- Only a `File` has one. -/
  name : Option JsString
deriving DecidableEq, Repr

inductive Value
  | string (s : JsString)
  | blob (b : Blob)
deriving DecidableEq, Repr

/-- An element of `formData._entries`. -/
structure Entry where
  name : JsString
  value : Value
  filename : Option JsString
deriving DecidableEq, Repr

/-! ## Serializing -/

/-- What `||` takes: a string that is there and not empty. -/
def truthy (s : Option JsString) : Option JsString := s.filter (!·.isEmpty)

def fname (filename : Option JsString) (value : Blob) : JsString :=
  (truthy filename).getD ((truthy value.name).getD (js "blob"))

def contentType (value : Blob) : JsString :=
  (truthy (some value.type)).getD (js "application/octet-stream")

/-- What one turn of the loop pushes on `parts`. -/
def serializeEntry (boundary : JsString) (e : Entry) : List (List UInt8) :=
  let part := js "--" ++ boundary ++ CRLF
  match e.value with
  | .blob value =>
    let part := part ++ (js "Content-Disposition: form-data; name=\"" ++ e.name ++
      js "\"; filename=\"" ++ fname e.filename value ++ js "\"" ++ CRLF)
    let part := part ++ (js "Content-Type: " ++ contentType value ++ CRLF ++ CRLF)
    [Text.encode part, value.bytes, Text.encode CRLF]
  | .string value =>
    let part := part ++ (js "Content-Disposition: form-data; name=\"" ++ e.name ++
      js "\"" ++ CRLF ++ CRLF)
    let part := part ++ (value ++ CRLF)
    [Text.encode part]

/-- `__serializeFormData` with the boundary it has drawn. -/
def serializeFormData (boundary : JsString) (entries : List Entry) : List UInt8 :=
  (entries.flatMap (serializeEntry boundary) ++
    [Text.encode (js "--" ++ boundary ++ js "--" ++ CRLF)]).flatten

/-- A boundary stands in one line. -/
abbrev Boundary := {s : JsString // 13 ∉ s}

/-- A digit of a number in base 36. -/
def digit (d : Fin 36) : UInt16 := if d < 10 then 48 + d.val.toUInt16 else 87 + d.val.toUInt16

/-- The boundary that the code draws, from the digits of `Math.random().toString(36).slice(2)`. -/
def randomBoundary (random : List (Fin 36)) : Boundary :=
  ⟨js "----OpenWorkersBoundary" ++ random.map digit, by
    have hdigit : ∀ d, digit d ≠ 13 := by decide
    rw [mem_append, List.mem_map]
    rintro (h | ⟨d, -, h⟩)
    · exact absurd h (by decide)
    · exact hdigit d h⟩

/-- The values of an object by their keys. -/
abbrev Headers := JsString → Option JsString

/-- `__encodeFetchBody` for a `FormData`. -/
def encodeFetchBody (random : List (Fin 36)) (body : List Entry) (headers : Headers) :
    List UInt8 × Headers :=
  let boundary := randomBoundary random
  let serialized := serializeFormData boundary body
  let contentType := js "multipart/form-data; boundary=" ++ boundary
  if truthy (headers (js "Content-Type")) = none ∧ truthy (headers (js "content-type")) = none then
    (serialized, Function.update headers (js "Content-Type") (some contentType))
  else
    (serialized, headers)

/-! ## Parsing -/

inductive Content
  | string (s : JsString)
  | file (filename type : JsString) (bytes : List UInt8)
deriving DecidableEq, Repr

/-- An entry as the receiver has it. -/
structure Field where
  name : JsString
  content : Content
deriving DecidableEq, Repr

namespace Field

/-- A part with a file name is a file, of type `text/plain` if it has no type. -/
def ofPart (p : Multipart.Part) : Option Field :=
  (Text.decode p.name).bind fun name =>
    match p.filename with
    | none => (Text.decode p.content).map fun s => ⟨name, .string s⟩
    | some filename =>
      (Text.decode filename).bind fun filename =>
        let type := match p.contentType with
          | none => some (js "text/plain")
          | some type => Text.decode type
        type.map fun type => ⟨name, .file filename type p.content⟩

end Field

def parse (boundary : JsString) (data : List UInt8) : Option (List Field) :=
  (Multipart.read (Text.encode boundary) data).bind (·.mapM Field.ofPart)

/-- A receiver takes the boundary from the `Content-Type`. -/
def receive (message : List UInt8 × Headers) : Option (List Field) :=
  (message.2 (js "Content-Type")).bind fun type =>
    (type.dropPrefix? (js "multipart/form-data; boundary=")).bind (parse · message.1)

/-! ## What is put in and what is sent -/

namespace Entry

/-- The file name that was given, with the blob or by it. -/
def given (filename : Option JsString) (value : Blob) : Option JsString :=
  (truthy filename).or (truthy value.name)

/-- The entry as it was put in. -/
def field (e : Entry) : Field :=
  match e.value with
  | .string s => ⟨e.name, .string s⟩
  | .blob b => ⟨e.name, .file ((given e.filename b).getD []) b.type b.bytes⟩

/-- The entry with the defaults of the code. -/
def sent (e : Entry) : Field :=
  match e.value with
  | .string s => ⟨e.name, .string s⟩
  | .blob b => ⟨e.name, .file (fname e.filename b) (contentType b) b.bytes⟩

/-- A blob has a file name and a type, so that no default is put. -/
def Complete (e : Entry) : Prop :=
  match e.value with
  | .string _ => True
  | .blob b => given e.filename b ≠ none ∧ b.type ≠ []

instance : (e : Entry) → Decidable e.Complete
  | ⟨_, .string _, _⟩ => isTrue trivial
  | ⟨_, .blob _, _⟩ => inferInstanceAs (Decidable (_ ∧ _))

/-- What stands in the body for the value. -/
def body (e : Entry) : List UInt8 :=
  match e.value with
  | .string s => Text.encode s
  | .blob b => b.bytes

end Entry

/-- A string that can stand in quotes. -/
def Quotable (s : JsString) : Prop := wellFormed s = true ∧ 34 ∉ s ∧ 13 ∉ s ∧ 10 ∉ s

/-- A string that can be the value of a header line: no line break, no blank at an end. -/
def IsValue (s : JsString) : Prop :=
  wellFormed s = true ∧ (13 ∉ s ∧ 10 ∉ s) ∧ (s.head? ≠ some 32 ∧ s.head? ≠ some 9) ∧
    (s.getLast? ≠ some 32 ∧ s.getLast? ≠ some 9)

instance (s : JsString) : Decidable (Quotable s) := inferInstanceAs (Decidable (_ ∧ _))

instance (s : JsString) : Decidable (IsValue s) := inferInstanceAs (Decidable (_ ∧ _))

def Content.Clean : Content → Prop
  | .string s => wellFormed s = true
  | .file filename type _ => Quotable filename ∧ IsValue type

instance : (c : Content) → Decidable c.Clean
  | .string s => inferInstanceAs (Decidable (wellFormed s = true))
  | .file _ _ _ => inferInstanceAs (Decidable (_ ∧ _))

/-- Nothing in the header of the part has a meaning of its own there. -/
def Field.Clean (f : Field) : Prop := Quotable f.name ∧ f.content.Clean

instance (f : Field) : Decidable f.Clean := inferInstanceAs (Decidable (_ ∧ _))

/-! ## Texts in a header -/

theorem quotable_iff {s : JsString} :
    Quotable s ↔ wellFormed s = true ∧ Multipart.Quotable (Text.encode s) := by
  have h := Text.mirrors_encode s
  rw [Multipart.quotable_iff, h.mem_iff (u := 34) rfl (by decide),
    h.mem_iff (u := 13) rfl (by decide), h.mem_iff (u := 10) rfl (by decide)]
  rfl

theorem isValue_iff {s : JsString} :
    IsValue s ↔ wellFormed s = true ∧ Multipart.IsValue (Text.encode s) := by
  have h := Text.mirrors_encode s
  rw [Multipart.isValue_iff, h.mem_iff (u := 13) rfl (by decide),
    h.mem_iff (u := 10) rfl (by decide), Ne, Ne, Ne, Ne, h.head?_iff (u := 32) rfl (by decide),
    h.head?_iff (u := 9) rfl (by decide), h.getLast?_iff (u := 32) rfl (by decide),
    h.getLast?_iff (u := 9) rfl (by decide)]
  rfl

theorem not_mem_encode (boundary : Boundary) : 13 ∉ Text.encode boundary.1 := by
  rw [(Text.mirrors_encode boundary.1).mem_iff (u := 13) rfl (by decide)]
  exact boundary.2

namespace Field

variable {f : Field} {p : Multipart.Part}

/-- The part that a field is written as. -/
def toPart (f : Field) : Multipart.Part :=
  match f.content with
  | .string s => ⟨Text.encode f.name, none, none, Text.encode s⟩
  | .file filename type bytes =>
    ⟨Text.encode f.name, some (Text.encode filename), some (Text.encode type), bytes⟩

theorem Clean.toPart (h : f.Clean) : f.toPart.Clean := by
  obtain ⟨name, content⟩ := f
  obtain ⟨hname, hcontent⟩ := h
  cases content with
  | string s =>
      refine ⟨(quotable_iff.mp hname).2, ?_, ?_⟩ <;> rintro _ ⟨⟩
  | file filename type bytes =>
      refine ⟨(quotable_iff.mp hname).2, ?_, ?_⟩
      · rintro _ ⟨⟩
        exact (quotable_iff.mp hcontent.1).2
      · rintro _ ⟨⟩
        exact (isValue_iff.mp hcontent.2).2

theorem ofPart_toPart (h : f.Clean) : ofPart f.toPart = some f := by
  have hdecode {s : JsString} (hs : wellFormed s = true) : Text.decode (Text.encode s) = some s :=
    Text.decode_eq_some.mpr ⟨hs, rfl⟩
  obtain ⟨name, content⟩ := f
  obtain ⟨hname, hcontent⟩ := h
  cases content with
  | string s =>
      simp only [ofPart, toPart, hdecode hname.1, hdecode hcontent, bind_some,
        map_some]
  | file filename type bytes =>
      simp only [ofPart, toPart, hdecode hname.1, hdecode hcontent.1.1, hdecode hcontent.2.1,
        bind_some, map_some]

/-- What is decoded from a clean part is clean. -/
theorem clean_of_ofPart (hp : p.Clean) (h : ofPart p = some f) : f.Clean := by
  have hquotable {bytes : List UInt8} {s : JsString} (hbytes : Multipart.Quotable bytes)
      (hs : Text.decode bytes = some s) : Quotable s := by
    obtain ⟨hwell, rfl⟩ := Text.decode_eq_some.mp hs
    exact quotable_iff.mpr ⟨hwell, hbytes⟩
  obtain ⟨name, hname, h⟩ := bind_eq_some_iff.mp h
  have hfilename := hp.filename
  have hcontentType := hp.contentType
  cases hp' : p.filename with
  | none =>
      rw [hp'] at h
      obtain ⟨s, hs, rfl⟩ := map_eq_some_iff.mp h
      exact ⟨hquotable hp.name hname, (Text.decode_eq_some.mp hs).1⟩
  | some filename =>
      rw [hp'] at h
      obtain ⟨filename', hfilename', h⟩ := bind_eq_some_iff.mp h
      obtain ⟨type, htype, rfl⟩ := map_eq_some_iff.mp h
      refine ⟨hquotable hp.name hname, hquotable (hfilename filename hp') hfilename', ?_⟩
      cases hp'' : p.contentType with
      | none =>
          rw [hp''] at htype
          cases htype
          decide
      | some bytes =>
          rw [hp''] at htype
          obtain ⟨hwell, rfl⟩ := Text.decode_eq_some.mp htype
          exact isValue_iff.mpr ⟨hwell, hcontentType _ hp''⟩

end Field

/-! ## The body is written as the format has it -/

section Write

variable {s : String} (h : s.toList.all (·.toNat < 128) = true)
include h

theorem isSurrogate_js : ∀ u ∈ js s, isSurrogate u = false := by
  simp only [List.all_eq_true, decide_eq_true_iff] at h
  exact (Text.encode_ascii h).1

theorem encode_js : Text.encode (js s) = Multipart.ascii s := by
  simp only [List.all_eq_true, decide_eq_true_iff] at h
  exact (Text.encode_ascii h).2

theorem encode_js_append (t : JsString) :
    Text.encode (js s ++ t) = Multipart.ascii s ++ Text.encode t := by
  rw [Text.encode_append_left (isSurrogate_js h), encode_js h]

theorem encode_append_js_append (hs : js s ≠ []) (t t' : JsString) :
    Text.encode (t ++ (js s ++ t')) =
      Text.encode t ++ (Multipart.ascii s ++ Text.encode t') := by
  rw [Text.encode_append_append hs (isSurrogate_js h), encode_js h]

theorem encode_append_js (hs : js s ≠ []) (t : JsString) :
    Text.encode (t ++ js s) = Text.encode t ++ Multipart.ascii s := by
  have heq := encode_append_js_append h hs t []
  rw [append_nil] at heq
  exact heq.trans (congrArg (Text.encode t ++ ·) (append_nil _))

end Write

/-- One turn of the loop writes one part. -/
theorem flatten_serializeEntry (boundary : JsString) (e : Entry) :
    (serializeEntry boundary e).flatten =
      Multipart.dashes ++ Text.encode boundary ++ Multipart.crlf ++ e.sent.toPart.write ++
        Multipart.crlf := by
  have hdashes : Multipart.ascii "--" = Multipart.dashes := by decide
  have hcrlf : Multipart.ascii "\r\n" = Multipart.crlf := by decide
  have hquote : Multipart.ascii "\"" = [34] := by decide
  have hname : Multipart.ascii "Content-Disposition: form-data; name=\"" =
      Multipart.ascii "Content-Disposition" ++ ([58, 32] ++
        Multipart.ascii "form-data; name=\"") := by decide
  have hfilename : Multipart.ascii "\"; filename=\"" =
      [34] ++ Multipart.ascii "; filename=\"" := by decide
  have htype : Multipart.ascii "Content-Type: " =
      Multipart.ascii "Content-Type" ++ [58, 32] := by decide
  obtain ⟨name, value, filename⟩ := e
  cases value with
  | string s =>
      simp only [serializeEntry, CRLF, append_assoc, flatten_cons, flatten_nil,
        append_nil]
      simp (disch := decide) only [encode_js, encode_js_append, encode_append_js_append,
        encode_append_js]
      simp only [hdashes, hcrlf, hquote, hname, Entry.sent, Field.toPart, Multipart.Part.write,
        Multipart.Part.header, Multipart.Part.disposition, Multipart.quoted, append_assoc,
        append_nil]
  | blob b =>
      simp only [serializeEntry, CRLF, append_assoc, flatten_cons, flatten_nil,
        append_nil]
      simp (disch := decide) only [encode_js, encode_js_append, encode_append_js_append]
      simp only [hdashes, hcrlf, hquote, hname, hfilename, htype, Entry.sent, Field.toPart,
        Multipart.Part.write, Multipart.Part.header, Multipart.Part.disposition, Multipart.quoted,
        append_assoc]

/-- **The code writes the entries, with its defaults, as the parts of a body.** -/
theorem serializeFormData_eq_write (boundary : JsString) (entries : List Entry) :
    serializeFormData boundary entries =
      Multipart.write (Text.encode boundary) (entries.map fun e => e.sent.toPart) := by
  have hlast : Text.encode (js "--" ++ boundary ++ js "--" ++ CRLF) =
      Multipart.dashes ++ Text.encode boundary ++ Multipart.dashes ++ Multipart.crlf := by
    simp only [CRLF, append_assoc]
    simp (disch := decide) only [encode_js, encode_js_append, encode_append_js_append]
    rfl
  rw [serializeFormData, flatten_append, Multipart.write_eq_flatMap, flatMap_map, hlast]
  congr 1
  · induction entries with
    | nil => rfl
    | cons e entries ih =>
        rw [flatMap_cons, flatMap_cons, flatten_append, flatten_serializeEntry, ih]
  · exact append_nil _

/-! ## The round trip -/

section RoundTrip

variable {boundary : Boundary} {entries : List Entry} {e : Entry}

theorem Entry.content_toPart (e : Entry) : e.sent.toPart.content = e.body := by
  obtain ⟨name, value, filename⟩ := e
  cases value <;> rfl

/-- Clean entries are clean parts, without the delimiter in their content. -/
theorem clean_parts (hbody : ∀ e ∈ entries, ¬ Text.encode boundary.1 <:+: e.body)
    (hclean : ∀ e ∈ entries, e.sent.Clean) :
    ∀ p ∈ entries.map fun e => e.sent.toPart,
      p.Clean ∧ ¬ Multipart.delimiter (Text.encode boundary.1) <:+: p.content := by
  rw [List.forall_mem_map]
  intro e he
  refine ⟨(hclean e he).toPart, fun hdelimiter => hbody e he ?_⟩
  rw [e.content_toPart] at hdelimiter
  exact (suffix_append _ _).isInfix.trans hdelimiter

theorem clean_of_parse {data : List UInt8} {fields : List Field}
    (h : parse boundary data = some fields) : ∀ f ∈ fields, f.Clean := by
  obtain ⟨parts, hread, hparts⟩ := bind_eq_some_iff.mp h
  rw [mapM_eq_some_iff_map] at hparts
  intro f hf
  have hmem : some f ∈ parts.map Field.ofPart := by
    rw [hparts]
    exact List.mem_map_of_mem hf
  obtain ⟨p, hp, hpart⟩ := List.mem_map.mp hmem
  exact Field.clean_of_ofPart (Multipart.clean_of_read hread p hp) hpart

theorem map_ofPart_sent (hclean : ∀ e ∈ entries, e.sent.Clean) :
    (entries.map fun e => e.sent.toPart).map Field.ofPart = (entries.map Entry.sent).map some := by
  rw [List.map_map, List.map_map]
  exact map_congr_left fun e he => Field.ofPart_toPart (hclean e he)

theorem parse_serializeFormData (hbody : ∀ e ∈ entries, ¬ Text.encode boundary.1 <:+: e.body)
    (hclean : ∀ e ∈ entries, e.sent.Clean) :
    parse boundary (serializeFormData boundary entries) = some (entries.map Entry.sent) := by
  rw [parse, serializeFormData_eq_write,
    Multipart.read_write (not_mem_encode boundary) (clean_parts hbody hclean), bind_some,
    mapM_eq_some_iff_map]
  exact map_ofPart_sent hclean

theorem eq_of_serializeFormData_eq {boundary' : Boundary} {entries' : List Entry}
    (hbody : ∀ e ∈ entries, ¬ Text.encode boundary.1 <:+: e.body)
    (hbody' : ∀ e ∈ entries', ¬ Text.encode boundary'.1 <:+: e.body)
    (hclean : ∀ e ∈ entries, e.sent.Clean) (hclean' : ∀ e ∈ entries', e.sent.Clean)
    (heq : serializeFormData boundary entries = serializeFormData boundary' entries') :
    entries.map Entry.sent = entries'.map Entry.sent := by
  rw [serializeFormData_eq_write, serializeFormData_eq_write] at heq
  have hparts := Multipart.eq_of_write_eq (not_mem_encode boundary) (not_mem_encode boundary')
    (clean_parts hbody hclean) (clean_parts hbody' hclean') heq
  have hsome := map_ofPart_sent hclean
  rw [hparts, map_ofPart_sent hclean'] at hsome
  exact (map_injective_iff.mpr (some_injective _) hsome).symm

/-! ### Defaults -/

theorem Entry.getD_given (filename : Option JsString) (b : Blob) :
    fname filename b = (given filename b).getD (js "blob") := by
  rw [fname, given]
  cases truthy filename <;> rfl

theorem contentType_of_ne {b : Blob} (h : b.type ≠ []) : contentType b = b.type := by
  obtain ⟨u, s, hs⟩ := exists_cons_of_ne_nil h
  rw [contentType, hs]
  rfl

theorem contentType_of_eq {b : Blob} (h : b.type = []) :
    contentType b = js "application/octet-stream" := by
  rw [contentType, h]
  rfl

/-- The defaults of the code are clean. -/
theorem Entry.sent_clean (h : e.field.Clean) : e.sent.Clean := by
  obtain ⟨name, value, filename⟩ := e
  cases value with
  | string s => exact h
  | blob b =>
      obtain ⟨hname, hfilename, htype⟩ := h
      refine ⟨hname, ?_, ?_⟩
      · rw [Entry.getD_given]
        cases hgiven : given filename b with
        | none => decide
        | some s =>
            rw [hgiven] at hfilename
            exact hfilename
      · by_cases hempty : b.type = []
        · rw [contentType_of_eq hempty]
          decide
        · rw [contentType_of_ne hempty]
          exact htype

theorem Entry.sent_eq_field_iff : e.sent = e.field ↔ e.Complete := by
  obtain ⟨name, value, filename⟩ := e
  cases value with
  | string s => exact iff_of_true rfl trivial
  | blob b =>
      have hsent : (Entry.sent ⟨name, .blob b, filename⟩ = Entry.field ⟨name, .blob b, filename⟩) ↔
          fname filename b = (given filename b).getD [] ∧ contentType b = b.type := by
        simp [Entry.sent, Entry.field]
      have hfilename : fname filename b = (given filename b).getD [] ↔
          given filename b ≠ none := by
        rw [Entry.getD_given]
        cases given filename b with
        | none => exact iff_of_false (by decide) (fun h => h rfl)
        | some s => exact iff_of_true rfl (some_ne_none s)
      have htype : contentType b = b.type ↔ b.type ≠ [] := by
        refine ⟨fun heq hempty => ?_, contentType_of_ne⟩
        rw [contentType_of_eq hempty, hempty] at heq
        exact absurd heq (by decide)
      rw [hsent, hfilename, htype]
      rfl

end RoundTrip

/-- **Which entries parse back.**  Let the boundary not occur in the values.  The body parses to
the entries exactly when all are clean and complete, and to the entries with the defaults of the
code exactly when these are clean; and clean and complete entries can be told from the body, with
whatever boundaries. -/
theorem formData_round_trip (boundary : Boundary) (entries : List Entry)
    (hbody : ∀ e ∈ entries, ¬ Text.encode boundary.1 <:+: e.body) :
    (parse boundary (serializeFormData boundary entries) = some (entries.map Entry.field) ↔
      ∀ e ∈ entries, e.field.Clean ∧ e.Complete) ∧
    (parse boundary (serializeFormData boundary entries) = some (entries.map Entry.sent) ↔
      ∀ e ∈ entries, e.sent.Clean) ∧
    ∀ (boundary' : Boundary) (entries' : List Entry),
      (∀ e ∈ entries', ¬ Text.encode boundary'.1 <:+: e.body) →
      (∀ e ∈ entries, e.field.Clean ∧ e.Complete) →
      (∀ e ∈ entries', e.field.Clean ∧ e.Complete) →
      serializeFormData boundary entries = serializeFormData boundary' entries' →
        entries.map Entry.field = entries'.map Entry.field := by
  have hsent {entries : List Entry} (h : ∀ e ∈ entries, e.field.Clean ∧ e.Complete) :
      entries.map Entry.sent = entries.map Entry.field :=
    map_congr_left fun e he => Entry.sent_eq_field_iff.mpr (h e he).2
  refine ⟨⟨fun hparse => ?_, fun h => ?_⟩, ⟨fun hparse => ?_, parse_serializeFormData hbody⟩, ?_⟩
  · -- the parse is clean, so it is also what was sent
    have hclean : ∀ e ∈ entries, e.field.Clean := fun e he =>
      clean_of_parse hparse e.field (List.mem_map_of_mem he)
    have hparse' := parse_serializeFormData hbody fun e he => Entry.sent_clean (hclean e he)
    rw [hparse, some_inj] at hparse'
    intro e he
    exact ⟨hclean e he, Entry.sent_eq_field_iff.mp (map_inj_left.mp hparse' e he).symm⟩
  · rw [← hsent h]
    exact parse_serializeFormData hbody fun e he => Entry.sent_clean (h e he).1
  · exact fun e he => clean_of_parse hparse e.sent (List.mem_map_of_mem he)
  · intro boundary' entries' hbody' h h' heq
    rw [← hsent h, ← hsent h']
    exact eq_of_serializeFormData_eq hbody hbody' (fun e he => Entry.sent_clean (h e he).1)
      (fun e he => Entry.sent_clean (h' e he).1) heq

/-- A string and a file, whose name is on the `File`. -/
def upload : List Entry :=
  [⟨js "a", .string (js "x\"\r\n\r\ny"), none⟩,
    ⟨js "doc", .blob ⟨[0, 255, 13, 10], js "text/plain", some (js "b.txt")⟩, none⟩]

theorem formData_round_trip_upload :
    (∀ e ∈ upload, ¬ Text.encode (randomBoundary [35, 0]).1 <:+: e.body) ∧
      parse (randomBoundary [35, 0]) (serializeFormData (randomBoundary [35, 0]) upload) =
        some (upload.map Entry.field) := by
  have hbody : ∀ e ∈ upload, ¬ Text.encode (randomBoundary [35, 0]).1 <:+: e.body := by
    decide +kernel
  exact ⟨hbody, (formData_round_trip (randomBoundary [35, 0]) upload hbody).1.mpr (by decide)⟩

/-- A name that closes its quotes: the string goes as a file `x`. -/
def asFile : Entry := ⟨js "a\"; filename=\"x", .string (js "v"), none⟩

/-- A name that ends the header, with the beginning of the value. -/
def early : Entry := ⟨js "a\"\r\n\r\nx", .string (js "y"), none⟩

/-- The same in the value, where it means nothing. -/
def late : Entry := ⟨js "a", .string (js "x\"\r\n\r\ny"), none⟩

/-- A name that holds the rest of its part and the beginning of another. -/
def withAdmin : Entry :=
  ⟨js "a\"\r\n\r\nx\r\n------OpenWorkersBoundary\r\nContent-Disposition: form-data; name=\"admin",
    .string (js "true"), none⟩

/-- **Names are not escaped.**  The boundary is in none of the values; still a name makes a string a
file, gives the body of another entry, and adds a part. -/
theorem name_forges_parts :
    (∀ e ∈ [asFile, early, late, withAdmin], ¬ Text.encode (randomBoundary []).1 <:+: e.body) ∧
    parse (randomBoundary []) (serializeFormData (randomBoundary []) [asFile]) =
      some [⟨js "a", .file (js "x") (js "text/plain") [118]⟩] ∧
    serializeFormData (randomBoundary []) [early] = serializeFormData (randomBoundary []) [late] ∧
    early.field ≠ late.field ∧
    parse (randomBoundary []) (serializeFormData (randomBoundary []) [withAdmin]) =
      some [⟨js "a", .string (js "x")⟩, ⟨js "admin", .string (js "true")⟩] := by
  refine ⟨?_, ?_, ?_, ?_, ?_⟩ <;> decide +kernel

/-! ## The boundary in the header -/

/-- A receiver that has no other `Content-Type` parses with the boundary of the body. -/
theorem receive_encodeFetchBody (random : List (Fin 36)) (entries : List Entry)
    {headers : Headers} (htype : truthy (headers (js "Content-Type")) = none)
    (htype' : truthy (headers (js "content-type")) = none) :
    receive (encodeFetchBody random entries headers) =
      parse (randomBoundary random) (serializeFormData (randomBoundary random) entries) := by
  rw [encodeFetchBody, if_pos ⟨htype, htype'⟩]
  simp only [receive, Function.update_self, bind_some, dropPrefix?_append_self]

end OpenWorkers.Fetch
