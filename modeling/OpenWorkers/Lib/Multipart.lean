import OpenWorkers.Lib.Scan
import Mathlib.Data.UInt

/-!
# multipart/form-data

A writer and a reader of the format, over bytes.  A body is a list of parts.  Each stands between
two delimiters, a line break and two dashes and the boundary, and has header lines, an empty line
and its content.  The header line `Content-Disposition` holds the name of the part, and the file
name if the part is a file, in double quotes; `Content-Type` holds the type of a file.

The reader knows no escapes: what stands between the quotes is the name.  So a writer that does
not escape is read back, if at all, by this reader.  A quoted text ends at the next quote, and a
quote or a line break cannot stand in it; no line break can stand in a type, and blanks around a
type are not part of it.  `Part.Clean` says this of a part.  Whatever is read is clean
(`clean_of_read`), and what is clean is read as it was written (`read_write`).
-/

namespace OpenWorkers.Multipart

open List Option

abbrev Bytes := List UInt8

def ascii (s : String) : Bytes := s.toList.map fun c => UInt8.ofNat c.toNat

def crlf : Bytes := [13, 10]

def dashes : Bytes := [45, 45]

def isLineEnd (b : UInt8) : Bool := b == 13 || b == 10

def isBlank (b : UInt8) : Bool := b == 32 || b == 9

/-- What can stand between two double quotes. -/
def isQuotable (b : UInt8) : Bool := b != 34 && !isLineEnd b

/-- What can stand before the colon of a header line. -/
def isField (b : UInt8) : Bool := b != 58 && !isLineEnd b

def inLine (b : UInt8) : Bool := !isLineEnd b

def lower (b : UInt8) : UInt8 := if 65 ≤ b ∧ b ≤ 90 then b + 32 else b

/-- A part as it stands in a body. -/
structure Part where
  name : Bytes
  filename : Option Bytes
  contentType : Option Bytes
  content : Bytes
deriving DecidableEq, Repr

/-! ## Writing -/

def quoted (text : Bytes) : Bytes := text ++ [34]

namespace Part

def disposition (p : Part) : Bytes :=
  ascii "form-data; name=\"" ++ quoted p.name ++
    match p.filename with
    | none => []
    | some filename => ascii "; filename=\"" ++ quoted filename

def header (p : Part) : Bytes :=
  ascii "Content-Disposition" ++ [58, 32] ++ p.disposition ++ crlf ++
    match p.contentType with
    | none => []
    | some contentType => ascii "Content-Type" ++ [58, 32] ++ contentType ++ crlf

def write (p : Part) : Bytes := p.header ++ crlf ++ p.content

end Part

def delimiter (boundary : Bytes) : Bytes := crlf ++ dashes ++ boundary

/-- A body: each part after a delimiter, and the last delimiter with two dashes.  The line break
of the first delimiter is left out. -/
def write (boundary : Bytes) (parts : List Part) : Bytes :=
  dashes ++ boundary ++
    (parts.flatMap (fun p => crlf ++ p.write ++ delimiter boundary) ++ dashes ++ crlf)

/-! ## Reading -/

def readQuoted (data : Bytes) : Option (Bytes × Bytes) :=
  ((data.dropWhile isQuotable).dropPrefix? [34]).map (data.takeWhile isQuotable, ·)

def readFilename (data : Bytes) : Option (Option Bytes × Bytes) :=
  match data.dropPrefix? (ascii "; filename=\"") with
  | none => some (none, data)
  | some data => (readQuoted data).map fun (filename, rest) => (some filename, rest)

/-- What the header lines of a part have said so far. -/
structure Header where
  name : Option Bytes
  filename : Option Bytes
  contentType : Option Bytes
deriving DecidableEq, Repr

def readDisposition (h : Header) (data : Bytes) : Option (Header × Bytes) :=
  (data.dropPrefix? (ascii "form-data; name=\"")).bind fun data =>
    (readQuoted data).bind fun (name, data) =>
      (readFilename data).map fun (filename, rest) => ({ h with name := some name, filename }, rest)

/-- The value of a header line; other lines say nothing. -/
def readValue (h : Header) (field data : Bytes) : Option (Header × Bytes) :=
  if field = ascii "content-disposition" then
    readDisposition h data
  else if field = ascii "content-type" then
    let contentType := (data.takeWhile inLine).rdropWhile isBlank
    some ({ h with contentType := some contentType }, data.dropWhile inLine)
  else
    some (h, data.dropWhile inLine)

def readLine (h : Header) (data : Bytes) : Option (Header × Bytes) :=
  ((data.dropWhile isField).dropPrefix? [58]).bind fun rest =>
    (readValue h ((data.takeWhile isField).map lower) (rest.dropWhile isBlank)).bind
      fun (h, rest) => (rest.dropPrefix? crlf).map (h, ·)

/-- The header lines up to the empty one; `fuel` bounds their number. -/
def readHeader : Nat → Header → Bytes → Option (Header × Bytes)
  | 0, _, _ => none
  | fuel + 1, h, data =>
    match data.dropPrefix? crlf with
    | some rest => some (h, rest)
    | none => (readLine h data).bind fun (h, rest) => readHeader fuel h rest

/-- A part, and what comes after the delimiter that ends it. -/
def readPart (boundary data : Bytes) : Option (Part × Bytes) :=
  (readHeader data.length ⟨none, none, none⟩ data).bind fun (h, rest) =>
    h.name.bind fun name =>
      (rest.splitFirst (delimiter boundary)).map fun (content, rest) =>
        (⟨name, h.filename, h.contentType, content⟩, rest)

/-- The parts after a delimiter; `fuel` bounds their number. -/
def readParts (boundary : Bytes) : Nat → Bytes → Option (List Part)
  | 0, _ => none
  | fuel + 1, data =>
    if data = dashes ++ crlf then some []
    else
      (data.dropPrefix? crlf).bind fun data => (readPart boundary data).bind fun (part, rest) =>
        (readParts boundary fuel rest).map (part :: ·)

def read (boundary data : Bytes) : Option (List Part) :=
  (data.dropPrefix? (dashes ++ boundary)).bind (readParts boundary data.length)

/-! ## What can be read -/

def Quotable (text : Bytes) : Prop := ∀ b ∈ text, isQuotable b = true

/-- A text that is the value of a header line, with no blanks around it. -/
structure IsValue (text : Bytes) : Prop where
  inLine : ∀ b ∈ text, inLine b = true
  start : text.dropWhile isBlank = text
  stop : text.rdropWhile isBlank = text

theorem quotable_iff {text : Bytes} : Quotable text ↔ 34 ∉ text ∧ 13 ∉ text ∧ 10 ∉ text := by
  have hquotable (b : UInt8) : isQuotable b = true ↔ b ≠ 34 ∧ b ≠ 13 ∧ b ≠ 10 := by
    simp [isQuotable, isLineEnd]
  constructor
  · intro h
    refine ⟨fun hb => ?_, fun hb => ?_, fun hb => ?_⟩
    · exact ((hquotable _).mp (h _ hb)).1 rfl
    · exact ((hquotable _).mp (h _ hb)).2.1 rfl
    · exact ((hquotable _).mp (h _ hb)).2.2 rfl
  · rintro ⟨hquote, hcr, hlf⟩ b hb
    exact (hquotable b).mpr ⟨ne_of_mem_of_not_mem hb hquote, ne_of_mem_of_not_mem hb hcr,
      ne_of_mem_of_not_mem hb hlf⟩

theorem forall_inLine_iff {text : Bytes} :
    (∀ b ∈ text, inLine b = true) ↔ 13 ∉ text ∧ 10 ∉ text := by
  have hinLine (b : UInt8) : inLine b = true ↔ b ≠ 13 ∧ b ≠ 10 := by
    simp [inLine, isLineEnd]
  constructor
  · intro h
    exact ⟨fun hb => ((hinLine _).mp (h _ hb)).1 rfl, fun hb => ((hinLine _).mp (h _ hb)).2 rfl⟩
  · rintro ⟨hcr, hlf⟩ b hb
    exact (hinLine b).mpr ⟨ne_of_mem_of_not_mem hb hcr, ne_of_mem_of_not_mem hb hlf⟩

theorem forall_not_isBlank_iff {b? : Option UInt8} :
    (∀ b ∈ b?, isBlank b = false) ↔ b? ≠ some 32 ∧ b? ≠ some 9 := by
  cases b? with
  | none => simp
  | some b => simp [isBlank]

theorem isValue_iff {text : Bytes} :
    IsValue text ↔ (13 ∉ text ∧ 10 ∉ text) ∧ (text.head? ≠ some 32 ∧ text.head? ≠ some 9) ∧
      (text.getLast? ≠ some 32 ∧ text.getLast? ≠ some 9) := by
  rw [← forall_inLine_iff, ← forall_not_isBlank_iff, ← forall_not_isBlank_iff,
    ← dropWhile_eq_self_iff_head?, ← rdropWhile_eq_self_iff_getLast?]
  exact ⟨fun ⟨hline, hstart, hstop⟩ => ⟨hline, hstart, hstop⟩,
    fun ⟨hline, hstart, hstop⟩ => ⟨hline, hstart, hstop⟩⟩

/-- Nothing in the header of the part has a meaning of its own there. -/
structure Part.Clean (p : Part) : Prop where
  name : Quotable p.name
  filename : ∀ filename ∈ p.filename, Quotable filename
  contentType : ∀ contentType ∈ p.contentType, IsValue contentType

structure Header.Clean (h : Header) : Prop where
  name : ∀ name ∈ h.name, Quotable name
  filename : ∀ filename ∈ h.filename, Quotable filename
  contentType : ∀ contentType ∈ h.contentType, IsValue contentType

section Clean

variable {h h' : Header} {data rest text boundary : Bytes} {fuel : Nat}

theorem quotable_of_readQuoted (hread : readQuoted data = some (text, rest)) : Quotable text := by
  obtain ⟨_, -, heq⟩ := map_eq_some_iff.mp hread
  cases heq
  exact fun b hb => mem_takeWhile_imp hb

theorem quotable_of_readFilename {filename : Option Bytes}
    (hread : readFilename data = some (filename, rest)) :
    ∀ text ∈ filename, Quotable text := by
  unfold readFilename at hread
  split at hread
  · cases hread
    rintro _ ⟨⟩
  · obtain ⟨⟨text, _⟩, hquoted, heq⟩ := map_eq_some_iff.mp hread
    cases heq
    rintro _ ⟨⟩
    exact quotable_of_readQuoted hquoted

/-- What stands in a line, without the blanks around it, is a value. -/
theorem isValue_trim (data : Bytes) :
    IsValue (((data.dropWhile isBlank).takeWhile inLine).rdropWhile isBlank) := by
  have hinitial : ((data.dropWhile isBlank).takeWhile inLine).rdropWhile isBlank <+:
      (data.dropWhile isBlank).takeWhile inLine := rdropWhile_prefix isBlank _
  refine ⟨fun b hb => mem_takeWhile_imp (hinitial.subset hb), ?_, ?_⟩
  · exact dropWhile_initial (hinitial.trans ( takeWhile_prefix inLine))
  · exact rdropWhile_idempotent isBlank _

theorem clean_of_readValue {field : Bytes} (hh : h.Clean)
    (hread : readValue h field (data.dropWhile isBlank) = some (h', rest)) : h'.Clean := by
  unfold readValue at hread
  split at hread
  · obtain ⟨_, -, hread⟩ := bind_eq_some_iff.mp hread
    obtain ⟨⟨name, _⟩, hname, hread⟩ := bind_eq_some_iff.mp hread
    obtain ⟨⟨filename, _⟩, hfilename, heq⟩ := map_eq_some_iff.mp hread
    cases heq
    refine ⟨?_, quotable_of_readFilename hfilename, hh.contentType⟩
    rintro _ ⟨⟩
    exact quotable_of_readQuoted hname
  split at hread
  · cases hread
    refine ⟨hh.name, hh.filename, ?_⟩
    rintro _ ⟨⟩
    exact isValue_trim data
  · cases hread
    exact hh

theorem clean_of_readLine (hh : h.Clean) (hread : readLine h data = some (h', rest)) :
    h'.Clean := by
  obtain ⟨_, -, hread⟩ := bind_eq_some_iff.mp hread
  obtain ⟨⟨h₁, _⟩, hvalue, hread⟩ := bind_eq_some_iff.mp hread
  obtain ⟨_, -, heq⟩ := map_eq_some_iff.mp hread
  cases heq
  exact clean_of_readValue hh hvalue

theorem clean_of_readHeader (hh : h.Clean) (hread : readHeader fuel h data = some (h', rest)) :
    h'.Clean := by
  induction fuel generalizing h data with
  | zero => cases hread
  | succ fuel ih =>
      unfold readHeader at hread
      split at hread
      · cases hread
        exact hh
      · obtain ⟨⟨h₁, _⟩, hline, hread⟩ := bind_eq_some_iff.mp hread
        exact ih (clean_of_readLine hh hline) hread

theorem clean_of_readPart {part : Part} (hread : readPart boundary data = some (part, rest)) :
    part.Clean := by
  obtain ⟨⟨h, _⟩, hheader, hread⟩ := bind_eq_some_iff.mp hread
  obtain ⟨name, hname, hread⟩ := bind_eq_some_iff.mp hread
  obtain ⟨_, -, heq⟩ := map_eq_some_iff.mp hread
  cases heq
  have hnone : Header.Clean ⟨none, none, none⟩ := by
    refine ⟨?_, ?_, ?_⟩ <;> rintro _ ⟨⟩
  have hclean : h.Clean := clean_of_readHeader hnone hheader
  exact ⟨hclean.name name hname, hclean.filename, hclean.contentType⟩

theorem clean_of_readParts {parts : List Part}
    (hread : readParts boundary fuel data = some parts) : ∀ part ∈ parts, part.Clean := by
  induction fuel generalizing data parts with
  | zero => cases hread
  | succ fuel ih =>
      unfold readParts at hread
      split at hread
      · cases hread
        rintro _ ⟨⟩
      · obtain ⟨_, -, hread⟩ := bind_eq_some_iff.mp hread
        obtain ⟨⟨part, _⟩, hpart, hread⟩ := bind_eq_some_iff.mp hread
        obtain ⟨parts, hparts, rfl⟩ := map_eq_some_iff.mp hread
        exact forall_mem_cons.mpr ⟨clean_of_readPart hpart, ih hparts⟩

/-- **What is read is clean.** -/
theorem clean_of_read {parts : List Part} (hread : read boundary data = some parts) :
    ∀ part ∈ parts, part.Clean := by
  obtain ⟨_, -, hread⟩ := bind_eq_some_iff.mp hread
  exact clean_of_readParts hread

end Clean

/-! ## What was written is read -/

section Write

variable {h : Header} {p : Part} {boundary : Bytes}

theorem readQuoted_quoted {text : Bytes} (htext : Quotable text) (rest : Bytes) :
    readQuoted (quoted text ++ rest) = some (text, rest) := by
  have hdata : quoted text ++ rest = text ++ 34 :: rest := by
    rw [quoted, append_assoc]
    rfl
  rw [readQuoted, hdata, takeWhile_append_stop htext rfl, dropWhile_append_stop htext rfl]
  exact congrArg (Option.map (text, ·)) (dropPrefix?_append_self [34] rest)

/-- The file name of a part and the end of the line. -/
theorem readFilename_write (hp : p.Clean) (rest : Bytes) :
    readFilename ((match p.filename with
      | none => []
      | some filename => ascii "; filename=\"" ++ quoted filename) ++ (crlf ++ rest)) =
      some (p.filename, crlf ++ rest) := by
  have hclean := hp.filename
  cases hfilename : p.filename with
  | none =>
      have hnone : (crlf ++ rest).dropPrefix? (ascii "; filename=\"") = none :=
        dropPrefix?_cons_of_ne (by decide) _ _
      rw [nil_append, readFilename, hnone]
  | some filename =>
      simp only [readFilename, append_assoc, dropPrefix?_append_self,
        readQuoted_quoted (hclean filename hfilename), map_some]

theorem readDisposition_write (h : Header) (hp : p.Clean) (rest : Bytes) :
    readDisposition h (p.disposition ++ (crlf ++ rest)) =
      some ({ h with name := some p.name, filename := p.filename }, crlf ++ rest) := by
  simp only [readDisposition, Part.disposition, append_assoc, dropPrefix?_append_self,
    bind_some, readQuoted_quoted hp.name]
  rw [readFilename_write hp, map_some]

/-- A header line whose value was read to its end. -/
theorem readLine_write {h h' : Header} {field value : Bytes} (rest : Bytes)
    (hfield : ∀ b ∈ field, isField b = true)
    (hblank : (value ++ (crlf ++ rest)).dropWhile isBlank = value ++ (crlf ++ rest))
    (hvalue : readValue h (field.map lower) (value ++ (crlf ++ rest)) = some (h', crlf ++ rest)) :
    readLine h (field ++ ([58, 32] ++ (value ++ (crlf ++ rest)))) = some (h', rest) := by
  have hdata : field ++ ([58, 32] ++ (value ++ (crlf ++ rest))) =
      field ++ 58 :: 32 :: (value ++ (crlf ++ rest)) := rfl
  have hcolon : (58 :: 32 :: (value ++ (crlf ++ rest))).dropPrefix? [58] =
      some (32 :: (value ++ (crlf ++ rest))) := dropPrefix?_append_self [58] _
  have hdrop : (32 :: (value ++ (crlf ++ rest))).dropWhile isBlank = value ++ (crlf ++ rest) :=
    (dropWhile_cons_of_pos rfl).trans hblank
  rw [readLine, hdata, takeWhile_append_stop hfield rfl,
    dropWhile_append_stop hfield rfl, hcolon, bind_some, hdrop, hvalue]
  exact congrArg (Option.map (h', ·)) (dropPrefix?_append_self crlf rest)

theorem readHeader_crlf (fuel : Nat) (h : Header) (rest : Bytes) :
    readHeader (fuel + 1) h (crlf ++ rest) = some (h, rest) := by
  rw [readHeader, dropPrefix?_append_self]

/-- A line that does not begin with a line break is not the empty one. -/
theorem readHeader_line {h h' : Header} {b : UInt8} {data rest : Bytes} (fuel : Nat)
    (hb : b ≠ 13) (hline : readLine h (b :: data) = some (h', rest)) :
    readHeader (fuel + 1) h (b :: data) = readHeader fuel h' rest := by
  have hnone : (b :: data).dropPrefix? crlf = none :=
    dropPrefix?_cons_of_ne (Ne.symm hb) _ _
  rw [readHeader, hnone]
  exact congrArg (Option.bind · _) hline

/-- The line with the type of a part, if there is one, and the empty line. -/
theorem readHeader_contentType (fuel : Nat) (h : Header) (hp : p.Clean)
    (hnone : h.contentType = none) (rest : Bytes) :
    readHeader (fuel + 2) h ((match p.contentType with
      | none => []
      | some contentType => ascii "Content-Type" ++ [58, 32] ++ contentType ++ crlf) ++
        (crlf ++ rest)) = some ({ h with contentType := p.contentType }, rest) := by
  have hclean := hp.contentType
  cases htype : p.contentType with
  | none =>
      rw [nil_append, readHeader_crlf, ← hnone]
  | some contentType =>
      obtain ⟨hline, hstart, hstop⟩ := hclean contentType htype
      have hvalue : readValue h ((ascii "Content-Type").map lower)
          (contentType ++ (crlf ++ (crlf ++ rest))) =
            some ({ h with contentType := some contentType }, crlf ++ (crlf ++ rest)) := by
        have htake : (contentType ++ (crlf ++ (crlf ++ rest))).takeWhile inLine = contentType :=
          takeWhile_append_stop hline rfl _
        have hdrop : (contentType ++ (crlf ++ (crlf ++ rest))).dropWhile inLine =
            crlf ++ (crlf ++ rest) := dropWhile_append_stop hline rfl _
        have hfield : (ascii "Content-Type").map lower = ascii "content-type" := by decide
        rw [hfield, readValue, if_neg (by decide), if_pos rfl, htake, hdrop, hstop]
      have hread := readLine_write (crlf ++ rest) (List.all_eq_true.mp (by decide))
        (dropWhile_append_of_self hstart rfl _) hvalue
      rw [append_assoc, append_assoc, append_assoc]
      exact (readHeader_line (fuel + 1) (by decide) hread).trans (readHeader_crlf _ _ _)

theorem readHeader_header (fuel : Nat) (hp : p.Clean) (rest : Bytes) :
    readHeader (fuel + 3) ⟨none, none, none⟩ (p.header ++ (crlf ++ rest)) =
      some (⟨some p.name, p.filename, p.contentType⟩, rest) := by
  have hvalue (rest : Bytes) : readValue ⟨none, none, none⟩
    ((ascii "Content-Disposition").map lower)
      (p.disposition ++ (crlf ++ rest)) =
        some (⟨some p.name, p.filename, none⟩, crlf ++ rest) := by
    have hfield : (ascii "Content-Disposition").map lower = ascii "content-disposition" := by
      decide
    rw [hfield, readValue, if_pos rfl, readDisposition_write _ hp]
  have hread (rest : Bytes) := readLine_write rest (List.all_eq_true.mp (by decide))
    (dropWhile_append_of_self (l := p.disposition) rfl rfl _) (hvalue rest)
  rw [Part.header, append_assoc, append_assoc, append_assoc, append_assoc]
  exact (readHeader_line (fuel + 2) (by decide) (hread _)).trans
    (readHeader_contentType fuel _ hp rfl rest)

theorem three_le_length_header (p : Part) : 3 ≤ p.header.length := by
  simp only [Part.header, length_append]
  have : (ascii "Content-Disposition").length = 19 := by decide
  omega

theorem readPart_write (hb : 13 ∉ boundary) (hp : p.Clean)
    (hcontent : ¬ delimiter boundary <:+: p.content) (rest : Bytes) :
    readPart boundary (p.write ++ (delimiter boundary ++ rest)) = some (p, rest) := by
  have hdata : p.write ++ (delimiter boundary ++ rest) =
      p.header ++ (crlf ++ (p.content ++ (delimiter boundary ++ rest))) := by
    rw [Part.write, append_assoc, append_assoc]
  obtain ⟨fuel, hfuel⟩ : ∃ fuel,
      (p.header ++ (crlf ++ (p.content ++ (delimiter boundary ++ rest)))).length = fuel + 3 := by
    refine Nat.exists_eq_add_of_le' ?_
    rw [length_append]
    exact (three_le_length_header p).trans (Nat.le_add_right _ _)
  have hsplit : (p.content ++ (delimiter boundary ++ rest)).splitFirst (delimiter boundary) =
      some (p.content, rest) := by
    refine splitFirst_append ?_ hcontent rest
    simpa [dashes] using hb
  rw [readPart, hdata, hfuel, readHeader_header fuel hp, bind_some]
  change Option.map _ ((p.content ++ (delimiter boundary ++ rest)).splitFirst _) = _
  rw [hsplit]
  rfl

/-- The parts after a delimiter. -/
theorem readParts_write (hb : 13 ∉ boundary) {parts : List Part}
    (hparts : ∀ p ∈ parts, p.Clean ∧ ¬ delimiter boundary <:+: p.content) {fuel : Nat}
    (hfuel : parts.length < fuel) :
    readParts boundary fuel
      (parts.flatMap (fun p => crlf ++ p.write ++ delimiter boundary) ++ dashes ++ crlf) =
        some parts := by
  induction parts generalizing fuel with
  | nil =>
      obtain ⟨fuel, rfl⟩ := Nat.exists_eq_add_of_lt hfuel
      rw [readParts]
      exact if_pos rfl
  | cons p parts ih =>
      obtain ⟨⟨hp, hcontent⟩, hparts⟩ := forall_mem_cons.mp hparts
      cases fuel with
      | zero => exact absurd hfuel (Nat.not_lt_zero _)
      | succ fuel =>
          have hrest := ih hparts (Nat.lt_of_succ_lt_succ hfuel)
          rw [flatMap_cons]
          simp only [append_assoc] at hrest ⊢
          rw [readParts, if_neg (by rintro ⟨⟩), dropPrefix?_append_self, bind_some,
            readPart_write hb hp hcontent]
          exact congrArg (Option.map (p :: ·)) hrest

theorem length_le_length_flatMap (boundary : Bytes) (parts : List Part) :
    parts.length ≤
      (parts.flatMap fun p => crlf ++ p.write ++ delimiter boundary).length := by
  induction parts with
  | nil => exact Nat.le_refl 0
  | cons p parts ih =>
      rw [flatMap_cons, length_append, length_cons, Nat.add_comm]
      refine Nat.add_le_add ?_ ih
      simp [crlf]

/-- **What is clean is read as it was written.** -/
theorem read_write (hb : 13 ∉ boundary) {parts : List Part}
    (hparts : ∀ p ∈ parts, p.Clean ∧ ¬ delimiter boundary <:+: p.content) :
    read boundary (write boundary parts) = some parts := by
  have hlength : parts.length < (write boundary parts).length := by
    have := length_le_length_flatMap boundary parts
    simp only [write, dashes, length_append, length_cons]
    omega
  rw [read, write, dropPrefix?_append_self, ← write]
  exact readParts_write hb hparts hlength

/-- The delimiters by the parts they stand before. -/
theorem write_eq_flatMap (boundary : Bytes) (parts : List Part) :
    write boundary parts =
      parts.flatMap (fun p => dashes ++ boundary ++ crlf ++ p.write ++ crlf) ++
        (dashes ++ boundary ++ dashes ++ crlf) := by
  induction parts with
  | nil => simp only [write, flatMap_nil, nil_append, append_assoc]
  | cons p parts ih =>
      rw [flatMap_cons, append_assoc, ← ih]
      simp only [write, delimiter, flatMap_cons, append_assoc]

/-! ## Different bodies -/

theorem bne_of_not_mem {line : Bytes} (h : 13 ∉ line) : ∀ b ∈ line, (b != 13) = true :=
  fun _ hb => bne_iff_ne.mpr (ne_of_mem_of_not_mem hb h)

theorem dropWhile_write_nil (hb : 13 ∉ boundary) :
    (write boundary []).dropWhile (· != 13) = crlf := by
  have hline : 13 ∉ dashes ++ boundary ++ dashes := by simpa [dashes] using hb
  have hdata : write boundary [] = dashes ++ boundary ++ dashes ++ 13 :: [10] := by
    simp only [write, flatMap_nil, nil_append, append_assoc, crlf]
  rw [hdata, dropWhile_append_stop (bne_of_not_mem hline) rfl]
  rfl

/-- The first line of a body with parts. -/
theorem first_line_write (hb : 13 ∉ boundary) (p : Part) (parts : List Part) :
    (write boundary (p :: parts)).takeWhile (· != 13) = dashes ++ boundary ∧
      (write boundary (p :: parts)).dropWhile (· != 13) ≠ crlf := by
  have hline : ∀ b ∈ dashes ++ boundary, (b != 13) = true :=
    bne_of_not_mem (by simpa [dashes] using hb)
  have hdata : ∃ rest, write boundary (p :: parts) =
      dashes ++ boundary ++ 13 :: 10 :: (p.header ++ rest) := by
    refine ⟨crlf ++ (p.content ++ (delimiter boundary ++
      (parts.flatMap (fun p => crlf ++ p.write ++ delimiter boundary) ++ dashes ++ crlf))), ?_⟩
    simp only [write, Part.write, flatMap_cons, append_assoc]
    rfl
  obtain ⟨rest, hdata⟩ := hdata
  rw [hdata, takeWhile_append_stop hline rfl, dropWhile_append_stop hline rfl]
  refine ⟨rfl, fun heq => ?_⟩
  have hlength := congrArg List.length heq
  have := three_le_length_header p
  simp only [crlf, length_cons, length_append, length_nil] at hlength
  omega

/-- **Clean parts can be told from the body alone**, with any two boundaries. -/
theorem eq_of_write_eq {boundary' : Bytes} {parts parts' : List Part}
    (hb : 13 ∉ boundary) (hb' : 13 ∉ boundary')
    (hparts : ∀ p ∈ parts, p.Clean ∧ ¬ delimiter boundary <:+: p.content)
    (hparts' : ∀ p ∈ parts', p.Clean ∧ ¬ delimiter boundary' <:+: p.content)
    (heq : write boundary parts = write boundary' parts') : parts = parts' := by
  cases parts with
  | nil =>
      cases parts' with
      | nil => rfl
      | cons p' parts' =>
          refine absurd ?_ (first_line_write hb' p' parts').2
          rw [← heq, dropWhile_write_nil hb]
  | cons p parts =>
      cases parts' with
      | nil =>
          refine absurd ?_ (first_line_write hb p parts).2
          rw [heq, dropWhile_write_nil hb']
      | cons p' parts' =>
          have hline := (first_line_write hb p parts).1
          rw [heq, (first_line_write hb' p' parts').1] at hline
          have hread := read_write hb hparts
          rw [heq, ← append_cancel_left hline, read_write hb' hparts'] at hread
          exact (Option.some.inj hread).symm

end Write

end OpenWorkers.Multipart
