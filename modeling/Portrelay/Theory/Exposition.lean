/-
# Theory.Exposition -- the Prometheus text format, line by line

Lines, how they are written and how they are read.  `parse` reads the part of the format
that exporters write: HELP and TYPE lines and samples without a timestamp, with single
blanks and unsigned decimal values; what it accepts the full format accepts with the
same reading.

* `readQuoted_escape` -- escaping a label value is undone by reading up to the closing
  quote, whatever the value.
* `parse_write` -- what is written is read back, line for line.
-/
import Mathlib.Algebra.GroupWithZero.Nat
import Mathlib.Data.List.Basic
import Portrelay.Theory.Decimal

namespace Portrelay.Theory.Exposition

set_option autoImplicit false

/-- A decimal number, `mantissa / 10 ^ decimals`. -/
structure Value where
  mantissa : Nat
  decimals : Nat
  deriving DecidableEq, Repr

structure Sample where
  name : List Char
  labels : List (List Char × List Char)
  value : Value
  deriving DecidableEq, Repr

/-- One time series: the same metric under the same labels. -/
def Sample.SameSeries (s t : Sample) : Prop :=
  s.name = t.name ∧ ∀ label, label ∈ s.labels ↔ label ∈ t.labels

inductive Line
  | help (name doc : List Char)
  | kind (name type : List Char)
  | sample (sample : Sample)
  deriving DecidableEq, Repr

/-! ## Names -/

def isLabelChar (c : Char) : Bool := c.isAlpha || c.isDigit || c == '_'

def isNameChar (c : Char) : Bool := isLabelChar c || c == ':'

/-- A metric name: name characters, the first of them no digit. -/
def isName : List Char → Bool
  | [] => false
  | c :: rest => !c.isDigit && isNameChar c && rest.all isNameChar

def isLabelName : List Char → Bool
  | [] => false
  | c :: rest => !c.isDigit && isLabelChar c && rest.all isLabelChar

def types : List (List Char) :=
  ["counter".toList, "gauge".toList, "histogram".toList, "summary".toList, "untyped".toList]

/-! ## Writing -/

def escapeChar (c : Char) : List Char :=
  if c = '\\' then ['\\', '\\'] else if c = '"' then ['\\', '"'] else if c = '\n' then ['\\', 'n']
  else [c]

def escape (value : List Char) : List Char := value.flatMap escapeChar

def writeLabel (label : List Char × List Char) : List Char :=
  label.1 ++ '=' :: '"' :: (escape label.2 ++ ['"'])

def writeLabels : List (List Char × List Char) → List Char
  | [] => []
  | [label] => writeLabel label
  | label :: rest => writeLabel label ++ ',' :: writeLabels rest

def Value.write (v : Value) : List Char :=
  if v.decimals = 0 then Nat.toDigits 10 v.mantissa
  else
    let fraction := Nat.toDigits 10 (v.mantissa % 10 ^ v.decimals)
    Nat.toDigits 10 (v.mantissa / 10 ^ v.decimals) ++
      '.' :: (List.replicate (v.decimals - fraction.length) '0' ++ fraction)

def Sample.write (s : Sample) : List Char :=
  s.name ++ (if s.labels = [] then [] else '{' :: (writeLabels s.labels ++ ['}'])) ++
    ' ' :: s.value.write

def Line.write : Line → List Char
  | .help name doc => ['#', ' ', 'H', 'E', 'L', 'P', ' '] ++ name ++ ' ' :: doc
  | .kind name type => ['#', ' ', 'T', 'Y', 'P', 'E', ' '] ++ name ++ ' ' :: type
  | .sample s => s.write

def write (lines : List Line) : List Char := lines.flatMap fun line => line.write ++ ['\n']

theorem write_append (front back : List Line) : write (front ++ back) = write front ++ write back :=
  List.flatMap_append

/-! ## Reading -/

/-- A label value after its opening quote, unescaped, and what follows the closing one. -/
def readQuoted : List Char → Option (List Char × List Char)
  | [] => none
  | '"' :: rest => some ([], rest)
  | '\\' :: '\\' :: rest => (readQuoted rest).map fun read => ('\\' :: read.1, read.2)
  | '\\' :: '"' :: rest => (readQuoted rest).map fun read => ('"' :: read.1, read.2)
  | '\\' :: 'n' :: rest => (readQuoted rest).map fun read => ('\n' :: read.1, read.2)
  | c :: rest =>
      if c = '\\' ∨ c = '\n' then none
      else (readQuoted rest).map fun read => (c :: read.1, read.2)

def readLabel (cs : List Char) : Option ((List Char × List Char) × List Char) :=
  match cs.dropWhile isLabelChar with
  | '=' :: '"' :: rest =>
      let name := cs.takeWhile isLabelChar
      if isLabelName name then (readQuoted rest).map fun read => ((name, read.1), read.2) else none
  | _ => none

/-- The labels after the opening brace, and what follows the closing one. -/
def readLabels : Nat → List Char → Option (List (List Char × List Char) × List Char)
  | 0, _ => none
  | fuel + 1, cs =>
      match readLabel cs with
      | some (label, ',' :: rest) =>
          (readLabels fuel rest).map fun read => (label :: read.1, read.2)
      | some (label, '}' :: rest) => some ([label], rest)
      | _ => none

def parseValue (cs : List Char) : Option Value :=
  let whole := cs.takeWhile Char.isDigit
  if whole = [] then none
  else
    match cs.dropWhile Char.isDigit with
    | [] => some ⟨Nat.ofDigitChars 10 whole 0, 0⟩
    | '.' :: fraction =>
        if fraction ≠ [] ∧ fraction.all Char.isDigit = true then
          some ⟨Nat.ofDigitChars 10 (whole ++ fraction) 0, fraction.length⟩
        else none
    | _ => none

def parseSample (cs : List Char) : Option Sample :=
  let name := cs.takeWhile isNameChar
  if isName name then
    match cs.dropWhile isNameChar with
    | '{' :: rest =>
        match readLabels rest.length rest with
        | some (labels, ' ' :: value) => (parseValue value).map fun value => ⟨name, labels, value⟩
        | _ => none
    | ' ' :: value => (parseValue value).map fun value => ⟨name, [], value⟩
    | _ => none
  else none

/-- A metric name and, after a blank, the rest of its HELP or TYPE line. -/
def readNamed (cs : List Char) : Option (List Char × List Char) :=
  let name := cs.takeWhile isNameChar
  if isName name then
    match cs.dropWhile isNameChar with
    | ' ' :: rest => some (name, rest)
    | _ => none
  else none

def parseLine : List Char → Option Line
  | '#' :: ' ' :: 'H' :: 'E' :: 'L' :: 'P' :: ' ' :: rest =>
      (readNamed rest).bind fun read => if '\\' ∈ read.2 then none else some (.help read.1 read.2)
  | '#' :: ' ' :: 'T' :: 'Y' :: 'P' :: 'E' :: ' ' :: rest =>
      (readNamed rest).bind fun read => if types.contains read.2 then some (.kind read.1 read.2) else none
  | cs => (parseSample cs).map .sample

/-- Every line of a text that ends with its last line's end. -/
def parse (text : List Char) : Option (List Line) :=
  let lines := text.splitOn '\n'
  if lines.getLast? = some [] then lines.dropLast.mapM parseLine else none

/-! ## Label values -/

/-- A character that is written as itself. -/
theorem readQuoted_plain {c : Char} (slash : c ≠ '\\') (quote : c ≠ '"') (newline : c ≠ '\n')
    (rest : List Char) :
    readQuoted (c :: rest) = (readQuoted rest).map fun read => (c :: read.1, read.2) := by
  rw [readQuoted]
  · rw [if_neg (by simp only [slash, newline, or_self, not_false_iff])]
  · exact fun h => quote h
  all_goals exact fun _ h _ => slash h

theorem readQuoted_escapeChar (c : Char) (rest : List Char) :
    readQuoted (escapeChar c ++ rest) = (readQuoted rest).map fun read => (c :: read.1, read.2) := by
  unfold escapeChar
  by_cases slash : c = '\\'
  · subst slash
    rfl
  · by_cases quote : c = '"'
    · subst quote
      rfl
    · by_cases newline : c = '\n'
      · subst newline
        rfl
      · rw [if_neg slash, if_neg quote, if_neg newline]
        exact readQuoted_plain slash quote newline rest

/-- A label value is read back, whatever it is, and the text after it is untouched. -/
theorem readQuoted_escape (value rest : List Char) :
    readQuoted (escape value ++ '"' :: rest) = some (value, rest) := by
  induction value with
  | nil => rfl
  | cons c value ih =>
      rw [escape, List.flatMap_cons, List.append_assoc, readQuoted_escapeChar]
      rw [escape] at ih
      rw [ih, Option.map_some]

theorem newline_not_mem_escape (value : List Char) : '\n' ∉ escape value := by
  intro member
  obtain ⟨c, -, inside⟩ := List.mem_flatMap.mp member
  unfold escapeChar at inside
  split at inside
  · simp at inside
  · split at inside
    · simp at inside
    · split at inside
      · simp at inside
      · rename_i newline
        exact newline (List.mem_singleton.mp inside).symm

/-! ## Names, labels and values -/

/-- A scan stops where its characters do. -/
theorem span_stop {p : Char → Bool} {front : List Char} (all : ∀ c ∈ front, p c = true)
    (back : List Char) (stop : ∀ c ∈ back.head?, p c = false) :
    (front ++ back).takeWhile p = front ∧ (front ++ back).dropWhile p = back := by
  rw [List.takeWhile_append_of_pos all, List.dropWhile_append_of_pos all]
  cases back with
  | nil => exact ⟨List.append_nil front, rfl⟩
  | cons c back =>
      have ends := stop c rfl
      rw [List.takeWhile_cons_of_neg (by rw [ends]; exact Bool.false_ne_true),
        List.dropWhile_cons_of_neg (by rw [ends]; exact Bool.false_ne_true)]
      exact ⟨List.append_nil front, rfl⟩

theorem isName_all {name : List Char} (valid : isName name = true) :
    ∀ c ∈ name, isNameChar c = true := by
  cases name with
  | nil => exact fun c member => absurd member List.not_mem_nil
  | cons first rest =>
      simp only [isName, Bool.and_eq_true, List.all_eq_true] at valid
      intro c member
      rcases List.mem_cons.mp member with rfl | later
      · exact valid.1.2
      · exact valid.2 c later

theorem isLabelName_all {name : List Char} (valid : isLabelName name = true) :
    ∀ c ∈ name, isLabelChar c = true := by
  cases name with
  | nil => exact fun c member => absurd member List.not_mem_nil
  | cons first rest =>
      simp only [isLabelName, Bool.and_eq_true, List.all_eq_true] at valid
      intro c member
      rcases List.mem_cons.mp member with rfl | later
      · exact valid.1.2
      · exact valid.2 c later

theorem not_mem_of_class {p : Char → Bool} {cs : List Char} {c : Char}
    (all : ∀ c ∈ cs, p c = true) (other : p c = false) : c ∉ cs := by
  intro member
  rw [all c member] at other
  cases other

theorem readLabel_write {label : List Char × List Char} (valid : isLabelName label.1 = true)
    (rest : List Char) : readLabel (writeLabel label ++ rest) = some (label, rest) := by
  have scan := span_stop (isLabelName_all valid) ('=' :: '"' :: (escape label.2 ++ '"' :: rest))
    (fun c first => by cases first; rfl)
  have shape : writeLabel label ++ rest =
      label.1 ++ '=' :: '"' :: (escape label.2 ++ '"' :: rest) := by
    simp only [writeLabel, List.append_assoc, List.cons_append, List.nil_append]
  rw [shape, readLabel, scan.2]
  simp only [scan.1, valid, if_true, readQuoted_escape, Option.map_some]

theorem readLabels_write {labels : List (List Char × List Char)} (some_ : labels ≠ [])
    (valid : ∀ label ∈ labels, isLabelName label.1 = true) {fuel : Nat}
    (enough : labels.length ≤ fuel) (rest : List Char) :
    readLabels fuel (writeLabels labels ++ '}' :: rest) = some (labels, rest) := by
  induction labels generalizing fuel with
  | nil => exact absurd rfl some_
  | cons label others ih =>
      cases fuel with
      | zero => exact absurd enough (Nat.not_succ_le_zero _)
      | succ fuel =>
          have first := valid label List.mem_cons_self
          cases others with
          | nil =>
              simp only [readLabels, writeLabels, readLabel_write first]
          | cons next others =>
              have later := ih (List.cons_ne_nil next others)
                (fun l member => valid l (List.mem_cons_of_mem _ member)) (Nat.le_of_succ_le_succ enough)
              have shape : writeLabels (label :: next :: others) ++ '}' :: rest =
                  writeLabel label ++ ',' :: (writeLabels (next :: others) ++ '}' :: rest) := by
                simp only [writeLabels, List.append_assoc, List.cons_append]
              rw [shape, readLabels, readLabel_write first]
              simp only [later, Option.map_some]

theorem length_le_writeLabels (labels : List (List Char × List Char)) :
    labels.length ≤ (writeLabels labels).length := by
  induction labels with
  | nil => exact Nat.zero_le _
  | cons label others ih =>
      cases others with
      | nil =>
          simp only [writeLabels, writeLabel, List.length_append, List.length_cons, List.length_nil]
          omega
      | cons next others =>
          simp only [writeLabels, List.length_append, List.length_cons] at ih ⊢
          omega

theorem parseValue_write (v : Value) : parseValue v.write = some v := by
  unfold Value.write
  split
  · rename_i whole
    have scan := span_stop (digits_isDigit v.mantissa) [] (fun c first => by cases first)
    rw [List.append_nil] at scan
    simp only [parseValue, scan.1, scan.2, Nat.toDigits_ne_nil, if_false,
      Nat.ofDigitChars_ten_toDigits]
    rw [← whole]
  · rename_i decimals
    have small : v.mantissa % 10 ^ v.decimals < 10 ^ v.decimals :=
      Nat.mod_lt _ (Nat.pow_pos (by decide))
    have short : (Nat.toDigits 10 (v.mantissa % 10 ^ v.decimals)).length ≤ v.decimals :=
      (Nat.length_toDigits_le_iff (by decide) (Nat.pos_of_ne_zero decimals)).mpr small
    have number := ofDigitChars_fraction short (v.mantissa / 10 ^ v.decimals)
    rw [Nat.div_add_mod] at number
    have places : (List.replicate (v.decimals - (Nat.toDigits 10
        (v.mantissa % 10 ^ v.decimals)).length) '0' ++
        Nat.toDigits 10 (v.mantissa % 10 ^ v.decimals)).length = v.decimals := by
      rw [List.length_append, List.length_replicate, Nat.sub_add_cancel short]
    have digits : (List.replicate (v.decimals - (Nat.toDigits 10
        (v.mantissa % 10 ^ v.decimals)).length) '0' ++
        Nat.toDigits 10 (v.mantissa % 10 ^ v.decimals)).all Char.isDigit = true := by
      rw [List.all_append, Bool.and_eq_true, List.all_eq_true, List.all_eq_true]
      exact ⟨fun c member => by rw [(List.mem_replicate.mp member).2]; rfl, digits_isDigit _⟩
    show parseValue (Nat.toDigits 10 (v.mantissa / 10 ^ v.decimals) ++ '.' :: (List.replicate
      (v.decimals - (Nat.toDigits 10 (v.mantissa % 10 ^ v.decimals)).length) '0' ++
        Nat.toDigits 10 (v.mantissa % 10 ^ v.decimals))) = some v
    generalize List.replicate (v.decimals - (Nat.toDigits 10
      (v.mantissa % 10 ^ v.decimals)).length) '0' ++
        Nat.toDigits 10 (v.mantissa % 10 ^ v.decimals) = fraction at number places digits
    have scan := span_stop (digits_isDigit (v.mantissa / 10 ^ v.decimals)) ('.' :: fraction)
      (fun c first => by cases first; rfl)
    have some_ : fraction ≠ [] := by
      rintro rfl
      exact decimals places.symm
    simp only [parseValue, scan.1, scan.2, Nat.toDigits_ne_nil, if_false, ne_eq, some_, digits,
      not_false_eq_true, and_self, if_true, Nat.ofDigitChars_append,
      Nat.ofDigitChars_ten_toDigits, number, places]

theorem newline_not_mem_value (v : Value) : '\n' ∉ v.write := by
  have digits : ∀ n, '\n' ∉ Nat.toDigits 10 n := fun n => not_mem_of_class (digits_isDigit n) rfl
  unfold Value.write
  split
  · exact digits _
  · simp only [List.mem_append, List.mem_cons, List.mem_replicate, digits, or_false, false_or,
      not_or, not_and]
    exact ⟨by decide, fun _ => by decide⟩

/-! ## Lines -/

/-- What can be written: names are names, and the texts of HELP and TYPE lines plain. -/
def Line.WellFormed : Line → Prop
  | .help name doc => isName name = true ∧ '\\' ∉ doc ∧ '\n' ∉ doc
  | .kind name type => isName name = true ∧ type ∈ types
  | .sample s => isName s.name = true ∧ ∀ label ∈ s.labels, isLabelName label.1 = true

theorem parseSample_write {s : Sample} (name : isName s.name = true)
    (labels : ∀ label ∈ s.labels, isLabelName label.1 = true) : parseSample s.write = some s := by
  obtain ⟨metric, tags, value⟩ := s
  unfold Sample.write
  by_cases none : tags = []
  · subst none
    have scan := span_stop (isName_all name) (' ' :: value.write) (fun c first => by cases first; rfl)
    simp only [if_true, List.append_nil, parseSample, scan.1, scan.2, name, parseValue_write,
      Option.map_some]
  · have scan := span_stop (isName_all name)
      ('{' :: (writeLabels tags ++ '}' :: ' ' :: value.write)) (fun c first => by cases first; rfl)
    have shape : metric ++ (if tags = [] then [] else '{' :: (writeLabels tags ++ ['}'])) ++
        ' ' :: value.write = metric ++ '{' :: (writeLabels tags ++ '}' :: ' ' :: value.write) := by
      simp only [none, if_false, List.append_assoc, List.cons_append, List.nil_append]
    have enough : tags.length ≤ (writeLabels tags ++ '}' :: ' ' :: value.write).length := by
      have some_ := length_le_writeLabels tags
      rw [List.length_append]
      omega
    rw [shape]
    simp only [parseSample, scan.1, scan.2, name, if_true,
      readLabels_write none labels enough, parseValue_write, Option.map_some]

theorem readNamed_write {name : List Char} (valid : isName name = true) (rest : List Char) :
    readNamed (name ++ ' ' :: rest) = some (name, rest) := by
  have scan := span_stop (isName_all valid) (' ' :: rest) (fun c first => by cases first; rfl)
  simp only [readNamed, scan.1, scan.2, valid, if_true]

theorem parseLine_sample {c : Char} (sign : c ≠ '#') (rest : List Char) :
    parseLine (c :: rest) = (parseSample (c :: rest)).map .sample := by
  rw [parseLine]
  all_goals exact fun _ same => absurd (List.cons.inj same).1 sign

theorem parseLine_write {line : Line} (valid : line.WellFormed) :
    parseLine line.write = some line := by
  cases line with
  | help name doc =>
      obtain ⟨named, plain, -⟩ := valid
      have read := readNamed_write named doc
      show (readNamed (name ++ ' ' :: doc)).bind _ = _
      rw [read, Option.bind_some, if_neg plain]
  | kind name type =>
      obtain ⟨named, known⟩ := valid
      have read := readNamed_write named type
      show (readNamed (name ++ ' ' :: type)).bind _ = _
      rw [read, Option.bind_some, if_pos (List.contains_iff_mem.mpr known)]
  | sample s =>
      obtain ⟨named, labels⟩ := valid
      have sample : parseLine s.write = (parseSample s.write).map .sample := by
        obtain ⟨metric, tags, value⟩ := s
        cases metric with
        | nil => cases named
        | cons c rest =>
            refine parseLine_sample ?_ _
            rintro rfl
            cases isName_all named '#' List.mem_cons_self
      show parseLine s.write = _
      rw [sample, parseSample_write named labels, Option.map_some]

theorem newline_not_mem_labels {labels : List (List Char × List Char)}
    (valid : ∀ label ∈ labels, isLabelName label.1 = true) : '\n' ∉ writeLabels labels := by
  induction labels with
  | nil => exact List.not_mem_nil
  | cons label others ih =>
      have first : '\n' ∉ writeLabel label := by
        have named := not_mem_of_class (isLabelName_all (valid label List.mem_cons_self))
          (show isLabelChar '\n' = false from rfl)
        simp only [writeLabel, List.mem_append, List.mem_cons, named, newline_not_mem_escape,
          List.not_mem_nil, or_false, false_or]
        decide
      have later := ih fun l member => valid l (List.mem_cons_of_mem _ member)
      cases others with
      | nil => exact first
      | cons next others =>
          simp only [writeLabels, List.mem_append, List.mem_cons, first, later, or_false, false_or]
          decide

theorem newline_not_mem_name {name : List Char} (valid : isName name = true) : '\n' ∉ name :=
  not_mem_of_class (isName_all valid) (show isNameChar '\n' = false from rfl)

theorem newline_not_mem_sample {s : Sample} (named : isName s.name = true)
    (labels : ∀ label ∈ s.labels, isLabelName label.1 = true) : '\n' ∉ s.write := by
  have value := newline_not_mem_value s.value
  have tags := newline_not_mem_labels labels
  unfold Sample.write
  split
  · simp only [List.mem_append, List.mem_cons, newline_not_mem_name named, value, List.not_mem_nil,
      or_false]
    decide
  · simp only [List.mem_append, List.mem_cons, newline_not_mem_name named, value, tags,
      List.not_mem_nil, or_false, false_or]
    decide

/-- A written line is one line. -/
theorem newline_not_mem_write {line : Line} (valid : line.WellFormed) : '\n' ∉ line.write := by
  cases line with
  | help name doc =>
      simp only [Line.write, List.mem_append, List.mem_cons, newline_not_mem_name valid.1,
        valid.2.2, List.not_mem_nil, or_false]
      decide
  | kind name type =>
      have all : ∀ t ∈ types, '\n' ∉ t := by decide
      simp only [Line.write, List.mem_append, List.mem_cons, newline_not_mem_name valid.1,
        all type valid.2, List.not_mem_nil, or_false]
      decide
  | sample s => exact newline_not_mem_sample valid.1 valid.2

theorem splitOn_write {lines : List Line} (valid : ∀ line ∈ lines, line.WellFormed) :
    (write lines).splitOn '\n' = lines.map Line.write ++ [[]] := by
  induction lines with
  | nil => rfl
  | cons line lines ih =>
      have first := newline_not_mem_write (valid line List.mem_cons_self)
      have shape : write (line :: lines) = line.write ++ '\n' :: write lines := by
        simp only [write, List.flatMap_cons, List.append_assoc, List.cons_append, List.nil_append]
      rw [shape, List.splitOn_append_cons_self_of_not_mem first,
        ih fun l member => valid l (List.mem_cons_of_mem _ member)]
      rfl

/-- Well formed lines are read back from their text, each of them and no other. -/
theorem parse_write {lines : List Line} (valid : ∀ line ∈ lines, line.WellFormed) :
    parse (write lines) = some lines := by
  have each : (lines.map Line.write).mapM parseLine = some lines := by
    induction lines with
    | nil => rfl
    | cons line lines ih =>
        have later := ih fun l member => valid l (List.mem_cons_of_mem _ member)
        rw [List.map_cons, List.mapM_cons, parseLine_write (valid line List.mem_cons_self), later]
        rfl
  simp only [parse, splitOn_write valid, List.getLast?_concat, if_true, List.dropLast_concat, each]

end Portrelay.Theory.Exposition
