/-
# Theory.Http -- messages with a Content-Length, written and read back

A message as its writer puts it on a stream, and a reader that finds its end: the head up to
the empty line, then as many bytes as the one Content-Length field says.

* `read_append` -- more bytes on the stream do not change a message that was read.
* `read_write` -- a well-formed message is read back from whatever follows it.
* `read_prefix` -- and from no part of it but the whole.
-/
import Portrelay.Theory.Decimal

namespace Portrelay.Theory.Http

set_option autoImplicit false

structure Message where
  start : List UInt8
  fields : List (List UInt8 × List UInt8)
  body : List UInt8
  deriving DecidableEq, Repr

def CR : UInt8 := 13

def LF : UInt8 := 10

def COLON : UInt8 := 58

def SPACE : UInt8 := 32

/-- `content-length` -/
def lengthName : List UInt8 := [99, 111, 110, 116, 101, 110, 116, 45, 108, 101, 110, 103, 116, 104]

/-! ## Writing -/

def decimal (n : Nat) : List UInt8 := (Nat.toDigits 10 n).map fun c => UInt8.ofNat c.toNat

def writeField (field : List UInt8 × List UInt8) : List UInt8 :=
  field.1 ++ COLON :: SPACE :: field.2

/-- The lines of the head. -/
def Message.lines (m : Message) : List (List UInt8) := m.start :: m.fields.map writeField

def writeHead (lines : List (List UInt8)) : List UInt8 :=
  (lines.flatMap fun line => line ++ [CR, LF]) ++ [CR, LF]

def Message.write (m : Message) : List UInt8 := writeHead m.lines ++ m.body

/-! ## Reading -/

/-- The lines before the first empty one, and what follows it. -/
def readHead : List UInt8 → List UInt8 → Option (List (List UInt8) × List UInt8)
  | line, 13 :: 10 :: rest =>
      if line = [] then some ([], rest)
      else (readHead [] rest).map fun (lines, rest) => (line :: lines, rest)
  | line, byte :: rest => readHead (line ++ [byte]) rest
  | _, [] => none

def readField (line : List UInt8) : Option (List UInt8 × List UInt8) :=
  match line.dropWhile (· != COLON) with
  | [] => none
  | _ :: value => some (line.takeWhile (· != COLON), value.dropWhile (· == SPACE))

def readDecimal (bytes : List UInt8) : Option Nat :=
  let chars := bytes.map fun byte => Char.ofNat byte.toNat
  if chars ≠ [] ∧ chars.all Char.isDigit then some (Nat.ofDigitChars 10 chars 0) else none

/-- The field is a Content-Length. -/
def isLength (field : List UInt8 × List UInt8) : Bool :=
  field.1.map UInt8.toAsciiLower == lengthName

def contentLength (fields : List (List UInt8 × List UInt8)) : Option Nat :=
  match fields.filter isLength with
  | [field] => readDecimal field.2
  | _ => none

/-- A message at the front of a stream, and what follows it. -/
def read (bytes : List UInt8) : Option (Message × List UInt8) := do
  let (lines, rest) ← readHead [] bytes
  let start ← lines.head?
  let fields ← lines.tail.mapM readField
  let length ← contentLength fields
  if length ≤ rest.length then some (⟨start, fields, rest.take length⟩, rest.drop length) else none

/-! ## More of the stream -/

theorem readHead_append {line bytes rest : List UInt8} {lines : List (List UInt8)}
    (found : readHead line bytes = some (lines, rest)) (more : List UInt8) :
    readHead line (bytes ++ more) = some (lines, rest ++ more) := by
  fun_induction readHead line bytes generalizing lines rest with
  | case1 back =>
      cases found
      rfl
  | case2 line back some_ ih =>
      obtain ⟨⟨later, after⟩, there, same⟩ := Option.map_eq_some_iff.mp found
      cases same
      show readHead line (13 :: 10 :: (back ++ more)) = _
      rw [readHead, if_neg some_, ih there]
      rfl
  | case3 line byte back other ih =>
      have unbroken : ∀ rest, byte = 13 → back ++ more = 10 :: rest → False := by
        intro rest cr lf
        cases back with
        | nil =>
            rw [readHead] at found
            cases found
        | cons c back =>
            rw [List.cons_append, List.cons.injEq] at lf
            exact other back cr (lf.1 ▸ rfl)
      rw [List.cons_append, readHead.eq_2 _ _ _ unbroken]
      exact ih found
  | case4 => cases found

/-- A message that was read stays read. -/
theorem read_append {bytes rest : List UInt8} {m : Message} (found : read bytes = some (m, rest))
    (more : List UInt8) : read (bytes ++ more) = some (m, rest ++ more) := by
  obtain ⟨⟨lines, back⟩, head, found⟩ := Option.bind_eq_some_iff.mp found
  obtain ⟨start, first, found⟩ := Option.bind_eq_some_iff.mp found
  obtain ⟨fields, parsed, found⟩ := Option.bind_eq_some_iff.mp found
  obtain ⟨length, counted, found⟩ := Option.bind_eq_some_iff.mp found
  split at found
  · next enough =>
      cases found
      have enough' : length ≤ (back ++ more).length := by
        rw [List.length_append]
        exact Nat.le_add_right_of_le enough
      rw [read, readHead_append head more, Option.bind_eq_bind, Option.bind_some]
      simp only [first, parsed, counted, Option.bind_eq_bind, Option.bind_some, if_pos enough',
        List.take_append_of_le_length enough, List.drop_append_of_le_length enough]
  · cases found

/-! ## The writer's message -/

theorem readHead_line {text : List UInt8} (unbroken : CR ∉ text) (line rest : List UInt8) :
    readHead line (text ++ rest) = readHead (line ++ text) rest := by
  induction text generalizing line with
  | nil => rw [List.nil_append, List.append_nil]
  | cons byte text ih =>
      have first : byte ≠ CR := fun same => unbroken (same ▸ List.mem_cons_self)
      have others : CR ∉ text := fun member => unbroken (List.mem_cons_of_mem _ member)
      rw [List.cons_append, readHead.eq_2 _ _ _ fun _ cr _ => first cr, ih others,
        List.append_assoc, List.singleton_append]

theorem readHead_write {lines : List (List UInt8)}
    (each : ∀ line ∈ lines, line ≠ [] ∧ CR ∉ line) (rest : List UInt8) :
    readHead [] (writeHead lines ++ rest) = some (lines, rest) := by
  induction lines with
  | nil => rfl
  | cons line lines ih =>
      obtain ⟨some_, unbroken⟩ := each line List.mem_cons_self
      have shape : writeHead (line :: lines) ++ rest =
          line ++ (CR :: LF :: (writeHead lines ++ rest)) := by
        simp only [writeHead, List.flatMap_cons, List.append_assoc, List.cons_append,
          List.nil_append]
      have cut : readHead line (CR :: LF :: (writeHead lines ++ rest)) =
          (readHead [] (writeHead lines ++ rest)).map fun (lines, rest) => (line :: lines, rest) := by
        show readHead line (13 :: 10 :: (writeHead lines ++ rest)) = _
        rw [readHead, if_neg some_]
      rw [shape, readHead_line unbroken, List.nil_append, cut,
        ih fun other member => each other (List.mem_cons_of_mem _ member), Option.map_some]

/-- Name and value as the writer means them. -/
def FieldWritten (field : List UInt8 × List UInt8) : Prop :=
  COLON ∉ field.1 ∧ field.2.head? ≠ some SPACE

theorem readField_write {field : List UInt8 × List UInt8} (written : FieldWritten field) :
    readField (writeField field) = some field := by
  obtain ⟨name, value⟩ := field
  obtain ⟨named, bare⟩ := written
  have all : ∀ byte ∈ name, (byte != COLON) = true := by
    intro byte member
    exact bne_iff_ne.mpr fun same => named (same ▸ member)
  have front : (name ++ COLON :: SPACE :: value).takeWhile (· != COLON) = name := by
    rw [List.takeWhile_append_of_pos all, List.takeWhile_cons_of_neg (by decide), List.append_nil]
  have back : (name ++ COLON :: SPACE :: value).dropWhile (· != COLON) = COLON :: SPACE :: value := by
    rw [List.dropWhile_append_of_pos all, List.dropWhile_cons_of_neg (by decide)]
  have trimmed : (SPACE :: value).dropWhile (· == SPACE) = value := by
    rw [List.dropWhile_cons_of_pos (by decide)]
    cases value with
    | nil => rfl
    | cons byte value =>
        refine List.dropWhile_cons_of_neg ?_
        intro blank
        exact bare (congrArg some (beq_iff_eq.mp blank))
  show readField (name ++ COLON :: SPACE :: value) = some (name, value)
  rw [readField, back, front]
  exact congrArg some (Prod.ext rfl trimmed)

theorem mapM_readField {fields : List (List UInt8 × List UInt8)}
    (written : ∀ field ∈ fields, FieldWritten field) :
    (fields.map writeField).mapM readField = some fields := by
  induction fields with
  | nil => rfl
  | cons field fields ih =>
      rw [List.map_cons, List.mapM_cons, readField_write (written field List.mem_cons_self),
        ih fun other member => written other (List.mem_cons_of_mem _ member)]
      rfl

theorem readDecimal_decimal (n : Nat) : readDecimal (decimal n) = some n := by
  have digits := digits_isDigit n
  have chars : (decimal n).map (fun byte => Char.ofNat byte.toNat) = Nat.toDigits 10 n := by
    rw [decimal, List.map_map]
    conv => rhs; rw [← List.map_id (Nat.toDigits 10 n)]
    refine List.map_congr_left ?_
    intro c member
    have digit : 48 ≤ c.toNat ∧ c.toNat ≤ 57 := by
      simpa [Char.isDigit, UInt32.le_iff_toNat_le] using digits c member
    have byte : (UInt8.ofNat c.toNat).toNat = c.toNat := by
      rw [UInt8.toNat_ofNat']
      exact Nat.mod_eq_of_lt (by omega)
    rw [Function.comp_apply, byte, Char.ofNat_toNat, id]
  have all : (Nat.toDigits 10 n).all Char.isDigit = true := List.all_eq_true.mpr digits
  have some_ : Nat.toDigits 10 n ≠ [] := Nat.toDigits_ne_nil
  rw [readDecimal, chars]
  simp only [all, some_, ne_eq, not_false_eq_true, and_self, if_true, Nat.ofDigitChars_ten_toDigits]

/-- What a message needs to be read back: no line is empty or broken, and the one
Content-Length is the body's. -/
structure Message.WellFormed (m : Message) : Prop where
  start : m.start ≠ [] ∧ CR ∉ m.start
  fields : ∀ field ∈ m.fields, FieldWritten field ∧ CR ∉ writeField field
  length : ∃ name, m.fields.filter isLength = [(name, decimal m.body.length)]

theorem read_write {m : Message} (valid : m.WellFormed) (rest : List UInt8) :
    read (m.write ++ rest) = some (m, rest) := by
  obtain ⟨name, one⟩ := valid.length
  have lines : ∀ line ∈ m.lines, line ≠ [] ∧ CR ∉ line := by
    intro line member
    rcases List.mem_cons.mp member with rfl | later
    · exact valid.start
    · obtain ⟨field, among, rfl⟩ := List.mem_map.mp later
      refine ⟨?_, (valid.fields field among).2⟩
      exact List.append_ne_nil_of_right_ne_nil _ (List.cons_ne_nil _ _)
  have parsed := mapM_readField fun field member => (valid.fields field member).1
  have counted : contentLength m.fields = some m.body.length := by
    simp only [contentLength, one]
    exact readDecimal_decimal m.body.length
  have enough : m.body.length ≤ (m.body ++ rest).length := by
    rw [List.length_append]
    exact Nat.le_add_right _ _
  rw [read, Message.write, List.append_assoc, readHead_write lines, Option.bind_eq_bind,
    Option.bind_some]
  simp only [Message.lines, List.head?_cons, List.tail_cons, parsed, counted, Option.bind_eq_bind,
    Option.bind_some, if_pos enough, List.take_left, List.drop_left]

/-- The only part of a message that reads as a message is the whole. -/
theorem read_prefix {m : Message} (valid : m.WellFormed) {part : List UInt8} (front : part <+: m.write)
    {other : Message} {rest : List UInt8} (found : read part = some (other, rest)) :
    part = m.write ∧ other = m ∧ rest = [] := by
  obtain ⟨missing, whole⟩ := front
  have all := read_write valid []
  rw [List.append_nil, ← whole, read_append found missing] at all
  obtain ⟨same, none_⟩ := Prod.mk.inj (Option.some.inj all)
  obtain ⟨empty, absent⟩ := List.append_eq_nil_iff.mp none_
  rw [absent, List.append_nil] at whole
  exact ⟨whole, same, empty⟩

end Portrelay.Theory.Http
