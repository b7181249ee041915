/-
# Server.BearerToken -- has_valid_bearer_token, byte offset by byte offset

The token check of `src/server.rs` with slices and indices that fail out of range, and
what it looks for, said without offsets (`AuthorizationLine`).

* `trimAscii_eq` -- `trim_ascii` never fails and trims.
* `bearerLine_exact` -- a line passes the check exactly when it is an authorization line.
* `hasValidBearerToken_exact` -- so does a request with such a line after its first.
-/
import Portrelay.Theory.Slices

namespace Portrelay.Server

open Portrelay.Theory

set_option autoImplicit false

/-- The bytes of a text in UTF-8. -/
def utf8 (text : List Char) : List UInt8 := text.flatMap String.utf8EncodeChar

/-- `ConstantTimeEq` of the `subtle` crate on byte slices. -/
structure CtEq where
  ctEq : List UInt8 → List UInt8 → Bool
  iff_eq : ∀ a b, ctEq a b = true ↔ a = b

def CtEq.decided : CtEq := ⟨fun a b => decide (a = b), fun _ _ => decide_eq_true_iff⟩

/-! ## The check -/

def LF : UInt8 := 10

def CR : UInt8 := 13

def COLON : UInt8 := 58

/-- `u8::is_ascii_whitespace` -/
def isAsciiWhitespace (byte : UInt8) : Bool :=
  byte == 32 || byte == 9 || byte == 10 || byte == 12 || byte == 13

def eqIgnoreAsciiCase (a b : List UInt8) : Bool :=
  decide (a.map UInt8.toAsciiLower = b.map UInt8.toAsciiLower)

def trimAscii (value : List UInt8) : Option (List UInt8) :=
  let start := (value.findIdx? fun byte => !isAsciiWhitespace byte).getD value.length
  let stop := ((rposition (fun byte => !isAsciiWhitespace byte) value).map (· + 1)).getD start
  slice value start stop

/-- `line.strip_suffix(b"\r").unwrap_or(line)` -/
def stripCr (line : List UInt8) : List UInt8 :=
  if line.getLast? = some CR then line.dropLast else line

/-- `b"authorization"` -/
def authorization : List UInt8 := [97, 117, 116, 104, 111, 114, 105, 122, 97, 116, 105, 111, 110]

/-- `b"bearer"` -/
def bearer : List UInt8 := [98, 101, 97, 114, 101, 114]

/-- The value of an Authorization line. -/
def bearerValue (ct : CtEq) (expected value : List UInt8) : Option Bool :=
  if value.length < 7 then some false
  else do
    let scheme ← sliceTo value 6
    if !eqIgnoreAsciiCase scheme bearer then some false
    else do
      let gap ← value[6]?
      if !isAsciiWhitespace gap then some false
      else do
        let rest ← sliceFrom value 6
        let token ← trimAscii rest
        some (ct.ctEq token expected)

/-- One line, its carriage return stripped. -/
def bearerLine (ct : CtEq) (expected line : List UInt8) : Option Bool :=
  match line.findIdx? (· == COLON) with
  | none => some false
  | some colon => do
      let name ← sliceTo line colon
      if !eqIgnoreAsciiCase name authorization then some false
      else do
        let field ← sliceFrom line (colon + 1)
        let value ← trimAscii field
        bearerValue ct expected value

def hasValidBearerToken (ct : CtEq) (request expected : List UInt8) : Option Bool :=
  ((request.splitOn LF).drop 1).anyM fun line => bearerLine ct expected (stripCr line)

/-! ## What it looks for -/

/-- The line without its carriage return is a header `authorization` whose value is `bearer`,
blanks and the token. -/
def AuthorizationLine (expected line : List UInt8) : Prop :=
  ∃ name value scheme gap rest, line = name ++ COLON :: value ∧
    eqIgnoreAsciiCase name authorization = true ∧
    Trims isAsciiWhitespace value (scheme ++ gap :: rest) ∧
    eqIgnoreAsciiCase scheme bearer = true ∧ isAsciiWhitespace gap = true ∧
    Trims isAsciiWhitespace (gap :: rest) expected

/-- A line after the first is such a header. -/
def Authorizes (expected request : List UInt8) : Prop :=
  ∃ line ∈ (request.splitOn LF).drop 1, AuthorizationLine expected (stripCr line)

/-! ## The check is exact -/

theorem trimAscii_eq {value core : List UInt8} (trims : Trims isAsciiWhitespace value core) :
    trimAscii value = some core := by
  obtain ⟨front, back, rfl, before, after, first, last⟩ := trims
  have before' : ∀ byte ∈ front, (!isAsciiWhitespace byte) = false :=
    fun byte member => by rw [before byte member, Bool.not_true]
  have after' : ∀ byte ∈ back, (!isAsciiWhitespace byte) = false :=
    fun byte member => by rw [after byte member, Bool.not_true]
  rcases List.eq_nil_or_concat core with rfl | ⟨init, final, rfl⟩
  · have all : ∀ byte ∈ front ++ [] ++ back, (!isAsciiWhitespace byte) = false := by
      intro byte member
      rw [List.append_nil] at member
      exact (List.mem_append.mp member).elim (before' byte) (after' byte)
    have nothing := slice_middle (front ++ [] ++ back) [] []
    rw [List.append_nil, List.append_nil, List.length_nil, Nat.add_zero] at nothing
    simp only [trimAscii, List.findIdx?_eq_none_iff.mpr all, rposition_eq_none all,
      Option.map_none, Option.getD_none, nothing]
  · rw [List.concat_eq_append] at first last ⊢
    have final_ : (!isAsciiWhitespace final) = true := by
      rw [last final (List.getLast?_concat ..), Bool.not_false]
    have stop := rposition_before after' final_ (front ++ init)
    have start : (front ++ (init ++ [final]) ++ back).findIdx? (fun byte => !isAsciiWhitespace byte) =
        some front.length := by
      cases shape : init ++ [final] with
      | nil => simp at shape
      | cons a rest =>
          rw [shape] at first
          rw [List.append_assoc, List.cons_append]
          exact findIdx?_past before' (by rw [first a rfl, Bool.not_false]) _
    have regroup : front ++ init ++ final :: back = front ++ (init ++ [final]) ++ back := by
      simp only [List.append_assoc, List.singleton_append]
    have middle := slice_middle front (init ++ [final]) back
    rw [regroup] at stop
    simp only [trimAscii, start, stop, Option.map_some, Option.getD_some]
    rw [← middle]
    simp only [List.length_append, List.length_singleton, Nat.add_assoc]

theorem length_of_eqIgnoreAsciiCase {a b : List UInt8} (same : eqIgnoreAsciiCase a b = true) :
    a.length = b.length := by
  have lengths := congrArg List.length (of_decide_eq_true same)
  rwa [List.length_map, List.length_map] at lengths

/-- Where a value that starts with `bearer` has its parts. -/
theorem bearer_parts {value scheme : List UInt8} {gap : UInt8} {rest : List UInt8}
    (shape : value = scheme ++ gap :: rest) (same : eqIgnoreAsciiCase scheme bearer = true) :
    value.take 6 = scheme ∧ value[6]? = some gap ∧ value.drop 6 = gap :: rest ∧
      7 ≤ value.length := by
  subst shape
  have six : scheme.length = 6 := length_of_eqIgnoreAsciiCase same
  refine ⟨List.take_left' six, ?_, List.drop_left' six, ?_⟩
  · rw [List.getElem?_append_right (Nat.le_of_eq six), six]
    rfl
  · rw [List.length_append, List.length_cons]
    omega

theorem bearerValue_exact (ct : CtEq) (expected value : List UInt8) :
    ∃ answer, bearerValue ct expected value = some answer ∧
      (answer = true ↔ ∃ scheme gap rest, value = scheme ++ gap :: rest ∧
        eqIgnoreAsciiCase scheme bearer = true ∧ isAsciiWhitespace gap = true ∧
        Trims isAsciiWhitespace (gap :: rest) expected) := by
  by_cases short : value.length < 7
  · refine ⟨false, by rw [bearerValue, if_pos short], iff_of_false Bool.false_ne_true ?_⟩
    rintro ⟨scheme, gap, rest, shape, same, -⟩
    have long := (bearer_parts shape same).2.2.2
    omega
  · have scheme := sliceTo_eq value 6 (by omega)
    have rest := sliceFrom_eq value 6 (by omega)
    have long : 6 < value.length := by omega
    have gap : value[6]? = some value[6] := List.getElem?_eq_getElem long
    have token := trimAscii_eq (trims_trim isAsciiWhitespace (value.drop 6))
    have whole : value = value.take 6 ++ value[6] :: value.drop 7 := by
      rw [← List.drop_eq_getElem_cons, List.take_append_drop]
    rw [bearerValue, if_neg short]
    cases same : eqIgnoreAsciiCase (value.take 6) bearer with
    | false =>
        refine ⟨false, by simp [scheme, same], iff_of_false Bool.false_ne_true ?_⟩
        rintro ⟨scheme', gap', rest', shape, same', -⟩
        rw [(bearer_parts shape same').1, same'] at same
        cases same
    | true =>
        cases blank : isAsciiWhitespace value[6] with
        | false =>
            refine ⟨false, by simp [scheme, gap, blank], iff_of_false Bool.false_ne_true ?_⟩
            rintro ⟨scheme', gap', rest', shape, same', blank', -⟩
            have sixth := (bearer_parts shape same').2.1
            rw [gap, Option.some_inj] at sixth
            rw [sixth, blank'] at blank
            cases blank
        | true =>
            refine ⟨ct.ctEq (trim isAsciiWhitespace (value.drop 6)) expected,
              by simp [scheme, same, gap, blank, rest, token], ?_⟩
            rw [ct.iff_eq]
            constructor
            · rintro rfl
              refine ⟨value.take 6, value[6], value.drop 7, whole, same, blank, ?_⟩
              rw [← List.drop_eq_getElem_cons]
              exact trims_trim _ _
            · rintro ⟨scheme', gap', rest', shape, same', blank', trims⟩
              rw [(bearer_parts shape same').2.2.1]
              exact trims.trim_eq

theorem colon_not_mem {name : List UInt8} (same : eqIgnoreAsciiCase name authorization = true) :
    ∀ byte ∈ name, (byte == COLON) = false := by
  intro byte member
  have lower : byte.toAsciiLower ∈ authorization.map UInt8.toAsciiLower := by
    rw [← of_decide_eq_true same]
    exact List.mem_map_of_mem member
  refine beq_eq_false_iff_ne.mpr ?_
  rintro rfl
  exact absurd lower (by decide)

/-- The first colon of an authorization line is the one behind its name. -/
theorem authorization_parts {line name value : List UInt8} (shape : line = name ++ COLON :: value)
    (same : eqIgnoreAsciiCase name authorization = true) :
    line.findIdx? (· == COLON) = some name.length ∧ line.take name.length = name ∧
      line.drop (name.length + 1) = value := by
  subst shape
  refine ⟨findIdx?_past (colon_not_mem same) rfl value, List.take_left, ?_⟩
  rw [List.drop_append, List.drop_of_length_le (Nat.le_succ _), Nat.add_sub_cancel_left]
  rfl

theorem bearerLine_exact (ct : CtEq) (expected line : List UInt8) :
    ∃ answer, bearerLine ct expected line = some answer ∧
      (answer = true ↔ AuthorizationLine expected line) := by
  cases found : line.findIdx? (· == COLON) with
  | none =>
      refine ⟨false, by rw [bearerLine, found], iff_of_false Bool.false_ne_true ?_⟩
      rintro ⟨name, value, scheme, gap, rest, shape, same, -⟩
      rw [(authorization_parts shape same).1] at found
      cases found
  | some colon =>
      obtain ⟨inside, at_, -⟩ := List.findIdx?_eq_some_iff_getElem.mp found
      have name := sliceTo_eq line colon (by omega)
      have field := sliceFrom_eq line (colon + 1) (by omega)
      have value := trimAscii_eq (trims_trim isAsciiWhitespace (line.drop (colon + 1)))
      have whole : line = line.take colon ++ COLON :: line.drop (colon + 1) := by
        rw [← beq_iff_eq.mp at_, ← List.drop_eq_getElem_cons, List.take_append_drop]
      have parts : ∀ {name value : List UInt8}, line = name ++ COLON :: value →
          eqIgnoreAsciiCase name authorization = true →
          line.take colon = name ∧ line.drop (colon + 1) = value := by
        intro name value shape same
        obtain ⟨position, parts⟩ := authorization_parts shape same
        rw [found, Option.some_inj] at position
        rwa [position]
      cases same : eqIgnoreAsciiCase (line.take colon) authorization with
      | false =>
          refine ⟨false, by simp [bearerLine, found, name, same], iff_of_false Bool.false_ne_true ?_⟩
          rintro ⟨name', value', scheme, gap, rest, shape, same', -⟩
          rw [(parts shape same').1, same'] at same
          cases same
      | true =>
          obtain ⟨answer, run, exact_⟩ := bearerValue_exact ct expected
            (trim isAsciiWhitespace (line.drop (colon + 1)))
          refine ⟨answer, by simp [bearerLine, found, name, same, field, value, run], ?_⟩
          rw [exact_]
          constructor
          · rintro ⟨scheme, gap, rest, shape, scheme_, blank, trims⟩
            refine ⟨line.take colon, line.drop (colon + 1), scheme, gap, rest, whole, same, ?_,
              scheme_, blank, trims⟩
            rw [← shape]
            exact trims_trim _ _
          · rintro ⟨name', value', scheme, gap, rest, shape, same', trims, scheme_, blank, token⟩
            rw [(parts shape same').2, trims.trim_eq]
            exact ⟨scheme, gap, rest, rfl, scheme_, blank, token⟩

/-- The check of a whole request answers, whatever its bytes, and says whether a line after
the first is the wanted header. -/
theorem hasValidBearerToken_exact (ct : CtEq) (request expected : List UInt8) :
    ∃ answer, hasValidBearerToken ct request expected = some answer ∧
      (answer = true ↔ Authorizes expected request) := by
  unfold hasValidBearerToken Authorizes
  induction (request.splitOn LF).drop 1 with
  | nil => exact ⟨false, rfl, iff_of_false Bool.false_ne_true fun ⟨_, member, _⟩ => by cases member⟩
  | cons line lines ih =>
      obtain ⟨first, run, here⟩ := bearerLine_exact ct expected (stripCr line)
      rw [List.anyM_cons, run, Option.bind_eq_bind, Option.bind_some]
      simp only [List.exists_mem_cons_iff, ← here]
      cases first with
      | true => exact ⟨true, rfl, iff_of_true rfl (Or.inl rfl)⟩
      | false =>
          obtain ⟨answer, later, there⟩ := ih
          refine ⟨answer, later, ?_⟩
          rw [there]
          simp only [Bool.false_eq_true, false_or]

theorem authorizes_iff (ct : CtEq) {request expected : List UInt8} :
    Authorizes expected request ↔ hasValidBearerToken ct request expected = some true := by
  obtain ⟨answer, run, exact_⟩ := hasValidBearerToken_exact ct request expected
  rw [run, Option.some_inj, exact_]

instance (expected request : List UInt8) : Decidable (Authorizes expected request) :=
  decidable_of_iff _ (authorizes_iff .decided).symm

/-! ## Lines after the empty line -/

/-- A line of what follows the head is such a header. -/
def BodyAuthorizes (expected body : List UInt8) : Prop :=
  ∃ line ∈ body.splitOn LF, AuthorizationLine expected (stripCr line)

theorem not_bodyAuthorizes_nil (expected : List UInt8) : ¬ BodyAuthorizes expected [] := by
  rintro ⟨line, member, name, value, scheme, gap, rest, shape, -⟩
  obtain rfl := List.mem_singleton.mp member
  exact absurd shape.symm (List.append_ne_nil_of_right_ne_nil name (List.cons_ne_nil COLON value))

/-- The lines of a body are searched like those of the head. -/
theorem authorizes_append (expected front body : List UInt8) :
    Authorizes expected (front ++ LF :: body) ↔
      Authorizes expected (front ++ [LF]) ∨ BodyAuthorizes expected body := by
  have lines : ∀ body : List UInt8, Authorizes expected (front ++ LF :: body) ↔
      (∃ line ∈ (front.splitOn LF).drop 1, AuthorizationLine expected (stripCr line)) ∨
        BodyAuthorizes expected body := by
    intro body
    obtain ⟨first, others, pieces⟩ := List.exists_cons_of_ne_nil (List.splitOn_ne_nil LF front)
    rw [Authorizes, List.splitOn_append_cons_self, pieces, List.cons_append, List.drop_succ_cons,
      List.drop_zero, List.drop_succ_cons, List.drop_zero, BodyAuthorizes]
    simp only [List.mem_append, or_and_right, exists_or]
  rw [lines body, lines []]
  simp only [not_bodyAuthorizes_nil, or_false]

end Portrelay.Server
