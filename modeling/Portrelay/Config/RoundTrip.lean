/-
# Config.RoundTrip -- an endpoint's address read back

`Endpoint::parse` applied to the address of an endpoint it made.  What it accepts is said
without positions (`splitEndpoint_ok_iff`, `parse_ok_iff`); the address of an accepted
endpoint is then read branch by branch.

* `address_injective` -- an address is that of one endpoint.
* `round_trip_iff` -- the address is read back, if and only if the text did not begin with
  two brackets around a host without colon.
-/
import Portrelay.Config.Endpoint
import Portrelay.Theory.Decimal
import Portrelay.Theory.Guarded

namespace Portrelay.Config

open Portrelay.Theory

set_option autoImplicit false

/-! ## Decimal ports -/

theorem readU16_digits {digits : Text} (all : ∀ c ∈ digits, c.isDigit = true) {result port : UInt16}
    (number : Nat.ofDigitChars 10 digits result.toNat = port.toNat) :
    readU16 result digits = .ok port := by
  induction digits generalizing result with
  | nil =>
      rw [Nat.ofDigitChars_nil] at number
      rw [readU16, UInt16.toNat_inj.mp number]
  | cons c digits ih =>
      have digit := all c List.mem_cons_self
      have rest : ∀ c ∈ digits, c.isDigit = true := fun c member => all c (List.mem_cons_of_mem _ member)
      rw [Nat.ofDigitChars_cons] at number
      have small : 10 * result.toNat + (c.toNat - '0'.toNat) < UInt16.size := by
        refine Nat.lt_of_le_of_lt ?_ port.toNat_lt
        rw [← number, Nat.ofDigitChars_eq_ofDigitChars_zero]
        exact Nat.le_add_right_of_le (Nat.le_mul_of_pos_left _ (Nat.pow_pos (by decide)))
      rw [readU16, if_pos digit]
      simp only [small, dif_pos]
      apply ih rest
      rw [UInt16.toNat_ofNatLT]
      exact number

/-- A port printed in decimal is read back. -/
theorem parseU16_digits (port : UInt16) : parseU16 (Nat.toDigits 10 port.toNat) = .ok port := by
  have all := digits_isDigit port.toNat
  have number : Nat.ofDigitChars 10 (Nat.toDigits 10 port.toNat) (0 : UInt16).toNat = port.toNat :=
    Nat.ofDigitChars_ten_toDigits
  have read := readU16_digits all number
  cases digits : Nat.toDigits 10 port.toNat with
  | nil => exact absurd digits Nat.toDigits_ne_nil
  | cons c rest =>
      rw [digits] at all read
      have sign : c ≠ '+' := by
        rintro rfl
        exact absurd (all '+' List.mem_cons_self) (by decide)
      unfold parseU16
      split
      · rename_i none_
        cases none_
      · rename_i plus
        exact absurd (List.cons.inj plus).1 sign
      · rename_i plus
        exact absurd (List.cons.inj plus).1 sign
      · exact read

/-! ## What is split, and what is accepted -/

theorem splitEndpoint_bracket {rest host port : Text} :
    splitEndpoint ('[' :: rest) = .ok (host, port) ↔
      rest = host ++ ']' :: ':' :: port ∧ ']' ∉ host := by
  simp only [splitEndpoint]
  constructor
  · intro split_
    cases position : rest.findIdx? (· == ']') with
    | none =>
        rw [position] at split_
        cases split_
    | some close =>
        obtain ⟨front, bracket, back, rfl, inside, close_, rfl⟩ := findIdx?_parts position
        rw [position] at split_
        simp only [drop_past, List.take_left] at split_
        split at split_
        · rename_i after
          obtain ⟨rfl, rfl⟩ := Prod.mk.inj (Except.ok.inj split_)
          refine ⟨by rw [beq_iff_eq.mp close_], ?_⟩
          intro member
          exact absurd (inside _ member) (by decide)
        · cases split_
  · rintro ⟨rfl, inside⟩
    rw [findIdx?_past (beq_eq_false_of_not_mem inside) (beq_self_eq_true ']')]
    simp only [drop_past, List.take_left]

theorem splitEndpoint_plain {value host port : Text} (plain : value.head? ≠ some '[') :
    splitEndpoint value = .ok (host, port) ↔
      value = host ++ ':' :: port ∧ ':' ∉ host ∧ ':' ∉ port := by
  unfold splitEndpoint
  split
  · exact absurd rfl plain
  · constructor
    · intro split_
      cases position : rposition (· == ':') value with
      | none =>
          rw [position] at split_
          cases split_
      | some colon =>
          obtain ⟨front, mark, back, rfl, behind, mark_, rfl⟩ := rposition_parts position
          rw [position] at split_
          simp only [drop_past, List.take_left] at split_
          split at split_
          · cases split_
          · rename_i single
            obtain ⟨rfl, rfl⟩ := Prod.mk.inj (Except.ok.inj split_)
            refine ⟨by rw [beq_iff_eq.mp mark_], single, ?_⟩
            intro member
            exact absurd (behind _ member) (by decide)
    · rintro ⟨rfl, single, last⟩
      rw [rposition_before (beq_eq_false_of_not_mem last) (beq_self_eq_true ':')]
      simp only [drop_past, List.take_left, single, if_false]

theorem hostOrAny_ok_iff {host given : Text} {allowEmptyHost : Bool} :
    hostOrAny host allowEmptyHost = .ok given ↔
      (host = [] ∧ allowEmptyHost = true ∧ given = "0.0.0.0".toList) ∨ (host ≠ [] ∧ given = host) := by
  unfold hostOrAny
  by_cases none_ : host = []
  · cases allowEmptyHost with
    | false => simp [none_]
    | true => simp [none_, eq_comm]
  · simp [none_, eq_comm]

/-- What makes `parse` accept, and what it then returns. -/
theorem parse_ok_iff {value : Text} {allowEmptyHost allowPortZero : Bool} {e : Endpoint} :
    Endpoint.parse value allowEmptyHost allowPortZero = .ok e ↔
      ∃ host port, splitEndpoint (trim isWhitespace value) = .ok (host, port) ∧
        parseU16 port = .ok e.port ∧ (e.port = 0 → allowPortZero = true) ∧
        hostOrAny host allowEmptyHost = .ok e.host := by
  constructor
  · intro parsed
    simp only [Endpoint.parse] at parsed
    split at parsed
    · cases parsed
    obtain ⟨⟨host, portText⟩, split_, parsed⟩ := of_bind_ok parsed
    obtain ⟨port, read, parsed⟩ := of_bind_ok parsed
    split at parsed
    · cases parsed
    rename_i allowed
    obtain ⟨given, host_, parsed⟩ := of_bind_ok parsed
    split at parsed
    · cases parsed
    obtain rfl := Except.ok.inj parsed
    refine ⟨host, portText, split_, ?_, ?_, host_⟩
    · cases number : parseU16 portText with
      | error kind =>
          rw [number] at read
          cases read
      | ok result =>
          rw [number] at read
          exact congrArg Except.ok (Except.ok.inj read)
    · intro zero
      by_contra disallowed
      exact allowed ⟨zero, by rw [Bool.eq_false_iff.mpr disallowed]; rfl⟩
  · rintro ⟨host, portText, split_, read, zero, host_⟩
    have some_ : trim isWhitespace value ≠ [] := by
      intro none_
      rw [none_] at split_
      cases split_
    have allowed : ¬ (e.port = 0 ∧ (!allowPortZero) = true) := by
      rintro ⟨port, disallowed⟩
      rw [zero port] at disallowed
      cases disallowed
    have good : ¬ badHost e.host = true := Bool.eq_false_iff.mp e.good
    have same : ∀ formatted good, (⟨formatAddress e.host e.port, e.host, e.port, formatted, good⟩ :
        Endpoint) = e := fun formatted good => Endpoint.ext_host rfl rfl
    unfold Endpoint.parse
    refine (if_neg some_).trans ?_
    refine (bind_of_ok (host, portText) split_).trans ?_
    refine (bind_of_ok e.port (by rw [read]; rfl)).trans ?_
    refine (if_neg allowed).trans ?_
    refine (bind_of_ok e.host host_).trans ?_
    rw [dif_neg good]
    exact congrArg Except.ok (same _ _)

/-! ## Addresses -/

theorem not_digit {c : Char} (other : c.isDigit = false) (n : Nat) : c ∉ Nat.toDigits 10 n := by
  intro member
  rw [digits_isDigit n c member] at other
  cases other

theorem isWhitespace_digit {c : Char} (digit : c.isDigit = true) : isWhitespace c = false := by
  have range : 48 ≤ c.toNat ∧ c.toNat ≤ 57 := by
    simpa [Char.isDigit, UInt32.le_iff_toNat_le] using digit
  simp only [isWhitespace, Bool.or_eq_false_iff, Bool.and_eq_false_iff, decide_eq_false_iff_not,
    beq_eq_false_iff_ne]
  omega

/-- A host with a colon has brackets around it in an address. -/
def bracket (host : Text) : Text := if ':' ∈ host then '[' :: (host ++ [']']) else host

theorem formatAddress_eq (host : Text) (port : UInt16) :
    formatAddress host port = bracket host ++ ':' :: Nat.toDigits 10 port.toNat := by
  rw [formatAddress, bracket]
  split
  · simp only [List.cons_append, List.append_assoc, List.nil_append]
  · rfl

theorem bracket_injective {host host' : Text} (same : bracket host = bracket host') :
    host = host' := by
  have inside : ∀ {host : Text}, ':' ∈ host → ':' ∈ '[' :: (host ++ [']']) :=
    fun colon => List.mem_cons_of_mem _ (List.mem_append_left _ colon)
  unfold bracket at same
  split at same
  · rename_i colon
    split at same
    · exact List.append_cancel_right (List.cons.inj same).2
    · rename_i plain
      rw [← same] at plain
      exact absurd (inside colon) plain
  · rename_i plain
    split at same
    · rename_i colon
      rw [same] at plain
      exact absurd (inside colon) plain
    · exact same

/-- The port is what follows the last colon. -/
theorem formatAddress_injective {host host' : Text} {port port' : UInt16}
    (same : formatAddress host port = formatAddress host' port') : host = host' ∧ port = port' := by
  have digits : ∀ port : UInt16, ':' ∉ Nat.toDigits 10 port.toNat :=
    fun port => not_digit (by decide) _
  rw [formatAddress_eq, formatAddress_eq] at same
  obtain ⟨hosts, ports⟩ := append_cons_inj_last (digits port) (digits port') same
  have numbers := congrArg (Nat.ofDigitChars 10 · 0) ports
  simp only [Nat.ofDigitChars_ten_toDigits] at numbers
  exact ⟨bracket_injective hosts, UInt16.toNat_inj.mp numbers⟩

/-- An address is that of one endpoint. -/
theorem Endpoint.address_injective {a b : Endpoint} (same : a.address = b.address) : a = b := by
  rw [a.formatted, b.formatted] at same
  obtain ⟨host, port⟩ := formatAddress_injective same
  exact Endpoint.ext_host host port

/-- There are no blanks around an address. -/
theorem trim_address (e : Endpoint) (some_ : e.host ≠ []) : trim isWhitespace e.address = e.address := by
  have unblank : ∀ c ∈ e.host, isWhitespace c = false := by
    have good := e.good
    rw [badHost, Bool.or_eq_false_iff, List.any_eq_false] at good
    intro c member
    exact Bool.eq_false_iff.mpr (good.1 c member)
  refine Trims.trim_eq ⟨[], [], (List.append_nil _).symm, fun c member => absurd member List.not_mem_nil,
    fun c member => absurd member List.not_mem_nil, ?_, ?_⟩
  · rw [e.formatted, formatAddress_eq, bracket]
    split
    · intro c first
      obtain rfl := Option.some.inj first
      decide
    · obtain ⟨c, host, shape⟩ := List.exists_cons_of_ne_nil some_
      rw [shape]
      intro d first
      obtain rfl := Option.some.inj first
      apply unblank
      rw [shape]
      exact List.mem_cons_self
  · intro c last
    rw [e.formatted, formatAddress_eq, List.getLast?_append_of_ne_nil _ (List.cons_ne_nil _ _),
      List.getLast?_cons_of_ne_nil Nat.toDigits_ne_nil] at last
    exact isWhitespace_digit (digits_isDigit _ c (List.mem_of_getLast? last))

/-! ## The round trip -/

/-- The text begins with two brackets, and has no colon before the bracket that closes them. -/
def DoublyBracketed (value : Text) : Prop :=
  ∃ rest, trim isWhitespace value = '[' :: '[' :: rest ∧ ':' ∉ rest.takeWhile (· != ']')

/-- The host of an accepted text. -/
inductive HostShape (value host : Text) : Prop
  | colon (inside : ':' ∈ host) (closed : ']' ∉ host) (single : ¬ DoublyBracketed value)
  | plain (none_ : ':' ∉ host) (open_ : host.head? ≠ some '[') (single : ¬ DoublyBracketed value)
  | doubled (none_ : ':' ∉ host) (closed : ']' ∉ host) (open_ : host.head? = some '[')
      (doubly : DoublyBracketed value)

/-- What a bracketed text has in its brackets. -/
theorem doublyBracketed_iff {value host behind : Text}
    (shape : trim isWhitespace value = '[' :: (host ++ ']' :: behind)) (closed : ']' ∉ host) :
    DoublyBracketed value ↔ host.head? = some '[' ∧ ':' ∉ host := by
  have within : ∀ front : Text, ']' ∉ front →
      (front ++ ']' :: behind).takeWhile (· != ']') = front := by
    intro front none_
    have all : ∀ c ∈ front, (c != ']') = true := by
      intro c member
      rw [bne, beq_eq_false_of_not_mem none_ c member, Bool.not_false]
    rw [List.takeWhile_append_of_pos all, List.takeWhile_cons_of_neg (by decide), List.append_nil]
  constructor
  · rintro ⟨rest, trimmed, colon⟩
    rw [shape] at trimmed
    cases host with
    | nil => cases (List.cons.inj (List.cons.inj trimmed).2).1
    | cons c host =>
        obtain ⟨rfl, rfl⟩ := List.cons.inj (List.cons.inj trimmed).2
        change ':' ∉ (host ++ ']' :: behind).takeWhile (· != ']') at colon
        rw [within host fun member => closed (List.mem_cons_of_mem _ member)] at colon
        refine ⟨rfl, ?_⟩
        intro member
        rcases List.mem_cons.mp member with bad | later
        · cases bad
        · exact colon later
  · rintro ⟨first, colon⟩
    cases host with
    | nil => cases first
    | cons c host =>
        obtain rfl := Option.some.inj first
        refine ⟨host ++ ']' :: behind, shape, ?_⟩
        rw [within host fun member => closed (List.mem_cons_of_mem _ member)]
        exact fun member => colon (List.mem_cons_of_mem _ member)

variable {value : Text} {allowEmptyHost allowPortZero : Bool} {e : Endpoint}

theorem parse_hostShape (parsed : Endpoint.parse value allowEmptyHost allowPortZero = .ok e) :
    HostShape value e.host := by
  obtain ⟨host, port, split_, -, -, given⟩ := parse_ok_iff.mp parsed
  have any : ':' ∉ "0.0.0.0".toList ∧ "0.0.0.0".toList.head? ≠ some '[' := by decide
  by_cases open_ : (trim isWhitespace value).head? = some '['
  · obtain ⟨rest, trimmed⟩ := List.head?_eq_some_iff.mp open_
    rw [trimmed] at split_
    obtain ⟨rfl, closed⟩ := splitEndpoint_bracket.mp split_
    have doubly := doublyBracketed_iff trimmed closed
    rcases hostOrAny_ok_iff.mp given with ⟨rfl, -, same⟩ | ⟨-, same⟩
    · rw [same]
      refine .plain any.1 any.2 ?_
      intro bad
      cases (doubly.mp bad).1
    · rw [same]
      by_cases colon : ':' ∈ host
      · exact .colon colon closed fun bad => (doubly.mp bad).2 colon
      · by_cases first : host.head? = some '['
        · exact .doubled colon closed first (doubly.mpr ⟨first, colon⟩)
        · exact .plain colon first fun bad => first (doubly.mp bad).1
  · have single : ¬ DoublyBracketed value := by
      rintro ⟨rest, trimmed, -⟩
      rw [trimmed] at open_
      exact open_ rfl
    obtain ⟨trimmed, colon, -⟩ := (splitEndpoint_plain open_).mp split_
    rcases hostOrAny_ok_iff.mp given with ⟨-, -, same⟩ | ⟨some_, same⟩
    · rw [same]
      exact .plain any.1 any.2 single
    · rw [same]
      refine .plain colon ?_ single
      intro first
      rw [trimmed, List.head?_append_of_ne_nil _ some_] at open_
      exact open_ first

/-- The address of an accepted endpoint is split into its host and its port. -/
theorem splitEndpoint_address (single : ¬ DoublyBracketed value) (shape : HostShape value e.host) :
    splitEndpoint e.address = .ok (e.host, Nat.toDigits 10 e.port.toNat) := by
  have last : ':' ∉ Nat.toDigits 10 e.port.toNat := not_digit (by decide) _
  rw [e.formatted]
  cases shape with
  | colon inside closed _ =>
      rw [formatAddress, if_pos inside]
      exact splitEndpoint_bracket.mpr ⟨rfl, closed⟩
  | plain none_ open_ _ =>
      rw [formatAddress, if_neg none_]
      refine (splitEndpoint_plain ?_).mpr ⟨rfl, none_, last⟩
      intro first
      cases shape : e.host with
      | nil =>
          rw [shape] at first
          cases first
      | cons c rest =>
          rw [shape] at first open_
          exact open_ first
  | doubled _ _ _ doubly => exact absurd doubly single

/-- The address of an accepted endpoint is read as that endpoint again, and is no other's, if
and only if the text was not doubly bracketed. -/
theorem round_trip_iff (value : Text) (allowEmptyHost allowPortZero : Bool) (e : Endpoint)
    (accepted : Endpoint.parse value allowEmptyHost allowPortZero = .ok e) :
    (Endpoint.parse e.address allowEmptyHost allowPortZero = .ok e ∧
      ∀ other : Endpoint, other.address = e.address → other.host = e.host ∧ other.port = e.port) ↔
    ¬ DoublyBracketed value := by
  obtain ⟨host, port, -, -, zero, given⟩ := parse_ok_iff.mp accepted
  have some_ : e.host ≠ [] := by
    rcases hostOrAny_ok_iff.mp given with ⟨-, -, same⟩ | ⟨some_, same⟩
    · rw [same]
      decide
    · rw [same]
      exact some_
  have own : hostOrAny e.host allowEmptyHost = .ok e.host := hostOrAny_ok_iff.mpr (Or.inr ⟨some_, rfl⟩)
  have shape := parse_hostShape accepted
  constructor
  · rintro ⟨again, -⟩ doubly
    obtain ⟨host, port, split_, -⟩ := parse_ok_iff.mp again
    rw [trim_address e some_, e.formatted] at split_
    cases shape with
    | colon _ _ single => exact single doubly
    | plain _ _ single => exact single doubly
    | doubled none_ closed open_ _ =>
        -- the brackets are gone from the address but for the one the host begins with
        obtain ⟨rest, host_⟩ := List.head?_eq_some_iff.mp open_
        rw [formatAddress, if_neg none_, host_, List.cons_append] at split_
        obtain ⟨shape, -⟩ := splitEndpoint_bracket.mp split_
        have inside : ']' ∈ rest ++ ':' :: Nat.toDigits 10 e.port.toNat := by
          rw [shape]
          exact List.mem_append_right _ List.mem_cons_self
        rcases List.mem_append.mp inside with early | late
        · apply closed
          rw [host_]
          exact List.mem_cons_of_mem _ early
        · rcases List.mem_cons.mp late with bad | digit
          · cases bad
          · exact not_digit (by decide) _ digit
  · intro single
    refine ⟨parse_ok_iff.mpr ⟨e.host, Nat.toDigits 10 e.port.toNat, ?_, parseU16_digits e.port, zero,
      own⟩, ?_⟩
    · rw [trim_address e some_]
      exact splitEndpoint_address single shape
    · intro other same
      obtain rfl := Endpoint.address_injective same
      exact ⟨rfl, rfl⟩

theorem round_trip_iff_shorthand :
    ∃ e, Endpoint.parse " :+080".toList true false = .ok e ∧ e.address = "0.0.0.0:80".toList ∧
      Endpoint.parse e.address true false = .ok e := by
  have accepted : ∃ e, Endpoint.parse " :+080".toList true false = .ok e ∧
      e.address = "0.0.0.0:80".toList := ⟨_, rfl, rfl⟩
  obtain ⟨e, parsed, address⟩ := accepted
  refine ⟨e, parsed, address, ((round_trip_iff _ true false e parsed).mpr ?_).1⟩
  rintro ⟨rest, trimmed, -⟩
  have plain : (trim isWhitespace " :+080".toList).head? = some ':' := by decide
  rw [trimmed] at plain
  cases plain

/-- `[[x]:80` is accepted, and its address `[x:80` is not. -/
theorem doubled_bracket_lost :
    ∃ e, Endpoint.parse "[[x]:80".toList false false = .ok e ∧ e.address = "[x:80".toList ∧
      Endpoint.parse e.address false false ≠ .ok e := by
  refine ⟨_, rfl, rfl, ?_⟩
  decide

end Portrelay.Config
