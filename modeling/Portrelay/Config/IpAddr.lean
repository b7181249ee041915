/-
# Config.IpAddr -- address literals as the standard library reads them

`IpAddr::from_str`: dotted decimal IPv4, and IPv6 with `::` and a trailing IPv4 part.

* `readIpv4_eq` -- an IPv4 address has one spelling (`parse_v4_injective`); an IPv6
  address has many.
-/
import Portrelay.Config.Endpoint
import Portrelay.Theory.Decimal

namespace Portrelay.Config

open Portrelay.Theory

set_option autoImplicit false

structure Ipv4Addr where
  a : UInt8
  b : UInt8
  c : UInt8
  d : UInt8
  deriving DecidableEq, Repr

abbrev Ipv6Addr := Vector UInt16 8

inductive IpAddr
  | v4 (addr : Ipv4Addr)
  | v6 (addr : Ipv6Addr)
  deriving DecidableEq, Repr

/-! ## Reading -/

/-- `char::to_digit` for the radixes 10 and 16. -/
def toDigit (radix : Nat) (c : Char) : Option Nat :=
  if c.isDigit then some (c.toNat - '0'.toNat)
  else if radix = 16 ∧ 'a' ≤ c ∧ c ≤ 'f' then some (c.toNat - 'a'.toNat + 10)
  else if radix = 16 ∧ 'A' ≤ c ∧ c ≤ 'F' then some (c.toNat - 'A'.toNat + 10)
  else none

/-- `read_number`: a number of at most `maxDigits` digits below `bound`, and what follows. -/
def readNumber (radix maxDigits : Nat) (allowZeroPrefix : Bool) (bound : Nat) (text : Text) :
    Option (Nat × Text) :=
  let digits := text.takeWhile fun c => (toDigit radix c).isSome
  let value := (digits.filterMap (toDigit radix)).foldl (fun value digit => value * radix + digit) 0
  if maxDigits < digits.length ∨ digits = [] ∨
      (allowZeroPrefix = false ∧ digits.head? = some '0' ∧ 1 < digits.length) ∨ bound ≤ value then
    none
  else some (value, text.dropWhile fun c => (toDigit radix c).isSome)

/-- `read_given_char` -/
def readGivenChar (c : Char) : Text → Option Text
  | [] => none
  | first :: rest => if first = c then some rest else none

/-- `read_separator`: nothing before the first of a list. -/
def readSeparator {α : Type} (separator : Char) (first : Bool) (inner : Text → Option (α × Text))
    (text : Text) : Option (α × Text) :=
  if first then inner text else (readGivenChar separator text).bind inner

def readOctet (first : Bool) (text : Text) : Option (Nat × Text) :=
  readSeparator '.' first (readNumber 10 3 false 256) text

/-- `read_ipv4_addr` -/
def readIpv4 (text : Text) : Option (Ipv4Addr × Text) := do
  let (a, text) ← readOctet true text
  let (b, text) ← readOctet false text
  let (c, text) ← readOctet false text
  let (d, text) ← readOctet false text
  some (⟨UInt8.ofNat a, UInt8.ofNat b, UInt8.ofNat c, UInt8.ofNat d⟩, text)

/-- The two groups of an embedded IPv4 address. -/
def Ipv4Addr.groups (addr : Ipv4Addr) : List UInt16 :=
  [addr.a.toUInt16 * 256 + addr.b.toUInt16, addr.c.toUInt16 * 256 + addr.d.toUInt16]

/-- `read_groups`: at most `limit` groups, whether the last two are an IPv4 address, and what
follows. -/
def readGroups : (limit : Nat) → (first : Bool) → Text → List UInt16 × Bool × Text
  | 0, _, text => ([], false, text)
  | limit + 1, first, text =>
      match if 1 ≤ limit then readSeparator ':' first readIpv4 text else none with
      | some (addr, rest) => (addr.groups, true, rest)
      | none =>
          match readSeparator ':' first (readNumber 16 4 true 65536) text with
          | some (group, rest) =>
              let (groups, embedded, rest) := readGroups limit false rest
              (UInt16.ofNat group :: groups, embedded, rest)
          | none => ([], false, text)

/-- Eight groups: some at the front, some at the back, zeros between. -/
def joinGroups (head tail : List UInt16) : Ipv6Addr :=
  Vector.ofFn fun i : Fin 8 =>
    if i.val < 8 - tail.length then head.getD i.val 0 else tail.getD (i.val - (8 - tail.length)) 0

/-- `read_ipv6_addr` -/
def readIpv6 (text : Text) : Option (Ipv6Addr × Text) :=
  let (head, embedded, rest) := readGroups 8 true text
  if head.length = 8 then some (joinGroups head [], rest)
  else if embedded then none
  else do
    let rest ← readGivenChar ':' rest
    let rest ← readGivenChar ':' rest
    let (tail, _, rest) := readGroups (8 - (head.length + 1)) true rest
    some (joinGroups head tail, rest)

/-- `IpAddr::from_str` -/
def IpAddr.parse (text : Text) : Option IpAddr :=
  match readIpv4 text with
  | some (addr, rest) => if rest = [] then some (.v4 addr) else none
  | none =>
      match readIpv6 text with
      | some (addr, rest) => if rest = [] then some (.v6 addr) else none
      | none => none

example : IpAddr.parse "::1".toList = IpAddr.parse "0:0:0:0:0:0:0:1".toList := by decide +kernel

/-! ## An IPv4 address has one spelling -/

theorem toDigit_ten (c : Char) :
    toDigit 10 c = if c.isDigit then some (c.toNat - '0'.toNat) else none := by
  simp [toDigit]

theorem foldl_digits {digits : Text} (all : ∀ c ∈ digits, c.isDigit = true) (n : Nat) :
    (digits.filterMap (toDigit 10)).foldl (fun value digit => value * 10 + digit) n =
      Nat.ofDigitChars 10 digits n := by
  induction digits generalizing n with
  | nil => rfl
  | cons c digits ih =>
      have digit : toDigit 10 c = some (c.toNat - '0'.toNat) := by
        rw [toDigit_ten, if_pos (all c List.mem_cons_self)]
      rw [List.filterMap_cons_some digit, List.foldl_cons,
        ih (fun c member => all c (List.mem_cons_of_mem _ member)), Nat.ofDigitChars_cons,
        Nat.mul_comm]

theorem readNumber_eq {maxDigits bound n : Nat} {text rest : Text}
    (read : readNumber 10 maxDigits false bound text = some (n, rest)) :
    text = Nat.toDigits 10 n ++ rest ∧ n < bound := by
  have all : ∀ c ∈ text.takeWhile (fun c => (toDigit 10 c).isSome), c.isDigit = true := by
    intro c member
    have digit := List.mem_takeWhile_imp member
    rw [toDigit_ten] at digit
    by_contra other
    rw [if_neg other] at digit
    cases digit
  simp only [readNumber] at read
  split at read
  · cases read
  · rename_i fits
    simp only [not_or, not_and, not_lt, not_le] at fits
    obtain ⟨-, some_, lead, small⟩ := fits
    rw [foldl_digits all] at small
    obtain ⟨value, rfl⟩ := Prod.mk.inj (Option.some.inj read)
    rw [foldl_digits all] at value
    rw [← value, toDigits_ofDigitChars all some_ (lead trivial), List.takeWhile_append_dropWhile]
    exact ⟨rfl, small⟩

/-- Dotted decimal. -/
def Ipv4Addr.format (addr : Ipv4Addr) : Text :=
  Nat.toDigits 10 addr.a.toNat ++ '.' :: Nat.toDigits 10 addr.b.toNat ++
    '.' :: Nat.toDigits 10 addr.c.toNat ++ '.' :: Nat.toDigits 10 addr.d.toNat

theorem readGivenChar_eq {c : Char} {text rest : Text} (read : readGivenChar c text = some rest) :
    text = c :: rest := by
  cases text with
  | nil => cases read
  | cons first text =>
      rw [readGivenChar] at read
      split at read
      · rename_i same
        rw [same, Option.some.inj read]
      · cases read

theorem readOctet_eq {first : Bool} {n : Nat} {text rest : Text}
    (read : readOctet first text = some (n, rest)) :
    text = (if first then [] else ['.']) ++ Nat.toDigits 10 (UInt8.ofNat n).toNat ++ rest := by
  have octet : ∀ {text : Text}, readNumber 10 3 false 256 text = some (n, rest) →
      text = Nat.toDigits 10 (UInt8.ofNat n).toNat ++ rest := by
    intro text number
    obtain ⟨shape, small⟩ := readNumber_eq number
    rw [UInt8.toNat_ofNat_of_lt' small]
    exact shape
  cases first with
  | true => exact octet read
  | false =>
      obtain ⟨after, dot, number⟩ := Option.bind_eq_some_iff.mp read
      rw [readGivenChar_eq dot, octet number]
      rfl

theorem readIpv4_eq {addr : Ipv4Addr} {text rest : Text} (read : readIpv4 text = some (addr, rest)) :
    text = addr.format ++ rest := by
  unfold readIpv4 at read
  obtain ⟨⟨a, text₁⟩, first, read⟩ := Option.bind_eq_some_iff.mp read
  obtain ⟨⟨b, text₂⟩, second, read⟩ := Option.bind_eq_some_iff.mp read
  obtain ⟨⟨c, text₃⟩, third, read⟩ := Option.bind_eq_some_iff.mp read
  obtain ⟨⟨d, text₄⟩, fourth, read⟩ := Option.bind_eq_some_iff.mp read
  obtain ⟨rfl, rfl⟩ := Prod.mk.inj (Option.some.inj read)
  rw [readOctet_eq first, readOctet_eq second, readOctet_eq third, readOctet_eq fourth]
  simp only [Ipv4Addr.format, if_true, Bool.false_eq_true, if_false, List.nil_append,
    List.append_assoc, List.cons_append]

namespace IpAddr

theorem parse_v4_eq {text : Text} {addr : Ipv4Addr} (literal : parse text = some (.v4 addr)) :
    text = addr.format := by
  unfold parse at literal
  split at literal
  · rename_i read
    split at literal
    · rename_i last
      obtain rfl := IpAddr.v4.inj (Option.some.inj literal)
      rw [readIpv4_eq read, last, List.append_nil]
    · cases literal
  · split at literal
    · split at literal
      · cases literal
      · cases literal
    · cases literal

theorem parse_v4_injective {text text' : Text} {addr : Ipv4Addr}
    (literal : parse text = some (.v4 addr)) (literal' : parse text' = some (.v4 addr)) :
    text = text' :=
  (parse_v4_eq literal).trans (parse_v4_eq literal').symm

end IpAddr

end Portrelay.Config
