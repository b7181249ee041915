/-
# Config.Endpoint -- Endpoint::parse and the errors of a configuration

Texts are lists of characters.  A message is kept in its pieces, so that a value that is
printed with `{:?}` is there as it was.
-/
import Portrelay.Theory.Slices

namespace Portrelay.Config

open Portrelay.Theory

set_option autoImplicit false

abbrev Text := List Char

/-- A piece of a formatted message: its words, or a text printed with `{:?}`. -/
inductive Piece
  | words (words : String)
  | debug (value : Text)
  deriving DecidableEq, Repr

abbrev Message := List Piece

/-- The errors of `ConfigError` that are made of settings; the other two are of reading a file. -/
inductive ConfigError
  | invalid (message : Message)
  deriving DecidableEq, Repr

/-- `char::is_whitespace` -/
def isWhitespace (c : Char) : Bool :=
  let n := c.toNat
  (9 ≤ n && n ≤ 13) || n == 0x20 || n == 0x85 || n == 0xA0 || n == 0x1680 ||
    (0x2000 ≤ n && n ≤ 0x200A) || n == 0x2028 || n == 0x2029 || n == 0x202F || n == 0x205F ||
    n == 0x3000

/-! ## Port numbers -/

inductive IntErrorKind
  | empty
  | invalidDigit
  | posOverflow
  deriving DecidableEq, Repr

def IntErrorKind.description : IntErrorKind → String
  | .empty => "cannot parse integer from empty string"
  | .invalidDigit => "invalid digit found in string"
  | .posOverflow => "number too large to fit in target type"

def readU16 (result : UInt16) : Text → Except IntErrorKind UInt16
  | [] => .ok result
  | c :: rest =>
      if c.isDigit then
        let next := 10 * result.toNat + (c.toNat - '0'.toNat)
        if small : next < UInt16.size then readU16 (UInt16.ofNatLT next small) rest
        else .error .posOverflow
      else .error .invalidDigit

/-- `str::parse::<u16>` -/
def parseU16 : Text → Except IntErrorKind UInt16
  | [] => .error .empty
  | ['+'] => .error .invalidDigit
  | '+' :: digits => readU16 0 digits
  | digits => readU16 0 digits

/-! ## Endpoints -/

def formatAddress (host : Text) (port : UInt16) : Text :=
  if ':' ∈ host then '[' :: (host ++ ']' :: ':' :: Nat.toDigits 10 port.toNat)
  else host ++ ':' :: Nat.toDigits 10 port.toNat

/-- The hosts that are refused. -/
def badHost (host : Text) : Bool := host.any isWhitespace || host == ['*']

/-- The address is that of the host and the port, which have no setters. -/
structure Endpoint where
  address : Text
  host : Text
  port : UInt16
  formatted : address = formatAddress host port
  good : badHost host = false
  deriving DecidableEq

/-- The two texts around the colon before the port. -/
def splitEndpoint (value : Text) : Except ConfigError (Text × Text) :=
  match value with
  | '[' :: rest =>
      match rest.findIdx? (· == ']') with
      | none => .error (.invalid [.words "invalid IPv6 endpoint ", .debug value])
      | some close =>
          match rest.drop (close + 1) with
          | ':' :: port => .ok (rest.take close, port)
          | _ => .error (.invalid [.words "endpoint must include port: ", .debug value])
  | _ =>
      match rposition (· == ':') value with
      | none => .error (.invalid [.words "endpoint must include port: ", .debug value])
      | some split =>
          if ':' ∈ value.take split then
            .error (.invalid [.words
              "IPv6 endpoints must use bracket notation, for example [::1]:3306"])
          else .ok (value.take split, value.drop (split + 1))

/-- `:port` is a port on all interfaces. -/
def hostOrAny (host : Text) (allowEmptyHost : Bool) : Except ConfigError Text :=
  if host = [] then
    if !allowEmptyHost then .error (.invalid [.words "target host cannot be empty"])
    else .ok "0.0.0.0".toList
  else .ok host

def Endpoint.parse (value : Text) (allowEmptyHost allowPortZero : Bool) :
    Except ConfigError Endpoint :=
  let value := trim isWhitespace value
  if value = [] then .error (.invalid [.words "endpoint cannot be empty"])
  else do
    let (host, portText) ← splitEndpoint value
    let port ← (parseU16 portText).mapError fun error => .invalid
      [.words "invalid TCP port ", .debug portText, .words ": ", .words error.description]
    if port = 0 ∧ !allowPortZero then
      .error (.invalid [.words "TCP port must be greater than zero"])
    else do
      let host ← hostOrAny host allowEmptyHost
      if bad : badHost host = true then
        .error (.invalid [.words "invalid endpoint host ", .debug host])
      else .ok ⟨formatAddress host port, host, port, rfl, Bool.eq_false_iff.mpr bad⟩

namespace Endpoint

/-- Host and port say what the address is. -/
theorem ext_host {a b : Endpoint} (host : a.host = b.host) (port : a.port = b.port) : a = b := by
  obtain ⟨_, _, _, formatted, _⟩ := a
  obtain ⟨_, _, _, formatted', _⟩ := b
  subst formatted formatted'
  cases host
  cases port
  rfl

example : (parse "[::1]:5432".toList false false).map address = .ok "[::1]:5432".toList := by decide

end Endpoint

end Portrelay.Config
