/-
# Server.ScrapeExchange -- a response on its way to the client

The two `write_all` of `serve_metrics_connection`, one write of the stream at a time: a write
may take any part of what is left, fail, or never happen because the task is dropped.  What
the client has is a prefix of what the stream took; on TLS the stream takes plain text, which
it may still hold when the task is dropped.

* `served_message` -- every response is a message with its length, well formed.
* `step_connection` -- the writes are steps of the connection's task, or none.
* `delivering_prefix` -- in every run the stream has taken a prefix of the response.
* `delivered_whole` -- once both `write_all` have gone through it has taken all of it.
* `exchange_sound` -- a client that reads a response has all of it, and one that reads a 200
  has, decoded and parsed, the lines of the registry.
-/
import Portrelay.Theory.Http
import Portrelay.Theory.Machine
import Portrelay.Server.MetricsToken
import Portrelay.Server.Shutdown

namespace Portrelay.Server

open Portrelay.Theory Portrelay.Metrics

set_option autoImplicit false

/-! ## The response as a message -/

/-- `String::from_utf8` -/
def decodeUtf8 (bytes : List UInt8) : Option (List Char) :=
  bytes.toByteArray.utf8Decode?.map Array.toList

theorem decodeUtf8_utf8 (text : List Char) : decodeUtf8 (utf8 text) = some text := by
  have encoded : (utf8 text).toByteArray = text.utf8Encode := rfl
  rw [decodeUtf8, encoded, List.utf8Decode?_utf8Encode, Option.map_some]

theorem utf8_append (front back : List Char) : utf8 (front ++ back) = utf8 front ++ utf8 back :=
  List.flatMap_append

namespace Response

/-- The fields of `authHeader`, which is empty but in the 401 response. -/
def authFields (response : Response) : List (List UInt8 × List UInt8) :=
  if response.authHeader = [] then []
  else [(utf8 "WWW-Authenticate".toList, utf8 "Bearer".toList)]

def message (response : Response) : Http.Message where
  start := utf8 "HTTP/1.1 ".toList ++ utf8 response.status
  fields := [(utf8 "Content-Type".toList, utf8 response.contentType),
      (utf8 "Content-Length".toList, Http.decimal (utf8 response.body).length)] ++
    response.authFields ++ [(utf8 "Connection".toList, utf8 "close".toList)]
  body := utf8 response.body

end Response

/-- A response that is given. -/
inductive Served (registry : MetricsRegistry) : Response → Prop
  | unauthorized : Served registry .unauthorized
  | badRequest : Served registry .badRequest
  | metrics : Served registry (.metrics registry)
  | notFound : Served registry .notFound

theorem respond_served {ct : CtEq} {registry : MetricsRegistry} {bearerToken : Option (List Char)}
    {request : List UInt8} {complete : Bool} {response : Response}
    (answer : respond ct registry bearerToken request complete = some response) :
    Served registry response := by
  rcases respond_eq ct registry bearerToken request complete with ⟨-, sent⟩ | ⟨-, sent⟩
  · rw [sent, Option.some_inj] at answer
    subst answer
    cases complete with
    | false => exact .badRequest
    | true =>
        show Served registry (permitted registry request)
        rw [permitted]
        split
        · exact .metrics
        · exact .notFound
  · rw [sent, Option.some_inj] at answer
    subst answer
    exact .unauthorized

theorem serve_served {ct : CtEq} {registry : MetricsRegistry} {bearerToken : Option (List Char)}
    {read : RequestRead} {response : Response}
    (answer : serveMetricsConnection ct registry bearerToken read = some (some response)) :
    Served registry response := by
  cases read with
  | forced => cases answer
  | elapsed => cases answer
  | ended reader =>
      cases reader with
      | returned buffer size complete =>
          obtain ⟨request, -, answer⟩ := Option.bind_eq_some_iff.mp answer
          obtain ⟨given, answer, same⟩ := Option.bind_eq_some_iff.mp answer
          cases same
          exact respond_served answer
      | _ => cases answer

theorem utf8_digits (n : Nat) : utf8 (Nat.toDigits 10 n) = Http.decimal n := by
  have digits := digits_isDigit n
  rw [utf8, Http.decimal]
  generalize Nat.toDigits 10 n = cs at digits
  induction cs with
  | nil => rfl
  | cons c cs ih =>
      have digit : 48 ≤ c.toNat ∧ c.toNat ≤ 57 := by
        simpa [Char.isDigit, UInt32.le_iff_toNat_le] using digits c List.mem_cons_self
      have one : c.utf8Size = 1 := by
        rw [Char.utf8Size_eq_one_iff, UInt32.le_iff_toNat_le]
        show c.toNat ≤ 127
        omega
      rw [List.flatMap_cons, List.map_cons, ih fun d member => digits d (List.mem_cons_of_mem _ member),
        String.utf8EncodeChar_eq_singleton one]
      rfl

/-- The header line by line. -/
theorem header_lines (response : Response) :
    response.header = ("HTTP/1.1 ".toList ++ response.status) ++ (['\r', '\n'] ++
      ("Content-Type".toList ++ ([':', ' '] ++ response.contentType)) ++ (['\r', '\n'] ++
      ("Content-Length".toList ++ ([':', ' '] ++ Nat.toDigits 10 (utf8 response.body).length)) ++
      (['\r', '\n'] ++ response.authHeader ++
      ("Connection".toList ++ ([':', ' '] ++ "close".toList)) ++ ['\r', '\n', '\r', '\n']))) := by
  unfold Response.header
  repeat rw [String.toList_ofList]
  simp only [List.append_assoc, List.cons_append, List.nil_append]

theorem header_bytes (response : Response) :
    utf8 response.header = (utf8 "HTTP/1.1 ".toList ++ utf8 response.status) ++ ([Http.CR, Http.LF] ++
      (utf8 "Content-Type".toList ++ ([Http.COLON, Http.SPACE] ++ utf8 response.contentType)) ++
      ([Http.CR, Http.LF] ++ (utf8 "Content-Length".toList ++ ([Http.COLON, Http.SPACE] ++
        Http.decimal (utf8 response.body).length)) ++
      ([Http.CR, Http.LF] ++ utf8 response.authHeader ++
      (utf8 "Connection".toList ++ ([Http.COLON, Http.SPACE] ++ utf8 "close".toList)) ++
      [Http.CR, Http.LF, Http.CR, Http.LF]))) := by
  have newline : utf8 ['\r', '\n'] = [Http.CR, Http.LF] := rfl
  have ending : utf8 ['\r', '\n', '\r', '\n'] = [Http.CR, Http.LF, Http.CR, Http.LF] := rfl
  have colon : utf8 [':', ' '] = [Http.COLON, Http.SPACE] := rfl
  rw [header_lines]
  simp only [utf8_append, utf8_digits, newline, ending, colon]

/-- Nothing of a response breaks its header. -/
structure Response.Plain (response : Response) : Prop where
  status : Http.CR ∉ utf8 response.status
  contentType : Http.CR ∉ utf8 response.contentType
  bare : (utf8 response.contentType).head? ≠ some Http.SPACE
  auth : utf8 response.authHeader =
    response.authFields.flatMap fun field => Http.writeField field ++ [Http.CR, Http.LF]

theorem served_plain {registry : MetricsRegistry} {response : Response}
    (served : Served registry response) : response.Plain := by
  have text : Http.CR ∉ utf8 "text/plain; charset=utf-8".toList ∧
      (utf8 "text/plain; charset=utf-8".toList).head? ≠ some Http.SPACE := by
    rw [String.toList_ofList]
    decide +kernel
  cases served with
  | unauthorized =>
      refine ⟨?_, text.1, text.2, ?_⟩
      · show Http.CR ∉ utf8 "401 Unauthorized".toList
        rw [String.toList_ofList]
        decide +kernel
      · unfold Response.authFields Response.unauthorized
        repeat rw [String.toList_ofList]
        decide +kernel
  | badRequest =>
      refine ⟨?_, text.1, text.2, rfl⟩
      show Http.CR ∉ utf8 "400 Bad Request".toList
      rw [String.toList_ofList]
      decide +kernel
  | metrics =>
      refine ⟨?_, ?_, ?_, rfl⟩
      · show Http.CR ∉ utf8 "200 OK".toList
        rw [String.toList_ofList]
        decide +kernel
      · show Http.CR ∉ utf8 "text/plain; version=0.0.4; charset=utf-8".toList
        rw [String.toList_ofList]
        decide +kernel
      · show (utf8 "text/plain; version=0.0.4; charset=utf-8".toList).head? ≠ some Http.SPACE
        rw [String.toList_ofList]
        decide +kernel
  | notFound =>
      refine ⟨?_, text.1, text.2, rfl⟩
      show Http.CR ∉ utf8 "404 Not Found".toList
      rw [String.toList_ofList]
      decide +kernel

theorem bytes_eq {response : Response} (plain : response.Plain) :
    response.bytes = response.message.write := by
  have fields : response.authFields.flatMap (fun field => Http.writeField field ++
      [Http.CR, Http.LF]) = (response.authFields.map Http.writeField).flatMap fun line =>
        line ++ [Http.CR, Http.LF] := by
    rw [List.flatMap_map]
  rw [Response.bytes, header_bytes, plain.auth, fields]
  simp only [Http.Message.write, Http.Message.lines, Http.writeHead, Http.writeField,
    Response.message, List.map_append, List.map_cons, List.map_nil, List.flatMap_append,
    List.flatMap_cons, List.flatMap_nil, List.append_assoc, List.cons_append, List.nil_append]

/-- The fields that are the same in every response. -/
theorem fixed_fields :
    (∀ name ∈ [utf8 "Content-Type".toList, utf8 "Content-Length".toList,
      utf8 "WWW-Authenticate".toList, utf8 "Connection".toList],
        Http.COLON ∉ name ∧ Http.CR ∉ name) ∧
    (∀ value ∈ [utf8 "Bearer".toList, utf8 "close".toList],
      Http.CR ∉ value ∧ value.head? ≠ some Http.SPACE) := by
  repeat rw [String.toList_ofList]
  decide +kernel

theorem decimal_plain (n : Nat) :
    Http.CR ∉ Http.decimal n ∧ (Http.decimal n).head? ≠ some Http.SPACE := by
  have each : ∀ byte ∈ Http.decimal n, 48 ≤ byte.toNat := by
    intro byte member
    obtain ⟨c, among, rfl⟩ := List.mem_map.mp member
    have digit : 48 ≤ c.toNat ∧ c.toNat ≤ 57 := by
      simpa [Char.isDigit, UInt32.le_iff_toNat_le] using digits_isDigit n c among
    rw [UInt8.toNat_ofNat', Nat.mod_eq_of_lt (by omega)]
    exact digit.1
  constructor
  · intro member
    exact absurd (each _ member) (by decide)
  · intro first
    exact absurd (each _ (List.mem_of_head? first)) (by decide)

theorem wellFormed {response : Response} (plain : response.Plain) : response.message.WellFormed := by
  obtain ⟨names, values⟩ := fixed_fields
  have broken : ∀ {name value : List UInt8}, Http.CR ∉ name → Http.CR ∉ value →
      Http.CR ∉ Http.writeField (name, value) := by
    intro name value first second
    have signs : Http.CR ≠ Http.COLON ∧ Http.CR ≠ Http.SPACE := by decide
    simp only [Http.writeField, List.mem_append, List.mem_cons, first, second, signs.1, signs.2,
      or_self, not_false_iff]
  refine ⟨⟨?_, ?_⟩, ?_, ?_⟩
  · have some_ : utf8 "HTTP/1.1 ".toList ≠ [] := by
      rw [String.toList_ofList]
      decide +kernel
    exact List.append_ne_nil_of_left_ne_nil some_ _
  · have version : Http.CR ∉ utf8 "HTTP/1.1 ".toList := by
      rw [String.toList_ofList]
      decide +kernel
    show Http.CR ∉ utf8 "HTTP/1.1 ".toList ++ utf8 response.status
    rw [List.mem_append]
    exact not_or.mpr ⟨version, plain.status⟩
  · have digits := decimal_plain (utf8 response.body).length
    intro field member
    rcases List.mem_append.mp member with early | last
    · rcases List.mem_append.mp early with first | auth
      · rcases List.mem_cons.mp first with rfl | second
        · obtain ⟨colon, cr⟩ := names _ List.mem_cons_self
          exact ⟨⟨colon, plain.bare⟩, broken cr plain.contentType⟩
        · obtain rfl := List.mem_singleton.mp second
          obtain ⟨colon, cr⟩ := names _ (List.mem_cons_of_mem _ List.mem_cons_self)
          exact ⟨⟨colon, digits.2⟩, broken cr digits.1⟩
      · unfold Response.authFields at auth
        split at auth
        · cases auth
        · obtain rfl := List.mem_singleton.mp auth
          obtain ⟨colon, cr⟩ := names _
            (List.mem_cons_of_mem _ (List.mem_cons_of_mem _ List.mem_cons_self))
          obtain ⟨cr', bare⟩ := values _ List.mem_cons_self
          exact ⟨⟨colon, bare⟩, broken cr cr'⟩
    · obtain rfl := List.mem_singleton.mp last
      obtain ⟨colon, cr⟩ := names _ (List.mem_cons_of_mem _ (List.mem_cons_of_mem _
        (List.mem_cons_of_mem _ List.mem_cons_self)))
      obtain ⟨cr', bare⟩ := values _ (List.mem_cons_of_mem _ List.mem_cons_self)
      exact ⟨⟨colon, bare⟩, broken cr cr'⟩
  · refine ⟨utf8 "Content-Length".toList, ?_⟩
    have lengths : ∀ value, Http.isLength (utf8 "Content-Type".toList, value) = false ∧
        Http.isLength (utf8 "Content-Length".toList, value) = true ∧
        Http.isLength (utf8 "WWW-Authenticate".toList, value) = false ∧
        Http.isLength (utf8 "Connection".toList, value) = false := by
      intro value
      unfold Http.isLength
      repeat rw [String.toList_ofList]
      dsimp only
      decide +kernel
    have auth : response.authFields.filter Http.isLength = [] := by
      unfold Response.authFields
      split
      · rfl
      · rw [List.filter_cons_of_neg (Bool.eq_false_iff.mp (lengths _).2.2.1), List.filter_nil]
    have type := (lengths (utf8 response.contentType)).1
    have length := (lengths (Http.decimal (utf8 response.body).length)).2.1
    have last := (lengths (utf8 "close".toList)).2.2.2
    show ([(utf8 "Content-Type".toList, utf8 response.contentType),
      (utf8 "Content-Length".toList, Http.decimal (utf8 response.body).length)] ++
      response.authFields ++ [(utf8 "Connection".toList, utf8 "close".toList)]).filter Http.isLength = _
    rw [List.filter_append, List.filter_append, auth, List.filter_cons_of_neg (Bool.eq_false_iff.mp type),
      List.filter_cons_of_pos length, List.filter_cons_of_neg (Bool.eq_false_iff.mp last)]
    rfl

/-- What is written is the message, whose Content-Length is its own. -/
theorem served_message {registry : MetricsRegistry} {response : Response}
    (served : Served registry response) :
    response.bytes = response.message.write ∧ response.message.WellFormed :=
  ⟨bytes_eq (served_plain served), wellFormed (served_plain served)⟩

/-! ## The writes -/

/-- Where the writing of a response is. -/
inductive Writer
  /-- in `stream.write_all(header.as_bytes())` -/
  | header (rest : List UInt8)
  /-- in `stream.write_all(body.as_bytes())` -/
  | body (rest : List UInt8)
  /-- in `stream.shutdown()` -/
  | closing
  | ended
  deriving DecidableEq, Repr

/-- Where the task of the connection is meanwhile. -/
def Writer.connection : Writer → MetricsConnection
  | .header _ => .writingHeader
  | .body _ => .writingBody
  | .closing => .closing
  | .ended => .finished

/-- A response under way. -/
structure Delivery where
  /-- what the stream has taken -/
  sent : List UInt8
  writer : Writer
  /-- no `write_all` has failed or was given up -/
  clean : Bool
  deriving DecidableEq, Repr

inductive DeliveryEvent
  /-- a write of the stream took some bytes -/
  | wrote (count : Nat)
  /-- a write failed, or took none -/
  | failed
  /-- a `write_all` returned, or the `shutdown` -/
  | next
  /-- the task was dropped -/
  | dropped
  deriving DecidableEq, Repr

namespace Delivery

def step (response : Response) (d : Delivery) : DeliveryEvent → Option Delivery
  | .wrote count =>
      match d.writer with
      | .header rest =>
          if 0 < count ∧ count ≤ rest.length then
            some { d with sent := d.sent ++ rest.take count, writer := .header (rest.drop count) }
          else none
      | .body rest =>
          if 0 < count ∧ count ≤ rest.length then
            some { d with sent := d.sent ++ rest.take count, writer := .body (rest.drop count) }
          else none
      | _ => none
  | .failed =>
      match d.writer with
      | .header (_ :: _) => some { d with writer := .closing, clean := false }
      | .body (_ :: _) => some { d with writer := .closing, clean := false }
      | _ => none
  | .next =>
      match d.writer with
      | .header [] => some { d with writer := .body (utf8 response.body) }
      | .body [] => some { d with writer := .closing }
      | .closing => some { d with writer := .ended }
      | _ => none
  | .dropped =>
      match d.writer with
      | .ended => none
      | .closing => some { d with writer := .ended }
      | _ => some { d with writer := .ended, clean := false }

def start (response : Response) : Delivery := ⟨[], .header (utf8 response.header), true⟩

def delivering (response : Response) : Machine Delivery DeliveryEvent :=
  ⟨fun d => d = start response, step response⟩

/-- What a step can do. -/
inductive Stepped (response : Response) : Delivery → DeliveryEvent → Delivery → Prop
  | header {sent rest : List UInt8} {clean : Bool} {count : Nat} (some_ : 0 < count)
      (fits : count ≤ rest.length) :
      Stepped response ⟨sent, .header rest, clean⟩ (.wrote count)
        ⟨sent ++ rest.take count, .header (rest.drop count), clean⟩
  | body {sent rest : List UInt8} {clean : Bool} {count : Nat} (some_ : 0 < count)
      (fits : count ≤ rest.length) :
      Stepped response ⟨sent, .body rest, clean⟩ (.wrote count)
        ⟨sent ++ rest.take count, .body (rest.drop count), clean⟩
  | headerFailed {sent rest : List UInt8} {clean : Bool} (left : rest ≠ []) :
      Stepped response ⟨sent, .header rest, clean⟩ .failed ⟨sent, .closing, false⟩
  | bodyFailed {sent rest : List UInt8} {clean : Bool} (left : rest ≠ []) :
      Stepped response ⟨sent, .body rest, clean⟩ .failed ⟨sent, .closing, false⟩
  | headerWritten {sent : List UInt8} {clean : Bool} :
      Stepped response ⟨sent, .header [], clean⟩ .next ⟨sent, .body (utf8 response.body), clean⟩
  | bodyWritten {sent : List UInt8} {clean : Bool} :
      Stepped response ⟨sent, .body [], clean⟩ .next ⟨sent, .closing, clean⟩
  | closed {sent : List UInt8} {clean : Bool} :
      Stepped response ⟨sent, .closing, clean⟩ .next ⟨sent, .ended, clean⟩
  | cutOff {sent : List UInt8} {writer : Writer} {clean : Bool} (writing : writer ≠ .closing)
      (running : writer ≠ .ended) :
      Stepped response ⟨sent, writer, clean⟩ .dropped ⟨sent, .ended, false⟩
  | dropped {sent : List UInt8} {clean : Bool} :
      Stepped response ⟨sent, .closing, clean⟩ .dropped ⟨sent, .ended, clean⟩

theorem step_stepped {response : Response} {d e : Delivery} {event : DeliveryEvent}
    (stepped : step response d event = some e) : Stepped response d event e := by
  obtain ⟨sent, writer, clean⟩ := d
  cases event with
  | wrote count =>
      cases writer with
      | header rest =>
          obtain ⟨⟨some_, fits⟩, same⟩ := Option.ite_none_right_eq_some.mp stepped
          obtain rfl := Option.some.inj same
          exact .header some_ fits
      | body rest =>
          obtain ⟨⟨some_, fits⟩, same⟩ := Option.ite_none_right_eq_some.mp stepped
          obtain rfl := Option.some.inj same
          exact .body some_ fits
      | closing | ended => cases stepped
  | failed =>
      cases writer with
      | header rest =>
          cases rest with
          | nil => cases stepped
          | cons byte rest =>
              obtain rfl := Option.some.inj stepped
              exact .headerFailed (List.cons_ne_nil byte rest)
      | body rest =>
          cases rest with
          | nil => cases stepped
          | cons byte rest =>
              obtain rfl := Option.some.inj stepped
              exact .bodyFailed (List.cons_ne_nil byte rest)
      | closing | ended => cases stepped
  | next =>
      cases writer with
      | header rest =>
          cases rest with
          | cons byte rest => cases stepped
          | nil =>
              obtain rfl := Option.some.inj stepped
              exact .headerWritten
      | body rest =>
          cases rest with
          | cons byte rest => cases stepped
          | nil =>
              obtain rfl := Option.some.inj stepped
              exact .bodyWritten
      | closing =>
          obtain rfl := Option.some.inj stepped
          exact .closed
      | ended => cases stepped
  | dropped =>
      cases writer with
      | closing =>
          obtain rfl := Option.some.inj stepped
          exact .dropped
      | ended => cases stepped
      | header rest | body rest =>
          obtain rfl := Option.some.inj stepped
          exact .cutOff nofun nofun

/-- Unless it is dropped, the task goes where `serve_metrics_connection` goes. -/
theorem step_connection {response : Response} {d e : Delivery} {event : DeliveryEvent}
    (stepped : step response d event = some e) (kept : event ≠ .dropped) (force : Bool) :
    e.writer.connection = d.writer.connection ∨
      ∃ own, d.writer.connection.step force own = some e.writer.connection := by
  cases step_stepped stepped with
  | header some_ fits | body some_ fits => exact Or.inl rfl
  | headerFailed left => exact Or.inr ⟨.headerFailed, rfl⟩
  | bodyFailed left => exact Or.inr ⟨.bodyWritten, rfl⟩
  | headerWritten => exact Or.inr ⟨.headerWritten, rfl⟩
  | bodyWritten => exact Or.inr ⟨.bodyWritten, rfl⟩
  | closed => exact Or.inr ⟨.closed, rfl⟩
  | cutOff writing running | dropped => exact absurd rfl kept

/-- What has been sent and what is left are the response; a writer that is past its writes
has sent all of it, unless one did not go through. -/
def Inv (response : Response) (d : Delivery) : Prop :=
  match d.writer with
  | .header rest => d.sent ++ rest = utf8 response.header
  | .body rest => d.sent ++ rest = response.bytes
  | _ => d.sent <+: response.bytes ∧ (d.clean = true → d.sent = response.bytes)

theorem header_prefix {response : Response} {sent rest : List UInt8}
    (whole : sent ++ rest = utf8 response.header) : sent <+: response.bytes := by
  refine ⟨rest ++ utf8 response.body, ?_⟩
  rw [← List.append_assoc, whole, Response.bytes]

theorem Inv.prefix {response : Response} {d : Delivery} (inv : d.Inv response) :
    d.sent <+: response.bytes := by
  unfold Inv at inv
  split at inv
  · exact header_prefix inv
  · exact ⟨_, inv⟩
  · exact inv.1

theorem step_inv {response : Response} {d e : Delivery} {event : DeliveryEvent}
    (inv : d.Inv response) (stepped : step response d event = some e) : e.Inv response := by
  have front := inv.prefix
  cases step_stepped stepped with
  | @header sent rest clean count some_ fits =>
      show sent ++ rest.take count ++ rest.drop count = _
      rw [List.append_assoc, List.take_append_drop]
      exact inv
  | @body sent rest clean count some_ fits =>
      show sent ++ rest.take count ++ rest.drop count = _
      rw [List.append_assoc, List.take_append_drop]
      exact inv
  | headerFailed left | bodyFailed left | cutOff writing running =>
      exact ⟨front, fun clean => by cases clean⟩
  | @headerWritten sent clean =>
      have written : sent ++ [] = utf8 response.header := inv
      show sent ++ utf8 response.body = response.bytes
      rw [List.append_nil] at written
      rw [written, Response.bytes]
  | @bodyWritten sent clean =>
      have written : sent ++ [] = response.bytes := inv
      rw [List.append_nil] at written
      exact ⟨front, fun _ => written⟩
  | closed | dropped => exact inv

theorem reachable_inv {response : Response} {d : Delivery}
    (reached : (delivering response).Reachable d) : d.Inv response := by
  refine (delivering response).invariant ?_ (fun _ _ _ _ inv stepped => step_inv inv stepped) reached
  rintro d rfl
  exact List.nil_append _

theorem delivering_prefix {response : Response} {d : Delivery}
    (reached : (delivering response).Reachable d) : d.sent <+: response.bytes :=
  Inv.prefix (reachable_inv reached)

/-- What the task does after the writes takes nothing back. -/
theorem delivered_whole {response : Response} {d : Delivery}
    (reached : (delivering response).Reachable d) (past : d.writer = .closing ∨ d.writer = .ended)
    (clean : d.clean = true) : d.sent = response.bytes := by
  have inv := reachable_inv reached
  rcases past with closing | ended
  · rw [Inv, closing] at inv
    exact inv.2 clean
  · rw [Inv, ended] at inv
    exact inv.2 clean

end Delivery

/-! ## What the client reads -/

/-- The lines a client finds in the body of a response. -/
def parseBody (message : Http.Message) : Option (List Exposition.Line) :=
  (decodeUtf8 message.body).bind Exposition.parse

/-- The status line of a 200 response. -/
def okLine : List UInt8 := utf8 "HTTP/1.1 ".toList ++ utf8 "200 OK".toList

/-- No other response has it. -/
theorem metrics_of_ok {registry : MetricsRegistry} {response : Response}
    (served : Served registry response) (ok : response.message.start = okLine) :
    response = .metrics registry := by
  have status : utf8 response.status = utf8 "200 OK".toList := List.append_cancel_left ok
  have others : utf8 "401 Unauthorized".toList ≠ utf8 "200 OK".toList ∧
      utf8 "400 Bad Request".toList ≠ utf8 "200 OK".toList ∧
      utf8 "404 Not Found".toList ≠ utf8 "200 OK".toList := by
    repeat rw [String.toList_ofList]
    decide +kernel
  cases served with
  | unauthorized => exact absurd status others.1
  | badRequest => exact absurd status others.2.1
  | metrics => rfl
  | notFound => exact absurd status others.2.2

theorem parseBody_metrics (registry : MetricsRegistry) :
    parseBody (Response.metrics registry).message = some registry.lines := by
  show (decodeUtf8 (utf8 registry.render)).bind Exposition.parse = _
  rw [decodeUtf8_utf8, Option.bind_some, registry.render_eq_write]
  exact Exposition.parse_write registry.lines_wellFormed

/-- What a client has is a prefix of the response, however the writes are cut and wherever
they end; if it can read a response from that, it has all of it and nothing else, and a 200 is
the registry's lines; and writes that have both gone through, whatever becomes of the task
then, have given the stream a response that reads back. -/
theorem exchange_sound {ct : CtEq} {registry : MetricsRegistry} {bearerToken : Option (List Char)}
    {read : RequestRead} {response : Response}
    (answer : serveMetricsConnection ct registry bearerToken read = some (some response))
    {d : Delivery} (reached : (Delivery.delivering response).Reachable d) :
    d.sent <+: response.bytes ∧
    (∀ received message rest, received <+: d.sent → Http.read received = some (message, rest) →
      received = response.bytes ∧ d.sent = response.bytes ∧ rest = [] ∧
        message = response.message ∧
        (message.start = okLine → parseBody message = some registry.lines)) ∧
    (d.writer = .closing ∨ d.writer = .ended → d.clean = true →
      d.sent = response.bytes ∧ Http.read d.sent = some (response.message, [])) := by
  have served := serve_served answer
  obtain ⟨whole, valid⟩ := served_message served
  have front := Delivery.delivering_prefix reached
  refine ⟨front, ?_, ?_⟩
  · intro received message rest held found
    have part := held.trans front
    rw [whole] at part
    obtain ⟨all, rfl, none_⟩ := Http.read_prefix valid part found
    have all' : received = response.bytes := all.trans whole.symm
    rw [all'] at held
    refine ⟨all', front.eq_of_length_le held.length_le, none_, rfl, ?_⟩
    intro ok
    rw [metrics_of_ok served ok]
    exact parseBody_metrics registry
  · intro past clean
    have sent := Delivery.delivered_whole reached past clean
    have readBack := Http.read_write valid []
    rw [List.append_nil] at readBack
    refine ⟨sent, ?_⟩
    rw [sent, whole]
    exact readBack

theorem length_le_utf8 (text : List Char) : text.length ≤ (utf8 text).length := by
  induction text with
  | nil => exact Nat.le_refl 0
  | cons c text ih =>
      have pos := Char.utf8Size_pos c
      have both : (utf8 (c :: text)).length = c.utf8Size + (utf8 text).length := by
        rw [utf8, List.flatMap_cons, List.length_append, String.length_utf8EncodeChar]
        rfl
      rw [both, List.length_cons]
      omega

/-- Every header and every body of metrics can be cut in two. -/
theorem one_lt_header (response : Response) : 1 < (utf8 response.header).length := by
  have version : "HTTP/1.1 ".toList.length = 9 := by
    rw [String.toList_ofList]
    rfl
  have encoded := length_le_utf8 response.header
  have length := congrArg List.length (header_lines response)
  simp only [List.length_append, version] at length
  omega

theorem one_lt_render (registry : MetricsRegistry) : 1 < (utf8 registry.render).length := by
  obtain ⟨rest, text⟩ : ∃ rest, registry.render = '#' :: ' ' :: rest := by
    rw [registry.render_eq_write]
    exact ⟨_, rfl⟩
  have encoded := length_le_utf8 registry.render
  rw [text, List.length_cons, List.length_cons] at encoded
  rw [text]
  omega

namespace Delivery

variable {response : Response} {sent rest : List UInt8} {clean : Bool} {count : Nat}

theorem wrote_header (some_ : 0 < count) (fits : count ≤ rest.length) :
    step response ⟨sent, .header rest, clean⟩ (.wrote count) =
      some ⟨sent ++ rest.take count, .header (rest.drop count), clean⟩ :=
  if_pos ⟨some_, fits⟩

theorem wrote_body (some_ : 0 < count) (fits : count ≤ rest.length) :
    step response ⟨sent, .body rest, clean⟩ (.wrote count) =
      some ⟨sent ++ rest.take count, .body (rest.drop count), clean⟩ :=
  if_pos ⟨some_, fits⟩

theorem failed_body (left : rest ≠ []) :
    step response ⟨sent, .body rest, clean⟩ .failed = some ⟨sent, .closing, false⟩ := by
  obtain ⟨byte, bytes, rfl⟩ := List.exists_cons_of_ne_nil left
  rfl

variable (response)

/-- The header in two writes, and the first byte of the body. -/
def front : List DeliveryEvent :=
  [.wrote 1, .wrote ((utf8 response.header).length - 1), .next, .wrote 1]

theorem front_written (body : 1 < (utf8 response.body).length) :
    (delivering response).exec (start response) (front response) =
      some ⟨utf8 response.header ++ (utf8 response.body).take 1,
        .body ((utf8 response.body).drop 1), true⟩ := by
  have head := one_lt_header response
  have left : ((utf8 response.header).drop 1).length = (utf8 response.header).length - 1 :=
    List.length_drop
  have first : step response (start response) (.wrote 1) =
      some ⟨(utf8 response.header).take 1, .header ((utf8 response.header).drop 1), true⟩ :=
    wrote_header Nat.one_pos (Nat.le_of_lt head)
  have second : step response
      ⟨(utf8 response.header).take 1, .header ((utf8 response.header).drop 1), true⟩
      (.wrote ((utf8 response.header).length - 1)) =
        some ⟨utf8 response.header, .header [], true⟩ := by
    rw [wrote_header (Nat.sub_pos_of_lt head) (Nat.le_of_eq left.symm), ← left, List.take_length,
      List.drop_length, List.take_append_drop]
  have third : step response ⟨utf8 response.header, .body (utf8 response.body), true⟩ (.wrote 1) =
      some ⟨utf8 response.header ++ (utf8 response.body).take 1,
        .body ((utf8 response.body).drop 1), true⟩ :=
    wrote_body Nat.one_pos (Nat.le_of_lt body)
  simp only [front, Machine.exec_cons, Machine.exec_nil, delivering, first, second,
    Option.bind_some]
  exact congrArg (·.bind some) third

/-- The rest of the body; the task is dropped while it closes the stream. -/
theorem back_written (body : 1 < (utf8 response.body).length) :
    (delivering response).exec ⟨utf8 response.header ++ (utf8 response.body).take 1,
        .body ((utf8 response.body).drop 1), true⟩
      [.wrote ((utf8 response.body).length - 1), .next, .dropped] =
        some ⟨response.bytes, .ended, true⟩ := by
  have left : ((utf8 response.body).drop 1).length = (utf8 response.body).length - 1 :=
    List.length_drop
  have first : step response ⟨utf8 response.header ++ (utf8 response.body).take 1,
      .body ((utf8 response.body).drop 1), true⟩ (.wrote ((utf8 response.body).length - 1)) =
        some ⟨response.bytes, .body [], true⟩ := by
    rw [wrote_body (Nat.sub_pos_of_lt body) (Nat.le_of_eq left.symm), ← left, List.take_length,
      List.drop_length, List.append_assoc, List.take_append_drop, Response.bytes]
  simp only [Machine.exec_cons, Machine.exec_nil, delivering, first, Option.bind_some]
  rfl

/-- The next write fails. -/
theorem back_failed (body : 1 < (utf8 response.body).length) :
    (delivering response).exec ⟨utf8 response.header ++ (utf8 response.body).take 1,
        .body ((utf8 response.body).drop 1), true⟩ [.failed] =
      some ⟨utf8 response.header ++ (utf8 response.body).take 1, .closing, false⟩ := by
  have left : (utf8 response.body).drop 1 ≠ [] := by
    apply List.ne_nil_of_length_pos
    rw [List.length_drop]
    exact Nat.sub_pos_of_lt body
  simp only [Machine.exec_cons, Machine.exec_nil, delivering, failed_body left, Option.bind_some]

end Delivery

/-- A client with the token is sent the metrics in four writes, and reads them though the task
is dropped as it closes; where the fourth fails it has a part of them and reads nothing. -/
theorem exchange_sound_token :
    ∃ d e message, (Delivery.delivering (.metrics ⟨[.new "a".toList]⟩)).Reachable d ∧
      Http.read d.sent = some (message, []) ∧
      parseBody message = some (MetricsRegistry.lines ⟨[.new "a".toList]⟩) ∧
      (Delivery.delivering (.metrics ⟨[.new "a".toList]⟩)).Reachable e ∧
      e.sent <+: d.sent ∧ e.sent ≠ [] ∧ Http.read e.sent = none := by
  let registry : MetricsRegistry := ⟨[.new "a".toList]⟩
  have usable : Usable (utf8 ['s']) := ⟨by decide, by decide, by decide⟩
  have answer : metricsExchange .decided registry (some ['s']) (fun _ => 1)
      (tokenRequest (utf8 ['s'])) = some (some (.metrics registry)) :=
    metrics_of_usable (utf8_ne_nil (List.cons_ne_nil _ _)) usable fun _ => 1
  have body : 1 < (utf8 (Response.metrics registry).body).length := one_lt_render registry
  have begun : (Delivery.delivering (.metrics registry)).Reachable (Delivery.start _) := .start rfl
  have halfway := begun.exec (Delivery.front_written _ body)
  have written := halfway.exec (Delivery.back_written _ body)
  have cut := halfway.exec (Delivery.back_failed _ body)
  obtain ⟨-, sound, complete⟩ := exchange_sound answer written
  obtain ⟨-, readBack⟩ := complete (Or.inr rfl) rfl
  obtain ⟨part, partSound, -⟩ := exchange_sound answer cut
  have lines := (sound _ _ _ List.prefix_rfl readBack).2.2.2.2 rfl
  have nonempty : utf8 (Response.metrics registry).header ++
      (utf8 (Response.metrics registry).body).take 1 ≠ [] := by
    apply List.append_ne_nil_of_left_ne_nil
    exact List.ne_nil_of_length_pos (Nat.lt_of_succ_lt (one_lt_header _))
  refine ⟨_, _, _, written, readBack, lines, cut, part, nonempty, ?_⟩
  -- what reads back has all of the response
  by_contra readable
  obtain ⟨⟨message, rest⟩, found⟩ := Option.ne_none_iff_exists'.mp readable
  have all := (partSound _ _ _ List.prefix_rfl found).1
  have lengths := congrArg List.length all
  rw [Response.bytes, List.length_append, List.length_append, List.length_take] at lengths
  omega

end Portrelay.Server
