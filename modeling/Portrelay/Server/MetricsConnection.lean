/-
# Server.MetricsConnection -- serve_metrics_connection: what a client is answered

The response of `src/server.rs` to the bytes its reader received.

* `no_disclosure` -- without an authorization line the answer is the 401 response, the same
  for every registry and request, and the check never fails.
* `fragmentation_iff` -- when the answer to a request followed by more bytes depends on how
  they arrive: the lines after the empty line are searched for the token too.
-/
import Portrelay.Metrics.Render
import Portrelay.Server.BearerToken
import Portrelay.Server.MetricsRequest

namespace Portrelay.Server

open Portrelay.Theory Portrelay.Metrics

set_option autoImplicit false

structure Response where
  status : List Char
  contentType : List Char
  body : List Char
  authHeader : List Char
  deriving DecidableEq, Repr

namespace Response

def unauthorized : Response :=
  ⟨"401 Unauthorized".toList, "text/plain; charset=utf-8".toList, "unauthorized\n".toList,
    "WWW-Authenticate: Bearer\r\n".toList⟩

def badRequest : Response :=
  ⟨"400 Bad Request".toList, "text/plain; charset=utf-8".toList, "bad request\n".toList, []⟩

def metrics (registry : MetricsRegistry) : Response :=
  ⟨"200 OK".toList, "text/plain; version=0.0.4; charset=utf-8".toList, registry.render, []⟩

def notFound : Response :=
  ⟨"404 Not Found".toList, "text/plain; charset=utf-8".toList, "not found\n".toList, []⟩

def header (response : Response) : List Char :=
  "HTTP/1.1 ".toList ++ response.status ++ "\r\nContent-Type: ".toList ++ response.contentType ++
    "\r\nContent-Length: ".toList ++ Nat.toDigits 10 (utf8 response.body).length ++
    "\r\n".toList ++ response.authHeader ++ "Connection: close\r\n\r\n".toList

/-- What is written to the client. -/
def bytes (response : Response) : List UInt8 := utf8 response.header ++ utf8 response.body

end Response

/-- How the wait for the request ended: by a forced shutdown, after `METRICS_REQUEST_TIMEOUT`,
or with the reader at its end. -/
inductive RequestRead
  | forced
  | elapsed
  | ended (reader : Reader)
  deriving DecidableEq, Repr

/-- The choice of the response to the received bytes. -/
def respond (ct : CtEq) (registry : MetricsRegistry) (bearerToken : Option (List Char))
    (request : List UInt8) (complete : Bool) : Option Response := do
  let requestLine := (request.splitOn LF).head?.getD []
  let isAuthorized ← match bearerToken with
    | none => some true
    | some token => hasValidBearerToken ct request (utf8 token)
  let isMetrics := (utf8 "GET /metrics ".toList).isPrefixOf requestLine
  some (if !isAuthorized then .unauthorized
    else if !complete then .badRequest
    else if isMetrics then .metrics registry
    else .notFound)

/-- The response that is written before the stream is shut down, if any; `none` where an
index is out of range. -/
def serveMetricsConnection (ct : CtEq) (registry : MetricsRegistry)
    (bearerToken : Option (List Char)) : RequestRead → Option (Option Response)
  | .forced => some none
  | .elapsed => some none
  | .ended .failed => some none
  | .ended (.returned request size complete) => do
      let received ← sliceTo request size
      some (← respond ct registry bearerToken received complete)
  | .ended _ => none

/-- The request buffer. -/
def requestBuffer : List UInt8 := List.replicate (4 * 1024) 0

/-- A connection whose client sends `stream`, none of whose reads fails or comes late. -/
def metricsExchange (ct : CtEq) (registry : MetricsRegistry) (bearerToken : Option (List Char))
    (arrived : Arrival) (stream : List UInt8) : Option (Option Response) :=
  serveMetricsConnection ct registry bearerToken
    (.ended (readMetricsRequest arrived.reads requestBuffer stream))

/-! ## The response to what was received -/

/-- The request may see the metrics: there is no token, or a line after the first gives it. -/
def Authorized (bearerToken : Option (List Char)) (request : List UInt8) : Prop :=
  ∀ token ∈ bearerToken, Authorizes (utf8 token) request

/-- The answer to a complete request that may see the metrics. -/
def permitted (registry : MetricsRegistry) (request : List UInt8) : Response :=
  if (utf8 "GET /metrics ".toList).isPrefixOf ((request.splitOn LF).head?.getD []) then
    .metrics registry
  else .notFound

theorem permitted_status (registry : MetricsRegistry) (request : List UInt8) :
    (permitted registry request).status ≠ Response.unauthorized.status := by
  have found : (Response.metrics registry).status ≠ Response.unauthorized.status := by
    show "200 OK".toList ≠ "401 Unauthorized".toList
    decide
  have missing : Response.notFound.status ≠ Response.unauthorized.status := by decide
  rw [permitted]
  split
  · exact found
  · exact missing

theorem respond_eq (ct : CtEq) (registry : MetricsRegistry) (bearerToken : Option (List Char))
    (request : List UInt8) (complete : Bool) :
    (Authorized bearerToken request ∧ respond ct registry bearerToken request complete =
      some (if !complete then .badRequest else permitted registry request)) ∨
    (¬ Authorized bearerToken request ∧
      respond ct registry bearerToken request complete = some .unauthorized) := by
  cases bearerToken with
  | none => exact Or.inl ⟨fun _ member => (Option.not_mem_none _ member).elim, rfl⟩
  | some token =>
      obtain ⟨answer, run, exact_⟩ := hasValidBearerToken_exact ct request (utf8 token)
      have authorized : Authorized (some token) request ↔ answer = true := by
        rw [exact_, Authorized]
        simp only [Option.mem_def, Option.some.injEq, forall_eq']
      rw [authorized, respond, run, Option.bind_eq_bind, Option.bind_some]
      cases answer with
      | false => exact Or.inr ⟨Bool.false_ne_true, rfl⟩
      | true => exact Or.inl ⟨rfl, rfl⟩

theorem serve_returned (ct : CtEq) (registry : MetricsRegistry) (bearerToken : Option (List Char))
    {buffer request : List UInt8} {size : Nat} (received : sliceTo buffer size = some request)
    (complete : Bool) :
    serveMetricsConnection ct registry bearerToken (.ended (.returned buffer size complete)) =
      (respond ct registry bearerToken request complete).map some := by
  rw [serveMetricsConnection, received, Option.bind_eq_bind, Option.bind_some, Option.bind_eq_bind,
    Option.map_eq_bind]
  rfl

/-- No index is out of range; the check answers yes exactly for a line that gives the token;
without one, whatever was received gets the same bytes for every registry, the 401 response. -/
theorem no_disclosure (ct : CtEq) (token : List Char) (request : List UInt8) :
    (∀ value, trimAscii value = some (trim isAsciiWhitespace value)) ∧
    (∃ answer, hasValidBearerToken ct request (utf8 token) = some answer ∧
      (answer = true ↔ Authorizes (utf8 token) request)) ∧
    (¬ Authorizes (utf8 token) request →
      ∀ (registry : MetricsRegistry) (buffer : List UInt8) (size : Nat) (complete : Bool),
        sliceTo buffer size = some request →
        (serveMetricsConnection ct registry (some token)
          (.ended (.returned buffer size complete))).map (Option.map Response.bytes) =
            some (some Response.unauthorized.bytes)) := by
  refine ⟨fun value => trimAscii_eq (trims_trim isAsciiWhitespace value),
    hasValidBearerToken_exact ct request (utf8 token), ?_⟩
  intro without registry buffer size complete received
  rw [serve_returned ct registry (some token) received complete]
  rcases respond_eq ct registry (some token) request complete with ⟨authorized, -⟩ | ⟨-, response⟩
  · exact absurd (authorized token rfl) without
  · rw [response]
    rfl

theorem no_disclosure_wrong :
    let request := utf8 "GET /metrics HTTP/1.1\nAuthorization: Bearer s\n\n".toList
    (serveMetricsConnection .decided ⟨[.new "a".toList]⟩ (some "t".toList)
      (.ended (.returned request 47 true))).map (Option.map Response.bytes) =
        some (some Response.unauthorized.bytes) :=
  (no_disclosure .decided "t".toList
    (utf8 "GET /metrics HTTP/1.1\nAuthorization: Bearer s\n\n".toList)).2.2 (by decide) _ _ 47 true
      (by decide)

/-! ## A head and what follows it -/

/-- The stream begins with a head that ends with its only empty line, and that fits. -/
structure Headed (head : List UInt8) : Prop where
  ends : crlfcrlf <:+ head
  only : ¬ Ended head.dropLast
  fits : head.length ≤ 4 * 1024

variable {head : List UInt8}

theorem Headed.line (headed : Headed head) : ∃ front, head = front ++ [LF] := by
  obtain ⟨front, rfl⟩ := headed.ends
  exact ⟨front ++ [13, 10, 13], (List.append_assoc front [13, 10, 13] [LF]).symm⟩

theorem Headed.nonempty (headed : Headed head) : 0 < head.length := by
  have four := headed.ends.length_le
  exact Nat.lt_of_lt_of_le (by decide) four

/-- Where the reader stops, it has the first empty line. -/
theorem length_le_of_ended (only : ¬ Ended head.dropLast) {body : List UInt8} {size : Nat}
    (ended : Ended ((head ++ body).take size)) : head.length ≤ size := by
  by_contra less
  have within : (head ++ body).take size = head.dropLast.take size := by
    rw [List.take_append_of_le_length (by omega), List.dropLast_eq_take, List.take_take,
      Nat.min_eq_left (by omega)]
  rw [within] at ended
  exact only (ended.trans (List.take_prefix _ _).isInfix)

theorem Headed.ended (headed : Headed head) (body : List UInt8) (size : Nat)
    (enough : head.length ≤ size) : Ended ((head ++ body).take size) := by
  rw [List.take_append, List.take_of_length_le enough]
  exact headed.ends.isInfix.trans (List.prefix_append _ _).isInfix

section Exchange

variable (ct : CtEq) (registry : MetricsRegistry) (bearerToken : Option (List Char))

/-- However the bytes arrive, the answer is to the head and some first bytes of the body. -/
theorem Headed.exchange (headed : Headed head) (body : List UInt8) (arrived : Arrival) :
    ∃ n ≤ 4 * 1024 - head.length, metricsExchange ct registry bearerToken arrived (head ++ body) =
      (respond ct registry bearerToken (head ++ body.take n) true).map some := by
  obtain ⟨buffer, size, complete, returned, room, inside, same, complete_, full⟩ :=
    read_exact arrived requestBuffer (head ++ body)
  have room_ : requestBuffer.length = 4 * 1024 := List.length_replicate
  have fits := headed.fits
  have complete' : complete = true := by
    by_contra no
    have all := full (Bool.eq_false_iff.mpr no)
    refine no (complete_.mpr (headed.ended body size ?_))
    rw [all, room_, List.length_append]
    omega
  have enough := length_le_of_ended headed.only (complete_.mp complete')
  have received := sliceTo_eq buffer size (by omega)
  refine ⟨size - head.length, by omega, ?_⟩
  rw [metricsExchange, returned, serve_returned ct registry bearerToken received, same, complete',
    List.take_append, List.take_of_length_le enough]

/-- Any number of bytes of the body that fit may have come with the head. -/
theorem Headed.exchange_at (headed : Headed head) (body : List UInt8) (n : Nat)
    (le : n ≤ 4 * 1024 - head.length) :
    ∃ arrived, metricsExchange ct registry bearerToken arrived (head ++ body) =
      (respond ct registry bearerToken (head ++ body.take n) true).map some := by
  have fits := headed.fits
  have some_ := headed.nonempty
  have room_ : requestBuffer.length = 4 * 1024 := List.length_replicate
  have ended := headed.ended body (head.length + min n body.length) (by omega)
  obtain ⟨buffer, same, length, returned⟩ :=
    read_at requestBuffer (head ++ body) (by omega) (by omega)
      (by rw [List.length_append]; omega) ended
  have received := sliceTo_eq buffer (head.length + min n body.length) (by omega)
  have bytes : (head ++ body).take (head.length + min n body.length) = head ++ body.take n := by
    rw [List.take_length_add_append, ← List.take_eq_take_min]
  refine ⟨fun _ => head.length + min n body.length, ?_⟩
  rw [metricsExchange, returned, serve_returned ct registry bearerToken received, same, bytes]

theorem Headed.authorized (headed : Headed head) (body : List UInt8) :
    Authorized bearerToken (head ++ body) ↔
      ∀ token ∈ bearerToken, Authorizes (utf8 token) head ∨ BodyAuthorizes (utf8 token) body := by
  obtain ⟨front, rfl⟩ := headed.line
  rw [Authorized, List.append_assoc, List.singleton_append]
  exact forall₂_congr fun token _ => authorizes_append (utf8 token) front body

theorem Headed.requestLine (headed : Headed head) (body : List UInt8) :
    ((head ++ body).splitOn LF).head? = (head.splitOn LF).head? := by
  obtain ⟨front, rfl⟩ := headed.line
  obtain ⟨first, others, pieces⟩ := List.exists_cons_of_ne_nil (List.splitOn_ne_nil LF front)
  rw [List.append_assoc, List.singleton_append, List.splitOn_append_cons_self,
    List.splitOn_append_cons_self, pieces]
  rfl

/-- The answer to a head and some bytes after it: to the head, but for what they authorize. -/
theorem Headed.respond_eq (headed : Headed head) (rest : List UInt8) :
    (Authorized bearerToken (head ++ rest) ∧
      respond ct registry bearerToken (head ++ rest) true = some (permitted registry head)) ∨
    (¬ Authorized bearerToken (head ++ rest) ∧
      respond ct registry bearerToken (head ++ rest) true = some .unauthorized) := by
  have line : permitted registry (head ++ rest) = permitted registry head := by
    rw [permitted, headed.requestLine, permitted]
  rw [← line]
  exact Server.respond_eq ct registry bearerToken (head ++ rest) true

end Exchange

/-- The status of the answer is the same however the bytes arrive, and is 401 exactly where
the head does not authorize, if and only if no first bytes of the body that may be received
with a head that does not authorize have an authorization line. -/
theorem fragmentation_iff (ct : CtEq) (registry : MetricsRegistry)
    (bearerToken : Option (List Char)) (head body : List UInt8) (headed : Headed head) :
    ((∀ arrived arrived' : Arrival,
        (metricsExchange ct registry bearerToken arrived (head ++ body)).map
            (Option.map Response.status) =
          (metricsExchange ct registry bearerToken arrived' (head ++ body)).map
            (Option.map Response.status)) ∧
      ∀ arrived : Arrival, ∃ response,
        metricsExchange ct registry bearerToken arrived (head ++ body) = some (some response) ∧
        (response.status = Response.unauthorized.status ↔ ¬ Authorized bearerToken head)) ↔
    ∀ token ∈ bearerToken, Authorizes (utf8 token) head ∨
      ∀ n ≤ 4 * 1024 - head.length, ¬ BodyAuthorizes (utf8 token) (body.take n) := by
  constructor
  · rintro ⟨-, decided⟩ token given
    by_contra neither
    rw [not_or, not_forall] at neither
    obtain ⟨without, n, searched⟩ := neither
    rw [not_forall, not_not] at searched
    obtain ⟨le, found⟩ := searched
    -- the first `n` bytes of the body arrive with the head
    obtain ⟨arrived, answer⟩ := headed.exchange_at ct registry bearerToken body n le
    obtain ⟨response, sent, refused⟩ := decided arrived
    have authorized : Authorized bearerToken (head ++ body.take n) := by
      rw [headed.authorized]
      intro other given'
      rw [Option.mem_unique given' given]
      exact Or.inr found
    rcases headed.respond_eq ct registry bearerToken (body.take n) with ⟨-, accepted⟩ | ⟨no, -⟩
    · rw [answer, accepted, Option.map_some, Option.some_inj, Option.some_inj] at sent
      rw [← sent] at refused
      exact permitted_status registry head (refused.mpr fun all => without (all token given))
    · exact no authorized
  · intro condition
    have head_only : ∀ n ≤ 4 * 1024 - head.length,
        (Authorized bearerToken (head ++ body.take n) ↔ Authorized bearerToken head) := by
      intro n le
      rw [headed.authorized]
      refine forall₂_congr fun token given => or_iff_left_of_imp fun found => ?_
      exact (condition token given).resolve_right fun none_ => none_ n le found
    have fixed : ∃ response, (∀ arrived : Arrival,
        metricsExchange ct registry bearerToken arrived (head ++ body) = some (some response)) ∧
        (response.status = Response.unauthorized.status ↔ ¬ Authorized bearerToken head) := by
      by_cases authorized : Authorized bearerToken head
      · refine ⟨permitted registry head, fun arrived => ?_,
          iff_of_false (permitted_status registry head) (not_not_intro authorized)⟩
        obtain ⟨n, le, answer⟩ := headed.exchange ct registry bearerToken body arrived
        rcases headed.respond_eq ct registry bearerToken (body.take n) with ⟨-, sent⟩ | ⟨no, -⟩
        · rw [answer, sent, Option.map_some]
        · exact absurd ((head_only n le).mpr authorized) no
      · refine ⟨.unauthorized, fun arrived => ?_, iff_of_true rfl authorized⟩
        obtain ⟨n, le, answer⟩ := headed.exchange ct registry bearerToken body arrived
        rcases headed.respond_eq ct registry bearerToken (body.take n) with ⟨yes, -⟩ | ⟨-, sent⟩
        · exact absurd ((head_only n le).mp yes) authorized
        · rw [answer, sent, Option.map_some]
    obtain ⟨response, sent, status⟩ := fixed
    exact ⟨fun arrived arrived' => by rw [sent arrived, sent arrived'],
      fun arrived => ⟨response, sent arrived, status⟩⟩

/-- A request whose body is the token's line: refused when the body comes later than the
head, answered when it comes with it. -/
def smuggled : List UInt8 × List UInt8 :=
  (utf8 "GET /metrics HTTP/1.1\r\n\r\n".toList, utf8 "Authorization: Bearer s\r\n".toList)

theorem smuggled_headed : Headed smuggled.1 := by
  refine ⟨by decide, ?_, by decide⟩
  rw [← any_windows]
  decide

theorem fragmentation_iff_smuggled :
    ((∀ arrived arrived' : Arrival,
        (metricsExchange .decided ⟨[]⟩ (some ['s']) arrived (smuggled.1 ++ smuggled.2)).map
            (Option.map Response.status) =
          (metricsExchange .decided ⟨[]⟩ (some ['s']) arrived' (smuggled.1 ++ smuggled.2)).map
            (Option.map Response.status)) ∧
      ∀ arrived : Arrival, ∃ response,
        metricsExchange .decided ⟨[]⟩ (some ['s']) arrived (smuggled.1 ++ smuggled.2) =
          some (some response) ∧
        (response.status = Response.unauthorized.status ↔ ¬ Authorized (some ['s']) smuggled.1)) ↔
    ∀ token ∈ (some ['s'] : Option (List Char)), Authorizes (utf8 token) smuggled.1 ∨
      ∀ n ≤ 4 * 1024 - smuggled.1.length, ¬ BodyAuthorizes (utf8 token) (smuggled.2.take n) :=
  fragmentation_iff .decided ⟨[]⟩ (some ['s']) smuggled.1 smuggled.2 smuggled_headed

theorem body_authorizes_by_arrival :
    ¬ ∀ arrived arrived' : Arrival,
      (metricsExchange .decided ⟨[]⟩ (some ['s']) arrived (smuggled.1 ++ smuggled.2)).map
          (Option.map Response.status) =
        (metricsExchange .decided ⟨[]⟩ (some ['s']) arrived' (smuggled.1 ++ smuggled.2)).map
          (Option.map Response.status) := by
  intro same
  obtain ⟨arrived, late⟩ := smuggled_headed.exchange_at .decided ⟨[]⟩ (some ['s']) smuggled.2 0
    (Nat.zero_le _)
  obtain ⟨arrived', early⟩ := smuggled_headed.exchange_at .decided ⟨[]⟩ (some ['s']) smuggled.2 25
    (by decide)
  have refused : (respond .decided ⟨[]⟩ (some ['s']) (smuggled.1 ++ smuggled.2.take 0) true).map
      Response.status = some "401 Unauthorized".toList := by decide
  have accepted : (respond .decided ⟨[]⟩ (some ['s']) (smuggled.1 ++ smuggled.2.take 25) true).map
      Response.status = some "200 OK".toList := by decide
  have statuses : ∀ response : Option Response, (response.map some).map
      (Option.map Response.status) = (response.map Response.status).map some := by
    intro response
    rw [Option.map_map, Option.map_map]
    rfl
  have both := same arrived arrived'
  rw [late, early, statuses, statuses, refused, accepted] at both
  exact absurd both (by decide)

end Portrelay.Server
