/-
# Server.MetricsToken -- which accepted tokens a client can present

`Settings::validate` refuses the empty token only.  The request that presents a token is
read line by line into a buffer of 4096 bytes, and the token is compared after trimming.

* `token_usable_iff` -- the request is answered with the metrics, however it arrives, if and
  only if the token has no line feed, no blank at an end, and fits the buffer.
-/
import Portrelay.Config.Listeners
import Portrelay.Server.MetricsConnection

namespace Portrelay.Server

open Portrelay.Theory Portrelay.Metrics
open Portrelay.Config (Text)

set_option autoImplicit false

/-- `GET /metrics HTTP/1.1` with carriage return -/
def requestLine : List UInt8 := utf8 "GET /metrics HTTP/1.1\r".toList

/-- `Authorization: Bearer `, the token and a carriage return -/
def tokenLine (token : List UInt8) : List UInt8 :=
  utf8 "Authorization: Bearer ".toList ++ token ++ [CR]

/-- The request that presents a token. -/
def tokenRequest (token : List UInt8) : List UInt8 :=
  requestLine ++ LF :: (tokenLine token ++ LF :: [CR, LF])

/-- What a token must be to be presented. -/
structure Usable (token : List UInt8) : Prop where
  line : LF ∉ token
  bare : Bare isAsciiWhitespace token
  fits : token.length ≤ 4047

/-! ## The lines of the request -/

theorem length_tokenRequest (token : List UInt8) : (tokenRequest token).length = 49 + token.length := by
  have first : requestLine.length = 22 := by decide
  have scheme : (utf8 "Authorization: Bearer ".toList).length = 22 := by decide
  simp only [tokenRequest, tokenLine, List.length_append, List.length_cons, List.length_nil, first,
    scheme]
  omega

theorem line_not_mem {token : List UInt8} (line : LF ∉ token) :
    LF ∉ requestLine ∧ LF ∉ tokenLine token := by
  have first : LF ∉ requestLine := by decide
  have scheme : LF ∉ utf8 "Authorization: Bearer ".toList := by decide
  have cr : LF ≠ CR := by decide
  refine ⟨first, ?_⟩
  simp only [tokenLine, List.mem_append, List.mem_singleton, scheme, line, cr, or_self,
    not_false_iff]

theorem splitOn_tokenRequest {token : List UInt8} (line : LF ∉ token) :
    (tokenRequest token).splitOn LF = [requestLine, tokenLine token, [CR], []] := by
  obtain ⟨first, second⟩ := line_not_mem line
  rw [tokenRequest, List.splitOn_append_cons_self_of_not_mem first,
    List.splitOn_append_cons_self_of_not_mem second]
  rfl

/-- An empty line is a line of its own before the last. -/
theorem Ended.line {received : List UInt8} (ended : Ended received) :
    [CR] ∈ (received.splitOn LF).dropLast := by
  obtain ⟨front, back, rfl⟩ := ended
  have shape : front ++ crlfcrlf ++ back = (front ++ [CR]) ++ LF :: ([CR] ++ LF :: back) := by
    simp only [crlfcrlf, CR, LF, List.append_assoc, List.cons_append, List.nil_append]
  have cr : LF ∉ [CR] := by decide
  rw [shape, List.splitOn_append_cons_self, List.splitOn_append_cons_self_of_not_mem cr,
    List.dropLast_append_of_ne_nil (List.cons_ne_nil _ _),
    List.dropLast_cons_of_ne_nil (List.splitOn_ne_nil LF back)]
  exact List.mem_append_right _ List.mem_cons_self

/-- Its only empty line is the last. -/
theorem tokenRequest_only {token : List UInt8} (line : LF ∉ token) :
    ¬ Ended (tokenRequest token).dropLast := by
  intro ended
  obtain ⟨first, second⟩ := line_not_mem line
  have last : tokenRequest token =
      (requestLine ++ LF :: (tokenLine token ++ LF :: [CR])) ++ [LF] := by
    simp only [tokenRequest, List.append_assoc, List.cons_append, List.nil_append]
  have lines := ended.line
  rw [last, List.dropLast_concat, List.splitOn_append_cons_self_of_not_mem first,
    List.splitOn_append_cons_self_of_not_mem second] at lines
  rcases List.mem_cons.mp lines with same | later
  · exact absurd same (by decide)
  · have long := congrArg List.length (List.mem_singleton.mp later)
    have scheme : (utf8 "Authorization: Bearer ".toList).length = 22 := by decide
    simp only [tokenLine, List.length_append, List.length_singleton, scheme] at long
    omega

theorem tokenRequest_headed {token : List UInt8} (usable : Usable token) :
    Headed (tokenRequest token) := by
  refine ⟨?_, tokenRequest_only usable.line, ?_⟩
  · refine ⟨requestLine ++ LF :: (utf8 "Authorization: Bearer ".toList ++ token), ?_⟩
    simp only [tokenRequest, tokenLine, crlfcrlf, CR, LF, List.append_assoc, List.cons_append,
      List.nil_append]
  · have fits := usable.fits
    rw [length_tokenRequest]
    omega

/-! ## Its token -/

/-- The line of a usable token gives it. -/
theorem tokenLine_authorizes {token : List UInt8} (some_ : token ≠ [])
    (bare : Bare isAsciiWhitespace token) :
    AuthorizationLine token (stripCr (tokenLine token)) := by
  have stripped : stripCr (tokenLine token) = utf8 "Authorization: Bearer ".toList ++ token := by
    rw [stripCr, tokenLine, List.getLast?_concat, if_pos rfl, List.dropLast_concat]
  have name : utf8 "Authorization: Bearer ".toList =
      utf8 "Authorization".toList ++ COLON :: ([32] ++ (utf8 "Bearer".toList ++ [32])) := by
    decide +kernel
  have scheme : utf8 "Authorization: Bearer ".toList ++ token =
      utf8 "Authorization".toList ++ COLON :: ([32] ++ (utf8 "Bearer".toList ++ 32 :: token)) := by
    simp only [name, List.append_assoc, List.cons_append, List.nil_append]
  have blank : ∀ byte ∈ [(32 : UInt8)], isAsciiWhitespace byte = true :=
    List.forall_mem_singleton.mpr (by decide)
  rw [stripped, scheme]
  refine ⟨utf8 "Authorization".toList, _, utf8 "Bearer".toList, 32, token, rfl, by decide, ?_,
    by decide, by decide, ?_⟩
  · refine ⟨[32], [], by rw [List.append_nil], blank, fun _ member => absurd member List.not_mem_nil,
      ?_, ?_⟩
    · intro first start
      obtain rfl := Option.some.inj start
      decide
    · intro last ending
      have same : (utf8 "Bearer".toList ++ 32 :: token).getLast? = token.getLast? := by
        rw [List.getLast?_append_of_ne_nil _ (List.cons_ne_nil _ _), List.getLast?_cons_of_ne_nil some_]
      rw [same] at ending
      exact bare.2 last ending
  · exact ⟨[32], [], by rw [List.append_nil]; rfl, blank,
      fun _ member => absurd member List.not_mem_nil, bare⟩

/-- What a line gives as its token has no blank at an end, and no line feed. -/
theorem Authorizes.bare {token request : List UInt8} (authorizes : Authorizes token request) :
    Bare isAsciiWhitespace token ∧ LF ∉ token := by
  obtain ⟨line, member, name, value, scheme, gap, rest, shape, -, trims, -, -, trims'⟩ := authorizes
  obtain ⟨front, back, whole, -, -, -⟩ := trims
  obtain ⟨front', back', whole', -, -, bare⟩ := trims'
  refine ⟨bare, fun inside => not_mem_of_mem_splitOn (List.mem_of_mem_drop member) ?_⟩
  have stripped : LF ∈ stripCr line := by
    rw [shape, whole, whole']
    simp only [List.mem_append, List.mem_cons, inside, true_or, or_true]
  rw [stripCr] at stripped
  split at stripped
  · exact List.mem_of_mem_dropLast stripped
  · exact stripped

/-! ## The answer -/

section Answer

variable {ct : CtEq} {registry : MetricsRegistry} {token : Text}

/-- Only a complete and authorized request is answered with the metrics. -/
theorem respond_metrics {request : List UInt8} {complete : Bool}
    (answer : respond ct registry (some token) request complete = some (.metrics registry)) :
    complete = true ∧ Authorizes (utf8 token) request := by
  rcases respond_eq ct registry (some token) request complete with
    ⟨authorized, sent⟩ | ⟨-, sent⟩
  · refine ⟨?_, authorized token rfl⟩
    cases complete with
    | true => rfl
    | false =>
        rw [sent, Option.some_inj] at answer
        have status := congrArg Response.status answer
        exact absurd status (by show "400 Bad Request".toList ≠ "200 OK".toList; decide)
  · rw [sent, Option.some_inj] at answer
    have status := congrArg Response.status answer
    exact absurd status (by show "401 Unauthorized".toList ≠ "200 OK".toList; decide)

/-- A token whose request is answered once is usable. -/
theorem usable_of_metrics (arrived : Arrival)
    (answer : metricsExchange ct registry (some token) arrived (tokenRequest (utf8 token)) =
      some (some (.metrics registry))) :
    Usable (utf8 token) := by
  obtain ⟨buffer, size, complete, returned, room, inside, same, complete_, -⟩ :=
    read_exact arrived requestBuffer (tokenRequest (utf8 token))
  have room_ : requestBuffer.length = 4 * 1024 := List.length_replicate
  have received := sliceTo_eq buffer size (by omega)
  rw [metricsExchange, returned, serve_returned ct registry (some token) received] at answer
  obtain ⟨response, sent, same'⟩ := Option.map_eq_some_iff.mp answer
  obtain rfl := Option.some.inj same'
  obtain ⟨all, authorizes⟩ := respond_metrics sent
  obtain ⟨bare, line⟩ := authorizes.bare
  have ended := complete_.mp all
  rw [← List.append_nil (tokenRequest (utf8 token))] at ended
  have enough := length_le_of_ended (tokenRequest_only line) ended
  have length := length_tokenRequest (utf8 token)
  exact ⟨line, bare, by omega⟩

theorem metrics_of_usable (some_ : utf8 token ≠ []) (usable : Usable (utf8 token))
    (arrived : Arrival) :
    metricsExchange ct registry (some token) arrived (tokenRequest (utf8 token)) =
      some (some (.metrics registry)) := by
  have headed := tokenRequest_headed usable
  have lines := splitOn_tokenRequest usable.line
  obtain ⟨n, -, answer⟩ := headed.exchange ct registry (some token) [] arrived
  rw [List.append_nil, List.take_nil, List.append_nil] at answer
  have authorizes : Authorizes (utf8 token) (tokenRequest (utf8 token)) := by
    refine ⟨tokenLine (utf8 token), ?_, tokenLine_authorizes some_ usable.bare⟩
    rw [lines]
    exact List.mem_cons_self
  have asked : permitted registry (tokenRequest (utf8 token)) = .metrics registry := by
    have get : (utf8 "GET /metrics ".toList).isPrefixOf requestLine = true := by decide
    rw [permitted, lines, List.head?_cons, Option.getD_some, if_pos get]
  rcases respond_eq ct registry (some token) (tokenRequest (utf8 token)) true with
    ⟨-, sent⟩ | ⟨refused, -⟩
  · rw [answer, sent, ← asked]
    rfl
  · refine absurd (fun other given => ?_) refused
    rw [← Option.some.inj given]
    exact authorizes

end Answer

theorem utf8_ne_nil {text : Text} (some_ : text ≠ []) : utf8 text ≠ [] := by
  intro none_
  obtain ⟨c, rest, rfl⟩ := List.exists_cons_of_ne_nil some_
  have length := congrArg List.length none_
  rw [utf8, List.flatMap_cons, List.length_append, String.length_utf8EncodeChar] at length
  have pos := Char.utf8Size_pos c
  rw [List.length_nil] at length
  omega

/-- The request that presents an accepted token is answered with the metrics, however it
arrives, if and only if the token is usable. -/
theorem token_usable_iff (ct : CtEq) (registry : MetricsRegistry) (settings : Config.Settings)
    (accepted : settings.validate = .ok ()) (token : Text)
    (given : settings.metricsBearerToken = some token) :
    (∀ arrived : Arrival, metricsExchange ct registry settings.metricsBearerToken arrived
      (tokenRequest (utf8 token)) = some (some (.metrics registry))) ↔ Usable (utf8 token) := by
  rw [given]
  constructor
  · intro answered
    exact usable_of_metrics (fun _ => 1) (answered fun _ => 1)
  · intro usable arrived
    refine metrics_of_usable (utf8_ne_nil ?_) usable arrived
    rintro rfl
    exact (settings.validate_ok_iff.mp accepted).token given

/-- Settings with a metrics endpoint and a token. -/
def tokenSettings (token : Text) : Config.Settings :=
  { Config.serveSettings 8080 (some (Config.loopback 9090)) with metricsBearerToken := some token }

theorem token_usable_iff_plain :
    (∀ arrived : Arrival,
      metricsExchange .decided ⟨[]⟩ (tokenSettings ['s']).metricsBearerToken arrived
        (tokenRequest (utf8 ['s'])) = some (some (.metrics ⟨[]⟩))) ↔ Usable (utf8 ['s']) :=
  token_usable_iff .decided ⟨[]⟩ (tokenSettings ['s']) (by decide) ['s'] rfl

/-- A token that was read with the end of its line is accepted and locks its clients out. -/
theorem token_with_newline_unusable :
    (tokenSettings ['s', '\n']).validate = .ok () ∧
    ∀ arrived : Arrival,
      metricsExchange .decided ⟨[]⟩ (tokenSettings ['s', '\n']).metricsBearerToken arrived
        (tokenRequest (utf8 ['s', '\n'])) ≠ some (some (.metrics ⟨[]⟩)) := by
  refine ⟨by decide, fun arrived answered => ?_⟩
  have usable := usable_of_metrics arrived answered
  exact absurd usable.line (by decide)

end Portrelay.Server
