/-
# Server.ConnectingPermits -- how long a connecting permit is out

The two connecting permits of a connection come back when its connect has ended, however it
ended: before the transfer (`Task.Own`), or with the rest when `handle_connection` returns.
The connect timeout bounds the first wait, and the task never waits in the second.

* `held_in_time` -- no task holds a connecting permit when its connect timeout has passed.
* `connecting_in_time` -- so the permits that are out are those of the connections begun
  within their connect timeout, and of the listeners that are admitting one.
-/
import Portrelay.Server.Deadlines

namespace Portrelay.Server

open Portrelay.Theory Portrelay.Relay Portrelay.Metrics

set_option autoImplicit false

/-! ## Whose permits are held -/

/-- A permit of one of the two connecting semaphores. -/
def Limit.connecting : Limit → Bool
  | .globalConnecting => true
  | .perRelayConnecting _ => true
  | _ => false

/-- A listener holds no permits but those of its own admission. -/
def Listener.Own (relay : Nat) (listener : Listener) : Prop :=
  ∀ l ∈ listener.held, l ∈ admission relay

/-- A task holds permits of its own admission; a connecting permit it is about to give back,
and none while it transfers. -/
def Task.Own (t : Task) : Prop :=
  (∀ l ∈ t.held, l ∈ admission t.relay) ∧
    match t.phase with
    | .releasing rest => ∀ l ∈ t.held, l.connecting = true → l ∈ rest
    | .transferring _ => ∀ l ∈ t.held, l.connecting = false
    | _ => True

section

variable {settings : Settings} {relay : Nat} {free : Limit → Nat} {shutdown force : Bool}

theorem Listener.Stepped.own {listener after : Listener} {event : ListenerEvent} {effect : Effect}
    (ok : listener.Ok settings relay) (own : listener.Own relay)
    (moved : Stepped settings relay free shutdown force listener event after effect) :
    after.Own relay := by
  cases moved with
  | @acquired limit rest held permits limited some_ =>
      have next : limit ∈ held.reverse ++ limit :: rest :=
        List.mem_append_right _ List.mem_cons_self
      intro l member
      rcases List.mem_cons.mp member with rfl | before
      · exact ok.2.1.subset next
      · exact own l before
  | gaveBack => exact fun l member => own l (List.mem_cons_of_mem _ member)
  | unlimited _ | refused _ _ | allowed | countedRefusal | refusalCounted | counted | announced =>
      exact own
  | took | failed | woke | ended _ _ | closed _ | begun _ | rolledBack | spawned =>
      exact fun l member => absurd member List.not_mem_nil

/-- What a task holds in the phase it is in. -/
theorem Task.Own.at_ {t : Task} (own : t.Own) {phase : Phase} (here : t.phase = phase) :
    ({ t with phase } : Task).Own := by
  subst here
  exact own

theorem Task.Stepped.own {t after : Task} {event : TaskEvent} {effect : Effect}
    (ok : t.Ok settings) (own : t.Own) (moved : Stepped settings force t event after effect) :
    after.Own := by
  cases moved with
  | connected phase =>
      refine ⟨own.1, ?_⟩
      intro l member connecting
      have inside := own.1 l member
      simp only [admission, List.mem_cons, List.not_mem_nil, or_false] at inside ⊢
      rcases inside with rfl | rfl | later
      · cases connecting
      · cases connecting
      · exact later
  | forwarded phase moved => exact ⟨own.1, (own.at_ phase).2⟩
  | @gaveBackEarly limit rest phase member =>
      have early := (own.at_ phase).2
      refine ⟨fun l kept => own.1 l (List.mem_of_mem_erase kept), ?_⟩
      intro l kept connecting
      have other : l ≠ limit := by
        rintro rfl
        exact ok.1.not_mem_erase kept
      exact List.mem_of_ne_of_mem other (early l (List.mem_of_mem_erase kept) connecting)
  | @unlimited limit rest phase without =>
      have early := (own.at_ phase).2
      refine ⟨own.1, ?_⟩
      intro l member connecting
      have other : l ≠ limit := by
        rintro rfl
        exact without member
      exact List.mem_of_ne_of_mem other (early l member connecting)
  | started phase configured =>
      have early := (own.at_ phase).2
      refine ⟨own.1, ?_⟩
      intro l member
      by_contra connecting
      exact absurd (early l member (by simpa using connecting)) List.not_mem_nil
  | gaveBack phase last =>
      refine ⟨fun l member => own.1 l (last ▸ List.mem_cons_of_mem _ member), ?_⟩
      simp only [phase]
  | connectEnded _ _ | cutOff _ _ _ | finished _ _ | failed _ _ _ | counted _ | returned _ =>
      exact ⟨own.1, trivial⟩

end

namespace ServerState

variable {settings : Settings}

structure Owned (s : ServerState) : Prop where
  relays : ∀ relay (b : BoundRelay), s.relays[relay]? = some b → b.listener.Own relay
  tasks : ∀ t ∈ s.tasks, t.Own

theorem step_owned {s t : ServerState} {label : ServerLabel} (ok : s.Ok settings) (owned : s.Owned)
    (stepped : step settings s label = some t) : t.Owned := by
  refine ⟨?_, step_tasks stepped owned.tasks ?_ ?_⟩
  · intro r b' found'
    have seen : ∀ listener, t.listenerAt r = some listener → listener.Own r := by
      cases step_at stepped r with
      | elsewhere bound tasks =>
          intro listener here
          rw [listenerAt, bound] at here
          obtain ⟨b, found, rfl⟩ := Option.map_eq_some_iff.mp here
          exact owned.relays r b found
      | listener found moved bound tasks =>
          intro listener here
          simp only [listenerAt, bound, Option.map_some, BoundRelay.after_listener,
            Option.some.injEq] at here
          subst here
          exact moved.own (ok.relays r _ found) (owned.relays r _ found)
      | task member moved bound tasks =>
          intro listener here
          simp only [listenerAt, bound, Option.map_map, Function.comp_def,
            BoundRelay.after_listener] at here
          obtain ⟨b, found, rfl⟩ := Option.map_eq_some_iff.mp here
          exact owned.relays r b found
    exact seen b'.listener (by rw [listenerAt, found', Option.map_some])
  · intro relay held b found spawning
    have inHand := owned.relays relay b found
    rw [spawning] at inHand
    exact ⟨inHand, trivial⟩
  · intro index event u after effect _ found moved
    have member := List.mem_of_getElem? found
    exact moved.own (ok.tasks u member) (owned.tasks u member)

theorem reachable_owned {s : ServerState} (reached : (machine settings).Reachable s) : s.Owned := by
  refine (machine settings).invariant (P := Owned) ?_ ?_ reached
  · rintro s rfl
    constructor
    · intro relay b found
      obtain ⟨spec, -, rfl⟩ := List.mem_map.mp (List.mem_of_getElem? found)
      exact fun l member => absurd member List.not_mem_nil
    · exact fun t member => absurd member List.not_mem_nil
  · intro s label t reached owned stepped
    exact step_owned (reachable_ok reached) owned stepped

/-- A task after a step is one of before, that holds no more, or the step has spawned it. -/
theorem step_task_at {s t : ServerState} {label : ServerLabel}
    (stepped : step settings s label = some t) {index : Nat} {u : Task}
    (found : t.tasks[index]? = some u) :
    (∃ u', s.tasks[index]? = some u' ∧ u.relay = u'.relay ∧ ∀ l ∈ u.held, l ∈ u'.held) ∨
      (index = s.tasks.length ∧ ∃ relay, label = .listener relay .next) := by
  cases step_stepped stepped with
  | cancelled => exact Or.inl ⟨u, found, rfl, fun _ => id⟩
  | forced told => exact Or.inl ⟨u, found, rfl, fun _ => id⟩
  | @listener relay event b after effect bound moved =>
      rcases perform_tasks _ relay effect with same | ⟨held, rfl, more⟩
      · rw [same] at found
        exact Or.inl ⟨u, found, rfl, fun _ => id⟩
      · rw [more] at found
        obtain ⟨-, rfl, -⟩ := moved.of_spawn
        rcases Nat.lt_or_ge index s.tasks.length with inside | outside
        · rw [List.getElem?_append_left inside] at found
          exact Or.inl ⟨u, found, rfl, fun _ => id⟩
        · have bound' := (List.getElem?_eq_some_iff.mp found).1
          simp only [List.length_append, List.length_singleton] at bound'
          exact Or.inr ⟨Nat.le_antisymm (Nat.le_of_lt_succ bound') outside, relay, rfl⟩
  | @task i event u' after effect here moved =>
      left
      rcases perform_tasks { s with tasks := s.tasks.set i after } u'.relay effect with
        same | ⟨held, spawns, -⟩
      · rw [same] at found
        by_cases own : i = index
        · subst own
          rw [List.getElem?_set_self (List.getElem?_eq_some_iff.mp here).1] at found
          obtain rfl := Option.some.inj found
          refine ⟨u', here, moved.relay, ?_⟩
          intro l member
          have held := (moved.held l).1
          have some_ := List.count_pos_iff.mpr member
          exact List.count_pos_iff.mp (by omega)
        · rw [List.getElem?_set_ne own] at found
          exact ⟨u, found, rfl, fun _ => id⟩
      · exact absurd spawns (moved.no_spawn held)

end ServerState

/-! ## Against the clock -/

namespace Stamped

variable {settings : Settings} {tls : Bool} {T : Timeouts}

/-- A connecting permit is held within the connect timeout of its task. -/
def Connects (T : Timeouts) (now : Nat) (s : Stamped) : Prop :=
  ∀ index t, s.run.server.tasks[index]? = some t → ∀ l ∈ t.held, l.connecting = true →
    now ≤ s.connectDeadline T index t

theorem stamp_spawned (now : Nat) (s : Stamped) (run : RunState) (label : RunLabel) {index : Nat}
    (older : index ≠ s.run.server.tasks.length) :
    (s.stamp now run label).spawned index = s.spawned index := by
  unfold stamp
  split
  · rfl
  · rfl
  · exact if_neg older
  all_goals rfl

theorem step_connects {now : Nat} {s t : Stamped} {label : RunLabel} (connects : s.Connects T now)
    (stepped : step settings tls T now s label = some t) : t.Connects T now := by
  obtain ⟨-, run, moved, rfl⟩ := step_some stepped
  intro index u found l member connecting
  rw [stamp_run] at found
  have moves := RunState.step_onServer moved
  -- what the connection tasks do not see
  have still : s.run.server.tasks[index]? = some u →
      now ≤ (s.stamp now run label).connectDeadline T index u := by
    intro before
    have inside := (List.getElem?_eq_some_iff.mp before).1
    rw [connectDeadline, stamp_spawned now s run label (Nat.ne_of_lt inside)]
    exact connects index u before l member connecting
  cases seen : RunState.onServer label with
  | none =>
      rw [seen] at moves
      have same : run.server = s.run.server := moves
      exact still (same ▸ found)
  | some server =>
      rw [seen] at moves
      rcases ServerState.step_task_at moves found with ⟨u', before, relay, held⟩ | ⟨new, r, spawning⟩
      · have inside := (List.getElem?_eq_some_iff.mp before).1
        rw [connectDeadline, stamp_spawned now s run label (Nat.ne_of_lt inside), relay]
        exact connects index u' before l (held l member) connecting
      · have listening : label = .listener r .next := by
          subst spawning
          cases label with
          | listener relay event =>
              cases seen
              rfl
          | run event => cases event <;> cases seen
          | cancel | task _ _ | refreshLoop _ _ | metricsListener _ | metricsConnection _ _ =>
              cases seen
        subst listening
        have begun : (s.stamp now run (.listener r .next)).spawned index = now := if_pos new
        rw [connectDeadline, begun]
        exact Nat.le_add_right _ _

theorem tick_connects {now : Nat} {s : Stamped} (owned : s.run.server.Owned)
    (connects : s.Connects T now) (idle : s.Idle tls T now) : s.Connects T (now + 1) := by
  intro index t found l member connecting
  have before := connects index t found l member connecting
  have own := owned.tasks t (List.mem_of_getElem? found)
  have resting := idle.tasks index t found
  unfold Task.due at resting
  cases phase : t.phase with
  | connecting =>
      rw [phase] at resting
      have early := of_decide_eq_false (Bool.or_eq_false_iff.mp resting).2
      omega
  | transferring forward =>
      have none_ := (own.at_ phase).2 l member
      rw [connecting] at none_
      cases none_
  | releasing rest =>
      rw [phase] at resting
      cases resting
  | closing updates =>
      rw [phase] at resting
      cases resting
  | returning =>
      rw [phase] at resting
      have empty : t.held.isEmpty = true := by simpa using resting
      rw [List.isEmpty_iff.mp empty] at member
      cases member

/-- No task holds a connecting permit when its connect timeout has passed. -/
theorem held_in_time {s : Timed Stamped} (reached : (running settings tls T).Reachable s) :
    s.state.Connects T s.now := by
  have both : (ServerState.machine settings).Reachable s.state.run.server ∧
      s.state.Connects T s.now := by
    refine Machine.invariant (P := fun s : Timed Stamped =>
      (ServerState.machine settings).Reachable s.state.run.server ∧ s.state.Connects T s.now)
      (running settings tls T) ?_ ?_ reached
    · intro s initial
      refine ⟨.start initial.server, ?_⟩
      intro index t found
      rw [initial.server] at found
      cases found
    · rintro s label t before ⟨server, connects⟩ stepped
      refine ⟨reachable_server (.step before stepped), ?_⟩
      cases Clocked.timedStep_stepped stepped with
      | act moved => exact step_connects connects moved
      | tick idle =>
          exact tick_connects (ServerState.reachable_owned server) connects
            ((idle_iff s.now s.state).mp idle)
  exact both.2

/-- The connections that take a permit of `l` and began within their connect timeout. -/
def young (T : Timeouts) (now : Nat) (l : Limit) (s : Stamped) : Nat :=
  s.run.server.tasks.zipIdx.countP fun entry =>
    decide (l ∈ admission entry.1.relay) && decide (now ≤ s.connectDeadline T entry.2 entry.1)

theorem inTasks_le_young {s : Timed Stamped} (reached : (running settings tls T).Reachable s)
    {l : Limit} (connecting : l.connecting = true) :
    s.state.run.server.inTasks l ≤ s.state.young T s.now l := by
  have ok := ServerState.reachable_ok (reachable_server reached)
  have owned := ServerState.reachable_owned (reachable_server reached)
  have connects := held_in_time reached
  have toNat : ∀ b : Bool, b.toNat = if b = true then 1 else 0 := by decide
  have indexed : s.state.run.server.inTasks l =
      tally (fun entry => entry.1.held.count l) s.state.run.server.tasks.zipIdx := by
    unfold ServerState.inTasks tally
    rw [← List.zipIdx_map_fst 0 s.state.run.server.tasks, List.map_map, List.zipIdx_map_fst]
    rfl
  have counted : s.state.young T s.now l =
      tally (fun entry => (decide (l ∈ admission entry.1.relay) &&
        decide (s.now ≤ s.state.connectDeadline T entry.2 entry.1)).toNat)
        s.state.run.server.tasks.zipIdx :=
    countP_eq_tally fun entry _ => toNat _
  rw [indexed, counted]
  refine tally_mono ?_
  rintro ⟨t, index⟩ member
  have found := List.mk_mem_zipIdx_iff_getElem?.mp member
  have here := List.mem_of_getElem? found
  by_cases held : l ∈ t.held
  · have one := List.nodup_iff_count_le_one.mp (ok.tasks t here).1 l
    have mine := (owned.tasks t here).1 l held
    have inTime := connects index t found l held connecting
    simp only [mine, inTime, decide_true, Bool.and_self, Bool.toNat_true]
    exact one
  · rw [List.count_eq_zero.mpr held]
    exact Nat.zero_le _

/-- Of the permits of a connecting semaphore, all are free but those of the connections begun
within their connect timeout, and of the listeners that are admitting one. -/
theorem connecting_in_time {s : Timed Stamped} (reached : (running settings tls T).Reachable s)
    {l : Limit} (connecting : l.connecting = true) {permits : Nat}
    (limited : settings.limit l = some permits) :
    permits ≤ s.state.run.server.free l + s.state.run.server.inHands l + s.state.young T s.now l := by
  have conserved := ServerState.permits_conserved (reachable_server reached) l
  have held := inTasks_le_young reached connecting
  rw [limited, Option.getD_some] at conserved
  omega

/-- A relay that may connect to one target at a time. -/
def oneConnecting : Settings := ⟨none, some 1, [⟨none, some 1, .auto, none⟩]⟩

/-- Its first client's target does not answer in three instants. -/
def silentTarget : List (TimedLabel RunLabel) :=
  .act (.listener 0 .accept) :: List.replicate 10 (.act (.listener 0 .next)) ++
    [.tick, .tick, .tick, .act (.task 0 (.connectTimedOut 3000))] ++
    List.replicate 11 (.act (.task 0 .next)) ++ [.tick]

theorem connecting_in_time_silent :
    ∃ s, (running oneConnecting false ⟨fun _ => 3, 10⟩).exec
        ⟨0, ⟨⟨.start oneConnecting, [], none, [], false, .serving⟩, fun _ => 0, fun _ => 0,
          fun _ => 0, 0, 0⟩⟩ silentTarget = some s ∧
      s.state.run.server.tasks.length = 1 ∧ s.now = 4 ∧
      1 ≤ s.state.run.server.free .globalConnecting := by
  have ran : ∃ s, (running oneConnecting false ⟨fun _ => 3, 10⟩).exec
      ⟨0, ⟨⟨.start oneConnecting, [], none, [], false, .serving⟩, fun _ => 0, fun _ => 0,
        fun _ => 0, 0, 0⟩⟩ silentTarget = some s ∧
      s.state.run.server.tasks.length = 1 ∧ s.now = 4 ∧
      s.state.run.server.inHands .globalConnecting = 0 ∧
      s.state.young ⟨fun _ => 3, 10⟩ 4 .globalConnecting = 0 :=
    ⟨_, rfl, rfl, rfl, rfl, rfl⟩
  obtain ⟨s, ran, one, now, none_, old⟩ := ran
  have reached := ((running oneConnecting false ⟨fun _ => 3, 10⟩).reachable_iff_exec s).mpr
    ⟨_, _, ⟨rfl, rfl, rfl, rfl⟩, ran⟩
  have bound := @connecting_in_time _ _ _ _ reached .globalConnecting rfl 1 rfl
  rw [now, none_, old] at bound
  exact ⟨s, ran, one, now, bound⟩

end Stamped

end Portrelay.Server
