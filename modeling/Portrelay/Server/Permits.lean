/-
# Server.Permits -- where the permits are

A permit of a semaphore is free, or in the hands of a listener that is admitting a
connection, or held by a connection task.  The `Stepped` relations name every way a
listener, a task or the server moves.  What a move does to the permits its party holds
and what its effect does to the semaphore cancel out (`Listener.Stepped.held`,
`Task.Stepped.held`), so each semaphore's permits add up to its limit in every
reachable state (`permits_conserved`).
-/
import Portrelay.Server.Admission

namespace Portrelay.Server

open Portrelay.Theory Portrelay.Relay Portrelay.Metrics

set_option autoImplicit false

/-! ## What a step can do -/

namespace Listener

/-- The ways a listener moves, with the effect of each. -/
inductive Stepped (settings : Settings) (relay : Nat) (free : Limit → Nat) (shutdown force : Bool) :
    Listener → ListenerEvent → Listener → Effect → Prop
  | took : Stepped settings relay free shutdown force .accepting .accept .checking .taken
  | failed : Stepped settings relay free shutdown force .accepting .acceptFailed .backoff .none
  | woke : Stepped settings relay free shutdown force .backoff .wake .accepting .none
  | ended {listener : Listener} {event : ListenerEvent}
      (waits : listener = .accepting ∨ listener = .backoff)
      (told : shutdown = true ∨ force = true) :
      Stepped settings relay free shutdown force listener event .stopped .none
  | closed (cancelled : shutdown = true) :
      Stepped settings relay free shutdown force .checking .next .stopped .dropped
  | begun (running : shutdown = false) :
      Stepped settings relay free shutdown force .checking .next
        (.acquiring (admission relay) []) .none
  | unlimited {limit : Limit} {rest held : List Limit} (open_ : settings.limit limit = none) :
      Stepped settings relay free shutdown force (.acquiring (limit :: rest) held) .next
        (.acquiring rest held) .none
  | acquired {limit : Limit} {rest held : List Limit} {permits : Nat}
      (limited : settings.limit limit = some permits) (some_ : 0 < free limit) :
      Stepped settings relay free shutdown force (.acquiring (limit :: rest) held) .next
        (.acquiring rest (limit :: held)) (.acquire limit)
  | refused {limit : Limit} {rest held : List Limit} {permits : Nat}
      (limited : settings.limit limit = some permits) (exhausted : free limit = 0) :
      Stepped settings relay free shutdown force (.acquiring (limit :: rest) held) .next
        (.refusing RelayMetrics.rejected held) .none
  | allowed {held : List Limit} :
      Stepped settings relay free shutdown force (.acquiring [] held) .next
        (.counting RelayMetrics.accepted held) .none
  | countedRefusal {u : MetricUpdate} {updates : List MetricUpdate} {held : List Limit} :
      Stepped settings relay free shutdown force (.refusing (u :: updates) held) .next
        (.refusing updates held) (.update u)
  | refusalCounted {held : List Limit} :
      Stepped settings relay free shutdown force (.refusing [] held) .next (.rollingBack held) .none
  | gaveBack {limit : Limit} {held : List Limit} :
      Stepped settings relay free shutdown force (.rollingBack (limit :: held)) .next
        (.rollingBack held) (.release limit)
  | rolledBack : Stepped settings relay free shutdown force (.rollingBack []) .next .accepting .none
  | counted {u : MetricUpdate} {updates : List MetricUpdate} {held : List Limit} :
      Stepped settings relay free shutdown force (.counting (u :: updates) held) .next
        (.counting updates held) (.update u)
  | announced {held : List Limit} :
      Stepped settings relay free shutdown force (.counting [] held) .next (.spawning held) .none
  | spawned {held : List Limit} :
      Stepped settings relay free shutdown force (.spawning held) .next .accepting (.spawn held)

variable {settings : Settings} {relay : Nat} {free : Limit → Nat} {shutdown force : Bool}

theorem step_stepped {listener after : Listener} {event : ListenerEvent} {effect : Effect}
    (stepped : listener.step settings relay free shutdown force event = some (after, effect)) :
    Stepped settings relay free shutdown force listener event after effect := by
  unfold step at stepped
  split at stepped
  · cases stepped; exact .took
  · cases stepped; exact .failed
  · split at stepped <;> cases stepped
    exact .ended (Or.inl rfl) (Or.inl ‹_›)
  · split at stepped <;> cases stepped
    exact .ended (Or.inl rfl) (Or.inr ‹_›)
  · cases stepped; exact .woke
  · split at stepped <;> cases stepped
    exact .ended (Or.inr rfl) (Or.inl ‹_›)
  · split at stepped <;> cases stepped
    exact .ended (Or.inr rfl) (Or.inr ‹_›)
  · split at stepped
    · cases stepped; exact .closed ‹_›
    · cases stepped; exact .begun (by simpa using ‹¬ shutdown = true›)
  · split at stepped
    · cases stepped; exact .unlimited ‹_›
    · rename_i permits limited
      split at stepped
      · cases stepped; exact .refused limited ‹_›
      · cases stepped; exact .acquired limited (Nat.pos_of_ne_zero ‹_›)
  · cases stepped; exact .allowed
  · cases stepped; exact .countedRefusal
  · cases stepped; exact .refusalCounted
  · cases stepped; exact .gaveBack
  · cases stepped; exact .rolledBack
  · cases stepped; exact .counted
  · cases stepped; exact .announced
  · cases stepped; exact .spawned
  · cases stepped

end Listener

namespace Task

/-- The ways a connection task moves, with the effect of each. -/
inductive Stepped (settings : Settings) (force : Bool) (t : Task) : TaskEvent → Task → Effect → Prop
  | connected (phase : t.phase = .connecting) :
      Stepped settings force t .connected
        { t with phase := .releasing [.globalConnecting, .perRelayConnecting t.relay] } .none
  | connectEnded {event : TaskEvent} {before : List MetricUpdate} {elapsed : Nat}
      (phase : t.phase = .connecting)
      (why : before = [] ∨ before = RelayMetrics.upstreamFailure ∨
        before = RelayMetrics.upstreamTimeout) :
      Stepped settings force t event (t.close before elapsed ⟨(0, 0), (0, 0)⟩).1 .none
  | cutOff {elapsed : Nat} {forward : Forward} (phase : t.phase = .transferring forward)
      (forced : force = true) (running : forward.result = none) :
      Stepped settings force t (.forced elapsed)
        (t.close [] elapsed ⟨(0, 0), forward.delivered⟩).1 .none
  | forwarded {event : ForwardEvent} {forward after : Forward}
      (phase : t.phase = .transferring forward) (moved : forward.step event = some after) :
      Stepped settings force t (.forward event) { t with phase := .transferring after } .none
  | finished {elapsed : Nat} {forward : Forward} {counts : Nat × Nat}
      (phase : t.phase = .transferring forward) (ok : forward.result = some (.ok counts)) :
      Stepped settings force t (.settled elapsed)
        (t.close [] elapsed ⟨counts, forward.delivered⟩).1 .none
  | failed {elapsed : Nat} {forward : Forward} {error : IoError} {before : List MetricUpdate}
      (phase : t.phase = .transferring forward) (failure : forward.result = some (.error error))
      (why : before = [] ∨ before = RelayMetrics.idleTimeout) :
      Stepped settings force t (.settled elapsed)
        (t.close before elapsed ⟨(0, 0), forward.delivered⟩).1 .none
  | gaveBackEarly {limit : Limit} {rest : List Limit} (phase : t.phase = .releasing (limit :: rest))
      (member : limit ∈ t.held) :
      Stepped settings force t .next
        { t with held := t.held.erase limit, phase := .releasing rest } (.release limit)
  | unlimited {limit : Limit} {rest : List Limit} (phase : t.phase = .releasing (limit :: rest))
      (without : limit ∉ t.held) :
      Stepped settings force t .next { t with phase := .releasing rest } .none
  | started {spec : RelaySpec} (phase : t.phase = .releasing [])
      (configured : settings.relays[t.relay]? = some spec) :
      Stepped settings force t .next
        { t with phase := .transferring (.start spec.forwardMode spec.idleTimeout) } .none
  | counted {u : MetricUpdate} {updates : List MetricUpdate}
      (phase : t.phase = .closing (u :: updates)) :
      Stepped settings force t .next { t with phase := .closing updates } (.update u)
  | returned (phase : t.phase = .closing []) :
      Stepped settings force t .next { t with phase := .returning } .none
  | gaveBack {limit : Limit} {held : List Limit} (phase : t.phase = .returning)
      (last : t.held = limit :: held) :
      Stepped settings force t .next { t with held } (.release limit)

variable {settings : Settings} {force : Bool}

theorem step_stepped {t after : Task} {event : TaskEvent} {effect : Effect}
    (stepped : t.step settings force event = some (after, effect)) :
    Stepped settings force t event after effect := by
  cases event with
  | connected =>
      simp only [step] at stepped
      split at stepped <;> cases stepped
      exact .connected ‹_›
  | connectFailed elapsed =>
      simp only [step] at stepped
      split at stepped <;> cases stepped
      exact .connectEnded ‹_› (Or.inr (Or.inl rfl))
  | connectTimedOut elapsed =>
      simp only [step] at stepped
      split at stepped <;> cases stepped
      exact .connectEnded ‹_› (Or.inr (Or.inr rfl))
  | forced elapsed =>
      simp only [step] at stepped
      split at stepped
      · split at stepped <;> cases stepped
        exact .connectEnded ‹_› (Or.inl rfl)
      · split at stepped <;> cases stepped
        rename_i running
        exact .cutOff ‹_› running.1 running.2
      · cases stepped
  | forward event =>
      simp only [step] at stepped
      split at stepped <;> [skip; cases stepped]
      split at stepped <;> [skip; cases stepped]
      obtain ⟨forward, moved, same⟩ := Option.map_eq_some_iff.mp stepped
      cases same
      exact .forwarded ‹_› moved
  | settled elapsed =>
      simp only [step] at stepped
      split at stepped <;> [skip; cases stepped]
      split at stepped
      · cases stepped
      · cases stepped
        exact .finished ‹_› ‹_›
      · cases stepped
        refine .failed ‹_› ‹_› ?_
        split
        · exact Or.inr rfl
        · exact Or.inl rfl
  | next =>
      simp only [step] at stepped
      split at stepped
      · split at stepped <;> cases stepped
        · exact .gaveBackEarly ‹_› ‹_›
        · exact .unlimited ‹_› ‹_›
      · obtain ⟨spec, configured, same⟩ := Option.map_eq_some_iff.mp stepped
        cases same
        exact .started ‹_› configured
      · cases stepped
        exact .counted ‹_›
      · cases stepped
        exact .returned ‹_›
      · split at stepped <;> cases stepped
        exact .gaveBack ‹_› ‹_›
      · cases stepped

end Task

namespace ServerState

inductive Stepped (settings : Settings) (s : ServerState) : ServerLabel → ServerState → Prop
  | cancelled : Stepped settings s .shutdown { s with shutdown := true }
  | forced (cancelled : s.shutdown = true) :
      Stepped settings s .forceShutdown { s with force := true }
  | listener {relay : Nat} {event : ListenerEvent} {b : BoundRelay} {after : Listener}
      {effect : Effect} (found : s.relays[relay]? = some b)
      (moved : Listener.Stepped settings relay s.free s.shutdown s.force b.listener event after
        effect) :
      Stepped settings s (.listener relay event)
        ({ s with relays := s.relays.set relay { b with listener := after } }.perform relay effect)
  | task {index : Nat} {event : TaskEvent} {t after : Task} {effect : Effect}
      (found : s.tasks[index]? = some t)
      (moved : Task.Stepped settings s.force t event after effect) :
      Stepped settings s (.task index event)
        ({ s with tasks := s.tasks.set index after }.perform t.relay effect)

theorem step_stepped {settings : Settings} {s t : ServerState} {label : ServerLabel}
    (stepped : step settings s label = some t) : Stepped settings s label t := by
  cases label with
  | shutdown =>
      obtain rfl := Option.some.inj stepped
      exact .cancelled
  | forceShutdown =>
      simp only [step] at stepped
      split at stepped <;> [skip; cases stepped]
      obtain rfl := Option.some.inj stepped
      exact .forced ‹_›
  | listener relay event =>
      simp only [step] at stepped
      split at stepped <;> [cases stepped; skip]
      rename_i b found
      obtain ⟨⟨after, effect⟩, moved, rfl⟩ := Option.map_eq_some_iff.mp stepped
      exact .listener found (Listener.step_stepped moved)
  | task index event =>
      simp only [step] at stepped
      split at stepped <;> [cases stepped; skip]
      rename_i t found
      obtain ⟨⟨after, effect⟩, moved, rfl⟩ := Option.map_eq_some_iff.mp stepped
      exact .task found (Task.step_stepped moved)

end ServerState

/-! ## Conservation -/

namespace Effect

/-- Permits of `l` taken from the semaphore. -/
def acquired (l : Limit) : Effect → Nat
  | .acquire limit => if limit = l then 1 else 0
  | _ => 0

/-- Permits of `l` given back to the semaphore. -/
def released (l : Limit) : Effect → Nat
  | .release limit => if limit = l then 1 else 0
  | _ => 0

/-- Permits of `l` given to a new task. -/
def handed (l : Limit) : Effect → Nat
  | .spawn held => held.count l
  | _ => 0

end Effect

theorem count_cons_limit (l limit : Limit) (held : List Limit) :
    (limit :: held).count l = held.count l + if limit = l then 1 else 0 := by
  rw [List.count_cons]
  simp only [beq_iff_eq]

variable {settings : Settings} {relay : Nat} {free : Limit → Nat} {shutdown force : Bool}

/-- A listener's own permits change by what it takes, gives back and hands over. -/
theorem Listener.Stepped.held {listener after : Listener} {event : ListenerEvent} {effect : Effect}
    (moved : Stepped settings relay free shutdown force listener event after effect) (l : Limit) :
    after.held.count l + effect.released l + effect.handed l =
      listener.held.count l + effect.acquired l := by
  cases moved with
  | ended waits told => rcases waits with rfl | rfl <;> rfl
  | acquired limited some_ =>
      simp only [Listener.held, Effect.released, Effect.handed, Effect.acquired, count_cons_limit]
      omega
  | gaveBack =>
      simp only [Listener.held, Effect.released, Effect.handed, Effect.acquired, count_cons_limit]
  | spawned => simp [Listener.held, Effect.released, Effect.handed, Effect.acquired]
  | _ => rfl

/-- A permit is taken only where one is free. -/
theorem Listener.Stepped.acquired_le {listener after : Listener} {event : ListenerEvent}
    {effect : Effect} (moved : Stepped settings relay free shutdown force listener event after effect)
    (l : Limit) : effect.acquired l ≤ free l := by
  cases moved with
  | acquired limited some_ =>
      simp only [Effect.acquired]
      split
      · rename_i same
        exact same ▸ some_
      · exact Nat.zero_le _
  | _ => exact Nat.zero_le _

/-- A task's own permits change by what it gives back. -/
theorem Task.Stepped.held {t after : Task} {event : TaskEvent} {effect : Effect}
    (moved : Stepped settings force t event after effect) (l : Limit) :
    after.held.count l + effect.released l = t.held.count l ∧ effect.acquired l = 0 ∧
      effect.handed l = 0 := by
  cases moved with
  | @gaveBackEarly limit rest phase member =>
      refine ⟨?_, rfl, rfl⟩
      have pos := List.count_pos_iff.mpr member
      simp only [Effect.released, List.count_erase, beq_iff_eq]
      by_cases same : limit = l
      · subst same
        simp only [if_true]
        omega
      · simp [same]
  | gaveBack phase last =>
      refine ⟨?_, rfl, rfl⟩
      rw [last, count_cons_limit]
      rfl
  | _ => exact ⟨rfl, rfl, rfl⟩

/-- What an effect does to the relay it is about. -/
def BoundRelay.after (b : BoundRelay) : Effect → BoundRelay
  | .update u => { b with metrics := b.metrics.apply u }
  | .taken => { b with taken := b.taken + 1 }
  | .dropped => { b with dropped := b.dropped + 1 }
  | _ => b

namespace ServerState

theorem perform_relay (s : ServerState) (relay r : Nat) (effect : Effect) :
    (s.perform relay effect).relays[r]? =
      (s.relays[r]?).map fun b => if relay = r then b.after effect else b := by
  cases effect with
  | update u => exact List.getElem?_modify _ _ _ _
  | taken => exact List.getElem?_modify _ _ _ _
  | dropped => exact List.getElem?_modify _ _ _ _
  | _ => simp [perform, BoundRelay.after]

/-- Permits of `l` in the hands of listeners. -/
def inHands (s : ServerState) (l : Limit) : Nat := tally (fun b => b.listener.held.count l) s.relays

/-- Permits of `l` held by connection tasks. -/
def inTasks (s : ServerState) (l : Limit) : Nat := tally (fun t => t.held.count l) s.tasks

theorem perform_free (s : ServerState) (relay : Nat) (effect : Effect) (l : Limit)
    (enough : effect.acquired l ≤ s.free l) :
    (s.perform relay effect).free l + effect.acquired l = s.free l + effect.released l := by
  cases effect with
  | acquire limit =>
      simp only [Effect.acquired, eq_comm] at enough
      simp only [perform, Effect.acquired, Effect.released, eq_comm]
      split
      · rename_i same
        rw [if_pos same] at enough
        omega
      · rfl
  | release limit =>
      simp only [perform, Effect.acquired, Effect.released, eq_comm]
      split <;> rfl
  | _ => rfl

theorem perform_inHands (s : ServerState) (relay : Nat) (effect : Effect) (l : Limit) :
    (s.perform relay effect).inHands l = s.inHands l := by
  cases effect with
  | update u => exact tally_modify _ _ _ fun _ => rfl
  | taken => exact tally_modify _ _ _ fun _ => rfl
  | dropped => exact tally_modify _ _ _ fun _ => rfl
  | _ => rfl

theorem perform_inTasks (s : ServerState) (relay : Nat) (effect : Effect) (l : Limit) :
    (s.perform relay effect).inTasks l = s.inTasks l + effect.handed l := by
  cases effect with
  | spawn held => simp [perform, inTasks, Effect.handed]
  | _ => rfl

/-- No step makes or loses a permit. -/
theorem step_conserved {s t : ServerState} {label : ServerLabel}
    (stepped : step settings s label = some t) (l : Limit) :
    t.free l + t.inHands l + t.inTasks l = s.free l + s.inHands l + s.inTasks l := by
  cases step_stepped stepped with
  | cancelled => rfl
  | forced => rfl
  | @listener relay event b after effect found moved =>
      have own := moved.held l
      have changed := tally_set (fun b => b.listener.held.count l)
        { b with listener := after } found
      have semaphore := perform_free
        { s with relays := s.relays.set relay { b with listener := after } } relay effect l
        (moved.acquired_le l)
      rw [perform_inHands, perform_inTasks]
      simp only [inHands, inTasks] at changed semaphore ⊢
      omega
  | @task index event t after effect found moved =>
      obtain ⟨own, taken, handed⟩ := moved.held l
      have changed := tally_set (fun t => t.held.count l) after found
      have semaphore := perform_free { s with tasks := s.tasks.set index after } t.relay effect l
        (by omega)
      rw [perform_inHands, perform_inTasks]
      simp only [inHands, inTasks] at changed semaphore ⊢
      omega

/-- Free permits, permits in listeners' hands and permits of tasks are all the permits
the semaphore was made with. -/
theorem permits_conserved {s : ServerState} (reached : (machine settings).Reachable s) (l : Limit) :
    s.free l + s.inHands l + s.inTasks l = (settings.limit l).getD 0 := by
  induction reached with
  | start initial =>
      obtain rfl := initial
      have none : (start settings).inHands l = 0 := by
        refine (tally_eq_zero_iff _ _).mpr fun b member => ?_
        obtain ⟨spec, -, rfl⟩ := List.mem_map.mp member
        rfl
      rw [none]
      rfl
  | step before stepped ih => rw [step_conserved stepped l, ih]

/-- No relay is added or taken away. -/
theorem relays_length {s : ServerState} (reached : (machine settings).Reachable s) :
    s.relays.length = settings.relays.length := by
  have performed : ∀ (s : ServerState) relay effect,
      (s.perform relay effect).relays.length = s.relays.length := by
    intro s relay effect
    cases effect with
    | update u => exact List.length_modify _ _ _
    | taken => exact List.length_modify _ _ _
    | dropped => exact List.length_modify _ _ _
    | _ => rfl
  refine (machine settings).invariant (P := fun s => s.relays.length = settings.relays.length)
    ?_ ?_ reached
  · rintro s rfl
    exact List.length_map _
  · intro s label t _ same stepped
    cases step_stepped stepped with
    | cancelled => exact same
    | forced told => exact same
    | listener found moved =>
        rw [performed]
        exact List.length_set.trans same
    | task found moved =>
        rw [performed]
        exact same

end ServerState

end Portrelay.Server
