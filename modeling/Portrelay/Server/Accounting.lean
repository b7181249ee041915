/-
# Server.Accounting -- what the counters of a relay add up to

Every client and every connection is somewhere: still in the listener's hands, in one
of its two counts, in a task that has yet to report its end, or reported.  `Books`
writes that down for one relay as equations that hold in every reachable state, updates
in flight included; what a party has yet to count is a number of its own
(`Listener.uncounted`, `Listener.announced`, `Task.owes`).  `connection_accounting`
reads off the bounds of the gauge and the equations of a quiet relay.
-/
import Portrelay.Server.AdmissionSafety

namespace Portrelay.Server

open Portrelay.Theory Portrelay.Relay Portrelay.Metrics

set_option autoImplicit false

/-! ## What an effect is to the counters -/

namespace Effect

/-- The weight of the update, if the effect is one. -/
def weight (w : MetricUpdate → Nat) : Effect → Nat
  | .update u => w u
  | _ => 0

def takes : Effect → Nat
  | .taken => 1
  | _ => 0

def drops : Effect → Nat
  | .dropped => 1
  | _ => 0

/-- The task that the effect starts, measured. -/
def spawned (relay : Nat) (f : Task → Nat) : Effect → Nat
  | .spawn held => f ⟨relay, held, .connecting, Option.none⟩
  | _ => 0

end Effect

namespace BoundRelay

variable (b : BoundRelay) (effect : Effect)

@[simp] theorem after_listener : (b.after effect).listener = b.listener := by
  cases effect <;> rfl

@[simp] theorem after_taken : (b.after effect).taken = b.taken + effect.takes := by
  cases effect <;> rfl

@[simp] theorem after_dropped : (b.after effect).dropped = b.dropped + effect.drops := by
  cases effect <;> rfl

theorem after_read (M : Meter) :
    M.read (b.after effect).metrics = M.read b.metrics + effect.weight M.weight := by
  cases effect with
  | update u => exact M.apply _ _
  | _ => rfl

theorem after_active :
    (b.after effect).metrics.activeConnections + effect.weight MetricUpdate.lowers =
      b.metrics.activeConnections + effect.weight MetricUpdate.raises := by
  cases effect with
  | update u => exact RelayMetrics.apply_active _ _
  | _ => rfl

end BoundRelay

/-! ## What a listener has in hand -/

namespace Listener

/-- Clients taken from `accept` that are neither counted nor dropped yet. -/
def uncounted : Listener → Nat
  | .checking => 1
  | .acquiring _ _ => 1
  | .refusing updates _ => total Meter.rejected.weight updates
  | .counting updates _ => total Meter.accepted.weight updates
  | _ => 0

/-- Clients counted as accepted whose task is not spawned yet. -/
def announced : Listener → Nat
  | .counting updates _ => 1 - total Meter.accepted.weight updates
  | .spawning _ => 1
  | _ => 0

/-- Those of them that the gauge counts. -/
def activated : Listener → Nat
  | .counting updates _ => 1 - total MetricUpdate.raises updates
  | .spawning _ => 1
  | _ => 0

/-- A call of `rejected` or `accepted` has some of its updates left. -/
def Booked : Listener → Prop
  | .refusing updates _ => updates <:+ RelayMetrics.rejected
  | .counting updates _ => updates <:+ RelayMetrics.accepted
  | _ => True

theorem suffix_rejected {updates : List MetricUpdate} (suffix : updates <:+ RelayMetrics.rejected) :
    updates = [.addRejected] ∨ updates = [] := by
  simpa [RelayMetrics.rejected, List.suffix_cons_iff] using suffix

theorem suffix_accepted {updates : List MetricUpdate} (suffix : updates <:+ RelayMetrics.accepted) :
    updates = [.addAccepted, .addActive] ∨ updates = [.addActive] ∨ updates = [] := by
  simpa [RelayMetrics.accepted, List.suffix_cons_iff] using suffix

theorem Booked.uncounted_le {listener : Listener} (booked : listener.Booked) :
    listener.uncounted ≤ 1 := by
  cases listener with
  | refusing updates held =>
      rcases suffix_rejected booked with rfl | rfl
      · exact Nat.le_refl 1
      · exact Nat.zero_le 1
  | counting updates held =>
      rcases suffix_accepted booked with rfl | rfl | rfl
      · exact Nat.le_refl 1
      · exact Nat.zero_le 1
      · exact Nat.zero_le 1
  | checking => exact Nat.le_refl 1
  | acquiring rest held => exact Nat.le_refl 1
  | _ => exact Nat.zero_le 1

namespace Stepped

variable {settings : Settings} {relay : Nat} {free : Limit → Nat} {shutdown force : Bool}
variable {listener after : Listener} {event : ListenerEvent} {effect : Effect}

theorem booked (booked : listener.Booked)
    (moved : Stepped settings relay free shutdown force listener event after effect) :
    after.Booked := by
  cases moved with
  | refused limited exhausted => exact List.suffix_refl _
  | allowed => exact List.suffix_refl _
  | countedRefusal => exact (List.suffix_cons _ _).trans booked
  | counted => exact (List.suffix_cons _ _).trans booked
  | _ => trivial

/-- A listener's step keeps its own books. -/
theorem balanced (booked : listener.Booked)
    (moved : Stepped settings relay free shutdown force listener event after effect) :
    after.uncounted + effect.weight Meter.accepted.weight + effect.weight Meter.rejected.weight +
        effect.drops = listener.uncounted + effect.takes ∧
      after.announced + effect.spawned relay (fun _ => 1) =
        listener.announced + effect.weight Meter.accepted.weight ∧
      after.activated + effect.spawned relay (fun _ => 1) =
        listener.activated + effect.weight MetricUpdate.raises := by
  cases moved with
  | ended waits told => rcases waits with rfl | rfl <;> exact ⟨rfl, rfl, rfl⟩
  | countedRefusal =>
      rcases suffix_rejected booked with same | same <;> cases same
      exact ⟨rfl, rfl, rfl⟩
  | refusalCounted => exact ⟨rfl, rfl, rfl⟩
  | counted =>
      rcases suffix_accepted booked with same | same | same <;> cases same <;>
        exact ⟨rfl, rfl, rfl⟩
  | _ => exact ⟨rfl, rfl, rfl⟩

/-- A listener makes the updates of `accepted` and `rejected` only. -/
theorem silent (booked : listener.Booked)
    (moved : Stepped settings relay free shutdown force listener event after effect)
    {w : MetricUpdate → Nat} (accepted : total w RelayMetrics.accepted = 0)
    (rejected : total w RelayMetrics.rejected = 0) : effect.weight w = 0 := by
  simp only [RelayMetrics.rejected, RelayMetrics.accepted, total_cons, total_nil] at rejected accepted
  cases moved with
  | countedRefusal =>
      rcases suffix_rejected booked with same | same <;> cases same
      simp only [Effect.weight]
      omega
  | counted =>
      rcases suffix_accepted booked with same | same | same <;> cases same <;>
        simp only [Effect.weight] <;> omega
  | _ => rfl

/-- A socket is dropped only by a listener that stops, after shutdown is cancelled. -/
theorem dropped (moved : Stepped settings relay free shutdown force listener event after effect) :
    effect.drops = 0 ∨ effect.drops = 1 ∧ after = .stopped ∧ shutdown = true := by
  cases moved with
  | closed cancelled => exact Or.inr ⟨rfl, rfl, cancelled⟩
  | _ => exact Or.inl rfl

theorem not_stopped
    (moved : Stepped settings relay free shutdown force listener event after effect) :
    listener ≠ .stopped := by
  rintro rfl
  cases moved with
  | ended waits told => rcases waits with same | same <;> cases same

end Stepped

/-- A connection in the books of the listener holds the outer permits. -/
theorem Ok.activated {settings : Settings} {relay : Nat} {listener : Listener}
    (ok : listener.Ok settings relay) {l : Limit} (outer : l ∈ outer relay)
    (limited : settings.limit l ≠ none) : listener.activated ≤ listener.held.count l := by
  have holds : ∀ held : List Limit, Holds settings (admission relay) held → 1 ≤ held.count l :=
    fun held all => List.count_pos_iff.mpr (all.outer l outer limited)
  cases listener with
  | counting updates held => exact Nat.le_trans (Nat.sub_le _ _) (holds held ok.2)
  | spawning held => exact holds held ok.2
  | _ => exact Nat.zero_le _

end Listener

/-! ## What a task has yet to report -/

namespace Task

/-- The weight of the updates that a task has yet to make: `early` before it is in its
last calls. -/
def owes (w : MetricUpdate → Nat) (early : Nat) (t : Task) : Nat :=
  match t.phase with
  | .closing updates => total w updates
  | .returning => 0
  | _ => early

/-- How a task ended, measured; `early` before it has. -/
def recorded (value : Ending → Nat) (early : Nat) (t : Task) : Nat :=
  let ended := value (t.ending.getD ⟨(0, 0), (0, 0)⟩)
  match t.phase with
  | .closing _ => ended
  | .returning => ended
  | _ => early

theorem recorded_one (t : Task) : t.recorded (fun _ => 1) 1 = 1 := by
  unfold recorded
  cases t.phase <;> rfl

section

variable {w : MetricUpdate → Nat} {value : Nat × Nat → Nat}

theorem close_owes (settles : Settles w value) (early : Nat) (t : Task) {before : List MetricUpdate}
    (none : total w before = 0) (elapsed : Nat) (ending : Ending) :
    (t.close before elapsed ending).1.owes w early =
      (t.close before elapsed ending).1.recorded (fun e => value e.reported) early := by
  show total w (before ++ RelayMetrics.closed _ _ _) = value ending.reported
  rw [total_append, none, settles.closed, Nat.zero_add]

variable {settings : Settings} {force : Bool} {t after : Task} {event : TaskEvent} {effect : Effect}

theorem Stepped.relay (moved : Stepped settings force t event after effect) :
    after.relay = t.relay := by
  cases moved <;> rfl

theorem Stepped.no_takes (moved : Stepped settings force t event after effect) :
    effect.takes = 0 ∧ effect.drops = 0 := by
  cases moved <;> exact ⟨rfl, rfl⟩

/-- What a task has yet to report changes by what it reports and by how it ends. -/
theorem Stepped.owes (settles : Settles w value) (early : Nat)
    (moved : Stepped settings force t event after effect) :
    after.owes w early + effect.weight w + t.recorded (fun e => value e.reported) early =
      t.owes w early + after.recorded (fun e => value e.reported) early := by
  have closes : ∀ {before : List MetricUpdate} {elapsed : Nat} {ending : Ending},
      t.owes w early = early → t.recorded (fun e => value e.reported) early = early →
      total w before = 0 →
      (t.close before elapsed ending).1.owes w early + 0 +
          t.recorded (fun e => value e.reported) early =
        t.owes w early +
          (t.close before elapsed ending).1.recorded (fun e => value e.reported) early := by
    intro before elapsed ending owes recorded none
    rw [close_owes settles early t none, owes, recorded]
    omega
  have counted : ∀ {phase : Phase}, t.phase = phase →
      t.owes w early = Task.owes w early { t with phase } ∧
        t.recorded (fun e => value e.reported) early =
          Task.recorded (fun e => value e.reported) early { t with phase } := by
    rintro phase rfl
    exact ⟨rfl, rfl⟩
  cases moved with
  | connected phase => rw [(counted phase).1, (counted phase).2]; rfl
  | connectEnded phase why =>
      refine closes (counted phase).1 (counted phase).2 ?_
      rcases why with rfl | rfl | rfl
      · rfl
      · exact settles.upstreamFailure
      · exact settles.upstreamTimeout
  | cutOff phase forced running => exact closes (counted phase).1 (counted phase).2 rfl
  | forwarded phase moved => rw [(counted phase).1, (counted phase).2]; rfl
  | finished phase ok => exact closes (counted phase).1 (counted phase).2 rfl
  | failed phase failure why =>
      refine closes (counted phase).1 (counted phase).2 ?_
      rcases why with rfl | rfl
      · rfl
      · exact settles.idleTimeout
  | gaveBackEarly phase member => rw [(counted phase).1, (counted phase).2]; rfl
  | unlimited phase without => rw [(counted phase).1, (counted phase).2]; rfl
  | started phase configured => rw [(counted phase).1, (counted phase).2]; rfl
  | @counted u updates phase =>
      rw [(counted phase).1, (counted phase).2]
      simp only [Task.owes, Task.recorded, Effect.weight, total_cons]
      omega
  | returned phase => rw [(counted phase).1, (counted phase).2]; rfl
  | gaveBack phase last =>
      simp only [Task.owes, Task.recorded, phase, Effect.weight]

/-- A task makes no update of the listener's. -/
theorem Stepped.closing (ok : t.Ok settings) (moved : Stepped settings force t event after effect) :
    effect.weight Meter.accepted.weight = 0 ∧ effect.weight Meter.rejected.weight = 0 ∧
      effect.weight MetricUpdate.raises = 0 := by
  cases moved with
  | @counted u updates phase =>
      have last := (ok.at_ phase).2.2 u List.mem_cons_self
      cases u with
      | addActive => exact absurd last id
      | addAccepted => exact absurd last id
      | addRejected => exact absurd last id
      | _ => exact ⟨rfl, rfl, rfl⟩
  | _ => exact ⟨rfl, rfl, rfl⟩

end

end Task

/-! ## One relay's view of a step -/

namespace ServerState

variable {settings : Settings}

/-- The tasks of one relay, measured. -/
def across (s : ServerState) (relay : Nat) (f : Task → Nat) : Nat :=
  tally (fun t => if t.relay = relay then f t else 0) s.tasks

/-- What a step is to relay `relay`: a step of its listener, one of a task of it, or
nothing. -/
inductive SteppedAt (settings : Settings) (relay : Nat) (s t : ServerState) : Prop
  | elsewhere (bound : t.relays[relay]? = s.relays[relay]?)
      (tasks : ∀ f, t.across relay f = s.across relay f)
  | listener {b : BoundRelay} {after : Listener} {event : ListenerEvent} {effect : Effect}
      (found : s.relays[relay]? = some b)
      (moved : Listener.Stepped settings relay s.free s.shutdown s.force b.listener event after
        effect)
      (bound : t.relays[relay]? = some ({ b with listener := after }.after effect))
      (tasks : ∀ f, t.across relay f = s.across relay f + effect.spawned relay f)
  | task {u after : Task} {event : TaskEvent} {effect : Effect} (member : u ∈ s.tasks)
      (moved : Task.Stepped settings s.force u event after effect)
      (bound : t.relays[relay]? = s.relays[relay]?.map fun b => b.after effect)
      (tasks : ∀ f, t.across relay f + f u = s.across relay f + f after)

theorem perform_across (s : ServerState) (relay r : Nat) (effect : Effect) (f : Task → Nat) :
    (s.perform relay effect).across r f =
      s.across r f + if relay = r then effect.spawned relay f else 0 := by
  cases effect with
  | spawn held =>
      simp only [perform, across, tally_append, tally_cons, tally_nil, Effect.spawned]
      omega
  | _ => simp [perform, across, Effect.spawned]

/-- A task's step, seen from relay `relay`. -/
theorem task_at {s : ServerState} {index : Nat} {event : TaskEvent} {u after : Task}
    {effect : Effect} (found : s.tasks[index]? = some u)
    (moved : Task.Stepped settings s.force u event after effect) (relay : Nat) :
    let t := { s with tasks := s.tasks.set index after }.perform u.relay effect
    (t.relays[relay]? = s.relays[relay]?.map fun b => if u.relay = relay then b.after effect else b) ∧
      ∀ f, t.across relay f + (if u.relay = relay then f u else 0) =
        s.across relay f + if u.relay = relay then f after else 0 := by
  refine ⟨perform_relay _ _ _ _, fun f => ?_⟩
  have none : effect.spawned u.relay f = 0 := by
    cases effect with
    | spawn held => exact absurd rfl (moved.no_spawn held)
    | _ => rfl
  have tasks := tally_set (fun u => if u.relay = relay then f u else 0) after found
  rw [perform_across, none, ite_self, Nat.add_zero]
  simp only [moved.relay] at tasks
  simp only [across]
  omega

/-- A listener's step, seen from its own relay and from the others. -/
theorem listener_at {s : ServerState} {r : Nat} {b : BoundRelay} (after : Listener)
    (effect : Effect) (found : s.relays[r]? = some b) (relay : Nat) :
    let t := { s with relays := s.relays.set r { b with listener := after } }.perform r effect
    if r = relay then
      t.relays[relay]? = some ({ b with listener := after }.after effect) ∧
        ∀ f, t.across relay f = s.across relay f + effect.spawned relay f
    else t.relays[relay]? = s.relays[relay]? ∧ ∀ f, t.across relay f = s.across relay f := by
  intro t
  split
  · rename_i here
    subst here
    have inside : r < s.relays.length := (List.getElem?_eq_some_iff.mp found).1
    refine ⟨?_, fun f => ?_⟩
    · rw [perform_relay, List.getElem?_set_self inside, Option.map_some, if_pos rfl]
    · rw [perform_across, if_pos rfl]
      rfl
  · rename_i here
    refine ⟨?_, fun f => ?_⟩
    · rw [perform_relay, List.getElem?_set_ne here]
      simp only [if_neg here, Option.map_id']
    · rw [perform_across, if_neg here]
      rfl

theorem step_at {s t : ServerState} {label : ServerLabel}
    (stepped : step settings s label = some t) (relay : Nat) : SteppedAt settings relay s t := by
  cases step_stepped stepped with
  | cancelled => exact .elsewhere rfl fun _ => rfl
  | forced => exact .elsewhere rfl fun _ => rfl
  | @listener r event b after effect found moved =>
      have seen := listener_at after effect found relay
      by_cases here : r = relay
      · subst here
        rw [if_pos rfl] at seen
        exact .listener found moved seen.1 seen.2
      · rw [if_neg here] at seen
        exact .elsewhere seen.1 seen.2
  | @task index event u after effect found moved =>
      obtain ⟨bound, tasks⟩ := task_at found moved relay
      by_cases here : u.relay = relay
      · simp only [if_pos here] at bound tasks
        exact .task (List.mem_of_getElem? found) moved bound tasks
      · simp only [if_neg here, Option.map_id', Nat.add_zero] at bound tasks
        exact .elsewhere bound tasks

theorem step_shutdown {s t : ServerState} {label : ServerLabel}
    (stepped : step settings s label = some t) (cancelled : s.shutdown = true) :
    t.shutdown = true := by
  have kept : ∀ (s : ServerState) relay effect, (s.perform relay effect).shutdown = s.shutdown := by
    intro s relay effect
    cases effect <;> rfl
  cases step_stepped stepped with
  | cancelled => rfl
  | forced told => exact cancelled
  | listener found moved => rw [kept]; exact cancelled
  | task found moved => rw [kept]; exact cancelled

/-! ## The books of a relay -/

structure Books (s : ServerState) (relay : Nat) (b : BoundRelay) : Prop where
  booked : b.listener.Booked
  taken : b.taken = b.metrics.connectionsAccepted + b.metrics.connectionsRejected + b.dropped +
    b.listener.uncounted
  dropped : b.dropped = 0 ∨ b.dropped = 1 ∧ b.listener = .stopped ∧ s.shutdown = true
  admitted : b.metrics.connectionsAccepted = b.listener.announced + s.across relay fun _ => 1
  active : b.metrics.activeConnections =
    b.listener.activated + s.across relay (Task.owes MetricUpdate.lowers 1)
  settled : ∀ (M : Meter) value early, Settles M.weight value →
    M.read b.metrics + s.across relay (Task.owes M.weight early) =
      s.across relay (Task.recorded (fun e => value e.reported) early)

theorem start_books {relay : Nat} {b : BoundRelay} (found : (start settings).relays[relay]? = some b) :
    Books (start settings) relay b := by
  obtain ⟨spec, -, rfl⟩ := List.mem_map.mp (List.mem_of_getElem? found)
  exact ⟨trivial, rfl, Or.inl rfl, rfl, rfl, fun M _ _ _ => by rw [M.new]; rfl⟩

section

variable {s t : ServerState} {relay : Nat} {b : BoundRelay}

/-- The books of a relay that a step is not about. -/
theorem Books.elsewhere (books : Books s relay b) (cancelled : s.shutdown = true → t.shutdown = true)
    (tasks : ∀ f, t.across relay f = s.across relay f) : Books t relay b := by
  refine ⟨books.booked, books.taken, ?_, ?_, ?_, ?_⟩
  · rcases books.dropped with none | ⟨one, stopped, told⟩
    · exact Or.inl none
    · exact Or.inr ⟨one, stopped, cancelled told⟩
  · rw [tasks]
    exact books.admitted
  · rw [tasks]
    exact books.active
  · intro M value early settles
    rw [tasks, tasks]
    exact books.settled M value early settles

/-- The books of a relay whose listener moves. -/
theorem Books.listener {after : Listener} {event : ListenerEvent} {effect : Effect}
    (books : Books s relay b) (cancelled : s.shutdown = true → t.shutdown = true)
    (moved : Listener.Stepped settings relay s.free s.shutdown s.force b.listener event after
      effect)
    (tasks : ∀ f, t.across relay f = s.across relay f + effect.spawned relay f) :
    Books t relay ({ b with listener := after }.after effect) := by
  obtain ⟨clients, accepted, raised⟩ := moved.balanced books.booked
  have readAccepted := BoundRelay.after_read { b with listener := after } effect Meter.accepted
  have readRejected := BoundRelay.after_read { b with listener := after } effect Meter.rejected
  have none : b.dropped = 0 := by
    rcases books.dropped with none | ⟨-, stopped, -⟩
    · exact none
    · exact absurd stopped moved.not_stopped
  refine ⟨?_, ?_, ?_, ?_, ?_, ?_⟩
  · rw [BoundRelay.after_listener]
    exact moved.booked books.booked
  · have taken := books.taken
    simp only [BoundRelay.after_taken, BoundRelay.after_dropped, BoundRelay.after_listener,
      Meter.accepted, Meter.rejected] at readAccepted readRejected clients ⊢
    omega
  · rw [BoundRelay.after_dropped, BoundRelay.after_listener, none, Nat.zero_add]
    rcases moved.dropped with zero | ⟨one, stopped, told⟩
    · exact Or.inl zero
    · exact Or.inr ⟨one, stopped, cancelled told⟩
  · have admitted := books.admitted
    rw [tasks]
    simp only [BoundRelay.after_listener, Meter.accepted] at readAccepted accepted ⊢
    omega
  · have active := books.active
    have gauge := BoundRelay.after_active { b with listener := after } effect
    have same := moved.silent books.booked lowers_settles.accepted lowers_settles.rejected
    have owed : effect.spawned relay (Task.owes MetricUpdate.lowers 1) =
        effect.spawned relay fun _ => 1 := by
      cases effect <;> rfl
    rw [tasks, owed]
    simp only [BoundRelay.after_listener] at gauge ⊢
    omega
  · intro M value early settles
    have settled := books.settled M value early settles
    have read := BoundRelay.after_read { b with listener := after } effect M
    have same := moved.silent books.booked settles.accepted settles.rejected
    -- a task that is only spawned owes what it will be recorded with
    have owed : effect.spawned relay (Task.owes M.weight early) =
        effect.spawned relay (Task.recorded (fun e => value e.reported) early) := by
      cases effect <;> rfl
    rw [tasks, tasks, owed]
    simp only at read
    omega

/-- The books of a relay one of whose tasks moves. -/
theorem Books.task {u after : Task} {event : TaskEvent} {effect : Effect} (books : Books s relay b)
    (cancelled : s.shutdown = true → t.shutdown = true) (ok : u.Ok settings)
    (moved : Task.Stepped settings s.force u event after effect)
    (tasks : ∀ f, t.across relay f + f u = s.across relay f + f after) :
    Books t relay (b.after effect) := by
  obtain ⟨accepted, rejected, raised⟩ := moved.closing ok
  obtain ⟨takes, drops⟩ := moved.no_takes
  have readAccepted := b.after_read effect Meter.accepted
  have readRejected := b.after_read effect Meter.rejected
  simp only [Meter.accepted, Meter.rejected] at readAccepted readRejected accepted rejected
  refine ⟨?_, ?_, ?_, ?_, ?_, ?_⟩
  · rw [BoundRelay.after_listener]
    exact books.booked
  · have taken := books.taken
    simp only [BoundRelay.after_taken, BoundRelay.after_dropped, BoundRelay.after_listener]
    omega
  · rw [BoundRelay.after_dropped, BoundRelay.after_listener, drops]
    rcases books.dropped with none | ⟨one, stopped, told⟩
    · exact Or.inl none
    · exact Or.inr ⟨one, stopped, cancelled told⟩
  · have admitted := books.admitted
    have same := tasks fun _ => 1
    rw [BoundRelay.after_listener]
    omega
  · have active := books.active
    have gauge := b.after_active effect
    have owed := moved.owes lowers_settles 1
    have owing := tasks (Task.owes MetricUpdate.lowers 1)
    simp only [Task.recorded_one] at owed
    rw [BoundRelay.after_listener]
    omega
  · intro M value early settles
    have settled := books.settled M value early settles
    have read := b.after_read effect M
    have owed := moved.owes settles early
    have owing := tasks (Task.owes M.weight early)
    have ending := tasks (Task.recorded (fun e => value e.reported) early)
    omega

end

theorem step_books {s t : ServerState} {label : ServerLabel} (ok : s.Ok settings)
    (books : ∀ relay b, s.relays[relay]? = some b → Books s relay b)
    (stepped : step settings s label = some t) (relay : Nat) (b : BoundRelay)
    (found : t.relays[relay]? = some b) : Books t relay b := by
  have cancelled := step_shutdown stepped
  cases step_at stepped relay with
  | elsewhere bound tasks => exact (books relay b (bound ▸ found)).elsewhere cancelled tasks
  | @listener b' after event effect found' moved bound tasks =>
      obtain rfl := Option.some.inj (bound.symm.trans found)
      exact (books relay b' found').listener cancelled moved tasks
  | task member moved bound tasks =>
      rw [bound] at found
      obtain ⟨b', found', rfl⟩ := Option.map_eq_some_iff.mp found
      exact (books relay b' found').task cancelled (ok.tasks _ member) moved tasks

theorem reachable_books {s : ServerState} (reached : (machine settings).Reachable s) (relay : Nat)
    (b : BoundRelay) (found : s.relays[relay]? = some b) : Books s relay b := by
  induction reached generalizing relay b with
  | start initial =>
      obtain rfl := initial
      exact start_books found
  | step before stepped ih => exact step_books (reachable_ok before) ih stepped relay b found

/-! ## The bounds of the gauge -/

/-- A task lowers the gauge once at most. -/
theorem lowers_le {s : ServerState} (reached : (machine settings).Reachable s) :
    ∀ t ∈ s.tasks, t.owes MetricUpdate.lowers 1 ≤ 1 := by
  induction reached with
  | start initial =>
      obtain rfl := initial
      intro t member
      cases member
  | step before stepped ih =>
      refine step_tasks stepped ih ?_ ?_
      · intro relay held b found spawning
        exact Nat.le_refl 1
      · intro index event t after effect _ found moved
        have first := ih t (List.mem_of_getElem? found)
        have owed := moved.owes lowers_settles 1
        simp only [Task.recorded_one] at owed
        omega

/-- While a connection is in the gauge its outer permits are held. -/
theorem active_le {s : ServerState} (reached : (machine settings).Reachable s) {relay : Nat}
    {b : BoundRelay} (found : s.relays[relay]? = some b) {l : Limit} (member : l ∈ outer relay)
    {permits : Nat} (limited : settings.limit l = some permits) :
    b.metrics.activeConnections ≤ permits := by
  have configured : settings.limit l ≠ none := by rw [limited]; simp
  have ok := reachable_ok reached
  have listener : b.listener.activated ≤ s.inHands l :=
    Nat.le_trans ((ok.relays relay b found).activated member configured)
      (le_tally (fun b => b.listener.held.count l) (List.mem_of_getElem? found))
  have tasks : s.across relay (Task.owes MetricUpdate.lowers 1) ≤ s.inTasks l := by
    refine tally_mono fun t inTasks => ?_
    split
    · rename_i here
      subst here
      by_cases live : t.phase = .returning
      · simp only [Task.owes, live]
        exact Nat.zero_le _
      · have held := (ok.tasks t inTasks).outer live l member configured
        exact Nat.le_trans (lowers_le reached t inTasks) (List.count_pos_iff.mpr held)
    · exact Nat.zero_le _
  have conserved := limit_conserved reached limited
  have active := (reachable_books reached relay b found).active
  omega

/-- The relay of every task is one of the settings. -/
theorem configured {s : ServerState} (reached : (machine settings).Reachable s) :
    ∀ t ∈ s.tasks, ∃ spec, settings.relays[t.relay]? = some spec := by
  refine (machine settings).invariant
    (P := fun s => ∀ t ∈ s.tasks, ∃ spec, settings.relays[t.relay]? = some spec) ?_ ?_ reached
  · rintro s rfl t member
    exact absurd member List.not_mem_nil
  · intro s label t reached inside stepped
    refine step_tasks stepped inside ?_ ?_
    · intro relay held b found _
      have bound := (List.getElem?_eq_some_iff.mp found).1
      rw [relays_length reached] at bound
      exact ⟨_, List.getElem?_eq_getElem bound⟩
    · intro index event u after effect _ found moved
      obtain ⟨spec, given⟩ := inside u (List.mem_of_getElem? found)
      exact ⟨spec, moved.relay ▸ given⟩

/-! ## A quiet relay -/

/-- No call of `accepted` or `closed` is going on at relay `relay`. -/
def Quiet (s : ServerState) (relay : Nat) : Prop :=
  (∀ updates held, s.listenerAt relay ≠ some (.counting updates held)) ∧
    ∀ t ∈ s.tasks, t.relay = relay → ∀ updates, t.phase ≠ .closing updates

/-- The live connections of relay `relay`: its live tasks, and the one that its listener
is spawning a task for. -/
def live (s : ServerState) (relay : Nat) : Nat :=
  s.tasks.countP (Task.boundBy (.perRelayLimit relay)) +
    match s.listenerAt relay with
    | some (.spawning _) => 1
    | _ => 0

theorem Quiet.owed {s : ServerState} {relay : Nat} (quiet : s.Quiet relay) (w : MetricUpdate → Nat) :
    s.across relay (Task.owes w 1) = s.tasks.countP (Task.boundBy (.perRelayLimit relay)) := by
  refine (countP_eq_tally fun t member => ?_).symm
  by_cases here : t.relay = relay
  · have settled := quiet.2 t member here
    simp only [Task.boundBy, Task.live, Task.owes, here, beq_self_eq_true, Bool.true_and, if_true]
    cases phase : t.phase with
    | closing updates => exact absurd phase (settled updates)
    | returning => rfl
    | _ => rfl
  · simp [Task.boundBy, here]

theorem Quiet.spawning {s : ServerState} {relay : Nat} (quiet : s.Quiet relay) {b : BoundRelay}
    (found : s.relays[relay]? = some b) :
    s.live relay = s.tasks.countP (Task.boundBy (.perRelayLimit relay)) + b.listener.announced ∧
      b.listener.activated = b.listener.announced := by
  have at_ : s.listenerAt relay = some b.listener := by rw [listenerAt, found, Option.map_some]
  have calm := quiet.1
  rw [at_] at calm
  rw [live, at_]
  cases listener : b.listener with
  | counting updates held => exact absurd (by rw [listener]) (calm updates held)
  | _ => exact ⟨rfl, rfl⟩

theorem quiet_accounting {s : ServerState} (reached : (machine settings).Reachable s) {relay : Nat}
    {b : BoundRelay} (found : s.relays[relay]? = some b) (quiet : s.Quiet relay) :
    b.metrics.connectionsAccepted = b.metrics.connectionsClosed + s.live relay ∧
      b.metrics.activeConnections = s.live relay ∧
      b.metrics.connectionDuration.count = b.metrics.connectionsClosed := by
  have books := reachable_books reached relay b found
  obtain ⟨live, activated⟩ := quiet.spawning found
  have admitted := books.admitted
  have active := books.active
  have closed := books.settled Meter.closed _ 1 closed_settles
  have durations := books.settled Meter.durations _ 1 durations_settles
  have each : s.across relay (Task.recorded (fun _ => 1) 1) = s.across relay fun _ => 1 := by
    simp only [across, Task.recorded_one]
  rw [quiet.owed, each] at closed durations
  rw [quiet.owed] at active
  simp only [Meter.closed, Meter.durations] at closed durations
  refine ⟨?_, ?_, ?_⟩ <;> omega

/-- In every reachable state the gauge stays between zero and the limits, and every
client taken from `accept` is in one count, in hand, or dropped, the last of them, at
shutdown; and when no update is in flight the counters agree with the connections. -/
theorem connection_accounting {s : ServerState} (reached : (machine settings).Reachable s)
    {relay : Nat} {b : BoundRelay} (found : s.relays[relay]? = some b) :
    (0 ≤ b.metrics.activeConnections ∧
      ∀ l ∈ outer relay, ∀ permits, settings.limit l = some permits →
        b.metrics.activeConnections ≤ permits) ∧
    (b.taken = b.metrics.connectionsAccepted + b.metrics.connectionsRejected + b.dropped +
        b.listener.uncounted ∧
      b.listener.uncounted ≤ 1 ∧
      (b.dropped = 0 ∨ b.dropped = 1 ∧ b.listener = .stopped ∧ s.shutdown = true)) ∧
    (s.Quiet relay →
      b.metrics.connectionsAccepted = b.metrics.connectionsClosed + s.live relay ∧
        b.metrics.activeConnections = s.live relay ∧
        b.metrics.connectionDuration.count = b.metrics.connectionsClosed) := by
  have books := reachable_books reached relay b found
  refine ⟨⟨?_, ?_⟩, ⟨books.taken, books.booked.uncounted_le, books.dropped⟩, ?_⟩
  · rw [books.active]
    omega
  · intro l member permits limited
    exact active_le reached found member limited
  · intro quiet
    exact quiet_accounting reached found quiet

/-- The first relay of the two has a connection. -/
theorem connection_accounting_busy :
    ∃ (s : ServerState) (b : BoundRelay), (machine twoRelays).exec (start twoRelays)
        (.listener 0 .accept :: List.replicate 10 (.listener 0 .next)) = some s ∧
      s.relays[0]? = some b ∧
      b.metrics.connectionsAccepted = b.metrics.connectionsClosed + s.live 0 ∧
      b.metrics.activeConnections = s.live 0 ∧
      b.metrics.connectionDuration.count = b.metrics.connectionsClosed ∧ s.live 0 = 1 := by
  have reaches :
      ∃ (s : ServerState) (b : BoundRelay), (machine twoRelays).exec (start twoRelays)
          (.listener 0 .accept :: List.replicate 10 (.listener 0 .next)) = some s ∧
        s.relays[0]? = some b ∧ s.listenerAt 0 = some .accepting ∧
        (∀ t ∈ s.tasks, t.phase = .connecting) ∧ s.live 0 = 1 :=
    ⟨_, _, rfl, rfl, rfl, fun t member => by rw [List.mem_singleton.mp member], rfl⟩
  obtain ⟨s, b, ran, found, waits, connects, live⟩ := reaches
  have reached := ((machine twoRelays).reachable_iff_exec s).mpr ⟨_, _, rfl, ran⟩
  have quiet : s.Quiet 0 := by
    refine ⟨fun updates held counting => ?_, fun t member _ updates closing => ?_⟩
    · rw [waits] at counting
      cases counting
    · rw [connects t member] at closing
      cases closing
  obtain ⟨accepted, active, durations⟩ := (connection_accounting reached found).2.2 quiet
  exact ⟨s, b, ran, found, accepted, active, durations, live⟩

end ServerState

end Portrelay.Server
