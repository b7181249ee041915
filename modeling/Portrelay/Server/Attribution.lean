/-
# Server.Attribution -- what one connection does to the counters

The counters of a relay do not say who raised them.  `madeBy` is what connection `i`
alone adds to a counter in a step, and `queuedBy` what the calls add that a step goes
into; `made_step` and `made_queued` are the laws between them and what is still owed,
and `read_queued` is the law of the counter itself.
-/
import Portrelay.Server.Accounting

namespace Portrelay.Server

open Portrelay.Theory Portrelay.Relay Portrelay.Metrics

set_option autoImplicit false

/-- The updates a step puts before a task: those of the calls it goes into. -/
def Task.queued (t after : Task) : List MetricUpdate :=
  match t.phase, after.phase with
  | .closing _, _ => []
  | .returning, _ => []
  | _, .closing updates => updates
  | _, _ => []

theorem Task.Stepped.queued {settings : Settings} {force : Bool} {t after : Task}
    {event : TaskEvent} {effect : Effect} (w : MetricUpdate → Nat)
    (moved : Stepped settings force t event after effect) :
    effect.weight w + after.owes w 0 = t.owes w 0 + total w (t.queued after) := by
  cases moved with
  | connected phase => simp [Task.owes, Task.queued, phase, Effect.weight]
  | connectEnded phase why => simp [Task.owes, Task.queued, Task.close, phase, Effect.weight]
  | cutOff phase forced running =>
      simp [Task.owes, Task.queued, Task.close, phase, Effect.weight]
  | forwarded phase moved => simp [Task.owes, Task.queued, phase, Effect.weight]
  | finished phase ok => simp [Task.owes, Task.queued, Task.close, phase, Effect.weight]
  | failed phase failure why => simp [Task.owes, Task.queued, Task.close, phase, Effect.weight]
  | gaveBackEarly phase member => simp [Task.owes, Task.queued, phase, Effect.weight]
  | unlimited phase without => simp [Task.owes, Task.queued, phase, Effect.weight]
  | started phase configured => simp [Task.owes, Task.queued, phase, Effect.weight]
  | counted phase => simp [Task.owes, Task.queued, phase, Effect.weight]
  | returned phase => simp [Task.owes, Task.queued, phase, Effect.weight]
  | gaveBack phase last => simp [Task.owes, Task.queued, phase, Effect.weight]

/-- The transfer of the task has returned an error of kind `TimedOut`. -/
def Task.timesOut (t : Task) : Bool :=
  match t.phase with
  | .transferring forward =>
      match forward.result with
      | some (.error error) => decide (error.kind = .timedOut)
      | _ => false
  | _ => false

theorem Task.close_total {w : MetricUpdate → Nat}
    (closed : ∀ duration a b, total w (RelayMetrics.closed duration a b) = 0) {t : Task}
    (open_ : t.phase = .connecting ∨ ∃ forward, t.phase = .transferring forward)
    (before : List MetricUpdate) (elapsed : Nat) (ending : Ending) :
    total w (t.queued (t.close before elapsed ending).1) = total w before := by
  have same : t.queued (t.close before elapsed ending).1 =
      before ++ RelayMetrics.closed elapsed ending.reported.1 ending.reported.2 := by
    rcases open_ with phase | ⟨forward, phase⟩ <;> simp only [queued, close, phase]
  rw [same, total_append, closed, Nat.add_zero]

/-- The weight of the calls before `closed` that an event leads to. -/
def Task.called (w : MetricUpdate → Nat) (t : Task) : TaskEvent → Nat
  | .connectFailed _ => total w RelayMetrics.upstreamFailure
  | .connectTimedOut _ => total w RelayMetrics.upstreamTimeout
  | .settled _ => if t.timesOut then total w RelayMetrics.idleTimeout else 0
  | _ => 0

/-- The steps of a task itself go into no call. -/
theorem Task.next_queued {settings : Settings} {force : Bool} {t after : Task} {effect : Effect}
    (stepped : t.step settings force .next = some (after, effect)) : t.queued after = [] := by
  simp only [step] at stepped
  split at stepped
  · rename_i phase
    split at stepped <;> cases stepped <;> simp only [queued, phase]
  · rename_i phase
    obtain ⟨spec, -, same⟩ := Option.map_eq_some_iff.mp stepped
    cases same
    simp only [queued, phase]
  · rename_i phase
    cases stepped
    simp only [queued, phase]
  · rename_i phase
    cases stepped
    simp only [queued, phase]
  · rename_i phase
    split at stepped <;> cases stepped
    simp only [queued, phase]
  · cases stepped

theorem Task.queued_total {settings : Settings} {force : Bool} {t after : Task}
    {event : TaskEvent} {effect : Effect} {w : MetricUpdate → Nat}
    (closed : ∀ duration a b, total w (RelayMetrics.closed duration a b) = 0)
    (stepped : t.step settings force event = some (after, effect)) :
    total w (t.queued after) = t.called w event := by
  cases event with
  | connected =>
      simp only [step] at stepped
      split at stepped <;> cases stepped
      rename_i phase
      simp only [queued, phase, total_nil, called]
  | connectFailed elapsed =>
      simp only [step] at stepped
      split at stepped <;> [skip; cases stepped]
      obtain rfl := congrArg Prod.fst (Option.some.inj stepped)
      exact close_total closed (Or.inl ‹_›) _ _ _
  | connectTimedOut elapsed =>
      simp only [step] at stepped
      split at stepped <;> [skip; cases stepped]
      obtain rfl := congrArg Prod.fst (Option.some.inj stepped)
      exact close_total closed (Or.inl ‹_›) _ _ _
  | forced elapsed =>
      simp only [step] at stepped
      split at stepped
      · split at stepped <;> [skip; cases stepped]
        obtain rfl := congrArg Prod.fst (Option.some.inj stepped)
        exact close_total closed (Or.inl ‹_›) _ _ _
      · split at stepped <;> [skip; cases stepped]
        obtain rfl := congrArg Prod.fst (Option.some.inj stepped)
        exact close_total closed (Or.inr ⟨_, ‹_›⟩) _ _ _
      · cases stepped
  | forward event =>
      simp only [step] at stepped
      split at stepped <;> [skip; cases stepped]
      rename_i phase
      split at stepped <;> [skip; cases stepped]
      obtain ⟨forward, -, same⟩ := Option.map_eq_some_iff.mp stepped
      cases same
      simp only [queued, phase, total_nil, called]
  | settled elapsed =>
      simp only [step] at stepped
      split at stepped <;> [skip; cases stepped]
      rename_i phase
      split at stepped
      · cases stepped
      · rename_i returned
        obtain rfl := congrArg Prod.fst (Option.some.inj stepped)
        simp only [called, timesOut, phase, returned]
        exact close_total closed (Or.inr ⟨_, phase⟩) _ _ _
      · rename_i error returned
        obtain rfl := congrArg Prod.fst (Option.some.inj stepped)
        simp only [called, timesOut, phase, returned, decide_eq_true_eq]
        refine (close_total closed (Or.inr ⟨_, phase⟩) _ _ _).trans ?_
        split
        · rfl
        · rfl
  | next =>
      rw [next_queued stepped]
      rfl

namespace ServerState

variable {settings : Settings}

/-- What connection `i` adds, in a step, to the counter that `w` weighs. -/
def madeBy (settings : Settings) (w : MetricUpdate → Nat) (i : Nat) (s : ServerState) :
    ServerLabel → Nat
  | .task index event =>
      if index = i then
        match s.tasks[i]?.bind fun t => t.step settings s.force event with
        | some after => after.2.weight w
        | none => 0
      else 0
  | _ => 0

/-- A measure of connection `i`; `early` before it is spawned. -/
def at_ (f : Task → Nat) (early i : Nat) (s : ServerState) : Nat :=
  match s.tasks[i]? with
  | some t => f t
  | none => early

/-- What a step is to connection `i`: nothing, its spawning, or a step of its own. -/
inductive MovedBy (settings : Settings) (i : Nat) (s t : ServerState) (label : ServerLabel) : Prop
  | elsewhere (other : ∀ event, label ≠ .task i event) (same : t.tasks[i]? = s.tasks[i]?)
  | spawned {u : Task} (other : ∀ event, label ≠ .task i event) (missing : s.tasks[i]? = none)
      (found : t.tasks[i]? = some u) (connecting : u.phase = .connecting)
  | moved {event : TaskEvent} {u after : Task} {effect : Effect} (own : label = .task i event)
      (found : s.tasks[i]? = some u) (moved : u.step settings s.force event = some (after, effect))
      (found' : t.tasks[i]? = some after)

theorem step_movedBy {s t : ServerState} {label : ServerLabel}
    (stepped : step settings s label = some t) (i : Nat) : MovedBy settings i s t label := by
  cases label with
  | shutdown =>
      obtain rfl := Option.some.inj stepped
      exact .elsewhere (fun event => by simp) rfl
  | forceShutdown =>
      simp only [step] at stepped
      split at stepped <;> [skip; cases stepped]
      obtain rfl := Option.some.inj stepped
      exact .elsewhere (fun event => by simp) rfl
  | listener relay event =>
      simp only [step] at stepped
      split at stepped <;> [cases stepped; skip]
      obtain ⟨⟨after, effect⟩, -, rfl⟩ := Option.map_eq_some_iff.mp stepped
      rcases perform_tasks _ relay effect with same | ⟨held, -, more⟩
      · exact .elsewhere (fun event => by simp) (by rw [same])
      · rcases Nat.lt_trichotomy i s.tasks.length with inside | rfl | outside
        · refine .elsewhere (fun event => by simp) ?_
          rw [more, List.getElem?_append_left inside]
        · have found : (s.tasks ++ [⟨relay, held, .connecting, none⟩])[s.tasks.length]? =
              some ⟨relay, held, .connecting, none⟩ := List.getElem?_concat_length
          exact .spawned (fun event => by simp) (List.getElem?_eq_none (Nat.le_refl _))
            (more ▸ found) rfl
        · refine .elsewhere (fun event => by simp) ?_
          rw [more, List.getElem?_eq_none (Nat.le_of_lt outside), List.getElem?_eq_none]
          simp only [List.length_append, List.length_singleton]
          omega
  | task index event =>
      simp only [step] at stepped
      split at stepped <;> [cases stepped; skip]
      rename_i u found
      obtain ⟨⟨after, effect⟩, moved, rfl⟩ := Option.map_eq_some_iff.mp stepped
      have tasks : (perform { s with tasks := s.tasks.set index after } u.relay effect).tasks =
          s.tasks.set index after := by
        rcases perform_tasks { s with tasks := s.tasks.set index after } u.relay effect with
          same | ⟨held, spawns, -⟩
        · exact same
        · exact absurd spawns ((Task.step_stepped moved).no_spawn held)
      by_cases own : index = i
      · subst own
        refine .moved rfl found moved ?_
        rw [tasks, List.getElem?_set_self (List.getElem?_eq_some_iff.mp found).1]
      · refine .elsewhere (fun event same => own (ServerLabel.task.inj same).1) ?_
        rw [tasks, List.getElem?_set_ne own]

theorem madeBy_other {i : Nat} {label : ServerLabel} (other : ∀ event, label ≠ .task i event)
    (w : MetricUpdate → Nat) (s : ServerState) : madeBy settings w i s label = 0 := by
  cases label with
  | task index event =>
      by_cases own : index = i
      · exact absurd (by rw [own]) (other event)
      · simp only [madeBy, if_neg own]
  | _ => rfl

theorem madeBy_own {i : Nat} {s : ServerState} {event : TaskEvent} {u after : Task}
    {effect : Effect} (found : s.tasks[i]? = some u)
    (moved : u.step settings s.force event = some (after, effect)) (w : MetricUpdate → Nat) :
    madeBy settings w i s (.task i event) = effect.weight w := by
  simp only [madeBy, if_true, found, Option.bind_some, moved]

/-- What a connection makes is what it owes less, and what it ends with more. -/
theorem made_step {w : MetricUpdate → Nat} {value : Nat × Nat → Nat} (settles : Settles w value)
    (early : Nat) {s t : ServerState} {label : ServerLabel}
    (stepped : step settings s label = some t) (i : Nat) :
    madeBy settings w i s label + t.at_ (Task.owes w early) early i +
        s.at_ (Task.recorded (fun e => value e.reported) early) early i =
      s.at_ (Task.owes w early) early i +
        t.at_ (Task.recorded (fun e => value e.reported) early) early i := by
  cases step_movedBy stepped i with
  | elsewhere other same => simp only [madeBy_other other, at_, same, Nat.zero_add]
  | spawned other missing found connecting =>
      simp only [madeBy_other other, at_, missing, found, Task.owes, Task.recorded, connecting]
      omega
  | moved own found moved found' =>
      subst own
      have owes := (Task.step_stepped moved).owes settles early
      simp only [madeBy_own found moved, at_, found, found']
      omega

/-- A connection calls `closed` once: what it has added is one less what it owes. -/
theorem closed_step {s t : ServerState} {label : ServerLabel}
    (stepped : step settings s label = some t) (i : Nat) :
    (madeBy settings Meter.closed.weight i s label : Int) =
      (1 - t.at_ (Task.owes Meter.closed.weight 1) 1 i) -
        (1 - s.at_ (Task.owes Meter.closed.weight 1) 1 i) := by
  have made := made_step closed_settles 1 stepped i
  have same : ∀ s : ServerState, s.at_ (Task.recorded (fun _ => 1) 1) 1 i = 1 := by
    intro s
    unfold at_
    split
    · exact Task.recorded_one _
    · rfl
  rw [same, same] at made
  omega

/-! ## The calls that a step queues -/

/-- The weight of the calls that a step puts before a connection that `own` picks. -/
def queuedBy (settings : Settings) (w : MetricUpdate → Nat) (own : Nat → Task → Bool)
    (s : ServerState) : ServerLabel → Nat
  | .task index event =>
      match s.tasks[index]? with
      | none => 0
      | some t =>
          match t.step settings s.force event with
          | none => 0
          | some after => if own index t then total w (t.queued after.1) else 0
  | _ => 0

theorem queuedBy_task {index : Nat} {event : TaskEvent} {s : ServerState} {t after : Task}
    {effect : Effect} (found : s.tasks[index]? = some t)
    (moved : t.step settings s.force event = some (after, effect)) (w : MetricUpdate → Nat)
    (own : Nat → Task → Bool) :
    queuedBy settings w own s (.task index event) =
      if own index t then total w (t.queued after) else 0 := by
  simp only [queuedBy, found, moved]

/-- Every call of one connection is made, or owed. -/
theorem made_queued (w : MetricUpdate → Nat) {s t : ServerState} {label : ServerLabel}
    (stepped : step settings s label = some t) (i : Nat) :
    madeBy settings w i s label + t.at_ (Task.owes w 0) 0 i =
      s.at_ (Task.owes w 0) 0 i + queuedBy settings w (fun index _ => index == i) s label := by
  have elsewhere : (∀ event, label ≠ .task i event) →
      queuedBy settings w (fun index _ => index == i) s label = 0 := by
    intro other
    cases label with
    | task index event =>
        have ne : (index == i) = false := beq_eq_false_iff_ne.mpr fun same =>
          other event (by rw [same])
        simp only [queuedBy, ne]
        split
        · rfl
        · split
          · rfl
          · rfl
    | _ => rfl
  cases step_movedBy stepped i with
  | elsewhere other same =>
      simp only [madeBy_other other, elsewhere other, at_, same]
      omega
  | spawned other missing found connecting =>
      simp only [madeBy_other other, elsewhere other, at_, missing, found, Task.owes, connecting]
  | moved own found moved found' =>
      subst own
      have queued := (Task.step_stepped moved).queued w
      simp only [madeBy_own found moved, queuedBy_task found moved, at_, found, found',
        beq_self_eq_true, if_true]
      omega

/-- A counter that no listener raises has what the calls of the connections add up to,
but for what is owed. -/
theorem read_queued (M : Meter) (accepted : total M.weight RelayMetrics.accepted = 0)
    (rejected : total M.weight RelayMetrics.rejected = 0) {s t : ServerState} {relay : Nat}
    {b : BoundRelay} {label : ServerLabel} (stepped : step settings s label = some t)
    (found : s.relays[relay]? = some b) (booked : b.listener.Booked) :
    ∃ b', t.relays[relay]? = some b' ∧
      M.read b'.metrics + t.across relay (Task.owes M.weight 0) =
        M.read b.metrics + s.across relay (Task.owes M.weight 0) +
          queuedBy settings M.weight (fun _ u => u.relay == relay) s label := by
  cases label with
  | shutdown =>
      obtain rfl := Option.some.inj stepped
      exact ⟨b, found, rfl⟩
  | forceShutdown =>
      simp only [step] at stepped
      split at stepped <;> [skip; cases stepped]
      obtain rfl := Option.some.inj stepped
      exact ⟨b, found, rfl⟩
  | listener r event =>
      cases step_stepped stepped with
      | @listener _ _ b' after effect found' moved =>
          have seen := listener_at after effect found' relay
          by_cases here : r = relay
          · subst here
            obtain rfl := Option.some.inj (found'.symm.trans found)
            rw [if_pos rfl] at seen
            refine ⟨_, seen.1, ?_⟩
            have unspawned : effect.spawned r (Task.owes M.weight 0) = 0 := by
              cases effect <;> rfl
            rw [BoundRelay.after_read, moved.silent booked accepted rejected, seen.2, unspawned]
            rfl
          · rw [if_neg here] at seen
            exact ⟨b, seen.1.trans found, by rw [seen.2]; rfl⟩
  | task index event =>
      simp only [step] at stepped
      split at stepped <;> [cases stepped; skip]
      rename_i u found'
      obtain ⟨⟨after, effect⟩, moved, rfl⟩ := Option.map_eq_some_iff.mp stepped
      have own := Task.step_stepped moved
      obtain ⟨bound, tasks⟩ := task_at found' own relay
      refine ⟨_, by rw [bound, found, Option.map_some], ?_⟩
      have owed := tasks (Task.owes M.weight 0)
      have queued := own.queued M.weight
      rw [queuedBy_task found' moved]
      by_cases here : u.relay = relay
      · have read := b.after_read effect M
        simp only [here, beq_self_eq_true, if_true] at owed ⊢
        omega
      · have other : (u.relay == relay) = false := beq_eq_false_iff_ne.mpr here
        simp only [here, other, if_false, Bool.false_eq_true] at owed ⊢
        omega

end ServerState

end Portrelay.Server
