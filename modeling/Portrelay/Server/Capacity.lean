/-
# Server.Capacity -- the limits restrict nothing but what they say

Safety says that no more connections are admitted than the limits allow.  This is the other
half: every distribution of connections over the relays that the limits allow is reached, so
that no interplay of the four semaphores wastes a part of what is configured.

* `admitted` -- from a calm state with room for one, a run admits one more at that relay.
* `capacity_exact` -- the distributions that are reached are those that the limits allow.
-/
import Portrelay.Server.Accounting

namespace Portrelay.Server

open Portrelay.Theory Portrelay.Relay Portrelay.Metrics

set_option autoImplicit false

namespace ServerState

variable {settings : Settings}

/-! ## One listener admits a client -/

/-- `s` is `s₀` but for what the listener of `relay` has done since, which is in `listener`. -/
structure Since (s₀ : ServerState) (relay : Nat) (listener : Listener) (s : ServerState) : Prop where
  here : s.listenerAt relay = some listener
  others : ∀ r, r ≠ relay → s.listenerAt r = s₀.listenerAt r
  tasks : s.tasks = s₀.tasks
  running : s.shutdown = false

theorem perform_listenerAt (s : ServerState) (relay r : Nat) (effect : Effect) :
    (s.perform relay effect).listenerAt r = s.listenerAt r := by
  rw [listenerAt, listenerAt, perform_relay, Option.map_map]
  refine congrArg (Option.map · _) (funext fun b => ?_)
  show (if relay = r then b.after effect else b).listener = b.listener
  split
  · exact BoundRelay.after_listener _ _
  · rfl

theorem set_listenerAt {s : ServerState} {relay : Nat} {b : BoundRelay}
    (found : s.relays[relay]? = some b) (after : Listener) (r : Nat) :
    ({ s with relays := s.relays.set relay { b with listener := after } }).listenerAt r =
      if r = relay then some after else s.listenerAt r := by
  have inside : relay < s.relays.length := (List.getElem?_eq_some_iff.mp found).1
  by_cases same : r = relay
  · rw [if_pos same, same, listenerAt, List.getElem?_set_self inside]
    rfl
  · rw [if_neg same, listenerAt, List.getElem?_set_ne (Ne.symm same)]
    rfl

/-- A step of the listener that spawns nothing. -/
theorem Since.step {s₀ s : ServerState} {relay : Nat} {listener after : Listener}
    {event : ListenerEvent} {effect : Effect} (since : Since s₀ relay listener s)
    (quiet : ∀ s : ServerState, (s.perform relay effect).tasks = s.tasks ∧
      (s.perform relay effect).shutdown = s.shutdown)
    (moved : listener.step settings relay s.free s.shutdown s.force event = some (after, effect)) :
    ∃ t, (machine settings).Leads s t ∧ Since s₀ relay after t ∧
      t.free = (s.perform relay effect).free := by
  obtain ⟨b, found, rfl⟩ := Option.map_eq_some_iff.mp since.here
  refine ⟨({ s with relays := s.relays.set relay { b with listener := after } }).perform relay effect,
    ?_, ⟨?_, ?_, ?_, ?_⟩, ?_⟩
  · refine .of_step (a := .listener relay event) ?_
    simp only [machine, ServerState.step, found, moved, Option.map_some]
  · rw [perform_listenerAt, set_listenerAt found, if_pos rfl]
  · intro r other
    rw [perform_listenerAt, set_listenerAt found, if_neg other]
    exact since.others r other
  · exact (quiet _).1.trans since.tasks
  · exact (quiet _).2.trans since.running
  · cases effect <;> rfl

/-- The acquires succeed one after the other, where each has a permit or is not configured. -/
theorem Since.acquire {s₀ : ServerState} {relay : Nat} {rest : List Limit} (distinct : rest.Nodup) :
    ∀ {s : ServerState} {held : List Limit}, Since s₀ relay (.acquiring rest held) s →
      (∀ l ∈ rest, settings.limit l ≠ none → 0 < s.free l) →
      ∃ t more, (machine settings).Leads s t ∧ Since s₀ relay (.acquiring [] more) t ∧
        ∀ l ∈ more, l ∈ rest ∨ l ∈ held := by
  induction rest with
  | nil =>
      intro s held since room
      exact ⟨s, held, .refl _ s, since, fun l member => Or.inr member⟩
  | cons limit rest ih =>
      intro s held since room
      obtain ⟨new, distinct⟩ := List.nodup_cons.mp distinct
      cases configured : settings.limit limit with
      | none =>
          have moved : (Listener.acquiring (limit :: rest) held).step settings relay s.free s.shutdown
              s.force .next = some (.acquiring rest held, .none) := by
            simp only [Listener.step, configured]
          obtain ⟨t, leads, there, free⟩ := since.step (fun _ => ⟨rfl, rfl⟩) moved
          obtain ⟨u, more, later, there, all⟩ := ih distinct there fun l member limited => by
            rw [free]
            exact room l (List.mem_cons_of_mem _ member) limited
          exact ⟨u, more, leads.trans later, there, fun l member =>
            (all l member).imp_left (List.mem_cons_of_mem _)⟩
      | some permits =>
          have some_ : s.free limit ≠ 0 := Nat.ne_of_gt
            (room limit List.mem_cons_self (by rw [configured]; exact Option.some_ne_none _))
          have moved : (Listener.acquiring (limit :: rest) held).step settings relay s.free s.shutdown
              s.force .next = some (.acquiring rest (limit :: held), .acquire limit) := by
            simp only [Listener.step, configured, if_neg some_]
          obtain ⟨t, leads, there, free⟩ := since.step (fun _ => ⟨rfl, rfl⟩) moved
          obtain ⟨u, more, later, there, all⟩ := ih distinct there fun l member limited => by
            have other : l ≠ limit := fun same => new (same ▸ member)
            rw [free]
            simp only [perform, if_neg other]
            exact room l (List.mem_cons_of_mem _ member) limited
          refine ⟨u, more, leads.trans later, there, fun l member => ?_⟩
          rcases all l member with next | same
          · exact Or.inl (List.mem_cons_of_mem _ next)
          · rcases List.mem_cons.mp same with rfl | old
            · exact Or.inl List.mem_cons_self
            · exact Or.inr old

/-- The updates of `accepted` are made one after the other. -/
theorem Since.count {s₀ : ServerState} {relay : Nat} {held : List Limit} {updates : List MetricUpdate} :
    ∀ {s : ServerState}, Since s₀ relay (.counting updates held) s →
      ∃ t, (machine settings).Leads s t ∧ Since s₀ relay (.counting [] held) t := by
  induction updates with
  | nil =>
      intro s since
      exact ⟨s, .refl _ s, since⟩
  | cons u updates ih =>
      intro s since
      have moved : (Listener.counting (u :: updates) held).step settings relay s.free s.shutdown
          s.force .next = some (.counting updates held, .update u) := rfl
      obtain ⟨t, leads, there, -⟩ := since.step (fun _ => ⟨rfl, rfl⟩) moved
      obtain ⟨u, later, there⟩ := ih there
      exact ⟨u, leads.trans later, there⟩

/-- A listener with a client takes it to the point where its task is spawned. -/
theorem spawning_of_accept {s : ServerState} {relay : Nat} (accepting : s.listenerAt relay = some .accepting)
    (running : s.shutdown = false)
    (room : ∀ l ∈ admission relay, settings.limit l ≠ none → 0 < s.free l) :
    ∃ t held, (machine settings).Leads s t ∧ Since s relay (.spawning held) t ∧
      ∀ l ∈ held, l ∈ admission relay := by
  have since : Since s relay .accepting s := ⟨accepting, fun _ _ => rfl, rfl, running⟩
  have took : Listener.accepting.step settings relay s.free s.shutdown s.force .accept =
      some (.checking, .taken) := rfl
  obtain ⟨t₁, leads₁, since, free₁⟩ := since.step (fun _ => ⟨rfl, rfl⟩) took
  have passed : Listener.checking.step settings relay t₁.free t₁.shutdown t₁.force .next =
      some (.acquiring (admission relay) [], .none) := by
    rw [since.running]
    rfl
  obtain ⟨t₂, leads₂, since, free₂⟩ := since.step (fun _ => ⟨rfl, rfl⟩) passed
  obtain ⟨t₃, held, leads₃, since, all⟩ := since.acquire (admission_nodup relay)
    fun l member limited => by
      rw [free₂]
      show 0 < t₁.free l
      rw [free₁]
      exact room l member limited
  have allowed : (Listener.acquiring [] held).step settings relay t₃.free t₃.shutdown t₃.force .next =
      some (.counting RelayMetrics.accepted held, .none) := rfl
  obtain ⟨t₄, leads₄, since, -⟩ := since.step (fun _ => ⟨rfl, rfl⟩) allowed
  obtain ⟨t₅, leads₅, since⟩ := since.count
  have counted : (Listener.counting [] held).step settings relay t₅.free t₅.shutdown t₅.force .next =
      some (.spawning held, .none) := rfl
  obtain ⟨t₆, leads₆, since, -⟩ := since.step (fun _ => ⟨rfl, rfl⟩) counted
  refine ⟨t₆, held, ?_, since, fun l member => (all l member).resolve_right List.not_mem_nil⟩
  exact leads₁.trans (leads₂.trans (leads₃.trans (leads₄.trans (leads₅.trans leads₆))))

/-! ## Its task connects -/

/-- `s` is `s₀` with one more task. -/
structure Joined (s₀ : ServerState) (task : Task) (s : ServerState) : Prop where
  listeners : ∀ r, s.listenerAt r = s₀.listenerAt r
  tasks : s.tasks = s₀.tasks ++ [task]
  running : s.shutdown = false

theorem Since.spawn {s₀ s : ServerState} {relay : Nat} {held : List Limit}
    (accepting : s₀.listenerAt relay = some .accepting) (since : Since s₀ relay (.spawning held) s) :
    ∃ t, (machine settings).Leads s t ∧ Joined s₀ ⟨relay, held, .connecting, none⟩ t := by
  obtain ⟨b, found, spawning⟩ := Option.map_eq_some_iff.mp since.here
  refine ⟨({ s with relays := s.relays.set relay { b with listener := .accepting } }).perform relay
    (.spawn held), ?_, ⟨?_, ?_, since.running⟩⟩
  · refine .of_step (a := .listener relay .next) ?_
    have moved : b.listener.step settings relay s.free s.shutdown s.force .next =
        some (.accepting, .spawn held) := by rw [spawning]; rfl
    simp only [machine, ServerState.step, found, moved, Option.map_some]
  · intro r
    rw [perform_listenerAt, set_listenerAt found]
    split
    · rename_i same
      rw [same, accepting]
    · exact since.others r ‹_›
  · exact congrArg (· ++ _) since.tasks

/-- A step of that task. -/
theorem Joined.step {s₀ s : ServerState} {task after : Task} {event : TaskEvent} {effect : Effect}
    (joined : Joined s₀ task s)
    (quiet : ∀ s : ServerState, (s.perform task.relay effect).tasks = s.tasks ∧
      (s.perform task.relay effect).shutdown = s.shutdown)
    (moved : task.step settings s.force event = some (after, effect)) :
    ∃ t, (machine settings).Leads s t ∧ Joined s₀ after t := by
  have found : s.tasks[s₀.tasks.length]? = some task := by
    rw [joined.tasks, List.getElem?_concat_length]
  refine ⟨({ s with tasks := s.tasks.set s₀.tasks.length after }).perform task.relay effect, ?_,
    ⟨?_, ?_, ?_⟩⟩
  · refine .of_step (a := .task s₀.tasks.length event) ?_
    simp only [machine, ServerState.step, found, moved, Option.map_some]
  · intro r
    rw [perform_listenerAt]
    exact joined.listeners r
  · rw [(quiet _).1, joined.tasks, List.set_append_right _ _ (Nat.le_refl _), Nat.sub_self]
    rfl
  · exact (quiet _).2.trans joined.running

/-- The connecting permits are given back. -/
theorem Joined.release {s₀ : ServerState} {relay : Nat} {rest : List Limit} :
    ∀ {s : ServerState} {held : List Limit}, held.Nodup →
      Joined s₀ ⟨relay, held, .releasing rest, none⟩ s →
      ∃ t kept, (machine settings).Leads s t ∧ Joined s₀ ⟨relay, kept, .releasing [], none⟩ t ∧
        ∀ l ∈ kept, l ∈ held ∧ l ∉ rest := by
  induction rest with
  | nil =>
      intro s held distinct joined
      exact ⟨s, held, .refl _ s, joined, fun l member => ⟨member, List.not_mem_nil⟩⟩
  | cons limit rest ih =>
      intro s held distinct joined
      by_cases has : limit ∈ held
      · have moved : (⟨relay, held, .releasing (limit :: rest), none⟩ : Task).step settings s.force
            .next = some (⟨relay, held.erase limit, .releasing rest, none⟩, .release limit) := by
          simp only [Task.step, if_pos has]
        obtain ⟨t, leads, joined⟩ := joined.step (fun _ => ⟨rfl, rfl⟩) moved
        obtain ⟨u, kept, later, joined, all⟩ := ih (distinct.erase limit) joined
        refine ⟨u, kept, leads.trans later, joined, fun l member => ?_⟩
        obtain ⟨left, other⟩ := all l member
        obtain ⟨ne, old⟩ := (List.Nodup.mem_erase_iff distinct).mp left
        exact ⟨old, List.not_mem_cons_of_ne_of_not_mem ne other⟩
      · have moved : (⟨relay, held, .releasing (limit :: rest), none⟩ : Task).step settings s.force
            .next = some (⟨relay, held, .releasing rest, none⟩, .none) := by
          simp only [Task.step, if_neg has]
        obtain ⟨t, leads, joined⟩ := joined.step (fun _ => ⟨rfl, rfl⟩) moved
        obtain ⟨u, kept, later, joined, all⟩ := ih distinct joined
        refine ⟨u, kept, leads.trans later, joined, fun l member => ?_⟩
        obtain ⟨old, other⟩ := all l member
        exact ⟨old, List.not_mem_cons_of_ne_of_not_mem (fun same => has (same ▸ old)) other⟩

theorem transferring_of_connecting {s₀ s : ServerState} {relay : Nat} {held : List Limit}
    {spec : RelaySpec} (configured : settings.relays[relay]? = some spec) (distinct : held.Nodup)
    (all : ∀ l ∈ held, l ∈ admission relay)
    (joined : Joined s₀ ⟨relay, held, .connecting, none⟩ s) :
    ∃ t kept forward, (machine settings).Leads s t ∧
      Joined s₀ ⟨relay, kept, .transferring forward, none⟩ t ∧ ∀ l ∈ kept, l ∈ outer relay := by
  have connects : (⟨relay, held, .connecting, none⟩ : Task).step settings s.force .connected =
      some (⟨relay, held, .releasing [.globalConnecting, .perRelayConnecting relay], none⟩, .none) :=
    rfl
  obtain ⟨t₁, leads₁, joined⟩ := joined.step (fun _ => ⟨rfl, rfl⟩) connects
  obtain ⟨t₂, kept, leads₂, joined, left⟩ := joined.release distinct
  have forwards : (⟨relay, kept, .releasing [], none⟩ : Task).step settings t₂.force .next =
      some (⟨relay, kept, .transferring (.start spec.forwardMode spec.idleTimeout), none⟩, .none) := by
    simp only [Task.step, configured, Option.map_some]
  obtain ⟨t₃, leads₃, joined⟩ := joined.step (fun _ => ⟨rfl, rfl⟩) forwards
  refine ⟨t₃, kept, _, leads₁.trans (leads₂.trans leads₃), joined, fun l member => ?_⟩
  obtain ⟨old, other⟩ := left l member
  have one := all l old
  simp only [admission, outer, List.mem_cons, List.not_mem_nil, or_false] at one other ⊢
  tauto

/-! ## Calm states -/

/-- The connections of a relay that are open. -/
def connected (s : ServerState) (relay : Nat) : Nat :=
  s.tasks.countP (Task.boundBy (.perRelayLimit relay))

/-- Every listener waits for a client, every connection is in its transfer. -/
structure Calm (s : ServerState) : Prop where
  running : s.shutdown = false
  accepting : ∀ r listener, s.listenerAt r = some listener → listener = .accepting
  transferring : ∀ t ∈ s.tasks, t.live = true ∧ ∀ l ∈ t.held, l ∈ outer t.relay

/-- A permit is held by an open connection that its limit is there for. -/
theorem Calm.inTasks_le {s : ServerState} (reached : (machine settings).Reachable s) (calm : s.Calm)
    (l : Limit) : s.inTasks l ≤ s.tasks.countP fun t => decide (l ∈ outer t.relay) := by
  have counted : s.tasks.countP (fun t => decide (l ∈ outer t.relay)) =
      tally (fun t => if decide (l ∈ outer t.relay) = true then 1 else 0) s.tasks :=
    countP_eq_tally fun _ _ => rfl
  rw [counted]
  refine tally_mono fun t member => ?_
  have once := List.nodup_iff_count_le_one.mp ((reachable_ok reached).tasks t member).1 l
  by_cases held : l ∈ t.held
  · rw [if_pos (decide_eq_true ((calm.transferring t member).2 l held))]
    exact once
  · rw [List.count_eq_zero_of_not_mem held]
    exact Nat.zero_le _

theorem Calm.inHands {s : ServerState} (calm : s.Calm) (l : Limit) : s.inHands l = 0 := by
  refine (tally_eq_zero_iff _ _).mpr fun b member => ?_
  obtain ⟨r, found⟩ := List.mem_iff_getElem?.mp member
  have accepting := calm.accepting r b.listener (by rw [listenerAt, found]; rfl)
  rw [accepting]
  rfl

/-- The open connections of all relays, relay by relay. -/
theorem total_connected (s : ServerState) (n : Nat) :
    tally s.connected (List.range n) =
      s.tasks.countP fun t => decide (t.relay < n) && t.live :=
  tally_countP_range Task.relay Task.live s.tasks n

/-- The limits leave room for one more at `relay`. -/
theorem Calm.room {s : ServerState} (reached : (machine settings).Reachable s) (calm : s.Calm)
    {relay : Nat} (usable : ∀ l ∈ admission relay, settings.limit l ≠ some 0)
    (own : ∀ n, settings.limit (.perRelayLimit relay) = some n → s.connected relay < n)
    (all : ∀ n, settings.limit .globalLimit = some n →
      tally s.connected (List.range settings.relays.length) < n) :
    ∀ l ∈ admission relay, settings.limit l ≠ none → 0 < s.free l := by
  intro l member limited
  obtain ⟨permits, limited⟩ := Option.ne_none_iff_exists'.mp limited
  have conserved := limit_conserved reached limited
  have hands := calm.inHands l
  have tasks := calm.inTasks_le reached l
  have pos : permits ≠ 0 := fun zero => usable l member (zero ▸ limited)
  have alive : ∀ t ∈ s.tasks, t.live = true := fun t inside => (calm.transferring t inside).1
  simp only [admission, List.mem_cons, List.not_mem_nil, or_false] at member
  rcases member with rfl | rfl | rfl | rfl
  · have room := all permits limited
    have whole : (s.tasks.countP fun t => decide (Limit.globalLimit ∈ outer t.relay)) =
        tally s.connected (List.range settings.relays.length) := by
      rw [total_connected]
      refine List.countP_congr fun t inside => ?_
      obtain ⟨spec, given⟩ := configured reached t inside
      have bound := (List.getElem?_eq_some_iff.mp given).1
      simp only [outer, alive t inside, bound, decide_true, Bool.and_true, List.mem_cons, true_or]
    omega
  · have room := own permits limited
    have mine : (s.tasks.countP fun t => decide (Limit.perRelayLimit relay ∈ outer t.relay)) =
        s.connected relay := by
      refine List.countP_congr fun t inside => ?_
      simp only [outer, Task.boundBy, alive t inside, decide_eq_true_eq, List.mem_cons,
        reduceCtorEq, false_or, Limit.perRelayLimit.injEq, List.not_mem_nil, or_false,
        Bool.and_true, beq_iff_eq]
      exact eq_comm
    omega
  · have none_ : (s.tasks.countP fun t => decide (Limit.globalConnecting ∈ outer t.relay)) = 0 :=
      List.countP_eq_zero.mpr fun t _ => by simp [outer]
    omega
  · have none_ : (s.tasks.countP fun t => decide (Limit.perRelayConnecting relay ∈ outer t.relay)) = 0 :=
      List.countP_eq_zero.mpr fun t _ => by simp [outer]
    omega

theorem connected_joined {s₀ s : ServerState} {task : Task} (joined : Joined s₀ task s)
    (live : task.live = true) (r : Nat) :
    s.connected r = s₀.connected r + if task.relay = r then 1 else 0 := by
  rw [connected, connected, joined.tasks, List.countP_append, List.countP_singleton]
  simp only [Task.boundBy, live, Bool.and_true, beq_iff_eq]

/-- One more connection at `relay`, from its client to its transfer. -/
theorem admitted {s : ServerState} (reached : (machine settings).Reachable s) (calm : s.Calm)
    {relay : Nat} (served : relay < settings.relays.length)
    (room : ∀ l ∈ admission relay, settings.limit l ≠ none → 0 < s.free l) :
    ∃ t, (machine settings).Reachable t ∧ t.Calm ∧
      ∀ r, t.connected r = s.connected r + if relay = r then 1 else 0 := by
  have inside : relay < s.relays.length := by rwa [relays_length reached]
  have waits : s.listenerAt relay = some .accepting := by
    have some_ : s.listenerAt relay = some s.relays[relay].listener := by
      rw [listenerAt, List.getElem?_eq_getElem inside]
      rfl
    rw [some_, calm.accepting relay _ some_]
  obtain ⟨t₁, held, leads₁, since, all⟩ := spawning_of_accept waits calm.running room
  obtain ⟨t₂, leads₂, joined⟩ := since.spawn waits
  have reached₂ := (reached.leads leads₁).leads leads₂
  have member : (⟨relay, held, .connecting, none⟩ : Task) ∈ t₂.tasks := by
    rw [joined.tasks]
    exact List.mem_append_right _ List.mem_cons_self
  have distinct := ((reachable_ok reached₂).tasks _ member).1
  obtain ⟨t₃, kept, forward, leads₃, joined, outer⟩ :=
    transferring_of_connecting (List.getElem?_eq_getElem served) distinct all joined
  refine ⟨t₃, reached₂.leads leads₃, ⟨joined.running, ?_, ?_⟩, connected_joined joined rfl⟩
  · intro r listener here
    exact calm.accepting r listener ((joined.listeners r).symm.trans here)
  · intro t inside
    rw [joined.tasks] at inside
    rcases List.mem_append.mp inside with old | new
    · exact calm.transferring t old
    · obtain rfl := List.mem_singleton.mp new
      exact ⟨rfl, outer⟩

/-! ## What is reached -/

/-- A number of connections for each relay that the limits allow. -/
structure Fits (settings : Settings) (f : Nat → Nat) : Prop where
  served : ∀ r, settings.relays.length ≤ r → f r = 0
  own : ∀ r n, settings.limit (.perRelayLimit r) = some n → f r ≤ n
  all : ∀ n, settings.limit .globalLimit = some n →
    tally f (List.range settings.relays.length) ≤ n

theorem fits_connected {s : ServerState} (reached : (machine settings).Reachable s) :
    Fits settings s.connected := by
  refine ⟨fun r beyond => ?_, fun r n limited => boundBy_le reached limited, fun n limited => ?_⟩
  · refine List.countP_eq_zero.mpr fun t member => ?_
    obtain ⟨spec, given⟩ := configured reached t member
    have bound := (List.getElem?_eq_some_iff.mp given).1
    have other : t.relay ≠ r := by omega
    simp only [Task.boundBy, Bool.and_eq_true, beq_iff_eq, other, false_and, not_false_eq_true]
  · rw [total_connected]
    refine Nat.le_trans (List.countP_mono_left fun t _ both => ?_)
      (boundBy_le (l := .globalLimit) reached limited)
    exact (Bool.and_eq_true_iff.mp both).2

theorem start_calm : (start settings).Calm := by
  refine ⟨rfl, fun r listener here => ?_, fun t member => absurd member List.not_mem_nil⟩
  obtain ⟨b, found, rfl⟩ := Option.map_eq_some_iff.mp here
  obtain ⟨spec, -, rfl⟩ := List.mem_map.mp (List.mem_of_getElem? found)
  rfl

/-- Every distribution that fits is reached, one connection after the other. -/
theorem calm_of_fits (usable : ∀ relay, ∀ l ∈ admission relay, settings.limit l ≠ some 0) (total : Nat) :
    ∀ f, Fits settings f → tally f (List.range settings.relays.length) = total →
      ∃ s, (machine settings).Reachable s ∧ s.Calm ∧ ∀ r, s.connected r = f r := by
  induction total with
  | zero =>
      intro f fits none_
      refine ⟨start settings, .start rfl, start_calm, fun r => ?_⟩
      by_cases served : r < settings.relays.length
      · exact ((tally_eq_zero_iff f _).mp none_ r (List.mem_range.mpr served)).symm
      · exact (fits.served r (Nat.not_lt.mp served)).symm
  | succ total ih =>
      intro f fits some_
      have more : 0 < tally f (List.range settings.relays.length) := by omega
      obtain ⟨relay, member, pos⟩ := exists_pos_of_tally_pos more
      have served := List.mem_range.mp member
      -- the same with one connection less at `relay`
      obtain ⟨g, split⟩ : ∃ g : Nat → Nat, ∀ r, f r = g r + if relay = r then 1 else 0 := by
        refine ⟨fun r => f r - if relay = r then 1 else 0, fun r => ?_⟩
        dsimp only
        split
        · rename_i same
          subst same
          omega
        · rfl
      have less : ∀ r, g r ≤ f r := fun r => by rw [split r]; exact Nat.le_add_right _ _
      have sum : tally f (List.range settings.relays.length) =
          tally g (List.range settings.relays.length) + 1 := by
        have one := tally_range_ite relay settings.relays.length 1
        rw [if_pos served] at one
        rw [funext split, tally_add, one]
      have rest : tally g (List.range settings.relays.length) = total := by omega
      have fewer : Fits settings g := by
        refine ⟨fun r beyond => ?_, fun r n limited => ?_, fun n limited => ?_⟩
        · exact Nat.le_zero.mp (fits.served r beyond ▸ less r)
        · exact Nat.le_trans (less r) (fits.own r n limited)
        · have bound := fits.all n limited
          omega
      obtain ⟨s, reached, calm, same⟩ := ih g fewer rest
      have counts : s.connected = g := funext same
      have room := calm.room reached (usable relay)
        (fun n limited => by
          have bound := fits.own relay n limited
          rw [split relay, if_pos rfl] at bound
          rw [counts]
          omega)
        (fun n limited => by
          have bound := fits.all n limited
          rw [counts]
          omega)
      obtain ⟨t, after, calm, one⟩ := admitted reached calm served room
      exact ⟨t, after, calm, fun r => by rw [one r, same r, split r]⟩

/-- With no limit of zero, the numbers of open connections that the relays can have at one
time are those within the limits, all of them. -/
theorem capacity_exact (usable : ∀ relay, ∀ l ∈ admission relay, settings.limit l ≠ some 0)
    (f : Nat → Nat) :
    (∃ s, (machine settings).Reachable s ∧ ∀ r, s.connected r = f r) ↔ Fits settings f := by
  constructor
  · rintro ⟨s, reached, same⟩
    exact funext same ▸ fits_connected reached
  · intro fits
    obtain ⟨s, reached, -, same⟩ := calm_of_fits usable _ f fits rfl
    exact ⟨s, reached, same⟩

/-- The two connections that two relays share, one at each. -/
theorem capacity_exact_shared :
    ∃ s, (machine twoRelays).Reachable s ∧ ∀ r, s.connected r = if r < 2 then 1 else 0 := by
  have limits : ∀ r, twoRelays.limit (.perRelayLimit r) = (if r = 0 then some 1 else none) ∧
      twoRelays.limit (.perRelayConnecting r) = none := by
    intro r
    rcases r with _ | _ | r
    · exact ⟨rfl, rfl⟩
    · exact ⟨rfl, rfl⟩
    · exact ⟨rfl, rfl⟩
  have usable : ∀ relay, ∀ l ∈ admission relay, twoRelays.limit l ≠ some 0 := by
    intro relay l member
    simp only [admission, List.mem_cons, List.not_mem_nil, or_false] at member
    rcases member with rfl | rfl | rfl | rfl
    · decide
    · rw [(limits relay).1]
      split <;> decide
    · decide
    · rw [(limits relay).2]
      decide
  refine (capacity_exact usable fun r => if r < 2 then 1 else 0).mpr ⟨?_, ?_, ?_⟩
  · exact fun r beyond => if_neg (Nat.not_lt.mpr beyond)
  · intro r n limited
    rw [(limits r).1] at limited
    split at limited
    · obtain rfl := Option.some.inj limited
      split <;> decide
    · cases limited
  · intro n limited
    obtain rfl := Option.some.inj limited
    decide

end ServerState

end Portrelay.Server
