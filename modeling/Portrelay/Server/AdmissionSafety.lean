/-
# Server.AdmissionSafety -- limits hold, and no permit is lost

`Listener.Ok` and `Task.Ok` say which permits each party has in each phase: a listener
that has passed an acquire holds it, a connection inside `handle_connection` holds the
two outer permits, one inside the connect all four.  With the permits conserved, the
limits bound the connections (`admission_safe`), and a rejected connection leaves the
semaphores as it found them (`rejected_net`).  What a listener has in hand before it is
sure to admit is what others can be rejected for (`rejections_justified_iff`).
-/
import Mathlib.Data.List.Nodup
import Portrelay.Server.Permits

namespace Portrelay.Server

open Portrelay.Theory Portrelay.Relay Portrelay.Metrics

set_option autoImplicit false

/-- The permits a task keeps until its `handle_connection` has returned. -/
def outer (relay : Nat) : List Limit := [.globalLimit, .perRelayLimit relay]

/-- Every configured limit of the list is held. -/
def Holds (settings : Settings) (limits held : List Limit) : Prop :=
  ∀ l ∈ limits, settings.limit l ≠ none → l ∈ held

/-- The permits a listener has, phase by phase. -/
def Listener.Ok (settings : Settings) (relay : Nat) (listener : Listener) : Prop :=
  listener.held.Nodup ∧
    match listener with
    | .acquiring rest held =>
        (held.reverse ++ rest).Sublist (admission relay) ∧
          ∀ l ∈ admission relay, settings.limit l ≠ none → l ∈ held ∨ l ∈ rest
    | .counting _ held => Holds settings (admission relay) held
    | .spawning held => Holds settings (admission relay) held
    | _ => True

/-- The permits a task has, phase by phase, and what its last updates can be. -/
def Task.Ok (settings : Settings) (t : Task) : Prop :=
  t.held.Nodup ∧
    match t.phase with
    | .connecting => Holds settings (admission t.relay) t.held
    | .releasing rest => Holds settings (outer t.relay) t.held ∧ ∀ l ∈ rest, l ∉ outer t.relay
    | .transferring forward => Holds settings (outer t.relay) t.held ∧ forward.Valid
    | .closing updates => Holds settings (outer t.relay) t.held ∧ ∀ u ∈ updates, u.Closing
    | .returning => True

theorem admission_nodup (relay : Nat) : (admission relay).Nodup := by
  simp [admission]

theorem Holds.outer {settings : Settings} {relay : Nat} {held : List Limit}
    (all : Holds settings (admission relay) held) : Holds settings (outer relay) held := by
  intro l member
  refine all l ?_
  simp only [Server.outer, List.mem_cons, List.not_mem_nil, or_false] at member
  rcases member with rfl | rfl <;> simp [admission]

section

variable {settings : Settings} {relay : Nat} {free : Limit → Nat} {shutdown force : Bool}

theorem Listener.Stepped.ok {listener after : Listener} {event : ListenerEvent} {effect : Effect}
    (ok : listener.Ok settings relay)
    (moved : Stepped settings relay free shutdown force listener event after effect) :
    after.Ok settings relay := by
  cases moved with
  | begun running =>
      exact ⟨List.nodup_nil, List.Sublist.refl _, fun l member _ => Or.inr member⟩
  | @unlimited limit rest held open_ =>
      obtain ⟨nodup, sub, covered⟩ := ok
      refine ⟨nodup, (List.Sublist.append_left (List.sublist_cons_self limit rest) _).trans sub, ?_⟩
      intro l member limited
      rcases covered l member limited with has | next
      · exact Or.inl has
      · rcases List.mem_cons.mp next with rfl | later
        · exact absurd open_ limited
        · exact Or.inr later
  | @acquired limit rest held permits limited some_ =>
      obtain ⟨-, sub, covered⟩ := ok
      have split : (limit :: held).reverse ++ rest = held.reverse ++ limit :: rest := by simp
      have sub' : ((limit :: held).reverse ++ rest).Sublist (admission relay) := split ▸ sub
      have nodup := (List.nodup_append.mp (sub'.nodup (admission_nodup relay))).1
      refine ⟨List.nodup_reverse.mp nodup, sub', fun l member limited => ?_⟩
      rcases covered l member limited with has | next
      · exact Or.inl (List.mem_cons_of_mem _ has)
      · rcases List.mem_cons.mp next with rfl | later
        · exact Or.inl List.mem_cons_self
        · exact Or.inr later
  | refused limited exhausted => exact ⟨ok.1, trivial⟩
  | @allowed held =>
      obtain ⟨nodup, -, covered⟩ := ok
      refine ⟨nodup, fun l member limited => ?_⟩
      rcases covered l member limited with has | next
      · exact has
      · cases next
  | countedRefusal => exact ⟨ok.1, trivial⟩
  | refusalCounted => exact ⟨ok.1, trivial⟩
  | gaveBack => exact ⟨(List.nodup_cons.mp ok.1).2, trivial⟩
  | counted => exact ok
  | announced => exact ok
  | _ => exact ⟨List.nodup_nil, trivial⟩

theorem Listener.Stepped.of_spawn {listener after : Listener} {event : ListenerEvent}
    {held : List Limit}
    (moved : Stepped settings relay free shutdown force listener event after (.spawn held)) :
    listener = .spawning held ∧ event = .next ∧ after = .accepting := by
  cases moved with
  | spawned => exact ⟨rfl, rfl, rfl⟩

/-- What a task has in the phase it is in. -/
theorem Task.Ok.at_ {t : Task} (ok : t.Ok settings) {phase : Phase} (here : t.phase = phase) :
    ({ t with phase } : Task).Ok settings := by
  subst here
  exact ok

/-- Inside `handle_connection` the outer permits are held. -/
theorem Task.Ok.outer {t : Task} (ok : t.Ok settings) (live : t.phase ≠ .returning) :
    Holds settings (outer t.relay) t.held := by
  cases phase : t.phase with
  | connecting => exact (ok.at_ phase).2.outer
  | releasing rest => exact (ok.at_ phase).2.1
  | transferring forward => exact (ok.at_ phase).2.1
  | closing updates => exact (ok.at_ phase).2.1
  | returning => exact absurd phase live

theorem Task.Ok.close {t : Task} (ok : t.Ok settings) (live : t.phase ≠ .returning)
    {before : List MetricUpdate} (closing : ∀ u ∈ before, u.Closing) (elapsed : Nat)
    (ending : Ending) : (t.close before elapsed ending).1.Ok settings := by
  refine ⟨ok.1, ok.outer live, fun u member => ?_⟩
  rcases List.mem_append.mp member with early | late
  · exact closing u early
  · exact closed_closing _ _ _ u late

/-- Only listeners spawn. -/
theorem Task.Stepped.no_spawn {t after : Task} {event : TaskEvent} {effect : Effect}
    (moved : Stepped settings force t event after effect) (held : List Limit) :
    effect ≠ .spawn held := by
  rintro rfl
  cases moved

theorem Task.Stepped.ok {t after : Task} {event : TaskEvent} {effect : Effect} (ok : t.Ok settings)
    (moved : Stepped settings force t event after effect) : after.Ok settings := by
  have none : ∀ u ∈ ([] : List MetricUpdate), u.Closing :=
    fun u member => absurd member List.not_mem_nil
  cases moved with
  | connected phase =>
      obtain ⟨nodup, all⟩ := ok.at_ phase
      refine ⟨nodup, all.outer, fun l member => ?_⟩
      simp only [List.mem_cons, List.not_mem_nil, or_false] at member
      rcases member with rfl | rfl <;> simp [Server.outer]
  | connectEnded phase why =>
      refine ok.close (by rw [phase]; simp) ?_ _ _
      rcases why with rfl | rfl | rfl
      · exact none
      · simp [RelayMetrics.upstreamFailure, MetricUpdate.Closing]
      · simp [RelayMetrics.upstreamTimeout, MetricUpdate.Closing]
  | cutOff phase forced running => exact ok.close (by rw [phase]; simp) none _ _
  | forwarded phase moved =>
      obtain ⟨nodup, outer, valid⟩ := ok.at_ phase
      exact ⟨nodup, outer, Forward.step_valid valid moved⟩
  | finished phase returned => exact ok.close (by rw [phase]; simp) none _ _
  | failed phase failure why =>
      refine ok.close (by rw [phase]; simp) ?_ _ _
      rcases why with rfl | rfl
      · exact none
      · simp [RelayMetrics.idleTimeout, MetricUpdate.Closing]
  | @gaveBackEarly limit rest phase member =>
      obtain ⟨nodup, outer, early⟩ := ok.at_ phase
      refine ⟨nodup.erase _, fun l member' limited => ?_,
        fun l member' => early l (List.mem_cons_of_mem _ member')⟩
      -- an early release is never one of the outer permits
      have other : l ≠ limit := fun same => early limit List.mem_cons_self (same ▸ member')
      exact (List.mem_erase_of_ne other).mpr (outer l member' limited)
  | unlimited phase without =>
      obtain ⟨nodup, outer, early⟩ := ok.at_ phase
      exact ⟨nodup, outer, fun l member => early l (List.mem_cons_of_mem _ member)⟩
  | started phase configured =>
      exact ⟨ok.1, (ok.at_ phase).2.1, Forward.start_valid _ _⟩
  | counted phase =>
      obtain ⟨nodup, outer, closing⟩ := ok.at_ phase
      exact ⟨nodup, outer, fun u member => closing u (List.mem_cons_of_mem _ member)⟩
  | returned phase => exact ⟨ok.1, trivial⟩
  | gaveBack phase last =>
      refine ⟨(List.nodup_cons.mp (last ▸ ok.1)).2, ?_⟩
      simp only [phase]

end

namespace ServerState

variable {settings : Settings}

structure Ok (settings : Settings) (s : ServerState) : Prop where
  relays : ∀ relay (b : BoundRelay), s.relays[relay]? = some b → b.listener.Ok settings relay
  tasks : ∀ t ∈ s.tasks, t.Ok settings

/-- An effect leaves the listeners where they are. -/
theorem perform_listener {s : ServerState} {relay r : Nat} {effect : Effect} {b : BoundRelay}
    (found : (s.perform relay effect).relays[r]? = some b) :
    ∃ b', s.relays[r]? = some b' ∧ b.listener = b'.listener := by
  rw [perform_relay] at found
  obtain ⟨b', found', rfl⟩ := Option.map_eq_some_iff.mp found
  refine ⟨b', found', ?_⟩
  split
  · cases effect <;> rfl
  · rfl

/-- An effect adds a task or none. -/
theorem perform_tasks (s : ServerState) (relay : Nat) (effect : Effect) :
    (s.perform relay effect).tasks = s.tasks ∨
      ∃ held, effect = .spawn held ∧
        (s.perform relay effect).tasks = s.tasks ++ [⟨relay, held, .connecting, none⟩] := by
  cases effect with
  | spawn held => exact Or.inr ⟨held, rfl, rfl⟩
  | _ => exact Or.inl rfl

/-- What holds of every task a listener spawns and is kept by a task's own steps. -/
theorem step_tasks {P : Task → Prop} {s t : ServerState} {label : ServerLabel}
    (stepped : step settings s label = some t) (before : ∀ u ∈ s.tasks, P u)
    (spawned : ∀ relay held b, s.relays[relay]? = some b → b.listener = .spawning held →
      P ⟨relay, held, .connecting, none⟩)
    (kept : ∀ index event u after effect, label = .task index event → s.tasks[index]? = some u →
      Task.Stepped settings s.force u event after effect → P after) :
    ∀ u ∈ t.tasks, P u := by
  intro u member
  cases step_stepped stepped with
  | cancelled => exact before u member
  | forced => exact before u member
  | @listener relay event b after effect found moved =>
      rcases perform_tasks _ relay effect with same | ⟨held, rfl, same⟩
      · rw [same] at member
        exact before u member
      · rw [same] at member
        rcases List.mem_append.mp member with old | new
        · exact before u old
        · rw [List.mem_singleton.mp new]
          exact spawned relay held b found moved.of_spawn.1
  | @task index event u' after effect found moved =>
      rcases perform_tasks _ u'.relay effect with same | ⟨held, spawns, -⟩
      · rw [same] at member
        rcases List.mem_or_eq_of_mem_set member with old | rfl
        · exact before u old
        · exact kept index event u' u effect rfl found moved
      · exact absurd spawns (moved.no_spawn held)

theorem step_ok {s t : ServerState} {label : ServerLabel} (ok : s.Ok settings)
    (stepped : step settings s label = some t) : t.Ok settings := by
  refine ⟨fun r b' found' => ?_, step_tasks stepped ok.tasks ?_ ?_⟩
  · cases step_stepped stepped with
    | cancelled => exact ok.relays r b' found'
    | forced => exact ok.relays r b' found'
    | @listener relay event b after effect found moved =>
        obtain ⟨b'', found'', same⟩ := perform_listener found'
        rw [same]
        simp only [List.getElem?_set] at found''
        split at found''
        · rename_i here
          subst here
          split at found'' <;> cases found''
          exact moved.ok (ok.relays relay b found)
        · exact ok.relays r b'' found''
    | @task index event u after effect found moved =>
        obtain ⟨b'', found'', same⟩ := perform_listener found'
        rw [same]
        exact ok.relays r b'' found''
  · intro relay held b found spawning
    have holds := ok.relays relay b found
    rw [spawning] at holds
    exact holds
  · intro index event u after effect _ found moved
    exact moved.ok (ok.tasks u (List.mem_of_getElem? found))

theorem reachable_ok {s : ServerState} (reached : (machine settings).Reachable s) : s.Ok settings := by
  induction reached with
  | start initial =>
      obtain rfl := initial
      constructor
      · intro relay b found
        obtain ⟨spec, -, rfl⟩ := List.mem_map.mp (List.mem_of_getElem? found)
        exact ⟨List.nodup_nil, trivial⟩
      · intro t member
        cases member
  | step before stepped ih => exact step_ok ih stepped

/-! ## A rejected connection -/

/-- A listener's permits in hand. -/
def inHand (s : ServerState) (relay : Nat) (l : Limit) : Nat :=
  match s.relays[relay]? with
  | some b => b.listener.held.count l
  | none => 0

/-- Relay `relay`'s listener hands a connection to a task in this step. -/
def Spawns (relay : Nat) (s : ServerState) : ServerLabel → Prop
  | .listener r .next =>
      r = relay ∧ ∃ b held, s.relays[relay]? = some b ∧ b.listener = .spawning held
  | _ => False

/-- What a step does to the free permits of `l`, if it is one of relay `relay`'s listener. -/
def ownChange (relay : Nat) (l : Limit) (s : ServerState) (label : ServerLabel)
    (t : ServerState) : Int :=
  match label with
  | .listener r _ => if r = relay then (t.free l : Int) - s.free l else 0
  | _ => 0

theorem perform_inHand (s : ServerState) (relay r : Nat) (effect : Effect) (l : Limit) :
    (s.perform relay effect).inHand r l = s.inHand r l := by
  simp only [inHand, perform_relay]
  cases s.relays[r]? with
  | none => rfl
  | some b =>
      simp only [Option.map_some]
      split
      · cases effect <;> rfl
      · rfl

/-- What a listener takes from a semaphore it has in hand, unless it spawns a task. -/
theorem step_ownChange {s t : ServerState} {label : ServerLabel}
    (stepped : step settings s label = some t) {relay : Nat} (keeps : ¬ Spawns relay s label)
    (l : Limit) :
    ownChange relay l s label t = -(t.inHand relay l : Int) - -(s.inHand relay l : Int) := by
  cases step_stepped stepped with
  | cancelled => exact (Int.sub_self _).symm
  | forced => exact (Int.sub_self _).symm
  | @task index event t after effect found moved =>
      rw [perform_inHand]
      exact (Int.sub_self _).symm
  | @listener r event b after effect found moved =>
      rw [perform_inHand]
      by_cases own : r = relay
      · subst own
        have handed : effect.handed l = 0 := by
          cases effect with
          | spawn held =>
              obtain ⟨spawning, rfl, -⟩ := moved.of_spawn
              exact absurd ⟨rfl, b, held, found, spawning⟩ keeps
          | _ => rfl
        have held := moved.held l
        have semaphore := perform_free
          { s with relays := s.relays.set r { b with listener := after } } r effect l
          (moved.acquired_le l)
        have inside : r < s.relays.length := (List.getElem?_eq_some_iff.mp found).1
        simp only [ownChange, inHand, if_true, found, List.getElem?_set, inside]
        simp only at semaphore ⊢
        omega
      · simp only [ownChange, inHand, if_neg own, List.getElem?_set_ne own]
        omega

end ServerState

/-! ## The limits -/

namespace Task

/-- `handle_connection` has not returned. -/
def live (t : Task) : Bool :=
  match t.phase with
  | .returning => false
  | _ => true

/-- The task is inside `target_resolver.connect()`. -/
def connecting (t : Task) : Bool :=
  match t.phase with
  | .connecting => true
  | _ => false

/-- The connections that a limit is there to bound. -/
def boundBy (l : Limit) (t : Task) : Bool :=
  match l with
  | .globalLimit => t.live
  | .perRelayLimit relay => t.relay == relay && t.live
  | .globalConnecting => t.connecting
  | .perRelayConnecting relay => t.relay == relay && t.connecting

/-- The task is over: it has returned and no step is left for it. -/
def Ended (settings : Settings) (t : Task) : Prop :=
  t.phase = .returning ∧ ∀ force event, t.step settings force event = none

theorem Ended.held {settings : Settings} {t : Task} (ended : t.Ended settings) : t.held = [] := by
  obtain ⟨returned, stuck⟩ := ended
  have next := stuck false .next
  simp only [step, returned] at next
  split at next
  · cases next
  · assumption

theorem Ok.boundBy {settings : Settings} {t : Task} (ok : t.Ok settings) {l : Limit}
    (limited : settings.limit l ≠ none) (bound : t.boundBy l = true) : l ∈ t.held := by
  have inside : t.live = true → t.phase ≠ .returning := by
    intro live returned
    simp only [Task.live, returned] at live
    cases live
  have all : t.connecting = true → Holds settings (admission t.relay) t.held := by
    intro connecting
    simp only [Task.connecting] at connecting
    split at connecting
    · exact (ok.at_ ‹_›).2
    · cases connecting
  cases l with
  | globalLimit => exact ok.outer (inside bound) _ (by simp [Server.outer]) limited
  | perRelayLimit relay =>
      simp only [Task.boundBy, Bool.and_eq_true, beq_iff_eq] at bound
      obtain ⟨rfl, live⟩ := bound
      exact ok.outer (inside live) _ (by simp [Server.outer]) limited
  | globalConnecting => exact all bound _ (by simp [admission]) limited
  | perRelayConnecting relay =>
      simp only [Task.boundBy, Bool.and_eq_true, beq_iff_eq] at bound
      obtain ⟨rfl, connecting⟩ := bound
      exact all connecting _ (by simp [admission]) limited

end Task

/-- The listener has begun to acquire permits and has not handed them over or back. -/
def Listener.admitting : Listener → Bool
  | .acquiring _ _ => true
  | .refusing _ _ => true
  | .rollingBack _ => true
  | .counting _ _ => true
  | .spawning _ => true
  | _ => false

theorem Listener.held_of_not_admitting {listener : Listener} (idle : listener.admitting = false) :
    listener.held = [] := by
  cases listener <;> first | rfl | cases idle

namespace ServerState

variable {settings : Settings}

/-- Where relay `relay`'s listener is. -/
def listenerAt (s : ServerState) (relay : Nat) : Option Listener :=
  s.relays[relay]?.map BoundRelay.listener

theorem limit_conserved {s : ServerState} (reached : (machine settings).Reachable s) {l : Limit}
    {permits : Nat} (limited : settings.limit l = some permits) :
    s.free l + s.inHands l + s.inTasks l = permits := by
  rw [permits_conserved reached, limited, Option.getD_some]

theorem boundBy_le {s : ServerState} (reached : (machine settings).Reachable s) {l : Limit}
    {permits : Nat} (limited : settings.limit l = some permits) :
    s.tasks.countP (Task.boundBy l) ≤ permits := by
  have conserved := limit_conserved reached limited
  have held : s.tasks.countP (Task.boundBy l) ≤ s.inTasks l := by
    refine countP_le_tally fun t member bound => List.count_pos_iff.mpr ?_
    exact ((reachable_ok reached).tasks t member).boundBy (by rw [limited]; simp) bound
  omega

/-- From the check after its `accept` until it accepts again, a listener that spawns no
task gives back what it takes. -/
theorem rejected_net {s t : ServerState} {relay : Nat} {labels : List ServerLabel}
    (checking : s.listenerAt relay = some .checking)
    (accepting : t.listenerAt relay = some .accepting)
    (ran : (machine settings).exec s labels = some t)
    (rejected : (machine settings).Guarded (fun s label => ¬ Spawns relay s label) s labels)
    (l : Limit) : (machine settings).sumAlong (ownChange relay l) s labels = 0 := by
  have empty : ∀ {s : ServerState} {listener : Listener}, s.listenerAt relay = some listener →
      listener.held = [] → s.inHand relay l = 0 := by
    intro s listener found none
    obtain ⟨b, at_, rfl⟩ := Option.map_eq_some_iff.mp found
    simp only [inHand, at_, none, List.count_nil]
  have whole := (machine settings).sumAlong_eq_sub (fun _ _ _ _ _ => trivial)
    (fun s label t (_ : True) stepped keeps => step_ownChange stepped keeps l) trivial rejected ran
  rw [whole, empty checking rfl, empty accepting rfl]
  rfl

theorem all_free {s : ServerState} (reached : (machine settings).Reachable s)
    (idle : ∀ b ∈ s.relays, b.listener.admitting = false) (done : ∀ t ∈ s.tasks, t.Ended settings)
    {l : Limit} {permits : Nat} (limited : settings.limit l = some permits) :
    s.free l = permits := by
  have conserved := limit_conserved reached limited
  have hands : s.inHands l = 0 := (tally_eq_zero_iff _ _).mpr fun b member => by
    rw [Listener.held_of_not_admitting (idle b member), List.count_nil]
  have tasks : s.inTasks l = 0 := (tally_eq_zero_iff _ _).mpr fun t member => by
    rw [(done t member).held, List.count_nil]
  omega

/-- In every reachable state each semaphore's permits add up to its limit and the
limits bound the connections; a rejected connection has no net effect on any
semaphore; and with no connection and no admission every permit is free. -/
theorem admission_safe {s : ServerState} (reached : (machine settings).Reachable s) :
    (∀ l permits, settings.limit l = some permits →
      s.free l + s.inHands l + s.inTasks l = permits ∧
        s.tasks.countP (Task.boundBy l) ≤ permits) ∧
    (∀ relay labels t, s.listenerAt relay = some .checking →
      t.listenerAt relay = some .accepting → (machine settings).exec s labels = some t →
      (machine settings).Guarded (fun s label => ¬ Spawns relay s label) s labels →
      ∀ l, (machine settings).sumAlong (ownChange relay l) s labels = 0) ∧
    ((∀ b ∈ s.relays, b.listener.admitting = false) → (∀ t ∈ s.tasks, t.Ended settings) →
      ∀ l permits, settings.limit l = some permits → s.free l = permits) := by
  refine ⟨fun l permits limited => ⟨limit_conserved reached limited, boundBy_le reached limited⟩,
    ?_, ?_⟩
  · intro relay labels t checking accepting ran rejected l
    exact rejected_net checking accepting ran rejected l
  · intro idle done l permits limited
    exact all_free reached idle done limited

/-- Two relays that share two connections; the first may have one of them. -/
def twoRelays : Settings :=
  ⟨some 2, none, [⟨some 1, none, .auto, none⟩, ⟨none, none, .auto, none⟩]⟩

/-- The first relay has a connection and takes its next client as far as the global
permit; the second relay's client is before the global acquire. -/
def contended : List ServerLabel :=
  .listener 0 .accept :: List.replicate 10 (.listener 0 .next) ++
    [.listener 0 .accept, .listener 0 .next, .listener 0 .next, .listener 1 .accept,
      .listener 1 .next]

theorem admission_safe_contended :
    ∃ s, (machine twoRelays).exec (start twoRelays) contended = some s ∧
      s.free .globalLimit + s.inHands .globalLimit + s.inTasks .globalLimit = 2 ∧
      s.tasks.countP (Task.boundBy .globalLimit) ≤ 2 := by
  have reaches : ∃ s, (machine twoRelays).exec (start twoRelays) contended = some s := ⟨_, rfl⟩
  obtain ⟨s, ran⟩ := reaches
  have reached := ((machine twoRelays).reachable_iff_exec s).mpr ⟨_, contended, rfl, ran⟩
  exact ⟨s, ran, (admission_safe reached).1 .globalLimit 2 rfl⟩

/-! ## Spurious rejections -/

/-- An acquire of `l` fails in this step, and the client will be rejected. -/
def Rejects (settings : Settings) (l : Limit) (s : ServerState) (label : ServerLabel) : Prop :=
  ∃ relay rest held, label = .listener relay .next ∧
    s.listenerAt relay = some (.acquiring (l :: rest) held) ∧
    (Listener.acquiring (l :: rest) held).step settings relay s.free s.shutdown s.force .next =
      some (.refusing RelayMetrics.rejected held, .none)

/-- A failing acquire finds the whole limit in use by admitted connections. -/
def Justified (settings : Settings) (s : ServerState) (label : ServerLabel) : Prop :=
  ∀ l, Rejects settings l s label →
    settings.limit l = some (s.tasks.countP fun t => decide (l ∈ t.held))

/-- A failing acquire finds no listener that has a permit of that limit in hand. -/
def NoneInHand (settings : Settings) (s : ServerState) (label : ServerLabel) : Prop :=
  ∀ l, Rejects settings l s label → ∀ b ∈ s.relays, l ∉ b.listener.held

theorem Rejects.exhausted {l : Limit} {s : ServerState} {label : ServerLabel}
    (rejects : Rejects settings l s label) :
    (∃ permits, settings.limit l = some permits) ∧ s.free l = 0 := by
  obtain ⟨relay, rest, held, -, -, stepped⟩ := rejects
  simp only [Listener.step] at stepped
  split at stepped
  · cases stepped
  · rename_i permits limited
    split at stepped
    · exact ⟨⟨permits, limited⟩, ‹_›⟩
    · cases stepped

theorem justified_iff {s : ServerState} (reached : (machine settings).Reachable s)
    (label : ServerLabel) : Justified settings s label ↔ NoneInHand settings s label := by
  refine forall_congr' fun l => forall_congr' fun rejects => ?_
  obtain ⟨⟨permits, limited⟩, exhausted⟩ := rejects.exhausted
  have conserved := limit_conserved reached limited
  have tasks : s.tasks.countP (fun t => decide (l ∈ t.held)) = s.inTasks l := by
    refine countP_eq_tally fun t member => ?_
    rw [((reachable_ok reached).tasks t member).1.count]
    simp only [decide_eq_true_eq]
  have hands : s.inHands l = 0 ↔ ∀ b ∈ s.relays, l ∉ b.listener.held := by
    simp only [inHands, tally_eq_zero_iff, List.count_eq_zero]
  rw [← hands, limited, tasks, Option.some.injEq]
  omega

/-- In every run, every rejection finds the limit full of admitted connections iff none
comes while a listener has a permit of that limit in hand. -/
theorem rejections_justified_iff (settings : Settings) (labels : List ServerLabel) :
    (machine settings).Guarded (Justified settings) (start settings) labels ↔
      (machine settings).Guarded (NoneInHand settings) (start settings) labels :=
  (machine settings).guarded_iff_guarded (fun _ _ _ reached stepped => reached.step stepped)
    (fun _ label _ reached _ => justified_iff reached label) (.start rfl)

/-- The first relay's client, about to be rejected by that relay's own limit, has the
second relay's client rejected while one connection of two is live. -/
theorem rejected_while_free :
    ¬ (machine twoRelays).Guarded (Justified twoRelays) (start twoRelays)
        (contended ++ [.listener 1 .next]) ∧
      ∃ s, (machine twoRelays).exec (start twoRelays) contended = some s ∧
        Rejects twoRelays .globalLimit s (.listener 1 .next) ∧
        Rejects twoRelays (.perRelayLimit 0) s (.listener 0 .next) ∧
        s.tasks.countP Task.live = 1 := by
  have reaches :
      ∃ s, (machine twoRelays).exec (start twoRelays) contended = some s ∧
        Rejects twoRelays .globalLimit s (.listener 1 .next) ∧
        Rejects twoRelays (.perRelayLimit 0) s (.listener 0 .next) ∧
        s.tasks.countP Task.live = 1 ∧
        (s.tasks.countP fun t => decide (Limit.globalLimit ∈ t.held)) = 1 ∧
        ∃ t, (machine twoRelays).step s (.listener 1 .next) = some t :=
    ⟨_, rfl, ⟨1, _, _, rfl, rfl, rfl⟩, ⟨0, _, _, rfl, rfl, rfl⟩, rfl, rfl, _, rfl⟩
  obtain ⟨s, ran, second, first, live, held, t, stepped⟩ := reaches
  refine ⟨fun justified => ?_, s, ran, second, first, live⟩
  have full := justified.of_exec ran stepped .globalLimit second
  rw [held] at full
  cases full

end ServerState

end Portrelay.Server
