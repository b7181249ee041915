/-
# Server.ConnectionIds -- one counter for the connections of all relays

`next_connection_id.fetch_add` of every relay listener: between its last acquire and
`metrics.accepted()` a listener takes the next id, and hands it to the task that it spawns.
`Numbered` puts the counter and the ids beside the server.

* `ids_gapless` -- whatever the interleaving, the ids out are those counted from 1, each once,
  and one in `connection_log_sample_rate` of them is logged.
-/
import Mathlib.Data.List.Perm.Basic
import Mathlib.Data.List.ReduceOption
import Portrelay.Server.Accounting

namespace Portrelay.Server

open Portrelay.Theory Portrelay.Relay Portrelay.Metrics

set_option autoImplicit false

/-! ## The counter -/

/-- The values of an `AtomicU64`. -/
def ID_SPAN : Nat := 2 ^ 64

/-- `log_connection` of a connection. -/
def logConnection (sampleRate id : Nat) : Bool :=
  decide (sampleRate = 1) || decide (id % sampleRate = 0)

/-- The server with its connection ids. -/
structure Numbered where
  server : ServerState
  /-- `next_connection_id` -/
  next : Nat
  /-- `connection_id` of each relay's listener, from its `fetch_add` to its `spawn` -/
  hands : List (Option Nat)
  /-- of each connection task -/
  ids : List Nat

namespace Numbered

/-- What a step of the server does to the ids. -/
def number (s : Numbered) (server : ServerState) : ServerLabel → Numbered
  | .listener relay .next =>
      match s.server.listenerAt relay with
      | some (.acquiring [] _) =>
          { s with server, next := (s.next + 1) % ID_SPAN, hands := s.hands.set relay (some s.next) }
      | some (.spawning _) =>
          { s with server, hands := s.hands.set relay none,
                   ids := s.ids ++ (s.hands[relay]?.join).toList }
      | _ => { s with server }
  | _ => { s with server }

def step (settings : Settings) (s : Numbered) (label : ServerLabel) : Option Numbered :=
  (s.server.step settings label).map fun server => s.number server label

/-- Nothing is numbered before the first connection is, with 1. -/
def start (settings : Settings) : Numbered :=
  ⟨.start settings, 1, settings.relays.map fun _ => none, []⟩

def machine (settings : Settings) : Machine Numbered ServerLabel :=
  ⟨fun s => s = start settings, step settings⟩

/-- The ids that listeners are about to hand over. -/
def inHand (s : Numbered) : List Nat := s.hands.reduceOption

/-- The ids taken from the counter. -/
def issued (s : Numbered) : Nat := s.ids.length + s.inHand.length

end Numbered

/-- A listener that has taken an id and not yet handed it to a task. -/
def Listener.numbered : Listener → Bool
  | .counting _ _ => true
  | .spawning _ => true
  | _ => false

/-! ## Slots -/

/-- An empty slot that is filled adds its value to those of the list. -/
theorem reduceOption_set {α : Type} {slots : List (Option α)} {i : Nat} (a : α)
    (empty : slots[i]? = some none) :
    (slots.set i (some a)).reduceOption.Perm (a :: slots.reduceOption) := by
  induction slots generalizing i with
  | nil => simp at empty
  | cons slot slots ih =>
      cases i with
      | zero =>
          simp only [List.getElem?_cons_zero, Option.some.injEq] at empty
          subst empty
          simp
      | succ i =>
          simp only [List.getElem?_cons_succ] at empty
          cases slot with
          | none => simpa using ih empty
          | some b =>
              simp only [List.set_cons_succ, List.reduceOption_cons_of_some]
              exact ((ih empty).cons b).trans (List.Perm.swap a b _)

/-- A slot that is emptied takes its value from those of the list. -/
theorem reduceOption_clear {α : Type} {slots : List (Option α)} {i : Nat} {a : α}
    (filled : slots[i]? = some (some a)) :
    slots.reduceOption.Perm (a :: (slots.set i none).reduceOption) := by
  obtain ⟨inside, here⟩ := List.getElem?_eq_some_iff.mp filled
  have empty : (slots.set i none)[i]? = some none := List.getElem?_set_self inside
  have back : (slots.set i none).set i (some a) = slots := by
    rw [List.set_set, ← here, List.set_getElem_self]
  have filled' := reduceOption_set a empty
  rw [back] at filled'
  exact filled'

/-! ## What a step numbers -/

namespace Numbered

variable {settings : Settings}

/-- The relays whose listeners have an id in hand. -/
def holding (server : ServerState) (relay : Nat) : Option Bool :=
  (server.listenerAt relay).map Listener.numbered

/-- A step leaves the ids alone, takes one from the counter, or hands one to a new task. -/
inductive Stepped (s t : Numbered) : Prop
  | alone (next : t.next = s.next) (hands : t.hands = s.hands) (ids : t.ids = s.ids)
      (tasks : t.server.tasks.length = s.server.tasks.length)
      (holds : ∀ r, holding t.server r = holding s.server r)
  | took {relay : Nat} (before : holding s.server relay = some false)
      (next : t.next = (s.next + 1) % ID_SPAN) (hands : t.hands = s.hands.set relay (some s.next))
      (ids : t.ids = s.ids) (tasks : t.server.tasks.length = s.server.tasks.length)
      (holds : ∀ r, holding t.server r = if relay = r then some true else holding s.server r)
  | handed {relay : Nat} (before : holding s.server relay = some true)
      (next : t.next = s.next) (hands : t.hands = s.hands.set relay none)
      (ids : t.ids = s.ids ++ (s.hands[relay]?.join).toList)
      (tasks : t.server.tasks.length = s.server.tasks.length + 1)
      (holds : ∀ r, holding t.server r = if relay = r then some false else holding s.server r)

theorem holding_perform (s : ServerState) (relay : Nat) (effect : Effect) (r : Nat) :
    holding (s.perform relay effect) r = holding s r := by
  simp only [holding, ServerState.listenerAt, ServerState.perform_relay, Option.map_map]
  congr 1
  funext b
  simp only [Function.comp_apply]
  split
  · rw [BoundRelay.after_listener]
  · rfl

theorem holding_set {s : ServerState} {relay : Nat} {b : BoundRelay}
    (found : s.relays[relay]? = some b) (after : Listener) (r : Nat) :
    holding { s with relays := s.relays.set relay { b with listener := after } } r =
      if relay = r then some after.numbered else holding s r := by
  have inside := (List.getElem?_eq_some_iff.mp found).1
  simp only [holding, ServerState.listenerAt, List.getElem?_set]
  split
  · simp only [Option.map_some]
  · rfl

theorem listener_stepped {s : Numbered} {relay : Nat} {event : ListenerEvent} {b : BoundRelay}
    {after : Listener} {effect : Effect} (found : s.server.relays[relay]? = some b)
    (moved : Listener.Stepped settings relay s.server.free s.server.shutdown s.server.force
      b.listener event after effect) :
    s.Stepped (s.number ({ s.server with
      relays := s.server.relays.set relay { b with listener := after } }.perform relay effect)
        (.listener relay event)) := by
  have holds : ∀ r, holding ({ s.server with
      relays := s.server.relays.set relay { b with listener := after } }.perform relay effect) r =
        if relay = r then some after.numbered else holding s.server r := by
    intro r
    rw [holding_perform, holding_set found]
  have here : s.server.listenerAt relay = some b.listener := by
    rw [ServerState.listenerAt, found, Option.map_some]
  have had : holding s.server relay = some b.listener.numbered := by
    rw [holding, here, Option.map_some]
  obtain ⟨listener, metrics, taken, dropped⟩ := b
  simp only at moved here had
  have stays : after.numbered = listener.numbered → ∀ r, holding ({ s.server with
      relays := s.server.relays.set relay ⟨after, metrics, taken, dropped⟩ }.perform relay effect) r =
        holding s.server r := by
    intro same r
    rw [holds, same]
    split
    · rename_i own
      rw [← own, had]
    · rfl
  cases moved with
  | allowed =>
      simp only [number, here]
      exact .took had rfl rfl rfl rfl holds
  | spawned =>
      simp only [number, here]
      refine .handed had rfl rfl rfl ?_ holds
      simp only [ServerState.perform, List.length_append, List.length_singleton]
  | ended waits told =>
      rcases waits with rfl | rfl <;> cases event <;> simp only [number, here] <;>
        exact .alone rfl rfl rfl rfl (stays rfl)
  | _ =>
      simp only [number, here]
      exact .alone rfl rfl rfl rfl (stays rfl)

theorem step_stepped {s t : Numbered} {label : ServerLabel}
    (stepped : step settings s label = some t) : s.Stepped t := by
  obtain ⟨server, went, rfl⟩ := Option.map_eq_some_iff.mp stepped
  cases ServerState.step_stepped went with
  | cancelled => exact .alone rfl rfl rfl rfl fun _ => rfl
  | forced told => exact .alone rfl rfl rfl rfl fun _ => rfl
  | listener found moved => exact listener_stepped found moved
  | @task index event u after effect found moved =>
      refine .alone rfl rfl rfl ?_ ?_
      · rcases ServerState.perform_tasks { s.server with tasks := s.server.tasks.set index after }
          u.relay effect with same | ⟨held, spawns, -⟩
        · show (ServerState.perform _ u.relay effect).tasks.length = s.server.tasks.length
          rw [same, List.length_set]
        · exact absurd spawns (moved.no_spawn held)
      · intro r
        exact holding_perform _ u.relay effect r

/-! ## Every interleaving -/

/-- The ids out are the first of the counter, each once. -/
structure Inv (s : Numbered) : Prop where
  slots : ∀ r, s.hands[r]?.map Option.isSome = holding s.server r
  counted : s.next = (s.issued + 1) % ID_SPAN
  out : (s.ids ++ s.inHand).Perm ((List.range s.issued).map fun i => (i + 1) % ID_SPAN)
  tasks : s.ids.length = s.server.tasks.length

theorem start_inv : (start settings).Inv := by
  have none_ : (settings.relays.map fun _ => (none : Option Nat)).reduceOption = [] := by
    induction settings.relays with
    | nil => rfl
    | cons spec specs ih => exact ih
  refine ⟨?_, ?_, ?_, rfl⟩
  · intro r
    simp only [start, holding, ServerState.listenerAt, ServerState.start, List.getElem?_map,
      Option.map_map]
    rfl
  · rw [issued, inHand, start, none_]
    rfl
  · rw [issued, inHand, start, none_]
    exact List.Perm.refl []

theorem step_inv {s t : Numbered} {label : ServerLabel} (inv : s.Inv)
    (stepped : step settings s label = some t) : t.Inv := by
  cases step_stepped stepped with
  | alone next hands ids tasks holds =>
      have inHand : t.inHand = s.inHand := by rw [inHand, hands, inHand]
      have issued : t.issued = s.issued := by rw [Numbered.issued, ids, inHand, Numbered.issued]
      refine ⟨?_, ?_, ?_, ?_⟩
      · intro r
        rw [hands, holds]
        exact inv.slots r
      · rw [next, issued]
        exact inv.counted
      · rw [ids, inHand, issued]
        exact inv.out
      · rw [ids, tasks]
        exact inv.tasks
  | @took relay before next hands ids tasks holds =>
      have slot : s.hands[relay]? = some none := by
        have here := inv.slots relay
        rw [before] at here
        obtain ⟨slot, found, empty⟩ := Option.map_eq_some_iff.mp here
        cases slot with
        | none => exact found
        | some id => cases empty
      have more : t.inHand.Perm (s.next :: s.inHand) := by
        rw [inHand, hands]
        exact reduceOption_set s.next slot
      have issued : t.issued = s.issued + 1 := by
        rw [Numbered.issued, ids, more.length_eq, Numbered.issued, List.length_cons, Nat.add_assoc]
      refine ⟨?_, ?_, ?_, ?_⟩
      · intro r
        rw [hands, holds, List.getElem?_set]
        have inside := (List.getElem?_eq_some_iff.mp slot).1
        split
        · rfl
        · exact inv.slots r
      · rw [next, inv.counted, issued, Nat.mod_add_mod]
      · rw [ids, issued, List.range_succ, List.map_append, List.map_singleton, ← inv.counted]
        have tail := (more.append_left s.ids).trans List.perm_middle
        exact tail.trans ((inv.out.cons s.next).trans (List.perm_append_singleton _ _).symm)
      · rw [ids, tasks]
        exact inv.tasks
  | @handed relay before next hands ids tasks holds =>
      have slot : ∃ id, s.hands[relay]? = some (some id) := by
        have here := inv.slots relay
        rw [before] at here
        obtain ⟨slot, found, filled⟩ := Option.map_eq_some_iff.mp here
        obtain ⟨id, rfl⟩ := Option.isSome_iff_exists.mp filled
        exact ⟨id, found⟩
      obtain ⟨id, slot⟩ := slot
      have fewer : s.inHand.Perm (id :: t.inHand) := by
        rw [inHand, inHand, hands]
        exact reduceOption_clear slot
      have handed : t.ids = s.ids ++ [id] := by
        rw [ids, slot]
        rfl
      have issued : t.issued = s.issued := by
        rw [Numbered.issued, handed, Numbered.issued, fewer.length_eq, List.length_append,
          List.length_singleton, List.length_cons, Nat.add_assoc, Nat.add_comm 1]
      refine ⟨?_, ?_, ?_, ?_⟩
      · intro r
        rw [hands, holds, List.getElem?_set]
        have inside := (List.getElem?_eq_some_iff.mp slot).1
        split
        · rfl
        · exact inv.slots r
      · rw [next, issued]
        exact inv.counted
      · rw [handed, issued, List.append_assoc]
        exact (fewer.symm.append_left s.ids).trans inv.out
      · rw [handed, tasks, List.length_append, List.length_singleton, inv.tasks]

theorem reachable_inv {s : Numbered} (reached : (machine settings).Reachable s) : s.Inv := by
  refine (machine settings).invariant (P := Inv) ?_ ?_ reached
  · rintro s rfl
    exact start_inv
  · intro s label t _ inv stepped
    exact step_inv inv stepped

end Numbered

/-- Of the first ids, one in `sampleRate` is logged. -/
theorem countP_logConnection {sampleRate : Nat} (positive : 0 < sampleRate) (n : Nat) :
    ((List.range n).map (· + 1)).countP (logConnection sampleRate) = n / sampleRate := by
  induction n with
  | zero => rw [Nat.zero_div]; rfl
  | succ n ih =>
      have last : logConnection sampleRate (n + 1) = true ↔ sampleRate ∣ n + 1 := by
        simp only [logConnection, Bool.or_eq_true, decide_eq_true_eq, Nat.dvd_iff_mod_eq_zero]
        constructor
        · rintro (rfl | divides)
          · exact Nat.mod_one _
          · exact divides
        · exact Or.inr
      rw [List.range_succ, List.map_append, List.countP_append, ih, Nat.succ_div]
      simp only [List.map_singleton, List.countP_singleton, last]

namespace Numbered

variable {settings : Settings}

/-- However the listeners and the tasks of the relays interleave: every task has its id, the ids
out are those of a counter that starts at 1 and wraps, and up to the wrap they are distinct
and exactly one in `sampleRate` of them is logged. -/
theorem ids_gapless {s : Numbered} (reached : (machine settings).Reachable s) :
    s.ids.length = s.server.tasks.length ∧
    (s.ids ++ s.inHand).Perm ((List.range s.issued).map fun i => (i + 1) % 2 ^ 64) ∧
    (s.issued < 2 ^ 64 → (s.ids ++ s.inHand).Nodup ∧
      ∀ sampleRate, 0 < sampleRate →
        (s.ids ++ s.inHand).countP (logConnection sampleRate) = s.issued / sampleRate) := by
  have inv := reachable_inv reached
  refine ⟨inv.tasks, inv.out, ?_⟩
  intro unwrapped
  have plain : ((List.range s.issued).map fun i => (i + 1) % ID_SPAN) =
      (List.range s.issued).map (· + 1) := by
    refine List.map_congr_left ?_
    intro i member
    have below := List.mem_range.mp member
    exact Nat.mod_eq_of_lt (by unfold ID_SPAN; omega)
  have out := inv.out
  rw [plain] at out
  constructor
  · rw [out.nodup_iff]
    exact List.nodup_range.map (fun a b same => Nat.succ.inj same)
  · intro sampleRate positive
    rw [out.countP_eq, countP_logConnection positive]

/-- The second relay's client comes later and has its task first. -/
def overtaken : List ServerLabel :=
  .listener 0 .accept :: List.replicate 6 (.listener 0 .next) ++
    .listener 1 .accept :: List.replicate 10 (.listener 1 .next)

theorem ids_gapless_overtaken :
    ∃ s, (machine ServerState.twoRelays).exec (start ServerState.twoRelays) overtaken = some s ∧
      s.ids = [2] ∧ s.inHand = [1] ∧ (s.ids ++ s.inHand).countP (logConnection 2) = 1 := by
  have ran : ∃ s, (machine ServerState.twoRelays).exec (start ServerState.twoRelays) overtaken =
      some s ∧ s.ids = [2] ∧ s.inHand = [1] := ⟨_, rfl, rfl, rfl⟩
  obtain ⟨s, ran, ids, inHand⟩ := ran
  have reached := ((machine ServerState.twoRelays).reachable_iff_exec s).mpr ⟨_, _, rfl, ran⟩
  have issued : s.issued = 2 := by rw [Numbered.issued, ids, inHand]; rfl
  obtain ⟨-, -, sampled⟩ := ids_gapless reached
  refine ⟨s, ran, ids, inHand, ?_⟩
  rw [(sampled (by rw [issued]; decide)).2 2 (by decide), issued]

end Numbered

end Portrelay.Server
