/-
# Config.RelayNames -- the names of the relays of a file

An entry without a name is named by its position, in the same namespace as the names that
are given; that the names differ is checked later, by `Settings::validate`.

* `names_distinct_iff` -- where the given names differ, all do and the check finds no
  duplicate, if and only if no entry is given the name of an unnamed one.
-/
import Portrelay.Config.FrontEnds
import Portrelay.Theory.Naming

namespace Portrelay.Config

open Portrelay.Theory
open Portrelay.Relay (ForwardMode)

set_option autoImplicit false

namespace FileConfig

/-- The names that are given, in the order of the entries. -/
def explicitNames (file : FileConfig) : List Text :=
  file.relay.filterMap fun relay => explicitName relay.name

/-- The names of the relays, in their order. -/
def relayNames (file : FileConfig) : List Text :=
  file.relay.mapIdx fun index relay => relayName index relay.name

end FileConfig

/-- `duplicate relay name {name:?}` -/
def duplicateName (name : Text) : ConfigError :=
  .invalid [.words "duplicate relay name ", .debug name]

/-- The relays of the file get names of their own, and the check does not take two for one. -/
structure FileConfig.NamesApart (file : FileConfig) : Prop where
  distinct : file.relayNames.Nodup
  nonblank : ∀ name ∈ file.relayNames, trim isWhitespace name ≠ []
  built : ∀ mode relays, relaysFromFile file.global mode 0 file.relay = .ok relays →
    relays.map RelaySpec.name = file.relayNames
  accepted : ∀ args name, settingsFromFile file args ≠ .error (duplicateName name)

/-! ## Generated names -/

theorem generatedName_injective : Function.Injective generatedName := by
  intro i j same
  have digits := List.append_cancel_left same
  have numbers := congrArg (Nat.ofDigitChars 10 · 0) digits
  simp only [Nat.ofDigitChars_ten_toDigits] at numbers
  omega

theorem relayName_nonblank (index : Nat) (name : Option Text) :
    trim isWhitespace (relayName index name) ≠ [] := by
  rw [relayName]
  cases given : explicitName name with
  | none => exact trim_ne_nil (show 'r' ∈ generatedName index from List.mem_cons_self) rfl
  | some value => exact of_decide_eq_true (Option.filter_eq_some_iff.mp given).2

/-- The names of the relays are the given ones, with generated names in the gaps. -/
theorem mapIdx_relayName (index : Nat) (tables : List RelayFileConfig) :
    (tables.mapIdx fun k table => relayName (index + k) table.name) =
      filled generatedName index (tables.map fun table => explicitName table.name) := by
  induction tables generalizing index with
  | nil => rfl
  | cons table rest ih =>
      have shift : (fun k (table : RelayFileConfig) => relayName (index + (k + 1)) table.name) =
          fun k table => relayName (index + 1 + k) table.name := by
        funext k table
        rw [Nat.add_comm k 1, ← Nat.add_assoc]
      rw [List.map_cons, filled, List.mapIdx_cons, shift, ih, Nat.add_zero, relayName]

theorem FileConfig.relayNames_eq (file : FileConfig) :
    file.relayNames =
      filled generatedName 0 (file.relay.map fun table => explicitName table.name) := by
  rw [← mapIdx_relayName, FileConfig.relayNames]
  simp only [Nat.zero_add]

/-- The loop over the tables gives these names. -/
theorem relaysFromFile_names {global : GlobalFileConfig} {mode : ForwardMode} {index : Nat}
    {tables : List RelayFileConfig} {relays : List RelaySpec}
    (built : relaysFromFile global mode index tables = .ok relays) :
    relays.map RelaySpec.name =
      filled generatedName index (tables.map fun table => explicitName table.name) := by
  induction tables generalizing index relays with
  | nil =>
      cases built
      rfl
  | cons table rest ih =>
      obtain ⟨spec, first, built⟩ := of_bind_ok built
      obtain ⟨specs, others, built⟩ := of_bind_ok built
      cases built
      obtain ⟨mode, -, first⟩ := of_bind_ok first
      obtain ⟨listen, -, first⟩ := of_bind_ok first
      obtain ⟨target, -, first⟩ := of_bind_ok first
      cases first
      rw [List.map_cons, ih others, List.map_cons, filled]
      rfl

/-! ## The other errors of a configuration -/

/-- An error of other words is not of a duplicate name. -/
theorem invalid_ne {α : Type} {words : String} (other : words ≠ "duplicate relay name ")
    (rest : Message) (name : Text) :
    (.error (.invalid (.words words :: rest)) : Except ConfigError α) ≠
      .error (duplicateName name) := by
  intro same
  apply other
  have messages := ConfigError.invalid.inj (Except.error.inj same)
  exact Piece.words.inj (List.cons.inj messages).1

theorem reject_ne {bad : Prop} [Decidable bad] {words : String}
    (other : words ≠ "duplicate relay name ") (rest : Message) (name : Text) :
    reject bad (.words words :: rest) ≠ .error (duplicateName name) := by
  unfold reject
  split
  · exact invalid_ne other rest name
  · exact ok_ne_error () _

/-- A test with other words before what follows. -/
theorem reject_then_ne {bad : Prop} [Decidable bad] {words : String}
    (other : words ≠ "duplicate relay name ") {rest : Message} {name : Text}
    {next : Except ConfigError Unit} (safe : next ≠ .error (duplicateName name)) :
    (do reject bad (.words words :: rest); next) ≠ .error (duplicateName name) :=
  bind_ne_error (reject_ne other rest name) fun _ => safe

theorem readForwardMode_ne (value name : Text) :
    readForwardMode value ≠ .error (duplicateName name) := by
  unfold readForwardMode
  extract_lets other
  split_ifs
  · exact ok_ne_error ForwardMode.auto _
  · exact ok_ne_error ForwardMode.tokio _
  · exact ok_ne_error ForwardMode.splice _
  · exact invalid_ne (by decide) _ name

theorem splitEndpoint_ne (value name : Text) :
    splitEndpoint value ≠ .error (duplicateName name) := by
  unfold splitEndpoint
  split
  · split
    · exact invalid_ne (by decide) _ name
    · split
      · exact ok_ne_error _ _
      · exact invalid_ne (by decide) _ name
  · split
    · exact invalid_ne (by decide) _ name
    · split
      · exact invalid_ne (by decide) _ name
      · exact ok_ne_error _ _

theorem hostOrAny_ne (host name : Text) (allowEmptyHost : Bool) :
    hostOrAny host allowEmptyHost ≠ .error (duplicateName name) := by
  unfold hostOrAny
  split_ifs
  · exact invalid_ne (by decide) _ name
  · exact ok_ne_error _ _
  · exact ok_ne_error host _

theorem parse_ne (allowEmptyHost allowPortZero : Bool) (name value : Text) :
    Endpoint.parse value allowEmptyHost allowPortZero ≠ .error (duplicateName name) := by
  unfold Endpoint.parse
  extract_lets trimmed
  split
  · exact invalid_ne (by decide) _ name
  apply bind_ne_error (splitEndpoint_ne _ _)
  intro parts
  apply bind_ne_error
  · cases parseU16 parts.2 with
    | error stop => exact invalid_ne (by decide) _ name
    | ok port => exact ok_ne_error port _
  intro port
  split
  · exact invalid_ne (by decide) _ name
  apply bind_ne_error (hostOrAny_ne _ _ _)
  intro host
  split
  · exact invalid_ne (by decide) _ name
  · exact ok_ne_error _ _

theorem RelaySpec.validate_ne (relay : RelaySpec) (name : Text) :
    relay.validate ≠ .error (duplicateName name) := by
  unfold validate
  iterate 7 apply reject_then_ne (by decide)
  exact reject_ne (by decide) _ name

/-- The check of the relays finds no duplicate where the names differ. -/
theorem validateRelays_ne {names listeners : List Text} {relays : List RelaySpec}
    (new : ∀ relay ∈ relays, relay.name ∉ names) (apart : (relays.map RelaySpec.name).Nodup)
    (name : Text) : validateRelays names listeners relays ≠ .error (duplicateName name) := by
  induction relays generalizing names listeners with
  | nil => exact ok_ne_error () _
  | cons relay rest ih =>
      obtain ⟨other, apart⟩ := List.nodup_cons.mp apart
      unfold validateRelays
      apply reject_then_ne (by decide)
      apply bind_ne_error
      · rw [reject, if_neg (new relay List.mem_cons_self)]
        exact ok_ne_error () _
      intro _
      apply reject_then_ne (by decide)
      apply bind_ne_error (relay.validate_ne name)
      intro _
      apply ih _ apart
      intro later member taken
      rcases List.mem_cons.mp taken with same | taken
      · apply other
        rw [← same]
        exact List.mem_map_of_mem member
      · exact new later (List.mem_cons_of_mem _ member) taken

theorem Settings.validate_ne (settings : Settings)
    (apart : (settings.relays.map RelaySpec.name).Nodup) (name : Text) :
    settings.validate ≠ .error (duplicateName name) := by
  unfold validate
  iterate 9 apply reject_then_ne (by decide)
  exact validateRelays_ne (fun _ _ => List.not_mem_nil) apart name

theorem relayFromFile_ne (global : GlobalFileConfig) (mode : ForwardMode) (index : Nat)
    (table : RelayFileConfig) (name : Text) :
    relayFromFile global mode index table ≠ .error (duplicateName name) := by
  apply bind_ne_error (mapM_ne_error (readForwardMode_ne · name) _)
  intro mode
  apply bind_ne_error (parse_ne true true name _)
  intro listen
  apply bind_ne_error (parse_ne false false name _)
  intro target
  exact ok_ne_error _ _

theorem relaysFromFile_ne (global : GlobalFileConfig) (mode : ForwardMode) (index : Nat)
    (tables : List RelayFileConfig) (name : Text) :
    relaysFromFile global mode index tables ≠ .error (duplicateName name) := by
  induction tables generalizing index with
  | nil => exact ok_ne_error [] _
  | cons table rest ih =>
      apply bind_ne_error (relayFromFile_ne global mode index table name)
      intro spec
      apply bind_ne_error (ih (index + 1))
      intro specs
      exact ok_ne_error (spec :: specs) _

/-- A file whose relays get different names is not refused for a duplicate. -/
theorem settingsFromFile_ne {file : FileConfig} (apart : file.relayNames.Nodup) (args : ServeArgs)
    (name : Text) : settingsFromFile file args ≠ .error (duplicateName name) := by
  unfold settingsFromFile
  apply bind_ne_error (reject_ne (by decide) _ name)
  intro _
  apply bind_ne_error (mapM_ne_error (parse_ne true true name) _)
  intro overriding
  apply bind_ne_error (mapM_ne_error (parse_ne true true name) _)
  intro configured
  apply bind_ne_error (mapM_ne_error (readForwardMode_ne · name) _)
  intro mode
  apply bind_ne_error_of_ok (relaysFromFile_ne _ _ _ _ name)
  intro relays built
  apply bind_ne_error
  · apply Settings.validate_ne
    rw [relaysFromFile_names built, ← file.relayNames_eq]
    exact apart
  intro _
  exact ok_ne_error _ _

/-! ## When the names differ -/

/-- Where the given names differ, all names of the file do, none of them is blank and the
check finds no duplicate, if and only if no entry is given the name that is generated for
an entry without one. -/
theorem names_distinct_iff (file : FileConfig) (distinct : file.explicitNames.Nodup) :
    file.NamesApart ↔
      ∀ index entry, file.relay[index]? = some entry → explicitName entry.name = none →
        generatedName index ∉ file.explicitNames := by
  have explicit : ∀ name, some name ∈ (file.relay.map fun table => explicitName table.name) ↔
      name ∈ file.explicitNames := by
    intro name
    rw [FileConfig.explicitNames, List.mem_map, List.mem_filterMap]
  have given : (file.relay.map fun table => explicitName table.name).filterMap id =
      file.explicitNames := by
    rw [List.filterMap_map]
    rfl
  have apart : file.relayNames.Nodup ↔
      ∀ index entry, file.relay[index]? = some entry → explicitName entry.name = none →
        generatedName index ∉ file.explicitNames := by
    rw [file.relayNames_eq, nodup_filled_iff generatedName_injective (given ▸ distinct)]
    refine forall_congr' fun index => ?_
    rw [explicit, Nat.zero_add, List.getElem?_map, Option.map_eq_some_iff]
    exact ⟨fun gaps entry here gap => gaps ⟨entry, here, gap⟩,
      fun gaps ⟨entry, here, gap⟩ => gaps entry here gap⟩
  constructor
  · intro names
    exact apart.mp names.distinct
  · intro gaps
    have names := apart.mpr gaps
    refine ⟨names, ?_, ?_, settingsFromFile_ne names⟩
    · intro name member
      obtain ⟨index, inside, rfl⟩ := List.mem_mapIdx.mp member
      exact relayName_nonblank index _
    · intro mode relays built
      rw [relaysFromFile_names built, file.relayNames_eq]

/-- Two relays, from `:8080` and `:8081`, and nothing else. -/
def twoRelays (first second : Option Text) : FileConfig :=
  ⟨ServeArgs.none.globalTable ⟨false, false, false⟩,
    [.plain first ":8080".toList "db:5432".toList, .plain second ":8081".toList "db:5432".toList]⟩

theorem names_distinct_iff_unnamed :
    (twoRelays none (some "relay-2".toList)).NamesApart ↔
      ∀ index entry, (twoRelays none (some "relay-2".toList)).relay[index]? = some entry →
        explicitName entry.name = none →
          generatedName index ∉ (twoRelays none (some "relay-2".toList)).explicitNames :=
  names_distinct_iff (twoRelays none (some "relay-2".toList)) (by decide)

/-- An unnamed relay, and one with the name it is given. -/
theorem generated_name_taken :
    (twoRelays none (some "relay-1".toList)).explicitNames.Nodup ∧
      settingsFromFile (twoRelays none (some "relay-1".toList)) ServeArgs.none =
        .error (duplicateName "relay-1".toList) := by
  decide

end Portrelay.Config
