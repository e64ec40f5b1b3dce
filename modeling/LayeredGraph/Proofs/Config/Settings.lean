import LayeredGraph.Config

/-! Configurations from what their documents set. A document may set any of the keys that the
configuration knows, in any order and among anything else: what it does not set stays as it is by
default, and what it says otherwise is passed over. -/
namespace LayeredGraph

open Toml Decode

theorem Decode.field_of_get? {α : Type} {fields : Fields} {key : String} {value : Data}
    (found : fields.get? key = some value) (fallback : α) (decode : Data → Option α) :
    field fields key fallback decode = decode value := by
  rw [field, found]

/-- What can be set in a table: the path of each setting, the paths of the tables that are known and
of the keys with values, and the values that each setting may be written as. -/
structure Schema (σ : Type) where
  path : σ → List String
  tables : List (List String)
  leaves : List (List String)
  WrittenAs : σ → Data → Prop

namespace Schema

variable {σ : Type} {schema : Schema σ} {fields : Fields} {settings : List σ}

/-- Nothing but a table stands where a table is known. -/
def KeepsTables (schema : Schema σ) (fields : Fields) : Prop :=
  ∀ path ∈ schema.tables, ∀ value, fields.at? path = some value →
    ∃ inner, value = .table inner

/-- Whatever some fields set that is known, in any order and among anything else, has a value that
fits. -/
structure Fits (schema : Schema σ) (fields : Fields) : Prop where
  tables : schema.KeepsTables fields
  leaves : ∀ path ∈ schema.leaves, ∀ value, fields.at? path = some value →
    ∃ setting, schema.path setting = path ∧ schema.WrittenAs setting value

/-- Some entries state just some settings of all that are known. -/
structure States (schema : Schema σ) (fields : Fields) (settings : List σ) : Prop where
  tables : schema.KeepsTables fields
  stated : ∀ setting ∈ settings, ∃ value,
    fields.at? (schema.path setting) = some value ∧ schema.WrittenAs setting value
  complete : ∀ path ∈ schema.leaves, fields.at? path ≠ none →
    ∃ setting ∈ settings, schema.path setting = path

theorem exists_stated {paths : List (List String)}
    (fits : ∀ path ∈ paths, ∀ value, fields.at? path = some value →
      ∃ setting, schema.path setting = path ∧ schema.WrittenAs setting value) :
    ∃ settings : List σ,
      (∀ setting ∈ settings, ∃ value,
        fields.at? (schema.path setting) = some value ∧ schema.WrittenAs setting value) ∧
      ∀ path ∈ paths, fields.at? path ≠ none →
        ∃ setting ∈ settings, schema.path setting = path := by
  induction paths with
  | nil => exact ⟨[], nofun, nofun⟩
  | cons path paths ih =>
    obtain ⟨settings, stated, complete⟩ := ih (List.forall_mem_cons.1 fits).2
    cases found : fields.at? path with
    | none =>
      exact ⟨settings, stated, List.forall_mem_cons.2 ⟨fun some => absurd found some, complete⟩⟩
    | some value =>
      obtain ⟨setting, rfl, written⟩ := fits path List.mem_cons_self value found
      refine ⟨setting :: settings, List.forall_mem_cons.2 ⟨⟨value, found, written⟩, stated⟩, ?_⟩
      refine List.forall_mem_cons.2 ⟨fun _ => ⟨setting, List.mem_cons_self, rfl⟩, ?_⟩
      intro other member some
      obtain ⟨chosen, held, same⟩ := complete other member some
      exact ⟨chosen, List.mem_cons_of_mem _ held, same⟩

/-- What is known and set amounts to some settings exactly if it fits. -/
theorem fits_iff : schema.Fits fields ↔ ∃ settings, schema.States fields settings := by
  constructor
  · intro fits
    obtain ⟨settings, stated, complete⟩ := exists_stated fits.leaves
    exact ⟨settings, fits.tables, stated, complete⟩
  · rintro ⟨settings, states⟩
    refine ⟨states.tables, fun path known value found => ?_⟩
    obtain ⟨setting, member, rfl⟩ := states.complete path known (found ▸ nofun)
    obtain ⟨other, same, written⟩ := states.stated setting member
    obtain rfl := Option.some.inj (found.symm.trans same)
    exact ⟨setting, rfl, written⟩

theorem States.table (states : schema.States fields settings) {key : String}
    (known : [key] ∈ schema.tables) (value : Data) (found : fields.get? key = some value) :
    ∃ inner, value = .table inner :=
  states.tables [key] known value (by rwa [Fields.at?_singleton])

/-- Settings are told in any order and as often as one likes. -/
theorem States.congr {others : List σ} (states : schema.States fields settings)
    (same : ∀ setting, setting ∈ others ↔ setting ∈ settings) : schema.States fields others := by
  refine ⟨states.tables, fun setting member => states.stated setting ((same setting).1 member), ?_⟩
  intro path known found
  obtain ⟨setting, member, here⟩ := states.complete path known found
  exact ⟨setting, (same setting).2 member, here⟩

section Field

variable {γ α : Type} {set : γ → σ → γ} {get : γ → α}

theorem foldl_eq_of_forall
    (kept : ∀ setting ∈ settings, ∀ config, get (set config setting) = get config) (base : γ) :
    get (settings.foldl set base) = get base := by
  induction settings generalizing base with
  | nil => rfl
  | cons setting settings ih =>
    rw [List.foldl_cons, ih fun other member => kept other (List.mem_cons_of_mem _ member)]
    exact kept setting List.mem_cons_self base

/-- A field that some of the settings touch, all of them to the same effect. -/
theorem foldl_eq_of_exists {touches : σ → Prop} {result : α}
    (own : ∀ setting ∈ settings, touches setting → ∀ config, get (set config setting) = result)
    (other : ∀ setting, ¬touches setting → ∀ config, get (set config setting) = get config)
    (base : γ) (some : (∃ setting ∈ settings, touches setting) ∨ get base = result) :
    get (settings.foldl set base) = result := by
  induction settings generalizing base with
  | nil => simpa using some
  | cons setting settings ih =>
    have later := fun next member => own next (List.mem_cons_of_mem setting member)
    refine ih later (set base setting) ?_
    by_cases touched : touches setting
    · exact .inr (own setting List.mem_cons_self touched base)
    · rw [other setting touched]
      simpa [touched] using some

/-- The settings with a key are those that set a certain field, and they set nothing else. -/
structure SetsField (schema : Schema σ) (set : γ → σ → γ) (key : String) (setting : α → σ)
    (get : γ → α) : Prop where
  known : [key] ∈ schema.leaves
  only : ∀ {other}, schema.path other = [key] → ∃ value, other = setting value
  self : ∀ value config, get (set config (setting value)) = value
  other : ∀ {other}, schema.path other ≠ [key] → ∀ config, get (set config other) = get config

/-- A field is read as what the settings make of it: the value of its key, or its default. -/
theorem States.field_eq (states : schema.States fields settings) {key : String} {setting : α → σ}
    {decode : Data → Option α} (sets : schema.SetsField set key setting get)
    (decoded : ∀ x value, schema.WrittenAs (setting x) value → decode value = some x) (base : γ) :
    field fields key (get base) decode = some (get (settings.foldl set base)) := by
  cases found : fields.get? key with
  | none =>
    have absent : ∀ other ∈ settings, schema.path other ≠ [key] := by
      intro other member here
      obtain ⟨value, there, -⟩ := states.stated other member
      rw [here, Fields.at?_singleton, found] at there
      exact absurd there.symm (Option.some_ne_none value)
    rw [field, found, foldl_eq_of_forall fun other member => sets.other (absent other member)]
  | some value =>
    have written : ∀ x, setting x ∈ settings → schema.path (setting x) = [key] →
        decode value = some x := by
      intro x member here
      obtain ⟨other, there, written⟩ := states.stated _ member
      rw [here, Fields.at?_singleton, found] at there
      obtain rfl := Option.some.inj there
      exact decoded x _ written
    obtain ⟨first, member, here⟩ := states.complete [key] sets.known (by simp [found])
    obtain ⟨result, rfl⟩ := sets.only here
    have answer := written result member here
    have own : ∀ other ∈ settings, schema.path other = [key] → ∀ config,
        get (set config other) = result := by
      intro other member here config
      obtain ⟨x, rfl⟩ := sets.only here
      rw [sets.self]
      exact Option.some.inj ((written x member here).symm.trans answer)
    rw [field_of_get? found, answer,
      foldl_eq_of_exists own (fun other => sets.other) base (.inl ⟨_, member, here⟩)]

end Field

/-- A part of a configuration that some settings change by way of what they hold. -/
theorem foldl_filterMap {γ δ τ : Type} {set : γ → σ → γ} {get : γ → δ} {pick : σ → Option τ}
    {setPart : δ → τ → δ}
    (step : ∀ setting config, get (set config setting) =
      (pick setting).elim (get config) (setPart (get config))) (settings : List σ) (base : γ) :
    get (settings.foldl set base) = (settings.filterMap pick).foldl setPart (get base) := by
  induction settings generalizing base with
  | nil => rfl
  | cons setting settings ih =>
    rw [List.foldl_cons, ih, step, List.filterMap_cons]
    cases pick setting <;> rfl

/-- Below a key, a schema knows the settings of another one. -/
structure Contains {τ : Type} (schema : Schema σ) (key : String) (inner : Schema τ)
    (pick : σ → Option τ) : Prop where
  path : ∀ {setting part}, pick setting = some part → schema.path setting = key :: inner.path part
  picked : ∀ {setting path}, schema.path setting = key :: path → path ≠ [] →
    ∃ part, pick setting = some part
  writtenAs : ∀ {setting part value}, pick setting = some part → schema.WrittenAs setting value →
    inner.WrittenAs part value
  nonempty : ∀ part, inner.path part ≠ []
  tables : ∀ path ∈ inner.tables, path ≠ [] ∧ key :: path ∈ schema.tables
  leaves : ∀ path ∈ inner.leaves, path ≠ [] ∧ key :: path ∈ schema.leaves

/-- What the table under a key says are the settings that belong there. -/
theorem States.child {τ : Type} {inner : Schema τ} {key : String} {pick : σ → Option τ}
    (states : schema.States fields settings) (contains : schema.Contains key inner pick) :
    inner.States (fields.child key) (settings.filterMap pick) := by
  constructor
  · intro path member value found
    obtain ⟨some, above⟩ := contains.tables path member
    exact states.tables _ above value (by rwa [Fields.at?_cons _ _ some])
  · intro part member
    obtain ⟨setting, member, picked⟩ := List.mem_filterMap.1 member
    obtain ⟨value, found, written⟩ := states.stated setting member
    rw [contains.path picked, Fields.at?_cons _ _ (contains.nonempty part)] at found
    exact ⟨value, found, contains.writtenAs picked written⟩
  · intro path member found
    obtain ⟨some, above⟩ := contains.leaves path member
    obtain ⟨setting, member, here⟩ := states.complete _ above (by rwa [Fields.at?_cons _ _ some])
    obtain ⟨part, picked⟩ := contains.picked here some
    have same := (contains.path picked).symm.trans here
    exact ⟨part, List.mem_filterMap.2 ⟨setting, member, picked⟩, (List.cons.inj same).2⟩

/-- A field that is a table is read from the fields of the table, which are none if it is
missing. -/
theorem field_eq_child {α : Type} {key : String} {fallback : α} {decode : Data → Option α}
    (ofFields? : Fields → Option α)
    (table : ∀ value, fields.get? key = some value → ∃ inner, value = .table inner)
    (read : ∀ inner, decode (.table inner) = ofFields? inner)
    (missing : ofFields? [] = some fallback) :
    field fields key fallback decode = ofFields? (fields.child key) := by
  cases found : fields.get? key with
  | none =>
    rw [field, found, Fields.child_of_none found]
    exact missing.symm
  | some value =>
    obtain ⟨inner, rfl⟩ := table value found
    rw [field_of_get? found, read, Fields.child_of_table found]

end Schema

section Written

variable {library : Library} {Says : Language} (lawful : library.Lawful Says) {value : Data}

include lawful

theorem Toml.Library.Lawful.bind_fields?_table {α : Type} (keys : List String)
    (ofFields? : Fields → Option α) (inner : Fields) :
    (library.fields? keys (.table inner)).bind ofFields? = ofFields? inner := by
  rw [lawful.fields?_table, Option.bind_some]

theorem word?_of_written {word : UInt64} (written : value = .integer word.toNat) :
    word? library value = some word := by
  rw [written, word?, lawful.natural?_integer word.toNat_lt_size, Option.map_some,
    UInt64.ofNat_toNat]

theorem word32?_of_written {word : UInt32} (written : value = .integer word.toNat) :
    word32? library value = some word := by
  rw [written, word32?, lawful.natural?_integer word.toNat_lt_size, Option.map_some,
    UInt32.ofNat_toNat]

theorem boolean?_of_written {flag : Bool} (written : value = .boolean flag) :
    library.boolean? value = some flag := by
  rw [written, lawful.boolean?_boolean]

theorem choice?_of_written {α : Type} {names : List String} {ofName? : String → Option α}
    {name : String} {choice : α} (known : name ∈ names) (named : ofName? name = some choice)
    (written : Names name value) : choice? library names ofName? value = some choice := by
  rw [choice?, lawful.variant?_names known written, Option.bind_some, named]

end Written

theorem QueueKind.ofName?_name (kind : QueueKind) : ofName? kind.name = some kind := by
  cases kind <;> decide

theorem QueueKind.name_mem_names (kind : QueueKind) : kind.name ∈ names := by
  cases kind <;> decide

theorem Policy.ofName?_name (policy : Policy) : ofName? policy.name = some policy := by
  cases policy <;> decide

theorem Policy.name_mem_names (policy : Policy) : policy.name ∈ names := by
  cases policy <;> decide

theorem Idle.ofName?_name (idle : Idle) : ofName? idle.name = some idle := by
  cases idle <;> decide

theorem Idle.name_mem_names (idle : Idle) : idle.name ∈ names := by
  cases idle <;> decide

namespace QueueConfig

/-- One of the keys of a queue's table with its value. -/
inductive Setting where
  | kind (kind : QueueKind)
  | blockSize (size : UInt64)
  | maxBlocks (count : UInt64)
  | ringCapacity (capacity : UInt64)
  | lruCapacity (capacity : UInt64)
  | lruMaxAge (age : UInt32)
  deriving DecidableEq, Repr

namespace Setting

def key : Setting → String
  | .kind _ => "kind"
  | .blockSize _ => "block_size"
  | .maxBlocks _ => "max_blocks"
  | .ringCapacity _ => "ring_capacity"
  | .lruCapacity _ => "lru_capacity"
  | .lruMaxAge _ => "lru_max_age"

def WrittenAs : Setting → Data → Prop
  | .kind choice, value => Names choice.name value
  | .blockSize size, value => value = .integer size.toNat
  | .maxBlocks count, value => value = .integer count.toNat
  | .ringCapacity capacity, value => value = .integer capacity.toNat
  | .lruCapacity capacity, value => value = .integer capacity.toNat
  | .lruMaxAge age, value => value = .integer age.toNat

end Setting

/-- Overwrites one of the fields. -/
def set (config : QueueConfig) : Setting → QueueConfig
  | .kind kind => { config with kind }
  | .blockSize blockSize => { config with blockSize }
  | .maxBlocks maxBlocks => { config with maxBlocks }
  | .ringCapacity ringCapacity => { config with ringCapacity }
  | .lruCapacity lruCapacity => { config with lruCapacity }
  | .lruMaxAge lruMaxAge => { config with lruMaxAge }

def schema : Schema Setting where
  path := fun setting => [setting.key]
  tables := []
  leaves := keys.map ([·])
  WrittenAs := Setting.WrittenAs

/-- Every key of a queue's table sets its own field and no other. -/
theorem setsField :
    schema.SetsField set "kind" .kind kind ∧
    schema.SetsField set "block_size" .blockSize blockSize ∧
    schema.SetsField set "max_blocks" .maxBlocks maxBlocks ∧
    schema.SetsField set "ring_capacity" .ringCapacity ringCapacity ∧
    schema.SetsField set "lru_capacity" .lruCapacity lruCapacity ∧
    schema.SetsField set "lru_max_age" .lruMaxAge lruMaxAge := by
  refine ⟨?_, ?_, ?_, ?_, ?_, ?_⟩ <;> refine ⟨by decide, ?_, fun _ _ => rfl, ?_⟩ <;>
    rintro ⟨⟩ <;> simp [schema, Setting.key, set]

variable {library : Library} {Says : Language} (lawful : library.Lawful Says)

include lawful

/-- A queue's table is read as the default queue, overwritten by what the table sets. -/
theorem ofFields?_of_settings {fields : Fields} {settings : List Setting}
    (states : schema.States fields settings) :
    ofFields? library fields = some (settings.foldl set {}) := by
  obtain ⟨kind, blockSize, maxBlocks, ringCapacity, lruCapacity, lruMaxAge⟩ := setsField
  have kind := states.field_eq kind (fun choice _ =>
    choice?_of_written lawful choice.name_mem_names choice.ofName?_name) {}
  have blockSize := states.field_eq blockSize (fun _ _ => word?_of_written lawful) {}
  have maxBlocks := states.field_eq maxBlocks (fun _ _ => word?_of_written lawful) {}
  have ringCapacity := states.field_eq ringCapacity (fun _ _ => word?_of_written lawful) {}
  have lruCapacity := states.field_eq lruCapacity (fun _ _ => word?_of_written lawful) {}
  have lruMaxAge := states.field_eq lruMaxAge (fun _ _ => word32?_of_written lawful) {}
  simp only [ofFields?, kind, blockSize, maxBlocks, ringCapacity, lruCapacity, lruMaxAge]
  rfl

end QueueConfig

namespace Options

/-- One of the keys of the advisor's table with its value, or one of those of its queue's table. -/
inductive Setting where
  | policy (policy : Policy)
  | background (background : Bool)
  | stalenessThreshold (epochs : UInt32)
  | minNeighborDegree (degree : UInt32)
  | maxHintBytes (bytes : UInt64)
  | windowBytes (bytes : UInt64)
  | allLevels (allLevels : Bool)
  | idle (idle : Idle)
  | parkTimeoutMicros (micros : UInt64)
  | queue (setting : QueueConfig.Setting)
  deriving DecidableEq, Repr

namespace Setting

def path : Setting → List String
  | .policy _ => ["policy"]
  | .background _ => ["background"]
  | .stalenessThreshold _ => ["staleness_threshold"]
  | .minNeighborDegree _ => ["min_neighbor_degree"]
  | .maxHintBytes _ => ["max_hint_bytes"]
  | .windowBytes _ => ["window_bytes"]
  | .allLevels _ => ["all_levels"]
  | .idle _ => ["idle"]
  | .parkTimeoutMicros _ => ["park_timeout_us"]
  | .queue setting => ["queue", setting.key]

def WrittenAs : Setting → Data → Prop
  | .policy choice, value => Names choice.name value
  | .background flag, value => value = .boolean flag
  | .stalenessThreshold epochs, value => value = .integer epochs.toNat
  | .minNeighborDegree degree, value => value = .integer degree.toNat
  | .maxHintBytes bytes, value => value = .integer bytes.toNat
  | .windowBytes bytes, value => value = .integer bytes.toNat
  | .allLevels flag, value => value = .boolean flag
  | .idle choice, value => Names choice.name value
  | .parkTimeoutMicros micros, value => value = .integer micros.toNat
  | .queue setting, value => setting.WrittenAs value

def queue? : Setting → Option QueueConfig.Setting
  | .queue setting => some setting
  | _ => none

end Setting

/-- Overwrites one of the fields. -/
def set (options : Options) : Setting → Options
  | .policy policy => { options with policy }
  | .background background => { options with background }
  | .stalenessThreshold stalenessThreshold => { options with stalenessThreshold }
  | .minNeighborDegree minNeighborDegree => { options with minNeighborDegree }
  | .maxHintBytes maxHintBytes => { options with maxHintBytes }
  | .windowBytes windowBytes => { options with windowBytes }
  | .allLevels allLevels => { options with allLevels }
  | .idle idle => { options with idle }
  | .parkTimeoutMicros parkTimeoutMicros => { options with parkTimeoutMicros }
  | .queue setting => { options with queue := options.queue.set setting }

def schema : Schema Setting where
  path := Setting.path
  tables := [["queue"]]
  leaves := keys.dropLast.map ([·]) ++ QueueConfig.schema.leaves.map ("queue" :: ·)
  WrittenAs := Setting.WrittenAs

theorem contains_queue : schema.Contains "queue" QueueConfig.schema Setting.queue? where
  path := by rintro ⟨⟩ <;> simp [Setting.queue?, schema, QueueConfig.schema, Setting.path]
  picked := by rintro ⟨⟩ <;> simp [Setting.queue?, schema, Setting.path]
  writtenAs := by
    rintro ⟨⟩ part value picked written <;> simp [Setting.queue?] at picked
    exact picked ▸ written
  nonempty := by simp [QueueConfig.schema]
  tables := by simp [QueueConfig.schema]
  leaves := by decide

/-- Every key of the advisor's table sets its own field and no other. -/
theorem setsField :
    schema.SetsField set "policy" .policy policy ∧
    schema.SetsField set "background" .background background ∧
    schema.SetsField set "staleness_threshold" .stalenessThreshold stalenessThreshold ∧
    schema.SetsField set "min_neighbor_degree" .minNeighborDegree minNeighborDegree ∧
    schema.SetsField set "max_hint_bytes" .maxHintBytes maxHintBytes ∧
    schema.SetsField set "window_bytes" .windowBytes windowBytes ∧
    schema.SetsField set "all_levels" .allLevels allLevels ∧
    schema.SetsField set "idle" .idle idle ∧
    schema.SetsField set "park_timeout_us" .parkTimeoutMicros parkTimeoutMicros := by
  refine ⟨?_, ?_, ?_, ?_, ?_, ?_, ?_, ?_, ?_⟩ <;> refine ⟨by decide, ?_, fun _ _ => rfl, ?_⟩ <;>
    rintro ⟨⟩ <;> simp [schema, Setting.path, set]

theorem queue_set (setting : Setting) (options : Options) :
    (options.set setting).queue = setting.queue?.elim options.queue options.queue.set := by
  cases setting <;> rfl

variable {library : Library} {Says : Language} (lawful : library.Lawful Says)

include lawful

/-- The advisor's table is read as the default options, overwritten by what it sets. -/
theorem ofFields?_of_settings {fields : Fields} {settings : List Setting}
    (states : schema.States fields settings) :
    ofFields? library fields = some (settings.foldl set {}) := by
  obtain ⟨policy, background, stalenessThreshold, minNeighborDegree, maxHintBytes, windowBytes,
    allLevels, idle, parkTimeout⟩ := setsField
  have policy := states.field_eq policy (fun choice _ =>
    choice?_of_written lawful choice.name_mem_names choice.ofName?_name) {}
  have background := states.field_eq background (fun _ _ => boolean?_of_written lawful) {}
  have stalenessThreshold :=
    states.field_eq stalenessThreshold (fun _ _ => word32?_of_written lawful) {}
  have minNeighborDegree :=
    states.field_eq minNeighborDegree (fun _ _ => word32?_of_written lawful) {}
  have maxHintBytes := states.field_eq maxHintBytes (fun _ _ => word?_of_written lawful) {}
  have windowBytes := states.field_eq windowBytes (fun _ _ => word?_of_written lawful) {}
  have allLevels := states.field_eq allLevels (fun _ _ => boolean?_of_written lawful) {}
  have idle := states.field_eq idle (fun choice _ =>
    choice?_of_written lawful choice.name_mem_names choice.ofName?_name) {}
  have parkTimeout := states.field_eq parkTimeout (fun _ _ => word?_of_written lawful) {}
  have table : field fields "queue" ({} : Options).queue (QueueConfig.ofData? library) =
      QueueConfig.ofFields? library (fields.child "queue") :=
    Schema.field_eq_child _ (states.table (by decide))
      (fun inner => lawful.bind_fields?_table _ _ inner) rfl
  have part : (settings.foldl set {}).queue =
      (settings.filterMap Setting.queue?).foldl QueueConfig.set ({} : Options).queue :=
    Schema.foldl_filterMap queue_set settings _
  have queue := table.trans (QueueConfig.ofFields?_of_settings lawful (states.child contains_queue))
  rw [← part] at queue
  simp only [ofFields?, policy, background, stalenessThreshold, minNeighborDegree, maxHintBytes,
    windowBytes, allLevels, idle, parkTimeout, queue]
  rfl

end Options

namespace Config

/-- One of the keys of a configuration with its value: the log filter, or a key of the advisor. -/
inductive Setting where
  | filter (text : String)
  | advisor (setting : Options.Setting)
  deriving DecidableEq, Repr

namespace Setting

def path : Setting → List String
  | .filter _ => ["logging", "filter"]
  | .advisor setting => "advisor" :: setting.path

def WrittenAs : Setting → Data → Prop
  | .filter text, value => value = .string text
  | .advisor setting, value => setting.WrittenAs value

def filter? : Setting → Option String
  | .filter text => some text
  | .advisor _ => none

def advisor? : Setting → Option Options.Setting
  | .filter _ => none
  | .advisor setting => some setting

end Setting

/-- Overwrites one of the fields. -/
def set (config : Config) : Setting → Config
  | .filter filter => { config with filter }
  | .advisor setting => { config with advisor := config.advisor.set setting }

/-- The table of the log filter, in which only one key is known. -/
def loggingSchema : Schema String where
  path := fun _ => ["filter"]
  tables := []
  leaves := loggingKeys.map ([·])
  WrittenAs := fun text value => value = .string text

def schema : Schema Setting where
  path := Setting.path
  tables := ["logging"] :: ["advisor"] :: Options.schema.tables.map ("advisor" :: ·)
  leaves := ["logging", "filter"] :: Options.schema.leaves.map ("advisor" :: ·)
  WrittenAs := Setting.WrittenAs

theorem contains_logging : schema.Contains "logging" loggingSchema Setting.filter? where
  path := by rintro ⟨⟩ <;> simp [Setting.filter?, schema, loggingSchema, Setting.path]
  picked := by rintro ⟨⟩ <;> simp [Setting.filter?, schema, Setting.path]
  writtenAs := by
    rintro ⟨⟩ part value picked written <;> simp [Setting.filter?] at picked
    exact picked ▸ written
  nonempty := by simp [loggingSchema]
  tables := by simp [loggingSchema]
  leaves := by decide

theorem contains_advisor : schema.Contains "advisor" Options.schema Setting.advisor? where
  path := by rintro ⟨⟩ <;> simp [Setting.advisor?, schema, Options.schema, Setting.path]
  picked := by rintro ⟨⟩ <;> simp [Setting.advisor?, schema, Setting.path]
  writtenAs := by
    rintro ⟨⟩ part value picked written <;> simp [Setting.advisor?] at picked
    exact picked ▸ written
  nonempty := by rintro ⟨⟩ <;> simp [Options.schema, Options.Setting.path]
  tables := by decide
  leaves := by decide

theorem loggingSetsField :
    loggingSchema.SetsField (fun _ text => text) "filter" id (id : String → String) :=
  ⟨by decide, fun _ => ⟨_, rfl⟩, fun _ _ => rfl, fun apart => absurd rfl apart⟩

theorem filter_set (setting : Setting) (config : Config) :
    (config.set setting).filter = setting.filter?.elim config.filter id := by
  cases setting <;> rfl

theorem advisor_set (setting : Setting) (config : Config) :
    (config.set setting).advisor = setting.advisor?.elim config.advisor config.advisor.set := by
  cases setting <;> rfl

variable {library : Library} {Says : Language} (lawful : library.Lawful Says)

include lawful

/-- A document is read as the default configuration, overwritten by what the document sets. -/
theorem ofFields?_of_settings {fields : Fields} {settings : List Setting}
    (states : schema.States fields settings) :
    ofFields? library fields = some (settings.foldl set {}) := by
  have text : ∀ text value, loggingSchema.WrittenAs text value →
      library.text? value = some text := by
    rintro text value rfl
    exact lawful.text?_string text
  have table : field fields "logging" ({} : Config).filter (filterOfData? library) =
      field (fields.child "logging") "filter" (default : Config).filter
        library.text? :=
    Schema.field_eq_child
      (fun inner => field inner "filter" (default : Config).filter library.text?)
      (states.table (by decide)) (fun inner => lawful.bind_fields?_table _ _ inner) rfl
  have part : (settings.foldl set {}).filter =
      (settings.filterMap Setting.filter?).foldl (fun _ text => text) ({} : Config).filter :=
    Schema.foldl_filterMap filter_set settings _
  have filter : field fields "logging" ({} : Config).filter (filterOfData? library) =
      some (settings.foldl set {}).filter := by
    rw [table, part]
    exact (states.child contains_logging).field_eq loggingSetsField text _
  have advisorTable : field fields "advisor" ({} : Config).advisor (Options.ofData? library) =
      Options.ofFields? library (fields.child "advisor") :=
    Schema.field_eq_child _ (states.table (by decide))
      (fun inner => lawful.bind_fields?_table _ _ inner) rfl
  have advisorPart : (settings.foldl set {}).advisor =
      (settings.filterMap Setting.advisor?).foldl Options.set ({} : Config).advisor :=
    Schema.foldl_filterMap advisor_set settings _
  have advisor :=
    advisorTable.trans (Options.ofFields?_of_settings lawful (states.child contains_advisor))
  rw [← advisorPart] at advisor
  simp only [ofFields?, filter, advisor]
  rfl

end Config

end LayeredGraph
