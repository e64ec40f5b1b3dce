import LayeredGraph.Proofs.Config.Settings
import LayeredGraph.Proofs.Toml.Running

/-! The configuration file read back. What is written of a configuration is read as the very same
configuration, whatever its filter is made of, and is validated only then; all that can keep it from
being written is a number that does not fit in 64 bits with a sign. -/
namespace LayeredGraph

open Toml

namespace Schema

variable {σ : Type} {schema : Schema σ} {fields : Fields} {settings : List σ}

/-- A table has the values of some settings, none of which is a table. -/
def Writes (schema : Schema σ) (fields : Fields) (settings : List σ) : Prop :=
  ∀ setting ∈ settings, ∃ value, fields.at? (schema.path setting) = some value ∧
    schema.WrittenAs setting value ∧ ∀ inner, value ≠ .table inner

/-- Whatever says the same as a table that has all settings states just these. -/
theorem Writes.states (writes : schema.Writes fields settings) (tables : schema.KeepsTables fields)
    (complete : ∀ path ∈ schema.leaves, ∃ setting ∈ settings, schema.path setting = path)
    {said : Fields} (same : said.Same fields) : schema.States said settings where
  tables := by
    intro path known value found
    rcases same path with equal | ⟨inner, -, table, -⟩
    · exact tables path known value (equal ▸ found)
    · exact ⟨inner, Option.some.inj (found.symm.trans table)⟩
  stated := by
    intro setting member
    obtain ⟨value, found, written, plain⟩ := writes setting member
    rcases same (schema.path setting) with equal | ⟨-, other, -, table⟩
    · exact ⟨value, equal.trans found, written⟩
    · exact absurd (Option.some.inj (found.symm.trans table)) (plain other)
  complete path known _ := complete path known

/-- Below a key, a table has the values of what stands there. -/
theorem Writes.within {τ : Type} {inner : Schema τ} {parts : List τ} {key : String}
    (writes : inner.Writes (fields.child key) parts) (setting : τ → σ)
    (path : ∀ part, schema.path (setting part) = key :: inner.path part)
    (nonempty : ∀ part, inner.path part ≠ [])
    (writtenAs : ∀ part value, inner.WrittenAs part value →
      schema.WrittenAs (setting part) value) :
    schema.Writes fields (parts.map setting) := by
  intro whole member
  obtain ⟨part, held, rfl⟩ := List.mem_map.1 member
  obtain ⟨value, found, written, plain⟩ := writes part held
  refine ⟨value, ?_, writtenAs part value written, plain⟩
  rw [path, Fields.at?_cons _ _ (nonempty part), found]

end Schema

/-- A table under known keys, all of which need no quotes, of plain values. -/
theorem Toml.Data.plain_of_keys {fields : Fields} {keys : List String} {depth : Nat}
    (known : fields.map (·.1) = keys) (distinct : keys.Nodup) (bare : ∀ key ∈ keys, BareKey key)
    (values : ∀ field ∈ fields, field.2.Plain depth) : (Data.table fields).Plain (depth + 1) := by
  subst known
  exact ⟨distinct, fun field member => ⟨bare _ (List.mem_map_of_mem member), values field member⟩⟩

theorem Toml.Data.inRange_word {word : UInt64} :
    (integer word.toNat).InRange ↔ word.toNat ≤ 9223372036854775807 :=
  inRange_integer.trans integerInRange_natCast

/-- Every number of 32 bits fits in 64 bits with a sign. -/
theorem Toml.Data.inRange_word32 (word : UInt32) : (integer word.toNat).InRange := by
  have small : word.toNat < 4294967296 := word.toNat_lt_size
  exact inRange_integer.2 (integerInRange_natCast.2 (by omega))

namespace QueueConfig

/-- All settings of a queue. -/
def settings (config : QueueConfig) : List Setting :=
  [.kind config.kind, .blockSize config.blockSize, .maxBlocks config.maxBlocks,
    .ringCapacity config.ringCapacity, .lruCapacity config.lruCapacity,
    .lruMaxAge config.lruMaxAge]

theorem foldl_settings (config base : QueueConfig) : config.settings.foldl set base = config := rfl

theorem writes (config : QueueConfig) : schema.Writes config.toFields config.settings := by
  simp only [Schema.Writes, settings, List.forall_mem_cons]
  exact ⟨⟨_, rfl, .text, nofun⟩, ⟨_, rfl, rfl, nofun⟩, ⟨_, rfl, rfl, nofun⟩, ⟨_, rfl, rfl, nofun⟩,
    ⟨_, rfl, rfl, nofun⟩, ⟨_, rfl, rfl, nofun⟩, nofun⟩

theorem plain (config : QueueConfig) (depth : Nat) :
    (Data.table config.toFields).Plain (depth + 1) :=
  @Data.plain_of_keys _ keys _ rfl (by decide) (by decide) (by simp [toFields])

theorem inRange_toFields_iff (config : QueueConfig) :
    (Data.table config.toFields).InRange ↔
      ∀ word ∈ [config.blockSize, config.maxBlocks, config.ringCapacity, config.lruCapacity],
        word.toNat ≤ 9223372036854775807 := by
  rw [Data.inRange_table (config.plain 0).1]
  simp only [toFields, List.forall_mem_cons, Data.inRange_string, Data.inRange_word,
    Data.inRange_word32, List.not_mem_nil, false_implies, implies_true, true_and, and_true]

end QueueConfig

namespace Options

/-- The settings of an advisor apart from those of its queue. -/
def ownSettings (options : Options) : List Setting :=
  [.policy options.policy, .background options.background,
    .stalenessThreshold options.stalenessThreshold,
    .minNeighborDegree options.minNeighborDegree, .maxHintBytes options.maxHintBytes,
    .windowBytes options.windowBytes, .allLevels options.allLevels, .idle options.idle,
    .parkTimeoutMicros options.parkTimeoutMicros]

/-- All settings of an advisor. -/
def settings (options : Options) : List Setting :=
  options.ownSettings ++ options.queue.settings.map .queue

theorem foldl_queue (parts : List QueueConfig.Setting) (options : Options) :
    (parts.map .queue).foldl set options =
      { options with queue := parts.foldl QueueConfig.set options.queue } := by
  induction parts generalizing options with
  | nil => rfl
  | cons part parts ih => exact ih _

theorem foldl_settings (options base : Options) : options.settings.foldl set base = options := by
  have own : options.ownSettings.foldl set base = { options with queue := base.queue } := by
    simp only [ownSettings, List.foldl_cons, List.foldl_nil, set]
  rw [settings, List.foldl_append, own, foldl_queue, QueueConfig.foldl_settings]

theorem writes (options : Options) : schema.Writes options.toFields options.settings := by
  have own : schema.Writes options.toFields options.ownSettings := by
    simp only [Schema.Writes, ownSettings, List.forall_mem_cons]
    exact ⟨⟨_, rfl, .text, nofun⟩, ⟨_, rfl, rfl, nofun⟩, ⟨_, rfl, rfl, nofun⟩,
      ⟨_, rfl, rfl, nofun⟩, ⟨_, rfl, rfl, nofun⟩, ⟨_, rfl, rfl, nofun⟩, ⟨_, rfl, rfl, nofun⟩,
      ⟨_, rfl, .text, nofun⟩, ⟨_, rfl, rfl, nofun⟩, nofun⟩
  have inner : QueueConfig.schema.Writes (options.toFields.child "queue") options.queue.settings :=
    options.queue.writes
  have queue : schema.Writes options.toFields (options.queue.settings.map .queue) :=
    inner.within Setting.queue (fun _ => rfl) (fun _ => List.cons_ne_nil _ _) fun _ _ => id
  exact fun setting member => (List.mem_append.1 member).elim (own setting) (queue setting)

theorem plain (options : Options) (depth : Nat) :
    (Data.table options.toFields).Plain (depth + 2) :=
  @Data.plain_of_keys _ keys _ rfl (by decide) (by decide)
    (by simp [toFields, options.queue.plain depth])

theorem inRange_toFields_iff (options : Options) :
    (Data.table options.toFields).InRange ↔
      ∀ word ∈ [options.maxHintBytes, options.windowBytes, options.parkTimeoutMicros,
        options.queue.blockSize, options.queue.maxBlocks, options.queue.ringCapacity,
        options.queue.lruCapacity], word.toNat ≤ 9223372036854775807 := by
  rw [Data.inRange_table (options.plain 0).1]
  simp only [toFields, List.forall_mem_cons, Data.inRange_string, Data.inRange_boolean,
    Data.inRange_word, Data.inRange_word32, QueueConfig.inRange_toFields_iff, List.not_mem_nil,
    false_implies, implies_true, true_and, and_true]

/-- Options that are refused are invalid, which is not what a document is that cannot be read. -/
theorem validate_ne_config (options : Options) (detail : String) :
    options.validate ≠ .error (.config detail) := by
  rw [validate]
  cases options.fault? <;> nofun

end Options

namespace Config

/-- All settings of a configuration. -/
def settings (config : Config) : List Setting :=
  .filter config.filter :: config.advisor.settings.map .advisor

theorem foldl_advisor (parts : List Options.Setting) (config : Config) :
    (parts.map .advisor).foldl set config =
      { config with advisor := parts.foldl Options.set config.advisor } := by
  induction parts generalizing config with
  | nil => rfl
  | cons part parts ih => exact ih _

theorem foldl_settings (config base : Config) : config.settings.foldl set base = config := by
  rw [settings, List.foldl_cons, foldl_advisor, Options.foldl_settings]
  rfl

theorem writes (config : Config) : schema.Writes config.toFields config.settings := by
  have inner : Options.schema.Writes (config.toFields.child "advisor") config.advisor.settings :=
    config.advisor.writes
  have advisor : schema.Writes config.toFields (config.advisor.settings.map .advisor) :=
    inner.within Setting.advisor (fun _ => rfl) contains_advisor.nonempty fun _ _ => id
  exact List.forall_mem_cons.2 ⟨⟨_, rfl, rfl, nofun⟩, advisor⟩

theorem keepsTables_toFields (config : Config) : schema.KeepsTables config.toFields := by
  simp only [Schema.KeepsTables, schema, Options.schema, List.map_cons, List.map_nil,
    List.forall_mem_cons]
  refine ⟨?_, ?_, ?_, List.forall_mem_nil _⟩ <;> rintro value ⟨⟩ <;> exact ⟨_, rfl⟩

theorem exists_setting (config : Config) :
    ∀ path ∈ schema.leaves, ∃ setting ∈ config.settings, schema.path setting = path := by
  have paths : config.settings.map schema.path = schema.leaves := rfl
  exact fun path known => List.mem_map.1 (paths ▸ known)

theorem plain_toFields (config : Config) : config.toFields.Plain :=
  @Data.plain_of_keys _ ["logging", "advisor"] 78 rfl (by decide) (by decide) (by
    have logging : (Data.table [("filter", .string config.filter)]).Plain 78 :=
      @Data.plain_of_keys _ loggingKeys 77 rfl (by decide) (by decide) (by simp)
    simp [toFields, logging, config.advisor.plain 76])

/-- Only the numbers of 64 bits without a sign may be too large to be written. -/
theorem inRange_toFields_iff (config : Config) :
    config.toFields.InRange ↔
      ∀ word ∈ [config.advisor.maxHintBytes, config.advisor.windowBytes,
        config.advisor.parkTimeoutMicros, config.advisor.queue.blockSize,
        config.advisor.queue.maxBlocks, config.advisor.queue.ringCapacity,
        config.advisor.queue.lruCapacity], word.toNat ≤ 9223372036854775807 := by
  have logging : (Data.table [("filter", .string config.filter)]).InRange := by
    have single : ([("filter", Data.string config.filter)].map (·.1)).Nodup :=
      List.nodup_singleton _
    rw [Data.inRange_table single]
    simp
  rw [Fields.InRange, Data.inRange_table config.plain_toFields.1]
  simp only [toFields, List.forall_mem_cons, logging, Options.inRange_toFields_iff,
    List.not_mem_nil, false_implies, implies_true, true_and, and_true]

section Library

variable {library : Library} {text : String}

theorem toToml_eq_ok {config : Config} :
    config.toToml library = .ok text ↔ library.write config.toFields = some text := by
  rw [toToml]
  cases library.write config.toFields <;> simp

theorem ofToml_of_parse? {config : Config} (parsed : parse? library text = some config) :
    ofToml library text = config.advisor.validate.map fun _ => config := by
  rw [ofToml, ofTomlOr, parsed]
  change (config.advisor.validate.bind fun _ => .ok config) = _
  cases config.advisor.validate <;> rfl

variable {Says : Language} (lawful : library.Lawful Says)

include lawful

/-- What is written of a configuration is read as the configuration. -/
theorem parse?_of_write {config : Config} (written : library.write config.toFields = some text) :
    parse? library text = some config := by
  obtain ⟨said, document, same⟩ := lawful.document_write config.plain_toFields written
  have states : schema.States said config.settings :=
    config.writes.states config.keepsTables_toFields config.exists_setting same
  rw [parse?, lawful.read_eq document, Option.bind_some, ofFields?_of_settings lawful states,
    foldl_settings]

/-- A configuration can be written exactly if its numbers of 64 bits fit in 64 bits with a sign.
What is written of it, whatever its filter is and whether its options are valid or not, is read as
the same configuration if its options are valid, and is otherwise refused with their fault: it
always can be read. -/
theorem ofToml_toToml (config : Config) :
    ((∃ text, config.toToml library = .ok text) ↔
      ∀ word ∈ [config.advisor.maxHintBytes, config.advisor.windowBytes,
        config.advisor.parkTimeoutMicros, config.advisor.queue.blockSize,
        config.advisor.queue.maxBlocks, config.advisor.queue.ringCapacity,
        config.advisor.queue.lruCapacity], word.toNat ≤ 9223372036854775807) ∧
    ∀ text, config.toToml library = .ok text →
      (config.advisor.validate = .ok () → ofToml library text = .ok config) ∧
      (∀ error, config.advisor.validate = .error error → ofToml library text = .error error) ∧
      ∀ detail, ofToml library text ≠ .error (.config detail) := by
  constructor
  · simp only [toToml_eq_ok]
    rw [lawful.write_iff config.plain_toFields, inRange_toFields_iff]
  · intro text written
    rw [ofToml_of_parse? (parse?_of_write lawful (toToml_eq_ok.1 written))]
    refine ⟨fun valid => ?_, fun error invalid => ?_, fun detail same => ?_⟩
    · rw [valid]
      rfl
    · rw [invalid]
      rfl
    · cases result : config.advisor.validate with
      | ok _ =>
        rw [result] at same
        nomatch same
      | error error =>
        rw [result] at same
        have fault : error = .config detail := Except.error.inj same
        exact config.advisor.validate_ne_config detail (fault ▸ result)

end Library

/-- A filter with quotes, a backslash, a line feed, a control character and letters beyond ASCII is
read back; so are options that no advisor can run with, and then they are refused. -/
theorem ofToml_toToml_of_escapes :
    ∃ text refused,
      ({ filter := "\"it's\" \\ \n\x01 é" } : Config).toToml .running = .ok text ∧
      ofToml .running text = .ok { filter := "\"it's\" \\ \n\x01 é" } ∧
      ({ advisor := { parkTimeoutMicros := 0 } } : Config).toToml .running = .ok refused ∧
      ofToml .running refused = .error (.invalid "park_timeout_us must be non-zero") := by
  have plain := ofToml_toToml Library.running_lawful { filter := "\"it's\" \\ \n\x01 é" }
  have faulty := ofToml_toToml Library.running_lawful { advisor := { parkTimeoutMicros := 0 } }
  obtain ⟨text, written⟩ := plain.1.2 (by simp)
  obtain ⟨refused, refusedWritten⟩ := faulty.1.2 (by simp)
  exact ⟨text, refused, written, (plain.2 text written).1 rfl, refusedWritten,
    (faulty.2 refused refusedWritten).2.1 _ rfl⟩

end Config

end LayeredGraph
