import LayeredGraph.Advisor.Options
import LayeredGraph.Toml.Library

/-! The configuration file: a log filter and the options of the advisor, as a TOML document. Keys
that are missing take their defaults and keys that are unknown are passed over, in every table;
options are validated after reading and written as they are. Which library reads and writes the
documents stays open. -/
namespace LayeredGraph

/-- What a configuration file says. -/
structure Config where
  filter : String := "info"
  advisor : Options := {}
  deriving DecidableEq, Repr

instance : Inhabited Config := ⟨{}⟩

open Toml

variable (library : Library)

namespace Decode

/-- A field, or its default where the key is missing. -/
def field {α : Type} (fields : Fields) (key : String) (fallback : α)
    (decode : Data → Option α) : Option α :=
  match fields.get? key with
  | none => some fallback
  | some value => decode value

def word? (value : Data) : Option UInt64 :=
  (library.natural? UInt64.size value).map UInt64.ofNat

def word32? (value : Data) : Option UInt32 :=
  (library.natural? UInt32.size value).map UInt32.ofNat

/-- A choice by its name. -/
def choice? {α : Type} (names : List String) (ofName? : String → Option α) (value : Data) :
    Option α := (library.variant? names value).bind ofName?

end Decode

open Decode

namespace QueueConfig

def keys : List String :=
  ["kind", "block_size", "max_blocks", "ring_capacity", "lru_capacity", "lru_max_age"]

def ofFields? (fields : Fields) : Option QueueConfig := do
  let base : QueueConfig := {}
  return {
    kind := ← field fields "kind" base.kind (choice? library QueueKind.names QueueKind.ofName?)
    blockSize := ← field fields "block_size" base.blockSize (word? library)
    maxBlocks := ← field fields "max_blocks" base.maxBlocks (word? library)
    ringCapacity := ← field fields "ring_capacity" base.ringCapacity (word? library)
    lruCapacity := ← field fields "lru_capacity" base.lruCapacity (word? library)
    lruMaxAge := ← field fields "lru_max_age" base.lruMaxAge (word32? library) }

def ofData? (value : Data) : Option QueueConfig :=
  (library.fields? keys value).bind (ofFields? library)

/-- The fields of a queue's table. -/
def toFields (config : QueueConfig) : Fields :=
  [("kind", .string config.kind.name),
    ("block_size", .integer config.blockSize.toNat),
    ("max_blocks", .integer config.maxBlocks.toNat),
    ("ring_capacity", .integer config.ringCapacity.toNat),
    ("lru_capacity", .integer config.lruCapacity.toNat),
    ("lru_max_age", .integer config.lruMaxAge.toNat)]

end QueueConfig

namespace Options

def keys : List String :=
  ["policy", "background", "staleness_threshold", "min_neighbor_degree", "max_hint_bytes",
    "window_bytes", "all_levels", "idle", "park_timeout_us", "queue"]

def ofFields? (fields : Fields) : Option Options := do
  let base : Options := {}
  return {
    policy := ← field fields "policy" base.policy (choice? library Policy.names Policy.ofName?)
    background := ← field fields "background" base.background library.boolean?
    stalenessThreshold :=
      ← field fields "staleness_threshold" base.stalenessThreshold (word32? library)
    minNeighborDegree :=
      ← field fields "min_neighbor_degree" base.minNeighborDegree (word32? library)
    maxHintBytes := ← field fields "max_hint_bytes" base.maxHintBytes (word? library)
    windowBytes := ← field fields "window_bytes" base.windowBytes (word? library)
    allLevels := ← field fields "all_levels" base.allLevels library.boolean?
    idle := ← field fields "idle" base.idle (choice? library Idle.names Idle.ofName?)
    parkTimeoutMicros := ← field fields "park_timeout_us" base.parkTimeoutMicros (word? library)
    queue := ← field fields "queue" base.queue (QueueConfig.ofData? library) }

def ofData? (value : Data) : Option Options := (library.fields? keys value).bind (ofFields? library)

/-- The fields of the advisor's table. -/
def toFields (options : Options) : Fields :=
  [("policy", .string options.policy.name),
    ("background", .boolean options.background),
    ("staleness_threshold", .integer options.stalenessThreshold.toNat),
    ("min_neighbor_degree", .integer options.minNeighborDegree.toNat),
    ("max_hint_bytes", .integer options.maxHintBytes.toNat),
    ("window_bytes", .integer options.windowBytes.toNat),
    ("all_levels", .boolean options.allLevels),
    ("idle", .string options.idle.name),
    ("park_timeout_us", .integer options.parkTimeoutMicros.toNat),
    ("queue", .table options.queue.toFields)]

/-- Options from a document that is the advisor's table, validated. -/
def ofToml (text : String) : Except Error Options :=
  match (library.read text).bind (ofFields? library) with
  | none => .error (.config "failed to parse advisor options")
  | some options => do
      options.validate
      return options

end Options

namespace Config

def loggingKeys : List String := ["filter"]

def filterOfData? (value : Data) : Option String := do
  field (← library.fields? loggingKeys value) "filter" (default : Config).filter library.text?

def ofFields? (fields : Fields) : Option Config := do
  let base : Config := {}
  return {
    filter := ← field fields "logging" base.filter (filterOfData? library)
    advisor := ← field fields "advisor" base.advisor (Options.ofData? library) }

/-- The configuration of a document, not yet validated. -/
def parse? (text : String) : Option Config := (library.read text).bind (ofFields? library)

/-- The configuration of a document; `failure` says what went wrong if there is none. -/
def ofTomlOr (failure text : String) : Except Error Config :=
  match parse? library text with
  | none => .error (.config failure)
  | some config => do
      config.advisor.validate
      return config

def ofToml (text : String) : Except Error Config := ofTomlOr library "failed to parse config" text

/-- The configuration in a file, given its contents, or none if it could not be opened. -/
def load (path : String) (contents : Option ByteArray) : Except Error Config :=
  match contents.bind String.fromUTF8? with
  | none => .error (.config ("failed to read config " ++ path))
  | some text => ofTomlOr library ("failed to parse config " ++ path) text

/-- The advisor's part of the configuration in a file. -/
def loadOptions (path : String) (contents : Option ByteArray) : Except Error Options := do
  return (← load library path contents).advisor

/-- The configuration as a table. -/
def toFields (config : Config) : Fields :=
  [("logging", .table [("filter", .string config.filter)]),
    ("advisor", .table config.advisor.toFields)]

/-- The configuration as a document, whether its options are valid or not. -/
def toToml (config : Config) : Except Error String :=
  match library.write config.toFields with
  | none => .error (.config "failed to serialize config")
  | some text => .ok text

end Config

end LayeredGraph
