import Mathlib
import LayeredGraph.Proofs.Config

/-! Configurations of documents and of files. A document gives the default configuration,
overwritten by what the document sets, if that can be run with, and is refused with its fault
otherwise; a file gives what its text gives. -/
namespace LayeredGraph

open Toml

namespace Schema

variable {σ : Type} {schema : Schema σ}

/-- What is made of a text is what is made of the settings that it states: of every document whose
settings fit, neither the order of its keys and tables matters nor what else it has to tell. -/
structure Governs {γ : Type} (schema : Schema σ) (Says : Language)
    (ofToml : String → Except Error γ) (result : List σ → Except Error γ) : Prop where
  document : ∀ text fields, Says text fields → schema.Fits fields →
    (∃ settings, schema.States fields settings) ∧
      ∀ settings, schema.States fields settings → ofToml text = result settings
  order : ∀ text fields other same settings others, Says text fields → Says other same →
    schema.States fields settings → schema.States same others →
      (∀ setting, setting ∈ others ↔ setting ∈ settings) → ofToml other = ofToml text

theorem governs_of {γ : Type} {Says : Language} {ofToml : String → Except Error γ}
    {result : List σ → Except Error γ}
    (given : ∀ {text fields settings}, Says text fields → schema.States fields settings →
      ofToml text = result settings) : schema.Governs Says ofToml result := by
  constructor
  · intro text fields document fits
    exact ⟨fits_iff.1 fits, fun settings states => given document states⟩
  · intro text fields other same settings others document another states restates members
    have again := restates.congr fun setting => (members setting).symm
    rw [given document states, given another again]

end Schema

/-- Errors of one kind: the same error, or both about a document, maybe in other words. -/
def Error.Alike (first second : Error) : Prop :=
  first = second ∨ ∃ detail other, first = .config detail ∧ second = .config other

/-- Two computations come to the same: to equal results, or to errors of one kind. -/
inductive Agree {α : Type} : Except Error α → Except Error α → Prop where
  | ok (result : α) : Agree (.ok result) (.ok result)
  | error {first second : Error} (alike : first.Alike second) : Agree (.error first) (.error second)

theorem Agree.map {α β : Type} {first second : Except Error α} (agree : Agree first second)
    (f : α → β) : Agree (first.map f) (second.map f) := by
  cases agree with
  | ok result => exact .ok (f result)
  | error alike => exact .error alike

theorem Agree.eq_ok {α : Type} {result : α} {other : Except Error α}
    (agree : Agree (.ok result) other) : other = .ok result := by
  cases agree
  rfl

namespace Options

/-- Options that an advisor can run with, or else their fault. -/
def checked (options : Options) : Except Error Options := options.validate.map fun _ => options

theorem ofToml_of_settings {library : Library} {Says : Language} (lawful : library.Lawful Says)
    {text : String} {fields : Fields} {settings : List Setting} (document : Says text fields)
    (states : schema.States fields settings) :
    ofToml library text = (settings.foldl set {}).checked := by
  rw [ofToml, lawful.read_eq document, Option.bind_some, ofFields?_of_settings lawful states,
    checked]
  change ((settings.foldl set {}).validate.bind fun _ => .ok _) = _
  cases (settings.foldl set {}).validate <;> rfl

end Options

namespace Config

/-- A configuration whose advisor can run, or else its fault. -/
def checked (config : Config) : Except Error Config := config.advisor.validate.map fun _ => config

section Library

variable {library : Library} {Says : Language}

theorem ofToml_of_settings (lawful : library.Lawful Says) {text : String} {fields : Fields}
    {settings : List Setting} (document : Says text fields)
    (states : schema.States fields settings) :
    ofToml library text = (settings.foldl set {}).checked := by
  have config : parse? library text = some (settings.foldl set {}) := by
    rw [parse?, lawful.read_eq document, Option.bind_some, ofFields?_of_settings lawful states]
  exact ofToml_of_parse? config

/-- What is made of a text does not depend on how its errors are worded. -/
theorem agree_ofTomlOr (library : Library) (failure other text : String) :
    Agree (ofTomlOr library failure text) (ofTomlOr library other text) := by
  rw [ofTomlOr, ofTomlOr]
  cases parse? library text with
  | none => exact .error (.inr ⟨failure, other, rfl, rfl⟩)
  | some config =>
    change Agree (config.advisor.validate.bind _) (config.advisor.validate.bind _)
    cases config.advisor.validate with
    | error error => exact .error (.inl rfl)
    | ok _ => exact .ok config

theorem load_toUTF8 (library : Library) (path text : String) :
    load library path (some text.toUTF8) =
      ofTomlOr library ("failed to parse config " ++ path) text := by
  have decoded : String.fromUTF8? text.toUTF8 = some text := dif_pos text.isValidUTF8
  rw [load, Option.bind_some, decoded]

theorem loadOptions_eq (library : Library) (path : String) (contents : Option ByteArray) :
    loadOptions library path contents = (load library path contents).map (·.advisor) := by
  rw [loadOptions]
  cases load library path contents <;> rfl

/-- Every document gives the default configuration overwritten by just what it sets of the known
keys, if the options of that can be run with, and is otherwise refused with their fault; the same
holds of the advisor's table by itself. A file gives what its text gives, up to the wording of the
error if it cannot be read as a configuration. -/
theorem ofToml_overwrites_defaults (lawful : library.Lawful Says) :
    schema.Governs Says (ofToml library) (fun settings => (settings.foldl set {}).checked) ∧
    Options.schema.Governs Says (Options.ofToml library)
      (fun settings => (settings.foldl Options.set {}).checked) ∧
    ∀ path text, Agree (ofToml library text) (load library path (some text.toUTF8)) ∧
      Agree ((ofToml library text).map (·.advisor))
        (loadOptions library path (some text.toUTF8)) := by
  refine ⟨Schema.governs_of (ofToml_of_settings lawful),
    Schema.governs_of (Options.ofToml_of_settings lawful), fun path text => ?_⟩
  have agree : Agree (ofToml library text) (load library path (some text.toUTF8)) := by
    rw [ofToml, load_toUTF8]
    exact agree_ofTomlOr library _ _ text
  refine ⟨agree, ?_⟩
  rw [loadOptions_eq]
  exact agree.map _

end Library

/-- A document with its tables and keys out of order, among others that are not known. -/
def mixed : String :=
  "title = \"service\"\n[advisor.queue]\ndepth = 3\nring_capacity = 64\nkind = \"ring\"\n\n" ++
  "[metrics.advisor]\npolicy = 9000\n\n[logging]\nfilter = \"debug\"\n\n" ++
  "[advisor]\nidle = \"spin\"\nowner = \"ops\"\npark_timeout_us = 0\n"

/-- What it says. -/
def mixedFields : Fields :=
  [("title", .string "service"),
    ("advisor", .table [
      ("queue", .table
        [("depth", .integer 3), ("ring_capacity", .integer 64), ("kind", .string "ring")]),
      ("idle", .string "spin"), ("owner", .string "ops"), ("park_timeout_us", .integer 0)]),
    ("metrics", .table [("advisor", .table [("policy", .integer 9000)])]),
    ("logging", .table [("filter", .string "debug")])]

theorem read_mixed : Library.running.read mixed = some mixedFields := by cbv

/-- The same settings with tables in braces, dotted keys and a comment. -/
def dotted : String :=
  "advisor.queue = \x7b kind = 'ring', ring_capacity = 0x40 \x7d # a ring\n" ++
  "advisor.park_timeout_us = 0\nlogging = \x7b filter = 'debug' \x7d\nadvisor.idle = 'spin'\n"

/-- What it says. -/
def dottedFields : Fields :=
  [("advisor", .table [
      ("queue", .table [("kind", .string "ring"), ("ring_capacity", .integer 64)]),
      ("park_timeout_us", .integer 0), ("idle", .string "spin")]),
    ("logging", .table [("filter", .string "debug")])]

theorem read_dotted : Library.running.read dotted = some dottedFields := by cbv

/-- What both documents set. -/
def ringSettings : List Setting :=
  [.filter "debug", .advisor (.idle .spin), .advisor (.parkTimeoutMicros 0),
    .advisor (.queue (.kind .ring)), .advisor (.queue (.ringCapacity 64))]

theorem states_mixedFields : schema.States mixedFields ringSettings where
  tables := by
    simp only [Schema.KeepsTables, schema, Options.schema, List.map_cons, List.map_nil,
      List.forall_mem_cons]
    refine ⟨?_, ?_, ?_, List.forall_mem_nil _⟩ <;> rintro value ⟨⟩ <;> exact ⟨_, rfl⟩
  stated := by
    simp only [ringSettings, List.forall_mem_cons]
    exact ⟨⟨_, rfl, rfl⟩, ⟨_, rfl, .text⟩, ⟨_, rfl, rfl⟩, ⟨_, rfl, .text⟩, ⟨_, rfl, rfl⟩,
      List.forall_mem_nil _⟩
  complete := by decide

theorem states_dottedFields : schema.States dottedFields ringSettings where
  tables := by
    simp only [Schema.KeepsTables, schema, Options.schema, List.map_cons, List.map_nil,
      List.forall_mem_cons]
    refine ⟨?_, ?_, ?_, List.forall_mem_nil _⟩ <;> rintro value ⟨⟩ <;> exact ⟨_, rfl⟩
  stated := by
    simp only [ringSettings, List.forall_mem_cons]
    exact ⟨⟨_, rfl, rfl⟩, ⟨_, rfl, .text⟩, ⟨_, rfl, rfl⟩, ⟨_, rfl, .text⟩, ⟨_, rfl, rfl⟩,
      List.forall_mem_nil _⟩
  complete := by decide

/-- An advisor's table that asks for a worker that parks without a timeout. -/
def restless : String :=
  "park_timeout_us = 0\nowner = \"ops\"\n[queue]\nkind = \"lru\"\n\n[metrics]\n"

/-- What it says. -/
def restlessFields : Fields :=
  [("park_timeout_us", .integer 0), ("owner", .string "ops"),
    ("queue", .table [("kind", .string "lru")]), ("metrics", .table [])]

theorem read_restless : Library.running.read restless = some restlessFields := by cbv

theorem states_restlessFields :
    Options.schema.States restlessFields [.parkTimeoutMicros 0, .queue (.kind .lru)] where
  tables := by
    simp only [Schema.KeepsTables, Options.schema, List.forall_mem_cons]
    refine ⟨?_, List.forall_mem_nil _⟩
    rintro value ⟨⟩
    exact ⟨_, rfl⟩
  stated := by
    simp only [List.forall_mem_cons]
    exact ⟨⟨_, rfl, rfl⟩, ⟨_, rfl, .text⟩, List.forall_mem_nil _⟩
  complete := by decide

/-- However the tables are written, and in whatever order, they give the same configuration, from a
text or from a file. A timeout of zero matters to no worker that spins, but to one that parks. -/
theorem ofToml_overwrites_defaults_of_mixed_tables :
    ∃ config, config = ⟨"debug", {
        idle := .spin, parkTimeoutMicros := 0, queue := { kind := .ring, ringCapacity := 64 } }⟩ ∧
      ofToml .running mixed = .ok config ∧ ofToml .running dotted = .ok config ∧
      load .running "lamina.toml" (some mixed.toUTF8) = .ok config ∧
      loadOptions .running "lamina.toml" (some mixed.toUTF8) = .ok config.advisor ∧
      Options.ofToml .running restless =
        .error (.invalid "park_timeout_us must be non-zero") := by
  obtain ⟨config, options, files⟩ := ofToml_overwrites_defaults Library.running_lawful
  have fits : schema.Fits mixedFields := Schema.fits_iff.2 ⟨_, states_mixedFields⟩
  have plain := (config.document _ _ read_mixed fits).2 _ states_mixedFields
  have same := config.order _ _ _ _ _ _ read_mixed read_dotted states_mixedFields
    states_dottedFields fun _ => Iff.rfl
  have parks : Options.schema.Fits restlessFields := Schema.fits_iff.2 ⟨_, states_restlessFields⟩
  have refused := (options.document _ _ read_restless parks).2 _ states_restlessFields
  obtain ⟨loaded, loadedOptions⟩ := files "lamina.toml" mixed
  refine ⟨_, rfl, plain, same.trans plain, ?_, ?_, refused⟩
  · rw [plain] at loaded
    exact loaded.eq_ok
  · rw [plain] at loadedOptions
    exact loadedOptions.eq_ok

end Config

end LayeredGraph
