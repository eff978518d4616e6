import EventIngress.Config.Document

/-!
# Unknown keys in settings

Every table of settings has its keys. A key that is none of them makes the whole document be refused,
wherever it stands and whatever else there is in the document, as long as it does not stand in the
table of the transport. That table is not strict: what its kind of transport does not know is dropped
without a word, so a misspelt key leaves its setting at the default.

Results:

* `ConfigTable`: the tables of settings, with their keys and their places in a document.
* `IngressConfig.refused_of_unknown`: strict tables.
* `TransportSettings.ofMembers_filter`: the table of the transport.
* `IngressConfig.unknown_keys_refused_or_dropped`: both, for the settings of a text.
-/

namespace EventIngress

/-! ## Tables of settings -/

/-- The keys of a transport. -/
def TransportSettings.Kind.keys : TransportSettings.Kind → List String
  | .journal => ["type"]
  | .pubSub =>
    ["type", "endpoint", "project_id", "token_env", "connect_timeout_ms", "request_timeout_ms"]

/-- A table of settings. -/
inductive ConfigTable where
  | root
  | log
  | routing
  | publish
  | transport (kind : TransportSettings.Kind)

namespace ConfigTable

/-- The keys that a table may have. -/
def keys : ConfigTable → List String
  | root => ["log", "routing", "publish", "transport"]
  | log => ["level", "format"]
  | routing => ["path", "refresh_interval_ms", "max_file_bytes"]
  | publish => ["timeout_ms"]
  | transport kind => kind.keys

/-- The keys of the table with a name. -/
def keysAt? (document : Toml.Members) (name : String) : Option (List String) :=
  match document.lookup name with
  | some (.table _ inner) => some (inner.map (·.1))
  | _ => none

/-- Whether the table of the transport names a kind of transport. -/
def namesKind (document : Toml.Members) (kind : TransportSettings.Kind) : Bool :=
  match document.lookup "transport" with
  | some (.table _ inner) =>
    match TransportSettings.splitKind inner none with
    | .ok found => found = some kind
    | .error _ => false
  | _ => false

/-- The keys that a table has in a document, if it is there. -/
def found? (document : Toml.Members) : ConfigTable → Option (List String)
  | root => some (document.map (·.1))
  | log => keysAt? document "log"
  | routing => keysAt? document "routing"
  | publish => keysAt? document "publish"
  | transport kind => if namesKind document kind then keysAt? document "transport" else none

/-- Whether other keys make the document be refused. -/
def strict : ConfigTable → Bool
  | transport _ => false
  | _ => true

theorem keysAt?_eq_some {document : Toml.Members} {name : String} {found : List String}
    (h : keysAt? document name = some found) :
    ∃ origin inner, (name, .table origin inner) ∈ document ∧ inner.map (·.1) = found := by
  unfold keysAt? at h
  split at h
  · rename_i origin inner hlookup
    obtain ⟨before, after, rfl, -⟩ := List.lookup_eq_some_iff.1 hlookup
    exact ⟨origin, inner, by simp, Option.some.inj h⟩
  · cases h

end ConfigTable

/-! ## Strict tables -/

namespace Toml.Record

variable {σ : Type} {r : Record σ}

/-- A document is refused if it has a strict table with a key that is unknown there. -/
theorem decodeTable_unknown_inside {τ : Type} (inner : Record τ) {start : σ} {blank : τ}
    {set : τ → σ → σ} {document : Members} {name key : String} {required : Bool}
    {found : List String} (hname : r.field? name = some (.part name required (inner.decode blank) set))
    (hstrict : inner.strict = true) (hfound : ConfigTable.keysAt? document name = some found)
    (hmem : key ∈ found) (hkey : key ∉ inner.names) :
    ∃ difference, r.decodeTable start document = .error difference := by
  obtain ⟨origin, members, hdocument, rfl⟩ := ConfigTable.keysAt?_eq_some hfound
  obtain ⟨difference, htable⟩ := decodeTable_unknown hstrict hmem hkey blank
  refine decodeTable_refused ⟨_, hdocument, ?_⟩
  rw [Refuses, hname]
  refine ⟨difference, ?_⟩
  show (inner.decodeTable blank members).map set = _
  rw [htable]
  rfl

end Toml.Record

namespace IngressConfig

/-- The settings of the members of a document, within their bounds. -/
def ofMembers (members : Toml.Members) : Except ConfigFault IngressConfig :=
  match decode members with
  | .error difference => .error (.malformed difference.message)
  | .ok config => config.check.map fun _ => config

theorem ofToml_eq {text : String} {members : Toml.Members} (h : Toml.parse text = some members) :
    ofToml text = ofMembers members := by
  rw [ofToml, h]
  rfl

/-- A strict table takes no unknown key. -/
theorem refused_of_unknown {document : Toml.Members} {table : ConfigTable} {found : List String}
    {key : String} (hstrict : table.strict = true) (hfound : table.found? document = some found)
    (hmem : key ∈ found) (hkey : key ∉ table.keys) :
    ∃ difference, decode document = .error difference := by
  cases table with
  | root =>
    cases hfound
    exact Toml.Record.decodeTable_unknown (r := shape) rfl hmem hkey _
  | log =>
    exact Toml.Record.decodeTable_unknown_inside LogSettings.shape rfl rfl hfound hmem hkey
  | routing =>
    exact Toml.Record.decodeTable_unknown_inside RoutingSettings.shape rfl rfl hfound hmem hkey
  | publish =>
    exact Toml.Record.decodeTable_unknown_inside PublishSettings.shape rfl rfl hfound hmem hkey
  | transport kind => cases hstrict

end IngressConfig

/-! ## The table of the transport -/

namespace Toml.Record

variable {σ : Type} {r : Record σ}

/-- Members that a record does not know can be left out if it is not strict. -/
theorem decodeMembers_filter (hstrict : r.strict = false) {keep : String × Value → Bool}
    (hkeep : ∀ member, member.1 ∈ r.names → keep member = true) (members : Members) (start : σ) :
    r.decodeMembers (members.filter keep) start = r.decodeMembers members start := by
  induction members generalizing start with
  | nil => rfl
  | cons member members ih =>
    obtain ⟨name, value⟩ := member
    by_cases hname : name ∈ r.names
    · rw [List.filter_cons_of_pos (hkeep _ hname), decodeMembers, decodeMembers]
      simp only [ih]
    · -- Kept or not, the member changes nothing.
      have hskip : ∀ rest, r.decodeMembers ((name, value) :: rest) start =
          r.decodeMembers rest start := by
        intro rest
        rw [decodeMembers, field?_eq_none_iff.2 hname, hstrict]
        rfl
      rw [hskip, ← ih, List.filter_cons]
      split
      · rw [hskip]
      · rfl

/-- Which member is missing depends on the known names only. -/
theorem missing?_congr {seen seen' : List String}
    (h : ∀ name ∈ r.names, name ∈ seen ↔ name ∈ seen') : r.missing? seen = r.missing? seen' := by
  rw [missing?, missing?, ← List.head?_filter, ← List.head?_filter]
  congr 2
  refine List.filter_congr fun field hfield => ?_
  have hname := h field.name (List.mem_map_of_mem hfield)
  simp [hname]

theorem decodeTable_filter (hstrict : r.strict = false) {keep : String × Value → Bool}
    (hkeep : ∀ member, member.1 ∈ r.names → keep member = true) (members : Members) (start : σ) :
    r.decodeTable start (members.filter keep) = r.decodeTable start members := by
  have hmissing : r.missing? ((members.filter keep).map (·.1)) =
      r.missing? (members.map (·.1)) := by
    refine missing?_congr fun name hname => ?_
    simp only [List.mem_map, List.mem_filter]
    constructor
    · rintro ⟨member, ⟨hmem, -⟩, rfl⟩
      exact ⟨member, hmem, rfl⟩
    · rintro ⟨member, hmem, rfl⟩
      exact ⟨member, ⟨hmem, hkeep member hname⟩, rfl⟩
  rw [decodeTable, decodeTable, decodeMembers_filter hstrict hkeep, hmissing]

/-- Only what a member's value is read as counts. -/
theorem decodeTable_congr {name : String} {field : Field σ} (hname : r.field? name = some field)
    {value value' : Value} (hvalue : field.decode value = field.decode value')
    (start : σ) (before after : Members) :
    r.decodeTable start (before ++ (name, value) :: after) =
      r.decodeTable start (before ++ (name, value') :: after) := by
  have hmembers : r.decodeMembers (before ++ (name, value) :: after) start =
      r.decodeMembers (before ++ (name, value') :: after) start := by
    induction before generalizing start with
    | nil => simp only [List.nil_append, decodeMembers, hname, hvalue]
    | cons member before ih =>
      rw [List.cons_append, List.cons_append, decodeMembers, decodeMembers]
      simp only [ih]
  rw [decodeTable, decodeTable, hmembers, List.map_append, List.map_append, List.map_cons,
    List.map_cons]

end Toml.Record

namespace TransportSettings

/-- Members that do not name the kind can be left out where all of them can be set aside. -/
theorem splitKind_filter {keep : String × Toml.Value → Bool}
    (hkeep : ∀ member, member.1 = kindName → keep member = true) {members : Toml.Members}
    {start kind : Option Kind} (h : splitKind members start = .ok kind) :
    splitKind (members.filter keep) start = .ok kind := by
  induction members generalizing start with
  | nil => exact h
  | cons member members ih =>
    obtain ⟨name, value⟩ := member
    rw [splitKind] at h
    by_cases hname : name = kindName
    · rw [if_pos hname] at h
      rw [List.filter_cons_of_pos (hkeep _ hname), splitKind, if_pos hname]
      cases hkind : kindOf value with
      | error difference =>
        rw [hkind] at h
        cases h
      | ok named =>
        rw [hkind] at h
        exact ih h
    · rw [if_neg hname] at h
      cases hvalue : value.storable with
      | false =>
        rw [hvalue, if_neg Bool.false_ne_true] at h
        cases h
      | true =>
        rw [hvalue, if_pos rfl] at h
        rw [List.filter_cons]
        split
        · rw [splitKind, if_neg hname, hvalue, if_pos rfl]
          exact ih h
        · exact ih h

/-- A table that names its kind of transport is read without the keys that are none of the kind's. -/
theorem ofMembers_filter {members : Toml.Members} {kind : Kind}
    (h : splitKind members none = .ok (some kind)) :
    ofMembers (members.filter fun member => kind.keys.contains member.1) = ofMembers members := by
  have hkind : splitKind (members.filter fun member => kind.keys.contains member.1) none =
      .ok (some kind) := by
    refine splitKind_filter ?_ h
    intro member hname
    rw [hname]
    cases kind <;> rfl
  rw [ofMembers, ofMembers, hkind, h]
  cases kind with
  | journal => rfl
  | pubSub =>
    dsimp only
    have hknown : ∀ member : String × Toml.Value, member.1 ∈ PubSubSettings.shape.names →
        Kind.pubSub.keys.contains member.1 = true :=
      fun member hname => List.contains_iff_mem.2 (List.mem_cons_of_mem kindName hname)
    rw [List.filter_filter, List.filter_congr fun member _ => Bool.and_comm _ _,
      ← List.filter_filter, Toml.Record.decodeTable_filter rfl hknown]

end TransportSettings

namespace IngressConfig

/-! ## The settings of a text -/

/-- An unknown key in a strict table of a document makes its settings be refused, whatever else the
document says. The table of the transport is read as if the keys that its kind does not know were
not there. -/
theorem unknown_keys_refused_or_dropped {text : String} {document : Toml.Members}
    (hparse : Toml.parse text = some document) :
    (∀ (table : ConfigTable) (found : List String) (key : String), table.strict = true →
      table.found? document = some found → key ∈ found → key ∉ table.keys →
      ∃ reason, ofToml text = .error (.malformed reason)) ∧
    ∀ before origin inner after kind,
      document = before ++ ("transport", .table origin inner) :: after →
      TransportSettings.splitKind inner none = .ok (some kind) →
      ofToml text = ofMembers (before ++ ("transport",
        .table origin (inner.filter fun member => kind.keys.contains member.1)) :: after) := by
  rw [ofToml_eq hparse]
  constructor
  · intro table found key hstrict hfound hmem hkey
    obtain ⟨difference, hdecode⟩ := refused_of_unknown hstrict hfound hmem hkey
    exact ⟨difference.message, by rw [ofMembers, hdecode]⟩
  · rintro before origin inner after kind rfl hkind
    have hvalue : TransportSettings.decode (.table origin inner) = TransportSettings.decode
        (.table origin (inner.filter fun member => kind.keys.contains member.1)) :=
      (TransportSettings.ofMembers_filter hkind).symm
    have hdecode : decode (before ++ ("transport", .table origin inner) :: after) =
        decode (before ++ ("transport",
          .table origin (inner.filter fun member => kind.keys.contains member.1)) :: after) :=
      Toml.Record.decodeTable_congr rfl (congrArg (Except.map _) hvalue) _ before after
    rw [ofMembers, ofMembers, hdecode]

/-- A text with a key of the log that there is not. -/
def misspeltLog : String :=
  "log.levels = 'warn'\nrouting.path = 'targets.json'\n[transport]\ntype = 'log'\n"

theorem unknown_keys_refused_or_dropped_log :
    ∃ document, Toml.parse misspeltLog = some document ∧
      ConfigTable.log.found? document = some ["levels"] ∧ "levels" ∉ ConfigTable.log.keys ∧
      ∃ reason, ofToml misspeltLog = .error (.malformed reason) := by
  have htables : (Toml.parse misspeltLog).bind (ConfigTable.log.found? ·) = some ["levels"] := by
    decide +kernel
  obtain ⟨document, hparse, hfound⟩ := Option.bind_eq_some_iff.1 htables
  have hkey : "levels" ∉ ConfigTable.log.keys := by decide
  exact ⟨document, hparse, hfound, hkey, (unknown_keys_refused_or_dropped hparse).1 .log _ _ rfl
    hfound List.mem_cons_self hkey⟩

theorem eq_ok_of_toOption {ε α : Type} {x : Except ε α} {a : α} (h : x.toOption = some a) :
    x = .ok a := by
  cases x with
  | error e => cases h
  | ok b => exact congrArg Except.ok (Option.some.inj h)

/-- A text that means to give the transport a project. -/
def misspeltProject : String :=
  "[routing]\npath = 'targets.json'\n[transport]\ntype = 'pubsub_http'\nproject = 'shop'\n"

/-- A text that means to give the journal a file. -/
def misspeltJournal : String :=
  "[routing]\npath = 'targets.json'\n[transport]\ntype = 'log'\nfile = 'events'\n"

/-- An unknown key in the table of either transport is not noticed, and leaves the defaults. -/
theorem unknown_transport_key_accepted :
    ((Toml.parse misspeltProject).bind ((ConfigTable.transport .pubSub).found? ·) =
          some ["project", "type"] ∧
        "project" ∉ (ConfigTable.transport .pubSub).keys ∧
        ofToml misspeltProject =
          .ok { routing := { path := "targets.json" }, transport := .pubSub {} }) ∧
      (Toml.parse misspeltJournal).bind ((ConfigTable.transport .journal).found? ·) =
          some ["file", "type"] ∧
        "file" ∉ (ConfigTable.transport .journal).keys ∧
        ofToml misspeltJournal = .ok { routing := { path := "targets.json" } } := by
  have hproject : (ofToml misspeltProject).toOption =
      some { routing := { path := "targets.json" }, transport := .pubSub {} } := by
    decide +kernel
  have hjournal : (ofToml misspeltJournal).toOption =
      some { routing := { path := "targets.json" } } := by
    decide +kernel
  exact ⟨⟨by decide +kernel, by decide, eq_ok_of_toOption hproject⟩, by decide +kernel, by decide,
    eq_ok_of_toOption hjournal⟩

end IngressConfig

end EventIngress
