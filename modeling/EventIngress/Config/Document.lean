import EventIngress.Config.Bounds
import EventIngress.Toml.Document
import EventIngress.Toml.Shape

/-!
# Settings as TOML

Results:

* `IngressConfig.decode`: the settings of a document.
* `IngressConfig.ofToml`: the settings of a text, within their bounds.
-/

namespace EventIngress

namespace LogSettings

/-- The names of the levels. -/
def levels : List (String × LogLevel) :=
  [("trace", .trace), ("debug", .debug), ("info", .info), ("warn", .warn), ("error", .error)]

/-- The names of the formats. -/
def formats : List (String × LogFormat) :=
  [("console", .console), ("json", .json)]

/-- The shape of the log settings. -/
def shape : Toml.Record LogSettings where
  fields :=
    [.part "level" false (Toml.choiceOf levels) fun a s => { s with level := a },
      .part "format" false (Toml.choiceOf formats) fun a s => { s with format := a }]

end LogSettings

namespace RoutingSettings

/-- The shape of the routing settings. -/
def shape : Toml.Record RoutingSettings where
  fields :=
    [.part "path" true Toml.textOf fun a s => { s with path := a },
      .part "refresh_interval_ms" false Toml.countOf fun a s => { s with refreshMillis := a },
      .part "max_file_bytes" false Toml.countOf fun a s => { s with maxBytes := a }]

end RoutingSettings

namespace PublishSettings

/-- The shape of the publish settings. -/
def shape : Toml.Record PublishSettings where
  fields :=
    [.part "timeout_ms" false Toml.countOf fun a s => { s with timeoutMillis := some a }]

end PublishSettings

namespace PubSubSettings

/-- The shape of the settings for publishing over HTTP. Other members do not count. -/
def shape : Toml.Record PubSubSettings where
  fields :=
    [.part "endpoint" false Toml.textOf fun a s => { s with endpoint := a },
      .part "project_id" false Toml.textOf fun a s => { s with project := some a },
      .part "token_env" false Toml.textOf fun a s => { s with tokenVariable := some a },
      .part "connect_timeout_ms" false Toml.countOf fun a s => { s with connectMillis := a },
      .part "request_timeout_ms" false Toml.countOf fun a s => { s with requestMillis := a }]
  strict := false

end PubSubSettings

namespace TransportSettings

/-- The kinds of transport. -/
inductive Kind where
  | journal
  | pubSub
  deriving DecidableEq, Repr

/-- The name of the member that holds the kind of transport. -/
def kindName : String := "type"

/-- The names of the kinds. -/
def kinds : List (String × Kind) :=
  [("log", .journal), ("pubsub_http", .pubSub)]

/-- The kind of transport that a value names. -/
def kindOf (value : Toml.Value) : Except Toml.Mismatch Kind :=
  match Toml.textOf value with
  | .error difference => .error difference
  | .ok name => Toml.chosen kinds name

/-- Goes through the members in order and sets those aside that do not name the kind. -/
def splitKind : Toml.Members → Option Kind → Except Toml.Mismatch (Option Kind)
  | [], kind => .ok kind
  | (name, value) :: members, kind =>
    if name = kindName then
      match kindOf value with
      | .error difference => .error difference
      | .ok kind => splitKind members (some kind)
    else if value.storable then splitKind members kind
    else .error .wrongKind

/-- The transport settings of a table, whose other members are those of the kind that it names. -/
def ofMembers (members : Toml.Members) : Except Toml.Mismatch TransportSettings :=
  match splitKind members none with
  | .error difference => .error difference
  | .ok none => .error (.missingField kindName)
  | .ok (some .journal) => .ok .journal
  | .ok (some .pubSub) =>
    (PubSubSettings.shape.decodeTable {} (members.filter (·.1 != kindName))).map .pubSub

/-- The transport settings of a list: the kind, then the values of its members and no more. -/
def ofItems : List Toml.Value → Except Toml.Mismatch TransportSettings
  | [] => .error (.missingField kindName)
  | value :: rest =>
    match kindOf value with
    | .error difference => .error difference
    | .ok kind =>
      if rest.all (·.storable) then
        match kind with
        | .journal => if rest.isEmpty then .ok .journal else .error .wrongKind
        | .pubSub =>
          match Toml.Record.decodeListed PubSubSettings.shape.fields rest {} with
          | .error difference => .error difference
          | .ok (settings, left) => if left.isEmpty then .ok (.pubSub settings) else .error .wrongKind
      else .error .wrongKind

/-- The transport settings. -/
def decode (value : Toml.Value) : Except Toml.Mismatch TransportSettings :=
  match value with
  | .array _ items => ofItems items
  | _ =>
    match value.members? with
    | some members => ofMembers members
    | none => .error .wrongKind

end TransportSettings

namespace IngressConfig

/-- The shape of all settings. -/
def shape : Toml.Record IngressConfig where
  fields :=
    [.part "log" false (LogSettings.shape.decode {}) fun a c => { c with log := a },
      .part "routing" true (RoutingSettings.shape.decode { path := "" })
        fun a c => { c with routing := a },
      .part "publish" false (PublishSettings.shape.decode {}) fun a c => { c with publish := a },
      .part "transport" false TransportSettings.decode fun a c => { c with transport := a }]

/-- The settings of a document. -/
def decode (members : Toml.Members) : Except Toml.Mismatch IngressConfig :=
  shape.decodeTable { routing := { path := "" } } members

/-- The settings of a text, within their bounds (`from_toml_str`). The reason why a text is malformed
names the difference from the settings where there is one. Why a text is no TOML, and the place in
the text, are put into words by the reader of TOML, and are left out. -/
def ofToml (text : String) : Except ConfigFault IngressConfig :=
  match Toml.parse text with
  | none => .error (.malformed "invalid TOML")
  | some members =>
    match decode members with
    | .error difference => .error (.malformed difference.message)
    | .ok config => config.check.map fun _ => config

end IngressConfig

end EventIngress
