import EventIngress.Log
import EventIngress.Time.Span

/-!
# Settings

What an ingress is set up with: logging, the routing document, publishing, and where messages go.
Settings that are not given have the values of the fields' defaults.

Results:

* `IngressConfig`: all settings.
* `ConfigFault`, `ConfigFault.message`: why there are none.
-/

namespace EventIngress

/-- How log entries are written. -/
inductive LogFormat where
  | console
  | json
  deriving DecidableEq, Repr

/-- What is logged, and how (`LogConfig`). -/
structure LogSettings where
  level : LogLevel := .info
  format : LogFormat := .console
  deriving DecidableEq, Repr

/-- Where the routing document is, how often it is read again, and how large it may be
(`RoutingConfig`). -/
structure RoutingSettings where
  path : String
  refreshMillis : Nat := 1000
  maxBytes : Nat := 4 * 1024 * 1024
  deriving DecidableEq, Repr

/-- How long a publish may take (`PublishConfig`); without a value, the sink decides. -/
structure PublishSettings where
  timeoutMillis : Option Nat := none
  deriving DecidableEq, Repr

/-- How messages are published over HTTP (`PubSubHttpSettings`). -/
structure PubSubSettings where
  endpoint : String := "https://pubsub.googleapis.com"
  /-- The project of topics that are named without one. -/
  project : Option String := none
  /-- The environment variable that holds the token. -/
  tokenVariable : Option String := none
  connectMillis : Nat := 5000
  requestMillis : Nat := 30000
  deriving DecidableEq, Repr

/-- Where messages go (`TransportConfig`). -/
inductive TransportSettings where
  /-- Into a journal. -/
  | journal
  /-- To a service over HTTP. -/
  | pubSub (settings : PubSubSettings)
  deriving DecidableEq, Repr

/-- All settings. -/
structure IngressConfig where
  log : LogSettings := {}
  routing : RoutingSettings
  publish : PublishSettings := {}
  transport : TransportSettings := .journal
  deriving DecidableEq, Repr

/-- Why there are no settings (`ConfigError`). -/
inductive ConfigFault where
  /-- The file cannot be read. -/
  | unreadable (reason : String)
  /-- The text is no TOML, or of another shape. -/
  | malformed (reason : String)
  /-- A setting is out of its bounds. -/
  | invalid (reason : String)
  deriving DecidableEq, Repr

/-- The wording of the fault. -/
def ConfigFault.message : ConfigFault → String
  | unreadable reason => "config io error: " ++ reason
  | malformed reason => "config parse error: " ++ reason
  | invalid reason => "invalid config: " ++ reason

end EventIngress
