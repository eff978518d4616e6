import EventIngress.Config.Basic
import EventIngress.Files.Path
import EventIngress.Text.Blank

/-!
# The bounds of settings

Each setting has its bounds; of several that are broken, the first in the order of the settings is
reported.

Results:

* `checkRange`, `checkPath`: the bounds of a time and of a path.
* `IngressConfig.check`: all bounds.
-/

namespace EventIngress

/-- A time in milliseconds has to lie between two bounds, both of which are allowed
(`validate_timeout_range`). -/
def checkRange (setting : String) (millis low high : Nat) : Except ConfigFault Unit :=
  if low ≤ millis ∧ millis ≤ high then .ok ()
  else
    .error (.invalid (setting ++ " must be between " ++ toString low ++ " and " ++ toString high ++
      " milliseconds"))

/-- A path has to be more than blanks, and obeys the limits without blanks at its ends
(`validate_path_string`). -/
def checkPath (setting path : String) : Except ConfigFault Unit :=
  let path := Text.trim path
  if path = "" then .error (.invalid (setting ++ " must be non-empty"))
  else
    match pathFault? path with
    | some .tooLong => .error (.invalid (setting ++ " exceeds max length"))
    | some .componentTooLong => .error (.invalid (setting ++ " path component too long"))
    | none => .ok ()

namespace RoutingSettings

/-- Largest size that may be allowed for a routing document (`MAX_ROUTING_FILE_BYTES`). -/
def maxBytesLimit : Nat := 64 * 1024 * 1024

/-- The bounds of the routing settings (`RoutingConfig.validate`). -/
def check (s : RoutingSettings) : Except ConfigFault Unit := do
  checkPath "routing.path" s.path
  checkRange "routing.refresh_interval_ms" s.refreshMillis 100 600000
  if s.maxBytes = 0 ∨ maxBytesLimit < s.maxBytes then
    throw (.invalid ("routing.max_file_bytes must be between 1 and " ++ toString maxBytesLimit))

end RoutingSettings

namespace PublishSettings

/-- The bounds of the publish settings (`PublishConfig.validate`). -/
def check (s : PublishSettings) : Except ConfigFault Unit :=
  match s.timeoutMillis with
  | none => .ok ()
  | some millis => checkRange "publish.timeout_ms" millis 1 300000

end PublishSettings

namespace PubSubSettings

/-- Largest length of the name of a project in bytes (`MAX_PROJECT_ID_LENGTH`). -/
def maxProjectLength : Nat := 30

/-- An endpoint starts with the mark of its scheme, after blanks. -/
def checkEndpoint (endpoint : String) : Except ConfigFault Unit :=
  let endpoint := (Text.trim endpoint).toList
  if "http://".toList.isPrefixOf endpoint ∨ "https://".toList.isPrefixOf endpoint then .ok ()
  else .error (.invalid "transport.endpoint must be an http or https url")

/-- A project has a short name without slashes; blanks at its ends do not count. -/
def checkProject (project : String) : Except ConfigFault Unit :=
  let project := Text.trim project
  if project = "" ∨ maxProjectLength < project.utf8ByteSize then
    .error (.invalid
      ("transport.project_id must be 1..=" ++ toString maxProjectLength ++ " characters"))
  else if project.toList.contains '/' then
    .error (.invalid "transport.project_id must not contain '/'")
  else .ok ()

/-- The name of a variable is more than blanks. -/
def checkTokenVariable (name : String) : Except ConfigFault Unit :=
  if Text.allBlank name then .error (.invalid "transport.token_env must be non-empty")
  else .ok ()

/-- The bounds of the settings for publishing over HTTP (`PubSubHttpSettings.validate`). -/
def check (s : PubSubSettings) : Except ConfigFault Unit := do
  checkEndpoint s.endpoint
  match s.project with
  | none => pure ()
  | some project => checkProject project
  match s.tokenVariable with
  | none => pure ()
  | some name => checkTokenVariable name
  checkRange "transport.connect_timeout_ms" s.connectMillis 100 60000
  checkRange "transport.request_timeout_ms" s.requestMillis 100 300000

end PubSubSettings

namespace TransportSettings

/-- The bounds of the transport settings (`TransportConfig.validate`). -/
def check : TransportSettings → Except ConfigFault Unit
  | journal => .ok ()
  | pubSub settings => settings.check

end TransportSettings

namespace IngressConfig

/-- The bounds of all settings (`IngressConfig.validate`). -/
def check (c : IngressConfig) : Except ConfigFault Unit := do
  c.routing.check
  c.publish.check
  c.transport.check

end IngressConfig

end EventIngress
