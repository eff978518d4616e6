import EventIngress.Config.Basic
import EventIngress.Text.Blank
import EventIngress.Transport.PubSub

/-!
# Settings from the environment

Results:

* `PubSubSettings.resolve`: the settings of a factory, with a project and a token from the
  environment.
-/

namespace EventIngress

/-- The variables of an environment. -/
abbrev Environment := SortedMap String String

/-- The variable that holds the project if the settings name none (`PROJECT_ID_ENV_VAR`). -/
def projectVariable : String := "PROJECT_ID"

namespace PubSubSettings

/-- The project of the settings, else that of the environment; a blank one does not count. -/
def resolveProject (s : PubSubSettings) (env : Environment) : Option String :=
  ((s.project.orElse fun _ => env.find? projectVariable).map Text.trim).filter (· != "")

/-- The token in the variable that the settings name, which has to be there and more than
blanks. -/
def resolveToken (s : PubSubSettings) (env : Environment) : Except ConfigFault (Option String) :=
  match s.tokenVariable with
  | none => .ok none
  | some name =>
    match (env.find? name).filter (!Text.allBlank ·) with
    | some token => .ok (some token)
    | none => .error (.invalid ("transport.token_env " ++ name ++ " is not set"))

/-- The settings of a factory (`resolve_with`). -/
def resolve (s : PubSubSettings) (env : Environment) : Except ConfigFault PubSubConfig :=
  (s.resolveToken env).map fun token =>
    { endpoint := PubSubFactory.trimSlashes s.endpoint
      project := s.resolveProject env
      token := token
      connectTimeout := .ofMillis s.connectMillis
      requestTimeout := .ofMillis s.requestMillis }

end PubSubSettings

end EventIngress
