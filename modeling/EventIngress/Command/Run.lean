import EventIngress.Command.Routes
import EventIngress.Command.Send

/-!
# Running commands

Results:

* `Command.run`: what a command leaves.
* `Invocation.run`: what a list of arguments leaves.
-/

namespace EventIngress

/-- Checks the settings (`command_config_validate`). -/
def validateConfig (files : FileTree) (env : Environment) (path : Option String) : Outcome :=
  match IngressConfig.load files path env with
  | .error fault => .refused (.config fault)
  | .ok _ => { output := ["config ok"] }

/-- What a command leaves. -/
def Command.run (files : FileTree) (env : Environment) (exchange : HttpRequest → Exchange) :
    Command → Outcome
  | send options => options.run files env exchange
  | validateConfig path => EventIngress.validateConfig files env path
  | checkRoutes file maxBytes => EventIngress.checkRoutes files env file maxBytes

/-- The name and the version of the program. -/
def versionLine : String := "decouple-ingress 0.1.0"

/-- How the program is used. -/
def usageLines : List String :=
  ["Usage:",
    "  decouple-ingress send [--config PATH] --broker NAMESPACE/NAME --event PATH",
    "                        [--traceparent TEXT [--tracestate TEXT]]",
    "  decouple-ingress config validate [--config PATH]",
    "  decouple-ingress routes check --file PATH [--max-bytes BYTES]"]

/-- What an invocation leaves. -/
def Invocation.run (files : FileTree) (env : Environment) (exchange : HttpRequest → Exchange) :
    Invocation → Outcome
  | version => { output := [versionLine] }
  | help => { output := usageLines }
  | misuse => { status := .misuse }
  | command c => c.run files env exchange

end EventIngress
