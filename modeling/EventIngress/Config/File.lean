import EventIngress.Config.Document
import EventIngress.Config.Resolve
import EventIngress.Files.Tree

/-!
# Settings in a file

Results:

* `IngressConfig.filePath`, `IngressConfig.checkFilePath`: the file that holds the settings, and the
  check of its path.
* `IngressConfig.load`: the settings in it.
-/

namespace EventIngress.IngressConfig

/-- The variable that names the file (`CONFIG_ENV_VAR`). -/
def fileVariable : String := "DECOUPLE_INGRESS_CONFIG"

/-- The file if nothing names one (`DEFAULT_CONFIG_NAME`). -/
def defaultFile : String := "decouple-ingress.toml"

/-- Largest size of the file (`MAX_CONFIG_FILE_SIZE`). -/
def maxFileBytes : Nat := 1024 * 1024

/-- The path of the file has to obey the limits (`validate_path`). -/
def checkFilePath (path : String) : Except ConfigFault Unit :=
  match pathFault? path with
  | some .tooLong => .error (.invalid "config path exceeds max length")
  | some .componentTooLong => .error (.invalid "config path component too long")
  | none => .ok ()

/-- The file that holds the settings (`resolve_path`): the given one, else the one that the
environment names. -/
def filePath (given : Option String) (env : Environment) : String :=
  (given.orElse fun _ => env.find? fileVariable).getD defaultFile

/-- The settings in the bytes of a file. -/
def ofBytes (content : Bytes) : Except ConfigFault IngressConfig :=
  if maxFileBytes < content.length then .error (.invalid "config file exceeds size limit")
  else
    match Bytes.text? content with
    | none => .error (.invalid "config file must be utf-8")
    | some text => ofToml text

/-- The settings in the file at a path. -/
def loadFile (files : FileTree) (path : String) : Except ConfigFault IngressConfig :=
  match checkFilePath path with
  | .error fault => .error fault
  | .ok () =>
    match files.read path with
    | .error fault => .error (.unreadable fault.message)
    | .ok content => ofBytes content

/-- The settings in the file that is given, named by the environment, or looked for by default
(`IngressConfig.load`). -/
def load (files : FileTree) (given : Option String) (env : Environment) :
    Except ConfigFault IngressConfig :=
  loadFile files (filePath given env)

end EventIngress.IngressConfig
