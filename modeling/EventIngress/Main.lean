import EventIngress.Command.Run

/-!
# The program

Looks up the variables and reads the files that the arguments ask for, lets the command run on them,
and prints what it leaves: the output, and beside it the notices. Log entries carry no time. There
is no way out over HTTP, so a request has no answer.
-/

namespace EventIngress

/-- Adds a variable, if it is set. -/
def addVariable (env : Environment) (name : String) : IO Environment := do
  match ← IO.getEnv name with
  | some value => return env.insert name value
  | none => return env

/-- Reads on until there are `limit` bytes or no more. -/
partial def readOn (handle : IO.FS.Handle) (limit : Nat) (taken : ByteArray) : IO ByteArray := do
  if limit ≤ taken.size then return taken
  let more ← handle.read (USize.ofNat (min 65536 (limit - taken.size)))
  if more.isEmpty then return taken
  readOn handle limit (taken ++ more)

/-- Adds what is at a path, if there is anything that can be read. Of a file no more than `limit`
bytes are read, beside its reported size. -/
def addFile (files : FileTree) (path : String) (limit : Nat) : IO FileTree := do
  try
    let place ← IO.FS.realPath path
    if ← place.isDir then return files.putDirectory path
    let reported := (← place.metadata).byteSize.toNat
    let content ← readOn (← IO.FS.Handle.mk place .read) limit .empty
    return files.putNode path (.file reported content.toList)
  catch _ => return files

/-- Adds what the settings in a file name: a token variable and a routing document. -/
def addSettings (files : FileTree) (env : Environment) (given : Option String) :
    IO (FileTree × Environment) := do
  let files ← addFile files (IngressConfig.filePath given env) (IngressConfig.maxFileBytes + 1)
  match IngressConfig.load files given env with
  | .error _ => return (files, env)
  | .ok config =>
    let files ← addFile files config.routing.path (config.routing.maxBytes + 1)
    match config.transport with
    | .pubSub { tokenVariable := some name, .. } => return (files, ← addVariable env name)
    | _ => return (files, env)

/-- The files and variables that a command asks for. -/
def surroundings (command : Command) : IO (FileTree × Environment) := do
  let names := [Logging.filterVariable, projectVariable, IngressConfig.fileVariable]
  let env ← names.foldlM addVariable .empty
  match command with
  | .send options =>
    let (files, env) ← addSettings .empty env options.config
    return (← addFile files options.event (maxEventBytes + 1), env)
  | .validateConfig path => addSettings .empty env path
  | .checkRoutes file maxBytes => return (← addFile .empty file (maxBytes + 1), env)

/-- Prints a notice. -/
def printNotice (format : LogFormat) (notice : Notice) : IO Unit := do
  let errors ← IO.getStderr
  match notice with
  | .record text => errors.write ⟨text.toArray⟩
  | .fault f => errors.putStrLn f.message
  | .report entry =>
    match format with
    | .console => errors.putStrLn entry.consoleText
    | .json => errors.putStrLn (Bytes.lossyText entry.json)

end EventIngress

open EventIngress in
/-- Runs the program. -/
def main (args : List String) : IO UInt32 := do
  let invocation := Invocation.parse args
  let (files, env) ←
    match invocation with
    | .command command => surroundings command
    | _ => pure (.empty, .empty)
  let outcome := invocation.run files env fun _ => .failed "no way out over HTTP"
  for line in outcome.output do
    (← IO.getStdout).putStrLn line
  for notice in outcome.notices do
    printNotice outcome.format notice
  if outcome.status = .misuse then
    for line in usageLines do
      (← IO.getStderr).putStrLn line
  return UInt32.ofNat outcome.status.code
