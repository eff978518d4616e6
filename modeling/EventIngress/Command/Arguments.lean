import EventIngress.Text.Cut

/-!
# Commands

A command is a word or two, followed by options. An option has one value, which is given as the next
argument or after an equals sign, and an option is given once. What is wrong first, or asks for help
first, decides.

Results:

* `Command`: the three commands with their options.
* `Invocation.parse`: what a list of arguments asks for.
-/

namespace EventIngress

/-- The options of a send (`SendCommand`). -/
structure SendOptions where
  config : Option String := none
  broker : String
  event : String
  traceparent : Option String := none
  tracestate : Option String := none
  deriving DecidableEq, Repr

/-- What can be done (`Commands`). -/
inductive Command where
  /-- Sends one event to a broker. -/
  | send (options : SendOptions)
  /-- Reads the settings and checks their bounds. -/
  | validateConfig (path : Option String)
  /-- Shows the brokers of a routing document. -/
  | checkRoutes (file : String) (maxBytes : Nat)
  deriving DecidableEq, Repr

/-- What a list of arguments asks for. -/
inductive Invocation where
  | version
  | help
  /-- The arguments make no sense. -/
  | misuse
  | command (c : Command)
  deriving DecidableEq, Repr

/-! ## Options -/

/-- What the value of an option has to be. -/
inductive ValueKind where
  | text
  /-- A text that is not empty. -/
  | path
  /-- A number below `2^64`. -/
  | count
  deriving DecidableEq, Repr

/-- An option: its name after the two hyphens, and its value. -/
structure OptionShape where
  name : String
  kind : ValueKind
  deriving DecidableEq, Repr

/-- A decimal number, with or without a plus sign. -/
def decimal? (s : String) : Option Nat :=
  let digits :=
    match s.toList with
    | '+' :: rest => rest
    | cs => cs
  if digits.isEmpty || !digits.all Char.isDigit then none
  else some (digits.foldl (fun n c => n * 10 + (c.toNat - 0x30)) 0)

/-- Whether a value is of a kind. -/
def ValueKind.accepts (kind : ValueKind) (value : String) : Bool :=
  match kind with
  | text => true
  | path => value != ""
  | count => (decimal? value).any fun n => decide (n < 0x10000000000000000)

/-- Whether an argument looks like an option, so that it is no value. -/
def looksLikeOption (arg : String) : Bool :=
  match arg.toList with
  | '-' :: _ :: _ => true
  | _ => false

/-- Whether an argument asks for help in short, possibly with more letters behind. -/
def asksHelpInShort (arg : String) : Bool :=
  match arg.toList with
  | '-' :: 'h' :: _ => true
  | _ => false

/-- The name and the value of a long option; the value is there if an equals sign is. -/
def longOption? (arg : String) : Option (String × Option String) :=
  match arg.toList with
  | '-' :: '-' :: rest =>
    match Text.cut? '=' rest with
    | some (name, value) => some (String.ofList name, some (String.ofList value))
    | none => some (String.ofList rest, none)
  | _ => none

/-- The values of options by name. -/
abbrev OptionValues := List (String × String)

/-- Takes options up to the end of the arguments. -/
def takeOptions (shapes : List OptionShape) :
    List String → OptionValues → Except Invocation OptionValues
  | [], taken => .ok taken
  | arg :: args, taken =>
    if arg = "--" then if args.isEmpty then .ok taken else .error .misuse
    else
      match longOption? arg with
      | none => .error (if asksHelpInShort arg then .help else .misuse)
      | some ("help", none) => .error .help
      | some (name, given) =>
        match shapes.find? (·.name == name) with
        | none => .error .misuse
        | some shape =>
          if (taken.lookup name).isSome then .error .misuse
          else
            match given, args with
            | some value, args =>
              if shape.kind.accepts value then takeOptions shapes args ((name, value) :: taken)
              else .error .misuse
            | none, value :: args =>
              if !looksLikeOption value && shape.kind.accepts value then
                takeOptions shapes args ((name, value) :: taken)
              else .error .misuse
            | none, [] => .error .misuse

/-! ## Commands -/

/-- The options of a send. -/
def sendShapes : List OptionShape :=
  [⟨"config", .path⟩, ⟨"broker", .text⟩, ⟨"event", .path⟩, ⟨"traceparent", .text⟩,
    ⟨"tracestate", .text⟩]

/-- The options of a check of the settings. -/
def validateShapes : List OptionShape :=
  [⟨"config", .path⟩]

/-- The options of a check of a routing document. -/
def checkShapes : List OptionShape :=
  [⟨"file", .path⟩, ⟨"max-bytes", .count⟩]

/-- Largest size of a routing document if none is given (`DEFAULT_ROUTES_MAX_BYTES`). -/
def defaultMaxBytes : Nat := 4 * 1024 * 1024

namespace Invocation

/-- What comes out where options are needed. -/
def ofOptions (shapes : List OptionShape) (args : List String)
    (make : OptionValues → Option Command) : Invocation :=
  match takeOptions shapes args [] with
  | .error detour => detour
  | .ok taken =>
    match make taken with
    | some c => command c
    | none => misuse

/-- A send needs a broker and an event, and a tracestate needs a traceparent. -/
def ofSend (taken : OptionValues) : Option Command :=
  match taken.lookup "broker", taken.lookup "event" with
  | some broker, some event =>
    let traceparent := taken.lookup "traceparent"
    let tracestate := taken.lookup "tracestate"
    if tracestate.isSome && traceparent.isNone then none
    else some (.send ⟨taken.lookup "config", broker, event, traceparent, tracestate⟩)
  | _, _ => none

/-- A check of the settings needs nothing. -/
def ofValidate (taken : OptionValues) : Option Command :=
  some (.validateConfig (taken.lookup "config"))

/-- A check of a routing document needs its file. -/
def ofCheck (taken : OptionValues) : Option Command :=
  (taken.lookup "file").map fun file =>
    .checkRoutes file (((taken.lookup "max-bytes").bind decimal?).getD defaultMaxBytes)

/-- What arguments ask for that name no command. -/
def withoutCommand (arg : String) : Invocation :=
  if arg = "--help" || asksHelpInShort arg then help else misuse

/-- What a list of arguments asks for. -/
def parse (args : List String) : Invocation :=
  match args with
  | "send" :: args => ofOptions sendShapes args ofSend
  | "config" :: "validate" :: args => ofOptions validateShapes args ofValidate
  | "routes" :: "check" :: args => ofOptions checkShapes args ofCheck
  | "config" :: arg :: _ => withoutCommand arg
  | "routes" :: arg :: _ => withoutCommand arg
  | arg :: _ =>
    match arg.toList with
    | '-' :: 'V' :: _ => version
    | _ => if arg = "--version" then version else withoutCommand arg
  | [] => misuse

end Invocation

end EventIngress
