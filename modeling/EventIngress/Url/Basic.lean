import EventIngress.Url.Host

/-!
# URLs

A URL is read by the rules of browsers: blanks around it, tabs and line ends do not count, the
schemes of the web may be followed by any number of slashes of either kind, and the segments `.` and
`..` of a path are resolved away.

Results:

* `Url.parse`: reads a URL.
* `Url.target`: what a request for a URL asks its host for.
-/

namespace EventIngress

/-- A URL without its fragment. -/
structure Url where
  scheme : String
  host : Option String
  port : Option Nat
  path : String
  query : Option String
  deriving DecidableEq, Repr

namespace Url

/-! ## Schemes -/

/-- The schemes of the web. -/
def webSchemes : List String :=
  ["http", "https", "ws", "wss", "ftp"]

/-- Whether a character is an ASCII letter. -/
def isLetter (c : Char) : Bool :=
  c.isAlpha

/-- Whether a character may stand in a scheme after its first letter. -/
def isSchemeChar (c : Char) : Bool :=
  c.isAlphanum || c == '+' || c == '-' || c == '.'

/-- The scheme of a URL in lowercase letters, and what follows its colon. -/
def scheme? (s : List Char) : Option (String × List Char) :=
  match s with
  | [] => none
  | c :: _ =>
    if isLetter c then
      match s.dropWhile isSchemeChar with
      | ':' :: rest => some (String.ofList ((s.takeWhile isSchemeChar).map Char.toLower), rest)
      | _ => none
    else none

/-! ## Authorities -/

/-- Whether a character ends an authority. -/
def endsAuthority (web : Bool) (c : Char) : Bool :=
  c == '/' || c == '?' || c == '#' || (web && c == '\\')

/-- What follows the last `@` of an authority, if there is one. -/
def afterUser? (authority : List Char) : Option (List Char) :=
  if authority.contains '@' then some ((authority.reverse.takeWhile (· ≠ '@')).reverse) else none

/-- The host of an authority, up to the first colon outside brackets, and the rest. -/
def hostPart : (inside : Bool) → List Char → List Char × List Char
  | _, [] => ([], [])
  | inside, c :: rest =>
    if c = ':' ∧ inside = false then ([], c :: rest)
    else
      let next := if c = '[' then true else if c = ']' then false else inside
      let (host, after) := hostPart next rest
      (c :: host, after)

/-- The port that digits stand for. -/
def port? (digits : List Char) : Except UrlFault (Option Nat) :=
  if digits.isEmpty then .ok none
  else
    match Host.number? 10 digits with
    | some n => if n < 65536 then .ok (some n) else .error .invalidPort
    | none => .error .invalidPort

/-- The host and the port of an authority. -/
def authority? (web : Bool) (authority : List Char) :
    Except UrlFault (Option (List Char) × Option Nat) :=
  match afterUser? authority with
  | some [] => .error .emptyHost
  | user =>
    let (host, rest) := hostPart false (user.getD authority)
    if host.isEmpty then
      if web || !rest.isEmpty || user.isSome then .error .emptyHost else .ok (none, none)
    else
      match if web then Host.parse host else Host.parseOpaque host with
      | .error fault => .error fault
      | .ok host =>
        match port? (rest.drop 1) with
        | .error fault => .error fault
        | .ok port => .ok (some host, port)

/-! ## Paths -/

/-- The characters of a path that are encoded. -/
def pathSet : List Char :=
  [' ', '"', '<', '>', '\x60', '#', '?', '\x7b', '\x7d']

/-- The characters of a query that are encoded. -/
def querySet (web : Bool) : List Char :=
  [' ', '"', '#', '<', '>'] ++ (if web then ['\''] else [])

/-- Whether a segment is one dot, written as it is or encoded. -/
def isDot (segment : List Char) : Bool :=
  segment == ['.'] || segment.map Char.toLower == ['%', '2', 'e']

/-- Whether a segment is two dots. -/
def isTwoDots (segment : List Char) : Bool :=
  [['.', '.'], ['.', '%', '2', 'e'], ['%', '2', 'e', '.'], ['%', '2', 'e', '%', '2', 'e']].contains
    (segment.map Char.toLower)

/-- Resolves the segments of a path; `done` holds the resolved ones, last first. A dot segment at
the end leaves an empty one. -/
def resolve : (done : List (List Char)) → List (List Char) → List (List Char)
  | done, [] => done.reverse
  | done, segment :: rest =>
    if isTwoDots segment then
      resolve (if rest.isEmpty then [] :: done.tail else done.tail) rest
    else if isDot segment then
      resolve (if rest.isEmpty then [] :: done else done) rest
    else resolve (segment :: done) rest

/-- The path of a URL with a host: segments after slashes. -/
def hostedPath (web : Bool) (path : List Char) : String :=
  let path := if web then path.map fun c => if c = '\\' then '/' else c else path
  if path.isEmpty ∧ web = false then ""
  else
    let path := if path.head? = some '/' then path.drop 1 else path
    let segments := (Text.fields '/' path).map (Percent.encode pathSet)
    String.ofList ((resolve [] segments).flatMap ('/' :: ·))

/-- The parts of what follows an authority: path and query. The fragment is dropped. -/
def pathAndQuery (s : List Char) : List Char × Option (List Char) :=
  let s := s.takeWhile (· ≠ '#')
  (s.takeWhile (· ≠ '?'), if s.contains '?' then some ((s.dropWhile (· ≠ '?')).drop 1) else none)

/-! ## Reading -/

/-- Whether a character at the ends of a URL does not count. -/
def isOuterBlank (c : Char) : Bool :=
  c.toNat ≤ 0x20

/-- The characters of a URL that count. -/
def relevant (s : String) : List Char :=
  let s := s.toList.dropWhile isOuterBlank
  let s := (s.reverse.dropWhile isOuterBlank).reverse
  s.filter fun c => c ≠ '\t' ∧ c ≠ '\n' ∧ c ≠ '\r'

/-- The URL with an authority and what follows it. -/
def hosted (scheme : String) (web : Bool) (s : List Char) : Except UrlFault Url :=
  match authority? web (s.takeWhile fun c => !endsAuthority web c) with
  | .error fault => .error fault
  | .ok (host, port) =>
    let (path, query) := pathAndQuery (s.dropWhile fun c => !endsAuthority web c)
    .ok ⟨scheme, host.map String.ofList, port, hostedPath web path,
      query.map fun q => String.ofList (Percent.encode (querySet web) q)⟩

/-- The URL without an authority. -/
def plain (scheme : String) (s : List Char) : Url :=
  let (path, query) := pathAndQuery s
  ⟨scheme, none, none,
    if path.head? = some '/' then hostedPath false path
    else String.ofList (Percent.encode [] path),
    query.map fun q => String.ofList (Percent.encode (querySet false) q)⟩

/-- Reads a URL. -/
def parse (s : String) : Except UrlFault Url :=
  match scheme? (relevant s) with
  | none => .error .relative
  | some (scheme, rest) =>
    if webSchemes.contains scheme then
      hosted scheme true (rest.dropWhile fun c => c == '/' || c == '\\')
    else
      match rest with
      | '/' :: '/' :: after => if scheme = "file" then .ok (plain scheme after) else
          hosted scheme false after
      | _ => .ok (plain scheme rest)

/-- What a request for the URL asks its host for: the path and the query. -/
def target (u : Url) : String :=
  match u.query with
  | none => u.path
  | some q => u.path ++ "?" ++ q

end Url

end EventIngress
