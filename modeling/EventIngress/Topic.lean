import EventIngress.Text.Cut
import EventIngress.Text.Quoted

/-!
# Topics

A topic is named by a bare topic name or by `projects/{project}/topics/{name}`. A `TopicId` holds
the two parts and the fact that each of them obeys its naming rule, so that a value of the type is
always a usable topic.

Results:

* `TopicId`, `TopicId.text`: a topic and its text form.
* `TopicId.parse`: reads the text form, or says which rule is broken first.
* `TopicId.nameFault?`, `TopicId.projectFault?`: the naming rules.
-/

namespace EventIngress

/-- Which naming rule a text breaks (`TopicIdError`). -/
inductive TopicFault where
  /-- There is no text. -/
  | empty
  /-- The name has too few or too many characters. -/
  | length (count : Nat)
  /-- The name does not start with a letter. -/
  | invalidStart
  /-- The name starts with the reserved letters. -/
  | reserved
  /-- The name holds a character that is not allowed. -/
  | invalidCharacter (c : Char)
  /-- The project breaks its naming rule. -/
  | invalidProject (project : String)
  /-- The text has slashes but not the form `projects/{project}/topics/{name}`. -/
  | malformed (text : String)
  deriving DecidableEq, Repr

namespace TopicFault

/-- The wording of the fault. -/
def message : TopicFault → String
  | empty => "topic id is empty"
  | length count => s!"topic name length {count} outside 3..=255"
  | invalidStart => "topic name must start with a letter"
  | reserved => "topic name must not start with \"goog\""
  | invalidCharacter c => "topic name contains invalid character " ++ Text.quoteChar c
  | invalidProject project => "invalid project id " ++ Text.quoteText project
  | malformed text => "malformed topic resource name " ++ Text.quoteText text

end TopicFault

/-! ## Naming rules -/

namespace TopicId

/-- Whether a character is a lowercase ASCII letter. -/
def isLower (c : Char) : Bool :=
  'a'.toNat ≤ c.toNat && c.toNat ≤ 'z'.toNat

/-- Whether a character is an ASCII letter. -/
def isLetter (c : Char) : Bool :=
  isLower c || ('A'.toNat ≤ c.toNat && c.toNat ≤ 'Z'.toNat)

/-- Whether a character is an ASCII digit. -/
def isDigit (c : Char) : Bool :=
  '0'.toNat ≤ c.toNat && c.toNat ≤ '9'.toNat

/-- Whether a character may stand in a topic name. -/
def isNameChar (c : Char) : Bool :=
  isLetter c || isDigit c || ['-', '_', '.', '~', '+', '%'].contains c

/-- Whether a character may stand in a project. -/
def isProjectChar (c : Char) : Bool :=
  isLower c || isDigit c || ['-', '.', ':'].contains c

/-- The letters that no topic name may start with (`RESERVED_TOPIC_PREFIX`). -/
def reservedStart : List Char :=
  ['g', 'o', 'o', 'g']

/-- The first rule that a topic name breaks (`validate_topic_name`): 3 to 255 characters, a letter
in front, not the reserved letters, and allowed characters only. -/
def nameFault? (name : List Char) : Option TopicFault :=
  if name.length < 3 ∨ 255 < name.length then some (.length name.length)
  else if !(name.head?.any isLetter) then some .invalidStart
  else if reservedStart.isPrefixOf name then some .reserved
  else (name.find? fun c => !(isNameChar c)).map .invalidCharacter

/-- The rule that a project breaks (`validate_project`): at least one character, and allowed
characters only. -/
def projectFault? (project : List Char) : Option TopicFault :=
  if !project.isEmpty && project.all isProjectChar then none
  else some (.invalidProject (String.ofList project))

end TopicId

/-! ## Topics -/

/-- A topic: its name and, where the name is qualified, its project. -/
structure TopicId where
  project : Option String
  name : String
  project_ok : ∀ p, project = some p → TopicId.projectFault? p.toList = none
  name_ok : TopicId.nameFault? name.toList = none
  deriving DecidableEq

namespace TopicId

/-- The text in front of a project (`PROJECTS_SEGMENT`). -/
def projectsSegment : List Char :=
  ['p', 'r', 'o', 'j', 'e', 'c', 't', 's', '/']

/-- The text between the slash after a project and the name (`TOPICS_SEGMENT`). -/
def topicsSegment : List Char :=
  ['t', 'o', 'p', 'i', 'c', 's', '/']

/-- The text form (`TopicId.as_str`): the name, or `projects/{project}/topics/{name}`. -/
def text (t : TopicId) : String :=
  match t.project with
  | none => t.name
  | some p => "projects/" ++ p ++ "/topics/" ++ t.name

/-- Whether the topic carries its project (`TopicId.is_qualified`). -/
def isQualified (t : TopicId) : Bool :=
  t.project.isSome

/-- The topic of a bare name that obeys the naming rule. -/
def bare (name : String) (h : nameFault? name.toList = none) : TopicId :=
  ⟨none, name, by simp, h⟩

/-- The topic of a bare name. -/
def ofName (name : List Char) : Except TopicFault TopicId :=
  match h : nameFault? name with
  | some fault => .error fault
  | none => .ok (bare (String.ofList name) (by simpa using h))

/-- The topic of a project and a name. -/
def ofParts (project name : List Char) : Except TopicFault TopicId :=
  match hp : projectFault? project with
  | some fault => .error fault
  | none =>
    match hn : nameFault? name with
    | some fault => .error fault
    | none =>
      .ok ⟨some (String.ofList project), String.ofList name,
        by rintro p heq; cases heq; simpa using hp, by simpa using hn⟩

/-- Reads the text form of a topic (`TopicId.parse`). -/
def parse (s : String) : Except TopicFault TopicId :=
  if s.isEmpty then .error .empty
  else
    match Text.dropStart? projectsSegment s.toList with
    | some rest =>
      match Text.cut? '/' rest with
      | none => .error (.malformed s)
      | some (project, tail) =>
        match Text.dropStart? topicsSegment tail with
        | none => .error (.malformed s)
        | some name => ofParts project name
    | none =>
      if s.toList.contains '/' then .error (.malformed s)
      else ofName s.toList

end TopicId

end EventIngress
