import EventIngress.Log
import EventIngress.Text.Cut

/-!
# Which log entries are kept

A filter is a list of rules between commas. A rule limits the level, for all parts or for those
whose name starts with a given text: `info`, `decouple_ingress::cache=debug`, `decouple_ingress`.
For each entry the rule with the longest such text decides. A rule on a span, in brackets, never
applies, because no spans are used here.

Results:

* `LogFilter.parse?`: the filter of a text.
* `LogFilter.admits`: whether an entry is kept.
-/

namespace EventIngress

/-- A rule: entries up to a rank are kept; rank zero keeps none. -/
structure LogRule where
  /-- What the name of the part starts with. -/
  start : Option String := none
  /-- Whether the rule is on a span. -/
  onSpan : Bool := false
  /-- The highest rank that is kept. -/
  rank : Nat
  deriving DecidableEq, Repr

/-- A list of rules. -/
structure LogFilter where
  rules : List LogRule
  deriving DecidableEq, Repr

namespace LogRule

/-- The ranks by their names. -/
def rankNames : List (String × Nat) :=
  [("off", 0), ("error", 1), ("warn", 2), ("info", 3), ("debug", 4), ("trace", 5), ("0", 0),
    ("1", 1), ("2", 2), ("3", 3), ("4", 4), ("5", 5)]

/-- The highest rank. -/
def allRanks : Nat := 5

/-- The rank that a word names, in letters of either case or as a digit. -/
def rankOf? (word : List Char) : Option Nat :=
  rankNames.lookup (String.ofList (word.map Char.toLower))

/-- Whether a character may stand in the name of a part. -/
def isNameChar (c : Char) : Bool :=
  c.isAlphanum || c == '_' || c == ':' || c == '-' || 0x80 ≤ c.toNat

/-- A rank after its mark, at the end of a rule. Without a word, all ranks are kept. -/
def limitOf? (cs : List Char) : Option Nat :=
  match cs with
  | [] | ['='] => some allRanks
  | '=' :: word => rankOf? word
  | _ => none

/-- Reads up to `count` names and spans, and then the limit. -/
def readParts : (count : Nat) → LogRule → List Char → Option LogRule
  | 0, rule, cs => (limitOf? cs).map fun rank => { rule with rank := rank }
  | count + 1, rule, cs =>
    match cs with
    | '[' :: rest =>
      match Text.cut? ']' rest with
      | some (_, rest) => readParts count { rule with onSpan := true } rest
      | none => none
    | _ =>
      match cs.takeWhile isNameChar with
      | [] => (limitOf? cs).map fun rank => { rule with rank := rank }
      | name =>
        readParts count { rule with start := some (String.ofList name) } (cs.dropWhile isNameChar)

/-- Whether a character may start a rule. -/
def startsRule (c : Char) : Bool :=
  c == '[' || isNameChar c

/-- The rule of a text. -/
def parse? (cs : List Char) : Option LogRule :=
  match rankOf? cs with
  | some rank => some { rank := rank }
  | none => if cs.head?.any startsRule then readParts 2 { rank := allRanks } cs else none

/-- Whether the rule is about a part. -/
def concerns (r : LogRule) (part : LogPart) : Bool :=
  !r.onSpan && r.start.all fun start => start.toList.isPrefixOf part.name.toList

/-- How special a rule is: the length of the text that names start with, and one. -/
def weight (r : LogRule) : Nat :=
  (r.start.map fun start => start.utf8ByteSize + 1).getD 0

end LogRule

namespace LogFilter

/-- Keeps entries up to a level. -/
def upTo (level : LogLevel) : LogFilter :=
  ⟨[{ rank := level.rank }]⟩

/-- The filter of a text, if all its rules can be read. A text without rules keeps errors. -/
def parse? (s : String) : Option LogFilter :=
  let parts := (Text.fields ',' s.toList).filter (!·.isEmpty)
  if parts.isEmpty then some (upTo .error)
  else (parts.mapM LogRule.parse?).map LogFilter.mk

/-- The rule that decides about a part; of several that are equally special, the last. -/
def ruleFor? (f : LogFilter) (part : LogPart) : Option LogRule :=
  (f.rules.filter (·.concerns part)).foldl
    (fun best rule =>
      match best with
      | none => some rule
      | some b => if rule.weight < b.weight then some b else some rule)
    none

/-- Whether an entry is kept. -/
def admits (f : LogFilter) (e : LogEntry) : Bool :=
  (f.ruleFor? e.part).any fun rule => decide (e.level.rank ≤ rule.rank)

end LogFilter

end EventIngress
