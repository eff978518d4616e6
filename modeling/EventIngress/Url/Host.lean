import EventIngress.Text.Cut
import EventIngress.Text.Ranges
import EventIngress.Url.Percent

/-!
# Hosts

The host of a URL is an address of one of the two internet versions or a name. A name whose last
part is a number has to be an address.

Results:

* `Host.parse`: the written form of a host, or what is wrong with it.
* `Host.isAddress6`, `Host.isAddress4`: the two forms of addresses.
-/

namespace EventIngress

/-- Why a text is no URL. -/
inductive UrlFault where
  | relative
  | emptyHost
  | invalidPort
  | invalidAddress4
  | invalidAddress6
  | invalidName
  | invalidOpaqueHost
  deriving DecidableEq, Repr

namespace UrlFault

/-- The wording of the fault. -/
def message : UrlFault → String
  | relative => "relative URL without a base"
  | emptyHost => "empty host"
  | invalidPort => "invalid port number"
  | invalidAddress4 => "invalid IPv4 address"
  | invalidAddress6 => "invalid IPv6 address"
  | invalidName => "invalid international domain name"
  | invalidOpaqueHost => "invalid domain character"

end UrlFault

namespace Host

/-- The value of a digit in a base up to 16. -/
def digit? (base : Nat) (c : Char) : Option Nat :=
  match Percent.digitValue? c.toUInt8 with
  | some n => if c.toNat < 128 ∧ n < base then some n else none
  | none => none

/-- The number that digits of a base stand for. -/
def number? (base : Nat) (digits : List Char) : Option Nat :=
  digits.foldl (fun n c => n.bind fun n => (digit? base c).map (n * base + ·)) (some 0)

/-! ## Addresses of the second version -/

/-- Whether a text is a group of one to four hexadecimal digits. -/
def isGroup (s : List Char) : Bool :=
  0 < s.length && s.length ≤ 4 && (number? 16 s).isSome

/-- Whether a text is a byte in decimal without a leading zero. -/
def isByte (s : List Char) : Bool :=
  s == ['0'] || (s.head? != some '0' && !s.isEmpty && (number? 10 s).any (· < 256))

/-- The number of 16-bit groups that a list of groups stands for; its last one may be an address of
the first version. -/
def groupCount? (lastMayBeDotted : Bool) : List (List Char) → Option Nat
  | [] => some 0
  | [last] =>
    let bytes := Text.fields '.' last
    if isGroup last then some 1
    else if lastMayBeDotted ∧ bytes.length = 4 ∧ bytes.all isByte then some 2
    else none
  | g :: rest => if isGroup g then (groupCount? lastMayBeDotted rest).map (· + 1) else none

/-- The groups between colons; none for an empty text. -/
def groups (s : List Char) : List (List Char) :=
  if s.isEmpty then [] else Text.fields ':' s

/-- The parts before and after the first double colon. -/
def cutDoubleColon? : List Char → Option (List Char × List Char)
  | ':' :: ':' :: rest => some ([], rest)
  | c :: rest => (cutDoubleColon? rest).map fun p => (c :: p.1, p.2)
  | [] => none

/-- Whether a text is an address of the second version: eight groups, or fewer with one double
colon. -/
def isAddress6 (s : List Char) : Bool :=
  match cutDoubleColon? s with
  | some (left, right) =>
    match groupCount? false (groups left), groupCount? true (groups right) with
    | some a, some b => a + b ≤ 7
    | _, _ => false
  | none => groupCount? true (groups s) == some 8

/-! ## Addresses of the first version -/

/-- The number of a part of an address: hexadecimal after `0x`, octal after `0`, else decimal. -/
def part? (s : List Char) : Option Nat :=
  match s with
  | [] => none
  | '0' :: 'x' :: digits => number? 16 digits
  | '0' :: 'X' :: digits => number? 16 digits
  | '0' :: digits => number? 8 digits
  | digits => number? 10 digits

/-- The parts of a name between dots, without an empty last one. -/
def labels (name : List Char) : List (List Char) :=
  let parts := Text.fields '.' name
  if 1 < parts.length ∧ parts.getLast? = some [] then parts.dropLast else parts

/-- Whether the last part of a name is a number. -/
def endsInNumber (name : List Char) : Bool :=
  match (labels name).getLast? with
  | none => false
  | some [] => false
  | some last => last.all (fun c => (digit? 10 c).isSome) || (part? last).isSome

/-- Whether a name is an address of the first version: up to four numbers, of which the last fills
the bytes that the others leave. -/
def isAddress4 (name : List Char) : Bool :=
  let parts := labels name
  match parts.mapM part? with
  | none => false
  | some numbers =>
    parts.length ≤ 4 && numbers.dropLast.all (· < 256) &&
      (numbers.getLast?).any fun last => decide (last < Nat.pow 256 (5 - parts.length))

/-! ## Names -/

/-- The ASCII characters that no name may hold, besides control characters and blanks. -/
def forbidden : List Char :=
  ['%', '#', '/', ':', '<', '>', '?', '@', '[', '\\', ']', '^', '|']

/-- Whether a character may stand in a name. -/
def isNameChar (c : Char) : Bool :=
  if c.toNat < 128 then 0x20 < c.toNat && c.toNat < 0x7f && !forbidden.contains c
  else !(Text.RangeTable.mem Text.unprintable c.toNat)

/-- The name of a host, in lowercase letters. -/
def name? (s : List Char) : Option (List Char) :=
  match Bytes.text? (Percent.decode (Bytes.ofText (String.ofList s))) with
  | none => none
  | some decoded =>
    let name := decoded.toList.map Char.toLower
    if name.all isNameChar then some name else none

/-- Reads an address in brackets. -/
def parseBracketed (s : List Char) : Except UrlFault (List Char) :=
  if s.getLast? = some ']' ∧ isAddress6 (s.drop 1).dropLast then .ok s
  else .error .invalidAddress6

/-- Reads the host of a URL of a scheme with hosts. -/
def parse (s : List Char) : Except UrlFault (List Char) :=
  if s.head? = some '[' then parseBracketed s
  else
    match name? s with
    | none => .error .invalidName
    | some name =>
      if name.isEmpty then .error .emptyHost
      else if endsInNumber name ∧ !isAddress4 name then .error .invalidAddress4
      else .ok name

/-- The characters that no host of another scheme may hold. -/
def opaqueForbidden : List Char :=
  ['\x00', '\t', '\n', '\r', ' ', '#', '/', ':', '<', '>', '?', '@', '[', '\\', ']', '^', '|']

/-- Reads the host of a URL of another scheme. -/
def parseOpaque (s : List Char) : Except UrlFault (List Char) :=
  if s.head? = some '[' then parseBracketed s
  else if s.any opaqueForbidden.contains then .error .invalidOpaqueHost
  else .ok (Percent.encode [] s)

end Host

end EventIngress
