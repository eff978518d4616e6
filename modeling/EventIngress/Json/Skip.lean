import EventIngress.Json.Brackets

/-!
# Passing over values

A member that a record does not know is passed over. Its frame has to be JSON, but its texts need
not be UTF-8, its numbers may have any size, and it may nest to any depth.

Results:

* `Json.skipValue`: passes over one value.
-/

namespace EventIngress.Json

/-- Passes over a text after its opening quote. -/
def skipString : Bytes → Scan Unit
  | [] => .error .truncated
  | b :: rest =>
    if glyph b = '"' then .ok ((), rest)
    else if b < 0x20 then .error .malformed
    else if glyph b = '\\' then
      match rest with
      | [] => .error .truncated
      | e :: rest =>
        if (shortEscape? e).isSome then skipString rest
        else if glyph e = 'u' then
          match rest with
          | h₀ :: h₁ :: h₂ :: h₃ :: rest =>
            if (unit? h₀ h₁ h₂ h₃).isSome then skipString rest else .error .malformed
          | _ => .error .truncated
        else .error .malformed
    else skipString rest

/-- Passes over at least one digit. -/
def skipSomeDigits : Bytes → Scan Unit
  | [] => .error .malformed
  | b :: rest => if isDigitByte b then .ok ((), skipDigits rest) else .error .malformed

/-- Passes over an exponent if there is a mark for one. -/
def skipScale (input : Bytes) : Scan Unit :=
  match input with
  | [] => .ok ((), [])
  | b :: rest =>
    if glyph b = 'e' ∨ glyph b = 'E' then
      match rest with
      | [] => .error .malformed
      | s :: after => skipSomeDigits (if glyph s = '-' ∨ glyph s = '+' then after else rest)
    else .ok ((), input)

/-- Passes over a number after its sign. -/
def skipNumber : Bytes → Scan Unit
  | [] => .error .malformed
  | first :: rest =>
    if isDigitByte first then
      let rest := if glyph first = '0' then rest else skipDigits rest
      match rest with
      | [] => .ok ((), [])
      | b :: after =>
        if isDigitByte b then .error .malformed
        else if glyph b = '.' then
          match skipSomeDigits after with
          | .error fault => .error fault
          | .ok (_, rest) => skipScale rest
        else skipScale rest
    else .error .malformed

/-- An array or an object whose end has not been reached. -/
inductive Frame where
  | array
  | object
  deriving DecidableEq

namespace Frame

/-- The character that ends the frame. -/
def closing : Frame → Char
  | array => ']'
  | object => '}'

end Frame

/-- Passes over the name and the colon of a member. -/
def skipKey (input : Bytes) : Scan Unit :=
  match skipBlank input with
  | [] => .error .truncated
  | b :: rest =>
    if glyph b = '"' then
      match skipString rest with
      | .error fault => .error fault
      | .ok (_, rest) => scanColon rest
    else .error .malformed

/-- Passes over a value that is no array and no object and starts with `b`. -/
def skipScalar (b : UInt8) (rest : Bytes) : Scan Unit :=
  match glyph b with
  | 'n' => scanWord ['u', 'l', 'l'] rest
  | 't' => scanWord ['r', 'u', 'e'] rest
  | 'f' => scanWord ['a', 'l', 's', 'e'] rest
  | '"' => skipString rest
  | '-' => skipNumber rest
  | _ => if isDigitByte b then skipNumber (b :: rest) else .error .malformed

/-- What is due next while a value is passed over. -/
inductive Due where
  /-- A value. -/
  | value
  /-- The next value of the innermost frame, or its end. -/
  | next (fresh : Bool)

/-- Passes over what is due inside the given frames, innermost first, and then over what is left of
the frames. `steps` bounds the number of steps. -/
def skipSteps : (steps : Nat) → Due → List Frame → Bytes → Scan Unit
  | 0, _, _, _ => .error .truncated
  | steps + 1, .value, frames, input =>
    match skipBlank input with
    | [] => .error .truncated
    | b :: rest =>
      if glyph b = '[' then skipSteps steps (.next true) (.array :: frames) rest
      else if glyph b = '{' then skipSteps steps (.next true) (.object :: frames) rest
      else
        match skipScalar b rest with
        | .error fault => .error fault
        | .ok (_, rest) => skipSteps steps (.next false) frames rest
  | _ + 1, .next _, [], input => .ok ((), input)
  | steps + 1, .next fresh, frame :: frames, input =>
    match skipBlank input with
    | [] => .error .truncated
    | b :: rest =>
      if glyph b = frame.closing then skipSteps steps (.next false) frames rest
      else if fresh = false ∧ glyph b ≠ ',' then .error .malformed
      else
        let input := if fresh then b :: rest else rest
        match frame with
        | .array => skipSteps steps .value (.array :: frames) input
        | .object =>
          match skipKey input with
          | .error fault => .error fault
          | .ok (_, rest) => skipSteps steps .value (.object :: frames) rest

/-- Passes over one value. Between two steps that take a byte there is at most one that takes
none. -/
def skipValue (input : Bytes) : Scan Unit :=
  skipSteps (2 * input.length + 2) .value [] input

end EventIngress.Json
