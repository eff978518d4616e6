import EventIngress.Text.Utf8

/-!
# Base64 with padding

The alphabet `A`–`Z`, `a`–`z`, `0`–`9`, `+`, `/`. Four characters stand for three bytes; a last
group of one or two bytes is filled up with `=`. Reading is strict: the padding has to be there,
nothing may follow it, and the bits that it leaves unused have to be zero.

Results:

* `Base64.encode`, `Base64.decode`: the two directions; `decode_encode` says that nothing is lost.
-/

namespace EventIngress.Base64

/-- The character of a group of six bits. -/
def digit (n : Nat) : Char :=
  if n < 26 then Char.ofNat (65 + n)
  else if n < 52 then Char.ofNat (71 + n)
  else if n < 62 then Char.ofNat (n - 4)
  else if n = 62 then '+'
  else '/'

/-- The six bits of a character of the alphabet. -/
def digitValue? (c : Char) : Option Nat :=
  let n := c.toNat
  if 65 ≤ n ∧ n ≤ 90 then some (n - 65)
  else if 97 ≤ n ∧ n ≤ 122 then some (n - 71)
  else if 48 ≤ n ∧ n ≤ 57 then some (n + 4)
  else if c = '+' then some 62
  else if c = '/' then some 63
  else none

/-- Writes groups of three bytes; `out` holds the characters written so far, last first. -/
def encodeOnto : Bytes → List Char → List Char
  | [], out => out.reverse
  | [a], out =>
    let n := a.toNat
    ('=' :: '=' :: digit (n % 4 * 16) :: digit (n / 4) :: out).reverse
  | [a, b], out =>
    let n := a.toNat * 256 + b.toNat
    ('=' :: digit (n % 16 * 4) :: digit (n / 16 % 64) :: digit (n / 1024) :: out).reverse
  | a :: b :: c :: rest, out =>
    let n := a.toNat * 65536 + b.toNat * 256 + c.toNat
    encodeOnto rest
      (digit (n % 64) :: digit (n / 64 % 64) :: digit (n / 4096 % 64) :: digit (n / 262144) :: out)

/-- The characters that stand for a byte sequence. -/
def encodeChars (bytes : Bytes) : List Char :=
  encodeOnto bytes []

/-- The text that stands for a byte sequence. -/
def encode (bytes : Bytes) : String :=
  String.ofList (encodeChars bytes)

/-- Reads groups of four characters; `out` holds the bytes read so far, last first. -/
def decodeOnto : List Char → Bytes → Option Bytes
  | [], out => some out.reverse
  | [a, b, '=', '='], out =>
    match digitValue? a, digitValue? b with
    | some x, some y =>
      if y % 16 = 0 then some (UInt8.ofNat (x * 4 + y / 16) :: out).reverse else none
    | _, _ => none
  | [a, b, c, '='], out =>
    match digitValue? a, digitValue? b, digitValue? c with
    | some x, some y, some z =>
      if z % 4 = 0 then
        some (UInt8.ofNat (y % 16 * 16 + z / 4) :: UInt8.ofNat (x * 4 + y / 16) :: out).reverse
      else none
    | _, _, _ => none
  | a :: b :: c :: d :: rest, out =>
    match digitValue? a, digitValue? b, digitValue? c, digitValue? d with
    | some x, some y, some z, some w =>
      decodeOnto rest
        (UInt8.ofNat (z % 4 * 64 + w) :: UInt8.ofNat (y % 16 * 16 + z / 4) ::
          UInt8.ofNat (x * 4 + y / 16) :: out)
    | _, _, _, _ => none
  | _, _ => none

/-- The byte sequence that a text stands for. -/
def decode (s : String) : Option Bytes :=
  decodeOnto s.toList []

/-! ## Reading what was written -/

theorem digitValue?_digit : ∀ n : Fin 64, digitValue? (digit n.val) = some n.val := by
  decide

theorem digit_ne_pad : ∀ n : Fin 64, digit n.val ≠ '=' := by
  decide

theorem encodeOnto_eq : (bytes : Bytes) → (out : List Char) →
    encodeOnto bytes out = out.reverse ++ encodeChars bytes
  | [], out => (List.append_nil _).symm
  | [_], out => by simp [encodeChars, encodeOnto]
  | [_, _], out => by simp [encodeChars, encodeOnto]
  | a :: b :: c :: rest, out => by
    rw [encodeChars, encodeOnto, encodeOnto, encodeOnto_eq rest, encodeOnto_eq rest]
    simp

theorem encodeChars_triple (a b c : UInt8) (rest : Bytes) :
    encodeChars (a :: b :: c :: rest) =
      let n := a.toNat * 65536 + b.toNat * 256 + c.toNat
      digit (n / 262144) :: digit (n / 4096 % 64) :: digit (n / 64 % 64) :: digit (n % 64) ::
        encodeChars rest := by
  rw [encodeChars, encodeOnto, encodeOnto_eq]
  rfl

/-- Two digits and two marks make a byte. -/
theorem decodeOnto_one (a : UInt8) (out : Bytes) :
    decodeOnto [digit (a.toNat / 4), digit (a.toNat % 4 * 16), '=', '='] out =
      some (a :: out).reverse := by
  have ha := a.toNat_lt
  have hhigh := digitValue?_digit ⟨a.toNat / 4, by omega⟩
  have hlow := digitValue?_digit ⟨a.toNat % 4 * 16, by omega⟩
  have hval : a.toNat / 4 * 4 + a.toNat % 4 * 16 / 16 = a.toNat := by omega
  have hunused : a.toNat % 4 * 16 % 16 = 0 := by omega
  rw [decodeOnto]
  simp only [hhigh, hlow, hval, hunused, UInt8.ofNat_toNat, if_pos]

/-- Three digits and a mark make two bytes. -/
theorem decodeOnto_two (a b : UInt8) (out : Bytes) :
    let n := a.toNat * 256 + b.toNat
    decodeOnto [digit (n / 1024), digit (n / 16 % 64), digit (n % 16 * 4), '='] out =
      some (b :: a :: out).reverse := by
  intro n
  have ha := a.toNat_lt
  have hb := b.toNat_lt
  have hn : n = a.toNat * 256 + b.toNat := rfl
  have h₁ := digitValue?_digit ⟨n / 1024, by omega⟩
  have h₂ := digitValue?_digit ⟨n / 16 % 64, by omega⟩
  have h₃ := digitValue?_digit ⟨n % 16 * 4, by omega⟩
  have hpad := digit_ne_pad ⟨n % 16 * 4, by omega⟩
  have hfirst : n / 1024 * 4 + n / 16 % 64 / 16 = a.toNat := by omega
  have hsecond : n / 16 % 64 % 16 * 16 + n % 16 * 4 / 4 = b.toNat := by omega
  have hunused : n % 16 * 4 % 4 = 0 := by omega
  rw [decodeOnto]
  · simp only [h₁, h₂, h₃, hfirst, hsecond, hunused, UInt8.ofNat_toNat, if_pos]
  · exact hpad

/-- Four digits make three bytes. -/
theorem decodeOnto_three (a b c : UInt8) (rest : List Char) (out : Bytes) :
    let n := a.toNat * 65536 + b.toNat * 256 + c.toNat
    decodeOnto (digit (n / 262144) :: digit (n / 4096 % 64) :: digit (n / 64 % 64) ::
      digit (n % 64) :: rest) out = decodeOnto rest (c :: b :: a :: out) := by
  intro n
  have ha := a.toNat_lt
  have hb := b.toNat_lt
  have hc := c.toNat_lt
  have hn : n = a.toNat * 65536 + b.toNat * 256 + c.toNat := rfl
  have h₁ := digitValue?_digit ⟨n / 262144, by omega⟩
  have h₂ := digitValue?_digit ⟨n / 4096 % 64, by omega⟩
  have h₃ := digitValue?_digit ⟨n / 64 % 64, by omega⟩
  have h₄ := digitValue?_digit ⟨n % 64, by omega⟩
  have hpad := digit_ne_pad ⟨n % 64, by omega⟩
  have hfirst : n / 262144 * 4 + n / 4096 % 64 / 16 = a.toNat := by omega
  have hsecond : n / 4096 % 64 % 16 * 16 + n / 64 % 64 / 4 = b.toNat := by omega
  have hthird : n / 64 % 64 % 4 * 64 + n % 64 = c.toNat := by omega
  rw [decodeOnto]
  · simp only [h₁, h₂, h₃, h₄, hfirst, hsecond, hthird, UInt8.ofNat_toNat]
  · exact fun _ h _ => hpad h
  · exact fun h _ => hpad h

/-- Reading takes back what was written. -/
theorem decodeOnto_encodeChars : (bytes out : Bytes) →
    decodeOnto (encodeChars bytes) out = some (out.reverse ++ bytes)
  | [], out => by rw [encodeChars, encodeOnto, List.reverse_nil, decodeOnto, List.append_nil]
  | [a], out => (decodeOnto_one a out).trans (by rw [List.reverse_cons])
  | [a, b], out => (decodeOnto_two a b out).trans (by simp)
  | a :: b :: c :: rest, out => by
    rw [encodeChars_triple, decodeOnto_three, decodeOnto_encodeChars rest]
    simp

theorem decode_encode (bytes : Bytes) : decode (encode bytes) = some bytes := by
  rw [decode, encode, String.toList_ofList, decodeOnto_encodeChars]
  rfl

end EventIngress.Base64
