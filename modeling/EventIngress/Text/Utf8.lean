/-!
# Texts as bytes

A text on the wire is the byte sequence of its UTF-8 form. A byte sequence that is no UTF-8 is
either refused (`Bytes.text?`) or shown with replacement characters (`Bytes.lossyText`).

Results:

* `Bytes.ofText`, `Bytes.text?`: the two directions; `text?_ofText` says that nothing is lost.
* `Bytes.lossyText`: the longest well-formed beginnings of characters are each replaced by one
  U+FFFD.
-/

namespace EventIngress

/-- A finite sequence of bytes. -/
abbrev Bytes := List UInt8

namespace Bytes

/-- The UTF-8 form of a text. -/
def ofText (s : String) : Bytes :=
  s.toByteArray.data.toList

/-- The text with this UTF-8 form, if there is one. -/
def text? (bytes : Bytes) : Option String :=
  String.fromUTF8? ⟨bytes.toArray⟩

theorem text?_ofText (s : String) : text? (ofText s) = some s := by
  have h : (⟨(ofText s).toArray⟩ : ByteArray) = s.toByteArray := by
    simp [ofText]
  simp [text?, h, String.fromUTF8?, s.isValidUTF8, String.fromUTF8]

/-- ASCII characters are one byte each. -/
theorem ofText_ofList {cs : List Char} (h : ∀ c ∈ cs, c.toNat < 0x80) :
    ofText (String.ofList cs) = cs.map (·.toUInt8) := by
  rw [ofText, String.toByteArray_ofList]
  induction cs with
  | nil => rfl
  | cons c cs ih =>
    have hsize : c.utf8Size = 1 :=
      Char.utf8Size_eq_one_iff.2 (Nat.le_of_lt_succ (h c List.mem_cons_self))
    have hcs := ih fun c hc => h c (List.mem_cons_of_mem _ hc)
    rw [List.utf8Encode_cons, List.utf8Encode_singleton, String.utf8EncodeChar_eq_singleton hsize,
      List.map_cons, ← hcs]
    simp

theorem toUInt8_digit {c : Char} (h : c.isDigit = true) :
    (0x30 ≤ c.toUInt8 ∧ c.toUInt8 ≤ 0x39) ∧ c.toUInt8.toNat = c.toNat := by
  have hbounds := Char.isDigit_iff_toNat.1 h
  have hvalue : c.toUInt8.toNat = c.toNat := by
    show c.val.toUInt8.toNat = _
    rw [UInt32.toNat_toUInt8]
    exact Nat.mod_eq_of_lt (Nat.lt_of_le_of_lt hbounds.2 (by decide))
  rw [← hvalue] at hbounds
  exact ⟨hbounds, hvalue⟩

/-! ## Reading with replacements -/

/-- Whether a byte continues a character. -/
def isTail (b : UInt8) : Bool :=
  0x80 ≤ b && b ≤ 0xbf

/-- Whether a second byte may follow the first byte of a longer character. -/
def secondFits (first second : UInt8) : Bool :=
  if first == 0xe0 then 0xa0 ≤ second && second ≤ 0xbf
  else if first == 0xed then 0x80 ≤ second && second ≤ 0x9f
  else if first == 0xf0 then 0x90 ≤ second && second ≤ 0xbf
  else if first == 0xf4 then 0x80 ≤ second && second ≤ 0x8f
  else isTail second

/-- Number of bytes that a character with this first byte takes; none for a byte that starts no
character. -/
def charWidth (first : UInt8) : Option Nat :=
  if first ≤ 0x7f then some 1
  else if 0xc2 ≤ first && first ≤ 0xdf then some 2
  else if 0xe0 ≤ first && first ≤ 0xef then some 3
  else if 0xf0 ≤ first && first ≤ 0xf4 then some 4
  else none

/-- The character that starts a byte sequence, or a replacement for the longest beginning of one,
with the number of bytes it stands for. The sequence is `first :: rest`. -/
def lossyChar (first : UInt8) (rest : Bytes) : Char × Nat :=
  let replacement := Char.ofNat 0xfffd
  match charWidth first, rest with
  | some 1, _ => (Char.ofNat first.toNat, 1)
  | some 2, b :: _ =>
    if secondFits first b then
      (Char.ofNat ((first.toNat - 0xc0) * 0x40 + (b.toNat - 0x80)), 2)
    else (replacement, 1)
  | some 3, b :: c :: _ =>
    if secondFits first b then
      if isTail c then
        (Char.ofNat ((first.toNat - 0xe0) * 0x1000 + (b.toNat - 0x80) * 0x40 + (c.toNat - 0x80)), 3)
      else (replacement, 2)
    else (replacement, 1)
  | some 4, b :: c :: d :: _ =>
    if secondFits first b then
      if isTail c then
        if isTail d then
          (Char.ofNat ((first.toNat - 0xf0) * 0x40000 + (b.toNat - 0x80) * 0x1000 +
            (c.toNat - 0x80) * 0x40 + (d.toNat - 0x80)), 4)
        else (replacement, 3)
      else (replacement, 2)
    else (replacement, 1)
  | some 3, [b] => if secondFits first b then (replacement, 2) else (replacement, 1)
  | some 4, [b, c] =>
    if secondFits first b then
      if isTail c then (replacement, 3) else (replacement, 2)
    else (replacement, 1)
  | some 4, [b] => if secondFits first b then (replacement, 2) else (replacement, 1)
  | _, _ => (replacement, 1)

/-- The characters of a byte sequence read with replacements; `skip` counts the bytes that the
last character already stands for. -/
def lossyChars : Nat → Bytes → List Char → List Char
  | _, [], out => out.reverse
  | 0, b :: rest, out =>
    let (c, width) := lossyChar b rest
    lossyChars (width - 1) rest (c :: out)
  | skip + 1, _ :: rest, out => lossyChars skip rest out

/-- The text that a byte sequence shows, with U+FFFD for what is no UTF-8. -/
def lossyText (bytes : Bytes) : String :=
  String.ofList (lossyChars 0 bytes [])

end Bytes

end EventIngress
