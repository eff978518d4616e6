import EventIngress.Json.Scan
import EventIngress.Json.Write
import Mathlib

/-!
# Texts and numbers in JSON

A written text and a written integer are read back, whatever follows them.

Results:

* `Json.scanString_writeText`: texts.
* `Json.Delimited`, `Json.scanNumber_toDigits`: numbers end where no number can go on.
-/

namespace EventIngress.Json

/-! ## Bytes and characters -/

@[simp] theorem toUInt8_glyph (b : UInt8) : (glyph b).toUInt8 = b := by
  simp [glyph, Char.ofUInt8, Char.toUInt8]

theorem glyph_toUInt8 {c : Char} (h : c.toNat < 0x100) : glyph c.toUInt8 = c := by
  apply Char.toNat_inj.1
  show c.val.toUInt8.toUInt32.toNat = c.val.toNat
  rw [UInt8.toNat_toUInt32, UInt32.toNat_toUInt8]
  exact Nat.mod_eq_of_lt h

/-! ## Texts -/

/-- A character that is written with its number. -/
theorem scanStringOnto_unit {h₀ h₁ h₂ h₃ : UInt8} {n : Nat} (hunit : unit? h₀ h₁ h₂ h₃ = some n)
    (hlow : isLowHalf n = false) (hhigh : isHighHalf n = false) (rest taken : Bytes) :
    scanStringOnto (0x5c :: 0x75 :: h₀ :: h₁ :: h₂ :: h₃ :: rest) taken =
      scanStringOnto rest (pointBytes n ++ taken) := by
  rw [scanStringOnto.eq_def]
  dsimp only
  rw [if_neg (by decide), if_neg (by decide), if_pos (by decide)]
  have hshort : shortEscape? 0x75 = none := rfl
  rw [hshort]
  dsimp only
  rw [if_pos (by decide), hunit]
  dsimp only
  rw [hlow, hhigh]
  rfl

/-- A control character without a short form is written with its number. -/
theorem unit?_control : ∀ n : Fin 32,
    unit? 0x30 0x30 (Hex.digit (n.val / 16)).toUInt8 (Hex.digit (n.val % 16)).toUInt8 =
        some n.val ∧
      isLowHalf n.val = false ∧ isHighHalf n.val = false ∧
      pointBytes n.val = [UInt8.ofNat n.val] := by
  decide +kernel

/-- One byte of a text is read back from its written form. -/
theorem scanStringOnto_escapeByte (b : UInt8) (rest taken : Bytes) :
    scanStringOnto (escapeByte b ++ rest) taken = scanStringOnto rest (b :: taken) := by
  unfold escapeByte
  split
  · subst b; rfl
  split
  · subst b; rfl
  split
  · subst b; rfl
  split
  · subst b; rfl
  split
  · subst b; rfl
  split
  · subst b; rfl
  split
  · subst b; rfl
  split
  · rename_i hcontrol
    obtain ⟨hunit, hlow, hhigh, hpoint⟩ := unit?_control ⟨b.toNat, hcontrol⟩
    have hscan := scanStringOnto_unit hunit hlow hhigh rest taken
    rw [hpoint, UInt8.ofNat_toNat] at hscan
    exact hscan
  · rename_i hquote hback _ _ _ _ _ hcontrol
    have hquote' : ¬ glyph b = '"' := fun h => hquote (by rw [← toUInt8_glyph b, h]; rfl)
    have hback' : ¬ glyph b = '\\' := fun h => hback (by rw [← toUInt8_glyph b, h]; rfl)
    show scanStringOnto (b :: rest) taken = _
    rw [scanStringOnto.eq_def]
    dsimp only
    rw [if_neg hquote', if_neg hcontrol, if_neg hback']

theorem scanStringOnto_escaped (bytes rest taken : Bytes) :
    scanStringOnto (bytes.flatMap escapeByte ++ rest) taken =
      scanStringOnto rest (bytes.reverse ++ taken) := by
  induction bytes generalizing taken with
  | nil => rfl
  | cons b bytes ih =>
    rw [List.flatMap_cons, List.append_assoc, scanStringOnto_escapeByte, ih, List.reverse_cons,
      List.append_assoc]
    rfl

/-- A written text is read back. -/
theorem scanString_writeText (s : String) (rest : Bytes) :
    scanString ((Bytes.ofText s).flatMap escapeByte ++ 0x22 :: rest) = .ok (s, rest) := by
  rw [scanString, scanStringOnto_escaped, scanStringOnto.eq_def]
  dsimp only
  rw [if_pos (by decide), List.append_nil, List.reverse_reverse, Bytes.text?_ofText]

/-! ## Numbers -/

/-- What may stand after a value: nothing that could go on with a number. -/
def Delimited (rest : Bytes) : Prop :=
  ∀ b ∈ rest.head?, isDigitByte b = false ∧ glyph b ≠ '.' ∧ glyph b ≠ 'e' ∧ glyph b ≠ 'E'

theorem isDigitByte_toUInt8 {c : Char} (h : c.isDigit = true) : isDigitByte c.toUInt8 = true := by
  rw [isDigitByte, Bool.and_eq_true, decide_eq_true_eq, decide_eq_true_eq]
  exact (Bytes.toUInt8_digit h).1

theorem digitOf_toUInt8 {c : Char} (h : c.isDigit = true) :
    digitOf c.toUInt8 = c.toNat - '0'.toNat := by
  rw [digitOf, (Bytes.toUInt8_digit h).2]
  rfl

theorem le_ofDigitChars (ds : List Char) (n : Nat) : n ≤ Nat.ofDigitChars 10 ds n := by
  rw [Nat.ofDigitChars_eq_ofDigitChars_zero]
  have hpos : 1 ≤ 10 ^ ds.length := Nat.one_le_pow _ _ (by decide)
  have hle := Nat.mul_le_mul_right n hpos
  omega

theorem scanSignificand_digits {ds : List Char} (hds : ∀ c ∈ ds, c.isDigit = true) {n : Nat}
    (hlt : Nat.ofDigitChars 10 ds n < significandLimit) {rest : Bytes} (hrest : Delimited rest)
    (count : Nat) :
    scanSignificand (asciiBytes ds ++ rest) n count =
      ((Nat.ofDigitChars 10 ds n, count + ds.length), rest) := by
  induction ds generalizing n count with
  | nil =>
    cases rest with
    | nil => rfl
    | cons b rest =>
      show scanSignificand (b :: rest) n count = _
      rw [scanSignificand, (hrest b rfl).1, if_neg (by decide)]
      rfl
  | cons c ds ih =>
    have hc := hds c List.mem_cons_self
    show scanSignificand (c.toUInt8 :: (asciiBytes ds ++ rest)) n count = _
    have hvalue : n * 10 + digitOf c.toUInt8 = 10 * n + (c.toNat - '0'.toNat) := by
      rw [digitOf_toUInt8 hc, Nat.mul_comm]
    rw [Nat.ofDigitChars_cons] at hlt ⊢
    rw [scanSignificand, if_pos (isDigitByte_toUInt8 hc), hvalue]
    dsimp only
    rw [if_pos (Nat.lt_of_le_of_lt (le_ofDigitChars ds _) hlt),
      ih (fun d hd => hds d (List.mem_cons_of_mem c hd)) hlt, List.length_cons]
    congr 2
    omega

/-- No number but zero starts with a zero. -/
theorem head?_toDigits {n : Nat} (h : 0 < n) : (Nat.toDigits 10 n).head? ≠ some '0' := by
  induction n using Nat.strongRecOn with
  | ind n ih =>
    rw [Nat.toDigits_eq_if (by decide)]
    by_cases hlt : n < 10
    · rw [if_pos hlt, List.head?_cons, ne_eq, Option.some.injEq, Nat.digitChar_eq_zero]
      omega
    · have hne : Nat.toDigits 10 (n / 10) ≠ [] := Nat.toDigits_ne_nil
      rw [if_neg hlt, List.head?_append, Option.or_of_isSome (List.isSome_head?.2 hne)]
      exact ih (n / 10) (by omega) (by omega)

/-- A written number is read as an integer. -/
theorem scanNumber_toDigits (negative : Bool) {n : Nat} (hlt : n < significandLimit) {rest : Bytes}
    (hrest : Delimited rest) :
    scanNumber negative (asciiBytes (Nat.toDigits 10 n) ++ rest) = integerOf negative n rest := by
  cases hds : Nat.toDigits 10 n with
  | nil => exact absurd hds Nat.toDigits_ne_nil
  | cons c ds =>
    have hall : ∀ d ∈ c :: ds, d.isDigit = true := fun d hd =>
      Nat.isDigit_of_mem_toDigits (b := 10) (n := n) (by decide) (by decide) (hds ▸ hd)
    have hc := hall c List.mem_cons_self
    have hvalue := Nat.ofDigitChars_ten_toDigits (n := n)
    rw [hds, Nat.ofDigitChars_cons, Nat.mul_zero, Nat.zero_add] at hvalue
    show scanNumber negative (c.toUInt8 :: (asciiBytes ds ++ rest)) = _
    have hglyph : glyph c.toUInt8 = c := by
      obtain ⟨_, hle⟩ := Char.isDigit_iff_toNat.1 hc
      exact glyph_toUInt8 (Nat.lt_of_le_of_lt hle (by decide))
    have hscan : (if glyph c.toUInt8 = '0' then ((0, 1), asciiBytes ds ++ rest)
        else scanSignificand (asciiBytes ds ++ rest) (digitOf c.toUInt8) 1) =
        ((n, 1 + ds.length), rest) := by
      rw [hglyph]
      by_cases hzero : c = '0'
      · have hn : n = 0 := Nat.eq_zero_of_not_pos fun hpos =>
          head?_toDigits hpos (by rw [hds, hzero]; rfl)
        subst hn
        rw [Nat.toDigits_zero] at hds
        cases hds
        rfl
      · rw [if_neg hzero, digitOf_toUInt8 hc, scanSignificand_digits ?_ ?_ hrest, hvalue]
        · exact fun d hd => hall d (List.mem_cons_of_mem c hd)
        · rwa [hvalue]
    rw [scanNumber, if_pos (isDigitByte_toUInt8 hc), hscan]
    cases rest with
    | nil => rfl
    | cons b rest =>
      obtain ⟨hdigit, hpoint, he, hE⟩ := hrest b rfl
      dsimp only
      rw [hdigit, if_neg (by decide), if_neg hpoint, if_neg (not_or.2 ⟨he, hE⟩)]

end EventIngress.Json
