import EventIngress.Text.Utf8

/-!
# Lowercase hexadecimal

Bytes as pairs of the digits `0`–`9` and `a`–`f`, the high half first. Uppercase digits are not
read.

Results:

* `Hex.encode`, `Hex.decode`: the two directions; `decode_eq_some_iff` says that they are inverse.
* `Hex.exists_encodeChars_iff`: which texts are digits of bytes.
* `Hex.number`: the number that digits stand for.
-/

namespace EventIngress.Hex

/-- The digit of a half byte. -/
def digit (n : Nat) : Char :=
  if n < 10 then Char.ofNat (48 + n) else Char.ofNat (87 + n)

/-- The half byte of a digit. -/
def digitValue? (c : Char) : Option Nat :=
  let n := c.toNat
  if 48 ≤ n ∧ n ≤ 57 then some (n - 48)
  else if 97 ≤ n ∧ n ≤ 102 then some (n - 87)
  else none

/-- The digits of a byte sequence. -/
def encodeChars (bytes : Bytes) : List Char :=
  bytes.flatMap fun b => [digit (b.toNat / 16), digit (b.toNat % 16)]

/-- The text form of a byte sequence. -/
def encode (bytes : Bytes) : String :=
  String.ofList (encodeChars bytes)

/-- Reads pairs of digits; `out` holds the bytes read so far, last first. -/
def decodeOnto : List Char → Bytes → Option Bytes
  | [], out => some out.reverse
  | [_], _ => none
  | high :: low :: rest, out =>
    match digitValue? high, digitValue? low with
    | some h, some l => decodeOnto rest (UInt8.ofNat (h * 16 + l) :: out)
    | _, _ => none

/-- The byte sequence that a list of digits stands for. -/
def decode (digits : List Char) : Option Bytes :=
  decodeOnto digits []

theorem digitValue?_digit : ∀ n : Fin 16, digitValue? (digit n.val) = some n.val := by
  decide

theorem decodeOnto_encodeChars (bytes out : Bytes) :
    decodeOnto (encodeChars bytes) out = some (out.reverse ++ bytes) := by
  induction bytes generalizing out with
  | nil => simp [encodeChars, decodeOnto]
  | cons b rest ih =>
    have hb : b.toNat < 256 := b.toNat_lt
    have hhigh := digitValue?_digit ⟨b.toNat / 16, by omega⟩
    have hlow := digitValue?_digit ⟨b.toNat % 16, by omega⟩
    have hval : b.toNat / 16 * 16 + b.toNat % 16 = b.toNat := by omega
    have hstep : encodeChars (b :: rest) =
        digit (b.toNat / 16) :: digit (b.toNat % 16) :: encodeChars rest := rfl
    rw [hstep, decodeOnto]
    simp only [hhigh, hlow, hval, UInt8.ofNat_toNat, ih]
    simp

theorem decode_encode (bytes : Bytes) : decode (encodeChars bytes) = some bytes := by
  simp [decode, decodeOnto_encodeChars]

/-! ## Digits -/

/-- The digits, by their values. -/
def digits : List Char := "0123456789abcdef".toList

/-- The number that digits stand for, the highest first. -/
def number (cs : List Char) : Nat :=
  cs.foldl (fun n c => n * 16 + digits.idxOf c) 0

theorem digit_mem : ∀ n : Fin 16, digit n.val ∈ digits := by
  decide

theorem idxOf_digit : ∀ n : Fin 16, digits.idxOf (digit n.val) = n.val := by
  decide

theorem digitValue?_eq_some_iff {c : Char} {n : Nat} :
    digitValue? c = some n ↔ n < 16 ∧ c = digit n := by
  constructor
  · intro h
    rw [← Char.ofNat_toNat c]
    simp only [digitValue?] at h
    split at h
    · cases h
      refine ⟨by omega, ?_⟩
      rw [digit, if_pos (by omega)]
      congr 1
      omega
    · split at h
      · cases h
        refine ⟨by omega, ?_⟩
        rw [digit, if_neg (by omega)]
        congr 1
        omega
      · cases h
  · rintro ⟨hn, rfl⟩
    exact digitValue?_digit ⟨n, hn⟩

theorem exists_digit_iff {c : Char} : (∃ n < 16, c = digit n) ↔ c ∈ digits := by
  constructor
  · rintro ⟨n, hn, rfl⟩
    exact digit_mem ⟨n, hn⟩
  · have hall : digits.all (fun c => decide (∃ n : Fin 16, c = digit n.val)) = true := by decide
    intro hc
    obtain ⟨n, rfl⟩ := of_decide_eq_true (List.all_eq_true.1 hall c hc)
    exact ⟨n.val, n.isLt, rfl⟩

theorem encodeChars_cons (b : UInt8) (rest : Bytes) :
    encodeChars (b :: rest) = digit (b.toNat / 16) :: digit (b.toNat % 16) :: encodeChars rest :=
  rfl

/-- A pair of digits is that of one byte. -/
theorem pair_eq {h l : Nat} (hh : h < 16) (hl : l < 16) :
    (UInt8.ofNat (h * 16 + l)).toNat / 16 = h ∧ (UInt8.ofNat (h * 16 + l)).toNat % 16 = l := by
  have hvalue : (UInt8.ofNat (h * 16 + l)).toNat = h * 16 + l := by
    rw [UInt8.toNat_ofNat']
    omega
  omega

/-- Only the digits of bytes are read. -/
theorem decodeOnto_eq_some {cs : List Char} {out bytes : Bytes}
    (h : decodeOnto cs out = some bytes) : ∃ more, bytes = out.reverse ++ more ∧
      cs = encodeChars more := by
  induction cs, out using decodeOnto.induct with
  | case1 out =>
    rw [decodeOnto] at h
    cases h
    exact ⟨[], by simp, rfl⟩
  | case2 c out =>
    rw [decodeOnto] at h
    cases h
  | case3 high low rest out x y hlow hhigh ih =>
    rw [decodeOnto, hhigh, hlow] at h
    obtain ⟨more, rfl, rfl⟩ := ih h
    obtain ⟨hx, rfl⟩ := digitValue?_eq_some_iff.1 hhigh
    obtain ⟨hy, rfl⟩ := digitValue?_eq_some_iff.1 hlow
    refine ⟨UInt8.ofNat (x * 16 + y) :: more, by simp, ?_⟩
    rw [encodeChars_cons, (pair_eq hx hy).1, (pair_eq hx hy).2]
  | case4 high low rest out hnone =>
    rw [decodeOnto] at h
    split at h
    · rename_i x y hhigh hlow
      exact (hnone x y hhigh hlow).elim
    · cases h

theorem decode_eq_some_iff {cs : List Char} {bytes : Bytes} :
    decode cs = some bytes ↔ cs = encodeChars bytes := by
  constructor
  · intro h
    obtain ⟨more, rfl, rfl⟩ := decodeOnto_eq_some h
    rfl
  · rintro rfl
    exact decode_encode bytes

theorem length_encodeChars (bytes : Bytes) : (encodeChars bytes).length = 2 * bytes.length := by
  induction bytes with
  | nil => rfl
  | cons b rest ih =>
    rw [encodeChars_cons, List.length_cons, List.length_cons, ih, List.length_cons]
    omega

theorem mem_digits_of_mem_encodeChars {bytes : Bytes} {c : Char} (hc : c ∈ encodeChars bytes) :
    c ∈ digits := by
  obtain ⟨b, -, hc⟩ := List.mem_flatMap.1 hc
  have hb : b.toNat < 256 := b.toNat_lt
  simp only [List.mem_cons, List.not_mem_nil, or_false] at hc
  rcases hc with rfl | rfl
  · exact digit_mem ⟨b.toNat / 16, by omega⟩
  · exact digit_mem ⟨b.toNat % 16, by omega⟩

/-- The digits of so many bytes are twice as many digits, whichever they are. -/
theorem exists_encodeChars_iff (width : Nat) {cs : List Char} :
    (∃ bytes : Bytes, bytes.length = width ∧ cs = encodeChars bytes) ↔
      cs.length = 2 * width ∧ ∀ c ∈ cs, c ∈ digits := by
  constructor
  · rintro ⟨bytes, rfl, rfl⟩
    exact ⟨length_encodeChars bytes, fun c => mem_digits_of_mem_encodeChars⟩
  · rintro ⟨hlength, hdigits⟩
    induction width generalizing cs with
    | zero => exact ⟨[], rfl, List.eq_nil_of_length_eq_zero hlength⟩
    | succ width ih =>
      match cs, hlength with
      | high :: low :: rest, hlength =>
        rw [List.forall_mem_cons, List.forall_mem_cons] at hdigits
        obtain ⟨x, hx, rfl⟩ := exists_digit_iff.2 hdigits.1
        obtain ⟨y, hy, rfl⟩ := exists_digit_iff.2 hdigits.2.1
        simp only [List.length_cons] at hlength
        obtain ⟨bytes, hbytes, rfl⟩ := ih (by omega) hdigits.2.2
        refine ⟨UInt8.ofNat (x * 16 + y) :: bytes, by rw [List.length_cons, hbytes], ?_⟩
        rw [encodeChars_cons, (pair_eq hx hy).1, (pair_eq hx hy).2]

/-- Bytes that are not all zero have a digit that is not `0`. -/
theorem exists_ne_zero_iff {bytes : Bytes} :
    (∃ c ∈ encodeChars bytes, c ≠ '0') ↔ bytes.all (· == 0) = false := by
  have hzero : ∀ n : Fin 16, digit n.val = '0' ↔ n.val = 0 := by decide
  rw [List.all_eq_false]
  constructor
  · rintro ⟨c, hc, hne⟩
    obtain ⟨b, hb, hc⟩ := List.mem_flatMap.1 hc
    refine ⟨b, hb, fun hb0 => hne ?_⟩
    rw [beq_iff_eq] at hb0
    subst hb0
    simpa [digit] using hc
  · rintro ⟨b, hb, hne⟩
    have hb256 : b.toNat < 256 := b.toNat_lt
    have hb0 : b.toNat ≠ 0 := fun h0 => hne (by rw [beq_iff_eq, ← UInt8.toNat_inj, h0]; rfl)
    by_cases hhigh : b.toNat / 16 = 0
    · refine ⟨digit (b.toNat % 16), List.mem_flatMap.2 ⟨b, hb, by simp⟩, fun hdigit => ?_⟩
      have := (hzero ⟨b.toNat % 16, by omega⟩).1 hdigit
      dsimp only at this
      omega
    · exact ⟨digit (b.toNat / 16), List.mem_flatMap.2 ⟨b, hb, by simp⟩,
        fun hdigit => hhigh ((hzero ⟨b.toNat / 16, by omega⟩).1 hdigit)⟩

theorem number_encodeChars_singleton (b : UInt8) : number (encodeChars [b]) = b.toNat := by
  have hb : b.toNat < 256 := b.toNat_lt
  have hhigh := idxOf_digit ⟨b.toNat / 16, by omega⟩
  have hlow := idxOf_digit ⟨b.toNat % 16, by omega⟩
  dsimp only at hhigh hlow
  show (0 * 16 + digits.idxOf (digit (b.toNat / 16))) * 16 +
    digits.idxOf (digit (b.toNat % 16)) = b.toNat
  rw [hhigh, hlow]
  omega

end EventIngress.Hex
