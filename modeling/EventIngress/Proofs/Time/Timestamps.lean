import EventIngress.Proofs.Time.Calendar
import EventIngress.Time.Timestamp

/-!
# The text form of timestamps

A timestamp that has a text form is read back from it, with its instant and its offset, and what is
read always has a text form.

Results:

* `Timestamp.parse?_chars`: reading the text form.
* `Timestamp.hasText_of_parse?`: what can be read.
-/

namespace EventIngress.Timestamp

/-! ## Digits -/

theorem digits?_map {ds : List Char} (hds : ∀ c ∈ ds, c.isDigit = true) (n : Nat) (rest : Bytes) :
    digits? ds.length n (ds.map Char.toUInt8 ++ rest) = some (Nat.ofDigitChars 10 ds n, rest) := by
  induction ds generalizing n with
  | nil => rfl
  | cons c ds ih =>
    obtain ⟨hbounds, hvalue⟩ := Bytes.toUInt8_digit (hds c List.mem_cons_self)
    show digits? (ds.length + 1) n (c.toUInt8 :: (ds.map Char.toUInt8 ++ rest)) = _
    rw [digits?, if_pos hbounds, ih fun d hd => hds d (List.mem_cons_of_mem c hd),
      Nat.ofDigitChars_cons, hvalue, Nat.mul_comm n 10]
    rfl

/-- So many digits make a number below the power of ten. -/
theorem lt_of_digits? {count n value : Nat} {input rest : Bytes}
    (h : digits? count n input = some (value, rest)) : value < (n + 1) * 10 ^ count := by
  induction count generalizing n input with
  | zero =>
    cases h
    omega
  | succ count ih =>
    cases input with
    | nil => cases h
    | cons b input =>
      rw [digits?] at h
      split at h
      · rename_i hbounds
        have hle : b.toNat ≤ 0x39 := hbounds.2
        have hlt := ih h
        have hstep : (n * 10 + (b.toNat - 0x30) + 1) * 10 ^ count ≤ (n + 1) * 10 ^ (count + 1) := by
          rw [Nat.pow_succ', ← Nat.mul_assoc]
          exact Nat.mul_le_mul_right _ (by omega)
        omega
      · cases h

theorem isDigit_of_mem_padded {width n : Nat} {c : Char} (h : c ∈ padded width n) :
    c.isDigit = true := by
  rcases List.mem_append.1 h with h | h
  · rw [List.eq_of_mem_replicate h]
    rfl
  · exact Nat.isDigit_of_mem_toDigits (by decide) (by decide) h

theorem length_padded {width n : Nat} (hwidth : 0 < width) (h : n < 10 ^ width) :
    (padded width n).length = width := by
  have hle := (Nat.length_toDigits_le_iff (by decide) hwidth).2 h
  rw [padded, List.length_append, List.length_replicate]
  omega

theorem ofDigitChars_padded (width n : Nat) : Nat.ofDigitChars 10 (padded width n) 0 = n := by
  rw [padded, Nat.ofDigitChars_append, Nat.ofDigitChars_replicate_zero, Nat.mul_zero,
    Nat.ofDigitChars_ten_toDigits]

/-- The bytes of a number with leading zeros. -/
def paddedBytes (width n : Nat) : Bytes :=
  (padded width n).map Char.toUInt8

theorem digits?_padded (width n : Nat) (hwidth : 0 < width) (h : n < 10 ^ width) (rest : Bytes) :
    digits? width 0 (paddedBytes width n ++ rest) = some (n, rest) := by
  have hdigits : ∀ c ∈ padded width n, c.isDigit = true := fun c hc => isDigit_of_mem_padded hc
  have hread := digits?_map hdigits 0 rest
  rw [length_padded hwidth h, ofDigitChars_padded] at hread
  exact hread

/-! ## Fractions -/

/-- Nothing that could go on with the digits of a fraction. -/
def Undigited (rest : Bytes) : Prop :=
  ∀ b ∈ rest.head?, ¬ (0x30 ≤ b ∧ b ≤ 0x39)

theorem fraction_map {ds : List Char} (hds : ∀ c ∈ ds, c.isDigit = true) {m : Nat}
    (hlength : ds.length ≤ m + 1) {rest : Bytes} (hrest : Undigited rest) (nanos : Nat) :
    fraction (10 ^ m) nanos (ds.map Char.toUInt8 ++ rest) =
      (nanos + Nat.ofDigitChars 10 ds 0 * 10 ^ (m + 1 - ds.length), rest) := by
  have hend (weight nanos : Nat) : fraction weight nanos rest = (nanos, rest) := by
    cases rest with
    | nil => rfl
    | cons b rest => rw [fraction, if_neg (hrest b rfl)]
  induction ds generalizing m nanos with
  | nil =>
    show fraction _ _ rest = _
    rw [hend, Nat.ofDigitChars_nil, Nat.zero_mul]
    rfl
  | cons c ds ih =>
    obtain ⟨hbounds, hvalue⟩ := Bytes.toUInt8_digit (hds c List.mem_cons_self)
    have hds' : ∀ d ∈ ds, d.isDigit = true := fun d hd => hds d (List.mem_cons_of_mem c hd)
    show fraction _ _ (c.toUInt8 :: (ds.map Char.toUInt8 ++ rest)) = _
    rw [fraction, if_pos hbounds, hvalue, Nat.ofDigitChars_cons]
    cases m with
    | zero =>
      have hnil : ds = [] := List.eq_nil_of_length_eq_zero (by
        rw [List.length_cons] at hlength
        omega)
      subst hnil
      show fraction _ _ rest = _
      rw [hend, Nat.ofDigitChars_nil]
      simp
    | succ m =>
      rw [List.length_cons] at hlength ⊢
      have hzero : '0'.toNat = 0x30 := rfl
      rw [hzero]
      generalize c.toNat - 0x30 = digit
      have hhead : Nat.ofDigitChars 10 ds (10 * 0 + digit) =
          10 ^ ds.length * digit + Nat.ofDigitChars 10 ds 0 := by
        rw [Nat.ofDigitChars_eq_ofDigitChars_zero, Nat.mul_zero, Nat.zero_add]
      have hweight : 10 ^ ds.length * 10 ^ (m + 1 - ds.length) = 10 ^ (m + 1) := by
        rw [← Nat.pow_add, Nat.add_sub_cancel' (by omega)]
      rw [Nat.pow_succ, Nat.mul_div_cancel _ (by decide), ← Nat.pow_succ, ih hds' (by omega), hhead,
        Nat.add_sub_add_right, Nat.add_mul, Nat.mul_right_comm, hweight, Nat.add_assoc]

/-- The fraction of a second without its trailing zeros. -/
def fractionDigits (nanos : Nat) : List Char :=
  ((padded 9 nanos).reverse.dropWhile (· == '0')).reverse

/-- Only zeros are left out at the end of a fraction. -/
theorem padded_eq_fractionDigits (nanos : Nat) :
    ∃ k, padded 9 nanos = fractionDigits nanos ++ List.replicate k '0' := by
  refine ⟨((padded 9 nanos).reverse.takeWhile (· == '0')).length, ?_⟩
  have hzeros : ((padded 9 nanos).reverse.takeWhile (· == '0')).reverse =
      List.replicate ((padded 9 nanos).reverse.takeWhile (· == '0')).length '0' := by
    rw [List.eq_replicate_iff, List.length_reverse]
    refine ⟨rfl, ?_⟩
    intro c hc
    have hall := List.all_takeWhile (l := (padded 9 nanos).reverse) (p := (· == '0'))
    rw [List.all_eq_true] at hall
    simpa using hall c (List.mem_reverse.1 hc)
  rw [← hzeros, fractionDigits, ← List.reverse_append, List.takeWhile_append_dropWhile,
    List.reverse_reverse]

theorem isDigit_of_mem_fractionDigits {nanos : Nat} {c : Char} (h : c ∈ fractionDigits nanos) :
    c.isDigit = true := by
  obtain ⟨k, hpadded⟩ := padded_eq_fractionDigits nanos
  have hmem : c ∈ padded 9 nanos := hpadded ▸ List.mem_append_left _ h
  exact isDigit_of_mem_padded hmem

/-- What a fraction of a second is worth without its trailing zeros. -/
theorem ofDigitChars_fractionDigits {nanos : Nat} (h : nanos < 1000000000) :
    ∃ k, (fractionDigits nanos).length + k = 9 ∧
      Nat.ofDigitChars 10 (fractionDigits nanos) 0 * 10 ^ k = nanos := by
  obtain ⟨k, hpadded⟩ := padded_eq_fractionDigits nanos
  have hlength : (padded 9 nanos).length = 9 := length_padded (by decide) h
  have hvalue := ofDigitChars_padded 9 nanos
  rw [hpadded, List.length_append, List.length_replicate] at hlength
  rw [hpadded, Nat.ofDigitChars_append, Nat.ofDigitChars_replicate_zero, Nat.mul_comm] at hvalue
  exact ⟨k, hlength, hvalue⟩

theorem digits?_one {c : Char} (hc : c.isDigit = true) (rest : Bytes) :
    digits? 1 0 (c.toUInt8 :: rest) = some (c.toUInt8.toNat - 0x30, rest) := by
  obtain ⟨hbounds, _⟩ := Bytes.toUInt8_digit hc
  rw [digits?, if_pos hbounds, digits?, Nat.zero_mul, Nat.zero_add]

theorem fraction?_text {nanos : Nat} (h : nanos < 1000000000) {rest : Bytes}
    (hrest : Undigited rest) (hpoint : mark? ['.'] rest = none) :
    fraction? ((fractionText nanos).map Char.toUInt8 ++ rest) = some (nanos, rest) := by
  rw [fractionText]
  by_cases hzero : nanos = 0
  · subst hzero
    show fraction? rest = _
    rw [fraction?, hpoint]
  · have hdigits : ∀ c ∈ fractionDigits nanos, c.isDigit = true := fun c hc =>
      isDigit_of_mem_fractionDigits hc
    obtain ⟨k, hlength, hvalue⟩ := ofDigitChars_fractionDigits h
    have hread := fraction_map hdigits (m := 8) (by omega) hrest 0
    rw [if_neg hzero]
    show fraction? (0x2e :: ((fractionDigits nanos).map Char.toUInt8 ++ rest)) = _
    rw [fraction?]
    show (digits? 1 0 ((fractionDigits nanos).map Char.toUInt8 ++ rest)).map _ = _
    cases hds : fractionDigits nanos with
    | nil =>
      rw [hds, Nat.ofDigitChars_nil, Nat.zero_mul] at hvalue
      exact absurd hvalue.symm hzero
    | cons c ds =>
      rw [hds] at hread hvalue hlength
      have hone := digits?_one (hdigits c (hds ▸ List.mem_cons_self))
        (ds.map Char.toUInt8 ++ rest)
      have hweight : 8 + 1 - (c :: ds).length = k := by omega
      rw [List.map_cons, List.cons_append] at hread ⊢
      rw [hone]
      show some (fraction (10 ^ 8) 0 _) = _
      rw [hread, hweight, hvalue, Nat.zero_add]

/-! ## Offsets -/

theorem mark?_colon (rest : Bytes) : mark? [':'] (0x3a :: rest) = some rest :=
  rfl

theorem mark?_hyphen (rest : Bytes) : mark? ['-'] (0x2d :: rest) = some rest :=
  rfl

/-- Reads the hours and minutes of an offset after its sign. -/
def unsignedOffset? (negative : Bool) (input : Bytes) : Option (Int × Bytes) := do
  let (hours, rest) ← digits? 2 0 input
  let rest ← mark? [':'] rest
  let (minutes, rest) ← digits? 2 0 rest
  let seconds : Int := (hours * 60 + minutes : Nat) * 60
  if hours ≤ 23 ∧ minutes ≤ 59 then some (if negative then -seconds else seconds, rest) else none

theorem offset?_eq (input : Bytes) :
    offset? input =
      match mark? ['Z', 'z'] input, mark? ['-'] input with
      | some rest, _ => some (0, rest)
      | none, some rest => unsignedOffset? true rest
      | none, none => (mark? ['+'] input).bind (unsignedOffset? false) := by
  rw [offset?]
  cases mark? ['Z', 'z'] input with
  | some rest => rfl
  | none =>
    cases mark? ['-'] input with
    | some rest => rfl
    | none => cases mark? ['+'] input <;> rfl

theorem unsignedOffset?_padded (negative : Bool) (hours minutes : Nat) (hhours : hours ≤ 23)
    (hminutes : minutes ≤ 59) (rest : Bytes) :
    unsignedOffset? negative (paddedBytes 2 hours ++ 0x3a :: (paddedBytes 2 minutes ++ rest)) =
      some (if negative then -((hours * 60 + minutes : Nat) * 60 : Int)
        else ((hours * 60 + minutes : Nat) * 60 : Int), rest) := by
  have hh := digits?_padded 2 hours (by decide) (by omega)
  have hm := digits?_padded 2 minutes (by decide) (by omega)
  simp only [unsignedOffset?, Option.bind_eq_bind, Option.bind_some, hh, mark?_colon, hm]
  rw [if_pos ⟨hhours, hminutes⟩]

theorem offset?_text {offset : Int} (hday : offset.natAbs < 86400)
    (hminutes : offset.natAbs % 60 = 0) (rest : Bytes) :
    offset? ((offsetText offset).map Char.toUInt8 ++ rest) = some (offset, rest) := by
  rw [offsetText]
  by_cases hzero : offset = 0
  · subst hzero
    rfl
  · have hread (negative : Bool) := unsignedOffset?_padded negative (offset.natAbs / 60 / 60)
      (offset.natAbs / 60 % 60) (by omega) (by omega) rest
    have hseconds : (offset.natAbs / 60 / 60 * 60 + offset.natAbs / 60 % 60) * 60 =
        offset.natAbs := by omega
    have hbytes (sign : Char) : (sign :: (padded 2 (offset.natAbs / 60 / 60) ++
          ':' :: padded 2 (offset.natAbs / 60 % 60))).map Char.toUInt8 ++ rest =
        sign.toUInt8 :: (paddedBytes 2 (offset.natAbs / 60 / 60) ++ 0x3a ::
          (paddedBytes 2 (offset.natAbs / 60 % 60) ++ rest)) := by
      simp only [paddedBytes, List.map_cons, List.map_append, List.cons_append, List.append_assoc]
      rfl
    rw [if_neg hzero, offset?_eq]
    dsimp only
    rw [hbytes]
    by_cases hneg : offset < 0
    · rw [if_pos hneg]
      show unsignedOffset? true _ = _
      rw [hread, if_pos rfl]
      congr 2
      omega
    · rw [if_neg hneg]
      show unsignedOffset? false _ = _
      rw [hread, if_neg (by decide)]
      congr 2
      omega

theorem natAbs_of_unsignedOffset? {negative : Bool} {input rest : Bytes} {offset : Int}
    (h : unsignedOffset? negative input = some (offset, rest)) :
    offset.natAbs < 86400 ∧ offset.natAbs % 60 = 0 := by
  simp only [unsignedOffset?, Option.bind_eq_bind, Option.bind_eq_some_iff] at h
  obtain ⟨⟨hours, _⟩, _, _, _, ⟨minutes, _⟩, _, h⟩ := h
  dsimp only at h
  split at h
  · cases h
    split <;> omega
  · cases h

theorem natAbs_of_offset? {input rest : Bytes} {offset : Int}
    (h : offset? input = some (offset, rest)) :
    offset.natAbs < 86400 ∧ offset.natAbs % 60 = 0 := by
  rw [offset?_eq] at h
  split at h
  · cases h
    decide
  · exact natAbs_of_unsignedOffset? h
  · obtain ⟨_, _, h⟩ := Option.bind_eq_some_iff.1 h
    exact natAbs_of_unsignedOffset? h

/-! ## Dates and clocks -/

theorem date?_padded {d : Date} (hvalid : d.Valid) (hyear : d.year < 10000) (rest : Bytes) :
    date? (paddedBytes 4 d.year ++ 0x2d :: (paddedBytes 2 d.month ++ 0x2d ::
      (paddedBytes 2 d.dayOfMonth ++ rest))) = some (d, rest) := by
  obtain ⟨hmonth, hday⟩ := hvalid.month_le
  have hy := digits?_padded 4 d.year (by decide) (by omega)
  have hm := digits?_padded 2 d.month (by decide) (by omega)
  have hd := digits?_padded 2 d.dayOfMonth (by decide) (by omega)
  simp only [date?, Option.bind_eq_bind, Option.bind_some, hy, hm, hd, mark?_hyphen]
  exact if_pos hvalid

theorem of_date? {input rest : Bytes} {d : Date} (h : date? input = some (d, rest)) :
    d.Valid ∧ d.year < 10000 := by
  simp only [date?, Option.bind_eq_bind, Option.bind_eq_some_iff] at h
  obtain ⟨⟨year, _⟩, hyear, _, _, ⟨month, _⟩, _, _, _, ⟨dayOfMonth, _⟩, _, h⟩ := h
  dsimp only at h
  split at h
  · rename_i hvalid
    cases h
    exact ⟨hvalid, lt_of_digits? hyear⟩
  · cases h

theorem clock?_padded (hour minute second : Nat) {nanos : Nat} (hhour : hour ≤ 23)
    (hminute : minute ≤ 59) (hsecond : second ≤ 59) (hnanos : nanos < 1000000000) {rest : Bytes}
    (hrest : Undigited rest) (hpoint : mark? ['.'] rest = none) :
    clock? (paddedBytes 2 hour ++ 0x3a :: (paddedBytes 2 minute ++ 0x3a ::
        (paddedBytes 2 second ++ ((fractionText nanos).map Char.toUInt8 ++ rest)))) =
      some ((hour, minute, second, nanos), rest) := by
  have hh := digits?_padded 2 hour (by decide) (by omega)
  have hm := digits?_padded 2 minute (by decide) (by omega)
  have hs := digits?_padded 2 second (by decide) (by omega)
  have hfraction := fraction?_text hnanos hrest hpoint
  simp only [clock?, Option.bind_eq_bind, Option.bind_some, hh, hm, hs, hfraction, mark?_colon]
  exact if_pos ⟨hhour, hminute, Nat.le_succ_of_le hsecond⟩

theorem of_clock? {input rest : Bytes} {hour minute second nanos : Nat}
    (h : clock? input = some ((hour, minute, second, nanos), rest)) :
    hour ≤ 23 ∧ minute ≤ 59 ∧ second ≤ 60 := by
  simp only [clock?, Option.bind_eq_bind, Option.bind_eq_some_iff] at h
  obtain ⟨_, _, _, _, _, _, _, _, _, _, _, _, h⟩ := h
  split at h
  · cases h
    assumption
  · cases h

/-! ## Timestamps -/

variable {t : Timestamp}

theorem hasText_iff : t.hasText = true ↔
    0 ≤ t.localDay ∧ t.localDay < Date.daysBeforeYear 10000 ∧ t.offset.natAbs < 86400 ∧
      t.offset.natAbs % 60 = 0 := by
  simp only [hasText, Bool.and_eq_true, decide_eq_true_eq, beq_iff_eq, and_assoc]

theorem map_chars (t : Timestamp) :
    t.chars.map Char.toUInt8 =
      let date := Date.ofDay t.localDay.toNat
      paddedBytes 4 date.year ++ 0x2d :: (paddedBytes 2 date.month ++ 0x2d ::
        (paddedBytes 2 date.dayOfMonth ++ 0x54 :: (paddedBytes 2 (t.localSecond / 3600) ++ 0x3a ::
          (paddedBytes 2 (t.localSecond / 60 % 60) ++ 0x3a ::
            (paddedBytes 2 (t.localSecond % 60) ++ ((fractionText t.nanos).map Char.toUInt8 ++
              (offsetText t.offset).map Char.toUInt8)))))) := by
  simp only [chars, paddedBytes, List.map_append, List.map_cons, List.append_assoc]
  rfl

theorem offsetText_start (offset : Int) :
    Undigited ((offsetText offset).map Char.toUInt8) ∧
      mark? ['.'] ((offsetText offset).map Char.toUInt8) = none := by
  rw [offsetText]
  split
  · exact ⟨by rintro _ ⟨⟩; decide, rfl⟩
  · dsimp only
    split
    · exact ⟨by rintro _ ⟨⟩; decide, rfl⟩
    · exact ⟨by rintro _ ⟨⟩; decide, rfl⟩

theorem ofBytes?_chars (h : t.hasText = true) : ofBytes? (t.chars.map Char.toUInt8) = some t := by
  obtain ⟨hday, hyear, hoffset, hminutes⟩ := hasText_iff.1 h
  obtain ⟨hvalid, hcount, _⟩ := Date.ofDay_spec t.localDay.toNat
  have hsecond : t.localSecond < 86400 := by
    unfold localSecond
    omega
  obtain ⟨hdigit, hpoint⟩ := offsetText_start t.offset
  have hdate := date?_padded hvalid (Date.year_ofDay_lt (by omega))
  have hclock := clock?_padded (t.localSecond / 3600) (t.localSecond / 60 % 60)
    (t.localSecond % 60) (by omega) (by omega) (by omega) t.nanos_lt hdigit hpoint
  have htail := offset?_text hoffset hminutes []
  rw [List.append_nil] at htail
  have hnotLeap : ¬ t.localSecond % 60 = 60 := by omega
  have hseconds : ((Date.ofDay t.localDay.toNat).day - epochDay : Int) * 86400 +
      (t.localSecond / 3600 * 3600 + t.localSecond / 60 % 60 * 60 + t.localSecond % 60 : Nat) -
        t.offset = t.seconds := by
    rw [hcount]
    unfold localSecond localDay at *
    omega
  rw [map_chars, ofBytes?]
  simp only [Option.bind_eq_bind, Option.bind_some, hdate, List.tail?_cons, hclock, htail, hnotLeap,
    if_false, hseconds]
  rw [dif_pos t.nanos_lt, if_pos ⟨rfl, False.elim⟩]

/-- All characters of a text form are ASCII. -/
theorem lt_of_mem_padded {width n : Nat} {c : Char} (h : c ∈ padded width n) : c.toNat < 0x80 :=
  Nat.lt_of_le_of_lt (Char.isDigit_iff_toNat.1 (isDigit_of_mem_padded h)).2 (by decide)

theorem lt_of_mem_fractionText {nanos : Nat} {c : Char} (h : c ∈ fractionText nanos) :
    c.toNat < 0x80 := by
  rw [fractionText] at h
  split at h
  · cases h
  · rcases List.mem_cons.1 h with rfl | h
    · decide
    · have hmem := (List.dropWhile_sublist _).mem (List.mem_reverse.1 h)
      exact lt_of_mem_padded (List.mem_reverse.1 hmem)

theorem lt_of_mem_offsetText {offset : Int} {c : Char} (h : c ∈ offsetText offset) :
    c.toNat < 0x80 := by
  rw [offsetText] at h
  split at h
  · rw [List.mem_singleton.1 h]
    decide
  · simp only [List.mem_cons, List.mem_append] at h
    rcases h with rfl | h | rfl | h
    · split <;> decide
    · exact lt_of_mem_padded h
    · decide
    · exact lt_of_mem_padded h

theorem lt_of_mem_chars {c : Char} (h : c ∈ t.chars) : c.toNat < 0x80 := by
  simp only [chars, List.mem_append, List.mem_cons] at h
  rcases h with h | rfl | h | rfl | h | rfl | h | rfl | h | rfl | (h | h) | h
  · exact lt_of_mem_padded h
  · decide
  · exact lt_of_mem_padded h
  · decide
  · exact lt_of_mem_padded h
  · decide
  · exact lt_of_mem_padded h
  · decide
  · exact lt_of_mem_padded h
  · decide
  · exact lt_of_mem_padded h
  · exact lt_of_mem_fractionText h
  · exact lt_of_mem_offsetText h

/-- A time with a text form is read back from it. -/
theorem parse?_chars (h : t.hasText = true) : parse? (String.ofList t.chars) = some t := by
  rw [parse?, Bytes.ofText_ofList fun c hc => lt_of_mem_chars hc]
  exact ofBytes?_chars h

/-- A time that was read has a text form. -/
theorem hasText_of_parse? {s : String} (h : parse? s = some t) : t.hasText = true := by
  rw [parse?, ofBytes?] at h
  simp only [Option.bind_eq_bind, Option.bind_eq_some_iff] at h
  obtain ⟨⟨d, _⟩, hdate, _, _, ⟨⟨hour, minute, second, nanos⟩, _⟩, hclock, ⟨offset, _⟩, hoffset,
    h⟩ := h
  dsimp only at h
  obtain ⟨hvalid, hyear⟩ := of_date? hdate
  obtain ⟨hbound, hminutes⟩ := natAbs_of_offset? hoffset
  have hday := hvalid.day_lt hyear
  have hclock := of_clock? hclock
  -- a leap second counts as the second before it
  have hsecond : (if second = 60 then 59 else second) ≤ 59 := by
    split <;> omega
  generalize (if second = 60 then 59 else second) = shown at h hsecond
  generalize (if second = 60 then 999999999 else nanos) = shownNanos at h
  split at h
  · split at h
    · cases h
      have hlocal : (⟨(d.day - epochDay) * 86400 +
          (hour * 3600 + minute * 60 + shown : Nat) - offset, shownNanos, offset, ‹_›⟩ :
          Timestamp).localDay = d.day := by
        unfold localDay
        dsimp only
        omega
      rw [hasText_iff, hlocal]
      exact ⟨by omega, by omega, hbound, hminutes⟩
    · cases h
  · cases h

end EventIngress.Timestamp
