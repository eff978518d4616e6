import EventIngress.Text.Utf8

/-!
# The UTF-8 form of texts

Texts are ordered by their characters, and their UTF-8 forms by their bytes: these are the same
order. Read with replacements, the UTF-8 form of a text shows this text, so nothing was replaced.

Results:

* `Bytes.IsForm`: the one to four bytes of a character.
* `Bytes.ofText_eq`, `Bytes.ofText_append`: the UTF-8 form of a text, character by character.
* `Bytes.ofText_lt_iff`: the order of texts is the order of their bytes.
* `Bytes.lossyText_ofText`: a text shows itself.
* `Bytes.IsText`: byte sequences that are the UTF-8 form of a text.
-/

namespace EventIngress.Bytes

/-! ## The bytes of a character -/

/-- The UTF-8 form of the character with the number `n`. -/
inductive IsForm (n : Nat) : Bytes → Prop where
  | one {a : UInt8} (hn : n < 0x80) (ha : a.toNat = n) : IsForm n [a]
  | two {a b : UInt8} (hmin : 0x80 ≤ n) (hn : n < 0x800) (ha : a.toNat = n / 0x40 + 0xc0)
      (hb : b.toNat = n % 0x40 + 0x80) : IsForm n [a, b]
  | three {a b c : UInt8} (hmin : 0x800 ≤ n) (hn : n < 0x10000)
      (hsurrogate : n < 0xd800 ∨ 0xe000 ≤ n) (ha : a.toNat = n / 0x1000 + 0xe0)
      (hb : b.toNat = n / 0x40 % 0x40 + 0x80) (hc : c.toNat = n % 0x40 + 0x80) : IsForm n [a, b, c]
  | four {a b c d : UInt8} (hmin : 0x10000 ≤ n) (hn : n < 0x110000)
      (ha : a.toNat = n / 0x40000 + 0xf0) (hb : b.toNat = n / 0x1000 % 0x40 + 0x80)
      (hc : c.toNat = n / 0x40 % 0x40 + 0x80) (hd : d.toNat = n % 0x40 + 0x80) :
      IsForm n [a, b, c, d]

theorem isForm_utf8EncodeChar (c : Char) : IsForm c.toNat (String.utf8EncodeChar c) := by
  have hvalid : c.toNat < 0xd800 ∨ 0xdfff < c.toNat ∧ c.toNat < 0x110000 := c.valid
  have hbyte {m k : Nat} (h : m = k) (hk : k < 0x100) : (UInt8.ofNat m).toNat = k := by
    rw [UInt8.toNat_ofNat', h, Nat.mod_eq_of_lt hk]
  unfold String.utf8EncodeChar
  rw [show c.val.toNat = c.toNat from rfl]
  generalize c.toNat = n at hvalid
  dsimp only
  split
  · exact .one (by omega) (hbyte rfl (by omega))
  · split
    · exact .two (by omega) (by omega) (hbyte (by omega) (by omega)) (hbyte rfl (by omega))
    · split
      · exact .three (by omega) (by omega) (by omega) (hbyte (by omega) (by omega))
          (hbyte rfl (by omega)) (hbyte rfl (by omega))
      · exact .four (by omega) (by omega) (hbyte (by omega) (by omega)) (hbyte rfl (by omega))
          (hbyte rfl (by omega)) (hbyte rfl (by omega))

/-- A character is one ASCII byte, or none of its bytes is ASCII. -/
theorem IsForm.ascii_or {n : Nat} {w : Bytes} (h : IsForm n w) :
    (∃ a : UInt8, a.toNat < 0x80 ∧ w = [a]) ∨ ∀ b ∈ w, 0x80 ≤ b.toNat := by
  cases h with
  | one hn ha => exact .inl ⟨_, by omega, rfl⟩
  | _ =>
    refine .inr ?_
    simp only [List.forall_mem_cons, List.not_mem_nil, false_implies, implies_true, and_true]
    omega

/-! ## The bytes of a text -/

theorem ofText_eq (s : String) : ofText s = s.toList.flatMap String.utf8EncodeChar := by
  conv => lhs; rw [← String.ofList_toList (s := s)]
  rw [ofText, String.toByteArray_ofList, List.utf8Encode]
  simp

theorem ofText_append (s t : String) : ofText (s ++ t) = ofText s ++ ofText t := by
  rw [ofText_eq, ofText_eq, ofText_eq, String.toList_append, List.flatMap_append]

/-! ## Order -/

/-- The form of a smaller character comes first, whatever follows the characters: the first byte
tells how long a form is, and of equally long ones the digits count. -/
theorem IsForm.lt {m n : Nat} (h : m < n) {v w : Bytes} (hv : IsForm m v) (hw : IsForm n w)
    (x y : Bytes) : v ++ x < w ++ y := by
  cases hv <;> cases hw <;>
    · simp only [List.cons_append, List.nil_append, List.cons_lt_cons_iff, UInt8.lt_iff_toNat_lt,
        ← UInt8.toNat_inj]
      omega

theorem flatMap_utf8EncodeChar_lt {cs ds : List Char} (h : cs < ds) :
    cs.flatMap String.utf8EncodeChar < ds.flatMap String.utf8EncodeChar := by
  induction h with
  | @nil d ds =>
    rw [List.flatMap_nil, List.flatMap_cons]
    have hd := isForm_utf8EncodeChar d
    generalize String.utf8EncodeChar d = form at hd
    cases hd <;> exact List.nil_lt_cons _ _
  | rel h =>
    rw [List.flatMap_cons, List.flatMap_cons]
    exact (isForm_utf8EncodeChar _).lt h (isForm_utf8EncodeChar _) _ _
  | cons h ih =>
    rw [List.flatMap_cons, List.flatMap_cons]
    exact List.append_left_lt ih

/-- The order of texts is the order of their bytes. -/
theorem ofText_lt_iff {s t : String} : ofText s < ofText t ↔ s < t := by
  have hforward {s t : String} (h : s < t) : ofText s < ofText t := by
    rw [ofText_eq, ofText_eq]
    exact flatMap_utf8EncodeChar_lt (String.lt_iff.1 h)
  refine ⟨fun h => Decidable.byContradiction fun hst => ?_, hforward⟩
  by_cases hts : t < s
  · exact List.lt_asymm h (hforward hts)
  · have heq : s = t := Std.Trichotomous.trichotomous (r := (· < ·)) s t hst hts
    rw [heq] at h
    exact List.lt_irrefl _ h

/-! ## Reading with replacements -/

theorem isTail_of_toNat {b : UInt8} (h : 0x80 ≤ b.toNat) (h' : b.toNat ≤ 0xbf) :
    isTail b = true := by
  simp only [isTail, Bool.and_eq_true, decide_eq_true_eq, UInt8.le_iff_toNat_le]
  exact ⟨h, h'⟩

/-- How many bytes a character takes, by the number of its first byte. -/
theorem charWidth_eq (a : UInt8) :
    charWidth a =
      if a.toNat ≤ 0x7f then some 1
      else if 0xc2 ≤ a.toNat ∧ a.toNat ≤ 0xdf then some 2
      else if 0xe0 ≤ a.toNat ∧ a.toNat ≤ 0xef then some 3
      else if 0xf0 ≤ a.toNat ∧ a.toNat ≤ 0xf4 then some 4
      else none := by
  simp only [charWidth, Bool.and_eq_true, decide_eq_true_eq, UInt8.le_iff_toNat_le]
  rfl

/-- Which second bytes fit, by the numbers of the two bytes. -/
theorem secondFits_of_toNat {a b : UInt8} (h : 0x80 ≤ b.toNat) (h' : b.toNat ≤ 0xbf)
    (he0 : a.toNat = 0xe0 → 0xa0 ≤ b.toNat) (hed : a.toNat = 0xed → b.toNat ≤ 0x9f)
    (hf0 : a.toNat = 0xf0 → 0x90 ≤ b.toNat) (hf4 : a.toNat = 0xf4 → b.toNat ≤ 0x8f) :
    secondFits a b = true := by
  simp only [secondFits, isTail, beq_iff_eq, ← UInt8.toNat_inj, UInt8.le_iff_toNat_le]
  simp only [UInt8.reduceToNat]
  repeat' split
  all_goals
    simp only [Bool.and_eq_true, decide_eq_true_eq]
    omega

/-- The form of a character is read as this character. -/
theorem IsForm.lossyChar {n : Nat} {a : UInt8} {tail : Bytes} (h : IsForm n (a :: tail))
    (rest : Bytes) : lossyChar a (tail ++ rest) = (Char.ofNat n, tail.length + 1) := by
  unfold Bytes.lossyChar
  rw [charWidth_eq]
  cases h with
  | one hn ha =>
    rw [if_pos (by omega), ha]
    rfl
  | @two a b hmin hn ha hb =>
    have hfits : secondFits a b = true :=
      secondFits_of_toNat (by omega) (by omega) (by omega) (by omega) (by omega) (by omega)
    rw [if_neg (by omega), if_pos (by omega)]
    show (if secondFits a b then _ else _) = _
    rw [if_pos hfits]
    rw [Prod.mk.injEq]
    exact ⟨congrArg Char.ofNat (by omega), rfl⟩
  | @three a b c hmin hn hsurrogate ha hb hc =>
    have hfits : secondFits a b = true :=
      secondFits_of_toNat (by omega) (by omega) (by omega) (by omega) (by omega) (by omega)
    rw [if_neg (by omega), if_neg (by omega), if_pos (by omega)]
    show (if secondFits a b then if isTail c then _ else _ else _) = _
    rw [if_pos hfits, if_pos (isTail_of_toNat (by omega) (by omega))]
    rw [Prod.mk.injEq]
    exact ⟨congrArg Char.ofNat (by omega), rfl⟩
  | @four a b c d hmin hn ha hb hc hd =>
    have hfits : secondFits a b = true :=
      secondFits_of_toNat (by omega) (by omega) (by omega) (by omega) (by omega) (by omega)
    rw [if_neg (by omega), if_neg (by omega), if_neg (by omega), if_pos (by omega)]
    show (if secondFits a b then if isTail c then if isTail d then _ else _ else _ else _) = _
    rw [if_pos hfits, if_pos (isTail_of_toNat (by omega) (by omega)),
      if_pos (isTail_of_toNat (by omega) (by omega))]
    rw [Prod.mk.injEq]
    exact ⟨congrArg Char.ofNat (by omega), rfl⟩

/-- Bytes that the last character stands for are passed over. -/
theorem lossyChars_append (skipped rest : Bytes) (out : List Char) :
    lossyChars skipped.length (skipped ++ rest) out = lossyChars 0 rest out := by
  induction skipped with
  | nil => rfl
  | cons b skipped ih => rw [List.length_cons, List.cons_append, lossyChars, ih]

theorem lossyChars_flatMap (cs out : List Char) :
    lossyChars 0 (cs.flatMap String.utf8EncodeChar) out = out.reverse ++ cs := by
  induction cs generalizing out with
  | nil => simp [lossyChars]
  | cons c cs ih =>
    rw [List.flatMap_cons]
    have hc := isForm_utf8EncodeChar c
    generalize String.utf8EncodeChar c = form at hc
    cases form with
    | nil => cases hc
    | cons a tail =>
      rw [List.cons_append, lossyChars, hc.lossyChar, Char.ofNat_toNat]
      dsimp only
      rw [Nat.add_sub_cancel, lossyChars_append, ih, List.reverse_cons, List.append_assoc]
      rfl

/-- A text shows itself. -/
theorem lossyText_ofText (s : String) : lossyText (ofText s) = s := by
  rw [lossyText, ofText_eq, lossyChars_flatMap, List.reverse_nil, List.nil_append,
    String.ofList_toList]

/-! ## Byte sequences that are texts -/

/-- The bytes are the UTF-8 form of a text. -/
def IsText (w : Bytes) : Prop :=
  ∃ s, ofText s = w

namespace IsText

variable {v w : Bytes}

theorem append (hv : IsText v) (hw : IsText w) : IsText (v ++ w) := by
  obtain ⟨s, rfl⟩ := hv
  obtain ⟨t, rfl⟩ := hw
  exact ⟨s ++ t, ofText_append s t⟩

theorem of_ascii (h : ∀ b ∈ w, b.toNat < 0x80) : IsText w := by
  have hvalue (b : UInt8) : (Char.ofUInt8 b).toNat = b.toNat := by
    show b.toUInt32.toNat = b.toNat
    simp
  refine ⟨String.ofList (w.map Char.ofUInt8), ?_⟩
  rw [ofText_ofList, List.map_map]
  · refine (List.map_congr_left fun b _ => ?_).trans (List.map_id w)
    show b.toUInt32.toUInt8 = b
    exact UInt8.toUInt8_toUInt32 b
  · intro c hc
    obtain ⟨b, hb, rfl⟩ := List.mem_map.1 hc
    rw [hvalue]
    exact h b hb

theorem singleton {b : UInt8} (hb : b.toNat < 0x80) : IsText [b] :=
  of_ascii (List.forall_mem_singleton.2 hb)

theorem cons {b : UInt8} (hb : b.toNat < 0x80) (hw : IsText w) : IsText (b :: w) :=
  append (singleton hb) hw

theorem flatMap {α : Type} {f : α → Bytes} {as : List α} (h : ∀ a ∈ as, IsText (f a)) :
    IsText (as.flatMap f) := by
  induction as with
  | nil => exact ⟨"", rfl⟩
  | cons a as ih =>
    rw [List.forall_mem_cons] at h
    rw [List.flatMap_cons]
    exact append h.1 (ih h.2)

/-- A text is shown without replacements. -/
theorem ofText_lossyText (hw : IsText w) : ofText (lossyText w) = w := by
  obtain ⟨s, rfl⟩ := hw
  rw [lossyText_ofText]

end IsText

end EventIngress.Bytes
