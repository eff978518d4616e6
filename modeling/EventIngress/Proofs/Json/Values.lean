import EventIngress.Json.Read
import EventIngress.Proofs.Json.Scalars

/-!
# Values in JSON

A written value is read back, whatever follows it, if it nests no more arrays and objects than may
be read and has no numbers of double precision. Each step of the reader takes at least one byte of
what was written, so the bound on the steps is never met.

Results:

* `Json.Tree.nesting`, `Json.Tree.Integral`: how deep a value is, and which numbers it has.
* `Json.ReadsAs`: a written form, whatever the order of its members, is read as a value.
* `Json.ReadsAs.array`, `Json.ReadsAs.object`: from items and members to arrays and objects.
* `Json.readsAs_write`, `Json.readValue_write`: written values are read back.
* `Json.nesting_readValue`: what is read nests no more than it may.
-/

namespace EventIngress.Json

/-! ## Trees -/

mutual

/-- How many arrays and objects a value nests. -/
def Tree.nesting : Tree → Nat
  | .array items => Tree.itemsNesting items + 1
  | .object members => Tree.membersNesting members + 1
  | _ => 0

/-- How many arrays and objects the items of an array nest. -/
def Tree.itemsNesting : List Tree → Nat
  | [] => 0
  | item :: items => max item.nesting (Tree.itemsNesting items)

/-- How many arrays and objects the values of an object nest. -/
def Tree.membersNesting : List (String × Tree) → Nat
  | [] => 0
  | (_, value) :: members => max value.nesting (Tree.membersNesting members)

end

mutual

/-- There are no numbers of double precision. -/
def Tree.Integral : Tree → Prop
  | .number (.real _) => False
  | .array items => Tree.ItemsIntegral items
  | .object members => Tree.MembersIntegral members
  | _ => True

/-- No item of an array has numbers of double precision. -/
def Tree.ItemsIntegral : List Tree → Prop
  | [] => True
  | item :: items => item.Integral ∧ Tree.ItemsIntegral items

/-- No value of an object has numbers of double precision. -/
def Tree.MembersIntegral : List (String × Tree) → Prop
  | [] => True
  | (_, value) :: members => value.Integral ∧ Tree.MembersIntegral members

end

/-! ## Numbers -/

theorem skipBlank_cons {b : UInt8} (h : isBlankByte b = false) (rest : Bytes) :
    skipBlank (b :: rest) = b :: rest := by
  rw [skipBlank, h, if_neg (by decide)]

theorem fits_of_lt {n : Nat} (h : n < 0x10000000000000000) :
    -0x8000000000000000 ≤ (n : Int) ∧ (n : Int) < 0x10000000000000000 := by
  omega

theorem fits_neg_of_le {n : Nat} (h : n ≤ 0x8000000000000000) :
    -0x8000000000000000 ≤ -(n : Int) ∧ -(n : Int) < 0x10000000000000000 := by
  omega

theorem integerOf_false {n : Nat} (h : n < 0x10000000000000000) (rest : Bytes) :
    integerOf false n rest = .ok (.integer n (fits_of_lt h), rest) := by
  rw [integerOf, if_neg (by decide), dif_pos h]

theorem integerOf_true {n : Nat} (hpos : 0 < n) (h : n ≤ 0x8000000000000000) (rest : Bytes) :
    integerOf true n rest = .ok (.integer (-n) (fits_neg_of_le h), rest) := by
  rw [integerOf, if_pos rfl, dif_pos ⟨hpos, h⟩]

theorem isBlankByte_of_digit {b : UInt8} (h : isDigitByte b = true) : isBlankByte b = false := by
  rw [← Bool.not_eq_true]
  intro hblank
  simp only [isBlankByte, Bool.or_eq_true, beq_iff_eq] at hblank
  rcases hblank with ((rfl | rfl) | rfl) | rfl <;> cases h

theorem glyph_ne_of_digit {b : UInt8} (h : isDigitByte b = true) {c : Char}
    (hc : isDigitByte c.toUInt8 = false) : glyph b ≠ c := by
  rintro rfl
  rw [toUInt8_glyph, h] at hc
  cases hc

theorem readValueSteps_digit {b : UInt8} (h : isDigitByte b = true) (steps depth : Nat)
    (rest : Bytes) :
    readValueSteps (steps + 1) depth (b :: rest) =
      (scanNumber false (b :: rest)).map fun (n, rest) => (.number n, rest) := by
  rw [readValueSteps, skipBlank_cons (isBlankByte_of_digit h)]
  dsimp only
  have hne {c : Char} (hc : isDigitByte c.toUInt8 = false) := glyph_ne_of_digit h hc
  split
  · exact absurd ‹_› (hne rfl)
  · exact absurd ‹_› (hne rfl)
  · exact absurd ‹_› (hne rfl)
  · exact absurd ‹_› (hne rfl)
  · exact absurd ‹_› (hne rfl)
  · exact absurd ‹_› (hne rfl)
  · exact absurd ‹_› (hne rfl)
  · rw [if_pos h]

theorem readValueSteps_number {n : Number} (hn : (Tree.number n).Integral) (steps depth : Nat)
    {rest : Bytes} (hrest : Delimited rest) :
    readValueSteps (steps + 1) depth (writeNumber n ++ rest) = .ok (.number n, rest) := by
  cases n with
  | real x => exact hn.elim
  | integer value fits =>
    cases value with
    | ofNat n =>
      have hlt : n < 0x10000000000000000 := Int.ofNat_lt.1 fits.2
      have hscan := scanNumber_toDigits false hlt hrest
      rw [integerOf_false hlt] at hscan
      show readValueSteps _ _ (asciiBytes (Nat.toDigits 10 n) ++ rest) = _
      obtain ⟨c, ds, hds⟩ := List.exists_cons_of_ne_nil (Nat.toDigits_ne_nil (n := n) (b := 10))
      have hc : c.isDigit = true :=
        Nat.isDigit_of_mem_toDigits (by decide) (by decide) (hds ▸ List.mem_cons_self)
      rw [hds] at hscan ⊢
      show readValueSteps (steps + 1) depth (c.toUInt8 :: (asciiBytes ds ++ rest)) = _
      rw [readValueSteps_digit (isDigitByte_toUInt8 hc)]
      show (scanNumber false (asciiBytes (c :: ds) ++ rest)).map _ = _
      rw [hscan]
      rfl
    | negSucc n =>
      have hle : n + 1 ≤ 0x8000000000000000 := by
        obtain ⟨hlow, _⟩ := fits
        omega
      have hscan := scanNumber_toDigits true (n := n + 1) (by unfold significandLimit; omega) hrest
      rw [integerOf_true (Nat.succ_pos n) hle] at hscan
      show (scanNumber true (asciiBytes (Nat.toDigits 10 (n + 1)) ++ rest)).map _ = _
      rw [hscan]
      rfl

/-! ## Frames -/

/-- Further items or members, each after a comma. -/
def continued (parts : List Bytes) : Bytes :=
  parts.flatMap fun part => 0x2c :: part

theorem continued_cons (part : Bytes) (parts : List Bytes) (rest : Bytes) :
    continued (part :: parts) ++ rest = 0x2c :: (part ++ (continued parts ++ rest)) := by
  simp [continued]

theorem length_continued_cons (part : Bytes) (parts : List Bytes) :
    (continued (part :: parts)).length = part.length + (continued parts).length + 1 := by
  simp only [continued, List.flatMap_cons, List.length_append, List.length_cons]
  omega

theorem length_le_length_continued (parts : List Bytes) :
    parts.length ≤ (continued parts).length := by
  induction parts with
  | nil => exact Nat.zero_le _
  | cons part parts ih =>
    rw [length_continued_cons, List.length_cons]
    omega

theorem commaSeparated_cons (part : Bytes) (parts : List Bytes) :
    commaSeparated (part :: parts) = part ++ continued parts := by
  induction parts generalizing part with
  | nil => rw [commaSeparated, continued, List.flatMap_nil, List.append_nil]
  | cons next parts ih =>
    rw [commaSeparated, ih]
    · rfl
    · rintro ⟨⟩

theorem delimited_cons {b : UInt8} {rest : Bytes}
    (h : isDigitByte b = false ∧ glyph b ≠ '.' ∧ glyph b ≠ 'e' ∧ glyph b ≠ 'E') :
    Delimited (b :: rest) := by
  rintro _ ⟨⟩
  exact h

/-- A value may be followed by further ones, or by a bracket. -/
theorem delimited_continued {b : UInt8} (h : b = 0x5d ∨ b = 0x7d) (parts : List Bytes)
    (rest : Bytes) : Delimited (continued parts ++ b :: rest) := by
  cases parts with
  | nil => rcases h with rfl | rfl <;> exact delimited_cons (by decide)
  | cons part parts =>
    rw [continued_cons]
    exact delimited_cons (by decide)

theorem writeItems_eq_map (items : List Tree) : Tree.writeItems items = items.map Tree.write := by
  induction items with
  | nil => rfl
  | cons item items ih => rw [Tree.writeItems, ih, List.map_cons]

theorem writeMembers_eq_map (members : List (String × Tree)) :
    Tree.writeMembers members = members.map fun m => (m.1, m.2.write) := by
  induction members with
  | nil => rfl
  | cons m members ih => rw [Tree.writeMembers, ih, List.map_cons]

/-- A written value starts with a byte that is no blank and closes no array; only `null` starts with
an `n`. -/
theorem exists_write_eq_cons {t : Tree} (ht : t.Integral) :
    ∃ b w, t.write = b :: w ∧ isBlankByte b = false ∧ glyph b ≠ ']' ∧
      (t ≠ .null → glyph b ≠ 'n') := by
  cases t with
  | null => exact ⟨0x6e, _, rfl, rfl, by decide, fun h => absurd rfl h⟩
  | boolean value =>
    cases value with
    | true => exact ⟨0x74, _, rfl, rfl, by decide, fun _ => by decide⟩
    | false => exact ⟨0x66, _, rfl, rfl, by decide, fun _ => by decide⟩
  | string s => exact ⟨0x22, _, rfl, rfl, by decide, fun _ => by decide⟩
  | array items => exact ⟨0x5b, _, rfl, rfl, by decide, fun _ => by decide⟩
  | object members => exact ⟨0x7b, _, rfl, rfl, by decide, fun _ => by decide⟩
  | number n =>
    cases n with
    | real x => exact ht.elim
    | integer value fits =>
      cases value with
      | negSucc n => exact ⟨0x2d, _, rfl, rfl, by decide, fun _ => by decide⟩
      | ofNat n =>
        cases hds : Nat.toDigits 10 n with
        | nil => exact absurd hds Nat.toDigits_ne_nil
        | cons c ds =>
          have hc : c.isDigit = true :=
            Nat.isDigit_of_mem_toDigits (b := 10) (n := n) (by decide) (by decide)
              (hds ▸ List.mem_cons_self)
          have hdigit := isDigitByte_toUInt8 hc
          refine ⟨c.toUInt8, asciiBytes ds, ?_, isBlankByte_of_digit hdigit, ?_, ?_⟩
          · show asciiBytes (Nat.toDigits 10 n) = _
            rw [hds]
            rfl
          · exact glyph_ne_of_digit hdigit rfl
          · exact fun _ => glyph_ne_of_digit hdigit rfl

theorem skipBlank_comma (rest : Bytes) : skipBlank (0x2c :: rest) = 0x2c :: rest := rfl

/-- A written form starts with a byte that is no blank and closes no array. -/
def StartsItem (written : Bytes) : Prop :=
  ∃ b w, written = b :: w ∧ isBlankByte b = false ∧ glyph b ≠ ']'

theorem StartsItem.length_pos {written : Bytes} (h : StartsItem written) : 0 < written.length := by
  obtain ⟨b, w, rfl, _⟩ := h
  exact Nat.succ_pos _

theorem scanItem_write {written : Bytes} (h : StartsItem written) (rest : Bytes) :
    scanItem true (written ++ rest) = .ok (true, written ++ rest) ∧
      scanItem false (0x2c :: (written ++ rest)) = .ok (true, written ++ rest) := by
  obtain ⟨b, w, hw, hblank, hclose⟩ := h
  rw [hw, List.cons_append]
  constructor
  · rw [scanItem, skipBlank_cons hblank]
    dsimp only
    rw [if_neg hclose, if_pos rfl]
  · rw [scanItem, skipBlank_comma]
    dsimp only
    rw [if_neg (by decide), if_neg (by decide), if_pos (by decide), skipBlank_cons hblank]
    dsimp only
    rw [if_neg hclose]

theorem writeText_append (s : String) (rest : Bytes) :
    writeText s ++ rest = 0x22 :: ((Bytes.ofText s).flatMap escapeByte ++ 0x22 :: rest) := by
  rw [writeText, List.cons_append, List.append_assoc]
  rfl

theorem scanKey_write (name : String) (rest : Bytes) :
    scanKey true (writeText name ++ rest) = .ok (some name, rest) ∧
      scanKey false (0x2c :: (writeText name ++ rest)) = .ok (some name, rest) := by
  have hscan := scanString_writeText name rest
  rw [writeText_append]
  constructor
  · show (scanString _).map _ = _
    rw [hscan]
    rfl
  · show (scanString _).map _ = _
    rw [hscan]
    rfl

theorem scanKey_close (fresh : Bool) (rest : Bytes) :
    scanKey fresh (0x7d :: rest) = .ok (none, 0x7d :: rest) := rfl

theorem scanColon_colon (rest : Bytes) : scanColon (0x3a :: rest) = .ok ((), rest) := rfl

theorem readItems_next {steps depth : Nat} {input rest rest' : Bytes} {fresh : Bool}
    {taken : List Value} {v : Value} (hscan : scanItem fresh input = .ok (true, rest))
    (hread : readValueSteps steps depth rest = .ok (v, rest')) :
    readItems (steps + 1) depth input fresh taken =
      readItems steps depth rest' false (v :: taken) := by
  rw [readItems, hscan]
  dsimp only
  rw [hread]

theorem readMembers_next {steps depth : Nat} {input rest rest' : Bytes} {fresh : Bool}
    {members : SortedMap String Value} {name : String} {v : Value}
    (hscan : scanKey fresh input = .ok (some name, 0x3a :: rest))
    (hread : readValueSteps steps depth rest = .ok (v, rest')) :
    readMembers (steps + 1) depth input fresh members =
      readMembers steps depth rest' false (members.insert name v) := by
  rw [readMembers, hscan]
  dsimp only
  rw [scanColon_colon]
  dsimp only
  rw [hread]

/-! ## Written forms -/

/-- A written form is read as a value that nests so many arrays and objects, in any number of steps
that its bytes allow. -/
structure ReadsAs (depth : Nat) (written : Bytes) (v : Value) : Prop where
  start : StartsItem written
  read : ∀ steps rest, written.length ≤ steps + 1 → Delimited rest →
    readValueSteps (steps + 1) depth (written ++ rest) = .ok (v, rest)

/-- A written member of an object is read as an entry. -/
def MemberReadsAs (depth : Nat) (m : String × Bytes) (e : String × Value) : Prop :=
  m.1 = e.1 ∧ ReadsAs depth m.2 e.2

theorem readsAs_string (depth : Nat) (s : String) : ReadsAs depth (writeText s) (.string s) := by
  refine ⟨⟨0x22, _, rfl, rfl, by decide⟩, ?_⟩
  intro steps rest _ _
  rw [writeText_append]
  show (scanString _).map _ = _
  rw [scanString_writeText]
  rfl

/-! ## Arrays -/

section Containers

variable {depth : Nat}

/-- The items of an array after the first are read back. -/
theorem readItems_write {ws : List Bytes} {vs : List Value}
    (h : List.Forall₂ (ReadsAs depth) ws vs) {steps : Nat} {rest : Bytes} {taken : List Value}
    (hsteps : (continued ws).length ≤ steps) :
    readItems (steps + 1) depth (continued ws ++ 0x5d :: rest) false taken =
      .ok (.array (taken.reverse ++ vs), rest) := by
  induction h generalizing steps taken with
  | nil =>
    rw [List.append_nil]
    rfl
  | @cons w v ws vs hw _ ih =>
    rw [length_continued_cons] at hsteps
    obtain ⟨steps, rfl⟩ : ∃ k, steps = k + 1 := ⟨steps - 1, by omega⟩
    have hvalue := hw.read steps (continued ws ++ 0x5d :: rest) (by omega)
      (delimited_continued (.inl rfl) _ _)
    rw [continued_cons, readItems_next (scanItem_write hw.start _).2 hvalue, ih (by omega),
      List.reverse_cons, List.append_assoc]
    rfl

/-- An array of written items is read back. -/
theorem ReadsAs.array {ws : List Bytes} {vs : List Value}
    (h : List.Forall₂ (ReadsAs depth) ws vs) :
    ReadsAs (depth + 1) (writeArray ws) (.array vs) := by
  refine ⟨⟨0x5b, _, rfl, rfl, by decide⟩, ?_⟩
  intro steps rest hsteps _
  cases h with
  | nil =>
    obtain ⟨steps, rfl⟩ := Nat.exists_eq_add_of_le' (Nat.le_of_succ_le_succ hsteps)
    rfl
  | @cons w v ws vs hw hws =>
    have hpos := hw.start.length_pos
    have hwritten : writeArray (w :: ws) = 0x5b :: (w ++ (continued ws ++ [0x5d])) := by
      rw [writeArray, commaSeparated_cons, List.append_assoc]
    rw [hwritten] at hsteps ⊢
    simp only [List.length_cons, List.length_append, List.length_nil] at hsteps
    obtain ⟨steps, rfl⟩ : ∃ k, steps = k + 2 := ⟨steps - 2, by omega⟩
    have hvalue := hw.read steps (continued ws ++ 0x5d :: rest) (by omega)
      (delimited_continued (.inl rfl) _ _)
    have hitems : readItems (steps + 1) depth (continued ws ++ 0x5d :: rest) false [v] =
        .ok (.array ([v].reverse ++ vs), rest) := readItems_write hws (by omega)
    rw [← readItems_next (scanItem_write hw.start _).1 hvalue] at hitems
    simp only [List.cons_append, List.append_assoc, List.nil_append]
    exact hitems

/-! ## Objects -/

/-- A written member of an object. -/
def writeMember (m : String × Bytes) : Bytes :=
  writeText m.1 ++ 0x3a :: m.2

theorem length_writeMember (m : String × Bytes) : m.2.length < (writeMember m).length := by
  rw [writeMember, List.length_append, List.length_cons]
  omega

/-- The members of an object after the first are read back, in whatever order they stand. -/
theorem readMembers_write {ms : List (String × Bytes)} {es : List (String × Value)}
    (h : List.Forall₂ (MemberReadsAs depth) ms es) {steps : Nat} {rest : Bytes}
    {taken : SortedMap String Value} (hsteps : (continued (ms.map writeMember)).length ≤ steps) :
    readMembers (steps + 1) depth (continued (ms.map writeMember) ++ 0x7d :: rest) false taken =
      .ok (.object (es.foldl (fun m e => m.insert e.1 e.2) taken), rest) := by
  induction h generalizing steps taken with
  | nil => rfl
  | @cons m e ms es hm _ ih =>
    obtain ⟨hname, hm⟩ := hm
    have hlength := length_writeMember m
    rw [List.map_cons, length_continued_cons] at hsteps
    obtain ⟨steps, rfl⟩ : ∃ k, steps = k + 1 := ⟨steps - 1, by omega⟩
    have hvalue := hm.read steps (continued (ms.map writeMember) ++ 0x7d :: rest) (by omega)
      (delimited_continued (.inr rfl) _ _)
    have hkey := (scanKey_write m.1 (0x3a :: (m.2 ++
      (continued (ms.map writeMember) ++ 0x7d :: rest)))).2
    rw [List.map_cons, continued_cons, writeMember, List.append_assoc, List.cons_append,
      readMembers_next hkey hvalue, ih (by omega), hname]
    rfl

/-- An object of written members is read back. -/
theorem ReadsAs.object {ms : List (String × Bytes)} {es : List (String × Value)}
    (h : List.Forall₂ (MemberReadsAs depth) ms es) :
    ReadsAs (depth + 1) (writeObject ms) (.object (.ofList es)) := by
  refine ⟨⟨0x7b, _, rfl, rfl, by decide⟩, ?_⟩
  intro steps rest hsteps _
  rw [← SortedMap.foldl_insert_eq_ofList]
  cases h with
  | nil =>
    obtain ⟨steps, rfl⟩ := Nat.exists_eq_add_of_le' (Nat.le_of_succ_le_succ hsteps)
    rfl
  | @cons m e ms es hm hms =>
    obtain ⟨hname, hm⟩ := hm
    have hpos := hm.start.length_pos
    have hlength := length_writeMember m
    have hwritten : writeObject (m :: ms) =
        0x7b :: (writeMember m ++ (continued (ms.map writeMember) ++ [0x7d])) := by
      show 0x7b :: (commaSeparated (writeMember m :: ms.map writeMember) ++ [0x7d]) = _
      rw [commaSeparated_cons, List.append_assoc]
    rw [hwritten] at hsteps ⊢
    simp only [List.length_cons, List.length_append, List.length_nil] at hsteps
    obtain ⟨steps, rfl⟩ : ∃ k, steps = k + 2 := ⟨steps - 2, by omega⟩
    have hvalue := hm.read steps (continued (ms.map writeMember) ++ 0x7d :: rest) (by omega)
      (delimited_continued (.inr rfl) _ _)
    have hmembers : readMembers (steps + 1) depth
        (continued (ms.map writeMember) ++ 0x7d :: rest) false (SortedMap.empty.insert m.1 e.2) =
          .ok (.object (es.foldl (fun m e => m.insert e.1 e.2) (SortedMap.empty.insert m.1 e.2)),
            rest) := readMembers_write hms (by omega)
    have hkey := (scanKey_write m.1 (0x3a :: (m.2 ++
      (continued (ms.map writeMember) ++ 0x7d :: rest)))).1
    rw [← readMembers_next hkey hvalue, hname] at hmembers
    rw [writeMember, hname]
    simp only [List.cons_append, List.append_assoc, List.nil_append]
    exact hmembers

/-- A map of written values is read as an object. -/
theorem ReadsAs.map {α : Type} {write : α → Bytes} {value : α → Value}
    (h : ∀ a, ReadsAs depth (write a) (value a)) (m : SortedMap String α) :
    ReadsAs (depth + 1) (writeMap m write) (.object (m.mapValues value)) := by
  have hmembers : List.Forall₂ (MemberReadsAs depth) (m.toList.map fun e => (e.1, write e.2))
      (m.toList.map fun e => (e.1, value e.2)) := by
    rw [List.forall₂_map_left_iff, List.forall₂_map_right_iff, List.forall₂_same]
    exact fun e _ => ⟨rfl, h e.2⟩
  have hread := ReadsAs.object hmembers
  have hmap : SortedMap.ofList (m.toList.map fun e => (e.1, value e.2)) = m.mapValues value :=
    SortedMap.ofList_eq_of_perm (.refl _)
  rwa [hmap] at hread

end Containers

/-! ## Values -/

theorem tree_object_ofList {es : List (String × Value)} (h : Ascending es) :
    (Value.object (.ofList es)).tree = .object (es.map fun e => (e.1, e.2.tree)) := by
  have hmap : SortedMap.ofList es = ⟨es, h⟩ := SortedMap.ofList_eq_of_perm (.refl _)
  rw [hmap]
  rfl

mutual

/-- A written value is read back. -/
theorem readsAs_write : (t : Tree) → t.Ordered → t.Integral → ∀ {depth}, t.nesting ≤ depth →
    ∃ v, v.tree = t ∧ ReadsAs depth t.write v
  | .null, _, _, _, _ => ⟨.null, rfl, ⟨0x6e, _, rfl, rfl, by decide⟩, fun _ _ _ _ => rfl⟩
  | .boolean true, _, _, _, _ =>
    ⟨.boolean true, rfl, ⟨0x74, _, rfl, rfl, by decide⟩, fun _ _ _ _ => rfl⟩
  | .boolean false, _, _, _, _ =>
    ⟨.boolean false, rfl, ⟨0x66, _, rfl, rfl, by decide⟩, fun _ _ _ _ => rfl⟩
  | .number n, _, hn, depth, _ => by
    obtain ⟨b, w, hw, hblank, hclose, _⟩ := exists_write_eq_cons hn
    refine ⟨.number n, rfl, ⟨b, w, hw, hblank, hclose⟩, ?_⟩
    exact fun steps rest _ hrest => readValueSteps_number hn steps depth hrest
  | .string s, _, _, depth, _ => ⟨.string s, rfl, readsAs_string depth s⟩
  | .array items, hordered, hintegral, depth + 1, hdepth => by
    obtain ⟨vs, hvs, hreads⟩ := readsAs_writeItems items hordered hintegral
      (Nat.le_of_succ_le_succ hdepth)
    refine ⟨.array vs, ?_, ?_⟩
    · rw [← hvs]
      rfl
    · rw [Tree.write, writeItems_eq_map]
      exact .array hreads
  | .object members, hordered, hintegral, depth + 1, hdepth => by
    obtain ⟨es, hes, hreads⟩ := readsAs_writeMembers members hordered.2 hintegral
      (Nat.le_of_succ_le_succ hdepth)
    have hascending := hordered.1
    rw [← hes, Ascending, List.pairwise_map] at hascending
    refine ⟨.object (.ofList es), ?_, ?_⟩
    · rw [tree_object_ofList hascending, hes]
    · rw [Tree.write, writeMembers_eq_map]
      exact .object hreads

/-- The written items of an array are read back. -/
theorem readsAs_writeItems : (items : List Tree) → Tree.ItemsOrdered items →
    Tree.ItemsIntegral items → ∀ {depth}, Tree.itemsNesting items ≤ depth →
    ∃ vs : List Value, vs.map (·.tree) = items ∧
      List.Forall₂ (ReadsAs depth) (items.map Tree.write) vs
  | [], _, _, _, _ => ⟨[], rfl, .nil⟩
  | item :: items, hordered, hintegral, depth, hdepth => by
    rw [Tree.itemsNesting, Nat.max_le] at hdepth
    obtain ⟨v, hv, hread⟩ := readsAs_write item hordered.1 hintegral.1 hdepth.1
    obtain ⟨vs, hvs, hreads⟩ := readsAs_writeItems items hordered.2 hintegral.2 hdepth.2
    exact ⟨v :: vs, by rw [List.map_cons, hv, hvs], .cons hread hreads⟩

/-- The written members of an object are read back. -/
theorem readsAs_writeMembers : (members : List (String × Tree)) → Tree.MembersOrdered members →
    Tree.MembersIntegral members → ∀ {depth}, Tree.membersNesting members ≤ depth →
    ∃ es : List (String × Value), es.map (fun e => (e.1, e.2.tree)) = members ∧
      List.Forall₂ (MemberReadsAs depth) (members.map fun m => (m.1, m.2.write)) es
  | [], _, _, _, _ => ⟨[], rfl, .nil⟩
  | (name, value) :: members, hordered, hintegral, depth, hdepth => by
    rw [Tree.membersNesting, Nat.max_le] at hdepth
    obtain ⟨v, hv, hread⟩ := readsAs_write value hordered.1 hintegral.1 hdepth.1
    obtain ⟨es, hes, hreads⟩ := readsAs_writeMembers members hordered.2 hintegral.2 hdepth.2
    exact ⟨(name, v) :: es, by rw [List.map_cons, hv, hes], .cons ⟨rfl, hread⟩ hreads⟩

end

theorem Value.ext {v w : Value} (h : v.tree = w.tree) : v = w := by
  cases v
  cases w
  cases h
  rfl

/-- What is read in any number of steps is read as a value. -/
theorem ReadsAs.readValue {depth : Nat} {written rest : Bytes} {v : Value}
    (h : ReadsAs depth written v) (hrest : Delimited rest) :
    readValue depth (written ++ rest) = .ok (v, rest) := by
  refine h.read (2 * (written ++ rest).length + 1) rest ?_ hrest
  rw [List.length_append]
  omega

/-- A written value without numbers of double precision is read back. -/
theorem readValue_write {v : Value} (hintegral : v.tree.Integral) {depth : Nat}
    (hdepth : v.tree.nesting ≤ depth) {rest : Bytes} (hrest : Delimited rest) :
    readValue depth (v.write ++ rest) = .ok (v, rest) := by
  obtain ⟨w, htree, hw⟩ := readsAs_write v.tree v.ordered hintegral hdepth
  obtain rfl := Value.ext htree
  exact hw.readValue hrest

/-! ## What can be read -/

theorem itemsNesting_le_iff {items : List Tree} {n : Nat} :
    Tree.itemsNesting items ≤ n ↔ ∀ item ∈ items, item.nesting ≤ n := by
  induction items with
  | nil => simp [Tree.itemsNesting]
  | cons item items ih => rw [Tree.itemsNesting, Nat.max_le, ih, List.forall_mem_cons]

theorem membersNesting_le_iff {members : List (String × Tree)} {n : Nat} :
    Tree.membersNesting members ≤ n ↔ ∀ m ∈ members, m.2.nesting ≤ n := by
  induction members with
  | nil => simp [Tree.membersNesting]
  | cons m members ih => rw [Tree.membersNesting, Nat.max_le, ih, List.forall_mem_cons]

theorem map_eq_ok {ε α β : Type} {x : Except ε α} {f : α → β} {b : β} (h : x.map f = .ok b) :
    ∃ a, x = .ok a ∧ f a = b := by
  cases x with
  | error e => cases h
  | ok a => exact ⟨a, rfl, Except.ok.inj h⟩

theorem bind_eq_ok {ε α β : Type} {x : Except ε α} {f : α → Except ε β} {b : β}
    (h : x >>= f = .ok b) : ∃ a, x = .ok a ∧ f a = .ok b := by
  cases x with
  | error e => cases h
  | ok a => exact ⟨a, rfl, h⟩

theorem skipBlank_skipBlank (input : Bytes) : skipBlank (skipBlank input) = skipBlank input := by
  induction input with
  | nil => rfl
  | cons b rest ih =>
    rw [skipBlank]
    split
    · exact ih
    · rename_i hblank
      exact skipBlank_cons (Bool.not_eq_true _ ▸ hblank) rest

/-- The values that are read in so many steps nest no more than they may, and only what starts with
an `n` is `null`. -/
def ValuesSound (steps : Nat) : Prop :=
  ∀ ⦃depth input v rest⦄, readValueSteps steps depth input = .ok (v, rest) →
    v.tree.nesting ≤ depth ∧ (v.tree = .null → ∃ b w, skipBlank input = b :: w ∧ glyph b = 'n')

/-- The items that are read in so many steps after sound ones nest no more than they may. -/
def ItemsSound (steps : Nat) : Prop :=
  ∀ ⦃depth input fresh taken v rest⦄, readItems steps depth input fresh taken = .ok (v, rest) →
    (∀ item ∈ taken, item.tree.nesting ≤ depth) →
    ∃ items, v.tree = .array items ∧ Tree.itemsNesting items ≤ depth

/-- The members that are read in so many steps after sound ones nest no more than they may. -/
def MembersSound (steps : Nat) : Prop :=
  ∀ ⦃depth input fresh taken v rest⦄, readMembers steps depth input fresh taken = .ok (v, rest) →
    (∀ e ∈ taken.toList, e.2.tree.nesting ≤ depth) →
    ∃ members, v.tree = .object members ∧ Tree.membersNesting members ≤ depth

/-- A word, a text or a number nests nothing. -/
theorem of_map_flat {α : Type} {scan : Scan α} {f : α × Bytes → Value × Bytes} {v : Value}
    {rest : Bytes} (h : scan.map f = .ok (v, rest)) (hflat : ∀ p, (f p).1.tree.nesting = 0)
    (hsome : ∀ p, (f p).1.tree ≠ .null) (depth : Nat) (P : Prop) :
    v.tree.nesting ≤ depth ∧ (v.tree = .null → P) := by
  obtain ⟨p, _, hp⟩ := map_eq_ok h
  have hv : v = (f p).1 := by rw [hp]
  rw [hv, hflat]
  exact ⟨Nat.zero_le _, fun hnull => absurd hnull (hsome p)⟩

theorem ValuesSound.succ {steps : Nat} (hitems : ItemsSound steps) (hmembers : MembersSound steps) :
    ValuesSound (steps + 1) := by
  intro depth input v rest h
  rw [readValueSteps] at h
  split at h
  · cases h
  · rename_i b w hblank
    split at h
    · rename_i hn
      obtain ⟨_, _, hv⟩ := map_eq_ok h
      cases hv
      exact ⟨Nat.zero_le _, fun _ => ⟨b, w, hblank, hn⟩⟩
    · exact of_map_flat h (fun _ => rfl) (by rintro _ ⟨⟩) _ _
    · exact of_map_flat h (fun _ => rfl) (by rintro _ ⟨⟩) _ _
    · exact of_map_flat h (fun _ => rfl) (by rintro _ ⟨⟩) _ _
    · exact of_map_flat h (fun _ => rfl) (by rintro _ ⟨⟩) _ _
    · split at h
      · cases h
      · obtain ⟨items, hv, hle⟩ := hitems h (by rintro item ⟨⟩)
        rw [hv]
        exact ⟨Nat.succ_le_succ hle, by rintro ⟨⟩⟩
    · split at h
      · cases h
      · obtain ⟨members, hv, hle⟩ := hmembers h (by rintro e ⟨⟩)
        rw [hv]
        exact ⟨Nat.succ_le_succ hle, by rintro ⟨⟩⟩
    · split at h
      · exact of_map_flat h (fun _ => rfl) (by rintro _ ⟨⟩) _ _
      · cases h

theorem ItemsSound.succ {steps : Nat} (hvalues : ValuesSound steps) (hitems : ItemsSound steps) :
    ItemsSound (steps + 1) := by
  intro depth input fresh taken v rest h htaken
  rw [readItems] at h
  split at h
  · cases h
  · obtain ⟨_, _, hv⟩ := map_eq_ok h
    cases hv
    refine ⟨_, rfl, itemsNesting_le_iff.2 ?_⟩
    intro item hitem
    obtain ⟨v, hv, rfl⟩ := List.mem_map.1 hitem
    exact htaken v (List.mem_reverse.1 hv)
  · split at h
    · cases h
    · rename_i hread
      refine hitems h ?_
      intro item hitem
      rcases List.mem_cons.1 hitem with rfl | hitem
      · exact (hvalues hread).1
      · exact htaken item hitem

theorem MembersSound.succ {steps : Nat} (hvalues : ValuesSound steps)
    (hmembers : MembersSound steps) : MembersSound (steps + 1) := by
  intro depth input fresh taken v rest h htaken
  rw [readMembers] at h
  split at h
  · cases h
  · obtain ⟨_, _, hv⟩ := map_eq_ok h
    cases hv
    refine ⟨_, rfl, membersNesting_le_iff.2 ?_⟩
    intro m hm
    obtain ⟨e, he, rfl⟩ := List.mem_map.1 hm
    exact htaken e he
  · split at h
    · cases h
    · split at h
      · cases h
      · rename_i hread
        refine hmembers h ?_
        intro e he
        rcases mem_insertEntry he with rfl | he
        · exact (hvalues hread).1
        · exact htaken e he

theorem sound_readSteps (steps : Nat) :
    ValuesSound steps ∧ ItemsSound steps ∧ MembersSound steps := by
  induction steps with
  | zero =>
    refine ⟨?_, ?_, ?_⟩
    · rintro depth input v rest ⟨⟩
    · rintro depth input fresh taken v rest ⟨⟩
    · rintro depth input fresh taken v rest ⟨⟩
  | succ steps ih =>
    obtain ⟨hvalues, hitems, hmembers⟩ := ih
    exact ⟨.succ hitems hmembers, .succ hvalues hitems, .succ hvalues hmembers⟩

/-- What is read nests no more than it may. -/
theorem nesting_readValue {depth : Nat} {input rest : Bytes} {v : Value}
    (h : readValue depth input = .ok (v, rest)) : v.tree.nesting ≤ depth :=
  ((sound_readSteps _).1 h).1

/-- Only what starts with an `n` is `null`. -/
theorem exists_of_null {depth : Nat} {input rest : Bytes} {v : Value}
    (h : readValue depth input = .ok (v, rest)) (hv : v.tree = .null) :
    ∃ b w, skipBlank input = b :: w ∧ glyph b = 'n' :=
  ((sound_readSteps _).1 h).2 hv

end EventIngress.Json
