import EventIngress.Proofs.Json.Scalars
import EventIngress.Text.Cut
import EventIngress.Url.Basic

/-!
# Paths behind an origin

An origin is a scheme, `://` and an authority. A path that is put behind it does not change how the
origin is read. Of its segments, those with plain characters only are kept letter by letter, and the
dot segments are resolved away.

Results:

* `Url.IsOrigin`, `Url.IsPlain`: origins, and the characters that a path keeps as they are.
* `Url.fields_slashed`: the segments of a path are found again.
* `Url.resolve_of_no_dots`: segments that are no dots are kept.
* `Url.target_of_origin`: what a request for a path behind an origin asks its host for.
-/

namespace EventIngress

/-- A character that a path keeps as it is: it is visible, separates nothing, and is not encoded. -/
structure Url.IsPlain (c : Char) : Prop where
  visible : 0x20 < c.toNat ∧ c.toNat < 0x7f
  unreserved : c ∉ pathSet
  slash : c ≠ '/' ∧ c ≠ '\\'

namespace Url

instance : DecidablePred IsPlain := fun c =>
  decidable_of_iff ((0x20 < c.toNat ∧ c.toNat < 0x7f) ∧ c ∉ pathSet ∧ c ≠ '/' ∧ c ≠ '\\')
    ⟨fun h => ⟨h.1, h.2.1, h.2.2⟩, fun h => ⟨h.visible, h.unreserved, h.slash⟩⟩

theorem bounds_of_alphanum {c : Char} (h : c.isAlphanum = true) :
    0x30 ≤ c.toNat ∧ c.toNat ≤ 0x7a := by
  have hval : c.val.toNat = c.toNat := rfl
  simp only [Char.isAlphanum, Char.isAlpha, Char.isUpper, Char.isLower, Char.isDigit,
    Bool.or_eq_true, Bool.and_eq_true, decide_eq_true_eq, ge_iff_le, UInt32.le_iff_toNat_le,
    hval] at h
  rcases h with (⟨hlow, hhigh⟩ | ⟨hlow, hhigh⟩) | ⟨hlow, hhigh⟩
  · exact ⟨Nat.le_trans (by decide) hlow, Nat.le_trans hhigh (by decide)⟩
  · exact ⟨Nat.le_trans (by decide) hlow, Nat.le_trans hhigh (by decide)⟩
  · exact ⟨Nat.le_trans (by decide) hlow, Nat.le_trans hhigh (by decide)⟩

/-- Letters and digits are kept. -/
theorem isPlain_of_alphanum {c : Char} (h : c.isAlphanum = true) : IsPlain c := by
  obtain ⟨hlow, hhigh⟩ := bounds_of_alphanum h
  refine ⟨⟨by omega, by omega⟩, ?_, ?_, ?_⟩
  · intro hc
    have hall : pathSet.all (fun d => !d.isAlphanum) = true := rfl
    simpa [h] using List.all_eq_true.1 hall c hc
  · rintro rfl
    cases h
  · rintro rfl
    cases h

end Url

namespace Percent

theorem encodeByte_plain {c : Char} (h : Url.IsPlain c) :
    encodeByte Url.pathSet c.toUInt8 = [c] := by
  obtain ⟨hlow, hhigh⟩ := h.visible
  have hchar : Char.ofUInt8 c.toUInt8 = c := Json.glyph_toUInt8 (by omega)
  have hvalue : c.toUInt8.toNat = c.toNat := by
    show c.val.toUInt8.toNat = _
    rw [UInt32.toNat_toUInt8]
    exact Nat.mod_eq_of_lt (by show c.toNat < 256; omega)
  rw [encodeByte, hchar, if_neg]
  rw [UInt8.lt_iff_toNat_lt, UInt8.lt_iff_toNat_lt, hvalue, List.contains_iff_mem]
  rintro (hcontrol | hdelete | hset)
  · exact absurd hcontrol (by show ¬ c.toNat < 0x20; omega)
  · exact absurd hdelete (by show ¬ 0x7e < c.toNat; omega)
  · exact h.unreserved hset

theorem encode_plain {part : List Char} (h : ∀ c ∈ part, Url.IsPlain c) :
    encode Url.pathSet part = part := by
  rw [encode, Bytes.ofText_ofList fun c hc => by have := (h c hc).visible; omega, List.flatMap_map]
  induction part with
  | nil => rfl
  | cons c part ih =>
    rw [List.forall_mem_cons] at h
    rw [List.flatMap_cons, encodeByte_plain h.1, ih h.2]
    rfl

end Percent

namespace Url

/-! ## Segments -/

/-- The path with some segments. -/
def slashed (segments : List (List Char)) : List Char :=
  segments.flatMap ('/' :: ·)

theorem slashed_cons (segment : List Char) (segments : List (List Char)) :
    slashed (segment :: segments) = '/' :: (segment ++ slashed segments) :=
  List.flatMap_cons

/-- The segments of a path are found again. -/
theorem fields_slashed {segment : List Char} {segments : List (List Char)}
    (h : ∀ s ∈ segment :: segments, '/' ∉ s) :
    Text.fields '/' (segment ++ slashed segments) = segment :: segments := by
  induction segments generalizing segment with
  | nil => rw [slashed, List.flatMap_nil, List.append_nil, Text.fields_of_not_mem (h _ (by simp))]
  | cons next segments ih =>
    rw [List.forall_mem_cons] at h
    rw [slashed_cons, Text.fields_append_sep h.1, ih h.2]

theorem slashed_injective {ss ss' : List (List Char)} (h : ∀ s ∈ ss, '/' ∉ s)
    (h' : ∀ s ∈ ss', '/' ∉ s) (heq : slashed ss = slashed ss') : ss = ss' := by
  cases ss with
  | nil =>
    cases ss' with
    | nil => rfl
    | cons s' ss' => cases heq
  | cons s ss =>
    cases ss' with
    | nil => cases heq
    | cons s' ss' =>
      rw [slashed_cons, slashed_cons] at heq
      rw [← fields_slashed h, (List.cons.inj heq).2, fields_slashed h']

/-- Segments that are no dots are kept. -/
theorem resolve_of_no_dots {segments : List (List Char)}
    (h : ∀ s ∈ segments, isTwoDots s = false ∧ isDot s = false) (done : List (List Char)) :
    resolve done segments = done.reverse ++ segments := by
  induction segments generalizing done with
  | nil => rw [resolve, List.append_nil]
  | cons s segments ih =>
    rw [List.forall_mem_cons] at h
    rw [resolve, h.1.1, if_neg Bool.false_ne_true, h.1.2, if_neg Bool.false_ne_true, ih h.2,
      List.reverse_cons, List.append_assoc]
    rfl

theorem slash_not_mem_of_plain {s : List Char} (h : ∀ c ∈ s, IsPlain c) : '/' ∉ s :=
  fun hslash => (h '/' hslash).slash.1 rfl

theorem mem_slashed {segments : List (List Char)} (h : ∀ s ∈ segments, ∀ c ∈ s, IsPlain c)
    {c : Char} (hc : c ∈ slashed segments) : c = '/' ∨ IsPlain c := by
  obtain ⟨s, hs, hc⟩ := List.mem_flatMap.1 hc
  exact (List.mem_cons.1 hc).imp id (h s hs c)

theorem pathAndQuery_slashed {segments : List (List Char)}
    (h : ∀ s ∈ segments, ∀ c ∈ s, IsPlain c) :
    pathAndQuery (slashed segments) = (slashed segments, none) := by
  have hne {x : Char} (hx : x ∈ pathSet) (hslash : x ≠ '/') : ∀ c ∈ slashed segments, c ≠ x := by
    rintro c hc rfl
    exact (mem_slashed h hc).elim hslash fun hplain => hplain.unreserved hx
  have hhash : (slashed segments).takeWhile (· ≠ '#') = slashed segments :=
    List.takeWhile_eq_self_iff.2 fun c hc => decide_eq_true (hne (by decide) (by decide) c hc)
  have hquery : (slashed segments).takeWhile (· ≠ '?') = slashed segments :=
    List.takeWhile_eq_self_iff.2 fun c hc => decide_eq_true (hne (by decide) (by decide) c hc)
  rw [pathAndQuery, hhash, hquery, if_neg]
  rw [List.contains_iff_mem]
  exact fun hmem => hne (x := '?') (by decide) (by decide) '?' hmem rfl

/-- The path of plain segments. -/
theorem hostedPath_slashed (web : Bool) {segment : List Char} {segments : List (List Char)}
    (h : ∀ s ∈ segment :: segments, ∀ c ∈ s, IsPlain c) :
    hostedPath web (slashed (segment :: segments)) =
      String.ofList (slashed (resolve [] (segment :: segments))) := by
  have hback : ∀ c ∈ slashed (segment :: segments), c ≠ '\\' := by
    rintro c hc rfl
    exact (mem_slashed h hc).elim (by decide) fun hplain => hplain.slash.2 rfl
  have hmap : (if web then (slashed (segment :: segments)).map fun c => if c = '\\' then '/' else c
      else slashed (segment :: segments)) = slashed (segment :: segments) := by
    split
    · exact (List.map_congr_left fun c hc => if_neg (hback c hc)).trans (List.map_id' _)
    · rfl
  have hencode : (segment :: segments).map (Percent.encode pathSet) = segment :: segments :=
    (List.map_congr_left fun s hs => Percent.encode_plain (h s hs)).trans (List.map_id' _)
  rw [hostedPath, hmap, slashed_cons]
  dsimp only
  rw [if_neg (by simp), List.head?_cons, if_pos rfl, List.drop_one, List.tail_cons,
    fields_slashed fun s hs => slash_not_mem_of_plain (h s hs), hencode]
  rfl

/-! ## Origins -/

/-- A scheme and an authority make an origin. The scheme is not that of files: their URLs are read
without a host. -/
structure IsOrigin (scheme authority : List Char) : Prop where
  letter : ∃ c cs, scheme = c :: cs ∧ isLetter c = true
  schemeChars : ∀ c ∈ scheme, isSchemeChar c = true
  notFile : scheme.map Char.toLower ≠ "file".toList
  nonempty : authority ≠ []
  chars : ∀ c ∈ authority, 0x20 < c.toNat ∧ endsAuthority true c = false

/-- The text of an origin. -/
def originText (scheme authority : List Char) : List Char :=
  scheme ++ ':' :: '/' :: '/' :: authority

theorem relevant_of_visible {s : String} (h : ∀ c ∈ s.toList, 0x20 < c.toNat) :
    relevant s = s.toList := by
  have hblank : ∀ c ∈ s.toList, isOuterBlank c = false := by
    intro c hc
    have := h c hc
    rw [isOuterBlank, decide_eq_false_iff_not]
    omega
  have hdrop {cs : List Char} (hcs : ∀ c ∈ cs, c ∈ s.toList) : cs.dropWhile isOuterBlank = cs := by
    rw [List.dropWhile_eq_self_iff]
    intro hlength
    rw [hblank _ (hcs _ (List.getElem_mem _))]
    exact Bool.false_ne_true
  rw [relevant, hdrop fun c hc => hc, hdrop fun c hc => List.mem_reverse.1 hc,
    List.reverse_reverse, List.filter_eq_self]
  intro c hc
  rw [decide_eq_true_eq]
  refine ⟨?_, ?_, ?_⟩ <;> rintro rfl <;> exact absurd (h _ hc) (by decide)

theorem IsOrigin.scheme?_eq {scheme authority : List Char} (h : IsOrigin scheme authority)
    (rest : List Char) :
    scheme? (scheme ++ ':' :: rest) = some (String.ofList (scheme.map Char.toLower), rest) := by
  obtain ⟨c, cs, hscheme, hc⟩ := h.letter
  have hcolon : isSchemeChar ':' = false := by decide
  have htake : (scheme ++ ':' :: rest).takeWhile isSchemeChar = scheme := by
    rw [List.takeWhile_append_of_pos h.schemeChars, List.takeWhile_cons_of_neg (by simp [hcolon]),
      List.append_nil]
  have hdrop : (scheme ++ ':' :: rest).dropWhile isSchemeChar = ':' :: rest := by
    rw [List.dropWhile_append_of_pos h.schemeChars, List.dropWhile_cons_of_neg (by simp [hcolon])]
  have hcons : scheme ++ ':' :: rest = c :: (cs ++ ':' :: rest) := by
    rw [hscheme]
    rfl
  rw [hcons] at htake hdrop ⊢
  rw [Url.scheme?, if_pos hc, hdrop, htake]
  rfl

theorem visible_of_isSchemeChar {c : Char} (h : isSchemeChar c = true) : 0x20 < c.toNat := by
  simp only [isSchemeChar, Bool.or_eq_true, beq_iff_eq] at h
  rcases h with ((h | rfl) | rfl) | rfl
  · exact Nat.lt_of_lt_of_le (by decide) (bounds_of_alphanum h).1
  all_goals decide

section Origins

variable {scheme authority tail : List Char}

/-- The scheme of an origin, in lowercase letters. -/
def schemeName (scheme : List Char) : String :=
  String.ofList (scheme.map Char.toLower)

/-- Whatever follows an origin, it is read as the same scheme with the same authority. -/
theorem IsOrigin.parse_eq (h : IsOrigin scheme authority) (hvisible : ∀ c ∈ tail, 0x20 < c.toNat) :
    parse (String.ofList (originText scheme authority ++ tail)) =
      hosted (schemeName scheme) (webSchemes.contains (schemeName scheme)) (authority ++ tail) := by
  have hrelevant : relevant (String.ofList (originText scheme authority ++ tail)) =
      scheme ++ ':' :: ('/' :: '/' :: (authority ++ tail)) := by
    rw [relevant_of_visible, String.toList_ofList, originText, List.append_assoc]
    · rfl
    · intro c hc
      rw [String.toList_ofList, List.mem_append, originText, List.mem_append] at hc
      rcases hc with (hc | hc) | hc
      · exact visible_of_isSchemeChar (h.schemeChars c hc)
      · simp only [List.mem_cons] at hc
        rcases hc with rfl | rfl | rfl | hc
        · decide
        · decide
        · decide
        · exact (h.chars c hc).1
      · exact hvisible c hc
  obtain ⟨a, as, rfl⟩ := List.exists_cons_of_ne_nil h.nonempty
  have ha : ¬ (a == '/' || a == '\\') = true := by
    have hends := (h.chars a List.mem_cons_self).2
    simp only [endsAuthority, Bool.or_eq_false_iff, Bool.true_and] at hends
    simp [hends.1.1.1, hends.2]
  have hfile : schemeName scheme ≠ "file" := by
    rw [schemeName, Ne, ← String.toList_inj, String.toList_ofList]
    exact h.notFile
  rw [parse, hrelevant, h.scheme?_eq, ← schemeName]
  dsimp only
  cases webSchemes.contains (schemeName scheme) with
  | true =>
    rw [if_pos rfl, List.dropWhile_cons_of_pos (by decide), List.dropWhile_cons_of_pos (by decide),
      List.cons_append, List.dropWhile_cons_of_neg (p := fun c => c == '/' || c == '\\') ha]
  | false =>
    rw [if_neg Bool.false_ne_true]
    exact if_neg hfile

theorem IsOrigin.getLast?_originText (h : IsOrigin scheme authority) :
    (originText scheme authority).getLast? ≠ some '/' := by
  have hsplit : originText scheme authority = (scheme ++ [':', '/', '/']) ++ authority := by
    simp [originText]
  rw [hsplit, List.getLast?_append_of_ne_nil _ h.nonempty]
  intro hslash
  exact absurd (h.chars _ (List.mem_of_getLast? hslash)).2 (by decide)

theorem endsAuthority_of_true {web : Bool} {c : Char} (h : endsAuthority true c = false) :
    endsAuthority web c = false := by
  simp only [endsAuthority, Bool.or_eq_false_iff, Bool.true_and] at h ⊢
  exact ⟨h.1, by rw [h.2, Bool.and_false]⟩

/-- The authority of an origin ends where a path starts. -/
theorem IsOrigin.hosted_eq (h : IsOrigin scheme authority) (htail : ∀ c ∈ tail.head?, c = '/')
    (name : String) (web : Bool) :
    hosted name web (authority ++ tail) =
      (authority? web authority).map fun (host, port) =>
        let (path, query) := pathAndQuery tail
        ⟨name, host.map String.ofList, port, hostedPath web path,
          query.map fun q => String.ofList (Percent.encode (querySet web) q)⟩ := by
  have hall : ∀ c ∈ authority, (!endsAuthority web c) = true := by
    intro c hc
    rw [endsAuthority_of_true (h.chars c hc).2]
    rfl
  have hends : tail.takeWhile (fun c => !endsAuthority web c) = [] ∧
      tail.dropWhile (fun c => !endsAuthority web c) = tail := by
    cases tail with
    | nil => exact ⟨rfl, rfl⟩
    | cons c tail =>
      obtain rfl := htail c rfl
      exact ⟨rfl, rfl⟩
  rw [hosted, List.takeWhile_append_of_pos hall, List.dropWhile_append_of_pos hall, hends.1,
    hends.2, List.append_nil]
  cases authority? web authority <;> rfl

/-- If an origin with slashes behind it is a URL, so is the origin with a path of plain segments
behind it, and the path without its dot segments is what a request asks the host for. -/
theorem IsOrigin.target_of_parse (h : IsOrigin scheme authority) {n : Nat} {url : Url}
    (hurl : parse (String.ofList (originText scheme authority ++ List.replicate n '/')) = .ok url)
    {segments : List (List Char)} (hne : segments ≠ [])
    (hplain : ∀ s ∈ segments, ∀ c ∈ s, IsPlain c) :
    ∃ u, parse (String.ofList (originText scheme authority ++ slashed segments)) = .ok u ∧
      u.target = String.ofList (slashed (resolve [] segments)) := by
  obtain ⟨segment, segments, rfl⟩ := List.exists_cons_of_ne_nil hne
  have hslash (c : Char) (hc : c ∈ List.replicate n '/') : c = '/' := List.eq_of_mem_replicate hc
  rw [h.parse_eq fun c hc => hslash c hc ▸ by decide, h.hosted_eq fun c hc =>
    hslash c (List.mem_of_mem_head? hc)] at hurl
  rw [h.parse_eq, h.hosted_eq, pathAndQuery_slashed hplain]
  · cases hauthority : authority? (webSchemes.contains (schemeName scheme)) authority with
    | error fault =>
      rw [hauthority] at hurl
      cases hurl
    | ok parts =>
      refine ⟨_, rfl, ?_⟩
      exact hostedPath_slashed _ hplain
  · rintro c ⟨⟩
    rfl
  · intro c hc
    rcases mem_slashed hplain hc with rfl | hc
    · decide
    · exact hc.visible.1

end Origins

end Url

end EventIngress
