import EventIngress.Broker

/-!
# The text form of brokers

A broker is written as its namespace, a slash and its name. Any two texts may be a namespace and a
name, so different brokers may be written alike: `a/b/c` stands for a namespace `a` as well as for a
namespace `a/b`. Reading takes none of these. It accepts a text with one slash and something on each
side of it, and every broker that is written so is read back.

Results:

* `BrokerIdentity.parse_eq_ok_iff`: reading yields a broker exactly from its text form.
* `BrokerIdentity.isAddress_text_iff`: whose text form is accepted.
* `BrokerIdentity.addresses_name_brokers`: texts that are accepted and brokers that are read stand
  for each other, and all other brokers are written apart from them.
-/

namespace EventIngress.BrokerIdentity

/-- Both parts of a broker are there, and there are no slashes in them. -/
structure Addressable (b : BrokerIdentity) : Prop where
  ns_ne : b.ns ≠ ""
  name_ne : b.name ≠ ""
  ns_slash : '/' ∉ b.ns.toList
  name_slash : '/' ∉ b.name.toList

/-- A text has exactly one slash, and something stands on each side of it. -/
structure IsAddress (s : String) : Prop where
  one_slash : s.toList.count '/' = 1
  sides : ∃ before after, s = before ++ "/" ++ after ∧ before ≠ "" ∧ after ≠ ""

/-! ## Slashes in a text form -/

theorem toList_text (b : BrokerIdentity) :
    b.text.toList = b.ns.toList ++ '/' :: b.name.toList := by
  simp [text]

theorem count_slash_text (b : BrokerIdentity) :
    b.text.toList.count '/' = b.ns.toList.count '/' + b.name.toList.count '/' + 1 := by
  rw [toList_text, List.count_append, List.count_cons_self]
  omega

/-- The namespace ends at the first slash, unless it has one itself. -/
theorem cut?_text {b : BrokerIdentity} (h : '/' ∉ b.ns.toList) :
    Text.cut? '/' b.text.toList = some (b.ns.toList, b.name.toList) :=
  Text.cut?_eq_some_iff.2 ⟨toList_text b, h⟩

/-- A text form with one slash has it between the parts. -/
theorem no_slash_of_count {b : BrokerIdentity} (h : b.text.toList.count '/' = 1) :
    '/' ∉ b.ns.toList ∧ '/' ∉ b.name.toList := by
  rw [count_slash_text] at h
  constructor
  · apply List.count_eq_zero.1
    omega
  · apply List.count_eq_zero.1
    omega

/-! ## Reading -/

/-- Reading yields a broker exactly from its text form, if it is addressable. -/
theorem parse_eq_ok_iff {s : String} {b : BrokerIdentity} :
    parse s = .ok b ↔ s = b.text ∧ b.Addressable := by
  constructor
  · intro h
    unfold parse at h
    split at h
    · rename_i ns name hcut
      split at h
      · cases h
      · rename_i hparts
        cases h
        obtain ⟨hs, hslash⟩ := Text.cut?_eq_some_iff.1 hcut
        simp only [Bool.or_eq_true, List.isEmpty_iff, List.contains_iff_mem, not_or] at hparts
        obtain ⟨⟨hns, hname⟩, hname_slash⟩ := hparts
        constructor
        · apply String.toList_inj.1
          simpa [toList_text] using hs
        · constructor <;> simpa
    · cases h
  · intro ⟨hs, hb⟩
    rw [hs, parse, cut?_text hb.ns_slash]
    simp [hb.ns_ne, hb.name_ne, hb.name_slash]

/-- What is not accepted is reported as it stands. -/
theorem parse_eq_error {s : String} (h : ∀ b, parse s ≠ .ok b) :
    parse s = .error (.malformed s) := by
  unfold parse at h ⊢
  split
  · split
    · rfl
    · rename_i hcut hparts
      rw [hcut] at h
      simp only [if_neg hparts] at h
      exact absurd rfl (h _)
  · rfl

/-! ## Addresses -/

/-- The text form of a broker has one slash and something on each side of it exactly if the broker
is addressable. -/
theorem isAddress_text_iff {b : BrokerIdentity} : IsAddress b.text ↔ b.Addressable := by
  constructor
  · intro ⟨hcount, before, after, htext, hbefore, hafter⟩
    obtain ⟨hns, hname⟩ := no_slash_of_count hcount
    -- With one slash there is one way to cut the text in two.
    have hslash : '/' ∉ before.toList := by
      apply (no_slash_of_count (b := ⟨before, after⟩) _).1
      rw [text, ← htext]
      exact hcount
    have hcut := cut?_text (b := ⟨before, after⟩) hslash
    have hparts : some (b.ns.toList, b.name.toList) = some (before.toList, after.toList) := by
      rw [← cut?_text hns, ← hcut, htext]
      rfl
    simp only [Option.some.injEq, Prod.mk.injEq, String.toList_inj] at hparts
    exact ⟨hparts.1 ▸ hbefore, hparts.2 ▸ hafter, hns, hname⟩
  · intro h
    constructor
    · rw [count_slash_text, List.count_eq_zero.2 h.ns_slash, List.count_eq_zero.2 h.name_slash]
    · exact ⟨b.ns, b.name, rfl, h.ns_ne, h.name_ne⟩

theorem exists_parse_iff {s : String} : (∃ b, parse s = .ok b) ↔ IsAddress s := by
  constructor
  · intro ⟨b, h⟩
    obtain ⟨hs, hb⟩ := parse_eq_ok_iff.1 h
    rw [hs]
    exact isAddress_text_iff.2 hb
  · intro h
    obtain ⟨before, after, hs, -, -⟩ := h.sides
    have htext : s = (BrokerIdentity.mk before after).text := hs
    rw [htext, isAddress_text_iff] at h
    exact ⟨⟨before, after⟩, parse_eq_ok_iff.2 ⟨htext, h⟩⟩

theorem parse_of_not_isAddress {s : String} (h : ¬ IsAddress s) :
    parse s = .error (.malformed s) := by
  apply parse_eq_error
  intro b hb
  exact h (exists_parse_iff.1 ⟨b, hb⟩)

/-! ## Which brokers are written alike -/

theorem text_of_parse {s : String} {b : BrokerIdentity} (h : parse s = .ok b) : b.text = s :=
  (parse_eq_ok_iff.1 h).1.symm

/-- Brokers that are read are the same exactly if their texts are. -/
theorem eq_iff_of_parse {s s' : String} {b b' : BrokerIdentity} (h : parse s = .ok b)
    (h' : parse s' = .ok b') : b = b' ↔ s = s' := by
  constructor
  · intro hb
    rw [← text_of_parse h, ← text_of_parse h', hb]
  · intro hs
    rw [hs, h'] at h
    exact (Except.ok.inj h).symm

theorem not_addressable {b : BrokerIdentity}
    (h : b.ns = "" ∨ b.name = "" ∨ '/' ∈ b.ns.toList ∨ '/' ∈ b.name.toList) :
    ¬ b.Addressable := by
  intro hb
  rcases h with hns | hname | hns | hname
  · exact hb.ns_ne hns
  · exact hb.name_ne hname
  · exact hb.ns_slash hns
  · exact hb.name_slash hname

/-- A broker that is not addressable is written like no broker that is read. -/
theorem text_ne_of_parse {s : String} {b b' : BrokerIdentity} (hb : ¬ b.Addressable)
    (h : parse s = .ok b') : b'.text ≠ b.text := by
  intro hsame
  have hb' := (parse_eq_ok_iff.1 h).2
  rw [← isAddress_text_iff, hsame, isAddress_text_iff] at hb'
  exact hb hb'

/-- Reading accepts exactly the texts with one slash and something on each side of it, and reports
every other text as it stands. The broker that is read has the text as its text form, and every
addressable broker is read from its text form. So brokers that are read are the same exactly if
their texts are. The text form of a broker that is not addressable is not accepted, and no broker
that is read has the same one. -/
theorem addresses_name_brokers :
    (∀ s, ((∃ b, parse s = .ok b) ↔ IsAddress s) ∧
      (¬ IsAddress s → parse s = .error (.malformed s)) ∧ ∀ b, parse s = .ok b → b.text = s) ∧
    (∀ b : BrokerIdentity, b.Addressable → parse b.text = .ok b) ∧
    (∀ s s' b b', parse s = .ok b → parse s' = .ok b' →
      (b = b' ↔ s = s') ∧ (b = b' ↔ b.text = b'.text)) ∧
    ∀ b : BrokerIdentity, (b.ns = "" ∨ b.name = "" ∨ '/' ∈ b.ns.toList ∨ '/' ∈ b.name.toList) →
      parse b.text = .error (.malformed b.text) ∧
        ∀ s b', parse s = .ok b' → b' ≠ b ∧ b'.text ≠ b.text := by
  refine ⟨fun s => ⟨exists_parse_iff, parse_of_not_isAddress, fun b => text_of_parse⟩, ?_, ?_, ?_⟩
  · intro b hb
    exact parse_eq_ok_iff.2 ⟨rfl, hb⟩
  · intro s s' b b' h h'
    have hiff := eq_iff_of_parse h h'
    rw [text_of_parse h, text_of_parse h']
    exact ⟨hiff, hiff⟩
  · intro b hparts
    have hb := not_addressable hparts
    constructor
    · apply parse_of_not_isAddress
      rwa [isAddress_text_iff]
    · intro s b' h
      have htext := text_ne_of_parse hb h
      exact ⟨fun heq => htext (congrArg text heq), htext⟩

/-- Two brokers that are written alike, and one that is addressable. -/
theorem addresses_name_brokers_alike :
    let outer : BrokerIdentity := ⟨"a/b", "c"⟩
    let inner : BrokerIdentity := ⟨"a", "b/c"⟩
    let read : BrokerIdentity := ⟨"a", "b"⟩
    outer ≠ inner ∧ outer.text = inner.text ∧ parse outer.text = .error (.malformed "a/b/c") ∧
      parse inner.text = .error (.malformed "a/b/c") ∧ parse "a/b" = .ok read ∧
      read.text ≠ inner.text := by
  intro outer inner read
  obtain ⟨-, hread, -, hrest⟩ := addresses_name_brokers
  have houter := hrest outer (by decide)
  have hinner := hrest inner (by decide)
  have hparse : parse "a/b" = .ok read :=
    hread read ⟨by decide, by decide, by decide, by decide⟩
  exact ⟨by decide, rfl, houter.1, hinner.1, hparse, (hinner.2 _ _ hparse).2⟩

end EventIngress.BrokerIdentity
