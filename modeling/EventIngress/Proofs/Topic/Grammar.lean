import EventIngress.Topic
import Mathlib

/-!
# The grammar of topics

A topic is written as a topic name or as `projects/`, a project, `/topics/` and a topic name.
Reading accepts exactly these texts, and a topic is read from its own text form and from no other
text.

The parts of a topic can also be found in its text form without reading it: the project ends at the
first slash after `projects/`, the name starts after the last slash.

Results:

* `TopicId.parse_eq_ok_iff`: reading yields a topic exactly from its text form.
* `TopicId.parse_accepts_grammar`: the texts that are accepted, and the parts that are read.
-/

namespace EventIngress.TopicId

/-! ## The two forms of a text -/

/-- A text is a topic name. -/
structure IsName (s : String) : Prop where
  length : 3 ≤ s.toList.length ∧ s.toList.length ≤ 255
  start : ∃ c rest, s.toList = c :: rest ∧ c.isAlpha = true
  unreserved : ¬ "goog".toList <+: s.toList
  chars : ∀ c ∈ s.toList, c.isAlphanum = true ∨ c ∈ "-_.~+%".toList

/-- A text is a project. -/
structure IsProject (s : String) : Prop where
  nonempty : s ≠ ""
  chars : ∀ c ∈ s.toList, c.isLower = true ∨ c.isDigit = true ∨ c ∈ "-.:".toList

/-- The qualified form of a project and a topic name. -/
def qualifiedText (project name : String) : String :=
  "projects/" ++ project ++ "/topics/" ++ name

/-- A text is of the qualified form. -/
def IsQualifiedForm (s : String) : Prop :=
  ∃ p n, IsProject p ∧ IsName n ∧ s = qualifiedText p n

/-! ## Finding the parts in a text -/

/-- What stands between `projects/` in front and the next slash. -/
def projectIn? (s : String) : Option String :=
  ((Text.dropStart? "projects/".toList s.toList).bind (Text.cut? '/')).map fun parts =>
    String.ofList parts.1

/-- What stands after the last slash; everything if there is none. -/
def nameIn (s : String) : String :=
  String.ofList (s.toList.reverse.takeWhile (· ≠ '/')).reverse

/-! ## The naming rules -/

theorem isLower_iff {c : Char} : isLower c = true ↔ c.isLower = true := by
  simp only [isLower, Char.isLower, Bool.and_eq_true, decide_eq_true_eq, UInt32.le_iff_toNat_le,
    ge_iff_le]
  exact Iff.rfl

theorem isLetter_iff {c : Char} : isLetter c = true ↔ c.isAlpha = true := by
  rw [isLetter, Char.isAlpha, Bool.or_comm, Bool.or_eq_true, Bool.or_eq_true, isLower_iff]
  refine or_congr ?_ Iff.rfl
  simp only [Char.isUpper, Bool.and_eq_true, decide_eq_true_eq, UInt32.le_iff_toNat_le, ge_iff_le]
  exact Iff.rfl

theorem isDigit_iff {c : Char} : isDigit c = true ↔ c.isDigit = true := by
  simp only [isDigit, Char.isDigit, Bool.and_eq_true, decide_eq_true_eq, UInt32.le_iff_toNat_le,
    ge_iff_le]
  exact Iff.rfl

theorem isNameChar_iff {c : Char} :
    isNameChar c = true ↔ c.isAlphanum = true ∨ c ∈ "-_.~+%".toList := by
  rw [isNameChar, Char.isAlphanum, Bool.or_eq_true, Bool.or_eq_true, isLetter_iff, isDigit_iff,
    Bool.or_eq_true, List.contains_iff_mem]
  exact Iff.rfl

theorem isProjectChar_iff {c : Char} :
    isProjectChar c = true ↔ c.isLower = true ∨ c.isDigit = true ∨ c ∈ "-.:".toList := by
  rw [isProjectChar, Bool.or_eq_true, Bool.or_eq_true, isLower_iff, isDigit_iff,
    List.contains_iff_mem, or_assoc]
  exact Iff.rfl

theorem nameFault?_eq_none_iff {s : String} : nameFault? s.toList = none ↔ IsName s := by
  unfold nameFault?
  constructor
  · intro h
    split at h
    · cases h
    · rename_i hlength
      split at h
      · cases h
      · rename_i hstart
        split at h
        · cases h
        · rename_i hreserved
          rw [Option.map_eq_none_iff, List.find?_eq_none] at h
          refine ⟨by omega, ?_, ?_, ?_⟩
          · cases hs : s.toList with
            | nil => rw [hs] at hlength; simp at hlength
            | cons c rest =>
              rw [hs] at hstart
              exact ⟨c, rest, rfl, isLetter_iff.1 (by simpa using hstart)⟩
          · rwa [List.isPrefixOf_iff_prefix] at hreserved
          · intro c hc
            exact isNameChar_iff.1 (by simpa using h c hc)
  · intro h
    obtain ⟨c, rest, hs, hc⟩ := h.start
    have hlength := h.length
    have hreserved := h.unreserved
    rw [if_neg (by omega), if_neg (by simp [hs, isLetter_iff.2 hc]),
      if_neg (by rwa [List.isPrefixOf_iff_prefix]), Option.map_eq_none_iff, List.find?_eq_none]
    intro c hc
    simpa using isNameChar_iff.2 (h.chars c hc)

theorem projectFault?_eq_none_iff {s : String} :
    projectFault? s.toList = none ↔ IsProject s := by
  unfold projectFault?
  constructor
  · intro h
    split at h
    · rename_i hrule
      rw [Bool.and_eq_true, List.all_eq_true] at hrule
      refine ⟨?_, fun c hc => isProjectChar_iff.1 (hrule.2 c hc)⟩
      rintro rfl
      simp at hrule
    · cases h
  · intro h
    rw [if_pos]
    rw [Bool.and_eq_true, List.all_eq_true]
    refine ⟨?_, fun c hc => isProjectChar_iff.2 (h.chars c hc)⟩
    simpa using h.nonempty

theorem IsName.ne_empty {s : String} (h : IsName s) : s ≠ "" := by
  rintro rfl
  have hlength := h.length
  simp at hlength

/-- No topic name has a slash. -/
theorem IsName.no_slash {s : String} (h : IsName s) : '/' ∉ s.toList := by
  intro hslash
  have hchar := h.chars '/' hslash
  revert hchar
  decide

/-- No project has a slash. -/
theorem IsProject.no_slash {s : String} (h : IsProject s) : '/' ∉ s.toList := by
  intro hslash
  have hchar := h.chars '/' hslash
  revert hchar
  decide

/-! ## The parts of a topic -/

theorem isName_name (t : TopicId) : IsName t.name :=
  nameFault?_eq_none_iff.1 t.name_ok

theorem isProject_project {t : TopicId} {p : String} (h : t.project = some p) : IsProject p :=
  projectFault?_eq_none_iff.1 (t.project_ok p h)

theorem text_of_bare {t : TopicId} (h : t.project = none) : t.text = t.name := by
  rw [text, h]

theorem text_of_qualified {t : TopicId} {p : String} (h : t.project = some p) :
    t.text = qualifiedText p t.name := by
  rw [text, h]
  rfl

theorem ofName_eq_ok_iff {name : List Char} {t : TopicId} :
    ofName name = .ok t ↔ t.project = none ∧ t.name.toList = name := by
  unfold ofName
  split
  · rename_i fault hfault
    refine ⟨by rintro ⟨⟩, ?_⟩
    rintro ⟨-, rfl⟩
    rw [t.name_ok] at hfault
    cases hfault
  · constructor
    · rintro ⟨⟩
      exact ⟨rfl, String.toList_ofList⟩
    · rintro ⟨hproject, rfl⟩
      cases t
      cases hproject
      simp [bare]

theorem ofParts_eq_ok_iff {project name : List Char} {t : TopicId} :
    ofParts project name = .ok t ↔
      t.project = some (String.ofList project) ∧ t.name.toList = name := by
  unfold ofParts
  split
  · rename_i fault hfault
    refine ⟨by rintro ⟨⟩, ?_⟩
    rintro ⟨hproject, -⟩
    have hfine := t.project_ok _ hproject
    rw [String.toList_ofList, hfault] at hfine
    cases hfine
  · split
    · rename_i fault hfault
      refine ⟨by rintro ⟨⟩, ?_⟩
      rintro ⟨-, rfl⟩
      rw [t.name_ok] at hfault
      cases hfault
    · constructor
      · rintro ⟨⟩
        exact ⟨rfl, String.toList_ofList⟩
      · rintro ⟨hproject, rfl⟩
        cases t
        cases hproject
        simp

/-! ## Reading -/

theorem toList_qualifiedText (p n : String) :
    (qualifiedText p n).toList =
      projectsSegment ++ (p.toList ++ '/' :: (topicsSegment ++ n.toList)) := by
  simp [qualifiedText, projectsSegment, topicsSegment]

/-- A text without a slash does not have the segment of projects in front. -/
theorem dropStart?_projectsSegment_eq_none {cs : List Char} (h : '/' ∉ cs) :
    Text.dropStart? projectsSegment cs = none := by
  rw [Option.eq_none_iff_forall_ne_some]
  intro rest hrest
  rw [Text.dropStart?_eq_some_iff] at hrest
  exact h (by rw [hrest]; simp [projectsSegment])

/-- Reading a text of the qualified form goes on with its two parts. -/
theorem parse_qualifiedText {p n : String} (hp : '/' ∉ p.toList) :
    parse (qualifiedText p n) = ofParts p.toList n.toList := by
  have hne : (qualifiedText p n).isEmpty = false := by
    rw [← Bool.not_eq_true, String.isEmpty_iff, ← String.toList_inj, toList_qualifiedText]
    simp [projectsSegment]
  have hcut : Text.cut? '/' (p.toList ++ '/' :: (topicsSegment ++ n.toList)) =
      some (p.toList, topicsSegment ++ n.toList) := Text.cut?_eq_some_iff.2 ⟨rfl, hp⟩
  have hprojects : Text.dropStart? projectsSegment (qualifiedText p n).toList =
      some (p.toList ++ '/' :: (topicsSegment ++ n.toList)) :=
    Text.dropStart?_eq_some_iff.2 (toList_qualifiedText p n)
  have htopics : Text.dropStart? topicsSegment (topicsSegment ++ n.toList) = some n.toList :=
    Text.dropStart?_eq_some_iff.2 rfl
  rw [parse, hne, if_neg Bool.false_ne_true, hprojects]
  dsimp only
  rw [hcut]
  dsimp only
  rw [htopics]

/-- Reading a text without a slash takes it for a topic name. -/
theorem parse_of_no_slash {s : String} (hne : s ≠ "") (hs : '/' ∉ s.toList) :
    parse s = ofName s.toList := by
  rw [parse, if_neg (by simpa using hne), dropStart?_projectsSegment_eq_none hs]
  dsimp only
  rw [if_neg (by simpa using hs)]

/-- Every topic is read from its text form. -/
theorem parse_text (t : TopicId) : parse t.text = .ok t := by
  have hname := isName_name t
  cases hproject : t.project with
  | none =>
    rw [text_of_bare hproject, parse_of_no_slash hname.ne_empty hname.no_slash]
    exact ofName_eq_ok_iff.2 ⟨hproject, rfl⟩
  | some p =>
    rw [text_of_qualified hproject, parse_qualifiedText (isProject_project hproject).no_slash]
    exact ofParts_eq_ok_iff.2 ⟨by rw [hproject, String.ofList_toList], rfl⟩

/-- A topic is read from its text form only. -/
theorem text_of_parse {s : String} {t : TopicId} (h : parse s = .ok t) : t.text = s := by
  unfold parse at h
  split at h
  · cases h
  · split at h
    · rename_i rest hrest
      rw [Text.dropStart?_eq_some_iff] at hrest
      split at h
      · cases h
      · rename_i project tail hcut
        rw [Text.cut?_eq_some_iff] at hcut
        split at h
        · cases h
        · rename_i name hname
          rw [Text.dropStart?_eq_some_iff] at hname
          obtain ⟨hproject, htname⟩ := ofParts_eq_ok_iff.1 h
          rw [text_of_qualified hproject, ← String.toList_inj, toList_qualifiedText,
            String.toList_ofList, htname, hrest, hcut.1, hname]
    · split at h
      · cases h
      · obtain ⟨hproject, htname⟩ := ofName_eq_ok_iff.1 h
        rw [text_of_bare hproject, ← String.toList_inj, htname]

/-- A topic is read from its text form and from no other text. -/
theorem parse_eq_ok_iff {s : String} {t : TopicId} : parse s = .ok t ↔ t.text = s :=
  ⟨text_of_parse, fun h => h ▸ parse_text t⟩

/-! ## The parts found in a text -/

theorem projectIn?_qualifiedText {p : String} (hp : '/' ∉ p.toList) (n : String) :
    projectIn? (qualifiedText p n) = some p := by
  have hprojects : Text.dropStart? "projects/".toList (qualifiedText p n).toList =
      some (p.toList ++ '/' :: (topicsSegment ++ n.toList)) :=
    Text.dropStart?_eq_some_iff.2 (toList_qualifiedText p n)
  have hcut : Text.cut? '/' (p.toList ++ '/' :: (topicsSegment ++ n.toList)) =
      some (p.toList, topicsSegment ++ n.toList) := Text.cut?_eq_some_iff.2 ⟨rfl, hp⟩
  rw [projectIn?, hprojects, Option.bind_some, hcut, Option.map_some, String.ofList_toList]

theorem projectIn?_of_no_slash {s : String} (hs : '/' ∉ s.toList) : projectIn? s = none := by
  rw [projectIn?]
  show ((Text.dropStart? projectsSegment s.toList).bind _).map _ = none
  rw [dropStart?_projectsSegment_eq_none hs]
  rfl

/-- The characters after the last slash. -/
theorem takeWhile_reverse_of_slash (before : List Char) {after : List Char} (h : '/' ∉ after) :
    ((before ++ '/' :: after).reverse.takeWhile (· ≠ '/')).reverse = after := by
  rw [List.reverse_append, List.reverse_cons, List.append_assoc, List.takeWhile_append_of_pos]
  · simp
  · intro c hc
    simp only [decide_eq_true_eq]
    rintro rfl
    exact h (List.mem_reverse.1 hc)

theorem nameIn_qualifiedText (p : String) {n : String} (hn : '/' ∉ n.toList) :
    nameIn (qualifiedText p n) = n := by
  have hslash : (qualifiedText p n).toList =
      (projectsSegment ++ (p.toList ++ "/topics".toList)) ++ '/' :: n.toList := by
    rw [toList_qualifiedText]
    simp [topicsSegment]
  rw [nameIn, hslash, takeWhile_reverse_of_slash _ hn, String.ofList_toList]

theorem nameIn_of_no_slash {s : String} (hs : '/' ∉ s.toList) : nameIn s = s := by
  rw [nameIn, ← List.append_nil s.toList.reverse, List.takeWhile_append_of_pos, List.takeWhile_nil,
    List.append_nil, List.reverse_reverse, String.ofList_toList]
  intro c hc
  simp only [decide_eq_true_eq]
  rintro rfl
  exact hs (List.mem_reverse.1 hc)

/-! ## The accepted texts -/

theorem IsName.parse_eq {s : String} (h : IsName s) :
    ∃ t, parse s = .ok t ∧ t.project = none ∧ t.name = s := by
  have ht := nameFault?_eq_none_iff.2 h
  exact ⟨bare s ht, parse_eq_ok_iff.2 rfl, rfl, rfl⟩

theorem parse_eq_of_parts {p n : String} (hp : IsProject p) (hn : IsName n) :
    ∃ t, parse (qualifiedText p n) = .ok t ∧ t.project = some p ∧ t.name = n := by
  have hproject := projectFault?_eq_none_iff.2 hp
  let t : TopicId :=
    ⟨some p, n, by rintro _ ⟨⟩; exact hproject, nameFault?_eq_none_iff.2 hn⟩
  exact ⟨t, parse_eq_ok_iff.2 rfl, rfl, rfl⟩

/-- The parts of a topic are found in its text form. -/
theorem parts_eq_in_text (t : TopicId) :
    t.project = projectIn? t.text ∧ t.name = nameIn t.text := by
  have hname := (isName_name t).no_slash
  cases hproject : t.project with
  | none =>
    rw [text_of_bare hproject, projectIn?_of_no_slash hname, nameIn_of_no_slash hname]
    exact ⟨rfl, rfl⟩
  | some p =>
    rw [text_of_qualified hproject, nameIn_qualifiedText p hname,
      projectIn?_qualifiedText (isProject_project hproject).no_slash]
    exact ⟨rfl, rfl⟩

theorem isQualified_iff (t : TopicId) : t.isQualified = true ↔ IsQualifiedForm t.text := by
  rw [isQualified, Option.isSome_iff_exists]
  constructor
  · rintro ⟨p, hproject⟩
    exact ⟨p, t.name, isProject_project hproject, isName_name t, text_of_qualified hproject⟩
  · rintro ⟨p, n, hp, -, htext⟩
    refine ⟨p, ?_⟩
    rw [(parts_eq_in_text t).1, htext, projectIn?_qualifiedText hp.no_slash]

/-- Reading accepts exactly the topic names and the texts of the qualified form, which exclude each
other. The topic that is read has the text as its text form, put together again from its project and
its name; it is qualified exactly if the text is of the qualified form, and then it has the project
and the name that the text is made of, which are the only ones; otherwise it has no project and the
whole text as its name. The same parts are found in the text by its slashes: the project ends at the
first one after `projects/`, and the name starts after the last one. -/
theorem parse_accepts_grammar (s : String) :
    ((∃ t, parse s = .ok t) ↔ IsName s ∨ IsQualifiedForm s) ∧
      ¬ (IsName s ∧ IsQualifiedForm s) ∧
      (∀ t, parse s = .ok t → t.text = s ∧ (t.isQualified = true ↔ IsQualifiedForm s) ∧
        t.project = projectIn? s ∧ t.name = nameIn s) ∧
      (IsName s → ∃ t, parse s = .ok t ∧ t.project = none ∧ t.name = s) ∧
      (∀ p n, IsProject p → IsName n → s = qualifiedText p n →
        ∃ t, parse s = .ok t ∧ t.project = some p ∧ t.name = n) ∧
      ∀ p n p' n', IsProject p → IsName n → IsProject p' → IsName n' → s = qualifiedText p n →
        s = qualifiedText p' n' → p = p' ∧ n = n' := by
  refine ⟨⟨?_, ?_⟩, ?_, ?_, IsName.parse_eq, ?_, ?_⟩
  · rintro ⟨t, ht⟩
    rw [parse_eq_ok_iff] at ht
    subst ht
    cases hproject : t.project with
    | none => exact .inl (text_of_bare hproject ▸ isName_name t)
    | some p => exact .inr ((isQualified_iff t).1 (by rw [isQualified, hproject]; rfl))
  · rintro (hname | ⟨p, n, hp, hn, rfl⟩)
    · obtain ⟨t, ht, -⟩ := hname.parse_eq
      exact ⟨t, ht⟩
    · obtain ⟨t, ht, -⟩ := parse_eq_of_parts hp hn
      exact ⟨t, ht⟩
  · rintro ⟨hname, p, n, -, -, rfl⟩
    apply hname.no_slash
    rw [toList_qualifiedText]
    simp [projectsSegment]
  · intro t ht
    rw [parse_eq_ok_iff] at ht
    subst ht
    exact ⟨rfl, isQualified_iff t, parts_eq_in_text t⟩
  · rintro p n hp hn rfl
    exact parse_eq_of_parts hp hn
  · intro p n p' n' hp hn hp' hn' hs hs'
    have hproject : some p = some p' := by
      rw [← projectIn?_qualifiedText hp.no_slash n, ← projectIn?_qualifiedText hp'.no_slash n',
        ← hs, ← hs']
    have hname : n = n' := by
      rw [← nameIn_qualifiedText p hn.no_slash, ← nameIn_qualifiedText p' hn'.no_slash, ← hs, ← hs']
    exact ⟨Option.some.inj hproject, hname⟩

example : (parse "projects/team:a/topics/projects").toOption.map (fun t => (t.project, t.name)) =
    some (some "team:a", "projects") := by decide +kernel

end EventIngress.TopicId
