/-!
# Cutting lists at a separator

Results:

* `cut?`: the parts before and after the first separator; `cut?_eq_some_iff` says which parts.
* `dropStart?`: what follows a given start; `dropStart?_eq_some_iff` says what that is.
* `fields`: all parts between separators; `fields_eq_iff` and `mem_fields_iff` say which parts, and
  `fields_lines` that lines are taken apart again.
-/

namespace EventIngress.Text

variable {α : Type} [DecidableEq α]

/-- The parts before and after the first `sep`, or nothing if there is none. -/
def cut? (sep : α) : List α → Option (List α × List α)
  | [] => none
  | c :: rest =>
    if c = sep then some ([], rest)
    else (cut? sep rest).map fun parts => (c :: parts.1, parts.2)

/-- What follows `start`, if the list starts so. -/
def dropStart? : (start s : List α) → Option (List α)
  | [], s => some s
  | _ :: _, [] => none
  | a :: start, c :: s => if a = c then dropStart? start s else none

/-- The parts between the separators; there is always one part more than separators. -/
def fields (sep : α) : List α → List (List α)
  | [] => [[]]
  | c :: rest =>
    if c = sep then [] :: fields sep rest
    else
      match fields sep rest with
      | [] => [[c]]
      | part :: parts => (c :: part) :: parts

theorem cut?_eq_some_iff {sep : α} {s before after : List α} :
    cut? sep s = some (before, after) ↔ s = before ++ sep :: after ∧ sep ∉ before := by
  induction s generalizing before with
  | nil => simp [cut?]
  | cons c rest ih =>
    rw [cut?]
    by_cases h : c = sep
    · subst h
      cases before with
      | nil => simp
      | cons b bs =>
        simp only [List.cons_append, List.cons.injEq, List.mem_cons, not_or]
        constructor
        · intro h; simp at h
        · rintro ⟨⟨rfl, -⟩, hne, -⟩; exact absurd rfl hne
    · rw [if_neg h, Option.map_eq_some_iff]
      cases before with
      | nil =>
        constructor
        · rintro ⟨_, _, heq⟩; cases heq
        · rintro ⟨heq, -⟩; exact absurd (List.cons.inj heq).1 h
      | cons b bs =>
        constructor
        · rintro ⟨⟨x, y⟩, hcut, heq⟩
          obtain ⟨hbs, rfl⟩ := Prod.mk.injEq .. ▸ heq
          obtain ⟨rfl, rfl⟩ := List.cons.inj hbs
          obtain ⟨rfl, hx⟩ := ih.1 hcut
          exact ⟨rfl, by simp [hx, Ne.symm h]⟩
        · rintro ⟨heq, hmem⟩
          obtain ⟨rfl, rfl⟩ := List.cons.inj heq
          exact ⟨(bs, after), ih.2 ⟨rfl, fun hin => hmem (List.mem_cons_of_mem _ hin)⟩, rfl⟩

theorem dropStart?_eq_some_iff {start s rest : List α} :
    dropStart? start s = some rest ↔ s = start ++ rest := by
  induction start generalizing s with
  | nil => simp [dropStart?]
  | cons a start ih =>
    cases s with
    | nil => simp [dropStart?]
    | cons c s =>
      by_cases h : a = c
      · subst h; simp [dropStart?, ih]
      · simp [dropStart?, h, Ne.symm h]

theorem fields_of_not_mem {sep : α} {part : List α} (h : sep ∉ part) :
    fields sep part = [part] := by
  induction part with
  | nil => rfl
  | cons c part ih =>
    rw [List.mem_cons, not_or] at h
    rw [fields, if_neg (Ne.symm h.1), ih h.2]

theorem fields_ne_nil (sep : α) (s : List α) : fields sep s ≠ [] := by
  cases s with
  | nil => simp [fields]
  | cons c rest =>
    rw [fields]
    split
    · simp
    · split <;> simp

theorem fields_cons_of_ne {sep c : α} (h : c ≠ sep) {s part : List α} {parts : List (List α)}
    (hs : fields sep s = part :: parts) : fields sep (c :: s) = (c :: part) :: parts := by
  rw [fields, if_neg h, hs]

/-- A list with a separator in it is taken apart on both sides of it. -/
theorem fields_append_cons (sep : α) (s rest : List α) :
    fields sep (s ++ sep :: rest) = fields sep s ++ fields sep rest := by
  induction s with
  | nil => simp [fields]
  | cons c s ih =>
    by_cases hc : c = sep
    · rw [List.cons_append, fields, if_pos hc, ih, fields, if_pos hc, List.cons_append]
    · obtain ⟨first, parts, hs⟩ := List.exists_cons_of_ne_nil (fields_ne_nil sep s)
      rw [hs, List.cons_append] at ih
      rw [List.cons_append, fields_cons_of_ne hc ih, fields_cons_of_ne hc hs, List.cons_append]

theorem fields_append_sep {sep : α} {part : List α} (h : sep ∉ part) (rest : List α) :
    fields sep (part ++ sep :: rest) = part :: fields sep rest := by
  rw [fields_append_cons, fields_of_not_mem h, List.singleton_append]

/-- There is no separator in a part. -/
theorem not_mem_of_mem_fields {sep : α} {s part : List α} (h : part ∈ fields sep s) :
    sep ∉ part := by
  induction s generalizing part with
  | nil =>
    rw [List.mem_singleton.1 h]
    exact List.not_mem_nil
  | cons c rest ih =>
    by_cases hc : c = sep
    · rw [fields, if_pos hc] at h
      rcases List.mem_cons.1 h with rfl | h
      · exact List.not_mem_nil
      · exact ih h
    · obtain ⟨first, parts, hrest⟩ := List.exists_cons_of_ne_nil (fields_ne_nil sep rest)
      rw [fields_cons_of_ne hc hrest] at h
      rcases List.mem_cons.1 h with rfl | h
      · rw [List.mem_cons, not_or]
        exact ⟨Ne.symm hc, ih (hrest ▸ List.mem_cons_self)⟩
      · exact ih (hrest ▸ List.mem_cons_of_mem _ h)

/-- The parts are put together again by the separators. -/
theorem intercalate_fields (sep : α) (s : List α) : [sep].intercalate (fields sep s) = s := by
  induction s with
  | nil => rfl
  | cons c rest ih =>
    obtain ⟨first, parts, hrest⟩ := List.exists_cons_of_ne_nil (fields_ne_nil sep rest)
    by_cases hc : c = sep
    · rw [fields, if_pos hc, hrest, List.intercalate_cons_cons, ← hrest, ih, hc]
      rfl
    · rw [fields_cons_of_ne hc hrest]
      rw [hrest] at ih
      cases parts with
      | nil =>
        rw [List.intercalate_singleton] at ih ⊢
        rw [ih]
      | cons next parts =>
        rw [List.intercalate_cons_cons] at ih ⊢
        rw [List.cons_append, List.cons_append, ih]

theorem fields_intercalate {sep : α} {parts : List (List α)} (hne : parts ≠ [])
    (h : ∀ part ∈ parts, sep ∉ part) : fields sep ([sep].intercalate parts) = parts := by
  induction parts with
  | nil => exact absurd rfl hne
  | cons part parts ih =>
    rw [List.forall_mem_cons] at h
    cases parts with
    | nil => rw [List.intercalate_singleton, fields_of_not_mem h.1]
    | cons next parts =>
      rw [List.intercalate_cons_cons, List.append_assoc, List.singleton_append,
        fields_append_sep h.1, ih (List.cons_ne_nil _ _) h.2]

/-- There is one way to take a list apart. -/
theorem fields_eq_iff {sep : α} {s : List α} {parts : List (List α)} :
    fields sep s = parts ↔
      parts ≠ [] ∧ s = [sep].intercalate parts ∧ ∀ part ∈ parts, sep ∉ part := by
  constructor
  · rintro rfl
    exact ⟨fields_ne_nil sep s, (intercalate_fields sep s).symm, fun _ => not_mem_of_mem_fields⟩
  · rintro ⟨hne, rfl, h⟩
    exact fields_intercalate hne h

omit [DecidableEq α] in
/-- Around a part of a list that is put together by separators there are separators, or nothing. -/
theorem exists_around_of_mem (sep : α) {part : List α} {parts : List (List α)} (h : part ∈ parts) :
    ∃ before after, [sep].intercalate parts = before ++ part ++ after ∧
      (before = [] ∨ ∃ front, before = front ++ [sep]) ∧
      (after = [] ∨ ∃ back, after = sep :: back) := by
  induction parts with
  | nil => exact absurd h List.not_mem_nil
  | cons first parts ih =>
    cases parts with
    | nil =>
      refine ⟨[], [], ?_, .inl rfl, .inl rfl⟩
      rw [List.mem_singleton.1 h, List.intercalate_singleton]
      simp
    | cons next parts =>
      rw [List.intercalate_cons_cons]
      rcases List.mem_cons.1 h with heq | hmem
      · refine ⟨[], sep :: [sep].intercalate (next :: parts), ?_, .inl rfl, .inr ⟨_, rfl⟩⟩
        simp [heq]
      · obtain ⟨before, after, hparts, hbefore, hafter⟩ := ih hmem
        refine ⟨first ++ sep :: before, after, ?_, .inr ?_, hafter⟩
        · rw [hparts]
          simp
        · rcases hbefore with hbefore | ⟨front, hbefore⟩
          · exact ⟨first, by rw [hbefore]⟩
          · exact ⟨first ++ sep :: front, by simp [hbefore]⟩

/-- The parts are what holds no separator and has separators, or nothing, around it. -/
theorem mem_fields_iff {sep : α} {s part : List α} :
    part ∈ fields sep s ↔ sep ∉ part ∧ ∃ before after, s = before ++ part ++ after ∧
      (before = [] ∨ ∃ front, before = front ++ [sep]) ∧
      (after = [] ∨ ∃ back, after = sep :: back) := by
  constructor
  · intro h
    refine ⟨not_mem_of_mem_fields h, ?_⟩
    have haround := exists_around_of_mem sep h
    rwa [intercalate_fields] at haround
  · intro ⟨hpart, before, after, hs, hbefore, hafter⟩
    have hend : part ∈ fields sep (part ++ after) := by
      rcases hafter with hafter | ⟨back, hafter⟩
      · simp [hafter, fields_of_not_mem hpart]
      · simp [hafter, fields_append_sep hpart]
    rw [hs, List.append_assoc]
    rcases hbefore with hbefore | ⟨front, hbefore⟩
    · rwa [hbefore]
    · rw [hbefore, List.append_assoc, List.singleton_append, fields_append_cons]
      exact List.mem_append_right _ hend

/-- What stands in front of a list belongs to its first part. -/
theorem fields_append_front {sep : α} {front s first : List α} {more : List (List α)}
    (h : sep ∉ front) (hs : fields sep s = first :: more) :
    fields sep (front ++ s) = (front ++ first) :: more := by
  induction front with
  | nil => exact hs
  | cons c front ih =>
    rw [List.mem_cons, not_or] at h
    rw [List.cons_append, fields_cons_of_ne (Ne.symm h.1) (ih h.2), List.cons_append]

/-- What stands behind a list belongs to its last part. -/
theorem fields_append_back {sep : α} {back : List α} (h : sep ∉ back) (s : List α) :
    ∃ before last, fields sep s = before ++ [last] ∧
      fields sep (s ++ back) = before ++ [last ++ back] := by
  induction s with
  | nil => exact ⟨[], [], rfl, fields_of_not_mem h⟩
  | cons c rest ih =>
    obtain ⟨before, last, hrest, hback⟩ := ih
    by_cases hc : c = sep
    · refine ⟨[] :: before, last, ?_, ?_⟩
      · rw [fields, if_pos hc, hrest, List.cons_append]
      · rw [List.cons_append, fields, if_pos hc, hback, List.cons_append]
    · cases before with
      | nil =>
        exact ⟨[], c :: last, fields_cons_of_ne hc hrest, fields_cons_of_ne hc hback⟩
      | cons first before =>
        exact ⟨(c :: first) :: before, last, fields_cons_of_ne hc hrest,
          fields_cons_of_ne hc hback⟩

/-- Around a list there is only something to put into its first and its last part. -/
theorem mem_fields_around {sep : α} {front back s part : List α} (hfront : sep ∉ front)
    (hback : sep ∉ back) (h : part ∈ fields sep (front ++ s ++ back)) :
    some part = (fields sep (front ++ s ++ back)).head? ∨
      some part = (fields sep (front ++ s ++ back)).getLast? ∨ part ∈ fields sep s := by
  obtain ⟨before, last, hs, hlast⟩ := fields_append_back hback s
  cases before with
  | nil =>
    rw [List.append_assoc, fields_append_front hfront hlast] at h ⊢
    exact .inl (congrArg some (List.mem_singleton.1 h))
  | cons first before =>
    rw [List.cons_append] at hlast
    rw [List.append_assoc, fields_append_front hfront hlast] at h ⊢
    rw [List.mem_cons, List.mem_append, List.mem_singleton] at h
    rcases h with rfl | h | rfl
    · exact .inl rfl
    · exact .inr (.inr (hs ▸ List.mem_cons_of_mem _ (List.mem_append_left _ h)))
    · exact .inr (.inl (by rw [← List.cons_append, List.getLast?_concat]))

/-- Lines with a separator after each are taken apart again; nothing follows the last one. -/
theorem fields_lines {sep : α} {lines : List (List α)} (h : ∀ line ∈ lines, sep ∉ line) :
    fields sep (lines.flatMap fun line => line ++ [sep]) = lines ++ [[]] := by
  induction lines with
  | nil => rfl
  | cons line lines ih =>
    rw [List.forall_mem_cons] at h
    rw [List.flatMap_cons, List.append_assoc, List.singleton_append, fields_append_sep h.1, ih h.2]
    rfl

end EventIngress.Text
