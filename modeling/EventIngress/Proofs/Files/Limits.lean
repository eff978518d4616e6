import EventIngress.Files.Path
import EventIngress.Files.Tree

/-!
# The limits of paths

The limits are looked up on the names that a path leads through. These are not all that stands
between its slashes: empty parts and inner points are left out, and the slash at the start is added.
But what is left out and what is added is short, so a path obeys the limits exactly if it and all
that stands between its slashes are short enough.

Results:

* `WithinLimits`: a path that obeys the limits.
* `isSegment_iff`: what stands between the slashes of a path.
* `pathFault?_eq_none_iff`, `pathFault?_eq_tooLong_iff`, `pathFault?_eq_componentTooLong_iff`: which
  paths have no fault, and which have which.
* `FileTree.locate_long_name`: a name beyond its limit leads nowhere.
-/

namespace EventIngress

/-- A path is not too long, and neither is what stands between its slashes. -/
structure WithinLimits (path : String) : Prop where
  length : path.utf8ByteSize ≤ maxPathLength
  parts : ∀ part ∈ Text.fields '/' path.toList,
    (String.ofList part).utf8ByteSize ≤ maxComponentLength

variable {path name : String}

/-! ## Segments -/

/-- A longest stretch of a path without a slash: nothing or a slash stands before it, and nothing or
a slash stands after it. -/
structure IsSegment (path segment : String) : Prop where
  no_slash : '/' ∉ segment.toList
  around : ∃ before after, path = before ++ segment ++ after ∧
    (before = "" ∨ ∃ front, before = front ++ "/") ∧ (after = "" ∨ ∃ back, after = "/" ++ back)

theorem isSegment_iff {segment : String} :
    IsSegment path segment ↔ segment.toList ∈ Text.fields '/' path.toList := by
  rw [Text.mem_fields_iff]
  constructor
  · intro ⟨hslash, before, after, hpath, hbefore, hafter⟩
    refine ⟨hslash, before.toList, after.toList, by simp [hpath], ?_, ?_⟩
    · rcases hbefore with hbefore | ⟨front, hbefore⟩
      · exact .inl (by simp [hbefore])
      · exact .inr ⟨front.toList, by simp [hbefore]⟩
    · rcases hafter with hafter | ⟨back, hafter⟩
      · exact .inl (by simp [hafter])
      · exact .inr ⟨back.toList, by simp [hafter]⟩
  · intro ⟨hslash, before, after, hpath, hbefore, hafter⟩
    refine ⟨hslash, String.ofList before, String.ofList after, ?_, ?_, ?_⟩
    · apply String.toList_inj.1
      simp [hpath]
    · rcases hbefore with hbefore | ⟨front, hbefore⟩
      · exact .inl (by simp [hbefore])
      · exact .inr ⟨String.ofList front, by simp [hbefore]⟩
    · rcases hafter with hafter | ⟨back, hafter⟩
      · exact .inl (by simp [hafter])
      · refine .inr ⟨String.ofList back, ?_⟩
        apply String.toList_inj.1
        simp [hafter]

theorem withinLimits_iff :
    WithinLimits path ↔ path.utf8ByteSize ≤ maxPathLength ∧
      ∀ segment, IsSegment path segment → segment.utf8ByteSize ≤ maxComponentLength := by
  constructor
  · intro h
    refine ⟨h.length, ?_⟩
    intro segment hsegment
    have hpart := h.parts segment.toList (isSegment_iff.1 hsegment)
    rwa [String.ofList_toList] at hpart
  · intro ⟨hlength, hsegments⟩
    refine ⟨hlength, ?_⟩
    intro part hpart
    apply hsegments
    rw [isSegment_iff, String.toList_ofList]
    exact hpart

/-! ## Names -/

/-- Each name of a path stands between its slashes, or is a slash. -/
theorem mem_pathComponents (h : name ∈ pathComponents path) :
    name = "/" ∨ name ∈ (Text.fields '/' path.toList).map String.ofList := by
  unfold pathComponents at h
  generalize (Text.fields '/' path.toList).map String.ofList = parts at h ⊢
  dsimp only at h
  split at h
  · rcases List.mem_cons.1 h with rfl | h
    · exact .inr List.mem_cons_self
    · exact .inr (List.mem_filter.1 h).1
  · rcases List.mem_cons.1 h with rfl | h
    · exact .inl rfl
    · exact .inr (List.mem_filter.1 h).1
  · exact .inr (List.mem_filter.1 h).1

/-- Only empty parts and points are left out. -/
theorem mem_pathComponents_of_part
    (h : name ∈ (Text.fields '/' path.toList).map String.ofList) (hempty : name ≠ "")
    (hpoint : name ≠ ".") : name ∈ pathComponents path := by
  unfold pathComponents
  generalize (Text.fields '/' path.toList).map String.ofList = parts at h ⊢
  have hnamed : name ∈ parts.filter fun part => part != "" && part != "." :=
    List.mem_filter.2 ⟨h, by simp [hempty, hpoint]⟩
  dsimp only
  split
  · exact List.mem_cons_of_mem _ hnamed
  · exact List.mem_cons_of_mem _ hnamed
  · exact hnamed

example : pathComponents "/.//a/./../b/" = ["/", "a", "..", "b"] := by decide +kernel

/-- The names of a path are short exactly if all that stands between its slashes is. -/
theorem forall_pathComponents_iff (path : String) {limit : Nat} (hlimit : 1 ≤ limit) :
    (∀ name ∈ pathComponents path, name.utf8ByteSize ≤ limit) ↔
      ∀ part ∈ Text.fields '/' path.toList, (String.ofList part).utf8ByteSize ≤ limit := by
  constructor
  · intro h part hpart
    by_cases hempty : String.ofList part = ""
    · rw [hempty]
      exact Nat.zero_le _
    · by_cases hpoint : String.ofList part = "."
      · rw [hpoint]
        exact hlimit
      · exact h _ (mem_pathComponents_of_part (List.mem_map_of_mem hpart) hempty hpoint)
  · intro h name hname
    rcases mem_pathComponents hname with rfl | hname
    · exact hlimit
    · obtain ⟨part, hpart, rfl⟩ := List.mem_map.1 hname
      exact h part hpart

/-- A path leads through a name that is too long exactly if a segment of it is too long. -/
theorem exists_long_name_iff :
    (∃ name ∈ pathComponents path, maxComponentLength < name.utf8ByteSize) ↔
      ∃ segment, IsSegment path segment ∧ maxComponentLength < segment.utf8ByteSize := by
  constructor
  · intro ⟨name, hname, hlong⟩
    refine ⟨name, ?_, hlong⟩
    rcases mem_pathComponents hname with hslash | hpart
    · rw [hslash] at hlong
      exact absurd hlong (by decide)
    · obtain ⟨part, hpart, heq⟩ := List.mem_map.1 hpart
      rw [isSegment_iff, ← heq, String.toList_ofList]
      exact hpart
  · intro ⟨segment, hsegment, hlong⟩
    refine ⟨segment, mem_pathComponents_of_part ?_ ?_ ?_, hlong⟩
    · exact List.mem_map.2 ⟨segment.toList, isSegment_iff.1 hsegment, String.ofList_toList⟩
    · intro hempty
      rw [hempty] at hlong
      exact absurd hlong (by decide)
    · intro hpoint
      rw [hpoint] at hlong
      exact absurd hlong (by decide)

theorem pathFault?_eq_none_iff : pathFault? path = none ↔ WithinLimits path := by
  have hnames := forall_pathComponents_iff path (show 1 ≤ maxComponentLength by decide)
  unfold pathFault?
  constructor
  · intro h
    split at h
    · cases h
    · rename_i hlength
      split at h
      · cases h
      · rename_i hany
        refine ⟨Nat.le_of_not_lt hlength, hnames.1 fun name hname => ?_⟩
        exact Nat.le_of_not_lt fun hlong =>
          hany (List.any_eq_true.2 ⟨name, hname, decide_eq_true hlong⟩)
  · rintro ⟨hlength, hparts⟩
    rw [if_neg (Nat.not_lt.2 hlength), if_neg]
    rw [List.any_eq_true]
    rintro ⟨name, hname, hlong⟩
    exact absurd (of_decide_eq_true hlong) (Nat.not_lt.2 (hnames.2 hparts name hname))

/-- The length of the whole path is reported, whatever else is wrong with it. -/
theorem pathFault?_eq_tooLong_iff :
    pathFault? path = some .tooLong ↔ maxPathLength < path.utf8ByteSize := by
  unfold pathFault?
  constructor
  · intro h
    split at h
    · assumption
    · split at h <;> cases h
  · intro h
    rw [if_pos h]

theorem pathFault?_eq_componentTooLong_iff :
    pathFault? path = some .componentTooLong ↔ path.utf8ByteSize ≤ maxPathLength ∧
      ∃ segment, IsSegment path segment ∧ maxComponentLength < segment.utf8ByteSize := by
  rw [← exists_long_name_iff]
  unfold pathFault?
  by_cases hlength : maxPathLength < path.utf8ByteSize
  · rw [if_pos hlength]
    simp [Nat.not_le.2 hlength]
  · rw [if_neg hlength]
    simp [Nat.not_lt.1 hlength]

/-- A name that is too long for a directory leads nowhere. -/
theorem FileTree.locate_long_name (hslash : '/' ∉ path.toList) (hzero : '\x00' ∉ path.toList)
    (hlong : maxNameBytes < path.utf8ByteSize) (t : FileTree) :
    t.locate path = .error .nameTooLong := by
  have hne : path ≠ "" := by
    rintro rfl
    exact absurd hlong (by decide)
  have hpoints : path ≠ "." ∧ path ≠ ".." := by
    constructor
    · rintro rfl
      exact absurd hlong (by decide)
    · rintro rfl
      exact absurd hlong (by decide)
  have hparts : parts path = [path] := by
    rw [parts, Text.fields_of_not_mem hslash, List.map_singleton, String.ofList_toList]
  rw [locate, if_neg (by simpa using hzero), if_neg hne, hparts, follow]
  simp [hne, hpoints, hlong]

end EventIngress
