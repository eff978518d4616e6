import EventIngress.Text.Blank
import Mathlib.Data.List.DropRight
import Mathlib.Data.List.Infix

/-!
# Blanks around texts

Results:

* `Text.exists_around_trim`: a text is what is left of it, between blanks.
* `Text.trim_eq_self`: nothing is cut off a text that neither starts nor ends in a blank.
* `Text.trim_trim`: there are no blanks left to cut off.
-/

namespace EventIngress.Text

/-- A start of a list that does not begin with a blank does not begin with one either. -/
theorem dropWhile_isBlank_of_prefix {part cs : List Char} (hpart : part <+: cs)
    (hcs : cs.dropWhile isBlank = cs) : part.dropWhile isBlank = part := by
  cases part with
  | nil => rfl
  | cons c part =>
    obtain ⟨rest, rfl⟩ := hpart
    rw [List.dropWhile_eq_self_iff] at hcs ⊢
    exact fun _ => hcs (by simp)

/-- There are no blanks left to cut off. -/
theorem trim_trim (s : String) : trim (trim s) = trim s := by
  have hstart : trimEnd (s.toList.dropWhile isBlank) <+: s.toList.dropWhile isBlank :=
    List.rdropWhile_prefix isBlank _
  rw [trim, trim, String.toList_ofList,
    dropWhile_isBlank_of_prefix hstart (List.dropWhile_idempotent isBlank _)]
  exact congrArg String.ofList (List.rdropWhile_idempotent isBlank _)

/-- A text is what is left of it, between blanks. -/
theorem exists_around_trim (s : String) :
    ∃ front back, s = front ++ trim s ++ back ∧ allBlank front = true ∧ allBlank back = true := by
  let kept := s.toList.dropWhile isBlank
  have hkept : (trim s).toList = kept.rdropWhile isBlank := String.toList_ofList
  refine ⟨String.ofList (s.toList.takeWhile isBlank), String.ofList (kept.rtakeWhile isBlank),
    ?_, ?_, ?_⟩
  · rw [← String.toList_inj, String.toList_append, String.toList_append, String.toList_ofList,
      String.toList_ofList, hkept, List.append_assoc, List.rdropWhile_append_rtakeWhile,
      List.takeWhile_append_dropWhile]
  · rw [allBlank, String.toList_ofList, List.all_eq_true]
    exact fun c hc => List.mem_takeWhile_imp hc
  · rw [allBlank, String.toList_ofList, List.all_eq_true]
    exact fun c hc => List.mem_rtakeWhile_imp hc

/-- Nothing is left of a text of blanks. -/
theorem trim_of_allBlank {s : String} (h : allBlank s = true) : trim s = "" := by
  have hnone : s.toList.dropWhile isBlank = [] :=
    List.dropWhile_eq_nil_iff.2 (List.all_eq_true.1 h)
  rw [trim, hnone]
  rfl

/-- Nothing is cut off a text that neither starts nor ends in a blank. -/
theorem trim_eq_self {s : String} (hfirst : ∀ c ∈ s.toList.head?, isBlank c = false)
    (hlast : ∀ c ∈ s.toList.getLast?, isBlank c = false) : trim s = s := by
  have hstart : s.toList.dropWhile isBlank = s.toList := by
    rw [List.dropWhile_eq_self_iff]
    intro hne
    simpa using hfirst _ (List.head?_eq_getElem? ▸ List.getElem?_eq_getElem hne)
  have hend : trimEnd s.toList = s.toList := by
    refine List.rdropWhile_eq_self_iff.2 fun hne => ?_
    simpa using hlast _ (List.getLast?_eq_some_getLast hne)
  rw [trim, hstart, hend, String.ofList_toList]

end EventIngress.Text
