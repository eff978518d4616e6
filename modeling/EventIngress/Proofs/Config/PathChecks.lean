import EventIngress.Config.File
import EventIngress.Proofs.Config.Paths

/-!
# The checks of paths

Two paths are checked: the one of the file with the settings as it stands, and the one of the routing
document without the blanks around it. Both checks go through the names that the path leads through,
and both say exactly whether the path and all that stands between its slashes is short enough. Where
the path as a whole and a part of it are too long, the whole path is reported.

Results:

* `checkPath_eq_error_iff`, `checkFilePath_eq_error_iff`: which limits the checks report.
* `path_checks_exact`: what both checks say, in terms of the slashes and bytes of a path.
-/

namespace EventIngress

variable {setting path : String}

/-! ## Reports -/

/-- What the check of a setting reports for a limit that the path breaks. -/
def PathFault.ofSetting (setting : String) : PathFault → ConfigFault
  | tooLong => .invalid (setting ++ " exceeds max length")
  | componentTooLong => .invalid (setting ++ " path component too long")

/-- What the check of the path of the settings reports for a limit that the path breaks. -/
def PathFault.ofFile : PathFault → ConfigFault
  | tooLong => .invalid "config path exceeds max length"
  | componentTooLong => .invalid "config path component too long"

theorem checkPath_eq_empty_iff :
    checkPath setting path = .error (.invalid (setting ++ " must be non-empty")) ↔
      Text.trim path = "" := by
  unfold checkPath
  by_cases hempty : Text.trim path = ""
  · simp [hempty]
  · cases hfault : pathFault? (Text.trim path) with
    | none => simp [hempty, hfault]
    | some fault => cases fault <;> simp [hempty, hfault]

theorem checkPath_eq_error_iff (fault : PathFault) :
    checkPath setting path = .error (fault.ofSetting setting) ↔
      pathFault? (Text.trim path) = some fault := by
  unfold checkPath
  by_cases hempty : Text.trim path = ""
  · -- An empty path breaks no limit, so there are no two faults to choose from.
    have hnone : pathFault? "" = none := by decide
    cases fault <;> simp [hempty, hnone, PathFault.ofSetting]
  · cases hfault : pathFault? (Text.trim path) with
    | none => simp [hempty, hfault]
    | some found => cases found <;> cases fault <;> simp [hempty, hfault, PathFault.ofSetting]

namespace IngressConfig

theorem checkFilePath_eq_ok_iff : checkFilePath path = .ok () ↔ pathFault? path = none := by
  unfold checkFilePath
  cases pathFault? path with
  | none => simp
  | some found => cases found <;> simp

theorem checkFilePath_eq_error_iff (fault : PathFault) :
    checkFilePath path = .error fault.ofFile ↔ pathFault? path = some fault := by
  unfold checkFilePath
  cases pathFault? path with
  | none => simp
  | some found => cases found <;> cases fault <;> simp [PathFault.ofFile]

end IngressConfig

/-! ## Both checks -/

/-- The check of the path of the settings accepts exactly a path that is short enough and has no
segment that is too long. It reports the length of every path that is too long as a whole, and a
segment only of the others. The check of a path in the settings does the same with the path without
the blanks around it, which may not be empty. -/
theorem path_checks_exact :
    (∀ path,
      (IngressConfig.checkFilePath path = .ok () ↔ path.utf8ByteSize ≤ maxPathLength ∧
        ∀ segment, IsSegment path segment → segment.utf8ByteSize ≤ maxComponentLength) ∧
      (IngressConfig.checkFilePath path = .error (.invalid "config path exceeds max length") ↔
        maxPathLength < path.utf8ByteSize) ∧
      (IngressConfig.checkFilePath path = .error (.invalid "config path component too long") ↔
        path.utf8ByteSize ≤ maxPathLength ∧
          ∃ segment, IsSegment path segment ∧ maxComponentLength < segment.utf8ByteSize)) ∧
    ∀ setting path,
      (checkPath setting path = .ok () ↔ Text.trim path ≠ "" ∧
        (Text.trim path).utf8ByteSize ≤ maxPathLength ∧
          ∀ segment, IsSegment (Text.trim path) segment →
            segment.utf8ByteSize ≤ maxComponentLength) ∧
      (checkPath setting path = .error (.invalid (setting ++ " must be non-empty")) ↔
        Text.trim path = "") ∧
      (checkPath setting path = .error (.invalid (setting ++ " exceeds max length")) ↔
        maxPathLength < (Text.trim path).utf8ByteSize) ∧
      (checkPath setting path = .error (.invalid (setting ++ " path component too long")) ↔
        (Text.trim path).utf8ByteSize ≤ maxPathLength ∧
          ∃ segment, IsSegment (Text.trim path) segment ∧
            maxComponentLength < segment.utf8ByteSize) := by
  constructor
  · intro path
    refine ⟨?_, ?_, ?_⟩
    · rw [IngressConfig.checkFilePath_eq_ok_iff, pathFault?_eq_none_iff, withinLimits_iff]
    · rw [← pathFault?_eq_tooLong_iff]
      exact IngressConfig.checkFilePath_eq_error_iff .tooLong
    · rw [← pathFault?_eq_componentTooLong_iff]
      exact IngressConfig.checkFilePath_eq_error_iff .componentTooLong
  · intro setting path
    refine ⟨?_, checkPath_eq_empty_iff, ?_, ?_⟩
    · rw [checkPath_eq_ok_iff, withinLimits_iff]
    · rw [← pathFault?_eq_tooLong_iff]
      exact checkPath_eq_error_iff .tooLong
    · rw [← pathFault?_eq_componentTooLong_iff]
      exact checkPath_eq_error_iff .componentTooLong

end EventIngress
