import EventIngress.Command.Send
import EventIngress.Proofs.Config.UnknownKeys
import EventIngress.Proofs.Files.Limits
import EventIngress.Proofs.Json.Values
import EventIngress.Proofs.Routing.Renewals
import EventIngress.Proofs.Text.Blank

/-!
# The path of the routing document

The bounds look at the path without the blanks around it, but the path is used with them. So the
blanks count nowhere, and a path that is accepted may be beyond the limits where it is used.

Results:

* `RoutingSettings.path_of_check`: what the bounds say of the path.
* `withinLimits_around`: when a path is within the limits with the blanks around it.
* `IngressConfig.accepted_path_limits`: how far a path that is accepted obeys the limits.
-/

namespace EventIngress

/-! ## Paths within their bounds -/

theorem checkPath_eq_ok_iff (setting : String) {path : String} :
    checkPath setting path = .ok () ↔ Text.trim path ≠ "" ∧ WithinLimits (Text.trim path) := by
  rw [← pathFault?_eq_none_iff]
  simp only [checkPath]
  split
  · rename_i hempty
    simp [hempty]
  · rename_i hempty
    cases hfault : pathFault? (Text.trim path) with
    | none => simp [hempty]
    | some fault => cases fault <;> simp

/-- The blanks around a path do not count. -/
theorem checkPath_trim (setting path : String) :
    checkPath setting (Text.trim path) = checkPath setting path := by
  rw [checkPath, checkPath, Text.trim_trim]

theorem RoutingSettings.check_trim (s : RoutingSettings) :
    check { s with path := Text.trim s.path } = s.check := by
  rw [check, check, checkPath_trim]

/-- What the bounds of the settings say of the path. -/
theorem RoutingSettings.path_of_check {s : RoutingSettings} (h : s.check = .ok ()) :
    Text.trim s.path ≠ "" ∧ WithinLimits (Text.trim s.path) := by
  rw [← checkPath_eq_ok_iff "routing.path"]
  cases hpath : checkPath "routing.path" s.path with
  | error fault => simp [check, hpath, bind, Except.bind] at h
  | ok => rfl

/-- What is read within the bounds is accepted. -/
theorem IngressConfig.ofToml_eq_ok {text : String} {config : IngressConfig}
    (hread : ((Toml.parse text).bind fun members => (decode members).toOption) = some config)
    (hcheck : config.check = .ok ()) : ofToml text = .ok config := by
  obtain ⟨members, hparse, hdecode⟩ := Option.bind_eq_some_iff.1 hread
  rw [ofToml, hparse]
  dsimp only
  rw [eq_ok_of_toOption hdecode]
  dsimp only
  rw [hcheck]
  rfl

theorem IngressConfig.check_of_ofToml {text : String} {config : IngressConfig}
    (h : ofToml text = .ok config) : config.check = .ok () := by
  unfold ofToml at h
  split at h
  · cases h
  · split at h
    · cases h
    · rename_i found hdecode
      cases hcheck : found.check with
      | error fault =>
        rw [hcheck] at h
        cases h
      | ok =>
        rw [hcheck] at h
        cases h
        exact hcheck

theorem IngressConfig.routing_of_check {config : IngressConfig} (h : config.check = .ok ()) :
    config.routing.check = .ok () := by
  cases hrouting : config.routing.check with
  | error fault => simp [check, hrouting, bind, Except.bind] at h
  | ok => rfl

/-! ## Blanks around paths -/

namespace Text

theorem slash_not_mem_of_allBlank {s : String} (h : allBlank s = true) : '/' ∉ s.toList :=
  fun hslash => absurd (List.all_eq_true.1 h '/' hslash) (by decide)

end Text

/-- With blanks around it, a path within the limits stays within them exactly if it is not too long
as a whole, and its first and its last part are not. -/
theorem withinLimits_around {front path back : String} (hfront : Text.allBlank front = true)
    (hback : Text.allBlank back = true) (h : WithinLimits path) :
    WithinLimits (front ++ path ++ back) ↔
      (front ++ path ++ back).utf8ByteSize ≤ maxPathLength ∧
        ∀ part, some part = (Text.fields '/' (front ++ path ++ back).toList).head? ∨
          some part = (Text.fields '/' (front ++ path ++ back).toList).getLast? →
            (String.ofList part).utf8ByteSize ≤ maxComponentLength := by
  constructor
  · rintro ⟨hlength, hparts⟩
    refine ⟨hlength, fun part hpart => hparts part ?_⟩
    rcases hpart with hpart | hpart
    · exact List.mem_of_head? hpart.symm
    · exact List.mem_of_getLast? hpart.symm
  · rintro ⟨hlength, hends⟩
    refine ⟨hlength, fun part hpart => ?_⟩
    rw [String.toList_append, String.toList_append] at hpart hends
    rcases Text.mem_fields_around (Text.slash_not_mem_of_allBlank hfront)
      (Text.slash_not_mem_of_allBlank hback) hpart with hfirst | hlast | hinner
    · exact hends part (.inl hfirst)
    · exact hends part (.inr hlast)
    · exact h.parts part hinner

/-- No table is opened at a path that leads nowhere. -/
theorem FileTable.openFile_of_locate {files : FileTree} {path : String} {limit : Nat}
    {fault : FileFault} (h : files.locate path = .error fault) :
    openFile files path limit = .error (.file fault) := by
  rw [openFile, RoutingDocument.load, FileTree.size, h]
  rfl

/-- A send opens the routing document at the path as it stands in the settings. -/
theorem SendPlan.path_of_make {files : FileTree} {env : Environment} {config : IngressConfig}
    {o : SendOptions} {plan : SendPlan} (h : SendPlan.make files env config o = .ok plan) :
    plan.relay.table.path = config.routing.path := by
  obtain ⟨_, -, h⟩ := Json.bind_eq_ok h
  obtain ⟨_, -, h⟩ := Json.bind_eq_ok h
  obtain ⟨_, -, h⟩ := Json.bind_eq_ok h
  obtain ⟨table, htable, h⟩ := Json.bind_eq_ok h
  obtain ⟨_, -, h⟩ := Json.bind_eq_ok h
  cases h
  cases hopen : FileTable.openFile files config.routing.path config.routing.maxBytes with
  | error fault =>
    rw [hopen] at htable
    cases htable
  | ok opened =>
    rw [hopen] at htable
    cases htable
    exact (FileTable.openFile_eq_ok hopen).2.1

namespace IngressConfig

/-! ## Accepted paths -/

/-- The path of accepted settings is used as it stands there. It is not blank, and without the
blanks around it it is within the limits. With them it is so exactly if it is not too long as a
whole, and what stands before its first slash and behind its last one is not. -/
theorem accepted_path_limits {text : String} {config : IngressConfig}
    (h : ofToml text = .ok config) :
    (∀ files env o plan, SendPlan.make files env config o = .ok plan →
      plan.relay.table.path = config.routing.path) ∧
    Text.allBlank config.routing.path = false ∧
    WithinLimits (Text.trim config.routing.path) ∧
    (∃ front back, config.routing.path = front ++ Text.trim config.routing.path ++ back ∧
      Text.allBlank front = true ∧ Text.allBlank back = true) ∧
    (WithinLimits config.routing.path ↔
      config.routing.path.utf8ByteSize ≤ maxPathLength ∧
        ∀ part, some part = (Text.fields '/' config.routing.path.toList).head? ∨
          some part = (Text.fields '/' config.routing.path.toList).getLast? →
            (String.ofList part).utf8ByteSize ≤ maxComponentLength) := by
  obtain ⟨hne, hlimits⟩ := RoutingSettings.path_of_check (routing_of_check (check_of_ofToml h))
  obtain ⟨front, back, hpath, hfront, hback⟩ := Text.exists_around_trim config.routing.path
  have hblank : Text.allBlank config.routing.path = false := by
    rw [Bool.eq_false_iff]
    exact fun hblank => hne (Text.trim_of_allBlank hblank)
  refine ⟨fun files env o plan => SendPlan.path_of_make, hblank, hlimits,
    ⟨front, back, hpath, hfront, hback⟩, ?_⟩
  have haround := withinLimits_around hfront hback hlimits
  rwa [← hpath] at haround

/-- A text with blanks around the path. -/
def spacedPath : String :=
  "[routing]\npath = ' conf/targets.json '\n"

theorem accepted_path_limits_spaced :
    ofToml spacedPath = .ok { routing := { path := " conf/targets.json " } } ∧
      WithinLimits " conf/targets.json " := by
  have hread : (ofToml spacedPath).toOption =
      some { routing := { path := " conf/targets.json " } } := by
    decide +kernel
  have haccepted := eq_ok_of_toOption hread
  refine ⟨haccepted, (accepted_path_limits haccepted).2.2.2.2.2 ⟨by decide +kernel, ?_⟩⟩
  have hends : (Text.fields '/' " conf/targets.json ".toList).head? = some " conf".toList ∧
      (Text.fields '/' " conf/targets.json ".toList).getLast? = some "targets.json ".toList := by
    decide +kernel
  rintro part (hpart | hpart)
  · rw [show part = _ from Option.some.inj (hpart.trans hends.1)]
    decide +kernel
  · rw [show part = _ from Option.some.inj (hpart.trans hends.2)]
    decide +kernel

/-- A path with as many blanks behind it as a name may be long. -/
def paddedPath : String :=
  String.ofList ('a' :: List.replicate maxComponentLength ' ')

theorem toList_paddedPath : paddedPath.toList = 'a' :: List.replicate maxComponentLength ' ' :=
  String.toList_ofList

/-- Such a path is accepted, and is then too long a name for every directory. -/
theorem accepted_path_beyond_limits :
    ofToml ("[routing]\npath = '" ++ paddedPath ++ "'\n") =
        .ok { routing := { path := paddedPath } } ∧
      ¬ WithinLimits paddedPath ∧
      ∀ files limit, FileTable.openFile files paddedPath limit = .error (.file .nameTooLong) := by
  have htrim : Text.trim paddedPath = "a" := by
    rw [Text.trim, toList_paddedPath]
    decide +kernel
  have hslash : '/' ∉ paddedPath.toList := by
    rw [toList_paddedPath]
    decide +kernel
  have hzero : '\x00' ∉ paddedPath.toList := by
    rw [toList_paddedPath]
    decide +kernel
  have hlong : maxComponentLength < paddedPath.utf8ByteSize := by decide +kernel
  refine ⟨ofToml_eq_ok ?_ ?_, fun hlimits => ?_, fun files limit => ?_⟩
  -- The text is read character by character: a kernel is slow in turning texts into characters.
  · rw [Toml.parse, String.toList_append, String.toList_append, toList_paddedPath]
    decide +kernel
  · rw [check, ← RoutingSettings.check_trim, htrim]
    decide +kernel
  · have hpart := hlimits.parts paddedPath.toList
    rw [Text.fields_of_not_mem hslash, String.ofList_toList] at hpart
    exact absurd (hpart (List.mem_singleton_self _)) (Nat.not_le.2 hlong)
  · exact FileTable.openFile_of_locate (FileTree.locate_long_name hslash hzero hlong files)

end IngressConfig

end EventIngress
