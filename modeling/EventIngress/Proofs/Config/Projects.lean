import EventIngress.Config.Bounds
import EventIngress.Config.Resolve
import EventIngress.Proofs.Text.Blank
import EventIngress.Proofs.Transport.Factories

/-!
# Projects of resolved settings

A factory made from resolved settings names a bare topic by the project of the settings, else by that
of the environment. The service reads such a name as a topic of that project exactly if the project
obeys the naming rule of projects.

The settings do not see to that. They bound the length of a project of their own and keep slashes out
of it, but let other characters in, and of a project from the environment they ask nothing: it may
even have slashes, and the name is then no name of a topic.

Results:

* `PubSubSettings.project_of_check`: what the bounds say of a project.
* `TopicId.parse_qualifiedText_iff`: when the name of a project and a bare topic is read back.
* `PubSubSettings.opened_name_of_project`: which project an opened topic is named by, and when the
  name is one.
-/

namespace EventIngress

namespace TopicId

/-- The name of a bare topic in a project is read exactly if the project obeys its naming rule. -/
theorem parse_qualifiedText_iff {p n : String} (hn : IsName n) :
    (∃ u, parse (qualifiedText p n) = .ok u) ↔ IsProject p := by
  constructor
  · rintro ⟨u, hu⟩
    rw [parse_eq_ok_iff] at hu
    have hname : u.name = n := by
      rw [(parts_eq_in_text u).2, hu, nameIn_qualifiedText p hn.no_slash]
    cases hproject : u.project with
    | none =>
      rw [text_of_bare hproject] at hu
      have hslash : '/' ∈ (qualifiedText p n).toList := by
        rw [toList_qualifiedText]
        simp [projectsSegment]
      exact absurd (hu ▸ hslash) (isName_name u).no_slash
    | some q =>
      -- Both sides end in the same name, so what stands in front of it is the same, too.
      rw [text_of_qualified hproject, hname, ← String.toList_inj, toList_qualifiedText,
        toList_qualifiedText] at hu
      have hq : q.toList = p.toList := by
        simpa using hu
      rw [String.toList_inj] at hq
      exact hq ▸ isProject_project hproject
  · intro hp
    obtain ⟨u, hu, -⟩ := parse_eq_of_parts hp hn
    exact ⟨u, hu⟩

end TopicId

namespace PubSubSettings

/-! ## Projects of settings -/

theorem checkProject_eq_ok_iff {project : String} :
    checkProject project = .ok () ↔
      Text.trim project ≠ "" ∧ (Text.trim project).utf8ByteSize ≤ maxProjectLength ∧
        '/' ∉ (Text.trim project).toList := by
  simp only [checkProject]
  split
  · rename_i hlength
    simp only [reduceCtorEq, false_iff]
    rintro ⟨hne, hle, -⟩
    rcases hlength with hempty | hlong
    · exact hne hempty
    · omega
  · rename_i hlength
    rw [not_or, Nat.not_lt] at hlength
    split
    · rename_i hslash
      simp only [reduceCtorEq, false_iff]
      exact fun h => h.2.2 (by simpa using hslash)
    · rename_i hslash
      exact ⟨fun _ => ⟨hlength.1, hlength.2, by simpa using hslash⟩, fun _ => rfl⟩

/-- What the bounds of the settings say of their project. -/
theorem project_of_check {s : PubSubSettings} {project : String} (h : s.check = .ok ())
    (hproject : s.project = some project) :
    Text.trim project ≠ "" ∧ (Text.trim project).utf8ByteSize ≤ maxProjectLength ∧
      '/' ∉ (Text.trim project).toList := by
  rw [← checkProject_eq_ok_iff]
  cases hendpoint : checkEndpoint s.endpoint with
  | error fault => simp [check, hendpoint, bind, Except.bind] at h
  | ok =>
    cases hcheck : checkProject project with
    | error fault => simp [check, hendpoint, hproject, hcheck, bind, Except.bind] at h
    | ok => rfl

/-- Where the endpoint and the project of resolved settings come from. -/
theorem eq_of_resolve {s : PubSubSettings} {env : Environment} {config : PubSubConfig}
    (h : s.resolve env = .ok config) :
    config.endpoint = PubSubFactory.trimSlashes s.endpoint ∧
      config.project = s.resolveProject env := by
  rw [resolve] at h
  cases htoken : s.resolveToken env with
  | error fault =>
    rw [htoken] at h
    cases h
  | ok token =>
    rw [htoken] at h
    cases h
    exact ⟨rfl, rfl⟩

/-- A resolved project has no blanks at its ends and is not empty. It is that of the settings, and
that of the environment if the settings have none. -/
theorem resolveProject_eq_some {s : PubSubSettings} {env : Environment} {p : String}
    (h : s.resolveProject env = some p) :
    p ≠ "" ∧ Text.trim p = p ∧ (∀ given, s.project = some given → p = Text.trim given) ∧
      (s.project = none → ∃ value, env.find? projectVariable = some value ∧ p = Text.trim value) := by
  obtain ⟨h, hne⟩ := Option.filter_eq_some_iff.1 h
  obtain ⟨value, hvalue, rfl⟩ := Option.map_eq_some_iff.1 h
  refine ⟨by simpa using hne, Text.trim_trim value, ?_, ?_⟩
  · intro given hgiven
    rw [hgiven] at hvalue
    cases hvalue
    rfl
  · intro hnone
    rw [hnone] at hvalue
    exact ⟨value, hvalue, rfl⟩

/-! ## The names of opened topics -/

/-- When settings within their bounds are resolved, and the factory made from them opens a bare
topic, the topic is named by a project that is not empty and has no blanks at its ends. If the
settings have a project it is that one, and it has at most 30 bytes and no slash; otherwise it is
that of the environment. The name is read back exactly if the project obeys the naming rule of
projects, and then as the topic of that project with the name that was asked for. -/
theorem opened_name_of_project {s : PubSubSettings} {env : Environment} {config : PubSubConfig}
    {f : PubSubFactory} {t : TopicId} {handle : PubSubHandle} (hcheck : s.check = .ok ())
    (hresolve : s.resolve env = .ok config) (hmake : PubSubFactory.make config = .ok f)
    (ht : t.project = none) (hopen : f.openTopic t = .ok handle) :
    ∃ p, config.project = some p ∧ f.resourceName t = .ok (TopicId.qualifiedText p t.name) ∧
      handle.url = f.publishUrl (TopicId.qualifiedText p t.name) ∧
      p ≠ "" ∧ Text.trim p = p ∧
      (∀ given, s.project = some given →
        p = Text.trim given ∧ p.utf8ByteSize ≤ maxProjectLength ∧ '/' ∉ p.toList) ∧
      (s.project = none → ∃ value, env.find? projectVariable = some value ∧ p = Text.trim value) ∧
      ((∃ u, TopicId.parse (TopicId.qualifiedText p t.name) = .ok u) ↔ TopicId.IsProject p) ∧
      (TopicId.IsProject p → ∃ u, TopicId.parse (TopicId.qualifiedText p t.name) = .ok u ∧
        u.isQualified = true ∧ u.project = some p ∧ u.name = t.name) := by
  obtain ⟨p, hfactory, hname, hurl⟩ := PubSubFactory.openTopic_of_bare ht hopen
  have hconfig : config.project = some p := by
    rw [← (PubSubFactory.eq_of_make hmake).2.2, hfactory]
  have hresolved : s.resolveProject env = some p := by
    rw [← (eq_of_resolve hresolve).2, hconfig]
  obtain ⟨hne, htrim, hgiven, henv⟩ := resolveProject_eq_some hresolved
  refine ⟨p, hconfig, hname, hurl, hne, htrim, ?_, henv,
    TopicId.parse_qualifiedText_iff (TopicId.isName_name t), ?_⟩
  · intro given hproject
    obtain ⟨-, hlength, hslash⟩ := project_of_check hcheck hproject
    rw [← hgiven given hproject] at hlength hslash
    exact ⟨hgiven given hproject, hlength, hslash⟩
  · intro hp
    obtain ⟨u, hu, hproject, hu'⟩ := TopicId.parse_eq_of_parts hp (TopicId.isName_name t)
    exact ⟨u, hu, by rw [TopicId.isQualified, hproject]; rfl, hproject, hu'⟩

/-- The topic `orders` without a project. -/
def orders : TopicId :=
  .bare "orders" (by decide)

theorem opened_name_of_project_padded :
    ∃ config f handle, (check { project := some " shop:eu " } = .ok () ∧
        resolve { project := some " shop:eu " } .empty = .ok config ∧
        PubSubFactory.make config = .ok f ∧ orders.project = none ∧
        f.openTopic orders = .ok handle) ∧
      f.resourceName orders = .ok "projects/shop:eu/topics/orders" ∧
      ∃ u, TopicId.parse "projects/shop:eu/topics/orders" = .ok u ∧ u.isQualified = true ∧
        u.project = some "shop:eu" ∧ u.name = "orders" := by
  have hcheck : check { project := some " shop:eu " } = .ok () := rfl
  have hresolve : resolve { project := some " shop:eu " } .empty =
      .ok { project := some "shop:eu" } := rfl
  have hp : TopicId.IsProject "shop:eu" := TopicId.projectFault?_eq_none_iff.1 (by decide)
  obtain ⟨p, hproject, hname, -, -, -, -, -, -, hread⟩ :=
    opened_name_of_project (t := orders) hcheck hresolve rfl rfl rfl
  cases hproject
  exact ⟨_, _, _, ⟨hcheck, hresolve, rfl, rfl, rfl⟩, hname, hread hp⟩

/-- The name of an opened topic may be that of no topic: a project from the environment may have
slashes, and one of the settings capital letters and blanks between them. -/
theorem opened_name_unreadable :
    (∃ config f handle, check {} = .ok () ∧
        resolve {} (.ofList [(projectVariable, "shop/eu")]) = .ok config ∧
        PubSubFactory.make config = .ok f ∧ orders.project = none ∧
        f.openTopic orders = .ok handle ∧
        f.resourceName orders = .ok "projects/shop/eu/topics/orders" ∧
        TopicId.parse "projects/shop/eu/topics/orders" =
          .error (.malformed "projects/shop/eu/topics/orders")) ∧
      ∃ config f handle, check { project := some "My Shop" } = .ok () ∧
        resolve { project := some "My Shop" } .empty = .ok config ∧
        PubSubFactory.make config = .ok f ∧ orders.project = none ∧
        f.openTopic orders = .ok handle ∧
        f.resourceName orders = .ok "projects/My Shop/topics/orders" ∧
        TopicId.parse "projects/My Shop/topics/orders" = .error (.invalidProject "My Shop") :=
  ⟨⟨_, _, _, rfl, rfl, rfl, rfl, rfl, rfl, rfl⟩, ⟨_, _, _, rfl, rfl, rfl, rfl, rfl, rfl, rfl⟩⟩

end PubSubSettings

end EventIngress
