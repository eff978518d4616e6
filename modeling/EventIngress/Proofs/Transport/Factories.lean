import EventIngress.Proofs.Topic.Grammar
import EventIngress.Transport.PubSub

/-!
# Factories for publishing over HTTP

A factory takes the endpoint of its settings without the slashes at its end, and names a topic by
its own text, or by the project of the factory where the topic has none.

Results:

* `PubSubFactory.exists_slashes`, `PubSubFactory.trimSlashes_eq`: which slashes are cut off.
* `PubSubFactory.eq_of_make`: what a factory takes from its settings.
* `PubSubFactory.openTopic_of_make`, `PubSubFactory.openTopic_of_bare`: opened topics.
-/

namespace EventIngress.PubSubFactory

/-! ## Slashes at the end -/

theorem toList_trimSlashes (s : String) :
    (trimSlashes s).toList = s.toList.rdropWhile (· == '/') :=
  String.toList_ofList

theorem getLast?_trimSlashes (s : String) : (trimSlashes s).toList.getLast? ≠ some '/' := by
  rw [toList_trimSlashes]
  intro hlast
  obtain ⟨hne, hlast⟩ := List.mem_getLast?_eq_getLast hlast
  exact List.rdropWhile_last_not _ _ hne (by simp [← hlast])

/-- Only slashes are cut off. -/
theorem exists_slashes (s : String) :
    ∃ n, s.toList = (trimSlashes s).toList ++ List.replicate n '/' := by
  have hslashes : s.toList.rtakeWhile (· == '/') =
      List.replicate (s.toList.rtakeWhile (· == '/')).length '/' :=
    List.eq_replicate_iff.2 ⟨rfl, fun c hc => by simpa using List.mem_rtakeWhile_imp hc⟩
  refine ⟨(s.toList.rtakeWhile (· == '/')).length, ?_⟩
  rw [toList_trimSlashes, ← hslashes, List.rdropWhile_append_rtakeWhile]

/-- All slashes are cut off. -/
theorem trimSlashes_eq {s t : String} {n : Nat}
    (hs : s.toList = t.toList ++ List.replicate n '/') (ht : t.toList.getLast? ≠ some '/') :
    trimSlashes s = t := by
  rw [← String.toList_inj, toList_trimSlashes, hs]
  clear hs
  induction n with
  | zero =>
    rw [List.replicate_zero, List.append_nil, List.rdropWhile_eq_self_iff]
    intro hne hlast
    rw [beq_iff_eq] at hlast
    exact ht (by rw [List.getLast?_eq_some_getLast hne, hlast])
  | succ n ih =>
    rw [List.replicate_succ', ← List.append_assoc, List.rdropWhile_concat_pos _ _ _ (by simp), ih]

theorem trimSlashes_eq_self {s : String} (h : s.toList.getLast? ≠ some '/') : trimSlashes s = s :=
  trimSlashes_eq (n := 0) (List.append_nil _).symm h

/-- If something is left, nothing is cut off in front of it. -/
theorem trimSlashes_append {s : String} (h : trimSlashes s ≠ "") (front : String) :
    trimSlashes (front ++ s) = front ++ trimSlashes s := by
  obtain ⟨n, hs⟩ := exists_slashes s
  have hne : (trimSlashes s).toList ≠ [] := by simpa using h
  refine trimSlashes_eq (n := n) ?_ ?_
  · rw [String.toList_append, String.toList_append, List.append_assoc, ← hs]
  · rw [String.toList_append, List.getLast?_append_of_ne_nil _ hne]
    exact getLast?_trimSlashes s

/-! ## Factories and what they open -/

variable {config : PubSubConfig} {f : PubSubFactory} {t : TopicId}

/-- A factory has the endpoint of its settings, which is a URL, without slashes at its end, and
their project. -/
theorem eq_of_make (h : make config = .ok f) :
    (∃ url, Url.parse config.endpoint = .ok url) ∧ f.endpoint = trimSlashes config.endpoint ∧
      f.project = config.project := by
  rw [make] at h
  split at h
  · cases h
  · rename_i url hurl
    split at h
    · cases h
    · cases h
      exact ⟨⟨url, hurl⟩, rfl, rfl⟩

/-- A handle uses an endpoint without slashes at its end as it is. -/
theorem openTopic_of_make (hmake : make config = .ok f)
    (hlast : config.endpoint.toList.getLast? ≠ some '/') (t : TopicId) :
    f.openTopic t = (f.resourceName t).map fun resource =>
      { topic := t, url := config.endpoint ++ "/v1/" ++ resource ++ ":publish",
        authorization := f.authorization } := by
  have hendpoint : f.endpoint = config.endpoint :=
    (eq_of_make hmake).2.1.trans (trimSlashes_eq_self hlast)
  rw [openTopic]
  simp only [publishUrl, hendpoint]

/-- A qualified topic is opened by its own text. -/
theorem resourceName_of_qualified (f : PubSubFactory) {p : String} (hp : t.project = some p) :
    f.resourceName t = .ok (TopicId.qualifiedText p t.name) := by
  have hqualified : t.isQualified = true := by
    rw [TopicId.isQualified, hp]
    rfl
  rw [resourceName, if_pos hqualified, TopicId.text_of_qualified hp]

/-- A bare topic is opened by the name that the project of the factory gives it. -/
theorem openTopic_of_bare {handle : PubSubHandle} (ht : t.project = none)
    (h : f.openTopic t = .ok handle) :
    ∃ p, f.project = some p ∧ f.resourceName t = .ok (TopicId.qualifiedText p t.name) ∧
      handle.url = f.publishUrl (TopicId.qualifiedText p t.name) := by
  have hbare : t.isQualified = false := by
    rw [TopicId.isQualified, ht]
    rfl
  rw [openTopic, resourceName, hbare, if_neg Bool.false_ne_true] at h
  cases hproject : f.project with
  | none =>
    rw [hproject] at h
    cases h
  | some p =>
    rw [hproject] at h
    cases h
    refine ⟨p, rfl, ?_, rfl⟩
    rw [resourceName, hbare, if_neg Bool.false_ne_true, hproject]
    rfl

end EventIngress.PubSubFactory
