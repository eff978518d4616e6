import EventIngress.Proofs.Transport.Factories
import EventIngress.Proofs.Url.Paths

/-!
# Addresses of topics

Publishing over HTTP names a topic in the path of the request. The path is put together from the
texts of the endpoint and of the topic, and then read as part of a URL, which resolves dot segments
away. All characters of topics are kept, and a topic name can be no dot segment. But a project can
be one, and then the path is not the one that was put together. Still no two topics share a path.

Results:

* `TopicId.requestPath`: the path of the requests for a topic.
* `TopicId.requestPath_injective`: different topics have different paths.
* `PubSubFactory.publish_target`: what a publish on a qualified topic asks the host for.
-/

namespace EventIngress

open Url (slashed resolve isDot isTwoDots IsPlain)

namespace TopicId

variable {p n : String}

/-! ## Plain characters -/

theorem isPlain_of_mark {c : Char} (h : c ∈ "-_.~+%:".toList) : IsPlain c :=
  of_decide_eq_true (List.all_eq_true.1 (show "-_.~+%:".toList.all (IsPlain ·) = true from rfl) c h)

theorem IsName.plain (h : IsName n) : ∀ c ∈ n.toList, IsPlain c := by
  intro c hc
  rcases h.chars c hc with hc | hc
  · exact Url.isPlain_of_alphanum hc
  · exact isPlain_of_mark ((by decide : "-_.~+%".toList ⊆ "-_.~+%:".toList) hc)

theorem IsProject.plain (h : IsProject p) : ∀ c ∈ p.toList, IsPlain c := by
  intro c hc
  rcases h.chars c hc with hc | hc | hc
  · exact Url.isPlain_of_alphanum (by simp [Char.isAlphanum, Char.isAlpha, hc])
  · exact Url.isPlain_of_alphanum (by simp [Char.isAlphanum, hc])
  · exact isPlain_of_mark ((by decide : "-.:".toList ⊆ "-_.~+%:".toList) hc)

/-! ## Dot segments -/

/-- What has more than six characters is no dot segment, in whatever way its dots are written. -/
theorem no_dots_of_length {s : List Char} (h : 6 < s.length) :
    isTwoDots s = false ∧ isDot s = false := by
  have hne (w : List Char) (hw : w.length ≤ 6) : s.map Char.toLower ≠ w := by
    intro heq
    have hlength := congrArg List.length heq
    rw [List.length_map] at hlength
    omega
  have hdot : s ≠ ['.'] := by
    rintro rfl
    exact absurd h (by decide)
  constructor
  · simp only [isTwoDots, List.contains_eq_mem, List.mem_cons, List.not_mem_nil, or_false,
      decide_eq_false_iff_not, not_or]
    exact ⟨hne _ (by decide), hne _ (by decide), hne _ (by decide), hne _ (by decide)⟩
  · simp only [isDot, Bool.or_eq_false_iff, beq_eq_false_iff_ne]
    exact ⟨hdot, hne _ (by decide)⟩

theorem IsProject.map_toLower (h : IsProject p) : p.toList.map Char.toLower = p.toList := by
  refine (List.map_congr_left fun c hc => ?_).trans (List.map_id' _)
  refine Char.toLower_eq_of_not_isUpper fun hupper => ?_
  rcases h.chars c hc with hc | hc | hc
  · exact Char.not_isUpper_of_isLower hc hupper
  · obtain ⟨-, hhigh⟩ := Char.isDigit_iff_toNat.1 hc
    rw [Char.isUpper, decide_eq_true_eq, ge_iff_le, UInt32.le_iff_toNat_le] at hupper
    exact absurd (Nat.le_trans hupper.1 hhigh) (by decide)
  · have hall : "-.:".toList.all (fun d => !d.isUpper) = true := rfl
    simpa [hupper] using List.all_eq_true.1 hall c hc

/-- A project has no percent signs, so it is a dot segment only as it stands. -/
theorem IsProject.no_dots (h : IsProject p) (hdot : p ≠ ".") (htwo : p ≠ "..") :
    isTwoDots p.toList = false ∧ isDot p.toList = false := by
  have hpercent : '%' ∉ p.toList := by
    intro hc
    have hchar := h.chars '%' hc
    revert hchar
    decide
  have hne (w : List Char) (hw : '%' ∈ w) : p.toList ≠ w := by
    rintro rfl
    exact hpercent hw
  rw [Ne, ← String.toList_inj] at hdot htwo
  constructor
  · simp only [isTwoDots, h.map_toLower, List.contains_eq_mem, List.mem_cons, List.not_mem_nil,
      or_false, decide_eq_false_iff_not, not_or]
    exact ⟨htwo, hne _ (by decide), hne _ (by decide), hne _ (by decide)⟩
  · simp only [isDot, h.map_toLower, Bool.or_eq_false_iff, beq_eq_false_iff_ne]
    exact ⟨hdot, hne _ (by decide)⟩

/-! ## Paths -/

/-- The last segment of the path: the topic and what is done with it. -/
def lastSegment (n : String) : List Char :=
  n.toList ++ ":publish".toList

/-- The segments that a path is put together from. -/
def pathSegments (p n : String) : List (List Char) :=
  ["v1".toList, "projects".toList, p.toList, "topics".toList, lastSegment n]

/-- The segments of the path that is asked for. A project that is one dot is lost; two dots take the
segment in front of them away, too. -/
def requestSegments (p n : String) : List (List Char) :=
  if p = "." then ["v1".toList, "projects".toList, "topics".toList, lastSegment n]
  else if p = ".." then ["v1".toList, "topics".toList, lastSegment n]
  else pathSegments p n

/-- The path of the requests for a topic. -/
def requestPath (p n : String) : String :=
  if p = "." then "/v1/projects/topics/" ++ n ++ ":publish"
  else if p = ".." then "/v1/topics/" ++ n ++ ":publish"
  else "/v1/projects/" ++ p ++ "/topics/" ++ n ++ ":publish"

theorem toList_publishPath (p n : String) :
    ("/v1/projects/" ++ p ++ "/topics/" ++ n ++ ":publish").toList =
      slashed (pathSegments p n) := by
  simp [pathSegments, lastSegment, slashed]

theorem toList_requestPath (p n : String) :
    (requestPath p n).toList = slashed (requestSegments p n) := by
  rw [requestPath, requestSegments]
  split
  · simp [lastSegment, slashed]
  · split
    · simp [lastSegment, slashed]
    · exact toList_publishPath p n

theorem plain_pathSegments (hp : IsProject p) (hn : IsName n) :
    ∀ s ∈ pathSegments p n, ∀ c ∈ s, IsPlain c := by
  have hword {w : List Char} (hw : w.all (IsPlain ·) = true) : ∀ c ∈ w, IsPlain c := fun c hc =>
    of_decide_eq_true (List.all_eq_true.1 hw c hc)
  simp only [pathSegments, List.forall_mem_cons]
  refine ⟨hword rfl, hword rfl, hp.plain, hword rfl, ?_, by rintro s ⟨⟩⟩
  rw [lastSegment, List.forall_mem_append]
  exact ⟨hn.plain, hword rfl⟩

/-- Dot segments are resolved away. -/
theorem resolve_pathSegments (hp : IsProject p) (hn : IsName n) :
    resolve [] (pathSegments p n) = requestSegments p n := by
  have hlast : isTwoDots (lastSegment n) = false ∧ isDot (lastSegment n) = false := by
    refine no_dots_of_length ?_
    have hlength := hn.length
    rw [lastSegment, List.length_append]
    show 6 < _ + 8
    omega
  have hrest (done : List (List Char)) :
      resolve done [lastSegment n] = done.reverse ++ [lastSegment n] :=
    Url.resolve_of_no_dots (by simpa using hlast) done
  -- Where the project is a dot segment, all segments but the last are known, and computing resolves
  -- them.
  rw [requestSegments]
  split
  · rename_i hdot
    subst hdot
    exact hrest ["topics".toList, "projects".toList, "v1".toList]
  · rename_i hdot
    split
    · rename_i htwo
      subst htwo
      exact hrest ["topics".toList, "v1".toList]
    · rename_i htwo
      refine Url.resolve_of_no_dots ?_ []
      simp only [pathSegments, List.forall_mem_cons]
      exact ⟨⟨rfl, rfl⟩, ⟨rfl, rfl⟩, hp.no_dots hdot htwo, ⟨rfl, rfl⟩, hlast, by rintro s ⟨⟩⟩

theorem no_slash_pathSegments (hp : IsProject p) (hn : IsName n) :
    ∀ s ∈ pathSegments p n, '/' ∉ s := fun s hs => Url.slash_not_mem_of_plain (plain_pathSegments hp hn s hs)

theorem requestSegments_subset (p n : String) : requestSegments p n ⊆ pathSegments p n := by
  rw [requestSegments]
  split
  · simp [pathSegments]
  · split
    · simp [pathSegments]
    · exact List.Subset.refl _

theorem lastSegment_injective {n n' : String} (h : lastSegment n = lastSegment n') : n = n' :=
  String.toList_inj.1 (List.append_cancel_right h)

theorem length_requestSegments (p n : String) :
    (requestSegments p n).length = if p = "." then 4 else if p = ".." then 3 else 5 := by
  rw [requestSegments]
  split_ifs <;> rfl

/-- The number of segments tells whether the project is a dot segment, and which one. -/
theorem requestSegments_injective {p p' n n' : String}
    (h : requestSegments p n = requestSegments p' n') : p = p' ∧ n = n' := by
  have hlength := congrArg List.length h
  rw [length_requestSegments, length_requestSegments] at hlength
  have hdot : p = "." ↔ p' = "." := by grind
  have htwo : p = ".." ↔ p' = ".." := by grind
  rw [requestSegments, requestSegments] at h
  by_cases hp : p = "."
  · rw [if_pos hp, if_pos (hdot.1 hp)] at h
    exact ⟨hp.trans (hdot.1 hp).symm, lastSegment_injective (by simpa using h)⟩
  rw [if_neg hp, if_neg (mt hdot.2 hp)] at h
  by_cases hp' : p = ".."
  · rw [if_pos hp', if_pos (htwo.1 hp')] at h
    exact ⟨hp'.trans (htwo.1 hp').symm, lastSegment_injective (by simpa using h)⟩
  rw [if_neg hp', if_neg (mt htwo.2 hp'), pathSegments, pathSegments] at h
  simp only [List.cons.injEq, true_and, and_true] at h
  exact ⟨String.toList_inj.1 h.1, lastSegment_injective h.2⟩

/-- Different topics have different paths. -/
theorem requestPath_injective {t t' : TopicId} {p p' : String} (hp : t.project = some p)
    (hp' : t'.project = some p') (h : requestPath p t.name = requestPath p' t'.name) : t = t' := by
  rw [← String.toList_inj, toList_requestPath, toList_requestPath] at h
  have hslash {t : TopicId} {p : String} (hp : t.project = some p) :
      ∀ s ∈ requestSegments p t.name, '/' ∉ s := fun s hs =>
    no_slash_pathSegments (isProject_project hp) (isName_name t) s (requestSegments_subset _ _ hs)
  obtain ⟨hproject, hname⟩ :=
    requestSegments_injective (Url.slashed_injective (hslash hp) (hslash hp') h)
  have htext : t.text = t'.text := by
    rw [text_of_qualified hp, text_of_qualified hp', hproject, hname]
  exact Except.ok.inj ((parse_text t).symm.trans (htext ▸ parse_text t'))

/-- The path is the one that was put together exactly if the project is no dot segment. -/
theorem requestPath_eq_iff (hp : IsProject p) (hn : IsName n) :
    requestPath p n = "/v1/projects/" ++ p ++ "/topics/" ++ n ++ ":publish" ↔
      p ≠ "." ∧ p ≠ ".." := by
  constructor
  · intro h
    rw [← String.toList_inj, toList_requestPath, toList_publishPath] at h
    have hsegments := Url.slashed_injective
      (fun s hs => no_slash_pathSegments hp hn s (requestSegments_subset p n hs))
      (no_slash_pathSegments hp hn) h
    have hlength := congrArg List.length hsegments
    rw [length_requestSegments] at hlength
    constructor
    · rintro rfl
      cases hlength
    · rintro rfl
      cases hlength
  · rintro ⟨hdot, htwo⟩
    rw [requestPath, if_neg hdot, if_neg htwo]

end TopicId

namespace PubSubFactory

section Origins

variable {config : PubSubConfig} {f : PubSubFactory} {scheme authority : List Char} {k : Nat}

/-- The URL of a qualified topic is the path of its segments behind the origin. -/
theorem publishUrl_of_origin (hmake : make config = .ok f)
    (horigin : Url.IsOrigin scheme authority)
    (hendpoint : config.endpoint.toList =
      Url.originText scheme authority ++ List.replicate k '/') (p n : String) :
    f.publishUrl (TopicId.qualifiedText p n) =
      String.ofList (Url.originText scheme authority ++ slashed (TopicId.pathSegments p n)) := by
  have hlast : (String.ofList (Url.originText scheme authority)).toList.getLast? ≠ some '/' := by
    rw [String.toList_ofList]
    exact horigin.getLast?_originText
  have hf : f.endpoint = String.ofList (Url.originText scheme authority) := by
    rw [(eq_of_make hmake).2.1]
    exact trimSlashes_eq (by rw [hendpoint, String.toList_ofList]) hlast
  rw [← String.toList_inj, String.toList_ofList, ← TopicId.toList_publishPath, publishUrl, hf,
    TopicId.qualifiedText]
  simp

/-- Where the endpoint is an origin, every qualified topic is opened, and the publishes on it ask
the host for the path of its own project and name, unless the project is `.` or `..`; then a shorter
path is asked for. No two qualified topics share a path. -/
theorem publish_target (hmake : make config = .ok f) (horigin : Url.IsOrigin scheme authority)
    (hendpoint : config.endpoint.toList =
      Url.originText scheme authority ++ List.replicate k '/') :
    (∀ (t : TopicId) p, t.project = some p → ∃ h, f.openTopic t = .ok h ∧
      (∀ m exchange, (h.publish m exchange).1.bind HttpRequest.target? =
        some (TopicId.requestPath p t.name)) ∧
      (TopicId.requestPath p t.name = "/v1/projects/" ++ p ++ "/topics/" ++ t.name ++ ":publish" ↔
        p ≠ "." ∧ p ≠ "..")) ∧
    ∀ (t t' : TopicId) p p', t.project = some p → t'.project = some p' →
      TopicId.requestPath p t.name = TopicId.requestPath p' t'.name → t = t' := by
  refine ⟨?_, fun t t' p p' => TopicId.requestPath_injective⟩
  intro t p hp
  have hproject := TopicId.isProject_project hp
  have hname := TopicId.isName_name t
  have hconfig : config.endpoint =
      String.ofList (Url.originText scheme authority ++ List.replicate k '/') := by
    rw [← String.toList_inj, hendpoint, String.toList_ofList]
  obtain ⟨⟨url, hurl⟩, -, -⟩ := eq_of_make hmake
  rw [hconfig] at hurl
  have hne : TopicId.pathSegments p t.name ≠ [] := List.cons_ne_nil _ _
  obtain ⟨u, hu, htarget⟩ := horigin.target_of_parse hurl hne
    (TopicId.plain_pathSegments hproject hname)
  rw [TopicId.resolve_pathSegments hproject hname, ← TopicId.toList_requestPath,
    String.ofList_toList] at htarget
  refine ⟨_, by rw [openTopic, resourceName_of_qualified f hp]; rfl, ?_,
    TopicId.requestPath_eq_iff hproject hname⟩
  intro m exchange
  show (Url.parse (f.publishUrl (TopicId.qualifiedText p t.name))).toOption.map (·.target) = _
  rw [publishUrl_of_origin hmake horigin hendpoint, hu, ← htarget]
  rfl

end Origins

theorem publish_target_localhost :
    ∃ f t h, make { endpoint := "http://localhost:8085/" } = .ok f ∧
      TopicId.parse "projects/shop.eu:1/topics/orders%2e" = .ok t ∧ f.openTopic t = .ok h ∧
      ∀ m exchange, (h.publish m exchange).1.bind HttpRequest.target? =
        some "/v1/projects/shop.eu:1/topics/orders%2e:publish" := by
  let t : TopicId := ⟨some "shop.eu:1", "orders%2e", by rintro p ⟨⟩; decide, by decide⟩
  have hscheme : "http".toList.all Url.isSchemeChar = true := rfl
  have hchars : "localhost:8085".toList.all (fun c =>
      0x20 < c.toNat ∧ Url.endsAuthority true c = false) = true := rfl
  have horigin : Url.IsOrigin "http".toList "localhost:8085".toList :=
    ⟨⟨'h', _, rfl, rfl⟩, List.all_eq_true.1 hscheme, by decide, by decide,
      fun c hc => of_decide_eq_true (List.all_eq_true.1 hchars c hc)⟩
  have hmake : make { endpoint := "http://localhost:8085/" } =
      .ok ⟨"http://localhost:8085", none, none⟩ := rfl
  obtain ⟨hopen, -⟩ := publish_target hmake horigin (k := 1) rfl
  obtain ⟨h, hh, htarget, -⟩ := hopen t "shop.eu:1" rfl
  exact ⟨_, t, h, hmake, TopicId.parse_text t, hh, htarget⟩

/-- With two dots or one for its project, a topic is published to a path that is not its own. -/
theorem publish_target_dots :
    let f : PubSubFactory := ⟨"http://h", none, none⟩
    make { endpoint := "http://h" } = .ok f ∧
      (∃ t h, TopicId.parse "projects/../topics/orders" = .ok t ∧ f.openTopic t = .ok h ∧
        (h.request {}).target? = some "/v1/topics/orders:publish") ∧
      ∃ t h, TopicId.parse "projects/./topics/orders" = .ok t ∧ f.openTopic t = .ok h ∧
        (h.request {}).target? = some "/v1/projects/topics/orders:publish" := by
  let twoDots : TopicId := ⟨some "..", "orders", by rintro p ⟨⟩; decide, by decide⟩
  let oneDot : TopicId := ⟨some ".", "orders", by rintro p ⟨⟩; decide, by decide⟩
  refine ⟨rfl, ⟨twoDots, _, TopicId.parse_text twoDots, rfl, ?_⟩,
    ⟨oneDot, _, TopicId.parse_text oneDot, rfl, ?_⟩⟩
  · decide +kernel
  · decide +kernel

end PubSubFactory

end EventIngress
