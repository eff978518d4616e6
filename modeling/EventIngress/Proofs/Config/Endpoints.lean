import EventIngress.Proofs.Config.Projects

/-!
# Endpoints of resolved settings

The bounds look at an endpoint without the blanks around it. Resolving keeps these blanks, and cuts
off the slashes at the end only if no blank follows them; where nothing follows the scheme, its own
slashes go, too. So the endpoint that is used need not be the one that was looked at. What a factory
and its handles do with it afterwards adds nothing and cuts nothing off.

Results:

* `PubSubSettings.IsBase`: an endpoint that a path can be put behind.
* `PubSubSettings.isBase_trimSlashes_iff`: when an endpoint without blanks around it becomes one.
* `PubSubSettings.resolved_endpoint`: which endpoint is used, and when it is such a base.
-/

namespace EventIngress

namespace PubSubSettings

open PubSubFactory

/-! ## Endpoints to put a path behind -/

/-- What an endpoint may start with. -/
def schemeMarks : List String :=
  ["http://", "https://"]

/-- A path can be put behind an endpoint: it starts with a scheme of the web, has no blanks at its
ends, and no slash at its end. -/
structure IsBase (endpoint : String) : Prop where
  scheme : ∃ mark ∈ schemeMarks, mark.toList <+: endpoint.toList
  first : ∀ c ∈ endpoint.toList.head?, Text.isBlank c = false
  last : ∀ c ∈ endpoint.toList.getLast?, Text.isBlank c = false ∧ c ≠ '/'

theorem toList_mark {mark : String} (h : mark ∈ schemeMarks) : ∃ cs, mark.toList = 'h' :: cs := by
  simp only [schemeMarks, List.mem_cons, List.not_mem_nil, or_false] at h
  rcases h with rfl | rfl <;> exact ⟨_, rfl⟩

theorem checkEndpoint_eq_ok_iff {endpoint : String} :
    checkEndpoint endpoint = .ok () ↔
      ∃ mark ∈ schemeMarks, ∃ rest, Text.trim endpoint = mark ++ rest := by
  have hmarked (mark : String) : mark.toList.isPrefixOf (Text.trim endpoint).toList = true ↔
      ∃ rest, Text.trim endpoint = mark ++ rest := by
    rw [List.isPrefixOf_iff_prefix]
    constructor
    · rintro ⟨rest, hrest⟩
      exact ⟨String.ofList rest, by rw [← String.toList_inj, ← hrest]; simp⟩
    · rintro ⟨rest, hrest⟩
      exact ⟨rest.toList, by rw [hrest, String.toList_append]⟩
  have hmarks : (∃ mark ∈ schemeMarks, ∃ rest, Text.trim endpoint = mark ++ rest) ↔
      "http://".toList.isPrefixOf (Text.trim endpoint).toList ∨
        "https://".toList.isPrefixOf (Text.trim endpoint).toList := by
    rw [hmarked, hmarked]
    simp [schemeMarks]
  rw [hmarks, checkEndpoint]
  split
  · rename_i hmark
    exact iff_of_true rfl hmark
  · rename_i hmark
    exact iff_of_false (by rintro ⟨⟩) hmark

theorem endpoint_of_check {s : PubSubSettings} (h : s.check = .ok ()) :
    ∃ mark ∈ schemeMarks, ∃ rest, Text.trim s.endpoint = mark ++ rest := by
  rw [← checkEndpoint_eq_ok_iff]
  cases hendpoint : checkEndpoint s.endpoint with
  | error fault => simp [check, hendpoint, bind, Except.bind] at h
  | ok => rfl

section Marked

variable {mark rest front back : String}

theorem trimSlashes_marked_ne (hmark : mark ∈ schemeMarks) : trimSlashes (mark ++ rest) ≠ "" := by
  obtain ⟨cs, hcs⟩ := toList_mark hmark
  intro hempty
  rw [← String.toList_inj, toList_trimSlashes, String.toList_append, hcs] at hempty
  exact absurd (List.rdropWhile_eq_nil_iff.1 hempty 'h' List.mem_cons_self) (by decide)

theorem isBlank_of_mem {c : Char} (hblank : Text.allBlank back = true) (hc : c ∈ back.toList) :
    Text.isBlank c = true :=
  List.all_eq_true.1 hblank c hc

/-- Blanks are kept where slashes are cut off. -/
theorem trimSlashes_around (hmark : mark ∈ schemeMarks) (hback : Text.allBlank back = true) :
    trimSlashes (front ++ (mark ++ rest) ++ back) =
      front ++ if back = "" then trimSlashes (mark ++ rest) else mark ++ rest ++ back := by
  split
  · rename_i hempty
    rw [hempty, String.append_empty, trimSlashes_append (trimSlashes_marked_ne hmark)]
  · rename_i hne
    have hne : back.toList ≠ [] := by simpa using hne
    rw [trimSlashes_eq_self, String.append_assoc]
    rw [String.toList_append, List.getLast?_append_of_ne_nil _ hne]
    intro hlast
    have hblank := isBlank_of_mem hback (List.mem_of_getLast? hlast)
    exact absurd hblank (by decide)

/-- Without blanks around it, an endpoint is a base if something follows its mark, and what is left
without the slashes at the end does not end in a blank. -/
theorem isBase_trimSlashes_iff (hmark : mark ∈ schemeMarks) :
    IsBase (trimSlashes (mark ++ rest)) ↔
      ∃ c ∈ (trimSlashes rest).toList.getLast?, Text.isBlank c = false := by
  by_cases hempty : trimSlashes rest = ""
  · -- The slashes of the mark are cut off, too.
    obtain ⟨n, hrest⟩ := exists_slashes rest
    rw [hempty] at hrest ⊢
    refine iff_of_false ?_ (by rintro ⟨c, ⟨⟩, _⟩)
    simp only [schemeMarks, List.mem_cons, List.not_mem_nil, or_false] at hmark
    have hslashes (start : String) (h : start ++ "//" = mark) :
        (mark ++ rest).toList = start.toList ++ List.replicate (n + 2) '/' := by
      rw [← h, String.toList_append, String.toList_append, hrest, List.append_assoc]
      rfl
    rintro ⟨hscheme, -, -⟩
    rcases hmark with rfl | rfl
    · rw [trimSlashes_eq (hslashes "http:" rfl) (by decide)] at hscheme
      exact absurd hscheme (by decide)
    · rw [trimSlashes_eq (hslashes "https:" rfl) (by decide)] at hscheme
      exact absurd hscheme (by decide)
  · have hne : (trimSlashes rest).toList ≠ [] := by simpa using hempty
    have hlast :
        (mark ++ trimSlashes rest).toList.getLast? = (trimSlashes rest).toList.getLast? := by
      rw [String.toList_append, List.getLast?_append_of_ne_nil _ hne]
    rw [trimSlashes_append hempty]
    constructor
    · intro hbase
      have hc := List.getLast?_eq_some_getLast hne
      exact ⟨_, hc, (hbase.last _ (hlast.trans hc)).1⟩
    · rintro ⟨c, hc, hblank⟩
      refine ⟨⟨mark, hmark, ?_⟩, ?_, ?_⟩
      · rw [String.toList_append]
        exact List.prefix_append _ _
      · obtain ⟨cs, hcs⟩ := toList_mark hmark
        rw [String.toList_append, hcs]
        rintro c ⟨⟩
        decide
      · intro d hd
        obtain rfl : c = d := Option.some.inj (hc.symm.trans (hlast.symm.trans hd))
        exact ⟨hblank, fun hslash => getLast?_trimSlashes rest (hslash ▸ hc)⟩

/-- There are no blanks around a base. -/
theorem IsBase.eq_empty_of_front (h : IsBase (front ++ rest))
    (hfront : Text.allBlank front = true) : front = "" := by
  cases hchars : front.toList with
  | nil => simpa using hchars
  | cons c cs =>
    have hblank := isBlank_of_mem hfront (c := c) (by simp [hchars])
    have hfirst := h.first c (by simp [hchars])
    exact absurd hblank (by simp [hfirst])

theorem IsBase.eq_empty_of_back (h : IsBase (rest ++ back))
    (hback : Text.allBlank back = true) : back = "" := by
  by_contra hne
  have hne : back.toList ≠ [] := by simpa using hne
  have hc := List.getLast?_eq_some_getLast hne
  have hblank := isBlank_of_mem hback (List.mem_of_getLast? hc)
  have hlast := (h.last _ (by
    rw [String.toList_append, List.getLast?_append_of_ne_nil _ hne]
    exact hc)).1
  exact absurd hblank (by simp [hlast])

end Marked

/-! ## Resolved endpoints -/

/-- The endpoint of settings within their bounds is a text that starts with the mark of a scheme of
the web, between blanks. Resolved, it keeps these blanks, and loses the slashes at its end if no
blank follows them; it never ends in a slash. It is a base exactly if there were no blanks around it
and what follows the mark, without the slashes at the end, does not end in a blank and is not empty.
A handle of a factory that is made from it uses it as it is. -/
theorem resolved_endpoint {s : PubSubSettings} {env : Environment} {config : PubSubConfig}
    (hcheck : s.check = .ok ()) (hresolve : s.resolve env = .ok config) :
    (∃ front back rest, ∃ mark ∈ schemeMarks, s.endpoint = front ++ (mark ++ rest) ++ back ∧
      Text.allBlank front = true ∧ Text.allBlank back = true ∧
      Text.trim s.endpoint = mark ++ rest ∧
      config.endpoint =
        front ++ (if back = "" then trimSlashes (mark ++ rest) else mark ++ rest ++ back) ∧
      (IsBase config.endpoint ↔ front = "" ∧ back = "" ∧
        ∃ c ∈ (trimSlashes rest).toList.getLast?, Text.isBlank c = false)) ∧
    config.endpoint.toList.getLast? ≠ some '/' ∧
    ∀ f t, PubSubFactory.make config = .ok f →
      f.openTopic t = (f.resourceName t).map fun resource =>
        { topic := t, url := config.endpoint ++ "/v1/" ++ resource ++ ":publish",
          authorization := f.authorization } := by
  have hendpoint := (eq_of_resolve hresolve).1
  have hlast : config.endpoint.toList.getLast? ≠ some '/' :=
    hendpoint ▸ getLast?_trimSlashes s.endpoint
  refine ⟨?_, hlast, fun f t hmake => openTopic_of_make hmake hlast t⟩
  obtain ⟨mark, hmark, rest, htrim⟩ := endpoint_of_check hcheck
  obtain ⟨front, back, hs, hfront, hback⟩ := Text.exists_around_trim s.endpoint
  rw [htrim] at hs
  have hconfig : config.endpoint =
      front ++ (if back = "" then trimSlashes (mark ++ rest) else mark ++ rest ++ back) := by
    rw [hendpoint, hs, trimSlashes_around hmark hback]
  refine ⟨front, back, rest, mark, hmark, hs, hfront, hback, htrim, hconfig, ?_⟩
  rw [← isBase_trimSlashes_iff hmark, hconfig]
  constructor
  · intro hbase
    obtain rfl := hbase.eq_empty_of_front hfront
    rw [String.empty_append] at hbase
    by_cases hempty : back = ""
    · rw [if_pos hempty] at hbase
      exact ⟨rfl, hempty, hbase⟩
    · rw [if_neg hempty] at hbase
      exact absurd (hbase.eq_empty_of_back hback) hempty
  · rintro ⟨rfl, rfl, hbase⟩
    rwa [if_pos rfl, String.empty_append]

theorem resolved_endpoint_slash :
    let s : PubSubSettings := { endpoint := "http://h/", project := some "shop" }
    ∃ config f handle, (s.check = .ok () ∧ s.resolve .empty = .ok config ∧
        PubSubFactory.make config = .ok f) ∧
      config.endpoint = "http://h" ∧ f.openTopic orders = .ok handle ∧
      handle.url = "http://h/v1/projects/shop/topics/orders:publish" := by
  have hcheck : check { endpoint := "http://h/", project := some "shop" } = .ok () := rfl
  have hresolve : resolve { endpoint := "http://h/", project := some "shop" } .empty =
      .ok { endpoint := "http://h", project := some "shop" } := rfl
  have hmake : PubSubFactory.make { endpoint := "http://h", project := some "shop" } =
      .ok ⟨"http://h", some "shop", none⟩ := rfl
  obtain ⟨-, -, hopen⟩ := resolved_endpoint hcheck hresolve
  exact ⟨_, _, _, ⟨hcheck, hresolve, hmake⟩, rfl, hopen _ orders hmake, rfl⟩

/-- An endpoint within the bounds may be resolved to a text that nothing can be put behind: the
blanks around it stay, they keep the slashes in front of them, and an endpoint without a host loses
its mark. -/
theorem resolved_endpoint_astray :
    (∃ config, check { endpoint := " http://h" } = .ok () ∧
      resolve { endpoint := " http://h" } .empty = .ok config ∧
      config.endpoint = " http://h" ∧ ¬ IsBase config.endpoint) ∧
    (∃ config, check { endpoint := "http://h/ " } = .ok () ∧
      resolve { endpoint := "http://h/ " } .empty = .ok config ∧
      config.endpoint = "http://h/ " ∧ ¬ IsBase config.endpoint) ∧
    ∃ config, check { endpoint := "http://" } = .ok () ∧
      resolve { endpoint := "http://" } .empty = .ok config ∧
      config.endpoint = "http:" ∧ ¬ IsBase config.endpoint := by
  refine ⟨⟨{ endpoint := " http://h" }, rfl, rfl, rfl, ?_⟩,
    ⟨{ endpoint := "http://h/ " }, rfl, rfl, rfl, ?_⟩, ⟨{ endpoint := "http:" }, rfl, rfl, rfl, ?_⟩⟩
  · exact fun h => absurd (h.first ' ' rfl) (by decide)
  · exact fun h => absurd (h.last ' ' rfl).1 (by decide)
  · exact fun h => absurd h.scheme (by decide)

end PubSubSettings

end EventIngress
