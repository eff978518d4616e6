import EventIngress.Proofs.Cache.Confinement
import EventIngress.Proofs.Cache.Errands

/-!
# The removal of handles

The handles of brokers that the routing table does not know can be removed from a cache, or all
handles. In either case the entries are taken out first and the handles are closed after that, each
of them once. A broker whose handle was removed starts anew.

Results:

* `TopicCache.Removes`: what a removal makes of a cache; `TopicCache.Visited.removes_prune`,
  `TopicCache.Visited.removes_drain`: in whatever order the entries are visited.
* `TopicCache.Refused`: a removal that is not made.
* `TopicCache.StartsAnew`, `TopicCache.startsAnew_of_none`: what becomes of a broker without a handle.
* `TopicCache.removals_exact`: both removals, what follows when they are made again, and what comes
  later.
-/

namespace EventIngress.TopicCache

open Request

variable {η σ : Type} {k : Collaborators η σ} {c c' : TopicCache η} {b : BrokerIdentity}
  {requests : List (Request η)}

/-! ## What is removed -/

/-- The entries `gone` have been removed from a cache: those of the absent brokers, one for each. All
other entries are as they were. -/
structure Removes (c : TopicCache η) (absent : BrokerIdentity → Prop)
    (gone : List (BrokerIdentity × CacheEntry η)) (c' : TopicCache η) : Prop where
  once : (gone.map (·.1)).Nodup
  gone_iff : ∀ b e, (b, e) ∈ gone ↔ c.entries.find? b = some e ∧ absent b
  kept_iff : ∀ b e, c'.entries.find? b = some e ↔ c.entries.find? b = some e ∧ ¬ absent b
  poisoned : c'.poisoned = c.poisoned

variable {visited : List (BrokerIdentity × CacheEntry η)}

theorem Visited.mem_iff (hv : c.Visited visited) {e : CacheEntry η} :
    (b, e) ∈ visited ↔ c.entries.find? b = some e := by
  rw [SortedMap.find?_eq_some_iff]
  exact List.Perm.mem_iff hv

theorem Visited.removes_prune (hv : c.Visited visited)
    (answer : BrokerIdentity → Option BrokerRoute) :
    Removes c (fun b => answer b = none) (c.prune visited fun b => (answer b).isNone).1
      (c.prune visited fun b => (answer b).isNone).2 := by
  refine ⟨?_, ?_, ?_, rfl⟩
  · exact hv.nodup.sublist (List.filter_sublist.map _)
  · intro b e
    rw [← hv.mem_iff]
    exact List.mem_filter.trans (and_congr_right fun _ => Option.isNone_iff_eq_none)
  · intro b e
    rw [prune, SortedMap.find?_filter_eq_some_iff]
    exact and_congr_right fun _ => by simp [Option.isSome_iff_ne_none]

theorem Visited.removes_drain (hv : c.Visited visited) :
    Removes c (fun _ => True) (c.drain visited).1 (c.drain visited).2 := by
  refine ⟨hv.nodup, ?_, ?_, rfl⟩
  · intro b e
    rw [← hv.mem_iff]
    exact (and_iff_left trivial).symm
  · intro b e
    simp [drain]

/-- To remove the absent brokers where all are absent is to remove all. -/
theorem prune_eq_drain (c : TopicCache η) (visited : List (BrokerIdentity × CacheEntry η)) :
    c.prune visited (fun _ => true) = c.drain visited := by
  have hnone : c.entries.filter (fun _ _ => !true) = .empty :=
    SortedMap.ext_entries (List.filter_eq_nil_iff.2 (by simp))
  rw [prune, hnone, List.filter_eq_self.2 (fun _ _ => rfl)]
  rfl

theorem mem_brokers_iff : b ∈ c.brokers ↔ ∃ e, c.entries.find? b = some e := by
  rw [brokers, List.mem_map]
  constructor
  · rintro ⟨⟨b, e⟩, he, rfl⟩
    exact ⟨e, SortedMap.find?_eq_some_iff.2 he⟩
  · rintro ⟨e, he⟩
    exact ⟨(b, e), SortedMap.find?_eq_some_iff.1 he, rfl⟩

/-! ## What comes of a removal -/

theorem prunes_of_pruneAbsent {w w' : σ} {result : Except Stop Nat}
    (h : pruneAbsent k.traced (c, (w, [])) = (result, (c', (w', requests)))) :
    Prunes c requests result c' := by
  obtain ⟨requests', result', c'', w'', -, htraced, hprunes⟩ := pruneAbsent_prunes k w [] c
  rw [List.nil_append, h] at htraced
  cases htraced
  exact hprunes

theorem empties_of_closeAll {w w' : σ} {result : Except Stop Nat}
    (h : closeAll k.traced (c, (w, [])) = (result, (c', (w', requests)))) :
    Empties c requests result c' := by
  obtain ⟨requests', result', c'', w'', -, htraced, hempties⟩ := closeAll_empties k w [] c
  rw [List.nil_append, h] at htraced
  cases htraced
  exact hempties

/-- A removal is refused: nothing is asked for, and the cache stays as it is. -/
structure Refused (c : TopicCache η) (requests : List (Request η)) (result : Except Stop Nat)
    (c' : TopicCache η) : Prop where
  requests_eq : requests = []
  result_eq : result = .error (.failure (.internal "topic cache write lock poisoned"))
  cache_eq : c' = c

theorem Prunes.refused {result : Except Stop Nat} (hp : Prunes c requests result c')
    (hpoisoned : c.poisoned = true) : Refused c requests result c' := by
  cases hp with
  | poisoned => exact ⟨rfl, rfl, rfl⟩
  | lookUpBreaks hfree => cases hpoisoned.symm.trans hfree
  | removed hfree => cases hpoisoned.symm.trans hfree

theorem Empties.refused {result : Except Stop Nat} (he : Empties c requests result c')
    (hpoisoned : c.poisoned = true) : Refused c requests result c' := by
  cases he with
  | poisoned => exact ⟨rfl, rfl, rfl⟩
  | removed hfree => cases hpoisoned.symm.trans hfree

/-- If the routing table answers, the cached brokers are asked for, and those without a route are
removed. -/
theorem Prunes.of_answers {result : Except Stop Nat} (hp : Prunes c requests result c')
    (hc : c.poisoned = false) (hanswers : ∀ b, .route b .broken ∉ requests) :
    ∃ answer visited gone, c.Visited visited ∧
      c.prune visited (fun b => (answer b).isNone) = (gone, c') ∧
      requests = lookUps answer (visited.map (·.1)) ++ closingAll c'.entries gone ∧
      result = .ok gone.length := by
  cases hp with
  | poisoned hpoisoned => cases hc.symm.trans hpoisoned
  | lookUpBreaks hpoisoned hbrokers =>
    exact absurd (List.mem_append_right _ List.mem_cons_self) (hanswers _)
  | removed hpoisoned hvisited hprune => exact ⟨_, _, _, hvisited, hprune, rfl, rfl⟩

/-- The same with known answers. -/
theorem Prunes.of_known {result : Except Stop Nat} (hp : Prunes c requests result c')
    (hc : c.poisoned = false) {answer : BrokerIdentity → Option BrokerRoute}
    (hanswers : ∀ b reply, .route b reply ∈ requests → reply = .answer (answer b)) :
    ∃ visited gone, c.Visited visited ∧
      c.prune visited (fun b => (answer b).isNone) = (gone, c') ∧
      requests = lookUps answer (visited.map (·.1)) ++ closingAll c'.entries gone ∧
      result = .ok gone.length := by
  obtain ⟨answer', visited, gone, hv, hprune, hrequests, hresult⟩ :=
    hp.of_answers hc (fun b hb => nomatch hanswers b _ hb)
  have hsame : ∀ b ∈ visited.map (·.1), answer' b = answer b := by
    intro b hb
    have hlook : .route b (.answer (answer' b)) ∈ requests :=
      hrequests ▸ List.mem_append_left _ (mem_lookUps.2 ⟨hb, rfl⟩)
    exact Reply.answer.inj (hanswers b _ hlook)
  refine ⟨visited, gone, hv, ?_, ?_, hresult⟩
  · rw [← hprune]
    exact hv.prune_congr fun b hb =>
      congrArg Option.isNone (hsame b (hv.brokers_perm.mem_iff.2 hb)).symm
  · rw [hrequests]
    refine congrArg (· ++ _) (List.map_congr_left fun b hb => ?_)
    rw [hsame b hb]

/-- Where no cached broker is absent, nothing is removed. -/
theorem Removes.again {answer : BrokerIdentity → Option BrokerRoute}
    {gone : List (BrokerIdentity × CacheEntry η)}
    (hr : Removes c (fun b => answer b = none) gone c') (hv : c'.Visited visited) :
    c'.prune visited (fun b => (answer b).isNone) = ([], c') := by
  have hkept : ∀ b ∈ c'.brokers, (answer b).isNone = false := by
    intro b hb
    obtain ⟨e, he⟩ := mem_brokers_iff.1 hb
    simpa [Option.isSome_iff_ne_none] using ((hr.kept_iff b e).1 he).2
  have hall : c'.entries.filter (fun _ _ => !false) = c'.entries :=
    SortedMap.ext_entries (List.filter_eq_self.2 (by simp))
  rw [hv.prune_congr hkept, prune, hall, List.filter_eq_nil_iff.2 (by simp)]

/-! ## What comes later -/

/-- A broker whose handle was `old` starts anew. Whatever happens first: as long as the broker has no
handle, getting one opens it, if the routing table names a usable topic at both looks; and a handle
that the broker gets was opened in the meantime, so that it is not the old one, unless the factory
has handed that out again. -/
structure StartsAnew (k : Collaborators η σ) (c : TopicCache η) (b : BrokerIdentity) (old : η) :
    Prop where
  opens : ∀ (w : σ) (episodes : List (Episode σ)) c₁ w₁ rs,
    afterAll k (c, (w, [])) episodes = (c₁, (w₁, rs)) →
    c₁.entries.find? b = none → c₁.poisoned = false →
    ∀ result c₂ w₂ requests,
      getOrCreate k.traced b (c₁, (w₁, rs)) = (result, (c₂, (w₂, rs ++ requests))) →
      (∀ reply, .route b reply ∈ requests → ∃ a t, reply = .answer a ∧ topicOf b a = .ok t) →
      ∃ t reply, openings requests = [(t, reply)] ∧ ∀ h, reply = .answer (.ok h) → result = .ok h
  since : ∀ (w : σ) (episodes : List (Episode σ)) h c₂ w₂ requests,
    getOrCreate k.traced b (afterAll k (c, (w, [])) episodes) = (.ok h, (c₂, (w₂, requests))) →
    ∃ t, (t, .answer (.ok h)) ∈ openings requests
  notOld : ∀ (w : σ) (episodes : List (Episode σ)) result c₂ w₂ requests,
    getOrCreate k.traced b (afterAll k (c, (w, [])) episodes) = (result, (c₂, (w₂, requests))) →
    (∀ t, (t, .answer (.ok old)) ∉ openings requests) → result ≠ .ok old

/-- Getting a handle for a broker without one asks the factory, unless a look at the route is in the
way. -/
theorem Gets.opening_of_none {result : Except Stop η} (hg : Gets k c b requests result c')
    (hnone : c.entries.find? b = none) (hpoisoned : c.poisoned = false)
    (hroutes : ∀ reply, .route b reply ∈ requests →
      ∃ a t, reply = .answer a ∧ topicOf b a = .ok t) :
    ∃ t reply, openings requests = [(t, reply)] ∧ ∀ h, reply = .answer (.ok h) → result = .ok h := by
  -- A look that is in the way is among the requests.
  have hbroken : .route b .broken ∉ requests := fun hmem => by
    obtain ⟨a, t, ⟨⟩, -⟩ := hroutes _ hmem
  have hunrouted {a : Option BrokerRoute} {f : Failure} (hf : topicOf b a = .error f) :
      .route b (.answer a) ∉ requests := fun hmem => by
    obtain ⟨_, t, ⟨⟩, ht⟩ := hroutes _ hmem
    cases hf.symm.trans ht
  cases hg with
  | lookUpBreaks => exact absurd List.mem_cons_self hbroken
  | unrouted hreply hroute => exact absurd List.mem_cons_self (hunrouted hroute)
  | poisoned hreply hroute hp => cases hpoisoned.symm.trans hp
  | found hreply hroute hhit => cases hnone.symm.trans hhit
  | missed hreply hroute hmiss hinstall =>
    cases hinstall with
    | lookUpBreaks =>
      exact absurd (List.mem_cons_of_mem _ List.mem_cons_self) hbroken
    | unrouted hreply' hroute' =>
      exact absurd (List.mem_cons_of_mem _ List.mem_cons_self) (hunrouted hroute')
    | found hreply' hroute' hhit => cases hnone.symm.trans hhit
    | openingBreaks => exact ⟨_, _, rfl, by rintro _ ⟨⟩⟩
    | refused => exact ⟨_, _, rfl, by rintro _ ⟨⟩⟩
    | opened =>
      refine ⟨_, _, rfl, ?_⟩
      rintro _ ⟨⟩
      rfl
    | rotated hreply' hroute' hold => cases hnone.symm.trans hold

/-- An entry of a broker that had none has a handle that was opened in the meantime. -/
theorem opened_since (hnone : c.entries.find? b = none) (w : σ) (episodes : List (Episode σ))
    {h : η} {t : TopicId}
    (hentry : (afterAll k (c, (w, [])) episodes).1.entries.find? b = some ⟨h, t⟩) :
    (t, .answer (.ok h)) ∈ openings (afterAll k (c, (w, [])) episodes).2.2 := by
  let Since (c : TopicCache η) (rs : List (Request η)) : Prop :=
    ∀ h t, c.entries.find? b = some ⟨h, t⟩ → (t, .answer (.ok h)) ∈ openings rs
  have hstart : Since c [] := by
    intro h t hentry
    cases hnone.symm.trans hentry
  refine afterAll_invariant (P := Since) ?_ episodes hstart w h t hentry
  intro c rs errand requests result c' hsince hgoes h t hentry
  rw [openings_append, List.mem_append]
  exact (hgoes.entry hentry).imp (hsince h t) id

theorem startsAnew_of_none (k : Collaborators η σ) (hnone : c.entries.find? b = none) (old : η) :
    StartsAnew k c b old := by
  have hsince : ∀ (w : σ) (episodes : List (Episode σ)) h c₂ w₂ requests,
      getOrCreate k.traced b (afterAll k (c, (w, [])) episodes) = (.ok h, (c₂, (w₂, requests))) →
      ∃ t, (t, .answer (.ok h)) ∈ openings requests := by
    intro w episodes h c₂ w₂ requests heq
    have hopened := fun h t => opened_since (k := k) hnone w episodes (h := h) (t := t)
    generalize afterAll k (c, (w, [])) episodes = x at heq hopened
    obtain ⟨c₁, w₁, rs⟩ := x
    obtain ⟨added, result, c', w', -, htraced, hgets⟩ := getOrCreate_gets k b w₁ rs c₁
    rw [heq] at htraced
    cases htraced
    -- The handle is the one of the entry, which was there before the call or is new.
    obtain ⟨t, hentry⟩ := hgets.rebinds.of_ok rfl
    refine ⟨t, ?_⟩
    rw [openings_append, List.mem_append]
    exact (hgets.entry hentry).imp (hopened h t) id
  refine ⟨?_, hsince, ?_⟩
  · intro w episodes c₁ w₁ rs _ hnone₁ hpoisoned result c₂ w₂ requests heq hroutes
    obtain ⟨added, result', c', w', -, htraced, hgets⟩ := getOrCreate_gets k b w₁ rs c₁
    obtain ⟨rfl, rfl, rfl⟩ := record_unique heq htraced
    exact hgets.opening_of_none hnone₁ hpoisoned hroutes
  · rintro w episodes result c₂ w₂ requests heq hnew rfl
    obtain ⟨t, ht⟩ := hsince w episodes old c₂ w₂ requests heq
    exact hnew t ht

theorem Removes.startsAnew {absent : BrokerIdentity → Prop}
    {gone : List (BrokerIdentity × CacheEntry η)} (hr : Removes c absent gone c')
    (k : Collaborators η σ) {e : CacheEntry η} (he : (b, e) ∈ gone) :
    StartsAnew k c' b e.handle := by
  refine startsAnew_of_none k ?_ e.handle
  rw [Option.eq_none_iff_forall_ne_some]
  intro e' he'
  exact ((hr.kept_iff b e').1 he').2 ((hr.gone_iff b e).1 he).2

/-! ## Both removals -/

/-- The removals from any cache, whatever it holds and whatever the routing table answers. If the
cache is poisoned, they are refused. Otherwise, to remove the handles of absent brokers, each cached
broker is looked up once, and exactly the entries of those without a route are removed; when all of
them are out of the cache, their handles are closed, each once, and no other one. Made again with
the same answers, this removes nothing. To remove all handles leaves no entry and closes each of
them once: the same closings, in some order, as if every look-up had found no route. Made again, it
removes nothing. In either case the result is the number of entries that were removed, and their
brokers start anew. -/
theorem removals_exact (k : Collaborators η σ) (c : TopicCache η) (w : σ) :
    (∃ requests result c' w', pruneAbsent k (c, w) = (result, (c', w')) ∧
      pruneAbsent k.traced (c, (w, [])) = (result, (c', (w', requests))) ∧
      (c.poisoned = true → Refused c requests result c') ∧
      (c.poisoned = false → (∀ b, .route b .broken ∉ requests) → ∃ answer looked gone,
        looked.Nodup ∧ (∀ b, b ∈ looked ↔ ∃ e, c.entries.find? b = some e) ∧
        Removes c (fun b => answer b = none) gone c' ∧
        requests = lookUps answer looked ++ closingAll c'.entries gone ∧
        closings requests = gone.map (fun e => (c'.entries, e.2.handle)) ∧
        result = .ok gone.length ∧
        (∀ w₁ requests₂ result₂ c₂ w₂,
          pruneAbsent k.traced (c', (w₁, [])) = (result₂, (c₂, (w₂, requests₂))) →
          (∀ b reply, .route b reply ∈ requests₂ → reply = .answer (answer b)) →
          result₂ = .ok 0 ∧ c₂ = c' ∧ closings requests₂ = []) ∧
        ∀ b e, (b, e) ∈ gone → StartsAnew k c' b e.handle)) ∧
    ∃ requests result c' w', closeAll k (c, w) = (result, (c', w')) ∧
      closeAll k.traced (c, (w, [])) = (result, (c', (w', requests))) ∧
      (c.poisoned = true → Refused c requests result c') ∧
      (c.poisoned = false → ∃ gone, Removes c (fun _ => True) gone c' ∧ c'.size = 0 ∧
        requests = closingAll c'.entries gone ∧
        closings requests = gone.map (fun e => (c'.entries, e.2.handle)) ∧
        result = .ok gone.length ∧
        (∀ w₁ requests₂ result₂ c₂ w₂,
          pruneAbsent k.traced (c, (w₁, [])) = (result₂, (c₂, (w₂, requests₂))) →
          (∀ b reply, .route b reply ∈ requests₂ → reply = .answer none) →
          result₂ = result ∧ c₂ = c' ∧ (closings requests₂).Perm (closings requests)) ∧
        (∀ w₁ requests₂ result₂ c₂ w₂,
          closeAll k.traced (c', (w₁, [])) = (result₂, (c₂, (w₂, requests₂))) →
          result₂ = .ok 0 ∧ c₂ = c' ∧ requests₂ = []) ∧
        ∀ b e, (b, e) ∈ gone → StartsAnew k c' b e.handle) := by
  constructor
  · obtain ⟨requests, result, c', w', heq, htraced, hprunes⟩ := pruneAbsent_prunes k w [] c
    refine ⟨requests, result, c', w', heq, htraced, hprunes.refused, fun hc hanswers => ?_⟩
    obtain ⟨answer, visited, gone, hv, hprune, hrequests, hresult⟩ :=
      hprunes.of_answers hc hanswers
    have hr := hv.removes_prune answer
    rw [hprune] at hr
    refine ⟨answer, visited.map (·.1), gone, hv.nodup,
      fun b => hv.brokers_perm.mem_iff.trans mem_brokers_iff, hr, hrequests, ?_, hresult, ?_,
      fun b e he => hr.startsAnew k he⟩
    · rw [hrequests, closings_lookUps_closingAll]
    · intro w₁ requests₂ result₂ c₂ w₂ heq₂ hsame
      obtain ⟨visited₂, gone₂, hv₂, hprune₂, hrequests₂, hresult₂⟩ :=
        (prunes_of_pruneAbsent heq₂).of_known (hr.poisoned.trans hc) hsame
      rw [hr.again hv₂] at hprune₂
      cases hprune₂
      refine ⟨hresult₂, rfl, ?_⟩
      rw [hrequests₂, closings_lookUps_closingAll]
      rfl
  · obtain ⟨requests, result, c', w', heq, htraced, hempties⟩ := closeAll_empties k w [] c
    refine ⟨requests, result, c', w', heq, htraced, hempties.refused, fun hc => ?_⟩
    cases hempties with
    | poisoned hpoisoned => cases hc.symm.trans hpoisoned
    | @removed visited hpoisoned hv =>
      have hr := hv.removes_drain
      refine ⟨visited, hr, rfl, rfl, closings_closingAll, rfl, ?_, ?_,
        fun b e he => hr.startsAnew k he⟩
      · intro w₁ requests₂ result₂ c₂ w₂ heq₂ hnone
        obtain ⟨visited₂, gone₂, hv₂, hprune₂, hrequests₂, hresult₂⟩ :=
          (prunes_of_pruneAbsent heq₂).of_known hc hnone
        obtain ⟨rfl, rfl⟩ := Prod.mk.inj ((c.prune_eq_drain visited₂).symm.trans hprune₂)
        have hsame : visited₂.Perm visited := hv₂.trans hv.symm
        refine ⟨hresult₂.trans (congrArg Except.ok hsame.length_eq), rfl, ?_⟩
        rw [hrequests₂, closings_lookUps_closingAll, closings_closingAll]
        exact hsame.map _
      · intro w₁ requests₂ result₂ c₂ w₂ heq₂
        cases empties_of_closeAll heq₂ with
        | poisoned hpoisoned₂ => cases hpoisoned.symm.trans hpoisoned₂
        | removed hpoisoned₂ hv₂ =>
          obtain rfl := List.perm_nil.1 hv₂
          exact ⟨rfl, rfl, rfl⟩

/-- The topic of three handles. -/
def sharedTopic : TopicId :=
  .bare "shared" (by decide)

/-- Handles for three brokers. -/
def threeBrokers : TopicCache Nat where
  entries := .ofList
    [(⟨"team", "gone"⟩, ⟨0, sharedTopic⟩), (⟨"team", "unready"⟩, ⟨1, sharedTopic⟩),
      (⟨"team", "nameless"⟩, ⟨2, sharedTopic⟩)]

/-- A routing table where the first of them is absent, the second is not ready, and the third has no
usable topic. -/
def oneAbsent : World where
  table := .ofList [(⟨"team", "unready"⟩, ⟨.unready, "shared"⟩), (⟨"team", "nameless"⟩, ⟨.ready, ""⟩)]

/-- Only the broker that is absent loses its handle. -/
theorem removals_exact_oneAbsent :
    threeBrokers.poisoned = false ∧
      ∃ requests c' w', pruneAbsent World.collaborators.traced (threeBrokers, (oneAbsent, [])) =
          (.ok 1, (c', (w', requests))) ∧
        closings requests = [(c'.entries, 0)] ∧
        c'.entries.toList.map (fun e => (e.1.name, e.2.handle)) =
          [("nameless", 2), ("unready", 1)] := by
  have hc : threeBrokers.poisoned = false := rfl
  obtain ⟨⟨requests, result, c', w', -, htraced, -, hremoved⟩, -⟩ :=
    removals_exact World.collaborators threeBrokers oneAbsent
  have hanswers : (pruneAbsent World.collaborators.traced (threeBrokers, (oneAbsent, []))).2.2.2.all
      (fun | .route _ .broken => false | _ => true) = true := by
    decide +kernel
  have hclosed : (closings (pruneAbsent World.collaborators.traced
      (threeBrokers, (oneAbsent, []))).2.2.2).map (·.2) = [0] := by
    decide +kernel
  have hleft : (pruneAbsent World.collaborators.traced
      (threeBrokers, (oneAbsent, []))).2.1.entries.toList.map (fun e => (e.1.name, e.2.handle)) =
        [("nameless", 2), ("unready", 1)] := by
    decide +kernel
  rw [htraced] at hanswers hclosed hleft
  obtain ⟨answer, looked, gone, -, -, -, -, hclosings, rfl, -⟩ :=
    hremoved hc fun b hb => nomatch List.all_eq_true.1 hanswers _ hb
  -- The one handle that is closed is the one of the one entry that is removed.
  rw [hclosings, List.map_map] at hclosed
  obtain ⟨e, rfl, he⟩ := List.map_eq_singleton_iff.1 hclosed
  refine ⟨hc, requests, c', w', htraced, ?_, hleft⟩
  rw [hclosings, List.map_singleton]
  exact congrArg (fun h => [(c'.entries, h)]) he

end EventIngress.TopicCache
