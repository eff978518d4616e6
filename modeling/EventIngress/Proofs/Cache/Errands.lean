import EventIngress.Proofs.Cache.Requests
import Mathlib.Logic.Function.Basic

/-!
# A cache in use

A cache is used for one thing after another: handles are got, the handles of absent brokers or all
handles are removed, and between two uses anything outside the cache may change. The record shows
what the uses have asked for. As with getting a handle, there are few ways for each use to go. A removal visits
the entries in any order; what it leaves does not depend on the order, and what it closes does so only
in the order of the closings.

Results:

* `TopicCache.Visited`: the orders in which all entries can be visited.
* `TopicCache.Prunes`, `TopicCache.Empties`: all ways to remove handles, with their records.
* `Errand`, `Errand.Goes`, `Errand.run_goes`: all ways for any use to go; there are no others.
* `Episode`, `afterAll`, `afterAll_invariant`: one use after another, and what all of them keep.
-/

namespace EventIngress

variable {η σ : Type}

/-! ## Records of removals -/

namespace Request

/-- A look at the route of each of some brokers, with the answers. -/
def lookUps (answer : BrokerIdentity → Option BrokerRoute) (bs : List BrokerIdentity) :
    List (Request η) :=
  bs.map fun b => .route b (.answer (answer b))

/-- The closings of removed entries, one after another. The cache has the entries `left` then. -/
def closingAll (left : SortedMap BrokerIdentity (CacheEntry η))
    (removed : List (BrokerIdentity × CacheEntry η)) : List (Request η) :=
  removed.map fun e => .closing left e.2.handle

variable {answer : BrokerIdentity → Option BrokerRoute} {bs : List BrokerIdentity}
  {left : SortedMap BrokerIdentity (CacheEntry η)}
  {removed : List (BrokerIdentity × CacheEntry η)}

theorem openings_append (rs rs' : List (Request η)) :
    openings (rs ++ rs') = openings rs ++ openings rs' :=
  List.filterMap_append

theorem closings_append (rs rs' : List (Request η)) :
    closings (rs ++ rs') = closings rs ++ closings rs' :=
  List.filterMap_append

theorem openings_lookUps : openings (lookUps (η := η) answer bs) = [] := by
  rw [openings, lookUps, List.filterMap_map, List.filterMap_eq_nil_iff]
  exact fun _ _ => rfl

theorem closings_lookUps : closings (lookUps (η := η) answer bs) = [] := by
  rw [closings, lookUps, List.filterMap_map, List.filterMap_eq_nil_iff]
  exact fun _ _ => rfl

theorem closings_closingAll :
    closings (closingAll left removed) = removed.map fun e => (left, e.2.handle) := by
  rw [closings, closingAll, List.filterMap_map]
  exact congrFun List.filterMap_eq_map removed

/-- The looks at routes before the closings close nothing. -/
theorem closings_lookUps_closingAll :
    closings (lookUps answer bs ++ closingAll left removed) =
      removed.map fun e => (left, e.2.handle) := by
  rw [closings_append, closings_lookUps, closings_closingAll, List.nil_append]

theorem mem_lookUps {b : BrokerIdentity} {reply : Reply (Option BrokerRoute)} :
    .route b reply ∈ lookUps (η := η) answer bs ↔ b ∈ bs ∧ reply = .answer (answer b) := by
  rw [lookUps, List.mem_map]
  constructor
  · rintro ⟨_, hb, ⟨⟩⟩
    exact ⟨hb, rfl⟩
  · rintro ⟨hb, rfl⟩
    exact ⟨b, hb, rfl⟩

end Request

/-! ## All ways to remove handles -/

namespace TopicCache

open CacheUse Request

/-- The brokers that have a handle. -/
def brokers (c : TopicCache η) : List BrokerIdentity :=
  c.entries.toList.map (·.1)

theorem brokers_nodup (c : TopicCache η) : c.brokers.Nodup :=
  c.entries.keys_nodup

/-- All entries of a cache, each once, in any order. -/
def Visited (c : TopicCache η) (visited : List (BrokerIdentity × CacheEntry η)) : Prop :=
  visited.Perm c.entries.toList

namespace Visited

variable {c : TopicCache η} {visited : List (BrokerIdentity × CacheEntry η)}

theorem brokers_perm (hv : c.Visited visited) : (visited.map (·.1)).Perm c.brokers :=
  hv.map _

theorem nodup (hv : c.Visited visited) : (visited.map (·.1)).Nodup :=
  hv.brokers_perm.nodup_iff.2 c.brokers_nodup

/-- What is removed depends on the cached brokers only. -/
theorem prune_congr (hv : c.Visited visited) {absent absent' : BrokerIdentity → Bool}
    (h : ∀ b ∈ c.brokers, absent b = absent' b) :
    c.prune visited absent = c.prune visited absent' := by
  have hmem : ∀ e ∈ c.entries.entries, absent e.1 = absent' e.1 := fun e he =>
    h e.1 (List.mem_map.2 ⟨e, he, rfl⟩)
  refine Prod.ext (List.filter_congr fun e he => hmem e (hv.mem_iff.1 he)) ?_
  show ({ c with entries := _ } : TopicCache η) = { c with entries := _ }
  congr 1
  exact SortedMap.ext_entries (List.filter_congr fun e he => congrArg not (hmem e he))

end Visited

/-- All ways to remove the handles of absent brokers: what is asked for, the result, and the cache
afterwards. -/
inductive Prunes (c : TopicCache η) :
    List (Request η) → Except Stop Nat → TopicCache η → Prop where
  | poisoned (hpoisoned : c.poisoned = true) :
      Prunes c [] (.error (.failure LockMode.write.failure)) c
  | lookUpBreaks {answer : BrokerIdentity → Option BrokerRoute} {before after : List BrokerIdentity}
      {b : BrokerIdentity} (hpoisoned : c.poisoned = false)
      (hbrokers : (before ++ b :: after).Perm c.brokers) :
      Prunes c (lookUps answer before ++ [.route b .broken]) (.error .broken) c.poison
  | removed {answer : BrokerIdentity → Option BrokerRoute}
      {visited gone : List (BrokerIdentity × CacheEntry η)} {c' : TopicCache η}
      (hpoisoned : c.poisoned = false) (hvisited : c.Visited visited)
      (hprune : c.prune visited (fun b => (answer b).isNone) = (gone, c')) :
      Prunes c (lookUps answer (visited.map (·.1)) ++ closingAll c'.entries gone) (.ok gone.length)
        c'

/-- All ways to remove all handles: what is asked for, the result, and the cache afterwards. -/
inductive Empties (c : TopicCache η) :
    List (Request η) → Except Stop Nat → TopicCache η → Prop where
  | poisoned (hpoisoned : c.poisoned = true) :
      Empties c [] (.error (.failure LockMode.write.failure)) c
  | removed {visited : List (BrokerIdentity × CacheEntry η)} (hpoisoned : c.poisoned = false)
      (hvisited : c.Visited visited) :
      Empties c (closingAll .empty visited) (.ok visited.length) (c.drain visited).2

/-- A use goes one way only, and its record shows which. -/
theorem record_unique {α : Type} {use : CacheUse η (σ × List (Request η)) α}
    {x : TopicCache η × (σ × List (Request η))} {result result' : Except Stop α}
    {c c' : TopicCache η} {w w' : σ} {rs requests requests' : List (Request η)}
    (h : use x = (result, (c, (w, rs ++ requests))))
    (h' : use x = (result', (c', (w', rs ++ requests')))) :
    result = result' ∧ c = c' ∧ requests = requests' := by
  obtain ⟨hresult, hstate⟩ := Prod.mk.inj (h.symm.trans h')
  obtain ⟨hcache, houter⟩ := Prod.mk.inj hstate
  exact ⟨hresult, hcache, List.append_cancel_left (Prod.mk.inj houter).2⟩

variable (k : Collaborators η σ) {c : TopicCache η} (w : σ) (rs : List (Request η))

/-- Every broker is asked for once, as long as the routing table answers; so the answers are those
of a function. -/
theorem absentAmong_lookUps {bs : List BrokerIdentity} (hbs : bs.Nodup) :
    ∃ answer w',
      absentAmong k bs (c, w) = (.ok (bs.filter fun b => (answer b).isNone), (c, w')) ∧
        absentAmong k.traced bs (c, (w, rs)) =
          (.ok (bs.filter fun b => (answer b).isNone), (c, (w', rs ++ lookUps answer bs))) ∨
      ∃ before b after, bs = before ++ b :: after ∧
        absentAmong k bs (c, w) = (.error .broken, (c, w')) ∧
        absentAmong k.traced bs (c, (w, rs)) =
          (.error .broken, (c, (w', rs ++ (lookUps answer before ++ [.route b .broken])))) := by
  induction bs generalizing w rs with
  | nil => exact ⟨fun _ => none, w, .inl ⟨rfl, by rw [lookUps, List.map_nil, List.append_nil]; rfl⟩⟩
  | cons b bs ih =>
    obtain ⟨hb, hbs⟩ := List.nodup_cons.1 hbs
    rcases hroute : k.route b w with ⟨a | _, w₁⟩
    · obtain ⟨answer, w', hcases⟩ := ih w₁ (rs ++ [.route b (.answer a)]) hbs
      -- The answer for `b` is put before those for the other brokers.
      let answer' := Function.update answer b a
      have hsame {bs' : List BrokerIdentity} (hbs' : ∀ x ∈ bs', x ∈ bs) :
          ∀ x ∈ bs', answer' x = answer x := fun x hx =>
        Function.update_of_ne (fun h : x = b => hb (h ▸ hbs' x hx)) a answer
      have hfirst : answer' b = a := Function.update_self b a answer
      have hlookUps {bs' : List BrokerIdentity} (hbs' : ∀ x ∈ bs', x ∈ bs) :
          lookUps (η := η) answer' (b :: bs') = .route b (.answer a) :: lookUps answer bs' := by
        rw [lookUps, List.map_cons, hfirst, lookUps]
        exact congrArg (_ :: ·) (List.map_congr_left fun x hx => by rw [hsame hbs' x hx])
      refine ⟨answer', w', ?_⟩
      rw [absentAmong_cons, absentAmong_cons, hroute, Collaborators.traced_route hroute]
      dsimp only
      rcases hcases with ⟨heq, htraced⟩ | ⟨before, x, after, rfl, heq, htraced⟩
      · have hfilter : (b :: bs).filter (fun x => (answer' x).isNone) =
            if a.isNone then b :: bs.filter fun x => (answer x).isNone
            else bs.filter fun x => (answer x).isNone := by
          rw [List.filter_cons, hfirst, List.filter_congr fun x hx => by
            rw [hsame (fun _ h => h) x hx]]
        rw [heq, htraced, hfilter, hlookUps fun _ h => h, List.append_assoc]
        exact .inl ⟨rfl, rfl⟩
      · have hbefore : ∀ y ∈ before, y ∈ before ++ x :: after := fun y hy =>
          List.mem_append_left _ hy
        rw [heq, htraced, List.append_assoc]
        refine .inr ⟨b :: before, x, after, rfl, rfl, ?_⟩
        rw [hlookUps hbefore]
        rfl
    · refine ⟨fun _ => none, w₁, .inr ⟨[], b, bs, rfl, ?_, ?_⟩⟩
      · rw [absentAmong_cons, hroute]
      · rw [absentAmong_cons, Collaborators.traced_route hroute]
        rfl

/-- The handles of removed entries are closed one after another; the cache stays as it is. -/
theorem closeEach_closingAll (reports : BrokerIdentity × CacheEntry η → List LogEntry)
    (gone : List (BrokerIdentity × CacheEntry η)) :
    ∃ w', closeEach k (gone.map fun e => ⟨e.2.handle, reports e⟩) (c, w) = (.ok (), (c, w')) ∧
      closeEach k.traced (gone.map fun e => ⟨e.2.handle, reports e⟩) (c, (w, rs)) =
        (.ok (), (c, (w', rs ++ closingAll c.entries gone))) := by
  induction gone generalizing w rs with
  | nil => exact ⟨w, rfl, by rw [closingAll, List.map_nil, List.map_nil, List.append_nil]; rfl⟩
  | cons e gone ih =>
    obtain ⟨w', heq, htraced⟩ := ih (k.close c e.2.handle (k.reportAll (reports e) w))
      (rs ++ [.closing c.entries e.2.handle])
    refine ⟨w', ?_, ?_⟩
    · rw [List.map_cons, closeEach, bind_apply, close_apply]
      exact heq
    · rw [List.map_cons, closeEach, bind_apply, close_apply, Collaborators.traced_reportAll]
      refine htraced.trans ?_
      rw [List.append_assoc]
      rfl

/-- Both removals take handles out of the cache, close them and count them. -/
theorem closeTaken_apply (take : CacheUse η σ (List (Removed η))) (x : TopicCache η × σ) :
    (do
      let removed ← take
      closeEach k removed
      return removed.length : CacheUse η σ Nat) x =
      match take x with
      | (.error e, y) => (.error e, y)
      | (.ok removed, y) =>
        match closeEach k removed y with
        | (.error e, z) => (.error e, z)
        | (.ok _, z) => (.ok removed.length, z) := by
  rw [bind_apply]
  rcases take x with ⟨e | removed, y⟩
  · rfl
  · dsimp only
    rw [bind_apply]
    rcases closeEach k removed y with ⟨e | _, z⟩ <;> rfl

theorem pruneAbsent_apply (x : TopicCache η × σ) :
    pruneAbsent k x =
      match takeAbsent k x with
      | (.error e, y) => (.error e, y)
      | (.ok removed, y) =>
        match closeEach k removed y with
        | (.error e, z) => (.error e, z)
        | (.ok _, z) => (.ok removed.length, z) :=
  closeTaken_apply k (takeAbsent k) x

theorem closeAll_apply (x : TopicCache η × σ) :
    closeAll k x =
      match takeAll k x with
      | (.error e, y) => (.error e, y)
      | (.ok removed, y) =>
        match closeEach k removed y with
        | (.error e, z) => (.error e, z)
        | (.ok _, z) => (.ok removed.length, z) :=
  closeTaken_apply k (takeAll k) x

/-- There are no other ways to remove the handles of absent brokers, and the record shows the way
that was taken. -/
theorem pruneAbsent_prunes (c : TopicCache η) :
    ∃ requests result c' w', pruneAbsent k (c, w) = (result, (c', w')) ∧
      pruneAbsent k.traced (c, (w, rs)) = (result, (c', (w', rs ++ requests))) ∧
      Prunes c requests result c' := by
  simp only [pruneAbsent_apply, takeAbsent_apply]
  cases hpoisoned : c.poisoned with
  | true =>
    simp only [if_true, Collaborators.traced_reportAll]
    exact ⟨[], _, _, _, rfl, by rw [List.append_nil], .poisoned hpoisoned⟩
  | false =>
    simp only [Bool.false_eq_true, if_false, Collaborators.traced_visit]
    rcases k.visit c.entries.toList w with ⟨visited, hv⟩
    change c.Visited visited at hv
    dsimp only
    obtain ⟨answer, w₁, ⟨heq, htraced⟩ | ⟨before, b, after, hbrokers, heq, htraced⟩⟩ :=
      absentAmong_lookUps k w rs hv.nodup (c := c)
    · have hprune : c.prune visited ((visited.map (·.1)).filter fun b => (answer b).isNone).contains =
          c.prune visited fun b => (answer b).isNone := by
        refine hv.prune_congr fun b hb => ?_
        rw [Bool.eq_iff_iff, List.contains_iff_mem, List.mem_filter]
        exact and_iff_right (hv.brokers_perm.mem_iff.2 hb)
      simp only [heq, htraced, hprune]
      obtain ⟨w₂, hclose, hclosetraced⟩ := closeEach_closingAll k w₁
        (rs ++ lookUps answer (visited.map (·.1))) (fun e => [pruneReport e])
        (c.prune visited fun b => (answer b).isNone).1
        (c := (c.prune visited fun b => (answer b).isNone).2)
      rw [hclose, hclosetraced, List.append_assoc, List.length_map]
      exact ⟨_, _, _, _, rfl, rfl, .removed hpoisoned hv rfl⟩
    · simp only [heq, htraced]
      exact ⟨_, _, _, _, rfl, rfl, .lookUpBreaks hpoisoned (hbrokers ▸ hv.brokers_perm)⟩

/-- There are no other ways to remove all handles, and the record shows the way that was taken. -/
theorem closeAll_empties (c : TopicCache η) :
    ∃ requests result c' w', closeAll k (c, w) = (result, (c', w')) ∧
      closeAll k.traced (c, (w, rs)) = (result, (c', (w', rs ++ requests))) ∧
      Empties c requests result c' := by
  simp only [closeAll_apply, takeAll_apply]
  cases hpoisoned : c.poisoned with
  | true =>
    simp only [if_true, Collaborators.traced_reportAll]
    exact ⟨[], _, _, _, rfl, by rw [List.append_nil], .poisoned hpoisoned⟩
  | false =>
    simp only [Bool.false_eq_true, if_false, Collaborators.traced_visit]
    rcases k.visit c.entries.toList w with ⟨visited, hv⟩
    dsimp only
    obtain ⟨w', hclose, hclosetraced⟩ :=
      closeEach_closingAll k w rs (fun _ => []) visited (c := (c.drain visited).2)
    rw [hclose, hclosetraced, List.length_map]
    exact ⟨_, _, _, _, rfl, rfl, .removed hpoisoned hv⟩

/-- A poisoned cache gives out no handle. It is only found out after the first look at the route. -/
theorem getOrCreate_of_poisoned (b : BrokerIdentity) (hpoisoned : c.poisoned = true) :
    getOrCreate k b (c, w) =
      match k.route b w with
      | (.broken, w') => (.error .broken, (c, w'))
      | (.answer a, w') =>
        let w' := k.reportAll (topicReport b a) w'
        match topicOf b a with
        | .error f => (.error (.failure f), (c, w'))
        | .ok _ =>
          (.error (.failure LockMode.read.failure), (c, k.reportAll [LockMode.read.report] w')) := by
  rw [getOrCreate_apply, resolve_apply]
  rcases k.route b w with ⟨a | _, w'⟩
  · dsimp only
    cases topicOf b a with
    | error f => rfl
    | ok t =>
      dsimp only
      rw [peek_apply, if_pos hpoisoned]
  · rfl

/-- So all that it asks for is one look at the route. -/
theorem getOrCreate_looks_once (b : BrokerIdentity) (hpoisoned : c.poisoned = true) :
    ∃ reply result w', getOrCreate k.traced b (c, (w, rs)) =
      (result, (c, (w', rs ++ [.route b reply]))) := by
  rw [getOrCreate_of_poisoned _ _ b hpoisoned]
  rcases hroute : k.route b w with ⟨a | _, w'⟩
  · rw [Collaborators.traced_route hroute]
    dsimp only
    cases topicOf b a with
    | error f =>
      rw [Collaborators.traced_reportAll]
      exact ⟨_, _, _, rfl⟩
    | ok t =>
      rw [Collaborators.traced_reportAll, Collaborators.traced_reportAll]
      exact ⟨_, _, _, rfl⟩
  · rw [Collaborators.traced_route hroute]
    exact ⟨_, _, _, rfl⟩

/-- Entries after a handle was got were there before, or their handle was opened for their topic. -/
theorem Gets.entry {k : Collaborators η σ} {c' : TopicCache η} {b b' : BrokerIdentity}
    {requests : List (Request η)} {result : Except Stop η} (hgets : Gets k c b requests result c')
    {h : η} {t : TopicId} (hentry : c'.entries.find? b' = some ⟨h, t⟩) :
    c.entries.find? b' = some ⟨h, t⟩ ∨ (t, .answer (.ok h)) ∈ openings requests := by
  -- After a binding, the entry is the new one or was there.
  have hbind {e : CacheEntry η} (hentry : (c.bind b e).2.entries.find? b' = some ⟨h, t⟩) :
      e = ⟨h, t⟩ ∨ c.entries.find? b' = some ⟨h, t⟩ := by
    rw [TopicCache.bind, SortedMap.find?_insert] at hentry
    split at hentry
    · exact .inl (Option.some.inj hentry)
    · exact .inr hentry
  cases hgets with
  | missed hreply hroute hmiss hinstall =>
    cases hinstall with
    | opened hreply' hroute' hnone =>
      rcases hbind hentry with heq | hold
      · cases heq
        exact .inr List.mem_cons_self
      · exact .inl hold
    | rotated hreply' hroute' hold' hother =>
      rcases hbind hentry with heq | hold
      · cases heq
        exact .inr List.mem_cons_self
      · exact .inl hold
    | _ => exact .inl hentry
  | _ => exact .inl hentry

end TopicCache

/-! ## Uses in general -/

open TopicCache Request

/-- A use of a cache. -/
inductive Errand where
  | get (b : BrokerIdentity)
  | prune
  | closeAll

namespace Errand

/-- The use itself. What it yields does not matter here, only whether it comes to its end. -/
def run (k : Collaborators η σ) : Errand → CacheUse η σ Unit
  | get b => do let _ ← getOrCreate k b
  | prune => do let _ ← pruneAbsent k
  | closeAll => do let _ ← TopicCache.closeAll k

/-- All ways for a use to go: what is asked for, how it ends, and the cache afterwards. -/
inductive Goes (k : Collaborators η σ) (c : TopicCache η) :
    Errand → List (Request η) → Except Stop Unit → TopicCache η → Prop where
  | got {b : BrokerIdentity} {requests : List (Request η)} {result : Except Stop η}
      {c' : TopicCache η} (hgets : Gets k c b requests result c')
      (hpoisoned : c.poisoned = true → c' = c ∧ ∃ reply, requests = [.route b reply]) :
      Goes k c (.get b) requests (result.map fun _ => ()) c'
  | pruned {requests : List (Request η)} {result : Except Stop Nat} {c' : TopicCache η}
      (hprunes : Prunes c requests result c') :
      Goes k c .prune requests (result.map fun _ => ()) c'
  | emptied {requests : List (Request η)} {result : Except Stop Nat} {c' : TopicCache η}
      (hempties : Empties c requests result c') :
      Goes k c .closeAll requests (result.map fun _ => ()) c'

/-- There are no other ways, and the record shows the way that was taken. -/
theorem run_goes (k : Collaborators η σ) (errand : Errand) (c : TopicCache η) (w : σ)
    (rs : List (Request η)) :
    ∃ requests result c' w', errand.run k (c, w) = (result, (c', w')) ∧
      errand.run k.traced (c, (w, rs)) = (result, (c', (w', rs ++ requests))) ∧
      Goes k c errand requests result c' := by
  cases errand with
  | get b =>
    obtain ⟨requests, result, c', w', heq, htraced, hgets⟩ := getOrCreate_gets k b w rs c
    have hpoisoned : c.poisoned = true → c' = c ∧ ∃ reply, requests = [.route b reply] := by
      intro hpoisoned
      obtain ⟨reply, result₁, w₁, hone⟩ := getOrCreate_looks_once k w rs b hpoisoned
      obtain ⟨-, hsame, hrequests⟩ := record_unique htraced hone
      exact ⟨hsame, reply, hrequests⟩
    refine ⟨requests, _, c', w', ?_, ?_, .got hgets hpoisoned⟩
    · rw [run, CacheUse.bind_apply, heq]
      cases result <;> rfl
    · rw [run, CacheUse.bind_apply, htraced]
      cases result <;> rfl
  | prune =>
    obtain ⟨requests, result, c', w', heq, htraced, hprunes⟩ := pruneAbsent_prunes k w rs c
    refine ⟨requests, _, c', w', ?_, ?_, .pruned hprunes⟩
    · rw [run, CacheUse.bind_apply, heq]
      cases result <;> rfl
    · rw [run, CacheUse.bind_apply, htraced]
      cases result <;> rfl
  | closeAll =>
    obtain ⟨requests, result, c', w', heq, htraced, hempties⟩ := closeAll_empties k w rs c
    refine ⟨requests, _, c', w', ?_, ?_, .emptied hempties⟩
    · rw [run, CacheUse.bind_apply, heq]
      cases result <;> rfl
    · rw [run, CacheUse.bind_apply, htraced]
      cases result <;> rfl

end Errand

/-! ## One use after another -/

/-- What happens to a cache and around it. -/
inductive Episode (σ : Type) where
  | use (errand : Errand)
  /-- Something changes outside the cache. -/
  | change (w : σ)

/-- What an episode makes of a cache, of what is outside it, and of the record. -/
def Episode.next (k : Collaborators η σ) (x : TopicCache η × (σ × List (Request η))) :
    Episode σ → TopicCache η × (σ × List (Request η))
  | use errand => (errand.run k.traced x).2
  | change w => (x.1, (w, x.2.2))

/-- What some episodes make of them, one after another. -/
def afterAll (k : Collaborators η σ) (x : TopicCache η × (σ × List (Request η)))
    (episodes : List (Episode σ)) : TopicCache η × (σ × List (Request η)) :=
  episodes.foldl (Episode.next k) x

/-- What every use keeps of a cache and the record holds after all episodes. -/
theorem afterAll_invariant {k : Collaborators η σ}
    {P : TopicCache η → List (Request η) → Prop}
    (hstep : ∀ c rs errand requests result c', P c rs → Errand.Goes k c errand requests result c' →
      P c' (rs ++ requests))
    (episodes : List (Episode σ)) {c : TopicCache η} {rs : List (Request η)} (h : P c rs) (w : σ) :
    P (afterAll k (c, (w, rs)) episodes).1 (afterAll k (c, (w, rs)) episodes).2.2 := by
  induction episodes generalizing c w rs with
  | nil => exact h
  | cons episode episodes ih =>
    rw [afterAll, List.foldl_cons]
    cases episode with
    | change w' => exact ih h w'
    | use errand =>
      obtain ⟨requests, result, c', w', -, htraced, hgoes⟩ := errand.run_goes k c w rs
      rw [Episode.next, htraced]
      exact ih (hstep c rs errand requests result c' h hgoes) w'

/-- An entry was there before, or its handle was opened for its topic on the way. -/
theorem Errand.Goes.entry {k : Collaborators η σ} {c c' : TopicCache η} {errand : Errand}
    {requests : List (Request η)} {result : Except Stop Unit}
    (hgoes : Goes k c errand requests result c') {b : BrokerIdentity} {h : η} {t : TopicId}
    (hentry : c'.entries.find? b = some ⟨h, t⟩) :
    c.entries.find? b = some ⟨h, t⟩ ∨ (t, .answer (.ok h)) ∈ openings requests := by
  cases hgoes with
  | got hgets => exact hgets.entry hentry
  | pruned hprunes =>
    cases hprunes with
    | removed hpoisoned hvisited hprune =>
      cases hprune
      exact .inl (SortedMap.find?_filter_eq_some_iff.1 hentry).1
    | _ => exact .inl hentry
  | emptied hempties =>
    cases hempties with
    | removed hpoisoned => cases hentry
    | poisoned => exact .inl hentry

end EventIngress
