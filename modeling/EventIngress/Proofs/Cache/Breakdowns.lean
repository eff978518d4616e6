import EventIngress.Proofs.Cache.Errands
import EventIngress.Sink.World

/-!
# Collaborators that break down under the exclusive lock

The routing table is asked and the factory opens handles while the exclusive lock of a cache is held.
If one of them breaks down then, the use of the cache ends and the lock is poisoned. The entries have
not been changed at that point, and from then on nothing changes them: a poisoned cache can be looked
at, and nothing else.

Results:

* `Errand.BreaksUnderLock`: which uses break down under the exclusive lock;
  `Errand.Goes.poisoned_iff`: exactly these poison it.
* `TopicCache.Refuses`, `TopicCache.refuses_of_poisoned`: what a poisoned cache answers.
* `TopicCache.afterAll_of_poisoned`: nothing happens in a poisoned cache.
* `TopicCache.breakdown_freezes`: a breakdown under the lock, and what comes later.
-/

namespace EventIngress

open TopicCache Request

variable {η σ : Type} {k : Collaborators η σ} {c c' : TopicCache η} {errand : Errand}
  {requests : List (Request η)} {result : Except Stop Unit}

/-! ## Breakdowns -/

/-- A collaborator breaks down under the exclusive lock: the routing table at the second look at the
route of a broker or at any look for absent brokers, or the factory. -/
def Errand.BreaksUnderLock : Errand → List (Request η) → Prop
  | get b, requests =>
    (∃ a, requests = [.route b (.answer a), .route b .broken]) ∨
      ∃ a₁ a₂ t, requests = [.route b (.answer a₁), .route b (.answer a₂), .opening t .broken]
  | prune, requests => ∃ b, .route b .broken ∈ requests
  | closeAll, _ => False

theorem Request.broken_notMem_removed {answer : BrokerIdentity → Option BrokerRoute}
    {bs : List BrokerIdentity} {left : SortedMap BrokerIdentity (CacheEntry η)}
    {gone : List (BrokerIdentity × CacheEntry η)} {b : BrokerIdentity} :
    .route b .broken ∉ lookUps answer bs ++ closingAll left gone := by
  rw [List.mem_append]
  rintro (hlook | hclose)
  · cases (mem_lookUps.1 hlook).2
  · obtain ⟨e, -, ⟨⟩⟩ := List.mem_map.1 hclose

/-- The lock gets poisoned by a breakdown under it, and by nothing else. -/
theorem Errand.Goes.poisoned_iff (hgoes : Goes k c errand requests result c') :
    c'.poisoned = true ↔ c.poisoned = true ∨ errand.BreaksUnderLock requests := by
  cases hgoes with
  | got hgets =>
    cases hgets with
    | missed hreply hroute hmiss hinstall =>
      cases hinstall with
      | lookUpBreaks => exact iff_of_true rfl (.inr (.inl ⟨_, rfl⟩))
      | openingBreaks => exact iff_of_true rfl (.inr (.inr ⟨_, _, _, rfl⟩))
      | _ => exact ⟨.inl, fun h => h.elim id (by rintro (⟨_, ⟨⟩⟩ | ⟨_, _, _, ⟨⟩⟩))⟩
    | _ => exact ⟨.inl, fun h => h.elim id (by rintro (⟨_, ⟨⟩⟩ | ⟨_, _, _, ⟨⟩⟩))⟩
  | pruned hprunes =>
    cases hprunes with
    | poisoned hpoisoned => exact iff_of_true hpoisoned (.inl hpoisoned)
    | lookUpBreaks =>
      exact iff_of_true rfl (.inr ⟨_, List.mem_append_right _ List.mem_cons_self⟩)
    | removed hpoisoned hvisited hprune =>
      cases hprune
      refine ⟨.inl, fun h => h.elim id ?_⟩
      rintro ⟨b, hb⟩
      exact absurd hb broken_notMem_removed
  | emptied hempties =>
    cases hempties with
    | poisoned hpoisoned => exact iff_of_true hpoisoned (.inl hpoisoned)
    | removed => exact ⟨.inl, fun h => h.elim id False.elim⟩

/-- At a breakdown under the lock nothing has changed yet: no handle was opened or closed. -/
theorem Errand.Goes.of_breaksUnderLock (hgoes : Goes k c errand requests result c')
    (hbreaks : errand.BreaksUnderLock requests) :
    result = .error .broken ∧ c' = c.poison ∧ (∀ t h, (t, .answer (.ok h)) ∉ openings requests) ∧
      closings requests = [] := by
  cases hgoes with
  | got hgets =>
    rcases hbreaks with ⟨a, rfl⟩ | ⟨a₁, a₂, t, rfl⟩
    · cases hgets with
      | missed hreply hroute hmiss hinstall =>
        cases hinstall with
        | lookUpBreaks => exact ⟨rfl, rfl, fun _ _ => List.not_mem_nil, rfl⟩
    · cases hgets with
      | missed hreply hroute hmiss hinstall =>
        cases hinstall with
        | openingBreaks =>
          refine ⟨rfl, rfl, fun t' h hmem => ?_, rfl⟩
          cases List.mem_singleton.1 hmem
  | pruned hprunes =>
    obtain ⟨b, hb⟩ := hbreaks
    cases hprunes with
    | poisoned => exact absurd hb List.not_mem_nil
    | lookUpBreaks =>
      rw [openings_append, openings_lookUps, closings_append, closings_lookUps]
      exact ⟨rfl, rfl, fun _ _ => List.not_mem_nil, rfl⟩
    | removed => exact absurd hb broken_notMem_removed
  | emptied => exact hbreaks.elim

/-! ## Poisoned caches -/

/-- A use of a poisoned cache leaves it as it is, and opens or closes no handle. -/
theorem Errand.Goes.of_poisoned (hgoes : Goes k c errand requests result c')
    (hpoisoned : c.poisoned = true) : c' = c ∧ openings requests = [] ∧ closings requests = [] := by
  cases hgoes with
  | got hgets hlook =>
    obtain ⟨rfl, reply, rfl⟩ := hlook hpoisoned
    exact ⟨rfl, rfl, rfl⟩
  | pruned hprunes =>
    cases hprunes with
    | poisoned => exact ⟨rfl, rfl, rfl⟩
    | lookUpBreaks hfree => cases hpoisoned.symm.trans hfree
    | removed hfree => cases hpoisoned.symm.trans hfree
  | emptied hempties =>
    cases hempties with
    | poisoned => exact ⟨rfl, rfl, rfl⟩
    | removed hfree => cases hpoisoned.symm.trans hfree

namespace TopicCache

/-- Every use of a cache is refused. The failures that a route stands for are still told. -/
structure Refuses (k : Collaborators η σ) (c : TopicCache η) (w : σ) : Prop where
  unrouted : ∀ b a f, (k.route b w).1 = .answer a → topicOf b a = .error f →
    (getOrCreate k b (c, w)).1 = .error (.failure f)
  routed : ∀ b a t, (k.route b w).1 = .answer a → topicOf b a = .ok t →
    (getOrCreate k b (c, w)).1 = .error (.failure (.internal "topic cache read lock poisoned"))
  prune : (pruneAbsent k (c, w)).1 =
    .error (.failure (.internal "topic cache write lock poisoned"))
  closeAll : (TopicCache.closeAll k (c, w)).1 =
    .error (.failure (.internal "topic cache write lock poisoned"))

theorem refuses_of_poisoned (k : Collaborators η σ) (hpoisoned : c.poisoned = true) (w : σ) :
    Refuses k c w := by
  refine ⟨?_, ?_, ?_, ?_⟩
  · intro b a f hroute htopic
    rw [getOrCreate_of_poisoned k w b hpoisoned]
    rcases hreply : k.route b w with ⟨reply, w'⟩
    obtain rfl : reply = .answer a := (congrArg Prod.fst hreply).symm.trans hroute
    simp only [htopic]
  · intro b a t hroute htopic
    rw [getOrCreate_of_poisoned k w b hpoisoned]
    rcases hreply : k.route b w with ⟨reply, w'⟩
    obtain rfl : reply = .answer a := (congrArg Prod.fst hreply).symm.trans hroute
    simp only [htopic]
    rfl
  · rw [pruneAbsent_apply, takeAbsent_apply, if_pos hpoisoned]
    rfl
  · rw [closeAll_apply, takeAll_apply, if_pos hpoisoned]
    rfl

/-- Nothing happens in a poisoned cache. -/
theorem afterAll_of_poisoned (k : Collaborators η σ) (hpoisoned : c.poisoned = true) (w : σ)
    (episodes : List (Episode σ)) :
    (afterAll k (c, (w, [])) episodes).1 = c ∧
      openings (afterAll k (c, (w, [])) episodes).2.2 = [] ∧
      closings (afterAll k (c, (w, [])) episodes).2.2 = [] := by
  refine afterAll_invariant
    (P := fun c₁ rs => c₁ = c ∧ openings rs = [] ∧ closings rs = []) ?_ episodes ⟨rfl, rfl, rfl⟩ w
  rintro c₁ rs errand requests result c' ⟨rfl, hopenings, hclosings⟩ hgoes
  obtain ⟨hsame, hopenings', hclosings'⟩ := hgoes.of_poisoned hpoisoned
  refine ⟨hsame, ?_, ?_⟩
  · rw [openings_append, hopenings, hopenings']
    rfl
  · rw [closings_append, hclosings, hclosings']
    rfl

/-! ## Breakdowns and what comes later -/

/-- If a collaborator breaks down under the exclusive lock, the use of the cache ends there and the
lock is poisoned; nothing else poisons it. No handle has been opened or closed by then, and the
entries are as before. Whatever happens later, no handle is opened or closed, the entries stay, they
can still be looked at, and every use is refused. -/
theorem breakdown_freezes (k : Collaborators η σ) (c : TopicCache η) (errand : Errand) (w : σ) :
    ∃ requests result c' w', errand.run k (c, w) = (result, (c', w')) ∧
      errand.run k.traced (c, (w, [])) = (result, (c', (w', requests))) ∧
      (c'.poisoned = true ↔ c.poisoned = true ∨ errand.BreaksUnderLock requests) ∧
      (errand.BreaksUnderLock requests →
        result = .error .broken ∧ c'.entries = c.entries ∧
        (∀ t h, (t, .answer (.ok h)) ∉ openings requests) ∧ closings requests = [] ∧
        ∀ (w₁ : σ) (episodes : List (Episode σ)) c₂ w₂ rs,
          afterAll k (c', (w₁, [])) episodes = (c₂, (w₂, rs)) →
          openings rs = [] ∧ closings rs = [] ∧ c₂.entries = c.entries ∧ c₂.size = c.size ∧
            c₂.isEmpty = c.isEmpty ∧ (∀ b, c₂.boundTopic? b = c.boundTopic? b) ∧
            Refuses k c₂ w₂) := by
  obtain ⟨requests, result, c', w', heq, htraced, hgoes⟩ := errand.run_goes k c w []
  refine ⟨requests, result, c', w', heq, htraced, hgoes.poisoned_iff, fun hbreaks => ?_⟩
  obtain ⟨hresult, rfl, hopened, hclosings⟩ := hgoes.of_breaksUnderLock hbreaks
  refine ⟨hresult, rfl, hopened, hclosings, ?_⟩
  intro w₁ episodes c₂ w₂ rs hlater
  have hfrozen := afterAll_of_poisoned k (c := c.poison) rfl w₁ episodes
  rw [hlater] at hfrozen
  obtain ⟨rfl, hopenings, hclosings⟩ := hfrozen
  exact ⟨hopenings, hclosings, rfl, rfl, rfl, fun _ => rfl, refuses_of_poisoned k rfl w₂⟩

/-- The topic of a handle. -/
def northTopic : TopicId :=
  .bare "north" (by decide)

/-- A cache where a broker has that handle. -/
def oneBroker : TopicCache Nat where
  entries := .ofList [(⟨"team", "orders"⟩, ⟨0, northTopic⟩)]

/-- A routing table that has another topic for the broker by now, and a factory that breaks down. -/
def breakingFactory : World where
  table := .ofList [(⟨"team", "orders"⟩, ⟨.ready, "south"⟩)]
  trouble := some .breaks

/-- A rotation that breaks down leaves the handle in the cache. It is not given out any more, even if
the route names its topic again. -/
theorem breakdown_freezes_rotation :
    let b : BrokerIdentity := ⟨"team", "orders"⟩
    let again : World := { table := .ofList [(b, ⟨.ready, "north"⟩)] }
    ∃ c' w', (Errand.get b).run World.collaborators (oneBroker, breakingFactory) =
        (.error .broken, (c', w')) ∧
      c'.boundTopic? b = some northTopic ∧
      (getOrCreate World.collaborators b (c', again)).1 =
        .error (.failure (.internal "topic cache read lock poisoned")) := by
  intro b again
  obtain ⟨requests, result, c', w', heq, -, hpoisons, hfreezes⟩ :=
    breakdown_freezes World.collaborators oneBroker (.get b) breakingFactory
  have hpoisoned : ((Errand.get b).run World.collaborators
      (oneBroker, breakingFactory)).2.1.poisoned = true := by
    decide +kernel
  rw [heq] at hpoisoned
  have hbreaks := (hpoisons.1 hpoisoned).resolve_left Bool.false_ne_true
  obtain ⟨rfl, -, -, -, hlater⟩ := hfreezes hbreaks
  obtain ⟨-, -, -, -, -, hbound, hrefuses⟩ := hlater again [] c' again [] rfl
  have hroute : again.table.find? b = some ⟨.ready, "north"⟩ := by decide +kernel
  have htopic : topicOf b (some ⟨.ready, "north"⟩) = .ok northTopic := rfl
  exact ⟨c', w', heq, (hbound b).trans (by decide +kernel),
    hrefuses.routed b _ _ (congrArg Reply.answer hroute) htopic⟩

end TopicCache

end EventIngress
