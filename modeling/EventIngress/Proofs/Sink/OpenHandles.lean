import EventIngress.Proofs.Cache.Parts
import EventIngress.Sink.Bench

/-!
# A cache over a table in memory and a channel

With a routing table in memory, whose answers are not laid down, and a channel that is received
from, the entries of a cache have open handles of their own. Getting a handle keeps this, and so
does every removal, since only handles that no entry has are closed.

Results:

* `Tidy`: the entries of a cache have open handles, each its own.
* `Tidy.getOrCreate_error`, `Tidy.getOrCreate_ok`: a cache in this order yields a handle exactly if
  the route of the broker leads to a topic, and the handle is open and bound to that topic.
* `Tidy.pruneAbsent`, `Tidy.closeAll`: the removals keep the order.
-/

namespace EventIngress

namespace World

/-! ## What collaborators do unnoticed -/

/-- Nothing has happened but look-ups and reports. -/
def Unnoticed (w w' : World) : Prop :=
  w' = { w with lookups := w'.lookups, reports := w'.reports }

/-- The table and the transport are as they were. -/
def Kept (w w' : World) : Prop :=
  w'.table = w.table ∧ w'.transport = w.transport

theorem Unnoticed.trans {w w' w'' : World} (h : Unnoticed w w') (h' : Unnoticed w' w'') :
    Unnoticed w w'' := by
  unfold Unnoticed at *
  rw [h', h]

/-- A look-up is not noticed. -/
theorem unnoticed_lookup (w : World) : Unnoticed w { w with lookups := w.lookups + 1 } :=
  rfl

theorem Unnoticed.kept {w w' : World} (h : Unnoticed w w') : Kept w w' := by
  unfold Unnoticed at h
  rw [h]
  exact ⟨rfl, rfl⟩

theorem Kept.trans {w w' w'' : World} (h : Kept w w') (h' : Kept w' w'') : Kept w w'' :=
  ⟨h'.1.trans h.1, h'.2.trans h.2⟩

theorem route_apply {w : World} (hs : w.script = []) (b : BrokerIdentity) :
    collaborators.route b w =
      (.answer (w.table.find? b), { w with lookups := w.lookups + 1 }) := by
  show World.route b w = _
  rw [World.route]
  simp only [hs]

theorem reportAll_apply (entries : List LogEntry) (w : World) :
    collaborators.reportAll entries w = { w with reports := w.reports ++ entries } := by
  induction entries generalizing w with
  | nil => rw [List.append_nil]; rfl
  | cons e entries ih =>
    rw [Collaborators.reportAll, List.foldl_cons]
    refine (ih _).trans ?_
    show { w with reports := w.reports ++ [e] ++ entries } = _
    rw [List.append_assoc]
    rfl

theorem unnoticed_reportAll (entries : List LogEntry) (w : World) :
    Unnoticed w (collaborators.reportAll entries w) := by
  rw [reportAll_apply]
  rfl

theorem resolve_apply {w : World} (hs : w.script = []) (b : BrokerIdentity) (c : TopicCache Nat) :
    ∃ w', CacheUse.resolve collaborators b (c, w) =
      (match topicOf b (w.table.find? b) with
        | .ok t => (.ok t, (c, w'))
        | .error f => (.error (.failure f), (c, w'))) ∧ Unnoticed w w' := by
  rw [CacheUse.resolve_apply, route_apply hs]
  exact ⟨_, rfl, (unnoticed_lookup w).trans (unnoticed_reportAll _ _)⟩

theorem absentAmong_apply (bs : List BrokerIdentity) {w : World} (hs : w.script = [])
    (c : TopicCache Nat) :
    ∃ absent w', TopicCache.absentAmong collaborators bs (c, w) = (.ok absent, (c, w')) ∧
      Unnoticed w w' := by
  induction bs generalizing w with
  | nil => exact ⟨[], w, rfl, rfl⟩
  | cons b bs ih =>
    obtain ⟨absent, w', heq, hw⟩ := ih (w := { w with lookups := w.lookups + 1 }) hs
    rw [TopicCache.absentAmong_cons, route_apply hs]
    simp only [heq]
    exact ⟨_, w', rfl, (unnoticed_lookup w).trans hw⟩

/-- A handle is there, for the topic, and open. -/
def OpenAt (w : World) (h : Nat) (t : TopicId) : Prop :=
  ∃ x, w.handles[h]? = some x ∧ x.topic = t ∧ x.closed = false

theorem OpenAt.lt_length {w : World} {h : Nat} {t : TopicId} (ho : w.OpenAt h t) :
    h < w.handles.length := by
  obtain ⟨x, hx, -⟩ := ho
  exact (List.getElem?_eq_some_iff.1 hx).1

/-- An open handle stays open under changes to other handles, and under changes that leave its topic
and its state. -/
theorem OpenAt.modifyHandle {w : World} {h : Nat} {t : TopicId} (ho : w.OpenAt h t) (i : Nat)
    (f : Handle → Handle) (hf : h ≠ i ∨ ∀ x, (f x).topic = x.topic ∧ (f x).closed = x.closed) :
    (w.modifyHandle i f).OpenAt h t := by
  obtain ⟨x, hx, htopic, hopen⟩ := ho
  have hget : (w.modifyHandle i f).handles[h]? = if i = h then some (f x) else some x := by
    show (w.handles.modify i f)[h]? = _
    rw [List.getElem?_modify, hx]
    split <;> rfl
  rcases hf with hne | hsame
  · rw [if_neg (Ne.symm hne)] at hget
    exact ⟨x, hget, htopic, hopen⟩
  · split at hget
    · exact ⟨f x, hget, (hsame x).1.trans htopic, (hsame x).2.trans hopen⟩
    · exact ⟨x, hget, htopic, hopen⟩

end World

/-! ## The channel -/

namespace Channel

/-- A publish for which there is room is answered at once. -/
theorem publish_of_room {c : Channel} (hreceiving : c.receiving = true)
    (hroom : c.queue.length < c.capacity) (t : TopicId) (ticket : Nat) (m : Message) :
    c.publish t false ticket m =
      (.ended (.ok ⟨c.issuer.next.1, t⟩),
        { c with
          issuer := c.issuer.next.2
          queue := c.queue ++ [⟨m, t, c.issuer.next.1⟩] }) := by
  rw [publish, if_neg Bool.false_ne_true]
  dsimp only
  rw [hreceiving, if_neg (by simp), if_pos hroom]
  rfl

/-- Where nobody waits, receiving ends no publish. -/
theorem receive_of_idle {c : Channel} (hwaiting : c.waiting = []) :
    ∃ d c', c.receive = (d, none, c') ∧ c'.receiving = c.receiving ∧ c'.waiting = [] := by
  unfold receive
  cases c.queue with
  | nil => exact ⟨none, c, rfl, rfl, hwaiting⟩
  | cons d queue =>
    simp only [hwaiting]
    exact ⟨_, _, rfl, rfl, rfl⟩

end Channel

/-! ## Caches in order -/

/-- A cache and its surroundings are in order: the entries have open handles for their topics, each
its own; the routing table answers by its routes; and the channel is received from and nobody waits
for room. -/
structure Tidy (c : TopicCache Nat) (w : World) : Prop where
  unpoisoned : c.poisoned = false
  script : w.script = []
  trouble : w.trouble = none
  channel : ∃ ch, w.transport = .channel ch ∧ ch.receiving = true ∧ ch.waiting = []
  openAt : ∀ b e, c.entries.find? b = some e → w.OpenAt e.handle e.topic
  own : ∀ b b' e e', c.entries.find? b = some e → c.entries.find? b' = some e' →
    e.handle = e'.handle → b = b'

/-- No entry has the handle. -/
def TopicCache.Lacks (c : TopicCache Nat) (h : Nat) : Prop :=
  ∀ b e, c.entries.find? b = some e → e.handle ≠ h

namespace Tidy

open World

variable {c : TopicCache Nat} {w w' : World} {b : BrokerIdentity} {t : TopicId}

theorem unnoticed (hc : Tidy c w) (hw : Unnoticed w w') : Tidy c w' := by
  unfold Unnoticed at hw
  rw [hw]
  exact ⟨hc.unpoisoned, hc.script, hc.trouble, hc.channel, hc.openAt, hc.own⟩

/-- The handles of entries are left as they are where others are changed, or where topic and state
stay. -/
theorem modifyHandle (hc : Tidy c w) (i : Nat) (f : Handle → Handle)
    (hf : c.Lacks i ∨ ∀ x, (f x).topic = x.topic ∧ (f x).closed = x.closed) :
    Tidy c (w.modifyHandle i f) := by
  refine ⟨hc.unpoisoned, hc.script, hc.trouble, hc.channel, ?_, hc.own⟩
  intro b e he
  exact (hc.openAt b e he).modifyHandle i f (hf.imp_left fun h => h b e he)

/-- The channel may change as long as it is received from and nobody waits. -/
theorem setChannel (hc : Tidy c w) (ch : Channel) (hreceiving : ch.receiving = true)
    (hwaiting : ch.waiting = []) : Tidy c { w with transport := .channel ch } :=
  ⟨hc.unpoisoned, hc.script, hc.trouble, ⟨ch, rfl, hreceiving, hwaiting⟩, hc.openAt, hc.own⟩

/-- Entries may be removed. -/
theorem subset (hc : Tidy c w) {c' : TopicCache Nat} (hp : c'.poisoned = c.poisoned)
    (hsub : ∀ b e, c'.entries.find? b = some e → c.entries.find? b = some e) : Tidy c' w :=
  ⟨hp.trans hc.unpoisoned, hc.script, hc.trouble, hc.channel,
    fun b e he => hc.openAt b e (hsub b e he),
    fun b b' e e' he he' => hc.own b b' e e' (hsub b e he) (hsub b' e' he')⟩

/-- Handles that no entry has may be closed. -/
theorem closeEach (hc : Tidy c w) (rest : List (Removed Nat))
    (hrest : ∀ r ∈ rest, c.Lacks r.handle) :
    ∃ w', CacheUse.closeEach collaborators rest (c, w) = (.ok (), (c, w')) ∧ Tidy c w' ∧
      Kept w w' := by
  induction rest generalizing w with
  | nil => exact ⟨w, rfl, hc, rfl, rfl⟩
  | cons r rest ih =>
    have hreport := unnoticed_reportAll r.reports w
    have hclosed := (hc.unnoticed hreport).modifyHandle r.handle
      (fun x => { x with
        closed := true
        closings := x.closings ++ [⟨c.size,
          (collaborators.reportAll r.reports w).interest.bind c.boundTopic?⟩] })
      (.inl (hrest r List.mem_cons_self))
    obtain ⟨w', heq, htidy, hkept⟩ := ih hclosed fun r' hr' => hrest r' (List.mem_cons_of_mem _ hr')
    refine ⟨w', ?_, htidy, hreport.kept.trans hkept⟩
    rw [CacheUse.closeEach, CacheUse.bind_apply, CacheUse.close_apply]
    exact heq

/-! ## Getting a handle -/

/-- What the factory does while the channel is received from. -/
theorem openTopic_apply (hc : Tidy c w) (t : TopicId) :
    ∃ r w', collaborators.openTopic t w = (.answer (.ok w.handles.length), w') ∧
      w'.handles = w.handles ++ [{ topic := t, recorder := r }] ∧ Kept w w' ∧
      w'.script = [] ∧ w'.trouble = none := by
  obtain ⟨ch, htransport, hreceiving, -⟩ := hc.channel
  show ∃ r w', World.openTopic t w = _ ∧ _
  have hfault : transportFault? w.transport = none := by
    rw [htransport]
    show ch.openFault? = none
    rw [Channel.openFault?, if_pos hreceiving]
  rw [World.openTopic]
  simp only [hc.trouble, hfault]
  exact ⟨_, _, rfl, rfl, ⟨rfl, rfl⟩, hc.script, rfl⟩

/-- A handle that has just been opened takes the place of an entry, whose handle then is in none. -/
theorem bind (hc : Tidy c w) {r : Recorder}
    (hhandles : w'.handles = w.handles ++ [{ topic := t, recorder := r }]) (hkept : Kept w w')
    (hscript : w'.script = []) (htrouble : w'.trouble = none) :
    Tidy (c.bind b ⟨w.handles.length, t⟩).2 w' ∧
      ∀ e, c.entries.find? b = some e → (c.bind b ⟨w.handles.length, t⟩).2.Lacks e.handle := by
  have hfind : ∀ b' e', (c.bind b ⟨w.handles.length, t⟩).2.entries.find? b' = some e' →
      b' = b ∧ e' = ⟨w.handles.length, t⟩ ∨ b' ≠ b ∧ c.entries.find? b' = some e' := by
    intro b' e' he'
    have hinsert : (c.entries.insert b ⟨w.handles.length, t⟩).find? b' = some e' := he'
    rw [SortedMap.find?_insert] at hinsert
    split at hinsert
    · rename_i hb
      exact .inl ⟨hb, (Option.some.inj hinsert).symm⟩
    · rename_i hb
      exact .inr ⟨hb, hinsert⟩
  -- the new handle is none of those that the entries have
  have hnew : ∀ b' e', c.entries.find? b' = some e' → e'.handle ≠ w.handles.length :=
    fun b' e' he' => Nat.ne_of_lt (hc.openAt b' e' he').lt_length
  refine ⟨⟨hc.unpoisoned, hscript, htrouble, ?_, ?_, ?_⟩, ?_⟩
  · rw [hkept.2]
    exact hc.channel
  · intro b' e' he'
    rcases hfind b' e' he' with ⟨-, rfl⟩ | ⟨-, hold⟩
    · refine ⟨{ topic := t, recorder := r }, ?_, rfl, rfl⟩
      rw [hhandles, List.getElem?_append_right (Nat.le_refl _), Nat.sub_self]
      rfl
    · obtain ⟨x, hx, htopic, hopen⟩ := hc.openAt b' e' hold
      refine ⟨x, ?_, htopic, hopen⟩
      rw [hhandles, List.getElem?_append_left (List.getElem?_eq_some_iff.1 hx).1]
      exact hx
  · intro b₁ b₂ e₁ e₂ h₁ h₂ heq
    rcases hfind b₁ e₁ h₁ with ⟨rfl, rfl⟩ | ⟨-, hold₁⟩ <;>
      rcases hfind b₂ e₂ h₂ with ⟨rfl, rfl⟩ | ⟨-, hold₂⟩
    · rfl
    · exact absurd heq.symm (hnew b₂ e₂ hold₂)
    · exact absurd heq (hnew b₁ e₁ hold₁)
    · exact hc.own b₁ b₂ e₁ e₂ hold₁ hold₂ heq
  · intro e he b' e' he' heq
    rcases hfind b' e' he' with ⟨-, rfl⟩ | ⟨hne, hold⟩
    · exact hnew b e he heq.symm
    · exact hne (hc.own b' b e' e hold he heq)

/-- A route that leads to no topic is the end of getting a handle; nothing else happens. -/
theorem getOrCreate_error (hc : Tidy c w) {f : Failure}
    (hroute : topicOf b (w.table.find? b) = .error f) :
    ∃ w', TopicCache.getOrCreate collaborators b (c, w) = (.error (.failure f), (c, w')) ∧
      Unnoticed w w' := by
  obtain ⟨w', hresolve, hw⟩ := World.resolve_apply hc.script b c
  refine ⟨w', ?_, hw⟩
  rw [TopicCache.getOrCreate, CacheUse.bind_apply, hresolve, hroute]

/-- The exclusive section, where the cache has no handle for the topic of the route. -/
theorem install_of_miss (hc : Tidy c w) (hroute : topicOf b (w.table.find? b) = .ok t)
    (hmiss : c.hit? b t = none) :
    ∃ h displaced c' w',
      TopicCache.install collaborators b (c, w) = (.ok (h, displaced), (c', w')) ∧
      Tidy c' w' ∧ Kept w w' ∧ c'.entries.find? b = some ⟨h, t⟩ ∧
      ∀ r ∈ displaced, c'.Lacks r.handle := by
  obtain ⟨w₁, hresolve, hw₁⟩ := World.resolve_apply hc.script b c
  obtain ⟨w₂, hreported⟩ : ∃ w₂, collaborators.reportAll [TopicCache.missReport b t] w₁ = w₂ :=
    ⟨_, rfl⟩
  have hw₂ : Unnoticed w w₂ := hw₁.trans (hreported ▸ unnoticed_reportAll _ w₁)
  have hc₂ := hc.unnoticed hw₂
  obtain ⟨r, w₃, hopen, hhandles, hkept, hscript, htrouble⟩ := hc₂.openTopic_apply t
  obtain ⟨hc₃, hlacks⟩ := hc₂.bind (b := b) hhandles hkept hscript htrouble
  have hkept₃ := hw₂.kept.trans hkept
  have hfind : (c.bind b ⟨w₂.handles.length, t⟩).2.entries.find? b =
      some ⟨w₂.handles.length, t⟩ := by
    show (c.entries.insert b ⟨w₂.handles.length, t⟩).find? b = _
    rw [SortedMap.find?_insert, if_pos rfl]
  rw [TopicCache.install_apply, TopicCache.createUnderLock_apply, hresolve, hroute]
  simp only [hc.unpoisoned, Bool.false_eq_true, if_false, hmiss, hreported, hopen]
  cases hprevious : c.entries.find? b with
  | none =>
    have hreport :=
      unnoticed_reportAll [TopicCache.boundReport b t (none : Option (CacheEntry Nat))] w₃
    exact ⟨_, [], _, _, rfl, hc₃.unnoticed hreport, hkept₃.trans hreport.kept, hfind, by simp⟩
  | some e =>
    refine ⟨_, _, _, _, rfl, hc₃, hkept₃, hfind, ?_⟩
    intro r hr
    obtain rfl := List.mem_singleton.1 hr
    exact hlacks e hprevious

/-- A route that leads to a topic yields a handle for it, which is then the entry of the broker. -/
theorem getOrCreate_ok (hc : Tidy c w) (hroute : topicOf b (w.table.find? b) = .ok t) :
    ∃ h c' w', TopicCache.getOrCreate collaborators b (c, w) = (.ok h, (c', w')) ∧ Tidy c' w' ∧
      Kept w w' ∧ c'.entries.find? b = some ⟨h, t⟩ := by
  obtain ⟨w₁, hresolve, hw₁⟩ := World.resolve_apply hc.script b c
  have hc₁ := hc.unnoticed hw₁
  rw [TopicCache.getOrCreate, CacheUse.bind_apply, hresolve, hroute]
  dsimp only
  rw [CacheUse.bind_apply, TopicCache.peek_apply,
    if_neg (by rw [hc.unpoisoned]; exact Bool.false_ne_true)]
  cases hhit : c.hit? b t with
  | some h =>
    exact ⟨h, c, w₁, rfl, hc₁, hw₁.kept, TopicCache.hit?_eq_some_iff.1 hhit⟩
  | none =>
    have hroute₁ : topicOf b (w₁.table.find? b) = .ok t := by rw [hw₁.kept.1, hroute]
    obtain ⟨h, displaced, c', w₂, hinstall, hc₂, hkept, hfind, hlacks⟩ :=
      hc₁.install_of_miss hroute₁ hhit
    obtain ⟨w₃, hclose, hc₃, hkept₃⟩ := hc₂.closeEach displaced hlacks
    refine ⟨h, c', w₃, ?_, hc₃, (hw₁.kept.trans hkept).trans hkept₃, hfind⟩
    dsimp only
    rw [CacheUse.bind_apply, hinstall]
    dsimp only
    rw [CacheUse.bind_apply, hclose]
    rfl

/-- A message that is published on the handle of an entry is taken, if there is room. -/
theorem startPublish (hc : Tidy c w) {h : Nat} (hfind : c.entries.find? b = some ⟨h, t⟩)
    {ch : Channel} (htransport : w.transport = .channel ch)
    (hroom : ch.queue.length < ch.capacity) (ticket : Nat) (m : Message) :
    ∃ w', w.startPublish h ticket m = (.ended (.ok ⟨ch.issuer.next.1, t⟩), w') ∧ Tidy c w' ∧
      w'.table = w.table ∧
      w'.transport = .channel { ch with
        issuer := ch.issuer.next.2
        queue := ch.queue ++ [⟨m, t, ch.issuer.next.1⟩] } := by
  obtain ⟨ch', htransport', hreceiving, hwaiting⟩ := hc.channel
  obtain rfl : ch' = ch := Transport.channel.inj (htransport'.symm.trans htransport)
  obtain ⟨x, hx, htopic, hopen⟩ := hc.openAt b _ hfind
  have hpublish := Channel.publish_of_room hreceiving hroom t ticket m
  have hnext := hc.setChannel { ch' with
    issuer := ch'.issuer.next.2
    queue := ch'.queue ++ [⟨m, t, ch'.issuer.next.1⟩] } hreceiving hwaiting
  have haccepted := hnext.modifyHandle h (fun x => { x with accepted := x.accepted ++ [m] })
    (.inr fun _ => ⟨rfl, rfl⟩)
  refine ⟨_, ?_, haccepted, rfl, rfl⟩
  subst htopic
  rw [World.startPublish, hx]
  simp only [htransport, hopen, hpublish]
  rfl

/-! ## Removals -/

/-- The handles that are taken out with the absent brokers are in no entry that stays. -/
theorem lacks_of_prune (hc : Tidy c w) {visited : List (BrokerIdentity × CacheEntry Nat)}
    (hvisited : visited.Perm c.entries.toList) (absent : BrokerIdentity → Bool) :
    ∀ e ∈ (c.prune visited absent).1, (c.prune visited absent).2.Lacks e.2.handle := by
  intro e he b e' he' heq
  obtain ⟨hmem, habsent⟩ := List.mem_filter.1 he
  rw [hvisited.mem_iff] at hmem
  have hstays : (c.entries.filter fun b _ => !absent b).find? b = some e' := he'
  obtain ⟨hfind, hkeep⟩ := SortedMap.find?_filter_eq_some_iff.1 hstays
  have hb := hc.own b e.1 e' e.2 hfind (SortedMap.find?_eq_some_iff.2 hmem) heq
  subst hb
  rw [habsent] at hkeep
  cases hkeep

/-- Pruning succeeds. -/
theorem pruneAbsent (hc : Tidy c w) :
    ∃ n c' w', TopicCache.pruneAbsent collaborators (c, w) = (.ok n, (c', w')) ∧ Tidy c' w' ∧
      Kept w w' := by
  rw [TopicCache.pruneAbsent, CacheUse.bind_apply, TopicCache.takeAbsent_apply,
    if_neg (by rw [hc.unpoisoned]; exact Bool.false_ne_true)]
  rcases collaborators.visit c.entries.toList w with ⟨visited, hvisited⟩
  obtain ⟨absent, w₁, hasked, hw₁⟩ :=
    World.absentAmong_apply (visited.map (·.1)) hc.script c
  have hpruned : Tidy (c.prune visited absent.contains).2 w₁ :=
    (hc.unnoticed hw₁).subset rfl fun b e he => (SortedMap.find?_filter_eq_some_iff.1 he).1
  let removed : List (Removed Nat) := (c.prune visited absent.contains).1.map fun e =>
    ⟨e.2.handle, [TopicCache.pruneReport e]⟩
  have hlacks : ∀ r ∈ removed, (c.prune visited absent.contains).2.Lacks r.handle := by
    intro r hr
    obtain ⟨e, he, rfl⟩ := List.mem_map.1 hr
    exact hc.lacks_of_prune hvisited absent.contains e he
  obtain ⟨w₂, hclose, hc₂, hkept⟩ := hpruned.closeEach removed hlacks
  refine ⟨removed.length, _, w₂, ?_, hc₂, hw₁.kept.trans hkept⟩
  dsimp only
  rw [hasked]
  dsimp only
  rw [CacheUse.bind_apply, hclose]
  rfl

/-- Closing all handles succeeds. -/
theorem closeAll (hc : Tidy c w) :
    ∃ n c' w', TopicCache.closeAll collaborators (c, w) = (.ok n, (c', w')) ∧ Tidy c' w' ∧
      Kept w w' := by
  rw [TopicCache.closeAll, CacheUse.bind_apply, TopicCache.takeAll_apply,
    if_neg (by rw [hc.unpoisoned]; exact Bool.false_ne_true)]
  rcases collaborators.visit c.entries.toList w with ⟨visited, -⟩
  let removed : List (Removed Nat) := visited.map fun e => ⟨e.2.handle, []⟩
  have hdrained : Tidy (c.drain visited).2 w := hc.subset rfl fun b e he => by cases he
  obtain ⟨w₁, hclose, hc₁, hkept⟩ := hdrained.closeEach removed (fun r hr b e he => by cases he)
  refine ⟨removed.length, _, w₁, ?_, hc₁, hkept⟩
  dsimp only
  rw [CacheUse.bind_apply, hclose]
  rfl

end Tidy

end EventIngress
