import EventIngress.Proofs.Cache.Systems
import EventIngress.Sink.World
import Mathlib.Logic.ExistsUnique

/-!
# Where the opened handles are

A handle that a cache has opened is held by an entry until a rotation, a prune or a shutdown takes
it out under the exclusive lock; it then is on the list of the call that took it out, which closes
it later. No move loses a handle or doubles it, so that with fresh handles every one of them is at
one place only.

Results:

* `Act.balance`, `CacheSystem.balanced_step`: openings are matched by what is held, what is still to
  be closed and what was closed.
* `CacheSystem.opened_at_one_place`: every opened handle is held, leaving or gone, and never two of
  these at once.
-/

namespace EventIngress

variable {η σ : Type}

/-! ## Counting handles -/

/-- The handles of some entries. -/
def handlesOf (es : SortedMap BrokerIdentity (CacheEntry η)) : List η :=
  es.toList.map (·.2.handle)

theorem mem_handlesOf {es : SortedMap BrokerIdentity (CacheEntry η)} {h : η} :
    h ∈ handlesOf es ↔ ∃ b t, es.find? b = some ⟨h, t⟩ := by
  rw [handlesOf, List.mem_map]
  constructor
  · rintro ⟨⟨b, h', t⟩, hmem, rfl⟩
    exact ⟨b, t, SortedMap.find?_eq_some_iff.2 hmem⟩
  · rintro ⟨b, t, hfind⟩
    exact ⟨_, SortedMap.find?_eq_some_iff.1 hfind, rfl⟩

/-! ## What a record says -/

/-- Nothing that is not a question about a route is found among such questions. -/
theorem filterMap_asks {α : Type} {f : CacheEvent η → Option α} (hf : ∀ b a, f (.asked b a) = none)
    {asks : List (CacheEvent η)} (hasks : ∀ e ∈ asks, ∃ b a, e = .asked b a) :
    asks.filterMap f = [] := by
  rw [List.filterMap_eq_nil_iff]
  intro e he
  obtain ⟨b, a, rfl⟩ := hasks e he
  exact hf b a

theorem Call.inFlight_of_mem_toClose {c : Call η} {h : η} (hc : h ∈ c.toClose) :
    c.inFlight = true := by
  cases c with
  | ended e => cases hc
  | _ => rfl

theorem Call.toClose_of_mayStop {c : Call η} (hc : c.mayStop = true) : c.toClose = [] := by
  cases c with
  | returning => cases hc
  | closing => cases hc
  | _ => rfl

theorem Purpose.toClose_next (b : BrokerIdentity) (h : η) (p : Purpose) :
    (p.next b h).toClose = [] := by
  rcases p with _ | (_ | _) <;> rfl

/-- An entry that is there after a step was there before it, or its handle was opened by it for the
topic of the entry. -/
theorem Act.entry {k : Collaborators η σ} {es es' : SortedMap BrokerIdentity (CacheEntry η)}
    {w : σ} {c c' : Call η} {added : List (CacheEvent η)} (hact : Act k es w c c' es' added)
    {b : BrokerIdentity} {e : CacheEntry η} (he : es'.find? b = some e) :
    es.find? b = some e ∨ .opened (some b) e.handle e.topic ∈ added := by
  cases hact with
  | @opened b' p a t h rest hroute htopic hmiss hrest =>
    rw [SortedMap.find?_insert] at he
    split at he
    · rename_i hb
      subst hb
      cases he
      exact .inr (by simp)
    · exact .inl he
  | pruned hasks habsent hrest => exact .inl (SortedMap.find?_filter_eq_some_iff.1 he).1
  | emptied hrest => cases he
  | stopped | resolved | found | missed | foundLate | closedDisplaced | closedRemoved | returned
  | finished | concluded => exact .inl he

section Counts

variable [DecidableEq η]

theorem count_handlesOf_insert (es : SortedMap BrokerIdentity (CacheEntry η)) (b : BrokerIdentity)
    (h : η) (t : TopicId) (x : η) :
    (handlesOf (es.insert b ⟨h, t⟩)).count x + ((es.find? b).toList.map (·.handle)).count x =
      [h].count x + (handlesOf es).count x := by
  have hperm := ((es.toList_insert_perm b ⟨h, t⟩).map (·.2.handle)).count_eq x
  rw [List.map_append, List.count_append, List.map_map, List.map_cons, ← List.singleton_append,
    List.count_append] at hperm
  exact hperm

theorem count_handlesOf_filter (es : SortedMap BrokerIdentity (CacheEntry η))
    (absent : BrokerIdentity → Bool) (x : η) :
    (handlesOf (es.filter fun b _ => !absent b)).count x +
        ((es.toList.filter fun e => absent e.1).map (·.2.handle)).count x =
      (handlesOf es).count x := by
  have hperm := ((List.filter_append_perm (fun e => absent e.1) es.toList).map
    (·.2.handle)).count_eq x
  rw [List.map_append, List.count_append, Nat.add_comm] at hperm
  exact hperm

/-- One entry of a list is replaced: the concatenation changes by what that entry stands for. -/
theorem count_flatMap_set {α : Type} (f : α → List η) {l : List α} {i : Nat} {a : α}
    (hi : l[i]? = some a) (a' : α) (x : η) :
    ((l.set i a').flatMap f).count x + (f a).count x =
      (l.flatMap f).count x + (f a').count x := by
  induction l generalizing i with
  | nil => cases hi
  | cons c l ih =>
    cases i with
    | zero =>
      obtain rfl : c = a := by simpa using hi
      simp only [List.set_cons_zero, List.flatMap_cons, List.count_append]
      omega
    | succ i =>
      have := ih (i := i) (by simpa using hi)
      simp only [List.set_cons_succ, List.flatMap_cons, List.count_append]
      omega

/-- A value that occurs once in a concatenation comes from one place of the list only. -/
theorem existsUnique_of_count_flatMap {α : Type} (f : α → List η) {l : List α} {x : η}
    (h : (l.flatMap f).count x = 1) :
    ∃! i : Nat, ∃ a, l[i]? = some a ∧ x ∈ f a := by
  induction l with
  | nil => cases h
  | cons c l ih =>
    rw [List.flatMap_cons, List.count_append] at h
    by_cases hc : x ∈ f c
    · -- the rest of the list does not have it
      have hpos := List.count_pos_iff.2 hc
      have hrest : x ∉ l.flatMap f := by
        intro hmem
        have := List.count_pos_iff.2 hmem
        omega
      refine ⟨0, ⟨c, rfl, hc⟩, ?_⟩
      rintro (_ | i) ⟨a, hi, ha⟩
      · rfl
      · have hmem : a ∈ l := List.mem_of_getElem? (by simpa using hi)
        exact absurd (List.mem_flatMap.2 ⟨a, hmem, ha⟩) hrest
    · rw [List.count_eq_zero.2 hc, Nat.zero_add] at h
      obtain ⟨i, ⟨a, hi, ha⟩, huniq⟩ := ih h
      refine ⟨i + 1, ⟨a, by simpa using hi, ha⟩, ?_⟩
      rintro (_ | j) ⟨a', hj, ha'⟩
      · obtain rfl : c = a' := by simpa using hj
        exact absurd ha' hc
      · rw [huniq j ⟨a', by simpa using hj, ha'⟩]

/-- A handle that occurs once among some entries belongs to one broker only. -/
theorem existsUnique_of_count_handlesOf {es : SortedMap BrokerIdentity (CacheEntry η)} {h : η}
    (hcount : (handlesOf es).count h = 1) : ∃! b, ∃ t, es.find? b = some ⟨h, t⟩ := by
  have hmem : h ∈ handlesOf es := List.count_pos_iff.1 (by omega)
  obtain ⟨b, t, hb⟩ := mem_handlesOf.1 hmem
  refine ⟨b, ⟨t, hb⟩, ?_⟩
  rintro b' ⟨t', hb'⟩
  rw [handlesOf, List.map_eq_flatMap] at hcount
  have hone := existsUnique_of_count_flatMap _ hcount
  obtain ⟨i, hi⟩ := List.mem_iff_getElem?.1 (SortedMap.find?_eq_some_iff.1 hb)
  obtain ⟨j, hj⟩ := List.mem_iff_getElem?.1 (SortedMap.find?_eq_some_iff.1 hb')
  have hij : i = j :=
    hone.unique ⟨_, hi, List.mem_singleton_self h⟩ ⟨_, hj, List.mem_singleton_self h⟩
  subst hij
  have heq := Option.some.inj (hi.symm.trans hj)
  exact (congrArg Prod.fst heq).symm

theorem balance_of_quiet {es : SortedMap BrokerIdentity (CacheEntry η)} {c c' : Call η}
    {added : List (CacheEvent η)} (hopened : added.filterMap CacheEvent.opened? = [])
    (hclosed : added.filterMap CacheEvent.closed? = []) (hc : c.toClose = [])
    (hc' : c'.toClose = []) (x : η) :
    (added.filterMap CacheEvent.opened?).count x + (handlesOf es).count x + c.toClose.count x =
      (handlesOf es).count x + c'.toClose.count x +
        (added.filterMap CacheEvent.closed?).count x := by
  rw [hopened, hclosed, hc, hc', List.count_nil]
  omega

/-- What a call opens and takes out of the cache is, after each of its steps, in the cache, still to
be closed, or closed. -/
theorem Act.balance {k : Collaborators η σ} {es es' : SortedMap BrokerIdentity (CacheEntry η)}
    {w : σ} {c c' : Call η} {added : List (CacheEvent η)} (hact : Act k es w c c' es' added)
    (x : η) :
    (added.filterMap CacheEvent.opened?).count x + (handlesOf es).count x + c.toClose.count x =
      (handlesOf es').count x + c'.toClose.count x +
        (added.filterMap CacheEvent.closed?).count x := by
  cases hact with
  | stopped hstop hwhy hasks =>
    have hopened := filterMap_asks (f := CacheEvent.opened?) (fun _ _ => rfl) hasks
    have hclosed := filterMap_asks (f := CacheEvent.closed?) (fun _ _ => rfl) hasks
    exact balance_of_quiet hopened hclosed (Call.toClose_of_mayStop hstop) rfl x
  | @opened b p a t h rest hroute htopic hmiss hrest =>
    have hinsert := count_handlesOf_insert es b h t x
    show [h].count x + _ + ([] : List η).count x =
      _ + (rest.map (·.handle)).count x + ([] : List η).count x
    rw [hrest, List.count_nil]
    omega
  | @pruned absent rest n asks hasks habsent hrest =>
    have hopened := filterMap_asks (f := CacheEvent.opened?) (fun _ _ => rfl) hasks
    have hclosed := filterMap_asks (f := CacheEvent.closed?) (fun _ _ => rfl) hasks
    have hfilter := count_handlesOf_filter es absent x
    rw [hopened, hclosed]
    show ([] : List η).count x + _ + ([] : List η).count x =
      _ + (rest.map (·.handle)).count x + ([] : List η).count x
    rw [hrest.count_eq, List.count_nil]
    omega
  | @emptied rest n hrest =>
    show ([] : List η).count x + _ + ([] : List η).count x =
      ([] : List η).count x + (rest.map (·.handle)).count x + ([] : List η).count x
    rw [hrest.count_eq, handlesOf, List.count_nil, Nat.zero_add]
  | @closedDisplaced b p h r rest =>
    show ([] : List η).count x + _ + (r.handle :: rest.map (·.handle)).count x =
      _ + (rest.map (·.handle)).count x + [r.handle].count x
    rw [← List.singleton_append, List.count_append, List.count_nil]
    omega
  | @closedRemoved r rest n =>
    show ([] : List η).count x + _ + (r.handle :: rest.map (·.handle)).count x =
      _ + (rest.map (·.handle)).count x + [r.handle].count x
    rw [← List.singleton_append, List.count_append, List.count_nil]
    omega
  | returned =>
    exact balance_of_quiet rfl rfl rfl (Purpose.toClose_next _ _ _) x
  | resolved => exact balance_of_quiet rfl rfl rfl rfl x
  | found => exact balance_of_quiet rfl rfl rfl rfl x
  | missed => exact balance_of_quiet rfl rfl rfl rfl x
  | foundLate => exact balance_of_quiet rfl rfl rfl rfl x
  | finished => exact balance_of_quiet rfl rfl rfl rfl x
  | concluded => exact balance_of_quiet rfl rfl rfl rfl x

end Counts

/-! ## The balance of a system -/

namespace CacheSystem

/-- The handles that were opened, in order. -/
def opened (s : CacheSystem η σ) : List η :=
  s.record.filterMap CacheEvent.opened?

/-- The handles that were closed, once for each time. -/
def closed (s : CacheSystem η σ) : List η :=
  s.record.filterMap CacheEvent.closed?

/-- The handles that calls are still to close. -/
def pending (s : CacheSystem η σ) : List η :=
  s.calls.flatMap Call.toClose

/-- The entry of a broker has the handle. -/
def HeldBy (s : CacheSystem η σ) (h : η) (b : BrokerIdentity) : Prop :=
  ∃ t, s.entries.find? b = some ⟨h, t⟩

/-- A call that has not ended is still to close the handle. -/
def LeavingBy (s : CacheSystem η σ) (h : η) (i : Nat) : Prop :=
  ∃ c, s.calls[i]? = some c ∧ c.inFlight = true ∧ h ∈ c.toClose

/-- Each entry has the topic that its handle was opened for. -/
def Labelled (s : CacheSystem η σ) : Prop :=
  ∀ b e, s.entries.find? b = some e → .opened (some b) e.handle e.topic ∈ s.record

theorem labelled_step (k : Collaborators η σ) (s : CacheSystem η σ) (m : Move η σ)
    (hs : s.Labelled) : (s.step k m).Labelled := by
  intro b e he
  rcases cache_step k s m with ⟨hentries, hrecord⟩ | ⟨n, c, c', added, -, hact, hrecord⟩
  · rw [hentries] at he
    rw [hrecord]
    exact hs b e he
  · rw [hrecord, List.mem_append]
    rcases hact.entry he with hold | hnew
    · exact .inl (hs b e hold)
    · exact .inr hnew

/-- What an entry holds was opened for its broker and its topic. -/
theorem Reachable.opened_of_find? {k : Collaborators η σ} {s : CacheSystem η σ}
    (hs : Reachable k s) {b : BrokerIdentity} {h : η} {t : TopicId}
    (hb : s.entries.find? b = some ⟨h, t⟩) : .opened (some b) h t ∈ s.record :=
  hs.invariant (P := Labelled) (fun _ _ _ he => by cases he) (labelled_step k) b ⟨h, t⟩ hb

section Counts

variable [DecidableEq η]

/-- As many openings as handles that are held, to be closed, and closed. -/
def Balanced (s : CacheSystem η σ) : Prop :=
  ∀ x, s.opened.count x =
    (handlesOf s.entries).count x + s.pending.count x + s.closed.count x

theorem balanced_step (k : Collaborators η σ) (s : CacheSystem η σ) (m : Move η σ)
    (hs : s.Balanced) : (s.step k m).Balanced := by
  intro x
  have hx := hs x
  cases turn_step k s m with
  | calm hentries hrecord hcalls =>
    rw [opened, pending, closed, hentries, hrecord, hcalls]
    exact hx
  | begun task hmove hentries hrecord hcalls =>
    have hnone : (task.call : Call η).toClose = [] := by cases task <;> rfl
    rw [opened, pending, closed, hentries, hrecord, hcalls, List.flatMap_append,
      List.flatMap_singleton, hnone, List.append_nil]
    exact hx
  | acted i c c' added hc hact hrecord hcalls hend =>
    have hbalance := hact.balance x
    have hcalls' := count_flatMap_set Call.toClose hc c' x
    rw [opened, pending, closed] at hx
    rw [opened, pending, closed, hrecord, hcalls, List.filterMap_append, List.filterMap_append,
      List.count_append, List.count_append]
    omega

theorem Reachable.balanced {k : Collaborators η σ} {s : CacheSystem η σ} (hs : Reachable k s) :
    s.Balanced :=
  hs.invariant (fun _ _ => rfl) (balanced_step k)

/-- A handle that an entry holds has not been closed. -/
theorem Reachable.not_mem_closed {k : Collaborators η σ} {s : CacheSystem η σ}
    (hs : Reachable k s) (hfresh : s.opened.Nodup) {b : BrokerIdentity} {h : η}
    (hb : s.HeldBy h b) : h ∉ s.closed := by
  intro hclosed
  obtain ⟨t, hb⟩ := hb
  have hheld := List.count_pos_iff.2 (mem_handlesOf.2 ⟨b, t, hb⟩)
  have hcount := List.count_pos_iff.2 hclosed
  have hle := List.nodup_iff_count.1 hfresh h
  have hbalanced := hs.balanced h
  omega

/-! ## Places -/

/-- Where an opened handle can be. -/
inductive Place where
  | held
  | leaving
  | gone

/-- Whether a handle is at a place: the entry of one broker holds it and nobody has closed it or is
to close it; or no entry holds it, one call is to close it, once, and nobody has closed it; or no
entry holds it, nobody is to close it and it was closed once. -/
def At (s : CacheSystem η σ) (h : η) : Place → Prop
  | .held => (∃! b, s.HeldBy h b) ∧ (∀ i, ¬ s.LeavingBy h i) ∧ s.closed.count h = 0
  | .leaving =>
    (∀ b, ¬ s.HeldBy h b) ∧ (∃! i, s.LeavingBy h i) ∧ s.pending.count h = 1 ∧
      s.closed.count h = 0
  | .gone => (∀ b, ¬ s.HeldBy h b) ∧ (∀ i, ¬ s.LeavingBy h i) ∧ s.closed.count h = 1

variable {s : CacheSystem η σ} {h : η}

theorem not_heldBy (hcount : (handlesOf s.entries).count h = 0) (b : BrokerIdentity) :
    ¬ s.HeldBy h b := by
  rintro ⟨t, hfind⟩
  exact List.count_eq_zero.1 hcount (mem_handlesOf.2 ⟨b, t, hfind⟩)

theorem not_leavingBy (hcount : s.pending.count h = 0) (i : Nat) : ¬ s.LeavingBy h i := by
  rintro ⟨c, hi, -, hc⟩
  exact List.count_eq_zero.1 hcount (List.mem_flatMap.2 ⟨c, List.mem_of_getElem? hi, hc⟩)

theorem existsUnique_leavingBy (hcount : s.pending.count h = 1) : ∃! i, s.LeavingBy h i := by
  obtain ⟨i, ⟨c, hi, hc⟩, huniq⟩ := existsUnique_of_count_flatMap Call.toClose hcount
  refine ⟨i, ⟨c, hi, Call.inFlight_of_mem_toClose hc, hc⟩, ?_⟩
  rintro j ⟨c', hj, -, hc'⟩
  exact huniq j ⟨c', hj, hc'⟩

theorem at_place_of_count (hcount : (handlesOf s.entries).count h + s.pending.count h +
    s.closed.count h = 1) : ∃ p, s.At h p := by
  by_cases hheld : (handlesOf s.entries).count h = 1
  · exact ⟨.held, existsUnique_of_count_handlesOf hheld, not_leavingBy (by omega), by omega⟩
  · have hnone := not_heldBy (s := s) (h := h) (by omega)
    by_cases hpending : s.pending.count h = 1
    · exact ⟨.leaving, hnone, existsUnique_leavingBy hpending, hpending, by omega⟩
    · exact ⟨.gone, hnone, not_leavingBy (by omega), by omega⟩

theorem At.unique {p q : Place} (hp : s.At h p) (hq : s.At h q) : p = q := by
  cases p with
  | held =>
    obtain ⟨b, hb⟩ := hp.1.exists
    cases q with
    | held => rfl
    | leaving => exact absurd hb (hq.1 b)
    | gone => exact absurd hb (hq.1 b)
  | leaving =>
    cases q with
    | held =>
      obtain ⟨b, hb⟩ := hq.1.exists
      exact absurd hb (hp.1 b)
    | leaving => rfl
    | gone => exact absurd (hp.2.2.2.symm.trans hq.2.2) Nat.zero_ne_one
  | gone =>
    cases q with
    | held =>
      obtain ⟨b, hb⟩ := hq.1.exists
      exact absurd hb (hp.1 b)
    | leaving => exact absurd (hq.2.2.2.symm.trans hp.2.2) Nat.zero_ne_one
    | gone => rfl

/-- With fresh handles, every handle that was ever opened is at one place, whatever calls there are,
however far each of them has come and whatever the collaborators have concluded; entries have the
topics that their handles were opened for; no handle is closed twice; and when all calls have ended,
each handle is in an entry or closed. -/
theorem opened_at_one_place {k : Collaborators η σ} (hs : Reachable k s)
    (hfresh : s.opened.Nodup) :
    (∀ h ∈ s.opened, ∃! p, s.At h p) ∧
      (∀ b h t, s.entries.find? b = some ⟨h, t⟩ → .opened (some b) h t ∈ s.record) ∧
      (∀ h, s.closed.count h ≤ 1) ∧
      ((∀ c ∈ s.calls, c.inFlight = false) → ∀ h ∈ s.opened, s.At h .held ∨ s.At h .gone) := by
  have hplace : ∀ h ∈ s.opened, ∃ p, s.At h p := by
    intro h hh
    have hone : s.opened.count h = 1 := by rw [hfresh.count, if_pos hh]
    rw [hs.balanced h] at hone
    exact at_place_of_count hone
  refine ⟨?_, ?_, ?_, ?_⟩
  · intro h hh
    obtain ⟨p, hp⟩ := hplace h hh
    exact ⟨p, hp, fun q hq => hq.unique hp⟩
  · intro b h t hb
    exact hs.opened_of_find? hb
  · intro h
    have hcount := hs.balanced h
    have hle := List.nodup_iff_count.1 hfresh h
    omega
  · intro hended h hh
    obtain ⟨p, hp⟩ := hplace h hh
    cases p with
    | held => exact .inl hp
    | gone => exact .inr hp
    | leaving =>
      obtain ⟨i, c, hi, hflight, -⟩ := hp.2.1.exists
      rw [hended c (List.mem_of_getElem? hi)] at hflight
      cases hflight

end Counts

/-- A system with a routing table that gives these answers, one after another, and recorders as
handles, after these moves. -/
def scripted (answers : List (Option BrokerRoute)) (moves : List (Move Nat World)) :
    CacheSystem Nat World :=
  stateAt World.collaborators { script := answers } (Schedule.ofList moves) moves.length

/-- Four calls side by side: a rotation whose displaced handle is closed late, a prune that has not
closed anything yet, and a call that has just put a third handle into the cache. -/
def threePlaces : CacheSystem Nat World :=
  let first : Option BrokerRoute := some ⟨.ready, "first"⟩
  let second : Option BrokerRoute := some ⟨.ready, "second"⟩
  scripted [first, first, second, second, none, first, first]
    [.begin (.get ⟨"team", "orders"⟩ .handle), .turn 0, .turn 0, .turn 0, .turn 0,
      .begin (.get ⟨"team", "orders"⟩ .handle), .turn 1, .turn 1, .turn 1,
      .begin .prune, .turn 2, .turn 1,
      .begin (.get ⟨"team", "orders"⟩ .handle), .turn 3, .turn 3, .turn 3]

theorem opened_at_one_place_threePlaces :
    (Reachable World.collaborators threePlaces ∧ threePlaces.opened = [0, 1, 2] ∧
        threePlaces.opened.Nodup ∧ handlesOf threePlaces.entries = [2] ∧
        threePlaces.pending = [1] ∧ threePlaces.closed = [0]) ∧
      ∀ h ∈ threePlaces.opened, ∃! p, threePlaces.At h p := by
  have hreach : Reachable World.collaborators threePlaces := reachable_stateAt _ _ _ _
  have hfresh : threePlaces.opened.Nodup := by decide +kernel
  refine ⟨⟨hreach, by decide +kernel, hfresh, ?_, ?_, ?_⟩, (opened_at_one_place hreach hfresh).1⟩
  · decide +kernel
  · decide +kernel
  · decide +kernel

end CacheSystem

end EventIngress
