import EventIngress.Cache.Access

/-!
# What the parts of a use of a cache do

Closed forms of the parts that `TopicCache.getOrCreate`, `TopicCache.pruneAbsent` and
`TopicCache.closeAll` are made of, for all collaborators: each says what the part yields and what it
leaves, in terms of the answers of the collaborators.

Results:

* `CacheUse.bind_apply`: a sequence of two parts.
* `CacheUse.resolve_apply`, `TopicCache.peek_apply`, `TopicCache.install_apply`: getting a handle.
* `TopicCache.takeAbsent_apply`, `TopicCache.takeAll_apply`: taking handles out of the cache.
* `CacheUse.close_apply`: closing a handle that was taken out.
-/

namespace EventIngress

variable {η σ α β : Type}

/-! ## Steps of all uses -/

namespace CacheUse

/-- The second part of a sequence starts where the first one has left off, unless it has failed. -/
theorem bind_apply (u : CacheUse η σ α) (f : α → CacheUse η σ β) (x : TopicCache η × σ) :
    (u >>= f) x =
      match u x with
      | (.ok a, y) => f a y
      | (.error e, y) => (.error e, y) := by
  show (match u x with | (r, y) => ExceptT.bindCont f r y) = _
  rcases u x with ⟨_ | _, y⟩ <;> rfl

theorem modifyGet_apply (f : TopicCache η × σ → α × (TopicCache η × σ)) (x : TopicCache η × σ) :
    (modifyGet f : CacheUse η σ α) x = (.ok (f x).1, (f x).2) :=
  rfl

theorem reportAll_apply (k : Collaborators η σ) (entries : List LogEntry) (c : TopicCache η)
    (s : σ) :
    reportAll k entries (c, s) = (.ok (), (c, k.reportAll entries s)) :=
  rfl

theorem ask_apply (f : σ → Reply α × σ) (c : TopicCache η) (s : σ) :
    ask f (c, s) =
      match f s with
      | (.answer a, s') => (.ok a, (c, s'))
      | (.broken, s') => (.error .broken, (c, s')) := by
  rw [ask, bind_apply, modifyGet_apply]
  dsimp only
  rcases f s with ⟨_ | _, s'⟩ <;> rfl

theorem lock_apply (k : Collaborators η σ) (mode : LockMode) (c : TopicCache η) (s : σ) :
    lock k mode (c, s) =
      if c.poisoned then (.error (.failure mode.failure), (c, k.reportAll [mode.report] s))
      else (.ok (), (c, s)) := by
  show (if c.poisoned = true then _ else _ : CacheUse η σ Unit) (c, s) = _
  cases c.poisoned <;> rfl

theorem visitAll_apply (k : Collaborators η σ) (c : TopicCache η) (s : σ) :
    visitAll k (c, s) = (.ok (k.visit c.entries.toList s).val, (c, s)) :=
  rfl

/-- The first look at a route: the topic that it leads to, or the failure that it stands for. -/
theorem resolve_apply (k : Collaborators η σ) (b : BrokerIdentity) (c : TopicCache η) (s : σ) :
    resolve k b (c, s) =
      match k.route b s with
      | (.answer a, s') =>
        match topicOf b a with
        | .ok t => (.ok t, (c, k.reportAll (topicReport b a) s'))
        | .error f => (.error (.failure f), (c, k.reportAll (topicReport b a) s'))
      | (.broken, s') => (.error .broken, (c, s')) := by
  rw [resolve, bind_apply, ask_apply]
  rcases k.route b s with ⟨a | _, s'⟩
  · dsimp only
    rw [bind_apply, reportAll_apply]
    dsimp only
    cases topicOf b a <;> rfl
  · rfl

theorem close_apply (k : Collaborators η σ) (r : Removed η) (c : TopicCache η) (s : σ) :
    close k r (c, s) = (.ok (), (c, k.close c r.handle (k.reportAll r.reports s))) :=
  rfl

end CacheUse

open CacheUse

namespace TopicCache

/-! ## Getting a handle -/

/-- A look-up succeeds if there is an entry and its topic is the wanted one. -/
theorem hit?_eq_some_iff {c : TopicCache η} {b : BrokerIdentity} {t : TopicId} {h : η} :
    c.hit? b t = some h ↔ c.entries.find? b = some ⟨h, t⟩ := by
  unfold hit?
  cases c.entries.find? b with
  | none => simp
  | some e =>
    obtain ⟨h', t'⟩ := e
    simp only [Option.bind_some, Option.ite_none_right_eq_some, Option.some.injEq,
      CacheEntry.mk.injEq]
    exact and_comm

theorem hit?_eq_none_iff {c : TopicCache η} {b : BrokerIdentity} {t : TopicId} :
    c.hit? b t = none ↔ ∀ h, c.entries.find? b ≠ some ⟨h, t⟩ := by
  rw [Option.eq_none_iff_forall_ne_some]
  exact forall_congr' fun h => not_congr hit?_eq_some_iff

theorem peek_apply (k : Collaborators η σ) (b : BrokerIdentity) (t : TopicId) (c : TopicCache η)
    (s : σ) :
    peek k b t (c, s) =
      if c.poisoned then
        (.error (.failure LockMode.read.failure), (c, k.reportAll [LockMode.read.report] s))
      else (.ok (c.hit? b t), (c, s)) := by
  rw [peek, bind_apply, lock_apply]
  cases c.poisoned <;> rfl

theorem createUnderLock_apply (k : Collaborators η σ) (b : BrokerIdentity) (c : TopicCache η)
    (s : σ) :
    createUnderLock k b (c, s) =
      match resolve k b (c, s) with
      | (.error e, x) => (.error e, x)
      | (.ok t, (c, s)) =>
        match c.hit? b t with
        | some h => (.ok (h, none), (c, s))
        | none =>
          match k.openTopic t (k.reportAll [missReport b t] s) with
          | (.broken, s) => (.error .broken, (c, s))
          | (.answer (.error fault), s) => (.error (.failure (.handleOpen fault)), (c, s))
          | (.answer (.ok h), s) =>
            (.ok (h, some (boundReport b t (c.entries.find? b), c.entries.find? b)),
              ((c.bind b ⟨h, t⟩).2, s)) := by
  rw [createUnderLock, bind_apply]
  rcases resolve k b (c, s) with ⟨e | t, c, s⟩
  · rfl
  dsimp only
  rw [bind_apply]
  show (match c.hit? b t with | some h => _ | none => _ : CacheUse η σ _) (c, s) = _
  cases c.hit? b t with
  | some h => rfl
  | none =>
    dsimp only
    rw [bind_apply]
    show (ask (k.openTopic t) >>= _ : CacheUse η σ _) (c, k.reportAll [missReport b t] s) = _
    rw [bind_apply, ask_apply]
    rcases k.openTopic t (k.reportAll [missReport b t] s) with ⟨(f | h) | _, s'⟩ <;> rfl

/-- What happens under the exclusive lock, seen from outside: the lock is poisoned if a collaborator
breaks down, and a new handle comes with the one that it displaces. -/
theorem install_apply (k : Collaborators η σ) (b : BrokerIdentity) (c : TopicCache η) (s : σ) :
    install k b (c, s) =
      if c.poisoned then
        (.error (.failure LockMode.write.failure), (c, k.reportAll [LockMode.write.report] s))
      else
        match createUnderLock k b (c, s) with
        | (.error .broken, (c, s)) => (.error .broken, (c.poison, s))
        | (.error (.failure f), x) => (.error (.failure f), x)
        | (.ok (h, none), x) => (.ok (h, []), x)
        | (.ok (h, some (report, none)), (c, s)) => (.ok (h, []), (c, k.reportAll [report] s))
        | (.ok (h, some (report, some e)), x) => (.ok (h, [⟨e.handle, [report]⟩]), x) := by
  rw [install, bind_apply, lock_apply]
  cases c.poisoned with
  | true => rfl
  | false =>
    simp only [Bool.false_eq_true, if_false]
    rw [bind_apply, exclusively]
    rcases createUnderLock k b (c, s) with ⟨(f | _) | ⟨h, _ | ⟨report, _ | e⟩⟩, c, s⟩ <;> rfl

/-! ## Removing handles -/

theorem absentAmong_cons (k : Collaborators η σ) (b : BrokerIdentity) (bs : List BrokerIdentity)
    (c : TopicCache η) (s : σ) :
    absentAmong k (b :: bs) (c, s) =
      match k.route b s with
      | (.broken, s) => (.error .broken, (c, s))
      | (.answer a, s) =>
        match absentAmong k bs (c, s) with
        | (.error e, x) => (.error e, x)
        | (.ok absent, x) => (.ok (if a.isNone then b :: absent else absent), x) := by
  rw [absentAmong, bind_apply, ask_apply]
  rcases k.route b s with ⟨a | _, s⟩
  · dsimp only
    rw [bind_apply]
    rcases absentAmong k bs (c, s) with ⟨e | absent, x⟩ <;> rfl
  · rfl

theorem takeAbsent_apply (k : Collaborators η σ) (c : TopicCache η) (s : σ) :
    takeAbsent k (c, s) =
      if c.poisoned then
        (.error (.failure LockMode.write.failure), (c, k.reportAll [LockMode.write.report] s))
      else
        let visited := (k.visit c.entries.toList s).val
        match absentAmong k (visited.map (·.1)) (c, s) with
        | (.error .broken, (c, s)) => (.error .broken, (c.poison, s))
        | (.error (.failure f), x) => (.error (.failure f), x)
        | (.ok absent, (c, s)) =>
          (.ok ((c.prune visited absent.contains).1.map fun e => ⟨e.2.handle, [pruneReport e]⟩),
            ((c.prune visited absent.contains).2, s)) := by
  rw [takeAbsent, bind_apply, lock_apply]
  cases c.poisoned with
  | true => rfl
  | false =>
    simp only [Bool.false_eq_true, if_false]
    rw [bind_apply, exclusively, bind_apply, visitAll_apply]
    dsimp only
    rw [bind_apply]
    generalize (k.visit c.entries.toList s).val = visited
    generalize absentAmong k (visited.map (·.1)) (c, s) = r
    rcases r with ⟨(f | _) | absent, c, s⟩ <;> rfl

theorem takeAll_apply (k : Collaborators η σ) (c : TopicCache η) (s : σ) :
    takeAll k (c, s) =
      if c.poisoned then
        (.error (.failure LockMode.write.failure), (c, k.reportAll [LockMode.write.report] s))
      else
        let visited := (k.visit c.entries.toList s).val
        (.ok (visited.map fun e => ⟨e.2.handle, []⟩), ((c.drain visited).2, s)) := by
  rw [takeAll, bind_apply, lock_apply]
  cases c.poisoned <;> rfl

end TopicCache

end EventIngress
