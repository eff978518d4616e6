import EventIngress.Proofs.Routing.Listings
import EventIngress.Routing.Refresh

/-!
# What a file table shows

A load looks at the reported size of a file, reads it, looks at the size of what it read, and reads
the document. It fails as soon as one of these fails, and a load that fails leaves a table as it was.
So whatever becomes of the file, and however its reported size and its content disagree, a table
shows one whole document that was in the file at some load, within the limit: that of the last load
that succeeded.

Results:

* `RoutingDocument.load_eq_ok_iff`, `RoutingDocument.load_error_iff`: when a load succeeds and fails.
* `FileTable.openFile_eq_ok`: what a table that has been opened shows.
* `FileTable.document_afterLoads`: the document after some loads.
* `RoutingSite.tick_cases`: what a tick does.
* `RoutingSite.advance_renewed`: the ticks of refreshes are loads, and each is reported.
* `RoutingSite.shows_last_loaded`: the document of a table after any history of its file.
-/

namespace EventIngress

/-! ## Loads -/

/-- A file has a document, and neither its reported size nor its content is beyond the limit. -/
structure FileTree.Holds (files : FileTree) (path : String) (limit : Nat)
    (document : RoutingDocument) : Prop where
  size : ∃ size, files.size path = .ok size ∧ size ≤ limit
  content : ∃ content, files.read path = .ok content ∧ content.length ≤ limit ∧
    RoutingDocument.ofJson content = .ok document

/-- Why no document can be loaded from a file. -/
inductive FileTree.Unloadable (files : FileTree) (path : String) (limit : Nat) : Prop where
  | noSize {fault : FileFault} (h : files.size path = .error fault)
  | noContent {fault : FileFault} (h : files.read path = .error fault)
  | reportedTooLarge {size : Nat} (h : files.size path = .ok size) (hsize : limit < size)
  | readTooLarge {content : Bytes} (h : files.read path = .ok content)
      (hlength : limit < content.length)
  | noDocument {content : Bytes} {fault : Json.Fault} (h : files.read path = .ok content)
      (hdocument : RoutingDocument.ofJson content = .error fault)

/-- Each reason contradicts that the file has a document within the limit. -/
theorem FileTree.Unloadable.not_holds {files : FileTree} {path : String} {limit : Nat}
    {document : RoutingDocument} (h : files.Unloadable path limit) :
    ¬ files.Holds path limit document := by
  rintro ⟨⟨size, hsize, hreported⟩, ⟨content, hcontent, hlength, hdocument⟩⟩
  cases h with
  | noSize h =>
    rw [hsize] at h
    cases h
  | noContent h =>
    rw [hcontent] at h
    cases h
  | reportedTooLarge h hlarge =>
    rw [hsize] at h
    cases h
    omega
  | readTooLarge h hlarge =>
    rw [hcontent] at h
    cases h
    omega
  | noDocument h hfault =>
    rw [hcontent] at h
    cases h
    rw [hdocument] at hfault
    cases hfault

namespace RoutingDocument

variable {files : FileTree} {path : String} {limit : Nat}

theorem load_eq_ok_iff {document : RoutingDocument} :
    load files path limit = .ok document ↔ files.Holds path limit document := by
  unfold load
  constructor
  · intro h
    split at h
    · cases h
    · rename_i size hsize
      split at h
      · cases h
      · rename_i hreported
        split at h
        · cases h
        · rename_i content hcontent
          split at h
          · cases h
          · rename_i hlength
            cases hdocument : ofJson content with
            | error fault =>
              rw [hdocument] at h
              cases h
            | ok found =>
              rw [hdocument] at h
              cases h
              exact ⟨⟨size, hsize, Nat.le_of_not_lt hreported⟩,
                ⟨content, hcontent, Nat.le_of_not_lt hlength, hdocument⟩⟩
  · rintro ⟨⟨size, hsize, hreported⟩, ⟨content, hcontent, hlength, hdocument⟩⟩
    rw [hsize]
    dsimp only
    rw [if_neg (Nat.not_lt.2 hreported), hcontent]
    dsimp only
    rw [if_neg (Nat.not_lt.2 hlength), hdocument]
    rfl

/-- A load fails exactly if there is a reason for it to fail. -/
theorem load_error_iff :
    (∃ fault, load files path limit = .error fault) ↔ files.Unloadable path limit := by
  constructor
  · rintro ⟨fault, h⟩
    unfold load at h
    split at h
    · rename_i _ hsize
      exact .noSize hsize
    · rename_i size hsize
      split at h
      · rename_i hreported
        exact .reportedTooLarge hsize hreported
      · split at h
        · rename_i _ hcontent
          exact .noContent hcontent
        · rename_i content hcontent
          split at h
          · rename_i hlength
            exact .readTooLarge hcontent hlength
          · cases hdocument : ofJson content with
            | error why => exact .noDocument hcontent hdocument
            | ok document =>
              rw [hdocument] at h
              cases h
  · intro h
    cases hload : load files path limit with
    | error fault => exact ⟨fault, rfl⟩
    | ok document => exact (h.not_holds (load_eq_ok_iff.1 hload)).elim

end RoutingDocument

namespace FileTable

/-- The table after a load: a document takes the place of the one before. -/
def afterLoad (t : FileTable) : Except LoadFault RoutingDocument → FileTable
  | .ok document => { t with document := document }
  | .error _ => t

/-- The table after some loads. -/
def afterLoads (t : FileTable) (results : List (Except LoadFault RoutingDocument)) : FileTable :=
  results.foldl afterLoad t

/-- What is reported of a load at a tick. -/
def loadReport (t : FileTable) : Except LoadFault RoutingDocument → LogEntry
  | .ok document => t.reloadReport document.count
  | .error fault => t.refreshReport fault

variable {t : FileTable}

theorem afterLoads_append (results more : List (Except LoadFault RoutingDocument)) :
    t.afterLoads (results ++ more) = (t.afterLoads results).afterLoads more :=
  List.foldl_append

@[simp]
theorem path_afterLoad (result : Except LoadFault RoutingDocument) :
    (t.afterLoad result).path = t.path := by
  cases result <;> rfl

@[simp]
theorem limit_afterLoad (result : Except LoadFault RoutingDocument) :
    (t.afterLoad result).limit = t.limit := by
  cases result <;> rfl

@[simp]
theorem path_afterLoads (results : List (Except LoadFault RoutingDocument)) :
    (t.afterLoads results).path = t.path := by
  induction results generalizing t with
  | nil => rfl
  | cons result results ih => exact ih.trans (path_afterLoad result)

@[simp]
theorem limit_afterLoads (results : List (Except LoadFault RoutingDocument)) :
    (t.afterLoads results).limit = t.limit := by
  induction results generalizing t with
  | nil => rfl
  | cons result results ih => exact ih.trans (limit_afterLoad result)

/-- The reports of a table name its path, and do not depend on the document. -/
theorem loadReport_congr {t' : FileTable} (hpath : t'.path = t.path) :
    t'.loadReport = t.loadReport := by
  funext result
  cases result with
  | ok document => simp only [loadReport, reloadReport, hpath]
  | error fault => simp only [loadReport, refreshReport, hpath]

@[simp]
theorem loadReport_afterLoads (results : List (Except LoadFault RoutingDocument)) :
    (t.afterLoads results).loadReport = t.loadReport :=
  loadReport_congr (path_afterLoads results)

/-- After some loads, the document is that of the last one that succeeded, and the old one if none
did. -/
theorem document_afterLoads (results : List (Except LoadFault RoutingDocument)) :
    (t.document :: results.filterMap Except.toOption).getLast? =
      some (t.afterLoads results).document := by
  induction results generalizing t with
  | nil => rfl
  | cons result results ih =>
    cases result with
    | error fault => exact ih
    | ok document =>
      rw [List.filterMap_cons, Except.toOption, List.getLast?_cons_cons]
      exact ih (t := { t with document := document })

/-- Several loads with the same result do no more than one. -/
theorem afterLoads_replicate (loads : Nat) (result : Except LoadFault RoutingDocument) :
    t.afterLoads (List.replicate loads result) = if loads = 0 then t else t.afterLoad result := by
  have hagain : (t.afterLoad result).afterLoad result = t.afterLoad result := by
    cases result <;> rfl
  induction loads with
  | zero => rfl
  | succ loads ih =>
    rw [List.replicate_succ', afterLoads_append, ih, if_neg (Nat.succ_ne_zero loads)]
    split
    · rfl
    · exact hagain

theorem openFile_eq_ok {files : FileTree} {path : String} {limit : Nat}
    (hopen : openFile files path limit = .ok t) :
    RoutingDocument.load files path limit = .ok t.document ∧ t.path = path ∧ t.limit = limit := by
  rw [openFile] at hopen
  cases hload : RoutingDocument.load files path limit with
  | error fault =>
    rw [hload] at hopen
    cases hopen
  | ok document =>
    rw [hload] at hopen
    cases hopen
    exact ⟨rfl, rfl, rfl⟩

theorem reload_eq (files : FileTree) :
    t.reload files = (RoutingDocument.load files t.path t.limit).map fun document =>
      (t.afterLoad (.ok document), document.count) :=
  rfl

end FileTable

/-! ## Ticks -/

namespace RoutingSite

/-- The loads of a table that is in use, all from the same files, lead from one site to another, and
there is one report of each. -/
structure Renewed (h : RoutingSite) (t : FileTable) (reports : List LogEntry)
    (h' : RoutingSite) : Prop where
  files_eq : h'.files = h.files
  reports_eq : reports = List.replicate reports.length
    (t.loadReport (RoutingDocument.load h.files t.path t.limit))
  table_eq : h'.table = some (t.afterLoads
    (List.replicate reports.length (RoutingDocument.load h.files t.path t.limit)))

variable {h h' h'' : RoutingSite} {t : FileTable} {reports more : List LogEntry}

theorem Renewed.none (ht : h.table = some t) (hfiles : h'.files = h.files)
    (htable : h'.table = h.table) : h.Renewed t [] h' :=
  ⟨hfiles, rfl, htable.trans ht⟩

theorem Renewed.trans (hfirst : h.Renewed t reports h')
    (hmore : ∀ t', h'.table = some t' → h'.Renewed t' more h'') :
    h.Renewed t (reports ++ more) h'' := by
  obtain ⟨hfiles, hreports, htable⟩ := hfirst
  obtain ⟨hfiles', hreports', htable'⟩ := hmore _ htable
  rw [hfiles, FileTable.path_afterLoads, FileTable.limit_afterLoads] at hreports' htable'
  rw [FileTable.loadReport_afterLoads] at hreports'
  refine ⟨hfiles'.trans hfiles, ?_, ?_⟩
  · rw [List.length_append, ← List.replicate_append_replicate, ← hreports, ← hreports']
  · rw [List.length_append, ← List.replicate_append_replicate, FileTable.afterLoads_append, htable']

theorem reload_of_ok {document : RoutingDocument}
    (hload : RoutingDocument.load h.files t.path t.limit = .ok document) :
    h.reload t = (.ok document.count, [t.reloadReport document.count],
      { h with table := some { t with document := document } }) := by
  rw [reload, FileTable.reload_eq, hload]
  rfl

theorem reload_of_error {fault : LoadFault}
    (hload : RoutingDocument.load h.files t.path t.limit = .error fault) :
    h.reload t = (.error fault, [], h) := by
  rw [reload, FileTable.reload_eq, hload]
  rfl

/-- A tick for the table in use loads it, reports the load, and is followed by the next one. -/
theorem tick_in_use (ht : h.table = some t) {r : Refresh} (hr : r.table = h.tableNumber) :
    h.tick r = ({ r with next := r.next + r.period },
      [t.loadReport (RoutingDocument.load h.files t.path t.limit)],
      { h with table := some (t.afterLoad (RoutingDocument.load h.files t.path t.limit)) }) := by
  rw [tick, ht]
  dsimp only
  rw [if_pos hr]
  cases hload : RoutingDocument.load h.files t.path t.limit with
  | ok document =>
    rw [reload_of_ok hload]
    rfl
  | error fault =>
    rw [reload_of_error hload]
    dsimp only [FileTable.afterLoad]
    rw [← ht]
    rfl

/-- A tick for a table that is not in use any more is the last one. -/
theorem tick_unused {r : Refresh} (hunused : h.table = none ∨ r.table ≠ h.tableNumber) :
    h.tick r = ({ r with ended := true }, [], h) := by
  rw [tick]
  split
  · rename_i t ht
    rw [if_neg (hunused.resolve_left (ht ▸ Option.some_ne_none t))]
  · rfl

/-- A tick of a refresh is a load, or the end of the refresh. -/
theorem tick_cases (h : RoutingSite) (r : Refresh) :
    (∃ t, h.table = some t ∧ h.tick r = ({ r with next := r.next + r.period },
      [t.loadReport (RoutingDocument.load h.files t.path t.limit)],
      { h with table := some (t.afterLoad (RoutingDocument.load h.files t.path t.limit)) })) ∨
    h.tick r = ({ r with ended := true }, [], h) := by
  cases ht : h.table with
  | none => exact .inr (tick_unused (.inl ht))
  | some t =>
    by_cases hr : r.table = h.tableNumber
    · exact .inl ⟨t, rfl, tick_in_use ht hr⟩
    · exact .inr (tick_unused (.inr hr))

theorem tick_renewed (ht : h.table = some t) (r : Refresh) :
    h.Renewed t (h.tick r).2.1 (h.tick r).2.2 := by
  rcases h.tick_cases r with ⟨found, hfound, htick⟩ | htick
  · obtain rfl := Option.some.inj (ht.symm.trans hfound)
    rw [htick]
    exact ⟨rfl, rfl, rfl⟩
  · rw [htick]
    exact .none ht rfl rfl

theorem tickAll_renewed (ht : h.table = some t) (rs : List Refresh) :
    h.Renewed t (h.tickAll rs).1 (h.tickAll rs).2 := by
  induction rs generalizing h t with
  | nil => exact .none ht rfl rfl
  | cons r rs ih =>
    rw [tickAll]
    generalize hx : (if !r.ended && r.next ≤ h.now then h.tick r else (r, [], h)) = x
    have hfirst : h.Renewed t x.2.1 x.2.2 := by
      rw [← hx]
      split
      · exact tick_renewed ht r
      · exact .none ht rfl rfl
    obtain ⟨hfiles, hreports, htable⟩ := hfirst.trans fun t' ht' => ih ht'
    exact ⟨hfiles, hreports, htable⟩

theorem runTicks_renewed (ht : h.table = some t) (steps limit : Nat) :
    h.Renewed t (runTicks steps limit h).1 (runTicks steps limit h).2 := by
  induction steps generalizing h t with
  | zero => exact .none ht rfl rfl
  | succ steps ih =>
    rw [runTicks]
    split
    · exact .none ht rfl rfl
    · rename_i time htime
      obtain ⟨hfiles, hreports, htable⟩ :=
        tickAll_renewed (h := { h with now := time, refreshes := [] }) ht h.refreshes
      exact Renewed.trans ⟨hfiles, hreports, htable⟩ fun t' ht' => ih ht'

/-- While time passes, the table in use is loaded at each of its ticks. -/
theorem advance_renewed (ht : h.table = some t) (units : Nat) :
    h.Renewed t (h.advance units).1 (h.advance units).2 :=
  runTicks_renewed ht _ _

/-! ## Renewals on demand -/

/-- A renewal fails exactly if there is a reason for its load to fail. -/
theorem reload_error_iff :
    (∃ fault, (h.reload t).1 = .error fault) ↔ h.files.Unloadable t.path t.limit := by
  rw [← RoutingDocument.load_error_iff]
  cases hload : RoutingDocument.load h.files t.path t.limit with
  | error fault => simp [reload_of_error hload]
  | ok document => simp [reload_of_ok hload]

/-- A renewal that fails changes nothing. -/
theorem reload_unchanged {fault : LoadFault} (hfault : (h.reload t).1 = .error fault) :
    (h.reload t).2.2 = h := by
  cases hload : RoutingDocument.load h.files t.path t.limit with
  | error why => rw [reload_of_error hload]
  | ok document =>
    rw [reload_of_ok hload] at hfault
    cases hfault

/-- A renewal that succeeds shows the document of the file, and tells the number of its brokers. -/
theorem reload_replaces {brokers : Nat} (hok : (h.reload t).1 = .ok brokers) :
    ∃ document, h.files.Holds t.path t.limit document ∧
      (h.reload t).2.2 = { h with table := some { t with document := document } } ∧
      brokers = document.routes.length := by
  cases hload : RoutingDocument.load h.files t.path t.limit with
  | error fault =>
    rw [reload_of_error hload] at hok
    cases hok
  | ok document =>
    rw [reload_of_ok hload] at hok ⊢
    cases hok
    exact ⟨document, RoutingDocument.load_eq_ok_iff.1 hload, rfl, (document.length_routes).symm⟩

end RoutingSite

/-! ## Histories -/

/-- What can happen to a table in use and to its file. -/
inductive SiteEvent where
  /-- The files change: whatever is written, deleted, replaced by a directory or reported with
  another size. -/
  | edit (change : FileTree → FileTree)
  /-- The table is renewed on demand. -/
  | reload
  | startRefresh (interval : Nat)
  | abortRefresh
  /-- Time passes, and refreshes tick. -/
  | pass (units : Nat)

namespace RoutingSite

/-- The site after an event. -/
def after (h : RoutingSite) : SiteEvent → RoutingSite
  | .edit change => { h with files := change h.files }
  | .reload =>
    match h.table with
    | some t => (h.reload t).2.2
    | none => h
  | .startRefresh interval => h.startRefresh interval
  | .abortRefresh => h.abortLast
  | .pass units => (h.advance units).2

/-- The site after some events. -/
def afterAll (h : RoutingSite) (events : List SiteEvent) : RoutingSite :=
  events.foldl after h

/-- The files as each load of an event finds them. Of the loads at ticks there are as many as
reports. -/
def filesAt (h : RoutingSite) : SiteEvent → List FileTree
  | .reload => [h.files]
  | .pass units => List.replicate (h.advance units).1.length h.files
  | _ => []

/-- The files as each load of some events finds them. -/
def filesAtLoads (h : RoutingSite) : List SiteEvent → List FileTree
  | [] => []
  | e :: events => h.filesAt e ++ (h.after e).filesAtLoads events

variable {h : RoutingSite} {t : FileTable}

theorem table_after (ht : h.table = some t) (e : SiteEvent) :
    (h.after e).table = some (t.afterLoads
      ((h.filesAt e).map fun files => RoutingDocument.load files t.path t.limit)) := by
  cases e with
  | edit change => exact ht
  | startRefresh interval => exact ht
  | abortRefresh => exact ht
  | pass units =>
    rw [after, filesAt, List.map_replicate]
    exact (advance_renewed ht units).table_eq
  | reload =>
    rw [after, ht]
    cases hload : RoutingDocument.load h.files t.path t.limit with
    | ok document => simp [filesAt, reload_of_ok hload, hload, FileTable.afterLoads,
        FileTable.afterLoad]
    | error fault => simp [filesAt, reload_of_error hload, hload, FileTable.afterLoads,
        FileTable.afterLoad, ht]

/-- The table in use after some events is what their loads have made of it. -/
theorem table_afterAll (ht : h.table = some t) (events : List SiteEvent) :
    (h.afterAll events).table = some (t.afterLoads
      ((h.filesAtLoads events).map fun files => RoutingDocument.load files t.path t.limit)) := by
  induction events generalizing h t with
  | nil => exact ht
  | cons e events ih =>
    rw [filesAtLoads, List.map_append, FileTable.afterLoads_append]
    have hnext := ih (table_after ht e)
    rw [FileTable.path_afterLoads, FileTable.limit_afterLoads] at hnext
    exact hnext

theorem openTable_eq_ok {start opened : RoutingSite} {path : String} {limit : Nat}
    (hopen : start.openTable path limit = .ok (t, opened)) :
    RoutingDocument.load start.files path limit = .ok t.document ∧ t.path = path ∧
      t.limit = limit ∧ opened.table = some t := by
  rw [openTable] at hopen
  cases hfile : FileTable.openFile start.files path limit with
  | error fault =>
    rw [hfile] at hopen
    cases hopen
  | ok table =>
    rw [hfile] at hopen
    cases hopen
    obtain ⟨hload, hpath, hlimit⟩ := FileTable.openFile_eq_ok hfile
    exact ⟨hload, hpath, hlimit, rfl⟩

/-- The document in the table is that of the last load that succeeded, where the first load is the
one that has opened the table. -/
theorem last_loaded {first : FileTree}
    (hload : RoutingDocument.load first t.path t.limit = .ok t.document) (events : List SiteEvent) :
    ((first :: h.filesAtLoads events).filterMap fun files =>
        (RoutingDocument.load files t.path t.limit).toOption).getLast? =
      some (t.afterLoads ((h.filesAtLoads events).map fun files =>
        RoutingDocument.load files t.path t.limit)).document := by
  rw [← FileTable.document_afterLoads, List.filterMap_map, List.filterMap_cons, hload]
  rfl

/-- What was loaded last was in the file at that load. -/
theorem exists_holds {visited : List FileTree} {path : String} {limit : Nat}
    {document : RoutingDocument}
    (h : (visited.filterMap fun files =>
      (RoutingDocument.load files path limit).toOption).getLast? = some document) :
    ∃ files ∈ visited, files.Holds path limit document := by
  obtain ⟨files, hmem, hload⟩ := List.mem_filterMap.1 (List.mem_of_getLast? h)
  refine ⟨files, hmem, RoutingDocument.load_eq_ok_iff.1 ?_⟩
  cases hresult : RoutingDocument.load files path limit with
  | error fault =>
    rw [hresult] at hload
    cases hload
  | ok found =>
    rw [hresult] at hload
    cases hload
    rfl

/-- After a table has been opened and whatever has happened to its file, the table shows the
document of the last load that succeeded, and answers every look-up from it. That document was in
the file at one of the loads, as a whole and within the limit. From there on, a renewal fails
exactly if the file has no size, no content, no document, or too large a size or content, and then
nothing changes; if it succeeds, the document in the file is shown instead, and the number of its
brokers is told. Every tick reports such a load of the file as it is, under the path of the table. -/
theorem shows_last_loaded {start opened : RoutingSite} {path : String} {limit : Nat}
    (hopen : start.openTable path limit = .ok (t, opened)) (events : List SiteEvent) :
    ∃ shown : FileTable, (opened.afterAll events).table = some shown ∧
      (∃ document,
        ((start.files :: opened.filesAtLoads events).filterMap fun files =>
          (RoutingDocument.load files path limit).toOption).getLast? = some document ∧
        shown.document = document ∧ (∀ b, shown.route? b = document.route? b) ∧
        ∃ files ∈ start.files :: opened.filesAtLoads events, files.Holds path limit document) ∧
      let now := opened.afterAll events
      ((∃ fault, (now.reload shown).1 = .error fault) ↔ now.files.Unloadable path limit) ∧
      (∀ fault, (now.reload shown).1 = .error fault → (now.reload shown).2.2 = now) ∧
      (∀ brokers, (now.reload shown).1 = .ok brokers → ∃ next, now.files.Holds path limit next ∧
        (now.reload shown).2.2 = { now with table := some { shown with document := next } } ∧
        brokers = next.routes.length) ∧
      ∀ units, ∃ loads, (now.advance units).1 =
        List.replicate loads (shown.loadReport (RoutingDocument.load now.files path limit)) := by
  obtain ⟨hload, rfl, rfl, ht⟩ := openTable_eq_ok hopen
  refine ⟨_, table_afterAll ht events, ⟨_, last_loaded hload events, rfl, fun _ => rfl,
    exists_holds (last_loaded hload events)⟩, ?_⟩
  have hpath := FileTable.path_afterLoads (t := t)
    ((opened.filesAtLoads events).map fun files => RoutingDocument.load files t.path t.limit)
  have hlimit := FileTable.limit_afterLoads (t := t)
    ((opened.filesAtLoads events).map fun files => RoutingDocument.load files t.path t.limit)
  intro now
  have hticks := fun units => (advance_renewed (table_afterAll ht events) units).reports_eq
  rw [hpath, hlimit] at hticks
  refine ⟨?_, fun fault => reload_unchanged, ?_, fun units => ⟨_, hticks units⟩⟩
  · rw [reload_error_iff, hpath, hlimit]
  · intro brokers hok
    obtain ⟨next, hnext⟩ := reload_replaces hok
    rw [hpath, hlimit] at hnext
    exact ⟨next, by rwa [hpath, hlimit]⟩

end RoutingSite

/-- A document with one broker, which is ready, and the topic of its queue. -/
def RoutingDocument.ofTopic (topic : String) : RoutingDocument :=
  ⟨.ofList [("ns", .ofList [("b1", ⟨.ready, some ⟨topic, ""⟩⟩)])]⟩

/-- Writes such a document to a file. -/
def FileTree.putTopic (files : FileTree) (topic : String) : FileTree :=
  files.put "targets.json" (RoutingDocument.ofTopic topic).write

namespace RoutingSite

/-- A site where a table has been opened. -/
def openedOnce : RoutingSite where
  files := FileTree.empty.putTopic "topic-one"
  table := some ⟨"targets.json", 200, .ofTopic "topic-one"⟩
  tableNumber := 1

/-- A file that is cut short, written anew, deleted, replaced by a directory, too large by its
reported size alone and by its content alone, while a refresh ticks and the table is renewed on
demand. In the end all files are gone. -/
def roughHistory : List SiteEvent :=
  let document := (RoutingDocument.ofTopic "topic-three").write
  [.startRefresh 100, .edit (·.put "targets.json" (document.take 20)), .pass 250,
    .edit (·.putTopic "topic-two"), .pass 100,
    .edit fun files => (files.delete? "targets.json").getD files, .reload,
    .edit (·.putDirectory "targets.json"), .pass 100,
    .edit (·.putNode "targets.json" (.file 5000 document)), .reload,
    .edit (·.putNode "targets.json" (.file 0 (document ++ List.replicate 100 0x20))), .pass 100,
    .edit fun _ => .empty]

/-- Of the seven loads only one succeeds, and its document stays. -/
theorem shows_last_loaded_roughHistory :
    ({ files := openedOnce.files } : RoutingSite).openTable "targets.json" 200 =
      .ok (⟨"targets.json", 200, .ofTopic "topic-one"⟩, openedOnce) ∧
    (openedOnce.filesAtLoads roughHistory).length = 7 ∧
    ∃ shown, (openedOnce.afterAll roughHistory).table = some shown ∧
      shown.route? ⟨"ns", "b1"⟩ = some ⟨.ready, "topic-two"⟩ ∧
      ∃ fault, ((openedOnce.afterAll roughHistory).reload shown).1 = .error fault ∧
        ((openedOnce.afterAll roughHistory).reload shown).2.2 = openedOnce.afterAll roughHistory := by
  have hopen : ({ files := openedOnce.files } : RoutingSite).openTable "targets.json" 200 =
      .ok (⟨"targets.json", 200, .ofTopic "topic-one"⟩, openedOnce) := rfl
  obtain ⟨shown, htable, ⟨document, hlast, -, hroute, -⟩, hfails, hkeeps, -⟩ :=
    shows_last_loaded hopen roughHistory
  have htwo : ((openedOnce.files :: openedOnce.filesAtLoads roughHistory).filterMap fun files =>
      (RoutingDocument.load files "targets.json" 200).toOption).getLast? =
        some (.ofTopic "topic-two") := by
    decide +kernel
  have hdocument := Option.some.inj (hlast.symm.trans htwo)
  obtain ⟨fault, hfault⟩ := hfails.2 (.noSize rfl)
  refine ⟨hopen, by decide +kernel, shown, htable, ?_, fault, hfault, hkeeps fault hfault⟩
  rw [hroute, hdocument]
  rfl

end RoutingSite

end EventIngress
