import EventIngress.Proofs.Routing.Renewals

/-!
# Renewals that overlap

A renewal reads the file first, and afterwards the document that it has read takes the place of the
one in the table. Any number of renewals may be under way: between the two steps of one of them the
file may change, and others may read it or replace the document. Nothing orders the second steps by
the first ones.

So a table shows at every instant a document that was in the file at some instant, but not always
the latest one that was read and has been shown. It goes back to an older document only if the
renewals that have read the two were under way at the same time, and nothing keeps it from that.

Results:

* `RenewalSystem.step`: the two steps of a renewal, and changes of the files.
* `RenewalSystem.reload_eq_read_swap`: one step right after the other is a renewal as a whole.
* `RenewalSystem.traced_opened`: where the documents in the table and under way come from.
* `RenewalSystem.goes_back_only_by_overlap`: when a table can go back to an older document.
* `RenewalSystem.goes_back_to_retired_topic`: a table that does.
-/

namespace EventIngress

/-- A document that was read, and the instant from which on it was under way. -/
structure Reading where
  instant : Nat
  document : RoutingDocument
  deriving DecidableEq

/-- Files, a table over one of them, and the documents that renewals (`FileRoutingTable.reload`) have
read and that have not reached the table yet. -/
structure RenewalSystem where
  files : FileTree
  table : FileTable
  /-- The number of steps so far. -/
  now : Nat := 0
  /-- The instant at which the document of the table was read. -/
  shownRead : Nat := 0
  underWay : List Reading := []

/-- What can happen next. -/
inductive RenewalMove where
  /-- The files change. -/
  | edit (change : FileTree → FileTree)
  /-- A renewal reads the file. With a fault it has ended. -/
  | read
  /-- The document of a renewal that is under way takes the place of the one in the table. -/
  | swap (index : Nat)

namespace RenewalSystem

/-! ## Steps -/

/-- The document in the table and when it was read. -/
def shown (s : RenewalSystem) : Reading :=
  ⟨s.shownRead, s.table.document⟩

/-- The system after a move. Without a renewal of the number, a swap does nothing. -/
def step (s : RenewalSystem) : RenewalMove → RenewalSystem
  | .edit change => { s with files := change s.files, now := s.now + 1 }
  | .read =>
    match RoutingDocument.load s.files s.table.path s.table.limit with
    | .ok document =>
      { s with now := s.now + 1, underWay := s.underWay ++ [⟨s.now + 1, document⟩] }
    | .error _ => { s with now := s.now + 1 }
  | .swap index =>
    match s.underWay[index]? with
    | some r =>
      { s with
        table := s.table.afterLoad (.ok r.document)
        now := s.now + 1
        shownRead := r.instant
        underWay := s.underWay.eraseIdx index }
    | none => { s with now := s.now + 1 }

/-- A table that has just been opened. -/
def opened (files : FileTree) (t : FileTable) : RenewalSystem where
  files := files
  table := t

/-- The system at an instant: after so many moves. -/
def stateAt (start : RenewalSystem) (moves : Nat → RenewalMove) : Nat → RenewalSystem
  | 0 => start
  | i + 1 => (stateAt start moves i).step (moves i)

/-- Some moves, and then none that matters. -/
def inOrder (moves : List RenewalMove) (i : Nat) : RenewalMove :=
  moves.getD i (.edit id)

variable {s : RenewalSystem}

theorem step_read_of_ok {document : RoutingDocument}
    (hload : RoutingDocument.load s.files s.table.path s.table.limit = .ok document) :
    s.step .read =
      { s with now := s.now + 1, underWay := s.underWay ++ [⟨s.now + 1, document⟩] } := by
  rw [step, hload]

theorem step_read_of_error {fault : LoadFault}
    (hload : RoutingDocument.load s.files s.table.path s.table.limit = .error fault) :
    s.step .read = { s with now := s.now + 1 } := by
  rw [step, hload]

theorem step_swap_of_some {index : Nat} {r : Reading} (hr : s.underWay[index]? = some r) :
    s.step (.swap index) =
      { s with
        table := s.table.afterLoad (.ok r.document)
        now := s.now + 1
        shownRead := r.instant
        underWay := s.underWay.eraseIdx index } := by
  rw [step, hr]

theorem step_swap_of_none {index : Nat} (hr : s.underWay[index]? = none) :
    s.step (.swap index) = { s with now := s.now + 1 } := by
  rw [step, hr]

/-- A renewal whose two steps follow each other is a renewal as a whole, and the ones under way stay
so. -/
theorem reload_eq_read_swap :
    let s' := (s.step .read).step (.swap s.underWay.length)
    s'.table = ((s.table.reload s.files).toOption.map (·.1)).getD s.table ∧
      s'.underWay = s.underWay := by
  intro s'
  cases hload : RoutingDocument.load s.files s.table.path s.table.limit with
  | error fault =>
    have hs' : s' = { s with now := s.now + 1 + 1 } := by
      show (s.step .read).step _ = _
      rw [step_read_of_error hload, step_swap_of_none (List.getElem?_eq_none (Nat.le_refl _))]
    rw [hs', FileTable.reload_eq, hload]
    exact ⟨rfl, rfl⟩
  | ok document =>
    have hlast : (s.step .read).underWay[s.underWay.length]? = some ⟨s.now + 1, document⟩ := by
      rw [step_read_of_ok hload]
      exact List.getElem?_concat_length
    show ((s.step .read).step _).table = _ ∧ ((s.step .read).step _).underWay = _
    rw [step_swap_of_some hlast, step_read_of_ok hload, FileTable.reload_eq, hload]
    refine ⟨rfl, ?_⟩
    show (s.underWay ++ _).eraseIdx s.underWay.length = s.underWay
    rw [List.eraseIdx_append_of_length_le (Nat.le_refl _)]
    simp

/-! ## What a move leaves -/

/-- A move is a step, and leaves the table at its file. -/
theorem kept_step (m : RenewalMove) :
    (s.step m).now = s.now + 1 ∧ (s.step m).table.path = s.table.path ∧
      (s.step m).table.limit = s.table.limit := by
  cases m with
  | edit change => exact ⟨rfl, rfl, rfl⟩
  | read =>
    rw [step]
    split
    · exact ⟨rfl, rfl, rfl⟩
    · exact ⟨rfl, rfl, rfl⟩
  | swap index =>
    rw [step]
    split
    · exact ⟨rfl, rfl, rfl⟩
    · exact ⟨rfl, rfl, rfl⟩

/-- What is under way was so before, or was just read. -/
theorem mem_underWay_step {m : RenewalMove} {r : Reading} (hr : r ∈ (s.step m).underWay) :
    r ∈ s.underWay ∨ (r.instant = s.now + 1 ∧ (s.step m).files = s.files ∧
      RoutingDocument.load s.files s.table.path s.table.limit = .ok r.document) := by
  cases m with
  | edit change => exact .inl hr
  | read =>
    cases hload : RoutingDocument.load s.files s.table.path s.table.limit with
    | error fault =>
      rw [step_read_of_error hload] at hr
      exact .inl hr
    | ok document =>
      rw [step_read_of_ok hload] at hr ⊢
      rcases List.mem_append.1 hr with hold | hnew
      · exact .inl hold
      · obtain rfl := List.mem_singleton.1 hnew
        exact .inr ⟨rfl, rfl, rfl⟩
  | swap index =>
    cases hindex : s.underWay[index]? with
    | none =>
      rw [step_swap_of_none hindex] at hr
      exact .inl hr
    | some shown =>
      rw [step_swap_of_some hindex] at hr
      exact .inl (List.mem_of_mem_eraseIdx hr)

/-- A move shows what was shown, or it is a swap and shows what was under way. -/
theorem shown_step (s : RenewalSystem) (m : RenewalMove) :
    (s.step m).shown = s.shown ∨
      ∃ index, m = .swap index ∧ s.underWay[index]? = some (s.step m).shown := by
  cases m with
  | edit change => exact .inl rfl
  | read =>
    left
    rw [step]
    split
    · rfl
    · rfl
  | swap index =>
    cases hindex : s.underWay[index]? with
    | none =>
      rw [step_swap_of_none hindex]
      exact .inl rfl
    | some r =>
      rw [step_swap_of_some hindex]
      exact .inr ⟨index, rfl, hindex⟩

/-! ## Where documents come from -/

variable {start : RenewalSystem} {moves : Nat → RenewalMove} {i j : Nat} {r : Reading}

theorem kept_stateAt (hnow : start.now = 0) (moves : Nat → RenewalMove) (i : Nat) :
    (stateAt start moves i).now = i ∧ (stateAt start moves i).table.path = start.table.path ∧
      (stateAt start moves i).table.limit = start.table.limit := by
  induction i with
  | zero => exact ⟨hnow, rfl, rfl⟩
  | succ i ih =>
    obtain ⟨hi, hpath, hlimit⟩ := ih
    obtain ⟨hi', hpath', hlimit'⟩ := kept_step (s := stateAt start moves i) (moves i)
    exact ⟨hi'.trans (by rw [hi]), hpath'.trans hpath, hlimit'.trans hlimit⟩

/-- A document was in the file at its instant, which is not later than the other one. -/
structure WasRead (start : RenewalSystem) (moves : Nat → RenewalMove) (i : Nat) (r : Reading) :
    Prop where
  le : r.instant ≤ i
  load : RoutingDocument.load (stateAt start moves r.instant).files start.table.path
    start.table.limit = .ok r.document

theorem WasRead.succ (h : WasRead start moves i r) : WasRead start moves (i + 1) r :=
  ⟨Nat.le_succ_of_le h.le, h.load⟩

/-- Where the documents come from: all were read, the ones under way have been so since then, and
the one in the table was under way when it was read, except the one of the start. -/
structure Traced (start : RenewalSystem) (moves : Nat → RenewalMove) (i : Nat) : Prop where
  shown_read : WasRead start moves i (stateAt start moves i).shown
  underWay_read : ∀ r ∈ (stateAt start moves i).underWay, WasRead start moves i r
  underWay_since : ∀ r ∈ (stateAt start moves i).underWay, ∀ j, r.instant ≤ j → j ≤ i →
    r ∈ (stateAt start moves j).underWay
  shown_since : (stateAt start moves i).shown.instant = 0 ∨ (stateAt start moves i).shown ∈
    (stateAt start moves (stateAt start moves i).shown.instant).underWay

/-- What a move shows was shown or under way before, and what it brings under way is read at that
move. -/
theorem Traced.succ (hnow : start.now = 0) (h : Traced start moves i) :
    Traced start moves (i + 1) := by
  have hunderWay : ∀ r ∈ (stateAt start moves (i + 1)).underWay,
      r ∈ (stateAt start moves i).underWay ∨
        (r.instant = i + 1 ∧ WasRead start moves (i + 1) r) := by
    intro r hr
    rcases mem_underWay_step hr with hold | ⟨hinstant, hfiles, hload⟩
    · exact .inl hold
    · obtain ⟨hi, hpath, hlimit⟩ := kept_stateAt hnow moves i
      rw [hi] at hinstant
      rw [hpath, hlimit] at hload
      refine .inr ⟨hinstant, Nat.le_of_eq hinstant, ?_⟩
      rw [hinstant, stateAt, hfiles]
      exact hload
  have hshown := shown_step (stateAt start moves i) (moves i)
  refine ⟨?_, ?_, ?_, ?_⟩
  · rcases hshown with hsame | ⟨index, -, hindex⟩
    · rw [stateAt, hsame]
      exact h.shown_read.succ
    · exact (h.underWay_read _ (List.mem_of_getElem? hindex)).succ
  · intro r hr
    rcases hunderWay r hr with hold | ⟨-, hread⟩
    · exact (h.underWay_read r hold).succ
    · exact hread
  · intro r hr j hle hj
    rcases Nat.lt_or_eq_of_le hj with hlt | rfl
    · rcases hunderWay r hr with hold | ⟨hinstant, -⟩
      · exact h.underWay_since r hold j hle (Nat.le_of_lt_succ hlt)
      · omega
    · exact hr
  · rcases hshown with hsame | ⟨index, -, hindex⟩
    · rw [stateAt, hsame]
      exact h.shown_since
    · have hmem := List.mem_of_getElem? hindex
      exact .inr (h.underWay_since _ hmem _ (Nat.le_refl _) (h.underWay_read _ hmem).le)

theorem traced_opened {files : FileTree} {t : FileTable}
    (hload : RoutingDocument.load files t.path t.limit = .ok t.document)
    (moves : Nat → RenewalMove) (i : Nat) : Traced (opened files t) moves i := by
  induction i with
  | zero =>
    exact ⟨⟨Nat.le_refl _, hload⟩, fun _ hr => (List.not_mem_nil hr).elim,
      fun _ hr => (List.not_mem_nil hr).elim, .inl rfl⟩
  | succ i ih => exact ih.succ rfl

/-! ## Going back -/

/-- A table goes back to an older document exactly when a swap brings it one. -/
theorem goes_back_iff (s : RenewalSystem) (m : RenewalMove) :
    (s.step m).shownRead < s.shownRead ↔
      ∃ index older, m = .swap index ∧ s.underWay[index]? = some older ∧
        older.instant < s.shownRead := by
  constructor
  · intro hback
    rcases shown_step s m with hsame | ⟨index, rfl, hindex⟩
    · have hread : (s.step m).shownRead = s.shownRead := congrArg Reading.instant hsame
      omega
    · exact ⟨index, _, rfl, hindex, hback⟩
  · rintro ⟨index, older, rfl, hindex, holder⟩
    rw [step_swap_of_some hindex]
    exact holder

/-- When a document is under way that is older than the one in the table, both were under way when
the one in the table was read. -/
theorem Traced.overlap (h : Traced start moves i) {older : Reading}
    (hmem : older ∈ (stateAt start moves i).underWay)
    (holder : older.instant < (stateAt start moves i).shownRead) :
    (stateAt start moves i).shown ∈
        (stateAt start moves (stateAt start moves i).shownRead).underWay ∧
      older ∈ (stateAt start moves (stateAt start moves i).shownRead).underWay := by
  have hshown := h.shown_since.resolve_left (Nat.ne_zero_of_lt holder)
  exact ⟨hshown, h.underWay_since older hmem _ (Nat.le_of_lt holder) h.shown_read.le⟩

theorem eq_of_length_le_one {α : Type} {l : List α} (hl : l.length ≤ 1) {a b : α} (ha : a ∈ l)
    (hb : b ∈ l) : a = b := by
  match l, hl with
  | [c], _ => rw [List.mem_singleton.1 ha, List.mem_singleton.1 hb]

/-- While renewals follow each other, none brings the table an older document. -/
theorem Traced.le_succ (h : Traced start moves i)
    (halone : ∀ k ≤ i, (stateAt start moves k).underWay.length ≤ 1) :
    (stateAt start moves i).shownRead ≤ (stateAt start moves (i + 1)).shownRead := by
  refine Nat.le_of_not_lt fun hback => ?_
  obtain ⟨index, older, -, hindex, holder⟩ := (goes_back_iff _ _).1 hback
  obtain ⟨hshown, hmem⟩ := h.overlap (List.mem_of_getElem? hindex) holder
  have heq := eq_of_length_le_one (halone _ h.shown_read.le) hshown hmem
  have hread : (stateAt start moves i).shownRead = older.instant := congrArg Reading.instant heq
  omega

/-- A table shows at every instant a whole document that was in the file, within the limit, when it
was read. It goes back to an older document exactly when a swap brings it one, and then the two
renewals were under way at the same time. So it never goes back as long as renewals follow each
other. -/
theorem goes_back_only_by_overlap {files : FileTree} {path : String} {limit : Nat} {t : FileTable}
    (hopen : FileTable.openFile files path limit = .ok t) (moves : Nat → RenewalMove) :
    let s := stateAt (opened files t) moves
    (∀ i, (s i).shownRead ≤ i ∧ (s (s i).shownRead).files.Holds path limit (s i).table.document) ∧
      (∀ i, (s (i + 1)).shownRead < (s i).shownRead ↔
        ∃ index older, moves i = .swap index ∧ (s i).underWay[index]? = some older ∧
          older.instant < (s i).shownRead) ∧
      (∀ i, ∀ older ∈ (s i).underWay, older.instant < (s i).shownRead →
        (s i).shown ∈ (s (s i).shownRead).underWay ∧ older ∈ (s (s i).shownRead).underWay) ∧
      ∀ j, (∀ i < j, (s i).underWay.length ≤ 1) → ∀ i ≤ j, (s i).shownRead ≤ (s j).shownRead := by
  intro s
  obtain ⟨hload, rfl, rfl⟩ := FileTable.openFile_eq_ok hopen
  have htraced := traced_opened hload moves
  refine ⟨fun i => ?_, fun i => goes_back_iff _ _, fun i older => (htraced i).overlap, ?_⟩
  · have hread := (htraced i).shown_read
    exact ⟨hread.le, RoutingDocument.load_eq_ok_iff.1 hread.load⟩
  · intro j halone i hle
    induction hle with
    | refl => exact Nat.le_refl _
    | @step j hle ih =>
      have hstep := (htraced j).le_succ fun k hk => halone k (Nat.lt_succ_of_le hk)
      exact Nat.le_trans (ih fun k hk => halone k (Nat.lt_succ_of_lt hk)) hstep

/-- Two renewals that follow each other, with a change of the file between them. -/
def inTurn : List RenewalMove :=
  [.read, .swap 0, .edit (·.putTopic "topic-two"), .read, .swap 0]

/-- Two renewals that read the file before and after a change of it, and whose documents reach the
table the other way round. -/
def crossed : List RenewalMove :=
  [.read, .edit (·.putTopic "topic-two"), .read, .swap 1, .swap 0]

/-- A table that has just been opened, after some of these moves. -/
def retiring (moves : List RenewalMove) (i : Nat) : RenewalSystem :=
  stateAt (opened (FileTree.empty.putTopic "topic-one") ⟨"targets.json", 200, .ofTopic "topic-one"⟩)
    (inOrder moves) i

/-- Renewals in turn show the newer document for good; the ones that cross were both under way when
it was read. -/
theorem goes_back_only_by_overlap_retiring :
    FileTable.openFile (FileTree.empty.putTopic "topic-one") "targets.json" 200 =
        .ok ⟨"targets.json", 200, .ofTopic "topic-one"⟩ ∧
      ((∀ i < 5, (retiring inTurn i).underWay.length ≤ 1) ∧ (retiring inTurn 2).shownRead = 1 ∧
        ∀ i ≤ 5, (retiring inTurn i).shownRead ≤ (retiring inTurn 5).shownRead) ∧
      ⟨1, .ofTopic "topic-one"⟩ ∈ (retiring crossed 4).underWay ∧
      (retiring crossed 4).shownRead = 3 ∧
      (retiring crossed 4).shown ∈ (retiring crossed 3).underWay ∧
      ⟨1, .ofTopic "topic-one"⟩ ∈ (retiring crossed 3).underWay := by
  have hopen : FileTable.openFile (FileTree.empty.putTopic "topic-one") "targets.json" 200 =
      .ok ⟨"targets.json", 200, .ofTopic "topic-one"⟩ := rfl
  have halone : ∀ i < 5, (retiring inTurn i).underWay.length ≤ 1 := by decide +kernel
  have hmem : ⟨1, .ofTopic "topic-one"⟩ ∈ (retiring crossed 4).underWay := by decide +kernel
  have hread : (retiring crossed 4).shownRead = 3 := by decide +kernel
  have hoverlap := (goes_back_only_by_overlap hopen (inOrder crossed)).2.2.1 4 _ hmem (by
    show 1 < (retiring crossed 4).shownRead
    omega)
  refine ⟨hopen, ⟨halone, by decide +kernel,
    (goes_back_only_by_overlap hopen (inOrder inTurn)).2.2.2 5 halone⟩, hmem, hread, ?_⟩
  rw [← hread]
  exact hoverlap

/-- Once the newer document has been shown, the older one is shown again, though the file holds the
newer one, and events go to the retired topic. No renewal is under way that would change this. -/
theorem goes_back_to_retired_topic :
    FileTable.openFile (retiring crossed 0).files "targets.json" 200 =
        .ok (retiring crossed 0).table ∧
      ((retiring crossed 4).shownRead = 3 ∧
        (retiring crossed 4).table.route? ⟨"ns", "b1"⟩ = some ⟨.ready, "topic-two"⟩) ∧
      ((retiring crossed 5).shownRead = 1 ∧
        (retiring crossed 5).table.route? ⟨"ns", "b1"⟩ = some ⟨.ready, "topic-one"⟩) ∧
      (retiring crossed 5).underWay = [] ∧
      (RoutingDocument.load (retiring crossed 5).files "targets.json" 200).toOption =
        some (.ofTopic "topic-two") :=
  ⟨rfl, by decide +kernel⟩

end RenewalSystem

end EventIngress
