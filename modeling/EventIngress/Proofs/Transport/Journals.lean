import EventIngress.Proofs.Json.Records
import EventIngress.Proofs.Transport.Accounts
import EventIngress.Text.Cut
import EventIngress.Transport.Journal
import EventIngress.Transport.PubSub

/-!
# Journals, line by line

Handles of one factory publish into a journal whose writer takes everything. A written text has no
control characters in it, so a record is one line whatever is in the attributes, and the lines of
the journal are the records of the publishes that were taken. Each line is read as a JSON object
that holds the whole message. The request of a publish over HTTP holds the whole message, too.

Results:

* `Json.Printed`: written forms without control characters.
* `JournalSystem`, `JournalMove`, `JournalSystem.step`: handles and publishes around a journal.
* `JournalSystem.Faithful`: the invariant, kept by all moves.
* `JournalSystem.publishes_recorded`: the lines of a journal and the requests over HTTP.
-/

namespace EventIngress

/-! ## Written forms without control characters -/

namespace Json

/-- There are no control characters, and so no line ends. -/
def Printed (written : Bytes) : Prop :=
  ∀ b ∈ written, 0x20 ≤ b

namespace Printed

theorem nil : Printed [] := by
  rintro _ ⟨⟩

theorem append {v w : Bytes} (hv : Printed v) (hw : Printed w) : Printed (v ++ w) :=
  fun b hb => (List.mem_append.1 hb).elim (hv b) (hw b)

theorem cons {b : UInt8} (hb : 0x20 ≤ b) {w : Bytes} (hw : Printed w) : Printed (b :: w) :=
  List.forall_mem_cons.2 ⟨hb, hw⟩

theorem lineEnd_not_mem {w : Bytes} (hw : Printed w) : 0x0a ∉ w :=
  fun h => absurd (hw 0x0a h) (by decide)

theorem escapeByte (b : UInt8) : Printed (escapeByte b) := by
  unfold Json.escapeByte
  split_ifs with _ _ _ _ _ _ _ hcontrol
  -- A backslash and a letter.
  iterate 7 exact cons (by decide) (cons (by decide) nil)
  · have hdigit : ∀ n : Fin 16, 0x20 ≤ (Hex.digit n.val).toUInt8 := by decide
    have hb := b.toNat_lt
    have hescape : Printed [0x5c, 0x75, 0x30, 0x30] :=
      cons (by decide) (cons (by decide) (cons (by decide) (cons (by decide) nil)))
    exact append hescape (cons (hdigit ⟨b.toNat / 16, by omega⟩)
      (cons (hdigit ⟨b.toNat % 16, by omega⟩) nil))
  · exact cons (UInt8.not_lt.1 hcontrol) nil

theorem writeText (s : String) : Printed (writeText s) := by
  refine cons (by decide) (append ?_ (cons (by decide) nil))
  intro x hx
  obtain ⟨b, _, hx⟩ := List.mem_flatMap.1 hx
  exact escapeByte b x hx

theorem commaSeparated {items : List Bytes} (h : ∀ item ∈ items, Printed item) :
    Printed (commaSeparated items) := by
  cases items with
  | nil => exact nil
  | cons item items =>
    rw [List.forall_mem_cons] at h
    rw [commaSeparated_cons]
    refine append h.1 ?_
    intro x hx
    obtain ⟨other, hother, hx⟩ := List.mem_flatMap.1 hx
    exact cons (by decide) (h.2 other hother) x hx

theorem writeObject {members : List (String × Bytes)} (h : ∀ m ∈ members, Printed m.2) :
    Printed (writeObject members) := by
  refine cons (by decide) (append (commaSeparated ?_) (cons (by decide) nil))
  rw [List.forall_mem_map]
  exact fun m hm => append (writeText m.1) (cons (by decide) (h m hm))

theorem writeMap {α : Type} {write : α → Bytes} (h : ∀ a, Printed (write a))
    (m : SortedMap String α) : Printed (writeMap m write) := by
  refine writeObject ?_
  show ∀ e ∈ m.toList.map fun e => (e.1, write e.2), Printed e.2
  rw [List.forall_mem_map]
  exact fun e _ => h e.2

end Printed

end Json

/-! ## Whole messages -/

namespace Message

/-- The attributes of a message as a JSON value. -/
def attributesValue (m : Message) : Json.Value :=
  .object (m.attributes.mapValues .string)

theorem readsAs_attributes (m : Message) (depth : Nat) :
    Json.ReadsAs (depth + 1) (Json.writeMap m.attributes Json.writeText) m.attributesValue :=
  .map (Json.readsAs_string depth) m.attributes

end Message

namespace Journal

/-- A line of a journal: one JSON object with the topic, the id, exactly the attributes of the
message, and a text that stands for its body. -/
def IsRecord (topic : TopicId) (messageId : String) (m : Message) (line : Bytes) : Prop :=
  ∃ encoded, Base64.decode encoded = some m.body ∧
    Json.finish (Json.readValue Json.maxDepth line) = .ok (.object (.ofList
      [("attributes", m.attributesValue), ("data_base64", .string encoded),
        ("message_id", .string messageId), ("topic", .string topic.text)]))

theorem printed_record (topic : TopicId) (messageId : String) (m : Message) :
    Json.Printed (record topic messageId m) := by
  refine Json.Printed.writeObject ?_
  simp only [List.forall_mem_cons]
  exact ⟨.writeMap .writeText m.attributes, .writeText _, .writeText _, .writeText _, by simp⟩

theorem isRecord_record (topic : TopicId) (messageId : String) (m : Message) :
    IsRecord topic messageId m (record topic messageId m) := by
  have hmembers : List.Forall₂ (Json.MemberReadsAs 126)
      [("attributes", Json.writeMap m.attributes Json.writeText),
        ("data_base64", Json.writeText (Base64.encode m.body)),
        ("message_id", Json.writeText messageId), ("topic", Json.writeText topic.text)]
      [("attributes", m.attributesValue), ("data_base64", .string (Base64.encode m.body)),
        ("message_id", .string messageId), ("topic", .string topic.text)] :=
    .cons ⟨rfl, m.readsAs_attributes 125⟩ <| .cons ⟨rfl, Json.readsAs_string 126 _⟩ <|
      .cons ⟨rfl, Json.readsAs_string 126 _⟩ <| .cons ⟨rfl, Json.readsAs_string 126 _⟩ .nil
  have hread := Json.ReadsAs.object hmembers
  refine ⟨Base64.encode m.body, Base64.decode_encode m.body, ?_⟩
  exact Json.ReadsBack.finish fun _ hrest => hread.readValue hrest

end Journal

namespace PubSubHandle

/-- The body of a request: one JSON object with one message in it, with exactly the attributes of
the message and a text that stands for its body. -/
def Holds (m : Message) (body : Bytes) : Prop :=
  ∃ encoded, Base64.decode encoded = some m.body ∧
    Json.finish (Json.readValue Json.maxDepth body) = .ok (.object (.ofList
      [("messages", .array [.object (.ofList
        [("data", .string encoded), ("attributes", m.attributesValue)])])]))

theorem holds_requestBody (m : Message) : Holds m (requestBody m) := by
  have hmembers : List.Forall₂ (Json.MemberReadsAs 124)
      [("data", Json.writeText (Base64.encode m.body)),
        ("attributes", Json.writeMap m.attributes Json.writeText)]
      [("data", .string (Base64.encode m.body)), ("attributes", m.attributesValue)] :=
    .cons ⟨rfl, Json.readsAs_string 124 _⟩ <| .cons ⟨rfl, m.readsAs_attributes 123⟩ .nil
  have hmessages := Json.ReadsAs.array (.cons (Json.ReadsAs.object hmembers) .nil)
  have hbody : Json.ReadsAs 127 (requestBody m) _ :=
    Json.ReadsAs.object (.cons (b := ("messages", _)) ⟨rfl, hmessages⟩ .nil)
  refine ⟨Base64.encode m.body, Base64.decode_encode m.body, ?_⟩
  exact Json.ReadsBack.finish fun _ hrest => hbody.readValue hrest

end PubSubHandle

/-! ## Handles around a journal -/

/-- A publish into a journal: its handle with the topic, its message, and what became of it. -/
structure Recording where
  handle : Nat
  topic : TopicId
  message : Message
  progress : Progress

/-- The answer to a publish that was taken. -/
def Recording.ack? (r : Recording) : Option Ack :=
  match r.progress with
  | .ended (.ok ack) => some ack
  | _ => none

/-- Handles of one factory, each with its topic and whether it is closed, and what has become of all
publishes on them. -/
structure JournalSystem where
  journal : Journal := {}
  handles : List (TopicId × Bool) := []
  publishes : List Recording := []

/-- What can happen. -/
inductive JournalMove where
  /-- A handle is opened. -/
  | openHandle (t : TopicId)
  /-- A handle is closed. -/
  | close (h : Nat)
  | publish (h : Nat) (m : Message)

namespace JournalSystem

/-- One move. A move on a handle that was not opened changes nothing. -/
def step (s : JournalSystem) : JournalMove → JournalSystem
  | .openHandle t => { s with handles := s.handles ++ [(t, false)] }
  | .close h => { s with handles := s.handles.modify h fun x => (x.1, true) }
  | .publish h m =>
    match s.handles[h]? with
    | none => s
    | some (t, closed) =>
      let (progress, journal) := s.journal.publish t closed m
      { s with journal := journal, publishes := s.publishes ++ [⟨h, t, m, progress⟩] }

/-- Some moves, one after another. -/
def run (s : JournalSystem) (moves : List JournalMove) : JournalSystem :=
  moves.foldl step s

/-- The publishes that were taken, in order, with the answers to them. -/
def taken (s : JournalSystem) : List (Recording × Ack) :=
  s.publishes.filterMap fun r => r.ack?.map fun ack => (r, ack)

/-- The writer works, every publish knows the topic of its handle and was taken or found its handle
closed, the answers carry the ids that were handed out, and the journal has a line for each publish
that was taken. -/
structure Faithful (s : JournalSystem) : Prop where
  mode : s.journal.mode = .accepts
  jammed : s.journal.jammed = false
  housed : ∀ r ∈ s.publishes, (s.handles[r.handle]?).map (·.1) = some r.topic
  ended : ∀ r ∈ s.publishes, r.progress = .ended (.error (.closed r.topic)) ∨
    ∃ id, r.progress = .ended (.ok ⟨id, r.topic⟩)
  ids : s.taken.map (·.2.messageId) = s.journal.issuer.ids
  written : s.journal.written = s.taken.flatMap fun p =>
    Journal.record p.1.topic p.2.messageId p.1.message ++ [0x0a]

variable {s : JournalSystem} {h : Nat} {t : TopicId}

theorem faithful_initial : Faithful {} :=
  ⟨rfl, rfl, by rintro r ⟨⟩, by rintro r ⟨⟩, rfl, rfl⟩

/-- A publish on a closed handle is refused, and nothing is written. -/
theorem step_publish_closed (hhandle : s.handles[h]? = some (t, true)) (m : Message) :
    s.step (.publish h m) =
      { s with publishes := s.publishes ++ [⟨h, t, m, .ended (.error (.closed t))⟩] } := by
  rw [step, hhandle]
  rfl

/-- A publish on an open handle is taken under the next id, and its record is written. -/
theorem Faithful.step_publish_open (hs : s.Faithful) (hhandle : s.handles[h]? = some (t, false))
    (m : Message) :
    s.step (.publish h m) =
      let id := s.journal.issuer.next.1
      { s with
        journal := { s.journal with
          issuer := s.journal.issuer.next.2
          written := s.journal.written ++ Journal.record t id m ++ [0x0a] }
        publishes := s.publishes ++ [⟨h, t, m, .ended (.ok ⟨id, t⟩)⟩] } := by
  obtain ⟨⟨issuer, written, mode, jammed⟩, handles, publishes⟩ := s
  obtain rfl : mode = .accepts := hs.mode
  obtain rfl : jammed = false := hs.jammed
  rw [step, hhandle]
  rfl

theorem taken_concat (s : JournalSystem) (j : Journal) (r : Recording) :
    ({ s with journal := j, publishes := s.publishes ++ [r] } : JournalSystem).taken =
      s.taken ++ (r.ack?.map fun ack => (r, ack)).toList := by
  show (s.publishes ++ [r]).filterMap _ = s.taken ++ _
  rw [List.filterMap_append, taken]
  cases hack : r.ack? <;> simp [hack]

theorem Faithful.publish (hs : s.Faithful) (h : Nat) (m : Message) :
    (s.step (.publish h m)).Faithful := by
  match hhandle : s.handles[h]? with
  | none =>
    rw [JournalSystem.step, hhandle]
    exact hs
  | some (t, true) =>
    have htopic := congrArg (Option.map (·.1)) hhandle
    have htaken := taken_concat s s.journal ⟨h, t, m, .ended (.error (.closed t))⟩
    rw [Recording.ack?, Option.map_none, Option.toList_none, List.append_nil] at htaken
    rw [step_publish_closed hhandle]
    refine ⟨hs.mode, hs.jammed, ?_, ?_, ?_, ?_⟩
    · exact List.forall_mem_append.2 ⟨hs.housed, List.forall_mem_singleton.2 htopic⟩
    · exact List.forall_mem_append.2 ⟨hs.ended, List.forall_mem_singleton.2 (.inl rfl)⟩
    · rw [htaken]
      exact hs.ids
    · rw [htaken]
      exact hs.written
  | some (t, false) =>
    have htopic := congrArg (Option.map (·.1)) hhandle
    have hnext := s.journal.issuer.ids_next
    rw [hs.step_publish_open hhandle]
    dsimp only
    generalize s.journal.issuer.next.1 = id at hnext ⊢
    have htaken := fun j => taken_concat s j ⟨h, t, m, .ended (.ok ⟨id, t⟩)⟩
    -- The id that is handed out last, the last answer and the last line belong together.
    refine ⟨hs.mode, hs.jammed, ?_, ?_, ?_, ?_⟩
    · exact List.forall_mem_append.2 ⟨hs.housed, List.forall_mem_singleton.2 htopic⟩
    · exact List.forall_mem_append.2 ⟨hs.ended, List.forall_mem_singleton.2 (.inr ⟨id, rfl⟩)⟩
    · rw [htaken, List.map_append, hs.ids]
      exact hnext.symm
    · rw [htaken, List.flatMap_append, ← hs.written, List.append_assoc]
      exact congrArg (s.journal.written ++ ·) (List.append_nil _).symm

/-- All moves keep a journal faithful. -/
theorem Faithful.step (hs : s.Faithful) (move : JournalMove) : (s.step move).Faithful := by
  cases move with
  | openHandle t =>
    refine ⟨hs.mode, hs.jammed, ?_, hs.ended, hs.ids, hs.written⟩
    exact fun r hr => topic_concat (hs.housed r hr) (t, false)
  | close h =>
    refine ⟨hs.mode, hs.jammed, ?_, hs.ended, hs.ids, hs.written⟩
    exact fun r hr => (topic_modify h).trans (hs.housed r hr)
  | publish h m => exact hs.publish h m

theorem Faithful.run (hs : s.Faithful) (moves : List JournalMove) : (s.run moves).Faithful := by
  induction moves generalizing s with
  | nil => exact hs
  | cons move moves ih => exact ih (hs.step move)

/-! ## Lines and requests -/

/-- Whatever is published on handles of one factory, some of them closed along the way: the journal
has exactly one line for each publish that was taken, in order, and the line is one JSON object with
the topic of the handle, the id of the answer, and the whole message. All ids are different; where
the counter of ids has 64 bits, this is meant for fewer than `2^64` publishes (see `Issuer`). A
publish on a closed handle is refused, and one on an open handle is taken. The request of a publish
over HTTP is one JSON object with the whole message, too. -/
theorem publishes_recorded (moves : List JournalMove) :
    let s := run {} moves
    (∃ lines, Text.fields 0x0a s.journal.written = lines ++ [[]] ∧
      List.Forall₂ (fun (r, ack) line => Journal.IsRecord r.topic ack.messageId r.message line)
        s.taken lines) ∧
    (s.taken.map (·.2.messageId)).Nodup ∧
    (∀ r ∈ s.publishes, (s.handles[r.handle]?).map (·.1) = some r.topic ∧
      (r.progress = .ended (.error (.closed r.topic)) ∨
        ∃ id, r.progress = .ended (.ok ⟨id, r.topic⟩))) ∧
    (∀ h t closed m, s.handles[h]? = some (t, closed) → ∃ id,
      (s.step (.publish h m)).publishes = s.publishes ++
        [⟨h, t, m, .ended (if closed then .error (.closed t) else .ok ⟨id, t⟩)⟩]) ∧
    ∀ (h : PubSubHandle) m exchange, ∃ body, PubSubHandle.Holds m body ∧
      (h.publish m exchange).1.map (·.body) = if h.closed then none else some body := by
  intro s
  have hs : s.Faithful := faithful_initial.run moves
  refine ⟨?_, ?_, fun r hr => ⟨hs.housed r hr, hs.ended r hr⟩, ?_, ?_⟩
  · let line (p : Recording × Ack) := Journal.record p.1.topic p.2.messageId p.1.message
    have hlines : ∀ w ∈ s.taken.map line, 0x0a ∉ w :=
      List.forall_mem_map.2 fun p _ => (Journal.printed_record _ _ _).lineEnd_not_mem
    refine ⟨s.taken.map line, ?_, ?_⟩
    · rw [hs.written, ← Text.fields_lines hlines, List.flatMap_map]
    · rw [List.forall₂_map_right_iff, List.forall₂_same]
      exact fun p _ => Journal.isRecord_record _ _ _
  · rw [hs.ids]
    exact Issuer.ids_nodup _
  · intro h t closed m hhandle
    cases closed with
    | true => exact ⟨"", by rw [step_publish_closed hhandle]; rfl⟩
    | false => exact ⟨_, by rw [hs.step_publish_open hhandle]; rfl⟩
  · intro h m exchange
    refine ⟨PubSubHandle.requestBody m, PubSubHandle.holds_requestBody m, ?_⟩
    rw [PubSubHandle.publish]
    split <;> rfl

/-- Of three publishes, the second finds its handle closed; the first has line ends in an attribute
and in its body. A fourth one on the handle that is open would be taken. -/
theorem publishes_recorded_refusal :
    let orders := TopicId.bare "orders" (by decide)
    let audit := TopicId.bare "audit" (by decide)
    let m : Message := ⟨.ofList [("note", "a\nb")], [0x0a, 0x00, 0xff]⟩
    let s := run {} [.openHandle orders, .openHandle audit, .publish 0 m, .close 0,
      .publish 0 m, .publish 1 {}]
    (∃ lines, Text.fields 0x0a s.journal.written = lines ++ [[]] ∧ lines.length = 2) ∧
      (s.handles[1]? = some (audit, false) ∧
        ∃ id, (s.step (.publish 1 m)).publishes = s.publishes ++
          [⟨1, audit, m, .ended (.ok ⟨id, audit⟩)⟩]) := by
  intro orders audit m s
  obtain ⟨⟨lines, hfields, hlines⟩, -, -, htaken, -⟩ := publishes_recorded
    [.openHandle orders, .openHandle audit, .publish 0 m, .close 0, .publish 0 m, .publish 1 {}]
  have hopen : s.handles[1]? = some (audit, false) := rfl
  exact ⟨⟨lines, hfields, hlines.length_eq.symm⟩, hopen, htaken 1 audit false m hopen⟩

end JournalSystem

end EventIngress
