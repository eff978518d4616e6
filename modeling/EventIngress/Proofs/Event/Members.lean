import EventIngress.Event.Document
import EventIngress.Proofs.Json.Records
import EventIngress.Proofs.Time.Timestamps

/-!
# The members of an event document

The members of a document are followed from the event to the parts that reading them makes.

Results:

* `Event.Representable`: what a document can say of an event.
* `Event.written`, `Event.fits_written`: the members of a document, and that they can be read back.
* `Event.applyAll_written`: what reading them makes.
-/

namespace EventIngress

/-- What a document can say of a body: bytes; or JSON other than `null` of at most 126 nested arrays
and objects and without numbers of double precision, which is no text where a content type is given
that does not denote JSON. -/
def EventData.Representable (contentType : Option String) : EventData → Prop
  | .bytes _ => True
  | .json v => v.tree ≠ .null ∧ v.tree.Integral ∧ v.tree.nesting ≤ 126 ∧
      ∀ s c, v.tree = .string s → contentType = some c → isJsonContentType c = true

namespace Event

open Json (Written ReadsBack readsBack_part)

/-- What a document can say of an event. -/
structure Representable (e : Event) : Prop where
  names : ∀ ext ∈ e.extensions.toList, ext.1 ∉ reservedNames
  time : ∀ t, e.time = some t → ∃ s, t.text? = some s
  data : ∀ body, e.data = some body → body.Representable e.contentType

/-! ## The members of a document -/

/-- A known member with a text, if there is one. -/
def writtenText (name : String) (value : Option String) (set : Option String → Parts → Parts) :
    List (Written Parts) :=
  (value.map fun s => ⟨name, Json.writeText s, set (some s)⟩).toList

/-- The member with the body. -/
def writtenData : Option EventData → List (Written Parts)
  | none => []
  | some (.json v) => [⟨"data", v.write, fun p => { p with data := some v }⟩]
  | some (.bytes content) =>
    [⟨"data_base64", Json.writeText (Base64.encode content), fun p =>
      { p with encodedData := some (Base64.encode content) }⟩]

/-- The members that every document has. -/
def writtenRequired (e : Event) : List (Written Parts) :=
  [⟨"specversion", Json.writeText e.specVersion, fun p => { p with specVersion := e.specVersion }⟩,
    ⟨"id", Json.writeText e.id, fun p => { p with id := e.id }⟩,
    ⟨"source", Json.writeText e.source, fun p => { p with source := e.source }⟩,
    ⟨"type", Json.writeText e.eventType, fun p => { p with eventType := e.eventType }⟩]

/-- The known members of the document of an event. -/
def writtenKnown (e : Event) : List (Written Parts) :=
  e.writtenRequired ++ writtenText "subject" e.subject (fun a p => { p with subject := a }) ++
    writtenText "time" e.timeText? (fun a p => { p with time := a }) ++
    writtenText "datacontenttype" e.contentType (fun a p => { p with contentType := a }) ++
    writtenText "dataschema" e.schema (fun a p => { p with schema := a }) ++ writtenData e.data

/-- A member with an extension. -/
def writtenExtension (ext : String × String) : Written Parts :=
  ⟨ext.1, Json.writeText ext.2, fun p =>
    { p with extensions := p.extensions.insert ext.1 (.string ext.2) }⟩

/-- The members of the document of an event, with what reading them does. -/
def written (e : Event) : List (Written Parts) :=
  e.writtenKnown ++ e.extensions.toList.map writtenExtension

theorem members_eq (e : Event) : e.members = e.written.map fun w => (w.name, w.bytes) := by
  have htext (name : String) (value : Option String) (set : Option String → Parts → Parts) :
      (writtenText name value set).map (fun w => (w.name, w.bytes)) = textMember name value := by
    cases value <;> rfl
  have hdata (data : Option EventData) :
      (writtenData data).map (fun w => (w.name, w.bytes)) = dataMember data := by
    rcases data with - | - | - <;> rfl
  rw [members, written, writtenKnown]
  simp only [List.map_append, htext, hdata, List.map_map]
  rfl

/-! ## Reading the members -/

theorem readsBack_writtenText {name : String} {set : Option String → Parts → Parts}
    (hreader : documentShape.reader name =
      (Json.Field.part name false (Json.readOptional Json.readText) set).read)
    {value : Option String} :
    ∀ w ∈ writtenText name value set, ReadsBack (documentShape.reader w.name) w.bytes w.change := by
  intro w hw
  cases value with
  | none => cases hw
  | some s =>
    cases List.mem_singleton.1 hw
    show ReadsBack (documentShape.reader name) _ _
    rw [hreader]
    exact readsBack_part (Json.readsBack_optionalText s) _ _ set

theorem readsBack_writtenData {e : Event} (he : e.Representable) :
    ∀ w ∈ writtenData e.data, ReadsBack (documentShape.reader w.name) w.bytes w.change := by
  intro w hw
  cases hdata : e.data with
  | none =>
    rw [hdata] at hw
    cases hw
  | some body =>
    have hbody := he.data body hdata
    rw [hdata] at hw
    cases body with
    | json v =>
      obtain ⟨hnull, hintegral, hdepth, _⟩ := hbody
      cases List.mem_singleton.1 hw
      exact readsBack_part (Json.readsBack_optionalValue hintegral hdepth hnull) "data" false
        fun a (p : Parts) => { p with data := a }
    | bytes content =>
      cases List.mem_singleton.1 hw
      exact readsBack_part (Json.readsBack_optionalText _) "data_base64" false
        fun a (p : Parts) => { p with encodedData := a }

theorem mem_reservedNames_iff {name : String} :
    name ∈ reservedNames ↔ (documentShape.field? name).isSome = true := by
  have hfields : ∀ n ∈ reservedNames, n ∈ documentShape.fields.map (·.name) := by decide
  have hnames : ∀ n ∈ documentShape.fields.map (·.name), n ∈ reservedNames := by decide
  rw [Json.Record.field?, List.find?_isSome]
  constructor
  · intro h
    obtain ⟨field, hfield, hname⟩ := List.mem_map.1 (hfields name h)
    exact ⟨field, hfield, beq_iff_eq.2 hname⟩
  · rintro ⟨field, hfield, hname⟩
    exact hnames name (List.mem_map.2 ⟨field, hfield, beq_iff_eq.1 hname⟩)

theorem reader_extension {name : String} (h : name ∉ reservedNames) :
    documentShape.reader name = documentShape.other name := by
  have hnone : documentShape.field? name = none := by
    rw [← Option.not_isSome_iff_eq_none, ← mem_reservedNames_iff]
    exact h
  rw [Json.Record.reader, hnone]
  rfl

theorem readsBack_writtenExtension {ext : String × String} (h : ext.1 ∉ reservedNames) :
    ReadsBack (documentShape.reader (writtenExtension ext).name) (writtenExtension ext).bytes
      (writtenExtension ext).change := by
  have hvalue : ReadsBack (Json.readValue memberDepth) (Json.writeText ext.2) (.string ext.2) :=
    Json.readsBack_readValue (v := .string ext.2) trivial (Nat.zero_le _)
  rw [show (writtenExtension ext).name = ext.1 from rfl, reader_extension h]
  intro rest hrest
  show (Json.readValue memberDepth (Json.writeText ext.2 ++ rest)).map _ = _
  rw [hvalue rest hrest]
  rfl

theorem knownNames_sublist (e : Event) :
    (e.writtenKnown.map (·.name)).Sublist ["specversion", "id", "source", "type", "subject", "time",
      "datacontenttype", "dataschema", "data", "data_base64"] := by
  have htext (name : String) (value : Option String) (set : Option String → Parts → Parts) :
      ((writtenText name value set).map (·.name)).Sublist [name] := by
    cases value with
    | none => exact List.nil_sublist _
    | some s => exact List.Sublist.refl _
  have hdata : ((writtenData e.data).map (·.name)).Sublist ["data", "data_base64"] := by
    rcases e.data with - | - | -
    · exact List.nil_sublist _
    · exact List.Sublist.cons_cons _ (List.nil_sublist _)
    · exact List.Sublist.cons _ (List.Sublist.refl _)
  rw [writtenKnown, List.map_append, List.map_append, List.map_append, List.map_append,
    List.map_append]
  exact (((((List.Sublist.refl _).append (htext _ _ _)).append (htext _ _ _)).append
    (htext _ _ _)).append (htext _ _ _)).append hdata

theorem mem_reservedNames_of_known {e : Event} {name : String}
    (h : name ∈ e.writtenKnown.map (·.name)) : name ∈ reservedNames := by
  have hall : ∀ n ∈ ["specversion", "id", "source", "type", "subject", "time", "datacontenttype",
      "dataschema", "data", "data_base64"], n ∈ reservedNames := by decide
  exact hall name (e.knownNames_sublist.mem h)

theorem names_written (e : Event) :
    e.written.map (·.name) = e.writtenKnown.map (·.name) ++ e.extensions.toList.map (·.1) := by
  rw [written, List.map_append, List.map_map]
  rfl

theorem fits_written {e : Event} (he : e.Representable) : documentShape.Fits [] e.written := by
  refine ⟨?_, ?_, ?_, ?_⟩
  · intro w hw
    simp only [written, writtenKnown, List.mem_append, or_assoc] at hw
    rcases hw with hw | hw | hw | hw | hw | hw | hw
    · simp only [writtenRequired, List.mem_cons, List.not_mem_nil, or_false] at hw
      rcases hw with rfl | rfl | rfl | rfl
      · exact readsBack_part (Json.readsBack_readText _) "specversion" true
          fun a (p : Parts) => { p with specVersion := a }
      · exact readsBack_part (Json.readsBack_readText _) "id" true
          fun a (p : Parts) => { p with id := a }
      · exact readsBack_part (Json.readsBack_readText _) "source" true
          fun a (p : Parts) => { p with source := a }
      · exact readsBack_part (Json.readsBack_readText _) "type" true
          fun a (p : Parts) => { p with eventType := a }
    · exact readsBack_writtenText rfl w hw
    · exact readsBack_writtenText rfl w hw
    · exact readsBack_writtenText rfl w hw
    · exact readsBack_writtenText rfl w hw
    · exact readsBack_writtenData he w hw
    · obtain ⟨ext, hext, rfl⟩ := List.mem_map.1 hw
      exact readsBack_writtenExtension (he.names ext hext)
  · rintro w _ ⟨⟩
  · rw [names_written, List.nodup_append]
    refine ⟨e.knownNames_sublist.nodup (by decide), e.extensions.keys_nodup, ?_⟩
    intro name hknown other hother heq
    obtain ⟨ext, hext, rfl⟩ := List.mem_map.1 hother
    exact he.names ext hext (heq ▸ mem_reservedNames_of_known hknown)
  · intro field hfield hrequired
    have hall : ∀ field ∈ documentShape.fields, field.required = true →
        field.name ∈ ["specversion", "id", "source", "type"] := by decide
    right
    rw [names_written, writtenKnown]
    simp only [List.map_append, List.append_assoc]
    exact List.mem_append_left _ (hall field hfield hrequired)

/-! ## The parts of a document -/

theorem applyAll_writtenText {name : String} {value : Option String}
    {set : Option String → Parts → Parts} {p : Parts} (h : set none p = p) :
    Written.applyAll (writtenText name value set) p = set value p := by
  cases value with
  | none => exact h.symm
  | some s => rfl

theorem applyAll_extensions (extensions : List (String × String)) (p : Parts) :
    Written.applyAll (extensions.map writtenExtension) p =
      { p with
        extensions :=
          extensions.foldl (fun m ext => m.insert ext.1 (.string ext.2)) p.extensions } := by
  induction extensions generalizing p with
  | nil => rfl
  | cons ext extensions ih =>
    show Written.applyAll (extensions.map writtenExtension) ((writtenExtension ext).change p) = _
    rw [ih]
    rfl

/-- The member `data` of a document with a body. -/
def jsonOf : Option EventData → Option Json.Value
  | some (.json v) => some v
  | _ => none

/-- The member `data_base64` of a document with a body. -/
def encodedOf : Option EventData → Option String
  | some (.bytes content) => some (Base64.encode content)
  | _ => none

/-- The parts of the document of an event. -/
def parts (e : Event) : Parts where
  specVersion := e.specVersion
  id := e.id
  source := e.source
  eventType := e.eventType
  subject := e.subject
  time := e.timeText?
  contentType := e.contentType
  schema := e.schema
  data := jsonOf e.data
  encodedData := encodedOf e.data
  extensions := e.extensions.mapValues .string

theorem applyAll_writtenData {data : Option EventData} {p : Parts} (hdata : p.data = none)
    (hencoded : p.encodedData = none) :
    Written.applyAll (writtenData data) p =
      { p with data := jsonOf data, encodedData := encodedOf data } := by
  obtain ⟨_, _, _, _, _, _, _, _, _, _, _⟩ := p
  subst hdata hencoded
  rcases data with - | - | - <;> rfl

theorem applyAll_writtenKnown (e : Event) :
    Written.applyAll e.writtenKnown {} = { e.parts with extensions := .empty } := by
  let p₀ : Parts := {
    specVersion := e.specVersion
    id := e.id
    source := e.source
    eventType := e.eventType }
  let p₁ : Parts := { p₀ with subject := e.subject }
  let p₂ : Parts := { p₁ with time := e.timeText? }
  let p₃ : Parts := { p₂ with contentType := e.contentType }
  let p₄ : Parts := { p₃ with schema := e.schema }
  have hrequired : Written.applyAll e.writtenRequired {} = p₀ := rfl
  have hsubject : Written.applyAll
    (writtenText "subject" e.subject fun a p => { p with subject := a }) p₀ = p₁ :=
      applyAll_writtenText rfl
  have htime : Written.applyAll
    (writtenText "time" e.timeText? fun a p => { p with time := a }) p₁ = p₂ :=
      applyAll_writtenText rfl
  have hcontentType : Written.applyAll
    (writtenText "datacontenttype" e.contentType fun a p => { p with contentType := a }) p₂ = p₃ :=
      applyAll_writtenText rfl
  have hschema : Written.applyAll
    (writtenText "dataschema" e.schema fun a p => { p with schema := a }) p₃ = p₄ :=
      applyAll_writtenText rfl
  have hdata : Written.applyAll (writtenData e.data) p₄ = { e.parts with extensions := .empty } :=
    applyAll_writtenData rfl rfl
  simp only [writtenKnown, Written.applyAll_append, hrequired, hsubject, htime, hcontentType,
    hschema, hdata]

theorem applyAll_written (e : Event) : Written.applyAll e.written {} = e.parts := by
  rw [written, Written.applyAll_append, applyAll_writtenKnown, applyAll_extensions]
  dsimp only
  rw [SortedMap.foldl_insert_eq_mapValues]
  rfl

end Event

end EventIngress
