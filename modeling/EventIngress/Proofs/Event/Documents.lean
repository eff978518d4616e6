import EventIngress.Proofs.Event.Members

/-!
# Events and their documents

What a document can say of an event is read back from the document of the event. What is read from
any document, it can say.

Results:

* `Event.ofDocument_write`: the document of an event is read as that event.
* `Event.representable_of_ofDocument`: what is read from documents.
* `Event.document_roundTrip`: both, and what follows from them.
-/

namespace EventIngress

namespace Event

/-! ## Reading and writing -/

theorem extensionsOf_mapValues (m : SortedMap String String) :
    extensionsOf (m.mapValues Json.Value.string).toList = .ok m := by
  obtain ⟨entries, hascending⟩ := m
  show extensionsOf (entries.map fun e => (e.1, Json.Value.string e.2)) = _
  induction entries with
  | nil => rfl
  | cons e entries ih =>
    obtain ⟨hfirst, htail⟩ := List.pairwise_cons.1 hascending
    rw [List.map_cons, extensionsOf]
    show (extensionsOf (entries.map fun e => (e.1, Json.Value.string e.2))).map _ = _
    rw [ih htail]
    exact congrArg Except.ok (SortedMap.ext_entries (insertEntry_of_first e.2 hfirst))

theorem timeOf_timeText? {e : Event} (h : ∀ t, e.time = some t → ∃ s, t.text? = some s) :
    timeOf e.timeText? = .ok e.time := by
  rw [timeText?]
  cases htime : e.time with
  | none => rfl
  | some t =>
    obtain ⟨s, hs⟩ := h t htime
    show timeOf t.text? = _
    rw [Timestamp.text?] at hs ⊢
    split at hs
    · rename_i htext
      rw [if_pos htext, timeOf, Timestamp.parse?_chars htext]
    · cases hs

theorem dataOf_parts {contentType : Option String} {data : Option EventData}
    (h : ∀ body, data = some body → body.Representable contentType) :
    dataOf contentType (jsonOf data) (encodedOf data) = .ok data := by
  cases data with
  | none => rfl
  | some body =>
    cases body with
    | bytes content =>
      simp only [jsonOf, encodedOf, dataOf, Base64.decode_encode]
    | json v =>
      obtain ⟨_, _, _, hstring⟩ := h _ rfl
      rw [jsonOf, encodedOf, dataOf]
      · split
        · rename_i s htree
          rw [if_neg]
          rw [Option.any_eq_true]
          rintro ⟨c, hc, hjson⟩
          rw [hstring s c htree hc] at hjson
          cases hjson
        · rfl
      · rintro _ ⟨⟩

theorem ofParts_parts {e : Event} (he : e.Representable) : ofParts e.parts = .ok e := by
  have htime := timeOf_timeText? he.time
  have hdata := dataOf_parts he.data
  have hextensions := extensionsOf_mapValues e.extensions
  show (timeOf e.timeText? >>= fun time =>
    dataOf e.contentType (jsonOf e.data) (encodedOf e.data) >>= fun data =>
      extensionsOf (e.extensions.mapValues Json.Value.string).toList >>= fun _ => _) = _
  rw [htime, hdata, hextensions]
  rfl

/-- The document of an event is read as that event. -/
theorem ofDocument_write {e : Event} (he : e.Representable) : ofDocument e.write = .ok e := by
  have hread := Json.Record.read_write e.members_eq (fits_written he) {} []
  rw [List.append_nil, applyAll_written] at hread
  rw [ofDocument, read, write, hread]
  dsimp only
  rw [ofParts_parts he]
  rfl

/-! ## What is read -/

/-- What holds of the members of any document that can be read. -/
structure Parts.Sound (p : Parts) : Prop where
  names : ∀ ext ∈ p.extensions.toList, ext.1 ∉ reservedNames
  data : ∀ v, p.data = some v → v.tree ≠ .null ∧ v.tree.nesting ≤ memberDepth

theorem of_readOptionalValue {depth : Nat} {input rest : Bytes} {v : Json.Value}
    (h : Json.readOptional (Json.readValue depth) input = .ok (some v, rest)) :
    v.tree ≠ .null ∧ v.tree.nesting ≤ depth := by
  rw [Json.readOptional] at h
  split at h
  · cases h
  · rename_i b w hblank
    split at h
    · obtain ⟨_, _, hv⟩ := Json.map_eq_ok h
      cases hv
    · rename_i hn
      obtain ⟨⟨v', rest'⟩, hread, hv⟩ := Json.map_eq_ok h
      cases hv
      refine ⟨?_, Json.nesting_readValue hread⟩
      intro hnull
      obtain ⟨b', w', hblank', hn'⟩ := Json.exists_of_null hread hnull
      rw [← hblank, Json.skipBlank_skipBlank, hblank] at hblank'
      cases hblank'
      exact hn hn'

theorem of_part {σ α : Type} {name : String} {required : Bool} {read : Bytes → Json.Scan α}
    {set : α → σ → σ} {input rest : Bytes} {change : σ → σ}
    (h : (Json.Field.part name required read set).read input = .ok (change, rest)) :
    ∃ a, read input = .ok (a, rest) ∧ change = set a := by
  obtain ⟨⟨a, _⟩, hread, hchange⟩ := Json.map_eq_ok h
  cases hchange
  exact ⟨a, hread, rfl⟩

theorem Parts.Sound.change {name : String} {input rest : Bytes} {change : Parts → Parts}
    (h : documentShape.reader name input = .ok (change, rest)) {p : Parts} (hp : p.Sound) :
    (change p).Sound := by
  cases hfield : documentShape.field? name with
  | none =>
    have hname : name ∉ reservedNames := by
      rw [mem_reservedNames_iff, hfield]
      decide
    rw [reader_extension hname] at h
    obtain ⟨⟨v, _⟩, _, hchange⟩ := Json.map_eq_ok h
    cases hchange
    refine ⟨?_, hp.data⟩
    intro ext hext
    rcases mem_insertEntry hext with rfl | hext
    · exact hname
    · exact hp.names ext hext
  | some field =>
    have hmem : field ∈ documentShape.fields := List.mem_of_find?_eq_some hfield
    rw [Json.Record.reader, hfield] at h
    replace h : field.read input = .ok (change, rest) := h
    simp only [documentShape, List.mem_cons, List.not_mem_nil, or_false] at hmem
    rcases hmem with rfl | rfl | rfl | rfl | rfl | rfl | rfl | rfl | rfl | rfl <;>
      obtain ⟨a, hread, rfl⟩ := of_part h
    · exact ⟨hp.names, hp.data⟩
    · exact ⟨hp.names, hp.data⟩
    · exact ⟨hp.names, hp.data⟩
    · exact ⟨hp.names, hp.data⟩
    · exact ⟨hp.names, hp.data⟩
    · exact ⟨hp.names, hp.data⟩
    · exact ⟨hp.names, hp.data⟩
    · exact ⟨hp.names, hp.data⟩
    · refine ⟨hp.names, ?_⟩
      rintro v rfl
      exact of_readOptionalValue hread
    · exact ⟨hp.names, hp.data⟩

theorem sound_of_read {input rest : Bytes} {p : Parts}
    (h : documentShape.read {} input = .ok (p, rest)) : p.Sound :=
  Json.Record.of_read rfl (fun _ _ _ _ hread _ hp => hp.change hread)
    ⟨by rintro ext ⟨⟩, by rintro v ⟨⟩⟩ h

theorem hasText_of_timeOf {time : Option String} {t : Timestamp}
    (h : timeOf time = .ok (some t)) : t.hasText = true := by
  cases time with
  | none => cases h
  | some s =>
    rw [timeOf] at h
    split at h
    · rename_i hparse
      cases h
      exact Timestamp.hasText_of_parse? hparse
    · cases h

theorem representable_of_dataOf {contentType : Option String} {data : Option Json.Value}
    {encoded : Option String} {body : EventData}
    (hdata : ∀ v, data = some v → v.tree ≠ .null ∧ v.tree.nesting ≤ memberDepth)
    (hintegral : ∀ v, body = .json v → v.tree.Integral)
    (h : dataOf contentType data encoded = .ok (some body)) : body.Representable contentType := by
  cases body with
  | bytes content => trivial
  | json v =>
    have hintegral := hintegral v rfl
    unfold dataOf at h
    split at h
    · cases h
    · split at h <;> cases h
    · obtain ⟨hnull, hnesting⟩ := hdata _ rfl
      split at h
      · rename_i s htree
        split at h
        · cases h
        · rename_i hjson
          cases h
          refine ⟨hnull, hintegral, hnesting, ?_⟩
          intro _ c _ hc
          simpa [hc] using hjson
      · rename_i hstring
        cases h
        refine ⟨hnull, hintegral, hnesting, ?_⟩
        intro s c hs _
        exact absurd hs (hstring s)
    · cases h

theorem mem_of_extensionsOf {entries : List (String × Json.Value)} {m : SortedMap String String}
    (h : extensionsOf entries = .ok m) : ∀ ext ∈ m.toList, ∃ v, (ext.1, v) ∈ entries := by
  induction entries generalizing m with
  | nil =>
    cases h
    rintro ext ⟨⟩
  | cons e entries ih =>
    obtain ⟨name, v⟩ := e
    rw [extensionsOf] at h
    split at h
    · cases h
    · obtain ⟨m', hm', rfl⟩ := Json.map_eq_ok h
      intro ext hext
      rcases mem_insertEntry hext with rfl | hext
      · exact ⟨v, List.mem_cons_self⟩
      · obtain ⟨v', hv'⟩ := ih hm' ext hext
        exact ⟨v', List.mem_cons_of_mem _ hv'⟩

theorem of_ofParts {p : Parts} {e : Event} (h : ofParts p = .ok e) :
    timeOf p.time = .ok e.time ∧ dataOf p.contentType p.data p.encodedData = .ok e.data ∧
      extensionsOf p.extensions.toList = .ok e.extensions ∧ p.contentType = e.contentType := by
  obtain ⟨time, htime, h⟩ := Json.bind_eq_ok h
  obtain ⟨data, hdata, h⟩ := Json.bind_eq_ok h
  obtain ⟨extensions, hextensions, h⟩ := Json.bind_eq_ok h
  cases h
  exact ⟨htime, hdata, hextensions, rfl⟩

theorem exists_parts_of_ofDocument {document : Bytes} {e : Event}
    (h : ofDocument document = .ok e) :
    ∃ p rest, documentShape.read {} document = .ok (p, rest) ∧ ofParts p = .ok e := by
  rw [ofDocument, read] at h
  split at h
  · cases h
  · rename_i p rest hread
    split at h
    · cases h
    · rename_i e' hparts
      rw [Json.finish] at h
      split at h
      · cases h
        exact ⟨p, rest, hread, hparts⟩
      · cases h

/-- An event that was read can be said by a document, if there are no numbers of double precision in
its body. -/
theorem representable_of_ofDocument {document : Bytes} {e : Event}
    (h : ofDocument document = .ok e)
    (hintegral : ∀ v, e.data = some (.json v) → v.tree.Integral) : e.Representable := by
  obtain ⟨p, rest, hread, hparts⟩ := exists_parts_of_ofDocument h
  obtain ⟨htime, hdata, hextensions, hcontentType⟩ := of_ofParts hparts
  have hsound := sound_of_read hread
  refine ⟨?_, ?_, ?_⟩
  · intro ext hext
    obtain ⟨v, hv⟩ := mem_of_extensionsOf hextensions ext hext
    exact hsound.names _ hv
  · intro t ht
    rw [ht] at htime
    exact ⟨_, if_pos (hasText_of_timeOf htime)⟩
  · intro body hbody
    rw [hbody] at hdata
    rw [← hcontentType]
    exact representable_of_dataOf hsound.data (fun v hv => hintegral v (hv ▸ hbody)) hdata

/-- An event that a document can say is read back from its document as it was. Every event that was
read from any document is one, if there are no numbers of double precision in its body; so a
document that was read, written and read again gives the same event. Nothing is asked of the rules
for events. -/
theorem document_roundTrip :
    (∀ e : Event, e.Representable → ofDocument e.write = .ok e) ∧
    (∀ document e, ofDocument document = .ok e →
      (∀ v, e.data = some (.json v) → v.tree.Integral) →
      e.Representable ∧ ofDocument e.write = .ok e) := by
  refine ⟨fun e he => ofDocument_write he, ?_⟩
  intro document e h hintegral
  have he := representable_of_ofDocument h hintegral
  exact ⟨he, ofDocument_write he⟩

/-- An event with a time two hours ahead of UTC, an extension and a list for a body comes back. -/
theorem document_roundTrip_listed :
    let e : Event := {
      id := "1"
      source := "/orders"
      eventType := "placed"
      time := some ⟨1714557600, 500000000, 7200, by decide⟩
      contentType := some "application/json"
      extensions := .ofList [("region", "north")]
      data := some (.json (.array [.boolean true, .string "two"])) }
    e.Representable ∧ ofDocument e.write = .ok e := by
  intro e
  have he : e.Representable := by
    refine ⟨by decide, ?_, ?_⟩
    · intro t ht
      cases ht
      exact ⟨_, rfl⟩
    · intro body hbody
      cases hbody
      refine ⟨by rintro ⟨⟩, ⟨trivial, trivial, trivial⟩, by decide, ?_⟩
      rintro s c ⟨⟩
  exact ⟨he, document_roundTrip.1 e he⟩

/-- What a document cannot say is lost: a body that is `null` counts as no body. -/
example : (ofDocument (write {
    id := "1"
    source := "/orders"
    eventType := "placed"
    data := some (.json .null) })).toOption.map (·.data.isNone) = some true := by
  decide +kernel

end Event

end EventIngress
