import EventIngress.Proofs.Event.Documents

/-!
# Bodies and content types

A JSON body is meant for events whose content type denotes JSON or is not given. Documents keep to
that as far as texts are concerned: a text under another content type stands for its bytes. Any
other value becomes a JSON body, whatever the content type is.

Results:

* `Event.DenotesJson`: the content types that JSON bodies are meant for.
* `Event.dataOf_eq_json_iff`, `Event.dataOf_text`: when members become a JSON body, and when a text
  becomes bytes.
* `Event.bodies_of_documents`: the bodies of all documents.
* `Event.exists_document_of_value`: values that are no texts are JSON bodies under any content type.
* `Event.jsonBody_under_plain_text`: a JSON body under a content type that does not denote JSON.
-/

namespace EventIngress

namespace Json.Value

/-- The value is a text. -/
def IsText (v : Value) : Prop :=
  ∃ s, v.tree = .string s

/-- The text that the value is. -/
def text? (v : Value) : Option String :=
  match v.tree with
  | .string s => some s
  | _ => none

theorem tree_of_text? {v : Value} {s : String} (h : v.text? = some s) : v.tree = .string s := by
  unfold text? at h
  split at h
  · rename_i heq
    rw [heq, Option.some.inj h]
  · cases h

end Json.Value

/-- The value of a JSON body. -/
def EventData.value? : EventData → Option Json.Value
  | .json v => some v
  | .bytes _ => none

theorem EventData.eq_of_value? {body : EventData} {v : Json.Value} (h : body.value? = some v) :
    body = .json v := by
  cases body with
  | json v' => rw [Option.some.inj h]
  | bytes content => cases h

namespace Event

/-! ## The body of some members -/

/-- The content type is not given, or it denotes JSON. -/
def DenotesJson (contentType : Option String) : Prop :=
  ∀ c, contentType = some c → isJsonContentType c = true

theorem denotesJson_iff {contentType : Option String} :
    DenotesJson contentType ↔ ¬ (contentType.any fun c => !isJsonContentType c) = true := by
  cases contentType with
  | none => exact iff_of_true nofun Bool.false_ne_true
  | some c => simp [DenotesJson]

variable {contentType : Option String} {data : Option Json.Value} {encoded : Option String}
  {v : Json.Value}

theorem dataOf_text {s : String} (htext : v.tree = .string s)
    (hother : ¬ DenotesJson contentType) :
    dataOf contentType (some v) none = .ok (some (.bytes (Bytes.ofText s))) := by
  rw [denotesJson_iff, not_not] at hother
  rw [dataOf, htext]
  exact if_pos hother

theorem dataOf_value (h : v.IsText → DenotesJson contentType) :
    dataOf contentType (some v) none = .ok (some (.json v)) := by
  rw [dataOf]
  split
  · rename_i s htext
    exact if_neg (denotesJson_iff.1 (h ⟨s, htext⟩))
  · rfl

/-- A JSON body is the value of the member as it is. Only texts ask for a content type that denotes
JSON. -/
theorem dataOf_eq_json_iff :
    dataOf contentType data encoded = .ok (some (.json v)) ↔
      data = some v ∧ encoded = none ∧ (v.IsText → DenotesJson contentType) := by
  constructor
  · intro h
    match data, encoded with
    | some _, some _ => cases h
    | none, none => cases h
    | none, some encoded =>
      rw [dataOf] at h
      split at h <;> cases h
    | some v', none =>
      by_cases hvalue : v'.IsText → DenotesJson contentType
      · rw [dataOf_value hvalue] at h
        cases h
        exact ⟨rfl, rfl, hvalue⟩
      · obtain ⟨⟨s, htext⟩, hother⟩ := Classical.not_imp.1 hvalue
        rw [dataOf_text htext hother] at h
        cases h
  · rintro ⟨rfl, rfl, hvalue⟩
    exact dataOf_value hvalue

/-- Members with a value that become a body have no encoded body. -/
theorem encoded_eq_none {body : Option EventData}
    (h : dataOf contentType (some v) encoded = .ok body) : encoded = none := by
  cases encoded with
  | none => rfl
  | some encoded => cases h

/-! ## The body of a document -/

/-- The event of a document has a JSON body in just this case: the document has a value for a body,
and if that is a text, the content type is not given or denotes JSON. A text under any other content
type stands for its bytes. So a JSON body under a content type that does not denote JSON is excluded
just if the content type does denote JSON or is not given, or if the value is a text or missing. -/
theorem bodies_of_documents {document : Bytes} {e : Event} (h : ofDocument document = .ok e) :
    ∃ p rest, documentShape.read {} document = .ok (p, rest) ∧ p.contentType = e.contentType ∧
      (∀ v, e.data = some (.json v) ↔
        p.data = some v ∧ (v.IsText → DenotesJson e.contentType)) ∧
      (∀ v s, p.data = some v → v.tree = .string s → ¬ DenotesJson e.contentType →
        e.data = some (.bytes (Bytes.ofText s))) ∧
      ((∀ v, e.data = some (.json v) → DenotesJson e.contentType) ↔
        DenotesJson e.contentType ∨ ∀ v, p.data = some v → v.IsText) := by
  obtain ⟨p, rest, hread, hparts⟩ := exists_parts_of_ofDocument h
  obtain ⟨-, hdata, -, hcontentType⟩ := of_ofParts hparts
  rw [hcontentType] at hdata
  have hjson : ∀ v, e.data = some (.json v) ↔
      p.data = some v ∧ (v.IsText → DenotesJson e.contentType) := by
    intro v
    have hiff : dataOf e.contentType p.data p.encodedData = .ok (some (.json v)) ↔ _ :=
      dataOf_eq_json_iff
    rw [hdata, Except.ok.injEq] at hiff
    refine hiff.trans (and_congr_right fun hv => ?_)
    rw [hv] at hdata
    exact and_iff_right (encoded_eq_none hdata)
  refine ⟨p, rest, hread, hcontentType, hjson, ?_, ?_⟩
  · intro v s hv htext hother
    rw [hv] at hdata
    rw [encoded_eq_none hdata, dataOf_text htext hother] at hdata
    exact (Except.ok.inj hdata).symm
  · constructor
    · intro hmeant
      by_cases hother : DenotesJson e.contentType
      · exact .inl hother
      · refine .inr fun v hv => Classical.not_not.1 fun hvalue => ?_
        exact hother (hmeant v ((hjson v).2 ⟨hv, fun htext => absurd htext hvalue⟩))
    · rintro (hdenotes | htexts) v hv
      · exact hdenotes
      · obtain ⟨hp, hvalue⟩ := (hjson v).1 hv
        exact hvalue (htexts v hp)

/-- Each value that is no text and that a document can hold is the JSON body of some document, under
each content type. -/
theorem exists_document_of_value (c : String) {v : Json.Value} (hvalue : ¬ v.IsText)
    (hnull : v.tree ≠ .null) (hintegral : v.tree.Integral) (hnesting : v.tree.nesting ≤ memberDepth) :
    ∃ document e, ofDocument document = .ok e ∧ e.contentType = some c ∧
      e.data = some (.json v) := by
  let e : Event := {
    id := "1"
    source := "/orders"
    eventType := "placed"
    contentType := some c
    data := some (.json v) }
  have he : e.Representable := by
    refine ⟨nofun, nofun, ?_⟩
    rintro body ⟨⟩
    exact ⟨hnull, hintegral, hnesting, fun s _ hs _ => absurd ⟨s, hs⟩ hvalue⟩
  exact ⟨e.write, e, ofDocument_write he, rfl, rfl⟩

/-- A document under a content type that does not denote JSON. -/
def plainText (data : String) : Bytes :=
  Bytes.ofText ("\x7b\"specversion\":\"1.0\",\"id\":\"1\",\"source\":\"/orders\",\"type\":\"placed\"," ++
    "\"datacontenttype\":\"text/plain\",\"data\":" ++ data ++ "\x7d")

/-- A text is carried as its bytes there. -/
theorem bodies_of_documents_plainText :
    ∃ e, ofDocument (plainText "\"two words\"") = .ok e ∧
      e.data = some (.bytes (Bytes.ofText "two words")) := by
  have htype : (ofDocument (plainText "\"two words\"")).toOption.bind (·.contentType) =
      some "text/plain" := by
    decide +kernel
  have htext : ((documentShape.read {} (plainText "\"two words\"")).toOption.bind
      fun x => x.1.data.bind Json.Value.text?) = some "two words" := by
    decide +kernel
  cases heq : ofDocument (plainText "\"two words\"") with
  | error fault =>
    rw [heq] at htype
    cases htype
  | ok e =>
    rw [heq] at htype
    obtain ⟨p, rest, hread, -, -, hbytes, -⟩ := bodies_of_documents heq
    rw [hread] at htext
    have hdata : p.data.bind Json.Value.text? = some "two words" := htext
    obtain ⟨v, hv, hvtext⟩ := Option.bind_eq_some_iff.1 hdata
    refine ⟨e, rfl, hbytes v _ hv (Json.Value.tree_of_text? hvtext) fun hjson => ?_⟩
    exact absurd (hjson _ htype) (by decide +kernel)

/-- An object is a JSON body there, although the content type does not denote JSON. -/
theorem jsonBody_under_plain_text :
    ∃ e v, ofDocument (plainText "\x7b\"order\":42\x7d") = .ok e ∧ e.data = some (.json v) ∧
      e.contentType = some "text/plain" ∧ ¬ DenotesJson e.contentType := by
  have htype : (ofDocument (plainText "\x7b\"order\":42\x7d")).toOption.bind (·.contentType) =
      some "text/plain" := by
    decide +kernel
  have hvalue : ((ofDocument (plainText "\x7b\"order\":42\x7d")).toOption.bind
      fun e => e.data.bind EventData.value?).isSome = true := by
    decide +kernel
  cases heq : ofDocument (plainText "\x7b\"order\":42\x7d") with
  | error fault =>
    rw [heq] at htype
    cases htype
  | ok e =>
    rw [heq] at htype hvalue
    have hdata : (e.data.bind EventData.value?).isSome = true := hvalue
    obtain ⟨v, hsome⟩ := Option.isSome_iff_exists.1 hdata
    obtain ⟨body, hbody, hv⟩ := Option.bind_eq_some_iff.1 hsome
    rw [EventData.eq_of_value? hv] at hbody
    refine ⟨e, v, rfl, hbody, htype, fun hjson => ?_⟩
    exact absurd (hjson _ htype) (by decide +kernel)

end Event

end EventIngress
