import EventIngress.Proofs.Encoding.Lossless

/-!
# Trace contexts of messages

A trace context that is given for a message stands in place of all that the event itself says of a
trace, also where it says more than the context: a state of the vendor in the event does not outlive
a context without one. What the event says of its trace has no say in whether it obeys the rules
either, because both names are allowed. So it leaves no mark, and nothing else is touched.

Results:

* `Event.fault?_eq_of_agree`: the extensions that carry a trace break no rule.
* `Encoding.shownExtensions_eq_of_agree`: they are all that a trace context hides.
* `Encoding.find?_attributeName_eq`: which of the attributes of one name is in a message.
* `Encoding.trace_replaces`: what the message of an event with a trace context is made of.
-/

namespace EventIngress

namespace Encoding

variable {e : Event} {others : SortedMap String String} {t : TraceContext}

/-! ## Extensions that carry a trace -/

theorem isExtensionName_of_mem_traceNames {name : String} (h : name ∈ traceNames) :
    Event.isExtensionName name = true := by
  have hall : ∀ n ∈ traceNames, Event.isExtensionName n = true := by decide
  exact hall name h

/-- With a trace context, the other extensions are shown. -/
theorem shownExtensions_some (e : Event) (t : TraceContext) :
    shownExtensions e (some t) =
      (e.extensions.filter fun name _ => !traceNames.contains name).toList :=
  rfl

theorem shownExtensions_none (e : Event) : shownExtensions e none = e.extensions.toList :=
  rfl

/-- Events that agree on the extensions that carry no trace show the same. -/
theorem shownExtensions_eq_of_agree
    (h : ∀ name ∉ traceNames, others.find? name = e.extensions.find? name) :
    shownExtensions { e with extensions := others } (some t) = shownExtensions e (some t) := by
  rw [shownExtensions_some, shownExtensions_some]
  refine congrArg SortedMap.toList (SortedMap.filter_congr fun name _ hname => h name ?_)
  simpa using hname

end Encoding

namespace Event

open Encoding

variable {e : Event} {others : SortedMap String String}

/-- The first extension whose name breaks the rule is none of those that carry a trace. -/
theorem find?_invalidName_eq (e : Event) (t : TraceContext) :
    (e.extensions.toList.find? fun ext => !isExtensionName ext.1) =
      (shownExtensions e (some t)).find? fun ext => !isExtensionName ext.1 := by
  have hshown : shownExtensions e (some t) =
      e.extensions.toList.filter fun ext => !traceNames.contains ext.1 := rfl
  rw [hshown, List.find?_filter]
  congr 1
  funext ext
  cases hname : isExtensionName ext.1 with
  | true => simp
  | false =>
    have hmem : ext.1 ∉ traceNames := fun hmem => by
      simp [isExtensionName_of_mem_traceNames hmem] at hname
    simpa using hmem

/-- The extensions that carry a trace have no part in the rules. -/
theorem fault?_eq_of_agree (t : TraceContext)
    (h : ∀ name ∉ traceNames, others.find? name = e.extensions.find? name) :
    { e with extensions := others }.fault? = e.fault? := by
  unfold fault?
  rw [find?_invalidName_eq _ t, find?_invalidName_eq e t, shownExtensions_eq_of_agree h]
  rfl

end Event

namespace Encoding

variable {e : Event} {trace : Option TraceContext} {t : TraceContext} {name : String}

/-! ## Attributes of one name -/

/-- Of the attributes of one name, that of the trace context is in the message before the
extension, and the extension before the fixed attribute. -/
theorem find?_attributeName_eq (e : Event) (trace : Option TraceContext) (name : String) :
    (attributes e trace).find? (attributeName name) =
      ((SortedMap.ofList (traceExtensions trace)).find? name).or
        (((SortedMap.ofList (shownExtensions e trace)).find? name).or
          ((SortedMap.ofList (fixedAttributes e)).find? name)) := by
  have hcontentType : (SortedMap.ofList
      (e.contentType.map fun s => (contentTypeName, s)).toList).find? (attributeName name) =
        none := by
    apply SortedMap.find?_ofList_eq_none
    intro a ha
    obtain ⟨s, -, rfl⟩ := Option.map_eq_some_iff.1 (Option.mem_toList.1 ha)
    exact (attributeName_ne_contentTypeName name).symm
  rw [attributes, SortedMap.find?_ofList_append, hcontentType, Option.none_or,
    SortedMap.find?_ofList_rename fun _ _ => attributeName_injective,
    SortedMap.find?_ofList_append, SortedMap.find?_ofList_append]

/-- Under a name without `ce-` in front, there is the content type at most. -/
theorem find?_other_eq (e : Event) (trace : Option TraceContext)
    (h : ∀ n, name ≠ attributeName n) :
    (attributes e trace).find? name =
      (SortedMap.ofList (e.contentType.map fun s => (contentTypeName, s)).toList).find? name := by
  have hprefixed (as : List (String × String)) :
      (SortedMap.ofList (as.map fun a => (attributeName a.1, a.2))).find? name = none := by
    apply SortedMap.find?_ofList_eq_none
    intro a ha
    obtain ⟨b, -, rfl⟩ := List.mem_map.1 ha
    exact (h b.1).symm
  rw [attributes, SortedMap.find?_ofList_append, hprefixed, Option.or_none]

theorem find?_fixedAttributes_of_mem_traceNames (h : name ∈ traceNames) :
    (SortedMap.ofList (fixedAttributes e)).find? name = none := by
  apply SortedMap.find?_ofList_eq_none
  rintro a ha rfl
  have hdisjoint : ∀ n ∈ traceNames, n ∉ Event.reservedNames := by decide
  exact hdisjoint _ h (reserved_of_mem_fixedAttributes ha)

theorem find?_shownExtensions_some (e : Event) (t : TraceContext) (name : String) :
    (SortedMap.ofList (shownExtensions e (some t))).find? name =
      if name ∈ traceNames then none else e.extensions.find? name := by
  rw [shownExtensions_some, SortedMap.ofList_eq_of_perm (.refl _)]
  split
  · rename_i hname
    rw [Option.eq_none_iff_forall_ne_some]
    intro v hv
    simpa [hname] using (SortedMap.find?_filter_eq_some_iff.1 hv).2
  · rename_i hname
    exact SortedMap.find?_filter_of_keep fun _ => by simpa using hname

theorem find?_traceExtensions_of_not_mem (h : name ∉ traceNames) :
    (SortedMap.ofList (traceExtensions trace)).find? name = none := by
  simp only [traceNames, List.mem_cons, List.not_mem_nil, or_false, not_or] at h
  apply SortedMap.find?_ofList_eq_none
  intro a ha
  cases trace with
  | none => cases ha
  | some t =>
    rcases List.mem_cons.1 ha with rfl | ha
    · exact Ne.symm h.1
    · obtain ⟨s, -, rfl⟩ := Option.map_eq_some_iff.1 (Option.mem_toList.1 ha)
      exact Ne.symm h.2

theorem find?_traceparent (t : TraceContext) :
    (SortedMap.ofList (traceExtensions (some t))).find? "traceparent" = some t.traceparent := by
  rw [SortedMap.find?_ofList, traceExtensions]
  cases t.tracestate <;> simp

theorem find?_tracestate (t : TraceContext) :
    (SortedMap.ofList (traceExtensions (some t))).find? "tracestate" = t.tracestate := by
  rw [SortedMap.find?_ofList, traceExtensions]
  cases t.tracestate <;> simp

/-- A message says of its trace what the trace context says. -/
theorem find?_trace (h : name ∈ traceNames) :
    (attributes e (some t)).find? (attributeName name) =
      (SortedMap.ofList (traceExtensions (some t))).find? name := by
  rw [find?_attributeName_eq, find?_shownExtensions_some, if_pos h,
    find?_fixedAttributes_of_mem_traceNames h, Option.or_none, Option.or_none]

/-- All that a trace context leaves as it is. -/
theorem find?_eq_of_not_trace (h : ∀ n ∈ traceNames, name ≠ attributeName n) :
    (attributes e (some t)).find? name = (attributes e none).find? name := by
  by_cases hname : ∃ n, name = attributeName n
  · obtain ⟨n, rfl⟩ := hname
    have hn : n ∉ traceNames := fun hn => h n hn rfl
    rw [find?_attributeName_eq, find?_attributeName_eq, find?_traceExtensions_of_not_mem hn,
      find?_traceExtensions_of_not_mem hn, find?_shownExtensions_some, if_neg hn,
      shownExtensions_none, SortedMap.ofList_eq_of_perm (.refl _)]
  · have hname : ∀ n, name ≠ attributeName n := fun n hn => hname ⟨n, hn⟩
    rw [find?_other_eq e _ hname, find?_other_eq e _ hname]

theorem encode_eq_error_iff {fault : EncodeFault} :
    encode e trace = .error fault ↔
      ∃ broken, e.fault? = some broken ∧ fault = .invalidEvent broken.message := by
  unfold encode
  cases e.fault? with
  | some broken => simp [eq_comm]
  | none => simp

/-! ## Messages with a trace context -/

/-- Two events that differ at most in their extensions `traceparent` and `tracestate` have the same
message with a trace context, or are refused for the same reason, which is also the reason without
one. The message carries the header form of the context, and the state of its vendor exactly if the
context has one. All else in it, the body included, is what the message without a trace context
has. -/
theorem trace_replaces (t : TraceContext) {e : Event} {others : SortedMap String String}
    (h : ∀ name ∉ ["traceparent", "tracestate"],
      others.find? name = e.extensions.find? name) :
    encode { e with extensions := others } (some t) = encode e (some t) ∧
      (∀ fault, encode e (some t) = .error fault ↔ encode e none = .error fault) ∧
      ∀ m, encode e (some t) = .ok m →
        m.attributes.find? "ce-traceparent" = some t.traceparent ∧
        m.attributes.find? "ce-tracestate" = t.tracestate ∧
        ∃ plain, encode e none = .ok plain ∧ m.body = plain.body ∧
          ∀ name, name ≠ "ce-traceparent" → name ≠ "ce-tracestate" →
            m.attributes.find? name = plain.attributes.find? name := by
  refine ⟨?_, fun fault => by rw [encode_eq_error_iff, encode_eq_error_iff], ?_⟩
  · have hattributes : attributes { e with extensions := others } (some t) =
        attributes e (some t) := by
      unfold attributes
      rw [shownExtensions_eq_of_agree h]
      rfl
    rw [encode, encode, Event.fault?_eq_of_agree t h, hattributes]
  · intro m hm
    obtain ⟨hrules, rfl⟩ := encode_eq_ok_iff.1 hm
    have hparentName : attributeName "traceparent" = "ce-traceparent" := by decide
    have hstateName : attributeName "tracestate" = "ce-tracestate" := by decide
    refine ⟨?_, ?_, _, encode_eq_ok_iff.2 ⟨hrules, rfl⟩, rfl, ?_⟩
    · rw [← hparentName, find?_trace (by decide), find?_traceparent]
    · rw [← hstateName, find?_trace (by decide), find?_tracestate]
    · intro name hparent hstate
      dsimp only
      refine find?_eq_of_not_trace fun n hn => ?_
      simp only [traceNames, List.mem_cons, List.not_mem_nil, or_false] at hn
      rcases hn with rfl | rfl
      · rwa [hparentName]
      · rwa [hstateName]

/-- A trace context without a state of the vendor. -/
def sampledTrace : TraceContext where
  traceId := List.replicate 15 0 ++ [0xab]
  spanId := List.replicate 7 0 ++ [0xcd]
  sampled := true
  traceId_length := rfl
  spanId_length := rfl
  traceId_nonzero := rfl
  spanId_nonzero := rfl

/-- Extensions that carry no trace. -/
def tenantOnly : SortedMap String String :=
  .ofList [("tenant", "shop"), ("tracing", "on")]

/-- An event that says of its trace what no context says, next to other extensions. -/
def staleOrder : Event where
  id := "1"
  source := "/orders"
  eventType := "placed"
  extensions := (tenantOnly.insert "traceparent" "stale").insert "tracestate" "vendor=old"

theorem trace_replaces_stale :
    (∀ name ∉ ["traceparent", "tracestate"],
      tenantOnly.find? name = staleOrder.extensions.find? name) ∧
      ∃ m, encode staleOrder (some sampledTrace) = .ok m ∧
        encode { staleOrder with extensions := tenantOnly } (some sampledTrace) = .ok m ∧
        m.attributes.find? "ce-traceparent" =
          some "00-000000000000000000000000000000ab-00000000000000cd-01" ∧
        m.attributes.find? "ce-tracestate" = none ∧
        m.attributes.find? "ce-tracing" = some "on" := by
  have hagree : ∀ name ∉ ["traceparent", "tracestate"],
      tenantOnly.find? name = staleOrder.extensions.find? name := by
    intro name hname
    simp only [List.mem_cons, List.not_mem_nil, or_false, not_or] at hname
    rw [staleOrder, SortedMap.find?_insert, if_neg hname.2, SortedMap.find?_insert,
      if_neg hname.1]
  have hrules : staleOrder.fault? = none := by decide +kernel
  have hencode : encode staleOrder (some sampledTrace) =
      .ok ⟨attributes staleOrder (some sampledTrace), bodyBytes staleOrder.data⟩ :=
    encode_eq_ok_iff.2 ⟨hrules, rfl⟩
  obtain ⟨hsame, -, hmessage⟩ := trace_replaces sampledTrace hagree
  obtain ⟨hparent, hstate, plain, hplain, -, hrest⟩ := hmessage _ hencode
  have htext : sampledTrace.traceparent =
      "00-000000000000000000000000000000ab-00000000000000cd-01" := by decide +kernel
  have htracing : (attributes staleOrder none).find? "ce-tracing" = some "on" := by decide +kernel
  refine ⟨hagree, _, hencode, hsame.trans hencode, hparent.trans (congrArg some htext), hstate, ?_⟩
  rw [hrest "ce-tracing" (by decide) (by decide), (encode_eq_ok_iff.1 hplain).2]
  exact htracing

end Encoding

end EventIngress
