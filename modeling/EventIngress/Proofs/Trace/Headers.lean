import EventIngress.Proofs.Text.Blank
import EventIngress.Trace

/-!
# Headers of trace contexts

The header form of a trace context has a version, two ids and a byte of flags, each in lowercase
hexadecimal. Of the flags, a context keeps the lowest bit only. So a context is read back from its
header, and a header that is read is written again with its flags cut down to that bit.

Results:

* `TraceContext.IsHeader`: the texts of the header form.
* `TraceContext.parse_eq_ok_iff`: which context is read from a text.
* `TraceContext.isHeader_iff`: the header form by the bytes of its fields.
* `TraceContext.parse_inverts_traceparent`: what is read, and what is written of it again.
-/

namespace EventIngress.TraceContext

/-! ## The header form -/

/-- A text is of the header form with these fields. -/
structure IsHeader (s : String) (trace span flags : List Char) : Prop where
  text : s.toList = "00-".toList ++ trace ++ '-' :: span ++ '-' :: flags
  trace_length : trace.length = 32
  span_length : span.length = 16
  flags_length : flags.length = 2
  digits : ∀ c ∈ trace ++ span ++ flags, c ∈ "0123456789abcdef".toList
  trace_nonzero : ∃ c ∈ trace, c ≠ '0'
  span_nonzero : ∃ c ∈ span, c ≠ '0'

/-- The header form of two ids and a byte of flags. -/
def headerChars (traceId spanId : Bytes) (flag : UInt8) : List Char :=
  "00-".toList ++ Hex.encodeChars traceId ++ '-' :: Hex.encodeChars spanId ++
    '-' :: Hex.encodeChars [flag]

theorem toList_traceparent (t : TraceContext) :
    t.traceparent.toList = headerChars t.traceId t.spanId t.flags := by
  simp [traceparent, headerChars, Hex.encode]

/-- The header form by the bytes of its fields. -/
theorem isHeader_iff {s : String} {trace span flags : List Char} :
    IsHeader s trace span flags ↔
      ∃ traceId spanId flag, (trace = Hex.encodeChars traceId ∧ span = Hex.encodeChars spanId ∧
        flags = Hex.encodeChars [flag]) ∧ s.toList = headerChars traceId spanId flag ∧
        traceId.length = 16 ∧ spanId.length = 8 ∧ traceId.all (· == 0) = false ∧
        spanId.all (· == 0) = false := by
  constructor
  · rintro ⟨htext, htrace, hspan, hflags, hdigits, htrace0, hspan0⟩
    rw [List.forall_mem_append, List.forall_mem_append] at hdigits
    obtain ⟨traceId, ht, rfl⟩ := (Hex.exists_encodeChars_iff 16).2 ⟨htrace, hdigits.1.1⟩
    obtain ⟨spanId, hs, rfl⟩ := (Hex.exists_encodeChars_iff 8).2 ⟨hspan, hdigits.1.2⟩
    obtain ⟨flag, hf, rfl⟩ := (Hex.exists_encodeChars_iff 1).2 ⟨hflags, hdigits.2⟩
    obtain ⟨flag, rfl⟩ := List.length_eq_one_iff.1 hf
    exact ⟨traceId, spanId, flag, ⟨rfl, rfl, rfl⟩, htext, ht, hs, Hex.exists_ne_zero_iff.1 htrace0,
      Hex.exists_ne_zero_iff.1 hspan0⟩
  · rintro ⟨traceId, spanId, flag, ⟨rfl, rfl, rfl⟩, htext, ht, hs, ht0, hs0⟩
    refine ⟨htext, by rw [Hex.length_encodeChars, ht], by rw [Hex.length_encodeChars, hs],
      Hex.length_encodeChars [flag], ?_, Hex.exists_ne_zero_iff.2 ht0, Hex.exists_ne_zero_iff.2 hs0⟩
    rw [List.forall_mem_append, List.forall_mem_append]
    exact ⟨⟨fun c => Hex.mem_digits_of_mem_encodeChars, fun c => Hex.mem_digits_of_mem_encodeChars⟩,
      fun c => Hex.mem_digits_of_mem_encodeChars⟩

/-! ## Reading -/

theorem field?_eq_some_iff {width : Nat} {digits : List Char}
    {field : { bytes : Bytes // bytes.length = width }} :
    field? width digits = some field ↔ digits = Hex.encodeChars field.val := by
  rw [field?, Option.bind_eq_some_iff]
  constructor
  · rintro ⟨bytes, hbytes, hfield⟩
    split at hfield
    · cases hfield
      exact Hex.decode_eq_some_iff.1 hbytes
    · cases hfield
  · rintro rfl
    exact ⟨field.val, Hex.decode_encode _, dif_pos field.property⟩

theorem make_eq_ok_iff {traceId spanId : Bytes} {sampled : Bool} {ht : traceId.length = 16}
    {hs : spanId.length = 8} {t : TraceContext} :
    make traceId spanId sampled ht hs = .ok t ↔
      t.traceId = traceId ∧ t.spanId = spanId ∧ t.sampled = sampled ∧ t.tracestate = none := by
  unfold make
  constructor
  · intro h
    split at h
    · cases h
    · split at h
      · cases h
      · cases h
        exact ⟨rfl, rfl, rfl, rfl⟩
  · rintro ⟨rfl, rfl, rfl, hstate⟩
    split
    · rename_i hzero
      exact absurd hzero (by simp [t.traceId_nonzero])
    · split
      · rename_i hzero
        exact absurd hzero (by simp [t.spanId_nonzero])
      · cases t
        cases hstate
        rfl

theorem dash_not_mem_encodeChars (bytes : Bytes) : '-' ∉ Hex.encodeChars bytes :=
  fun hdash => absurd (Hex.mem_digits_of_mem_encodeChars hdash) (by decide)

/-- The fields of a header are found by its dashes. -/
theorem fields_headerChars (traceId spanId : Bytes) (flag : UInt8) :
    Text.fields '-' (headerChars traceId spanId flag) =
      [['0', '0'], Hex.encodeChars traceId, Hex.encodeChars spanId, Hex.encodeChars [flag]] := by
  have htext : headerChars traceId spanId flag = ['0', '0'] ++ '-' :: (Hex.encodeChars traceId ++
      '-' :: (Hex.encodeChars spanId ++ '-' :: Hex.encodeChars [flag])) := by
    simp [headerChars]
  rw [htext, Text.fields_append_sep (by decide),
    Text.fields_append_sep (dash_not_mem_encodeChars traceId),
    Text.fields_append_sep (dash_not_mem_encodeChars spanId),
    Text.fields_of_not_mem (dash_not_mem_encodeChars [flag])]

/-- What is read is the header of some ids and flags, and they are what the context holds. -/
theorem parse_eq_ok_iff {s : String} {t : TraceContext} :
    parse s = .ok t ↔ ∃ flag : UInt8,
      (Text.trim s).toList = headerChars t.traceId t.spanId flag ∧
        t.sampled = (flag.toNat % 2 == 1) ∧ t.tracestate = none := by
  constructor
  · intro h
    unfold parse at h
    split at h
    · rename_i version trace span flags hfields
      split at h
      · cases h
      · split at h
        · cases h
        · rename_i hversion
          rw [not_not] at hversion
          split at h
          · rename_i traceId ht spanId hs flagByte hf htrace hspan hflags
            obtain ⟨rfl, rfl, hsampled, hstate⟩ := make_eq_ok_iff.1 h
            obtain ⟨flag, rfl⟩ := List.length_eq_one_iff.1 hf
            refine ⟨flag, ?_, by rw [hsampled]; simp, hstate⟩
            obtain ⟨-, htext, -⟩ := Text.fields_eq_iff.1 hfields
            rw [htext, hversion, field?_eq_some_iff.1 htrace, field?_eq_some_iff.1 hspan,
              field?_eq_some_iff.1 hflags]
            simp [headerChars]
          · cases h
    · cases h
  · rintro ⟨flag, htext, hsampled, hstate⟩
    have htrace : field? 16 (Hex.encodeChars t.traceId) = some ⟨t.traceId, t.traceId_length⟩ :=
      field?_eq_some_iff.2 rfl
    have hspan : field? 8 (Hex.encodeChars t.spanId) = some ⟨t.spanId, t.spanId_length⟩ :=
      field?_eq_some_iff.2 rfl
    have hflag : field? 1 (Hex.encodeChars [flag]) = some ⟨[flag], rfl⟩ :=
      field?_eq_some_iff.2 rfl
    have hlength : byteLength ['0', '0'] = 2 := by decide
    rw [parse, htext, fields_headerChars]
    dsimp only
    rw [if_neg (by simp [hlength]), if_neg (by simp), htrace, hspan, hflag]
    exact make_eq_ok_iff.2 ⟨rfl, rfl, by rw [hsampled]; simp, hstate⟩

/-! ## Both ways -/

/-- There are no blanks around a header. -/
theorem trim_traceparent (t : TraceContext) : Text.trim t.traceparent = t.traceparent := by
  have hdigits : Hex.digits.all (fun c => !Text.isBlank c) = true := by decide
  refine Text.trim_eq_self ?_ ?_
  · rw [toList_traceparent]
    rintro c ⟨⟩
    decide
  · rw [toList_traceparent]
    intro c hc
    have hlast : (headerChars t.traceId t.spanId t.flags).getLast? =
        (Hex.encodeChars [t.flags]).getLast? := by
      rw [headerChars, List.getLast?_append_of_ne_nil _ (List.cons_ne_nil _ _)]
      rfl
    rw [hlast] at hc
    have hdigit := Hex.mem_digits_of_mem_encodeChars (List.mem_of_getLast? hc)
    simpa using List.all_eq_true.1 hdigits c hdigit

theorem flags_sampled (t : TraceContext) : t.sampled = (t.flags.toNat % 2 == 1) := by
  rw [flags]
  cases t.sampled <;> rfl

/-- The flags of a context that is read from a header, written again. -/
theorem encodeChars_flags {t : TraceContext} {flag : UInt8}
    (h : t.sampled = (flag.toNat % 2 == 1)) :
    Hex.encodeChars [t.flags] =
      if Hex.number (Hex.encodeChars [flag]) % 2 = 1 then ['0', '1'] else ['0', '0'] := by
  rw [Hex.number_encodeChars_singleton, flags, h]
  by_cases hodd : flag.toNat % 2 = 1
  · rw [if_pos (by simpa using hodd), if_pos hodd]
    decide
  · rw [if_neg (by simpa using hodd), if_neg hodd]
    decide

/-- A context is read back from its header, without a state of the vendor. A text is read exactly if
it is of the header form, but for blanks around it, and neither id is all zeros; the header of the
context that is read is the text without these blanks, with the flags `01` if the lowest bit of its
own is set, and `00` otherwise. -/
theorem parse_inverts_traceparent :
    (∀ t : TraceContext, parse t.traceparent = .ok { t with tracestate := none }) ∧
      ∀ s, ((∃ t, parse s = .ok t) ↔
          ∃ trace span flags, IsHeader (Text.trim s) trace span flags) ∧
        ∀ trace span flags, IsHeader (Text.trim s) trace span flags →
          ∃ t, parse s = .ok t ∧ t.traceparent.toList =
            "00-".toList ++ trace ++ '-' :: span ++
              '-' :: if Hex.number flags % 2 = 1 then ['0', '1'] else ['0', '0'] := by
  have hread {s : String} {trace span flags : List Char}
      (h : IsHeader (Text.trim s) trace span flags) : ∃ t, parse s = .ok t ∧
        t.traceparent.toList = "00-".toList ++ trace ++ '-' :: span ++
          '-' :: if Hex.number flags % 2 = 1 then ['0', '1'] else ['0', '0'] := by
    obtain ⟨traceId, spanId, flag, ⟨rfl, rfl, rfl⟩, htext, ht, hs, ht0, hs0⟩ := isHeader_iff.1 h
    let t : TraceContext := ⟨traceId, spanId, flag.toNat % 2 == 1, none, ht, hs, ht0, hs0⟩
    refine ⟨t, parse_eq_ok_iff.2 ⟨flag, htext, rfl, rfl⟩, ?_⟩
    rw [toList_traceparent, headerChars, encodeChars_flags (t := t) rfl]
  refine ⟨fun t => ?_, fun s => ⟨⟨?_, ?_⟩, fun _ _ _ => hread⟩⟩
  · refine parse_eq_ok_iff.2 ⟨t.flags, ?_, flags_sampled t, rfl⟩
    rw [trim_traceparent, toList_traceparent]
  · rintro ⟨t, ht⟩
    obtain ⟨flag, htext, -⟩ := parse_eq_ok_iff.1 ht
    exact ⟨_, _, _, isHeader_iff.2 ⟨t.traceId, t.spanId, flag, ⟨rfl, rfl, rfl⟩, htext,
      t.traceId_length, t.spanId_length, t.traceId_nonzero, t.spanId_nonzero⟩⟩
  · rintro ⟨trace, span, flags, h⟩
    obtain ⟨t, ht, -⟩ := hread h
    exact ⟨t, ht⟩

/-- A header with blanks around it, and with more flags than are known. -/
theorem parse_inverts_traceparent_padded :
    let s := "\t00-4bf92f3577b34da6a3ce929d0e0e4736-00f067aa0ba902b7-c3 \n"
    let trace := "4bf92f3577b34da6a3ce929d0e0e4736".toList
    let span := "00f067aa0ba902b7".toList
    IsHeader (Text.trim s) trace span ['c', '3'] ∧ ∃ t, parse s = .ok t ∧
      t.traceparent.toList = "00-4bf92f3577b34da6a3ce929d0e0e4736-00f067aa0ba902b7-01".toList := by
  have hdigits : ("4bf92f3577b34da6a3ce929d0e0e4736".toList ++ "00f067aa0ba902b7".toList ++
      ['c', '3']).all (fun c => decide (c ∈ Hex.digits)) = true := by
    decide +kernel
  have hheader : IsHeader
      (Text.trim "\t00-4bf92f3577b34da6a3ce929d0e0e4736-00f067aa0ba902b7-c3 \n")
      "4bf92f3577b34da6a3ce929d0e0e4736".toList "00f067aa0ba902b7".toList ['c', '3'] :=
    ⟨by decide +kernel, by decide, by decide, by decide,
      fun c hc => of_decide_eq_true (List.all_eq_true.1 hdigits c hc),
      ⟨'4', by decide, by decide⟩, ⟨'f', by decide, by decide⟩⟩
  obtain ⟨t, ht, htext⟩ := (parse_inverts_traceparent.2 _).2 _ _ _ hheader
  exact ⟨hheader, t, ht, htext.trans (by decide +kernel)⟩

end EventIngress.TraceContext
