import EventIngress.Text.Blank
import EventIngress.Text.Cut
import EventIngress.Text.Hex
import EventIngress.Text.Quoted

/-!
# Trace contexts

The distributed trace that an event belongs to: a trace id of 16 bytes, a span id of 8 bytes, the
sampled flag, and an opaque state of the tracing vendor. The header form is
`00-{trace id}-{span id}-{flags}`, each field in lowercase hexadecimal.

Results:

* `TraceContext.make`: the context of two ids that are not all zero.
* `TraceContext.traceparent`, `TraceContext.parse`: the header form and its reading.
-/

namespace EventIngress

/-- Why a trace context cannot be had (`TraceContextError`). -/
inductive TraceFault where
  /-- The text is not of the header form. -/
  | malformed (text : String)
  /-- The header form is of another version. -/
  | unsupportedVersion (version : String)
  /-- One of the ids, named here, is all zeros. -/
  | zeroId (id : String)
  deriving DecidableEq, Repr

namespace TraceFault

/-- The wording of the fault. -/
def message : TraceFault → String
  | malformed text => "malformed traceparent: " ++ text
  | unsupportedVersion version => "unsupported traceparent version " ++ Text.quoteText version
  | zeroId id => "traceparent carries an all-zero " ++ id

end TraceFault

/-- A trace context; neither id is all zeros. -/
structure TraceContext where
  traceId : Bytes
  spanId : Bytes
  sampled : Bool
  tracestate : Option String := none
  traceId_length : traceId.length = 16
  spanId_length : spanId.length = 8
  traceId_nonzero : traceId.all (· == 0) = false
  spanId_nonzero : spanId.all (· == 0) = false
  deriving DecidableEq

namespace TraceContext

/-- The context of two ids (`TraceContext.new`); the trace id is looked at first. -/
def make (traceId spanId : Bytes) (sampled : Bool) (traceId_length : traceId.length = 16)
    (spanId_length : spanId.length = 8) : Except TraceFault TraceContext :=
  match traceId_nonzero : traceId.all (· == 0) with
  | true => .error (.zeroId "trace id")
  | false =>
    match spanId_nonzero : spanId.all (· == 0) with
    | true => .error (.zeroId "span id")
    | false =>
      .ok ⟨traceId, spanId, sampled, none, traceId_length, spanId_length, traceId_nonzero,
        spanId_nonzero⟩

/-- Adds the state of the tracing vendor (`with_tracestate`). -/
def withTracestate (t : TraceContext) (state : String) : TraceContext :=
  { t with tracestate := some state }

/-- The flags byte: its lowest bit says whether the trace is sampled. -/
def flags (t : TraceContext) : UInt8 :=
  if t.sampled then 1 else 0

/-- The header form (`TraceContext.traceparent`). -/
def traceparent (t : TraceContext) : String :=
  "00-" ++ Hex.encode t.traceId ++ "-" ++ Hex.encode t.spanId ++ "-" ++ Hex.encode [t.flags]

/-! ## Reading -/

/-- The bytes of a hexadecimal field of a fixed width (`decode_hex`). -/
def field? (width : Nat) (digits : List Char) : Option { bytes : Bytes // bytes.length = width } :=
  (Hex.decode digits).bind fun bytes =>
    if h : bytes.length = width then some ⟨bytes, h⟩ else none

/-- Length of the UTF-8 form of a list of characters. -/
def byteLength (cs : List Char) : Nat :=
  (String.ofList cs).utf8ByteSize

/-- Reads the header form (`parse_traceparent`); blanks around it do not count, flags but the lowest
are ignored. -/
def parse (s : String) : Except TraceFault TraceContext :=
  match Text.fields '-' (Text.trim s).toList with
  | [version, trace, span, flags] =>
    if byteLength version ≠ 2 then .error (.malformed s)
    else if version ≠ ['0', '0'] then .error (.unsupportedVersion (String.ofList version))
    else
      match field? 16 trace, field? 8 span, field? 1 flags with
      | some ⟨traceId, ht⟩, some ⟨spanId, hs⟩, some ⟨flagByte, _⟩ =>
        make traceId spanId (flagByte.any fun b => b.toNat % 2 == 1) ht hs
      | _, _, _ => .error (.malformed s)
  | _ => .error (.malformed s)

end TraceContext

end EventIngress
