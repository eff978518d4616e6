import EventIngress.Command.Send
import EventIngress.Proofs.Text.Utf8
import EventIngress.Proofs.Transport.Journals

/-!
# The output of a send

What JSON is written in bytes is the UTF-8 form of a text, so it is printed as it is. The output for
a message that was taken is one line that reads as one JSON object.

Results:

* `Json.isText_writeText`, `Json.isText_writeObject`: written JSON is a text.
* `isAckLine_ackLine`: the line for a message that was taken.
-/

namespace EventIngress

open Bytes (IsText)

/-! ## Written JSON is a text -/

namespace Json

theorem isText_escapeByte {b : UInt8} (hb : b.toNat < 0x80) : IsText (escapeByte b) := by
  unfold escapeByte
  split_ifs
  -- A backslash and a letter.
  iterate 7 exact .cons (by decide) (.singleton (by decide))
  · have hdigit : ∀ n : Fin 16, (Hex.digit n.val).toUInt8.toNat < 0x80 := by decide
    have hescape : IsText [0x5c, 0x75, 0x30, 0x30] :=
      .cons (by decide) (.cons (by decide) (.cons (by decide) (.singleton (by decide))))
    exact .append hescape (.cons (hdigit ⟨b.toNat / 16, by omega⟩)
      (.singleton (hdigit ⟨b.toNat % 16, by omega⟩)))
  · exact .singleton hb

theorem flatMap_escapeByte {w : Bytes} (h : ∀ b ∈ w, 0x80 ≤ b.toNat) :
    w.flatMap escapeByte = w := by
  have hall : ∀ n : Fin 0x80, escapeByte (UInt8.ofNat (n + 0x80)) = [UInt8.ofNat (n + 0x80)] := by
    decide +kernel
  refine (List.flatMap_congr fun b hb => ?_).trans (List.flatMap_singleton' w)
  have hself := hall ⟨b.toNat - 0x80, by have := b.toNat_lt; omega⟩
  have hle := h b hb
  rwa [Nat.sub_add_cancel hle, UInt8.ofNat_toNat] at hself

/-- An ASCII character is escaped by others, and all bytes of another character stay. -/
theorem isText_escaped (c : Char) : IsText ((String.utf8EncodeChar c).flatMap escapeByte) := by
  rcases (Bytes.isForm_utf8EncodeChar c).ascii_or with ⟨a, ha, heq⟩ | hbytes
  · rw [heq, List.flatMap_singleton]
    exact isText_escapeByte ha
  · rw [flatMap_escapeByte hbytes]
    exact ⟨String.singleton c, by simp [Bytes.ofText_eq]⟩

theorem isText_writeText (s : String) : IsText (writeText s) := by
  refine .cons (by decide) (.append ?_ (.singleton (by decide)))
  rw [Bytes.ofText_eq, List.flatMap_assoc]
  exact .flatMap fun c _ => isText_escaped c

theorem isText_commaSeparated {items : List Bytes} (h : ∀ item ∈ items, IsText item) :
    IsText (commaSeparated items) := by
  cases items with
  | nil => exact .of_ascii (by simp [commaSeparated])
  | cons item items =>
    rw [List.forall_mem_cons] at h
    rw [commaSeparated_cons]
    exact .append h.1 (.flatMap fun next hnext => .cons (by decide) (h.2 next hnext))

theorem isText_writeObject {members : List (String × Bytes)} (h : ∀ m ∈ members, IsText m.2) :
    IsText (writeObject members) := by
  refine .cons (by decide) (.append (isText_commaSeparated ?_) (.singleton (by decide)))
  rw [List.forall_mem_map]
  exact fun m hm => .append (isText_writeText m.1) (.cons (by decide) (h m hm))

end Json

/-! ## The line for a message that was taken -/

/-- The line is one JSON object with the broker, the message id and the topic of a message that was
taken, and there is no line end in it. -/
def IsAckLine (b : BrokerIdentity) (ack : Ack) (line : String) : Prop :=
  '\n' ∉ line.toList ∧
    Json.finish (Json.readValue Json.maxDepth (Bytes.ofText line)) = .ok (.object (.ofList
      [("broker", .string b.text), ("message_id", .string ack.messageId),
        ("topic_id", .string ack.topic.text)]))

theorem ofText_ackLine (b : BrokerIdentity) (ack : Ack) :
    Bytes.ofText (ackLine b ack) = Json.writeObject
      [("broker", Json.writeText b.text), ("message_id", Json.writeText ack.messageId),
        ("topic_id", Json.writeText ack.topic.text)] := by
  refine IsText.ofText_lossyText (Json.isText_writeObject ?_)
  simp only [List.forall_mem_cons]
  exact ⟨Json.isText_writeText _, Json.isText_writeText _, Json.isText_writeText _, by simp⟩

theorem isAckLine_ackLine (b : BrokerIdentity) (ack : Ack) : IsAckLine b ack (ackLine b ack) := by
  constructor
  · intro hmem
    have hprinted : Json.Printed (Bytes.ofText (ackLine b ack)) := by
      rw [ofText_ackLine]
      refine Json.Printed.writeObject ?_
      simp only [List.forall_mem_cons]
      exact ⟨.writeText _, .writeText _, .writeText _, by simp⟩
    refine hprinted.lineEnd_not_mem ?_
    rw [Bytes.ofText_eq]
    exact List.mem_flatMap.2 ⟨'\n', hmem, by decide⟩
  · have hmembers : List.Forall₂ (Json.MemberReadsAs 126)
        [("broker", Json.writeText b.text), ("message_id", Json.writeText ack.messageId),
          ("topic_id", Json.writeText ack.topic.text)]
        [("broker", .string b.text), ("message_id", .string ack.messageId),
          ("topic_id", .string ack.topic.text)] :=
      .cons ⟨rfl, Json.readsAs_string 126 _⟩ <| .cons ⟨rfl, Json.readsAs_string 126 _⟩ <|
        .cons ⟨rfl, Json.readsAs_string 126 _⟩ .nil
    rw [ofText_ackLine]
    exact Json.ReadsBack.finish fun _ hrest => (Json.ReadsAs.object hmembers).readValue hrest

end EventIngress
