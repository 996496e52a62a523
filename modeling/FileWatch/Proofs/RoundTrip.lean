import FileWatch.Proofs.Json.Written
import FileWatch.Proofs.Reader
/-!
Values that are sent and read again. A frame holds one line feed, at its end, so frames may stand
one behind the other in a stream, and each of them gives its value back.
-/

namespace FileWatch

open FileWatch.Json (Sendable received)

namespace Frame

/-- The frame of a value is a document without line feeds, and a line feed. -/
theorem encode_sendable {v : Value} (h : Sendable v) :
    ∃ b, encode v = .ok (b ++ [0x0a]) ∧ 0x0a ∉ b ∧ DocumentBytes b (received v) := by
  obtain ⟨s, hs, hspells⟩ := Json.sendable_written Json.compact_spacing h 0
  have htexts := (Json.compact_encodable hs).mpr (Json.sendable_texts h)
  have hform : Utf8.Encodes s (s.flatMap Utf8.encodePoint) := ⟨htexts, rfl⟩
  refine ⟨s.flatMap Utf8.encodePoint, ?_, ?_, s, hform, hspells⟩
  · have hbytes := Utf8.encode_ok.mpr hform
    unfold encode
    rw [Json.encode, hs]
    simp only [Except.mapError, bind, Except.bind, hbytes]
    rfl
  · rw [Utf8.line_feed_mem hform]
    exact Json.compact_line_feed hs

theorem decode_document {b : Bytes} {v : Value} (h : DocumentBytes b v) :
    decode (b ++ [0x0a]) = .ok v :=
  decode_ok.mpr ⟨[], b, rfl, by simp [SpaceBytes], h⟩

end Frame

namespace Stream

theorem replyBytes_frame {v : Value} {frame : Bytes} (h : Sendable v)
    (hframe : Frame.encode v = .ok frame) : ReplyBytes frame (received v) := by
  obtain ⟨b, hencode, -, hb⟩ := Frame.encode_sendable h
  obtain rfl : b ++ [0x0a] = frame := Except.ok.inj (hencode.symm.trans hframe)
  exact ⟨[], [], b, rfl, ⟨Or.inl rfl, by simp⟩, by simp [Frame.SpaceBytes], hb⟩

end Stream

namespace Client

/-- Every value that can be sent has a frame with one line feed, at its end, which decodes to the
value again; and an open client reads the values of frames one behind the other in order. -/
theorem sent_values_come_back (c : Client) (hopen : c.isOpen = true) :
    (∀ v, Sendable v → ∃ b, Frame.encode v = .ok (b ++ [0x0a]) ∧ 0x0a ∉ b ∧
      Frame.decode (b ++ [0x0a]) = .ok (received v)) ∧
    ∀ (vs : List Value) (frames : List Bytes) (R : Bytes), (∀ v ∈ vs, Sendable v) →
      List.Forall₂ (fun v frame => Frame.encode v = .ok frame) vs frames →
      c.stream.incoming = frames.flatten ++ R →
      ∃ c', (readTimes vs.length).run c = .ok (vs.map received) c' ∧ c'.stream.incoming = R := by
  constructor
  · intro v hv
    obtain ⟨b, hencode, hfeed, hb⟩ := Frame.encode_sendable hv
    exact ⟨b, hencode, hfeed, Frame.decode_document hb⟩
  · intro vs frames R hvs hframes hc
    have hreplies : ∃ replies : List (Bytes × Value), replies.map Prod.fst = frames ∧
        replies.map Prod.snd = vs.map received ∧ ∀ r ∈ replies, Stream.ReplyBytes r.1 r.2 := by
      clear hc
      induction hframes with
      | nil => exact ⟨[], rfl, rfl, by simp⟩
      | @cons v frame vs frames hframe _ ih =>
        obtain ⟨replies, hfst, hsnd, hall⟩ := ih fun u hu => hvs u (by simp [hu])
        refine ⟨(frame, received v) :: replies, by simp [hfst], by simp [hsnd], ?_⟩
        intro r hr
        rcases List.mem_cons.mp hr with rfl | hr
        · exact Stream.replyBytes_frame (hvs v (by simp)) hframe
        · exact hall r hr
    obtain ⟨replies, rfl, hsnd, hall⟩ := hreplies
    have hlength : replies.length = vs.length := by
      have hlen := congrArg List.length hsnd
      simpa using hlen
    have hread := readTimes_replies hall hopen hc
    rwa [hlength, hsnd] at hread

/-- An object whose value is a pair of null and a text with a line feed in it. -/
theorem pair_comes_back :
    ∃ c', (readTimes 1).run { isOpen := true, stream := { incoming :=
        [0x7b, 0x22, 0x6b, 0x22, 0x3a, 0x5b, 0x6e, 0x75, 0x6c, 0x6c, 0x2c, 0x22, 0x5c, 0x6e, 0x22,
          0x5d, 0x7d, 0x0a] } } =
      .ok [.dict [(.text "k", .list [.null, .text "\n"])]] c' ∧ c'.stream.incoming = [] := by
  have pair : Sendable (.tuple [.null, .text "\n"]) := by
    refine .tuple ?_
    intro v hv
    rcases List.mem_cons.mp hv with rfl | hv
    · exact .null
    · obtain rfl := List.mem_singleton.mp hv
      exact .text (Json.encodable_of_all rfl)
  have object : Sendable (.dict [(.text "k", .tuple [.null, .text "\n"])]) := by
    refine .dict ?_ (List.nodup_singleton _) ?_
    · intro e he
      obtain rfl := List.mem_singleton.mp he
      exact ⟨"k", rfl, Json.encodable_of_all rfl⟩
    · intro e he
      obtain rfl := List.mem_singleton.mp he
      exact pair
  refine (sent_values_come_back _ rfl).2 [.dict [(.text "k", .tuple [.null, .text "\n"])]]
    [_] [] ?_ (.cons rfl .nil) rfl
  intro v hv
  obtain rfl := List.mem_singleton.mp hv
  exact object

end Client

end FileWatch
