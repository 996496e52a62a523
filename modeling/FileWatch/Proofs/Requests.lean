import FileWatch.Proofs.Deliveries
import FileWatch.Proofs.Json.Serializable
/-!
Failures of the request side. A message without a JSON text is refused, and so is one whose text has
no form in UTF-8; the first refusal belongs to a category of the client and the second to none.
Neither touches the stream.
-/

namespace FileWatch

open FileWatch.Json (Serializable TextIn)

/-- Somewhere in the value, a key included, is a text with a surrogate. -/
def HoldsSurrogate (v : Value) : Prop := ∃ t, TextIn t v ∧ ∃ c ∈ t, c.isSurrogate = true

namespace Frame

theorem compact_surrogate {v : Value} {s : Text} (h : Json.encode .compact v = .ok s) :
    Json.Encodable s ↔ ¬ HoldsSurrogate v := by
  rw [Json.compact_encodable h, HoldsSurrogate]
  constructor
  · rintro hall ⟨t, ht, c, hc, hsurrogate⟩
    rw [hall t ht c hc] at hsurrogate
    cases hsurrogate
  · intro hnone t ht c hc
    by_contra hsurrogate
    exact hnone ⟨t, ht, c, hc, by simpa using hsurrogate⟩

inductive Framing (v : Value) : Except EncodeError Bytes → Prop where
  | unserializable {e} : ¬ Serializable v → Framing v (.error (.json e))
  | surrogate {e} : Serializable v → HoldsSurrogate v → Framing v (.error (.utf8 e))
  | framed {b} : Serializable v → ¬ HoldsSurrogate v → 0x0a ∉ b → Framing v (.ok (b ++ [0x0a]))

theorem encode_framing (v : Value) : Framing v (encode v) := by
  unfold encode
  cases htext : Json.encode .compact v with
  | error e =>
    refine .unserializable fun h => ?_
    obtain ⟨s, hs⟩ := Json.encodeAt_ok.mpr h
    rw [Json.encode, hs] at htext
    cases htext
  | ok s =>
    have hserializable : Serializable v := Json.encodeAt_ok.mp ⟨s, htext⟩
    simp only [Except.mapError, bind, Except.bind]
    cases hbytes : Utf8.encode s with
    | error e =>
      refine .surrogate hserializable ?_
      by_contra hnone
      have hform : Utf8.Encodes s (s.flatMap Utf8.encodePoint) :=
        ⟨(compact_surrogate htext).mpr hnone, rfl⟩
      rw [Utf8.encode_ok.mpr hform] at hbytes
      cases hbytes
    | ok b =>
      have hform := Utf8.encode_ok.mp hbytes
      refine .framed hserializable ((compact_surrogate htext).mp hform.1) ?_
      rw [Utf8.line_feed_mem hform]
      exact Json.compact_line_feed htext

theorem encode_json (v : Value) : (∃ e, encode v = .error (.json e)) ↔ ¬ Serializable v := by
  have h := encode_framing v
  constructor
  · rintro ⟨e, he⟩
    rw [he] at h
    cases h with
    | unserializable hv => exact hv
  · intro hv
    cases hr : encode v with
    | error e =>
      rw [hr] at h
      cases h with
      | @unserializable e' _ => exact ⟨e', rfl⟩
      | surrogate hs _ => exact absurd hs hv
    | ok frame =>
      rw [hr] at h
      cases h with
      | framed hs _ _ => exact absurd hs hv

end Frame

namespace Client

inductive Sending (c : Client) (message : Value) : Except Failure Unit × Client → Prop where
  | closed : c.isOpen = false → Sending c message (.error .closed, c)
  | unserializable {e} : c.isOpen = true → ¬ Serializable message →
      Sending c message (.error (.serialize e), c)
  | surrogate {e} : c.isOpen = true → Serializable message → HoldsSurrogate message →
      Sending c message (.error (.encoding e), c)
  | failed {e c'} : c.isOpen = true → Serializable message → ¬ HoldsSurrogate message →
      c.stream.writeError = some e ∨ c.stream.flushError = some e →
      c'.stream.sent = c.stream.sent → Sending c message (.error (.send e), c')
  | flushed {b c'} : c.isOpen = true → Serializable message → ¬ HoldsSurrogate message →
      c.stream.writeError = none → c.stream.flushError = none →
      Frame.encode message = .ok (b ++ [0x0a]) → 0x0a ∉ b →
      c'.stream.sent = c.stream.sent ++ (c.stream.pending ++ (b ++ [0x0a])) →
      c'.stream.pending = [] → Sending c message (.ok (), c')

theorem send_ends (c : Client) (message : Value) :
    Sending c message (settle (send message) c) := by
  cases hopen : c.isOpen with
  | false =>
    rw [send_closed hopen]
    exact .closed hopen
  | true =>
    have hframing := Frame.encode_framing message
    cases hframe : Frame.encode message with
    | error e =>
      rw [hframe] at hframing
      rw [send_unframed hopen hframe]
      cases hframing with
      | unserializable h => exact .unserializable hopen h
      | surrogate h hs => exact .surrogate hopen h hs
    | ok frame =>
      rw [hframe] at hframing
      rw [send_open hopen hframe]
      cases hframing with
      | @framed b h hs hline =>
        cases hwrite : c.stream.writeError with
        | some e => exact .failed hopen h hs (.inl hwrite) rfl
        | none =>
          cases hflush : c.stream.flushError with
          | some e => exact .failed hopen h hs (.inr hflush) rfl
          | none => exact .flushed hopen h hs hwrite hflush hframe hline rfl rfl

inductive Call.Typed : Call → Prop where
  | watch (path : Text) : Typed (.watch (.text path))
  | watchDel (path : Text) : Typed (.watchDel (.text path))
  | watchList : Typed .watchList
  | query (path : Text) (e : Expression) (mask : Int) :
      Typed (.query (.text path) (.expression e) (.int mask))

theorem typed_request {call : Call} (h : call.Typed) : ∃ message, call.request = .ok message := by
  cases h <;> exact ⟨_, rfl⟩

/-- A request without a category of failure: its message has a JSON text with a surrogate in it. -/
theorem send_uncategorized (c : Client) (message : Value) :
    (∃ e, (settle (send message) c).1 = .error e ∧ e.category? = none) ↔
      c.isOpen = true ∧ Serializable message ∧ HoldsSurrogate message := by
  have hends := send_ends c message
  constructor
  · rintro ⟨e, he, hnone⟩
    rcases hsettle : settle (send message) c with ⟨r, c'⟩
    rw [hsettle] at hends he
    obtain rfl : r = .error e := he
    cases hends with
    | surrogate hopen h hs => exact ⟨hopen, h, hs⟩
    | closed | unserializable | failed => cases hnone
  · rintro ⟨hopen, h, hs⟩
    rcases hsettle : settle (send message) c with ⟨r, c'⟩
    rw [hsettle] at hends
    cases hends with
    | @surrogate e => exact ⟨.encoding e, rfl, rfl⟩
    | closed hclosed => exact absurd (hopen.symm.trans hclosed) (by decide)
    | unserializable _ hn => exact absurd h hn
    | failed _ _ hn | flushed _ _ hn => exact absurd hs hn

/-- Whatever the state of the connection, a request ends in one of five ways, and the one outside
the categories is met exactly by messages that have a JSON text with a surrogate in it. The calls
begin with a request. -/
theorem requests_outside_categories (c : Client) :
    (∀ message, Sending c message (settle (send message) c) ∧
      ((∃ e, (settle (send message) c).1 = .error e ∧ e.category? = none) ↔
        c.isOpen = true ∧ Serializable message ∧ HoldsSurrogate message)) ∧
    (∀ message, (∃ e, Frame.encode message = .error (.json e)) ↔ ¬ Serializable message) ∧
    ∀ call : Call, call.Typed → ∃ message, call.request = .ok message ∧
      Asks call.perform message := by
  refine ⟨fun message => ⟨send_ends c message, send_uncategorized c message⟩,
    Frame.encode_json, ?_⟩
  intro call h
  obtain ⟨message, hrequest⟩ := typed_request h
  exact ⟨message, hrequest, perform_asks hrequest⟩

/-- A path with a lone surrogate becomes part of a message that is asked with and cannot be sent. -/
theorem lone_surrogate_asked :
    ∃ message, (Call.watch (.text [0xD800])).request = .ok message ∧
      Asks (Call.watch (.text [0xD800])).perform message ∧
      ∃ e, (settle (send message) { isOpen := true }).1 = .error e ∧ e.category? = none := by
  obtain ⟨hsend, -, hcalls⟩ := requests_outside_categories { isOpen := true }
  obtain ⟨message, hrequest, hasks⟩ := hcalls _ (.watch [0xD800])
  refine ⟨message, hrequest, hasks, (hsend message).2.mpr ⟨rfl, ?_, ?_⟩⟩
  all_goals cases hrequest
  · refine .list ?_
    intro v hv
    obtain ⟨t, -, rfl⟩ := List.mem_map.mp hv
    exact .text
  · exact ⟨[0xD800], .list (by simp) .self, 0xD800, by simp, by decide⟩

/-- A path with a lone surrogate. -/
theorem watch_lone_surrogate :
    (settle (Call.watch (.text [0xD800])).perform { isOpen := true }).1 =
        .error (.encoding ⟨0xD800, 10, 1⟩) ∧
      (Failure.encoding ⟨0xD800, 10, 1⟩).category? = none := by
  constructor <;> rfl

end Client

end FileWatch
