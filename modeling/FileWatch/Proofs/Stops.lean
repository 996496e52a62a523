import FileWatch.Proofs.Framing
/-!
Where the reader stops. Each line that is added to a frame is asked for by the lines in front of it,
so the frame ends where a line feed comes right behind its document. What the reader hands on
therefore never has anything behind that line feed, whatever the stream holds.
-/

namespace FileWatch

open FileWatch.Json (Document Spaces)
open Utf8 (Encodes)

namespace Stream

theorem line_feed_last {b line p q : Bytes} (h : line ∈ lines b) (hline : line = p ++ 0x0a :: q) :
    q = [] := by
  induction b generalizing line p with
  | nil => cases h
  | cons d rest ih =>
    rw [lines] at h
    by_cases hd : d = 0x0a
    · rw [if_pos hd] at h
      rcases List.mem_cons.mp h with rfl | h
      · rcases List.append_eq_singleton_iff.mp hline.symm with ⟨-, hq⟩ | ⟨-, hq⟩
        · exact (List.cons.inj hq).2
        · cases hq
      · exact ih h hline
    · rw [if_neg hd] at h
      cases hrest : lines rest with
      | nil =>
        rw [hrest] at h
        obtain rfl := List.mem_singleton.mp h
        have hmem : 0x0a ∈ [d] := hline ▸ List.mem_append_right p List.mem_cons_self
        exact absurd (List.mem_singleton.mp hmem).symm hd
      | cons first others =>
        simp only [hrest] at h ih
        rcases List.mem_cons.mp h with rfl | h
        · cases p with
          | nil => exact absurd (List.cons.inj hline).1 hd
          | cons c p => exact ih List.mem_cons_self (List.cons.inj hline).2
        · exact ih (List.mem_cons_of_mem _ h) hline

/-- The lines of a frame: none but blank ones, or those behind the blank ones. -/
theorem gather_lines (ls : List Bytes) :
    gather [] ls = .exhausted [] ∨
      ∃ bs line ms rest, ls = bs ++ (line :: ms ++ rest) ∧ Added [] line ∧
        gather [] ls = gather [] (line :: ms ++ rest) ∧
        Ends (gather [] ls) (line :: ms).flatten rest := by
  obtain ⟨bs, tail, rfl, hblank, htail⟩ := blank_split ls
  rw [gather_append, gather_blank hblank, Gathering.goOn]
  cases tail with
  | nil => exact Or.inl rfl
  | cons line ls =>
    have hadded := htail line ls rfl
    obtain ⟨ms, rest, hsplit, hms, hends⟩ := gather_ends ls hadded
    obtain ⟨first, ms, rfl⟩ := List.exists_cons_of_ne_nil hms
    obtain ⟨rfl, -⟩ := List.cons.inj hsplit
    exact Or.inr ⟨bs, line, ms, rest, by rw [hsplit], hadded, by rw [hsplit], hends⟩

theorem asked_before {line : Bytes} {ls q rest : List Bytes} {frame : Bytes}
    (hadded : Added [] line) (hq : q ≠ [])
    (hends : Ends (gather [] (line :: ls ++ (q ++ rest))) frame rest) :
    Frame.needsMore (line :: ls).flatten = .ok true := by
  -- Had the reader stopped there, the lines of `q` would be among those that are left.
  have longer {r : List Bytes} (h : r ++ (q ++ rest) = rest) : False := by
    have hlength := congrArg List.length h
    have hpos := List.length_pos_iff.mpr hq
    simp only [List.length_append] at hlength
    omega
  obtain ⟨ms, r, hsplit, -, hfront⟩ := gather_ends ls hadded
  rw [gather_append] at hends
  rcases hfront with ⟨hg, -⟩ | ⟨hg, hr, hneed⟩ | ⟨n, hg, -⟩
  · rw [hg, Gathering.goOn] at hends
    rcases hends with ⟨hstop, -⟩ | ⟨hstop, -⟩ | ⟨n, hstop, -⟩
    · exact (longer (Gathering.complete.inj hstop).2).elim
    · cases hstop
    · cases hstop
  · rw [hr, List.append_nil] at hsplit
    rwa [hsplit]
  · rw [hg, Gathering.goOn] at hends
    rcases hends with ⟨hstop, -⟩ | ⟨hstop, -⟩ | ⟨m, hstop, -⟩
    · cases hstop
    · cases hstop
    · exact (longer (Gathering.overlong.inj hstop).2).elim

theorem line_behind {b line : Bytes} (h : line ∈ lines b) {a more : Text}
    (ht : Encodes (a ++ ('\n' :: more : Text)) line) : more = [] := by
  obtain ⟨-, hbytes⟩ := ht
  rw [List.flatMap_append, List.flatMap_cons, Utf8.encodePoint_line_feed, List.singleton_append]
    at hbytes
  have hnil := line_feed_last h hbytes
  cases more with
  | nil => rfl
  | cons c more =>
    rw [List.flatMap_cons] at hnil
    exact absurd (List.append_eq_nil_iff.mp hnil).1 (Utf8.encodePoint_ne_nil c)

theorem document_asks_nothing {frame : Bytes} {w d m : Text} {v : Value}
    (ht : Encodes (w ++ (d ++ ('\n' :: m : Text))) frame) (hw : Spaces w) (hd : Document d v) :
    Frame.needsMore frame = .ok false := by
  obtain ⟨c, rest, hcons, -⟩ := Json.spells_begins hd
  have hbody : Frame.Body frame (d ++ ('\n' :: m : Text)) :=
    ⟨_, ht, Frame.skipSpace_document hw hd _, by simp [hcons]⟩
  rw [Frame.needsMore_body hbody, Frame.document_line hd]

/-- Where lines that ask for more are followed by a last one, the line feed behind the document is
in that one and ends it. -/
theorem last_line_ends {b front last : Bytes} (hlast : last ∈ lines b)
    (hfront : front.getLast? = some 0x0a) (hneed : Frame.needsMore front = .ok true)
    {w d more : Text} {v : Value} (hw : Spaces w) (hd : Document d v)
    (ht : Encodes (w ++ (d ++ ('\n' :: more : Text))) (front ++ last)) : more = [] := by
  obtain ⟨t₁, t₂, hsplit, h₁, h₂⟩ := Utf8.encodes_cut ht hfront
  rw [← List.append_assoc] at hsplit
  rcases List.append_eq_append_iff.mp hsplit with ⟨m, rfl, hm⟩ | ⟨a, -, rfl⟩
  · cases m with
    | nil =>
      rw [List.nil_append] at hm
      exact line_behind (a := []) hlast (hm ▸ h₂)
    | cons c m =>
      obtain ⟨rfl, -⟩ := List.cons.inj hm
      rw [List.append_assoc] at h₁
      rw [document_asks_nothing h₁ hw hd] at hneed
      cases hneed
  · exact line_behind hlast h₂

theorem taken_ends {s s' : Stream} {frame : Bytes} (h : readFrame s = (.ok frame, s'))
    {w d more : Text} {v : Value} (ht : Encodes (w ++ (d ++ ('\n' :: more : Text))) frame)
    (hw : Spaces w) (hd : Document d v) : more = [] := by
  rcases gather_lines (lines s.incoming) with hnil | ⟨bs, line, ms, rest, hlines, hadded, hg, hends⟩
  · have hframe : frame = [] := by
      unfold readFrame at h
      rw [hnil] at h
      cases he : s.readError with
      | none =>
        simp only [he] at h
        cases h
        rfl
      | some e =>
        simp only [he] at h
        cases h
    rw [hframe] at ht
    have hmem : 0x0a ∈ ([] : Bytes) := (Utf8.line_feed_mem ht).mpr (by simp)
    cases hmem
  · obtain ⟨-, hframe⟩ := readFrame_ends hends
    rw [h] at hframe
    obtain rfl := hframe frame rfl
    rcases List.eq_nil_or_concat' ms with rfl | ⟨init, last, rfl⟩
    · rw [List.flatten_singleton, ← List.append_assoc] at ht
      exact line_behind (b := s.incoming) (by rw [hlines]; simp) ht
    · rw [← List.cons_append, List.flatten_append, List.flatten_singleton] at ht
      have hsplit : line :: (init ++ [last]) ++ rest = line :: init ++ ([last] ++ rest) := by simp
      rw [hg, hsplit] at hends
      have hneed := asked_before hadded (by simp) hends
      rw [hsplit] at hlines
      have hwhole : WholeLines (line :: init).flatten := by
        apply wholeLines_right (a := bs.flatten)
        rw [← List.flatten_append]
        exact lines_before (hlines.trans (List.append_assoc _ _ _).symm) (by simp)
      obtain ⟨hfront, -⟩ := beginning_lines hlines hadded (p := line :: init) rfl (by simp) hwhole
      exact last_line_ends (b := s.incoming) (by rw [hlines]; simp) hfront hneed hw hd ht

theorem taken_short {s s' : Stream} {frame : Bytes} (h : readFrame s = (.ok frame, s')) :
    Frame.Short frame :=
  Frame.short_iff.mpr (readFrame_decodes h)

theorem taken_framing {s s' : Stream} {frame : Bytes} (h : readFrame s = (.ok frame, s'))
    {e : Frame.DecodeError} (hdecode : Frame.decode frame = .error e)
    (hcategory : (Failure.frame e).category? = some .framing) :
    e = .noNewline ∧ ∃ v x, Frame.Holds frame v x ∧ x.head? ≠ some ('\n' : CodePoint) := by
  have hshort := taken_short h
  obtain ⟨v, x, hholds, -⟩ := (Frame.fails_framing hshort).mp ⟨e, hdecode, hcategory⟩
  have hterminated := Frame.holds_decode hshort hholds
  rw [hdecode] at hterminated
  rcases Frame.terminated_error hterminated.symm with ⟨rfl, hx⟩ | ⟨-, more, hmore, rfl⟩
  · exact ⟨rfl, v, x, hholds, hx⟩
  · obtain ⟨w, d, ht, hw, hd⟩ := hholds
    exact absurd (taken_ends h ht hw hd.document) hmore

end Stream

namespace Client

/-- Whatever the stream holds, the frame that is read goes on behind no line feed that follows its
document, and so decoding never finds trailing data in it. The reader stops at the first such line
feed that has come in, and a read that fails for its framing has a document that none follows. -/
theorem reader_stops_at_line_feed (c : Client) :
    (∀ frame s, Stream.readFrame c.stream = (.ok frame, s) →
      Frame.decode frame ≠ .error .trailingData ∧
        ∀ w d more v, Encodes (w ++ (d ++ ('\n' :: more : Text))) frame → Spaces w →
          Document d v → more = []) ∧
      (∀ b R v, Stream.ReplyBytes b v → c.stream.incoming = b ++ R →
        ∃ frame, Stream.readFrame c.stream = (.ok frame, { c.stream with incoming := R }) ∧
          Frame.decode frame = .ok v) ∧
      ∀ e c', read.run c = .error e c' → e.category? = some .framing →
        e = .frame .noNewline ∧ ∃ frame s v x, Stream.readFrame c.stream = (.ok frame, s) ∧
          Frame.Holds frame v x ∧ x.head? ≠ some ('\n' : CodePoint) := by
  refine ⟨?_, fun b R v hb hc => Stream.readFrame_reply hb hc, ?_⟩
  · intro frame s hread
    constructor
    · intro hdecode
      obtain ⟨hkind, -⟩ := Stream.taken_framing hread hdecode rfl
      cases hkind
    · intro w d more v ht hw hd
      exact Stream.taken_ends hread ht hw hd
  · intro e c' hrun hcategory
    by_cases hopen : c.isOpen = true
    · rw [read_run hopen] at hrun
      rcases hread : Stream.readFrame c.stream with ⟨e' | frame, s⟩
      · rw [hread] at hrun
        cases hrun
        cases e' <;> cases hcategory
      · rw [hread] at hrun
        dsimp only at hrun
        cases hdecode : Frame.decode frame with
        | ok v =>
          rw [hdecode] at hrun
          cases hrun
        | error e' =>
          rw [hdecode] at hrun
          cases hrun
          obtain ⟨rfl, v, x, hholds, hx⟩ := Stream.taken_framing hread hdecode hcategory
          exact ⟨rfl, frame, s, v, x, rfl, hholds, hx⟩
    · have hclosed := read_closed (Bool.not_eq_true _ ▸ hopen)
      rw [settle, hrun] at hclosed
      cases hclosed
      cases hcategory

/-- `[1,` with `2] x` on the line behind it, and `3`. -/
theorem space_behind_document :
    ∃ frame s v x, Stream.readFrame
        { incoming := [0x5b, 0x31, 0x2c, 0x0a, 0x32, 0x5d, 0x20, 0x78, 0x0a, 0x33, 0x0a] } =
        (.ok frame, s) ∧
      Frame.Holds frame v x ∧ x.head? ≠ some ('\n' : CodePoint) := by
  exact ((reader_stops_at_line_feed { isOpen := true, stream :=
    { incoming := [0x5b, 0x31, 0x2c, 0x0a, 0x32, 0x5d, 0x20, 0x78, 0x0a, 0x33, 0x0a] } }).2.2
      (.frame .noNewline) _ rfl rfl).2

end Client

end FileWatch
