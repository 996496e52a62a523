import FileWatch.Proofs.Actions
import FileWatch.Proofs.Lines
/-!
The reader. A message that stands behind blank lines is read whole, with the line feed that ends it
and nothing of what follows; and whatever is read is such a message.
-/

namespace FileWatch

open FileWatch.Frame (Message SpaceBytes DocumentBytes)

namespace Stream

theorem encodePoint_head {c : CodePoint} (h : c.isBlank = false) :
    ∃ d rest, Utf8.encodePoint c = d :: rest ∧ isBlankByte d = false := by
  have byte {n : Nat} (hn : n < 0x100) (hplain : n < 0x09 ∨ 0x0d < n) (hspace : n ≠ 0x20) :
      isBlankByte (UInt8.ofNat n) = false := by
    have hval := Utf8.ofNat_toNat hn
    simp only [isBlankByte, UInt8.le_iff_toNat_le, ← UInt8.toNat_inj, hval, Bool.or_eq_false_iff,
      Bool.and_eq_false_iff, decide_eq_false_iff_not, UInt8.reduceToNat]
    omega
  have hsize := c.isLt
  simp [CodePoint.isBlank, blankRanges] at h
  unfold Utf8.encodePoint
  simp only
  split_ifs with h1 h2 h3
  · exact ⟨_, _, rfl, byte (by omega) (by omega) (by omega)⟩
  · exact ⟨_, _, rfl, byte (by omega) (by omega) (by omega)⟩
  · exact ⟨_, _, rfl, byte (by omega) (by omega) (by omega)⟩
  · exact ⟨_, _, rfl, byte (by omega) (by omega) (by omega)⟩

theorem document_head {D : Bytes} {v : Value} (h : DocumentBytes D v) :
    ∃ d rest, D = d :: rest ∧ isBlankByte d = false := by
  obtain ⟨t, ⟨-, rfl⟩, hdoc⟩ := h
  obtain ⟨c, t, rfl, hopen⟩ := Json.spells_begins hdoc
  obtain ⟨d, rest, hpoint, hplain⟩ := encodePoint_head (Json.opens_not_blank hopen)
  exact ⟨d, rest ++ t.flatMap Utf8.encodePoint, by rw [List.flatMap_cons, hpoint]; rfl, hplain⟩

theorem message_behind_blank {P M : Bytes} {v : Value} (h : Message (P ++ M) v)
    (hblank : ∀ d ∈ P, isBlankByte d = true) : Message M v := by
  obtain ⟨W, D, hsplit, hW, hD⟩ := h
  rw [List.append_assoc] at hsplit
  rcases List.append_eq_append_iff.mp hsplit with ⟨W', rfl, hM⟩ | ⟨X, rfl, hX⟩
  · refine ⟨W', D, by rw [hM, List.append_assoc], ?_, hD⟩
    intro d hd
    exact hW d (List.mem_append_right _ hd)
  · obtain ⟨d, rest, rfl, hplain⟩ := document_head hD
    cases X with
    | nil => exact ⟨[], d :: rest, by simpa using hX.symm, by simp [SpaceBytes], hD⟩
    | cons x X =>
      obtain rfl := (List.cons.inj hX).1
      have hdx := hblank d (by simp)
      rw [hplain] at hdx
      cases hdx

/-- The lines of a message: blank ones, and those from the first token on. -/
theorem message_lines {M : Bytes} {v : Value} (h : Message M v) :
    ∃ bs line ls, lines M = bs ++ line :: ls ∧ (∀ l ∈ bs, l.all isBlankByte = true) ∧
      Added [] line ∧ Message (line :: ls).flatten v := by
  obtain ⟨bs, rest, hsplit, hblank, hrest⟩ := blank_split (lines M)
  have hbytes : ∀ d ∈ bs.flatten, isBlankByte d = true := by
    intro d hd
    obtain ⟨l, hl, hmem⟩ := List.mem_flatten.mp hd
    exact List.all_eq_true.mp (hblank l hl) d hmem
  cases rest with
  | nil =>
    exfalso
    obtain ⟨W, D, hM, -, hD⟩ := h
    obtain ⟨d, tail, rfl, hplain⟩ := document_head hD
    have hd := hbytes d (by rw [← List.append_nil bs, ← hsplit, lines_flatten, hM]; simp)
    rw [hplain] at hd
    cases hd
  | cons line ls =>
    refine ⟨bs, line, ls, hsplit, hblank, hrest line ls rfl, message_behind_blank ?_ hbytes⟩
    rw [← List.flatten_append, ← hsplit, lines_flatten]
    exact h

theorem message_whole {M : Bytes} {v : Value} (h : Message M v) : WholeLines M := by
  obtain ⟨W, D, rfl, -, -⟩ := h
  exact Or.inr (by simp)

theorem added_body {frame c : Bytes} {t : Text} (hplain : ∃ d ∈ frame, isBlankByte d = false)
    (hframe : frame.getLast? = some 0x0a) (h : Utf8.Encodes t (frame ++ c)) :
    ∃ body, Frame.Body frame body := by
  obtain ⟨t₁, t₂, -, h₁, -⟩ := Utf8.encodes_cut h hframe
  refine ⟨Json.skipSpace t₁, t₁, h₁, rfl, ?_⟩
  intro hnil
  obtain ⟨w', hw', hsplit⟩ := Json.skipSpace_split t₁
  rw [hnil, List.append_nil] at hsplit
  obtain ⟨b, hb, hb'⟩ := hplain
  have hspace := Frame.spaceBytes_of_spaces (hsplit ▸ hw') h₁ b hb
  rcases hspace with rfl | rfl | rfl | rfl <;> exact absurd hb' (by decide)

theorem beginning_lines {b : Bytes} {bs p q : List Bytes} {line : Bytes} {ls : List Bytes}
    (hlines : lines b = bs ++ line :: ls) (hadded : Added [] line) (hpq : line :: ls = p ++ q)
    (hp : p ≠ []) (hwhole : WholeLines p.flatten) :
    p.flatten.getLast? = some 0x0a ∧ ∃ d ∈ p.flatten, isBlankByte d = false := by
  obtain ⟨first, p, rfl⟩ := List.exists_cons_of_ne_nil hp
  obtain ⟨rfl, -⟩ := List.cons.inj hpq
  constructor
  · rcases hwhole with hnil | hlast
    · have hline : line ≠ [] := line_ne_nil (b := b) (by rw [hlines]; simp)
      simp [hline] at hnil
    · exact hlast
  · rcases hadded with hempty | ⟨d, hd, hplain⟩
    · exact absurd rfl hempty
    · exact ⟨d, by simp [hd], hplain⟩

theorem gather_message {M : Bytes} {v : Value} (h : Message M v) :
    ∃ frame, gather [] (lines M) = .complete frame [] ∧ Message frame v := by
  obtain ⟨bs, line, ls, hlines, hblank, hadded, hframe⟩ := message_lines h
  refine ⟨(line :: ls).flatten, ?_, hframe⟩
  rw [hlines, gather_append, gather_blank hblank, Gathering.goOn]
  refine gather_whole hadded ?_ (Frame.needsMore_message hframe)
  intro p q hpq hp hq
  -- A proper beginning of the message that ends with a line.
  have hsplit : lines M = (bs ++ p) ++ q := by rw [hlines, hpq, List.append_assoc]
  have hwhole : WholeLines p.flatten := by
    apply wholeLines_right (a := bs.flatten)
    rw [← List.flatten_append]
    exact lines_before hsplit hq
  obtain ⟨hlast, hplain⟩ := beginning_lines hlines hadded hpq hp hwhole
  have hnext : q.flatten ≠ [] := by
    obtain ⟨next, q, rfl⟩ := List.exists_cons_of_ne_nil hq
    have hne : next ≠ [] := line_ne_nil (b := M) (by rw [hsplit]; simp)
    simp [hne]
  rw [hpq, List.flatten_append] at hframe
  obtain ⟨w, d, ht, -, -⟩ := Frame.message_text.mp hframe
  obtain ⟨body, hbody⟩ := added_body hplain hlast ht
  exact Frame.needsMore_beginning hbody hlast hnext hframe

/-- The bytes of one reply: blank lines, white space, a document and a line feed. -/
def ReplyBytes (b : Bytes) (v : Value) : Prop :=
  ∃ B W D, b = B ++ W ++ D ++ [0x0a] ∧ BlankLines B ∧ SpaceBytes W ∧ DocumentBytes D v

theorem replyBytes_message {b : Bytes} {v : Value} :
    ReplyBytes b v ↔ ∃ B M, b = B ++ M ∧ BlankLines B ∧ Message M v := by
  constructor
  · rintro ⟨B, W, D, rfl, hB, hW, hD⟩
    exact ⟨B, W ++ D ++ [0x0a], by simp, hB, W, D, rfl, hW, hD⟩
  · rintro ⟨B, M, rfl, hB, W, D, rfl, hW, hD⟩
    exact ⟨B, W, D, by simp, hB, hW, hD⟩

/-- Reading stops right behind a reply and leaves everything else of the stream alone. -/
theorem readFrame_reply {s : Stream} {b R : Bytes} {v : Value} (h : ReplyBytes b v)
    (hs : s.incoming = b ++ R) :
    ∃ frame, readFrame s = (.ok frame, { s with incoming := R }) ∧
      Frame.decode frame = .ok v := by
  obtain ⟨B, M, rfl, hB, hM⟩ := replyBytes_message.mp h
  obtain ⟨frame, hgather, hframe⟩ := gather_message hM
  refine ⟨frame, ?_, Frame.decode_ok.mpr hframe⟩
  unfold readFrame
  rw [hs, List.append_assoc, lines_append hB.1, lines_append (message_whole hM), gather_append,
    gather_blankLines hB, Gathering.goOn, gather_append, hgather, Gathering.goOn, List.nil_append]
  simp only [lines_flatten]

theorem readFrame_ends {s : Stream} {frame : Bytes} {rest : List Bytes}
    (h : Ends (gather [] (lines s.incoming)) frame rest) :
    (readFrame s).2.incoming = rest.flatten ∧
      ∀ f, (readFrame s).1 = .ok f → f = frame := by
  unfold readFrame
  rcases h with ⟨hg, -⟩ | ⟨hg, rfl, -⟩ | ⟨digits, hg, -⟩
  · rw [hg]
    exact ⟨rfl, fun f hf => (Except.ok.inj hf).symm⟩
  · rw [hg]
    cases he : s.readError with
    | none => exact ⟨rfl, fun f hf => (Except.ok.inj hf).symm⟩
    | some e =>
      refine ⟨rfl, ?_⟩
      intro f hf
      cases hf
  · rw [hg]
    refine ⟨rfl, ?_⟩
    intro f hf
    cases hf

/-- A frame that was read and decodes is what stood between blank lines and the rest. -/
theorem readFrame_sound {s s' : Stream} {frame : Bytes} {v : Value}
    (h : readFrame s = (.ok frame, s')) (hv : Frame.decode frame = .ok v) :
    ∃ b, ReplyBytes b v ∧ s.incoming = b ++ s'.incoming := by
  rcases gather_split (lines s.incoming) with hnil | ⟨bs, ms, rest, hlines, hblank, hms, hends⟩
  · exfalso
    have hframe : frame = [] := by
      unfold readFrame at h
      rw [hnil] at h
      cases he : s.readError with
      | none =>
        simp only [he] at h
        cases h
        rfl
      | some e =>
        simp only [he] at h
        cases h
    rw [hframe] at hv
    cases hv
  · obtain ⟨hrest, hframe⟩ := readFrame_ends hends
    rw [h] at hrest hframe
    obtain rfl := hframe frame rfl
    have hB := blankLines_before hlines (by simp [hms]) hblank
    refine ⟨bs.flatten ++ ms.flatten, replyBytes_message.mpr ⟨_, _, rfl, hB,
      Frame.decode_ok.mp hv⟩, ?_⟩
    rw [hrest, ← lines_flatten s.incoming, hlines, List.flatten_append, List.flatten_append,
      List.append_assoc]

end Stream

namespace Client

open FileWatch.Stream (ReplyBytes)

def readTimes : Nat → Action (List Value)
  | 0 => pure []
  | n + 1 => do
    let v ← read
    let vs ← readTimes n
    pure (v :: vs)

/-- What a read changes besides the log: the reply is gone from the stream. -/
theorem read_reply {c : Client} {b R : Bytes} {v : Value} (hopen : c.isOpen = true)
    (h : ReplyBytes b v) (hc : c.stream.incoming = b ++ R) :
    ∃ frame, read.run c =
      .ok v (noted frame { c with stream := { c.stream with incoming := R } }) := by
  obtain ⟨frame, hread, hdecode⟩ := Stream.readFrame_reply h hc
  refine ⟨frame, ?_⟩
  rw [read_run hopen, hread]
  simp only [hdecode]

theorem read_sound {c c' : Client} {v : Value} (hopen : c.isOpen = true)
    (h : read.run c = .ok v c') :
    ∃ b, ReplyBytes b v ∧ c.stream.incoming = b ++ c'.stream.incoming := by
  rw [read_run hopen] at h
  cases hread : Stream.readFrame c.stream with
  | mk result s =>
    rw [hread] at h
    cases result with
    | error e => cases h
    | ok frame =>
      cases hdecode : Frame.decode frame with
      | error e =>
        simp only [hdecode] at h
        cases h
      | ok v' =>
        simp only [hdecode] at h
        cases h
        exact Stream.readFrame_sound hread hdecode

theorem readTimes_replies {replies : List (Bytes × Value)} {R : Bytes}
    (h : ∀ r ∈ replies, ReplyBytes r.1 r.2) {c : Client} (hopen : c.isOpen = true)
    (hc : c.stream.incoming = (replies.map Prod.fst).flatten ++ R) :
    ∃ c', (readTimes replies.length).run c = .ok (replies.map Prod.snd) c' ∧
      c'.stream.incoming = R := by
  induction replies generalizing c with
  | nil => exact ⟨c, rfl, hc⟩
  | cons r replies ih =>
    rw [List.map_cons, List.flatten_cons, List.append_assoc] at hc
    obtain ⟨frame, hread⟩ := read_reply hopen (h r (by simp)) hc
    obtain ⟨c', hrest, hR⟩ := ih (fun r' hr' => h r' (by simp [hr']))
      (c := noted frame { c with stream := { c.stream with incoming := _ } }) hopen rfl
    refine ⟨c', ?_, hR⟩
    rw [List.length_cons, readTimes, run_bind_ok hread, run_bind_ok hrest]
    rfl

/-- The language of the reader: a read of an open client gives `v` and leaves `R` exactly when the
stream is a reply that denotes `v` with `R` behind it, and on a stream of replies so many reads
give their values in order. -/
theorem reads_exactly_replies (c : Client) (hopen : c.isOpen = true) :
    (∀ v R, (∃ c', read.run c = .ok v c' ∧ c'.stream.incoming = R) ↔
      ∃ b, ReplyBytes b v ∧ c.stream.incoming = b ++ R) ∧
    ∀ (replies : List (Bytes × Value)) (R : Bytes), (∀ r ∈ replies, ReplyBytes r.1 r.2) →
      c.stream.incoming = (replies.map Prod.fst).flatten ++ R →
      ∃ c', (readTimes replies.length).run c = .ok (replies.map Prod.snd) c' ∧
        c'.stream.incoming = R := by
  constructor
  · intro v R
    constructor
    · rintro ⟨c', h, rfl⟩
      exact read_sound hopen h
    · rintro ⟨b, h, hc⟩
      obtain ⟨frame, hread⟩ := read_reply hopen h hc
      exact ⟨_, hread, rfl⟩
  · intro replies R h hc
    exact readTimes_replies h hopen hc

/-- A blank line, `[1,` with `2]` on the line behind it, and `true`. -/
theorem reads_two_replies :
    ∃ c', (readTimes 2).run { isOpen := true, stream := { incoming :=
        [0x20, 0x0a, 0x5b, 0x31, 0x2c, 0x0a, 0x20, 0x32, 0x5d, 0x0a, 0x74, 0x72, 0x75, 0x65,
          0x0a] } } =
      .ok [.list [.int 1, .int 2], .bool true] c' ∧ c'.stream.incoming = [] := by
  have blank : Stream.BlankLines [0x20, 0x0a] := ⟨Or.inr rfl, List.all_eq_true.mp rfl⟩
  have list : ReplyBytes [0x20, 0x0a, 0x5b, 0x31, 0x2c, 0x0a, 0x20, 0x32, 0x5d, 0x0a]
      (.list [.int 1, .int 2]) :=
    Stream.replyBytes_message.mpr ⟨[0x20, 0x0a], [0x5b, 0x31, 0x2c, 0x0a, 0x20, 0x32, 0x5d, 0x0a],
      rfl, blank, Frame.decode_ok.mp rfl⟩
  have word : ReplyBytes [0x74, 0x72, 0x75, 0x65, 0x0a] (.bool true) :=
    Stream.replyBytes_message.mpr ⟨[], _, rfl, ⟨Or.inl rfl, by simp⟩, Frame.decode_ok.mp rfl⟩
  refine (reads_exactly_replies _ rfl).2
    [([0x20, 0x0a, 0x5b, 0x31, 0x2c, 0x0a, 0x20, 0x32, 0x5d, 0x0a], .list [.int 1, .int 2]),
      ([0x74, 0x72, 0x75, 0x65, 0x0a], .bool true)] [] ?_ rfl
  intro r hr
  rcases List.mem_cons.mp hr with rfl | hr
  · exact list
  · obtain rfl := List.mem_singleton.mp hr
    exact word

end Client

end FileWatch
