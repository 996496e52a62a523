import FileWatch.Proofs.Json.Faults
import FileWatch.Proofs.Reader
/-!
Frames that no message goes on from. The reader stops in such a frame, unless the fault of its
document stands in front of white space that the document does not take: then the fault passes for
the end of the frame, and the lines that follow are read as well.
-/

namespace FileWatch

open Utf8 (Encodes)
open Json (isSpace)

namespace Frame

/-- The fault of the frame's document stands in front of nothing but white space, and is a control
character inside a string or a kind of white space that documents lack. -/
def Slip (frame : Bytes) : Prop :=
  ∃ body fault c rest, Body frame body ∧
    Json.document body = .error (.malformed fault (c :: rest)) ∧
    Text.isBlank (c :: rest) = true ∧ (fault = .controlCharacter ∨ isSpace c = false)

def Dead (frame : Bytes) : Prop := ∀ c v, decode (frame ++ c) ≠ .ok v

theorem slip_needsMore {frame : Bytes} (h : Slip frame) : needsMore frame = .ok true := by
  obtain ⟨body, fault, c, rest, hbody, hdoc, hblank, -⟩ := h
  rw [needsMore_body hbody, hdoc]
  simp only [hblank]

theorem slip_dead {frame : Bytes} (hframe : frame.getLast? = some 0x0a) (h : Slip frame) :
    Dead frame := by
  obtain ⟨body, fault, c, rest, hbody, hdoc, -, -⟩ := h
  intro more v hmore
  obtain ⟨d, hwhole, hmessage⟩ := message_body (decode_ok.mp hmore)
  obtain ⟨u, -, hsplit⟩ := body_append hbody hframe hwhole
  have hread := document_line hmessage []
  rw [hsplit] at hread
  rcases Json.document_stable (body_ended hbody hframe) u with ⟨fault', hstarved⟩ | hfinal
  · rw [hdoc] at hstarved
    cases hstarved
  · rw [hdoc, hread] at hfinal
    cases hfinal

theorem starved_message {frame : Bytes} {body : Text} (hbody : Body frame body)
    (h : Json.Starved (Json.document body)) : ∃ c v, decode (frame ++ c) = .ok v := by
  obtain ⟨t, ht, rfl, -⟩ := hbody
  obtain ⟨u, v, hu, hdoc⟩ := Json.document_completes h
  obtain ⟨w, hw, hsplit⟩ := Json.skipSpace_split t
  refine ⟨u.flatMap Utf8.encodePoint ++ [0x0a], v, decode_ok.mpr (message_text.mpr ?_)⟩
  refine ⟨w, Json.skipSpace t ++ u, ?_, hw, hdoc⟩
  have hend : Encodes (['\n'] : Text) [0x0a] := Utf8.encodes_cons (by decide) Utf8.encodes_nil
  have whole := Utf8.encodes_append ht (Utf8.encodes_append ⟨hu, rfl⟩ hend)
  rwa [hsplit, List.append_assoc, ← List.append_assoc (Json.skipSpace t)] at whole

theorem body_trimmed {frame : Bytes} {body : Text} (h : Body frame body) : Json.Trimmed body := by
  obtain ⟨t, -, rfl, -⟩ := h
  exact Json.trimmed_skipSpace t

/-- The frames that ask for more and cannot be completed are those whose fault is a slip. -/
theorem slip_iff {frame : Bytes} (hframe : Stream.WholeLines frame) :
    needsMore frame = .ok true ∧ Dead frame ↔ Slip frame := by
  constructor
  · rintro ⟨hmore, hdead⟩
    obtain ⟨body, fault, rest, hbody, hdoc, hblank⟩ := needsMore_true hmore
    rcases Json.document_placed (body_trimmed hbody) fault rest hdoc with rfl | hmisread
    · obtain ⟨c, v, hdecode⟩ := starved_message hbody ⟨fault, hdoc⟩
      exact absurd hdecode (hdead c v)
    · obtain ⟨c, more, rfl, hkind⟩ := hmisread
      exact ⟨body, fault, c, more, hbody, hdoc, hblank, hkind⟩
  · intro h
    refine ⟨slip_needsMore h, ?_⟩
    rcases hframe with rfl | hlast
    · obtain ⟨body, -, -, -, ⟨t, ht, rfl, hne⟩, -⟩ := h
      exfalso
      have hnil : t = [] := by
        have hread := Utf8.decode_ok.mpr ht
        exact (Except.ok.inj hread).symm
      rw [hnil] at hne
      exact hne rfl
    · exact slip_dead hlast h

theorem slip_beginning {frame c : Bytes} {body : Text} (hbody : Body frame body)
    (hframe : frame.getLast? = some 0x0a) (h : Slip (frame ++ c)) :
    needsMore frame = .ok true := by
  obtain ⟨whole, fault, d, rest, hwhole, hdoc, hblank, -⟩ := h
  obtain ⟨u, -, rfl⟩ := body_append hbody hframe hwhole
  rw [needsMore_body hbody]
  rcases Json.document_stable (body_ended hbody hframe) u with ⟨fault', hstarved⟩ | hfinal
  · rw [hstarved]
    rfl
  · rw [hdoc] at hfinal
    rcases hread : Json.document body with (⟨fault', rest'⟩ | digits) | ⟨v, rest'⟩
    · rw [hread] at hfinal
      have hrest : d :: rest = rest' ++ u :=
        (Json.DecodeError.malformed.inj (Except.error.inj hfinal)).2
      rw [hrest, Text.isBlank, List.all_append, Bool.and_eq_true] at hblank
      simp only [Text.isBlank, hblank.1]
    · rw [hread] at hfinal
      cases hfinal
    · rw [hread] at hfinal
      cases hfinal

end Frame

namespace Stream

open FileWatch.Frame (Slip Dead)

theorem readFrame_within {s : Stream} {B f after : Bytes} {line : Bytes} {ls : List Bytes}
    (hB : BlankLines B) (hf : WholeLines f) (hfirst : lines f = line :: ls)
    (hs : s.incoming = B ++ (f ++ after)) :
    gather [] (lines s.incoming) = (gather [] (line :: ls)).goOn (lines after) := by
  rw [hs, lines_append hB.1, lines_append hf, gather_append, gather_blankLines hB, Gathering.goOn,
    gather_append, hfirst]

theorem slip_beginnings {f : Bytes} {line : Bytes} {ls : List Bytes} (hf : WholeLines f)
    (hfirst : lines f = line :: ls) (hadded : Added [] line) (h : Slip f) {p q : List Bytes}
    (hpq : line :: ls = p ++ q) (hp : p ≠ []) : Frame.needsMore p.flatten = .ok true := by
  have hlines : lines f = [] ++ line :: ls := hfirst
  have hwhole := lines_whole hf (hfirst.trans hpq)
  obtain ⟨hlast, hplain⟩ := beginning_lines hlines hadded hpq hp hwhole
  have hsplit : f = p.flatten ++ q.flatten := by
    rw [← lines_flatten f, hfirst, hpq, List.flatten_append]
  rw [hsplit] at h
  obtain ⟨whole, fault, d, rest, ⟨t, ht, hrest⟩, hdoc⟩ := id h
  obtain ⟨body, hbody⟩ := added_body hplain hlast ht
  exact Frame.slip_beginning hbody hlast h

/-- A frame with a slip is gone through to its end and goes on with the lines behind it. -/
theorem gather_slip {s : Stream} {B f after : Bytes} {line : Bytes} {ls : List Bytes}
    (hB : BlankLines B) (hf : WholeLines f) (hfirst : lines f = line :: ls)
    (hadded : Added [] line) (hs : s.incoming = B ++ (f ++ after)) (h : Slip f) :
    gather [] (lines s.incoming) = gather f (lines after) := by
  have hall : ∀ p q, line :: ls = p ++ q → p ≠ [] →
      Frame.needsMore ([] ++ p.flatten) = .ok true :=
    fun p q hpq hp => slip_beginnings hf hfirst hadded h hpq hp
  have hflat : (line :: ls).flatten = f := by rw [← hfirst, lines_flatten]
  have hgone := gather_more [] hadded hall
  rw [List.append_nil, List.nil_append, hflat] at hgone
  rw [readFrame_within hB hf hfirst hs, hgone]
  rfl

theorem readFrame_takes {s : Stream} {f after : Bytes} (hf : f ≠ [])
    (hgather : gather [] (lines s.incoming) = gather f (lines after)) (hafter : after ≠ []) :
    (readFrame s).2.incoming.length < after.length := by
  cases hlines : lines after with
  | nil => exact absurd (lines_nil hlines) hafter
  | cons next others =>
    rw [hlines] at hgather
    obtain ⟨ms, rest, hsplit, hms, hends⟩ := gather_ends others (Or.inl hf : Added f next)
    rw [← hgather] at hends
    have hleft : after = ms.flatten ++ rest.flatten := by
      rw [← lines_flatten after, hlines, hsplit, List.flatten_append]
    obtain ⟨first, ms, rfl⟩ := List.exists_cons_of_ne_nil hms
    have hfirst : first ≠ [] := line_ne_nil (b := after) (by rw [hlines, hsplit]; simp)
    have hlength := List.length_pos_iff.mpr hfirst
    rw [(readFrame_ends hends).1, hleft]
    simp only [List.flatten_cons, List.length_append]
    omega

theorem readFrame_slip {s : Stream} {B f after : Bytes} {line : Bytes} {ls : List Bytes}
    (hB : BlankLines B) (hf : WholeLines f) (hfirst : lines f = line :: ls)
    (hadded : Added [] line) (hs : s.incoming = B ++ (f ++ after))
    (hmore : after ≠ [] ∨ s.readError ≠ none) (h : Slip f) (Q : Bytes) :
    (readFrame s).2 ≠ { s with incoming := Q ++ after } := by
  have hgather := gather_slip hB hf hfirst hadded hs h
  intro hleft
  by_cases hafter : after = []
  · rcases hmore with hne | he
    · exact hne hafter
    · obtain ⟨e, herror⟩ := Option.ne_none_iff_exists'.mp he
      rw [hafter] at hgather
      unfold readFrame at hleft
      rw [hgather, lines, gather] at hleft
      simp only [herror] at hleft
      have hnone := congrArg Stream.readError hleft
      simp at hnone
  · have hne : f ≠ [] := by
      rintro rfl
      cases hfirst
    have htakes := readFrame_takes hne hgather hafter
    rw [hleft] at htakes
    simp only [List.length_append] at htakes
    omega

/-- A dead frame without a slip ends the reading within its lines. -/
theorem readFrame_stops {s : Stream} {B f after : Bytes} {line : Bytes} {ls : List Bytes}
    (hB : BlankLines B) (hf : WholeLines f) (hfirst : lines f = line :: ls)
    (hadded : Added [] line) (hs : s.incoming = B ++ (f ++ after)) (hdead : Dead f)
    (h : ¬ Slip f) :
    ∃ P Q, f = P ++ Q ∧ WholeLines P ∧
      (readFrame s = (.ok P, { s with incoming := Q ++ after }) ∧
          Frame.needsMore P = .ok false ∨
        ∃ digits, readFrame s = (.error (.longInteger digits), { s with incoming := Q ++ after }) ∧
          Frame.needsMore P = .error digits) := by
  obtain ⟨ms, rest, hsplit, -, hends⟩ := gather_ends ls hadded
  have hgather := readFrame_within hB hf hfirst hs
  have hflat : f = ms.flatten ++ rest.flatten := by
    rw [← lines_flatten f, hfirst, hsplit, List.flatten_append]
  have hleft : (rest ++ lines after).flatten = rest.flatten ++ after := by
    rw [List.flatten_append, lines_flatten]
  refine ⟨ms.flatten, rest.flatten, hflat, lines_whole hf (hfirst.trans hsplit), ?_⟩
  rw [List.nil_append] at hends
  rcases hends with ⟨hg, hneed⟩ | ⟨-, rfl, hneed⟩ | ⟨digits, hg, hneed⟩
  · refine Or.inl ⟨?_, hneed⟩
    unfold readFrame
    rw [hgather, hg, Gathering.goOn]
    simp only [hleft]
  · -- The whole frame asks for more, although it is dead.
    rw [List.flatten_nil, List.append_nil] at hflat
    rw [← hflat] at hneed
    exact absurd ((Frame.slip_iff hf).mp ⟨hneed, hdead⟩) h
  · refine Or.inr ⟨digits, ?_, hneed⟩
    unfold readFrame
    rw [hgather, hg, Gathering.goOn]
    simp only [hleft]

end Stream

namespace Client

open FileWatch.Frame (Slip Dead)
open FileWatch.Stream (WholeLines BlankLines)

/-- The client in which a run ends, whether it returns or fails. -/
def left {α : Type} : EStateM.Result Failure Client α → Client
  | .ok _ c => c
  | .error _ c => c

theorem left_read {c : Client} (hopen : c.isOpen = true) :
    (left (read.run c)).stream = (Stream.readFrame c.stream).2 := by
  rw [read_run hopen]
  rcases Stream.readFrame c.stream with ⟨e | frame, s⟩
  · rfl
  · dsimp only
    cases Frame.decode frame <;> rfl

def Rejected {α : Type} (r : EStateM.Result Failure Client α) : Prop :=
  ∃ e c, r = .error e c ∧ (e.category? = some .parse ∨ e.category? = some .framing)

def Settles (r : EStateM.Result Failure Client Value) (frame : Bytes) : Prop :=
  (∃ v c, Frame.decode frame = .ok v ∧ r = .ok v c) ∨
    (∃ digits c, Frame.needsMore frame = .error digits ∧ r = .error (.longInteger digits) c) ∨
    Rejected r

theorem read_settles {c : Client} (hopen : c.isOpen = true) {frame : Bytes} {s : Stream}
    (hread : Stream.readFrame c.stream = (.ok frame, s))
    (hneed : Frame.needsMore frame = .ok false) : Settles (read.run c) frame := by
  rw [read_run hopen, hread]
  cases hdecode : Frame.decode frame with
  | ok v =>
    simp only [hdecode]
    exact Or.inl ⟨v, _, hdecode, rfl⟩
  | error e =>
    simp only [hdecode]
    refine Or.inr (Or.inr ⟨.frame e, _, rfl, ?_⟩)
    cases e with
    | utf8 e => exact Or.inl rfl
    | blank => exact Or.inl rfl
    | malformed fault whole rest => exact Or.inl rfl
    | noNewline => exact Or.inr rfl
    | trailingData => exact Or.inr rfl
    | longInteger digits =>
      rw [Frame.needsMore_longInteger hdecode] at hneed
      cases hneed

/-- Which frames ask for more although no message goes on from them, and what that does to the
reader: with such a slip in its first lines it goes past them, and without one it stops within them.
There it fails over what it has read, unless that is a reply or holds an integer that is too
long. -/
theorem dead_frames_overrun_exactly_at_slips (c : Client) (hopen : c.isOpen = true) :
    (∀ frame, WholeLines frame → (Frame.needsMore frame = .ok true ∧ Dead frame ↔ Slip frame)) ∧
    ∀ (B f after line : Bytes) (ls : List Bytes), c.stream.incoming = B ++ (f ++ after) →
      BlankLines B → WholeLines f → Stream.lines f = line :: ls →
      (∃ d ∈ line, isBlankByte d = false) → Dead f →
      (after ≠ [] ∨ c.stream.readError ≠ none) →
      ((∃ Q, (left (read.run c)).stream = { c.stream with incoming := Q ++ after }) ↔ ¬ Slip f) ∧
      (¬ Slip f → ∃ P Q, f = P ++ Q ∧ WholeLines P ∧
        (left (read.run c)).stream = { c.stream with incoming := Q ++ after } ∧
        Settles (read.run c) P) := by
  refine ⟨fun frame hframe => Frame.slip_iff hframe, ?_⟩
  intro B f after line ls hc hB hf hfirst hplain hdead hmore
  have hadded : Stream.Added [] line := Or.inr hplain
  have hstops : ¬ Slip f → ∃ P Q, f = P ++ Q ∧ WholeLines P ∧
      (left (read.run c)).stream = { c.stream with incoming := Q ++ after } ∧
      Settles (read.run c) P := by
    intro hslip
    obtain ⟨P, Q, hsplit, hP, hread⟩ := Stream.readFrame_stops hB hf hfirst hadded hc hdead hslip
    refine ⟨P, Q, hsplit, hP, ?_⟩
    rw [left_read hopen]
    rcases hread with ⟨hread, hneed⟩ | ⟨digits, hread, hneed⟩
    · exact ⟨by rw [hread], read_settles hopen hread hneed⟩
    · rw [read_run hopen, hread]
      exact ⟨rfl, Or.inr (Or.inl ⟨digits, _, hneed, rfl⟩)⟩
  refine ⟨⟨?_, ?_⟩, hstops⟩
  · rintro ⟨Q, hleft⟩ hslip
    rw [left_read hopen] at hleft
    exact Stream.readFrame_slip hB hf hfirst hadded hc hmore hslip Q hleft
  · intro hslip
    obtain ⟨P, Q, -, -, hleft, -⟩ := hstops hslip
    exact ⟨Q, hleft⟩

/-- A string that is still open where its line ends. -/
theorem open_string_slip : Slip [0x22, 0x61, 0x62, 0x63, 0x0a] :=
  ⟨_, .controlCharacter, '\n', [], ⟨_, Utf8.decode_ok.mp rfl, rfl, List.cons_ne_nil _ _⟩, rfl, rfl,
    Or.inl rfl⟩

theorem open_string_asks_for_more :
    Frame.needsMore [0x22, 0x61, 0x62, 0x63, 0x0a] = .ok true ∧
      ∀ c v, Frame.decode ([0x22, 0x61, 0x62, 0x63, 0x0a] ++ c) ≠ .ok v :=
  (Frame.slip_iff (Or.inr rfl)).mpr open_string_slip

/-- Behind an open string the reply of the next line is swallowed. -/
theorem open_string_swallows_next_reply :
    ¬ ∃ Q, (left (read.run
        { isOpen := true
          stream := { incoming := [0x22, 0x61, 0x62, 0x63, 0x0a, 0x31, 0x0a] } })).stream =
      { incoming := Q ++ [0x31, 0x0a] } := by
  have hdead : Dead [0x22, 0x61, 0x62, 0x63, 0x0a] :=
    ((Frame.slip_iff (Or.inr rfl)).mpr open_string_slip).2
  have hplain : ∃ d ∈ ([0x22, 0x61, 0x62, 0x63, 0x0a] : Bytes), isBlankByte d = false :=
    ⟨0x22, by simp, by decide⟩
  have hblank : BlankLines [] := ⟨Or.inl rfl, by simp⟩
  have hread := (dead_frames_overrun_exactly_at_slips
    { isOpen := true, stream := { incoming := [0x22, 0x61, 0x62, 0x63, 0x0a, 0x31, 0x0a] } } rfl).2
    [] [0x22, 0x61, 0x62, 0x63, 0x0a] [0x31, 0x0a] _ [] rfl hblank (Or.inr rfl) rfl hplain hdead
    (Or.inl (by simp))
  exact fun hleft => hread.1.mp hleft open_string_slip

end Client

end FileWatch
