import FileWatch.Proofs.Json.Overlong
import FileWatch.Proofs.Requests
/-!
Failures of the reply side. Whatever the daemon sends, a read returns a value or fails within the
client's categories, unless the first document of the stream is overlong: that failure belongs to
none. The same holds of the calls and of the discovery command's output, where besides the run of
the command itself can break off.
-/

namespace FileWatch

open FileWatch.Json (Overlong Decoded Serializable)

namespace Frame

theorem needsMore_error {frame : Bytes} {n : Nat} :
    needsMore frame = .error n ↔ ∃ body, Body frame body ∧ Overlong n .value body := by
  constructor
  · intro h
    have hframe := h
    unfold needsMore at h
    cases ht : Utf8.decode frame with
    | error e => simp [ht] at h
    | ok t =>
      simp only [ht] at h
      split_ifs at h with hempty
      have hbody : Body frame (Json.skipSpace t) :=
        ⟨t, Utf8.decode_ok.mp ht, rfl, by simpa using hempty⟩
      rw [needsMore_body hbody] at hframe
      refine ⟨_, hbody, Json.document_overlong.mp ?_⟩
      rcases hdoc : Json.document (Json.skipSpace t) with (⟨fault, rest⟩ | digits) | p
      · simp [hdoc] at hframe
      · simp only [hdoc, Except.error.injEq] at hframe
        rw [hframe]
      · simp [hdoc] at hframe
  · rintro ⟨body, hbody, h⟩
    rw [needsMore_body hbody, Json.document_overlong.mpr h]

/-- Each beginning of an overlong frame that ends with a line asks for more, or is overlong in the
same place. -/
theorem overlong_beginning {frame c : Bytes} {body : Text} {n : Nat} (hbody : Body frame body)
    (hframe : frame.getLast? = some 0x0a) (h : needsMore (frame ++ c) = .error n) :
    needsMore frame = .ok true ∨ needsMore frame = .error n := by
  obtain ⟨whole, hwhole, hoverlong⟩ := needsMore_error.mp h
  obtain ⟨u, -, rfl⟩ := body_append hbody hframe hwhole
  rw [needsMore_body hbody]
  rcases Json.document_stable (body_ended hbody hframe) u with ⟨fault, hstarved⟩ | hfinal
  · rw [hstarved]
    exact Or.inl rfl
  · rw [Json.document_overlong.mpr hoverlong] at hfinal
    rcases hread : Json.document body with (⟨fault, rest⟩ | digits) | ⟨v, rest⟩
    · rw [hread] at hfinal
      cases hfinal
    · rw [hread] at hfinal
      cases hfinal
      exact Or.inr rfl
    · rw [hread] at hfinal
      cases hfinal

end Frame

namespace Stream

def Opens (b : Bytes) : Prop := ∃ line ls, lines b = line :: ls ∧ Added [] line

theorem opens_cons {d : UInt8} (h : isBlankByte d = false) (b : Bytes) : Opens (d :: b) := by
  have hd : d ≠ 0x0a := by
    rintro rfl
    exact absurd h (by decide)
  unfold Opens
  rw [lines, if_neg hd]
  cases lines b with
  | nil => exact ⟨[d], [], rfl, Or.inr ⟨d, by simp, h⟩⟩
  | cons line others => exact ⟨d :: line, others, rfl, Or.inr ⟨d, by simp, h⟩⟩

/-- Behind blank lines the stream goes on with lines whose document has an integer of `n` digits,
over the limit, with everything in front of it well-formed. Only the last of the stream's lines can
lack its line feed. -/
def OverlongAhead (n : Nat) (b : Bytes) : Prop :=
  ∃ B P Q, b = B ++ (P ++ Q) ∧ BlankLines B ∧ Opens P ∧ (WholeLines P ∨ Q = []) ∧
    ∃ body, Frame.Body P body ∧ Overlong n .value body

theorem nothing_behind {p r : List Bytes} (hr : ∀ line ∈ r, line ≠ [])
    (h : (p ++ r).flatten = p.flatten) : r = [] := by
  have hflat : r.flatten = [] := by simpa using h
  cases r with
  | nil => rfl
  | cons line r => exact absurd (List.append_eq_nil_iff.mp hflat).1 (hr line (by simp))

theorem lines_front {b : Bytes} {p q : List Bytes} (h : lines b = p ++ q) :
    lines p.flatten = p := by
  by_cases hq : q = []
  · rw [hq, List.append_nil] at h
    rw [← h, lines_flatten]
  · have hb : b = p.flatten ++ q.flatten := by rw [← List.flatten_append, ← h, lines_flatten]
    have hlines : lines b = lines p.flatten ++ lines q.flatten := by
      rw [← lines_append (lines_before h hq), ← hb]
    have hflat := lines_flatten p.flatten
    rw [h] at hlines
    rcases List.append_eq_append_iff.mp hlines with ⟨r, hp, -⟩ | ⟨r, hp, -⟩
    · have hr : ∀ line ∈ r, line ≠ [] := by
        intro line hline
        exact line_ne_nil (b := p.flatten) (by rw [hp]; simp [hline])
      have hnil := nothing_behind (p := p) hr (by rw [← hp, hflat])
      rw [hp, hnil, List.append_nil]
    · have hr : ∀ line ∈ r, line ≠ [] := by
        intro line hline
        exact line_ne_nil (b := b) (by rw [h, hp]; simp [hline])
      have hnil := nothing_behind (p := lines p.flatten) hr (by rw [← hp, hflat])
      rw [hnil, List.append_nil] at hp
      exact hp.symm

theorem gather_opened {P line : Bytes} {ls : List Bytes} {n : Nat} (hlines : lines P = line :: ls)
    (hadded : Added [] line) (h : Frame.needsMore P = .error n) :
    ∃ rest, gather [] (line :: ls) = .overlong n rest := by
  obtain ⟨ms, rest, hsplit, hms, hends⟩ := gather_ends ls hadded
  have hP : P = ms.flatten ++ rest.flatten := by
    rw [← lines_flatten P, hlines, hsplit, List.flatten_append]
  have hneed : Frame.needsMore ms.flatten = .ok true ∧ rest ≠ [] ∨
      Frame.needsMore ms.flatten = .error n := by
    by_cases hrest : rest = []
    · rw [hrest, List.flatten_nil, List.append_nil] at hP
      exact Or.inr (hP ▸ h)
    · have hwhole := lines_before (hlines.trans hsplit) hrest
      have hfront : lines P = [] ++ line :: ls := hlines
      obtain ⟨hlast, hplain⟩ := beginning_lines hfront hadded hsplit hms hwhole
      rw [hP] at h
      obtain ⟨_, ⟨t, ht, -⟩, -⟩ := Frame.needsMore_error.mp h
      obtain ⟨body, hbody⟩ := added_body hplain hlast ht
      rcases Frame.overlong_beginning hbody hlast h with hmore | herror
      · exact Or.inl ⟨hmore, hrest⟩
      · exact Or.inr herror
  rw [List.nil_append] at hends
  rcases hends with ⟨-, hdone⟩ | ⟨-, hnil, hmore⟩ | ⟨digits, hg, herror⟩
  · rcases hneed with ⟨hmore, -⟩ | herror
    · rw [hdone] at hmore
      cases hmore
    · rw [hdone] at herror
      cases herror
  · rcases hneed with ⟨-, hrest⟩ | herror
    · exact absurd hnil hrest
    · rw [hmore] at herror
      cases herror
  · rcases hneed with ⟨hmore, -⟩ | herror'
    · rw [herror] at hmore
      cases hmore
    · rw [herror] at herror'
      cases herror'
      exact ⟨rest, hg⟩

/-- Gathering gives up for an integer's digits exactly where the first document is overlong. -/
theorem gather_overlong {n : Nat} {b : Bytes} :
    (∃ rest, gather [] (lines b) = .overlong n rest) ↔ OverlongAhead n b := by
  constructor
  · rintro ⟨left, h⟩
    obtain ⟨bs, tail, hlines, hblank, htail⟩ := blank_split (lines b)
    rw [hlines, gather_append, gather_blank hblank, Gathering.goOn] at h
    cases tail with
    | nil => cases h
    | cons line ls =>
      have hadded := htail line ls rfl
      have hB := blankLines_before hlines (by simp) hblank
      obtain ⟨ms, rest, hsplit, hms, hends⟩ := gather_ends ls hadded
      have hb : b = bs.flatten ++ (ms.flatten ++ rest.flatten) := by
        rw [← List.flatten_append, ← hsplit, ← List.flatten_append, ← hlines, lines_flatten]
      -- The lines behind the blank ones are those of the bytes behind them.
      have htaken : lines (ms.flatten ++ rest.flatten) = ms ++ rest := by
        have hall := lines_append hB.1 (ms.flatten ++ rest.flatten)
        rw [← hb, hlines, lines_front hlines, hsplit] at hall
        exact (List.append_cancel_left hall).symm
      have hopens : Opens ms.flatten := by
        obtain ⟨first, ms, rfl⟩ := List.exists_cons_of_ne_nil hms
        obtain ⟨rfl, -⟩ := List.cons.inj hsplit
        exact ⟨line, ms, lines_front htaken, hadded⟩
      refine ⟨_, _, _, hb, hB, hopens, ?_, Frame.needsMore_error.mp ?_⟩
      · by_cases hrest : rest = []
        · exact Or.inr (by rw [hrest]; rfl)
        · exact Or.inl (lines_before htaken hrest)
      · rw [h] at hends
        rcases hends with ⟨hg, -⟩ | ⟨hg, -, -⟩ | ⟨digits, hg, hneed⟩
        · cases hg
        · cases hg
        · cases hg
          exact hneed
  · rintro ⟨B, P, Q, rfl, hB, ⟨line, ls, hlines, hadded⟩, hends, hbody⟩
    obtain ⟨rest, hg⟩ := gather_opened hlines hadded (Frame.needsMore_error.mpr hbody)
    have hsplit : lines (P ++ Q) = lines P ++ lines Q := by
      rcases hends with hwhole | rfl
      · exact lines_append hwhole Q
      · simp [lines]
    refine ⟨rest ++ lines Q, ?_⟩
    rw [lines_append hB.1, gather_append, gather_blankLines hB, Gathering.goOn, hsplit,
      gather_append, hlines, hg]
    rfl

theorem readFrame_decodes {s s' : Stream} {frame : Bytes} (h : readFrame s = (.ok frame, s'))
    (n : Nat) : Frame.decode frame ≠ .error (.longInteger n) := by
  intro hdecode
  have hneed := Frame.needsMore_longInteger hdecode
  rcases gather_split (lines s.incoming) with hnil | ⟨bs, ms, rest, -, -, -, hends⟩
  · have hframe : frame = [] := by
      unfold readFrame at h
      rw [hnil] at h
      cases he : s.readError with
      | none =>
        simp only [he] at h
        cases h
        rfl
      | some e =>
        simp only [he] at h
        cases h
    rw [hframe] at hdecode
    cases hdecode
  · obtain ⟨-, hframe⟩ := readFrame_ends hends
    rw [h] at hframe
    obtain rfl := hframe frame rfl
    rcases hends with ⟨-, hdone⟩ | ⟨-, -, hmore⟩ | ⟨digits, hg, -⟩
    · rw [hneed] at hdone
      cases hdone
    · rw [hneed] at hmore
      cases hmore
    · unfold readFrame at h
      rw [hg] at h
      cases h

end Stream

namespace Client

open FileWatch.Stream (OverlongAhead)

variable {α β : Type}

/-! Reading. -/

inductive Receiving (c : Client) : Except Failure Value × Client → Prop where
  | closed : c.isOpen = false → Receiving c (.error .closed, c)
  | overlong {n c'} : c.isOpen = true → OverlongAhead n c.stream.incoming →
      Receiving c (.error (.longInteger n), c')
  | failed {e c'} : c.isOpen = true → (∀ n, ¬ OverlongAhead n c.stream.incoming) →
      c.stream.readError = some e → Receiving c (.error (.read e), c')
  | rejected {e c'} : c.isOpen = true → (∀ n, ¬ OverlongAhead n c.stream.incoming) →
      (Failure.frame e).category? = some .parse ∨ (Failure.frame e).category? = some .framing →
      Receiving c (.error (.frame e), c')
  | returned {v c'} : c.isOpen = true → (∀ n, ¬ OverlongAhead n c.stream.incoming) →
      Decoded v → Receiving c (.ok v, c')

theorem frame_category {e : Frame.DecodeError} (h : ∀ n, e ≠ .longInteger n) :
    (Failure.frame e).category? = some .parse ∨ (Failure.frame e).category? = some .framing := by
  cases e with
  | utf8 | blank | malformed => exact Or.inl rfl
  | noNewline | trailingData => exact Or.inr rfl
  | longInteger n => exact absurd rfl (h n)

theorem decode_decoded {frame : Bytes} {v : Value} (h : Frame.decode frame = .ok v) :
    Decoded v := by
  obtain ⟨W, D, -, -, d, -, hdoc⟩ := Frame.decode_ok.mp h
  exact Json.document_decoded hdoc

theorem readFrame_error {s s' : Stream} {e : Stream.ReadError}
    (h : Stream.readFrame s = (.error e, s')) :
    (∃ n, e = .longInteger n ∧ OverlongAhead n s.incoming) ∨
      ∃ error, e = .os error ∧ s.readError = some error ∧ ∀ n, ¬ OverlongAhead n s.incoming := by
  unfold Stream.readFrame at h
  cases hg : Stream.gather [] (Stream.lines s.incoming) with
  | complete frame rest =>
    rw [hg] at h
    cases h
  | overlong n rest =>
    rw [hg] at h
    cases h
    exact Or.inl ⟨n, rfl, Stream.gather_overlong.mp ⟨rest, hg⟩⟩
  | exhausted frame =>
    rw [hg] at h
    cases herror : s.readError with
    | none =>
      simp only [herror] at h
      cases h
    | some error =>
      simp only [herror] at h
      cases h
      refine Or.inr ⟨error, rfl, rfl, ?_⟩
      intro n hn
      obtain ⟨rest, hrest⟩ := Stream.gather_overlong.mpr hn
      rw [hg] at hrest
      cases hrest

theorem readFrame_ok {s s' : Stream} {frame : Bytes} (h : Stream.readFrame s = (.ok frame, s'))
    (n : Nat) : ¬ OverlongAhead n s.incoming := by
  intro hn
  obtain ⟨rest, hrest⟩ := Stream.gather_overlong.mpr hn
  unfold Stream.readFrame at h
  rw [hrest] at h
  cases h

theorem read_ends (c : Client) : Receiving c (settle read c) := by
  cases hopen : c.isOpen with
  | false =>
    rw [read_closed hopen]
    exact .closed hopen
  | true =>
    rw [settle, read_run hopen]
    rcases hread : Stream.readFrame c.stream with ⟨e | frame, s⟩
    · rcases readFrame_error hread with ⟨n, rfl, hn⟩ | ⟨error, rfl, herror, hnone⟩
      · exact .overlong hopen hn
      · exact .failed hopen hnone herror
    · have hnone := readFrame_ok hread
      dsimp only
      cases hdecode : Frame.decode frame with
      | ok v => exact .returned hopen hnone (decode_decoded hdecode)
      | error e =>
        refine .rejected hopen hnone (frame_category ?_)
        rintro n rfl
        exact Stream.readFrame_decodes hread n hdecode

/-- A read without a category of failure: the first document of the stream is overlong. -/
theorem read_uncategorized (c : Client) :
    (∃ e, (settle read c).1 = .error e ∧ e.category? = none) ↔
      c.isOpen = true ∧ ∃ n, OverlongAhead n c.stream.incoming := by
  have hends := read_ends c
  rcases hsettle : settle read c with ⟨r, c'⟩
  rw [hsettle] at hends
  constructor
  · rintro ⟨e, he, hnone⟩
    obtain rfl : r = .error e := he
    cases hends with
    | overlong hopen hn => exact ⟨hopen, _, hn⟩
    | closed | failed => cases hnone
    | rejected _ _ hcategory => rcases hcategory with h | h <;> · rw [h] at hnone; cases hnone
  · rintro ⟨hopen, n, hn⟩
    cases hends with
    | @overlong n' _ _ hn' => exact ⟨.longInteger n', rfl, rfl⟩
    | closed hclosed => exact absurd (hopen.symm.trans hclosed) (by decide)
    | failed _ hnone | rejected _ hnone | returned _ hnone => exact absurd hn (hnone n)

/-! Calls. -/

/-- An action that sends a message, reads one reply and ends as its decoder makes of that. -/
def Exchanges (x : Action α) (message : Value) (decode : Value → Except Reply.Error α) : Prop :=
  ∃ k : Value → Action α, x = (do send message; let v ← read; k v) ∧
    ∀ v c, (settle (k v) c).1 = (decode v).mapError .reply

theorem accept_result (r : Except Reply.Error α) {k : α → Action β} {f : α → β}
    (hk : ∀ a c, (settle (k a) c).1 = .ok (f a)) (c : Client) :
    (settle (accept r >>= k) c).1 = (do let a ← r; pure (f a)).mapError .reply := by
  cases r with
  | ok a => exact hk a c
  | error e => cases e <;> rfl

theorem pathCall_exchanges (word note p : Text) :
    Exchanges (do pathCommand word note (.text p); pure Answer.done) (simpleCommand [word, p])
      (fun v => do let _ ← Reply.envelope word v; pure .done) := by
  have hdisplay : display (.text p) = pure p := rfl
  refine ⟨fun v => do
    let _ ← accept (Reply.envelope word v)
    record .info (note ++ p)
    pure .done, ?_, fun v => accept_result _ fun _ _ => rfl⟩
  rw [pathCommand, hdisplay]
  simp only [pure_bind, bind_assoc]

theorem typed_exchanges {call : Call} (h : call.Typed) :
    ∃ message, call.request = .ok message ∧ Exchanges call.perform message call.decode := by
  cases h with
  | watch p => exact ⟨_, rfl, pathCall_exchanges "watch" "Watching " p⟩
  | watchDel p => exact ⟨_, rfl, pathCall_exchanges "watch-del" "Stopped watching " p⟩
  | watchList =>
    refine ⟨_, rfl, fun v => do
      let roots ← accept (Reply.watchedRoots v)
      pure (.roots roots), ?_, fun v => accept_result _ fun _ _ => rfl⟩
    rw [Call.perform, watchList]
    simp only [bind_assoc]
  | query p e mask =>
    refine ⟨_, rfl, ?_⟩
    have hperform : Call.perform (.query (.text p) (.expression e) (.int mask)) = (do
        let answer ← query (.text p) (.expression e) (.int mask)
        pure (.files answer)) := rfl
    rw [query] at hperform
    simp only [bind_assoc] at hperform
    exact ⟨_, hperform, fun v => accept_result _ fun _ _ => rfl⟩

theorem decode_categorized {call : Call} {v : Value} (h : Decoded v) {e : Failure}
    (he : (call.decode v).mapError .reply = .error e) : e.category? ≠ none := by
  have hjudged := call.decode_judged h
  rcases hdecode : call.decode v with e' | a
  · rw [hdecode] at hjudged he
    cases he
    cases hjudged with
    | error hverdict => rcases hverdict with h | h <;> simp [h]
  · rw [hdecode] at he
    cases he

theorem send_keeps_incoming (message : Value) :
    Keeps (fun c => c.stream.incoming) (send message) := by
  have hwrite (frame : Bytes) : Keeps (fun c => c.stream.incoming)
      (onStream (Stream.write frame)) := by
    intro c
    simp only [settle, run_onStream, Stream.write]
    cases c.stream.writeError <;> rfl
  have hflush : Keeps (fun c => c.stream.incoming) (onStream Stream.flush) := by
    intro c
    simp only [settle, run_onStream, Stream.flush]
    cases c.stream.flushError <;> rfl
  refine keeps_bind keeps_requireOpen fun _ => ?_
  refine keeps_bind (keeps_lift _ _) fun _ => ?_
  refine keeps_bind (hwrite _) fun _ => ?_
  refine keeps_bind (keeps_lift _ _) fun _ => ?_
  refine keeps_bind hflush fun _ => ?_
  exact keeps_bind (keeps_lift _ _) fun _ => fun _ => rfl

/-- Once the message has been sent, only an overlong document brings a failure without a
category. -/
theorem reply_uncategorized {call : Call} {k : Value → Action Answer}
    (hk : ∀ v c, (settle (k v) c).1 = (call.decode v).mapError .reply) {c : Client}
    (hopen : c.isOpen = true) :
    (∃ e, (settle (read >>= k) c).1 = .error e ∧ e.category? = none) ↔
      ∃ n, OverlongAhead n c.stream.incoming := by
  have hread := read_uncategorized c
  have hends := read_ends c
  rw [settle_bind]
  rcases hsettle : settle read c with ⟨e | v, c'⟩
  · rw [hsettle] at hread
    simp only [Except.error.injEq] at hread ⊢
    exact hread.trans (and_iff_right hopen)
  · rw [hsettle] at hends
    cases hends with
    | returned _ hnone hv =>
      refine iff_of_false ?_ fun ⟨n, hn⟩ => hnone n hn
      rintro ⟨e, he, hcategory⟩
      exact decode_categorized hv ((hk v c').symm.trans he) hcategory

/-- A call without a category of failure: its message cannot be framed for a surrogate, or it is
sent and the first document of the stream is overlong. -/
theorem exchange_uncategorized {call : Call} {message : Value}
    (h : Exchanges call.perform message call.decode) (c : Client) :
    (∃ e, (settle call.perform c).1 = .error e ∧ e.category? = none) ↔
      c.isOpen = true ∧ Serializable message ∧ (HoldsSurrogate message ∨
        c.stream.writeError = none ∧ c.stream.flushError = none ∧
          ∃ n, OverlongAhead n c.stream.incoming) := by
  obtain ⟨k, hperform, hk⟩ := h
  have hends := send_ends c message
  have hcustody := keeps_send message c
  have hincoming := send_keeps_incoming message c
  rw [hperform, settle_bind]
  rcases hsettle : settle (send message) c with ⟨r, c'⟩
  rw [hsettle] at hends hcustody hincoming
  cases hends with
  | closed hclosed => simp [hclosed, Failure.category?]
  | unserializable _ hn => simp [hn, Failure.category?]
  | surrogate hopen hs hholds => simp [hopen, hs, hholds, Failure.category?]
  | failed hopen hs hnone herror =>
    refine iff_of_false ?_ ?_
    · rintro ⟨e, ⟨⟩, hcategory⟩
      cases hcategory
    · rintro ⟨-, -, hholds | ⟨hwrite, hflush, -⟩⟩
      · exact hnone hholds
      · rw [hwrite, hflush] at herror
        simp at herror
  | flushed hopen hs hnone hwrite hflush =>
    have hopen' : c'.isOpen = true := by
      have hsame := congrArg Client.isOpen hcustody
      exact hsame.trans hopen
    dsimp only at hincoming ⊢
    rw [reply_uncategorized hk hopen', hincoming]
    simp [hopen, hs, hnone, hwrite, hflush]

/-! Discovery. -/

/-- The output of the discovery command gives a path, is at fault, or is overlong. -/
theorem socknameOf_uncategorized (output : Text) :
    (∃ e, socknameOf output = .error e ∧ e.category? = none) ↔
      output.head? ≠ some 0xFEFF ∧ ∃ n, Overlong n .value (Json.skipSpace output) := by
  unfold socknameOf
  by_cases hmark : output.head? = some 0xFEFF
  · simp [hmark, Failure.category?]
  · simp only [if_neg hmark]
    rcases hdoc : Json.document (Json.skipSpace output) with (⟨fault, rest⟩ | digits) | ⟨v, rest⟩
    · have hnone (n : Nat) : ¬ Overlong n .value (Json.skipSpace output) := by
        intro hn
        rw [Json.document_overlong.mpr hn] at hdoc
        cases hdoc
      simp [hnone, Failure.category?]
    · have hn := Json.document_overlong.mp hdoc
      exact iff_of_true ⟨_, rfl, rfl⟩ ⟨hmark, digits, hn⟩
    · have hnone (n : Nat) : ¬ Overlong n .value (Json.skipSpace output) := by
        intro hn
        rw [Json.document_overlong.mpr hn] at hdoc
        cases hdoc
      refine iff_of_false ?_ fun ⟨_, n, hn⟩ => hnone n hn
      rintro ⟨e, he, hcategory⟩
      dsimp only at he
      repeat' split at he
      all_goals
        cases he
      all_goals
        cases hcategory

/-- Discovery comes to no answer and no verdict: the command's output begins with an integer over
the limit, the error for a command that took too long cannot be written out, or the run breaks
off. -/
inductive Undiscovered (binary : Value) (host : Host) : Prop where
  | output {output errors n} : host.discovery = .finished 0 output errors →
      output.head? ≠ some 0xFEFF → Overlong n .value (Json.skipSpace output) →
      Undiscovered binary host
  | expired {limit e} : host.discovery = .expired limit →
      (do let _ ← (Value.list [binary, .text "get-sockname"]).literal; limit.display) = .error e →
      Undiscovered binary host
  | broken {e} : host.discovery = .broken e → Undiscovered binary host

def exitDetail (status : Int) (errors : Option Text) : Text :=
  let detail := Text.strip (errors.getD [])
  if detail.isEmpty then ("exit status " : Text) ++ Text.ofInt status else detail

inductive Discovers (binary : Value) (host : Host) : Except Failure Text → Prop where
  | failed {e} : host.discovery = .failed e →
      Discovers binary host (.error (.discovery (.notRun e)))
  | broken {e} : host.discovery = .broken e → Discovers binary host (.error (.call e))
  | unwritten {limit e} : host.discovery = .expired limit →
      (do let _ ← (Value.list [binary, .text "get-sockname"]).literal; limit.display) = .error e →
      Discovers binary host (.error (.tooLong e))
  | expired {limit command shown} : host.discovery = .expired limit →
      (Value.list [binary, .text "get-sockname"]).literal = .ok command →
      limit.display = .ok shown →
      Discovers binary host (.error (.discovery (.expired command shown)))
  | exited {status output errors} : host.discovery = .finished status output errors →
      status ≠ 0 → Discovers binary host (.error (.discovery (.failed (exitDetail status errors))))
  | printed {output errors r} : host.discovery = .finished 0 output errors →
      socknameOf output = r → Discovers binary host r

theorem discover_ends (binary timeout : Value) (c : Client) :
    Discovers binary c.host (settle (discover binary timeout) c).1 := by
  unfold settle discover
  simp only [EStateM.run_bind, run_call, EStateM.run_get, called]
  cases hdiscovery : c.host.discovery with
  | failed e => exact .failed hdiscovery
  | broken e => exact .broken hdiscovery
  | expired limit =>
    dsimp only
    cases hcommand : (Value.list [binary, .text "get-sockname"]).literal with
    | error e => exact .unwritten hdiscovery (by rw [hcommand]; rfl)
    | ok command =>
      simp only [run_lift_ok, EStateM.run_bind, display]
      cases hlimit : limit.display with
      | error e => exact .unwritten hdiscovery (by rw [hcommand, hlimit]; rfl)
      | ok shown => exact .expired hdiscovery hcommand hlimit
  | finished status output errors =>
    dsimp only
    by_cases hstatus : status = 0
    · subst hstatus
      refine .printed hdiscovery ?_
      cases socknameOf output <;> rfl
    · have hexit : (status != 0) = true := bne_iff_ne.mpr hstatus
      simp only [hexit, if_true]
      exact .exited hdiscovery hstatus

/-- What discovery comes to depends on the host and the command alone. -/
theorem Discovers.unique {binary : Value} {host : Host} {r r' : Except Failure Text}
    (h : Discovers binary host r) (h' : Discovers binary host r') : r = r' := by
  cases h <;> cases h' <;> simp_all [bind, Except.bind]

theorem discover_uncategorized (binary timeout : Value) (c : Client) :
    (∃ e, (settle (discover binary timeout) c).1 = .error e ∧ e.category? = none) ↔
      Undiscovered binary c.host := by
  have hends := discover_ends binary timeout c
  generalize (settle (discover binary timeout) c).1 = r at hends
  cases hends with
  | broken hbroken => exact iff_of_true ⟨_, rfl, rfl⟩ (.broken hbroken)
  | unwritten hexpired herror => exact iff_of_true ⟨_, rfl, rfl⟩ (.expired hexpired herror)
  | failed hfailed =>
    refine iff_of_false (by rintro ⟨_, ⟨⟩, hnone⟩; cases hnone) ?_
    rintro (⟨h, -, -⟩ | ⟨h, -⟩ | h) <;>
      rw [hfailed] at h <;>
      cases h
  | exited hfinished hstatus =>
    refine iff_of_false (by rintro ⟨_, ⟨⟩, hnone⟩; cases hnone) ?_
    rintro (⟨h, -, -⟩ | ⟨h, -⟩ | h) <;>
      rw [hfinished] at h <;>
      cases h
    exact hstatus rfl
  | expired hexpired hcommand hlimit =>
    refine iff_of_false (by rintro ⟨_, ⟨⟩, hnone⟩; cases hnone) ?_
    rintro (⟨h, -, -⟩ | ⟨h, herror⟩ | h) <;>
      rw [hexpired] at h <;>
      cases h
    rw [hcommand] at herror
    cases hlimit.symm.trans herror
  | printed hfinished hr =>
    rw [← hr, socknameOf_uncategorized]
    constructor
    · rintro ⟨hmark, n, hn⟩
      exact .output hfinished hmark hn
    · rintro (⟨h, hmark, hn⟩ | ⟨h, -⟩ | h) <;>
        rw [hfinished] at h <;>
        cases h
      exact ⟨hmark, _, hn⟩

/-! Streams and outputs of every kind. -/

/-- Whatever bytes come in and whatever the discovery command comes to, a failure belongs to a
category of the client unless an integer with too many digits is met, or the command prints what is
no text, and then it belongs to none. -/
theorem replies_outside_categories (c : Client) :
    (Receiving c (settle read c) ∧
      ((∃ e, (settle read c).1 = .error e ∧ e.category? = none) ↔
        c.isOpen = true ∧ ∃ n, OverlongAhead n c.stream.incoming)) ∧
    (∀ call : Call, call.Typed → ∃ message, call.request = .ok message ∧
      ((∃ e, (settle call.perform c).1 = .error e ∧ e.category? = none) ↔
        c.isOpen = true ∧ Serializable message ∧ (HoldsSurrogate message ∨
          c.stream.writeError = none ∧ c.stream.flushError = none ∧
            ∃ n, OverlongAhead n c.stream.incoming))) ∧
    (∀ output, (∃ e, socknameOf output = .error e ∧ e.category? = none) ↔
      output.head? ≠ some 0xFEFF ∧ ∃ n, Overlong n .value (Json.skipSpace output)) ∧
    ∀ binary timeout, (∃ e, (settle (discover binary timeout) c).1 = .error e ∧
      e.category? = none) ↔ Undiscovered binary c.host := by
  refine ⟨⟨read_ends c, read_uncategorized c⟩, ?_, socknameOf_uncategorized, ?_⟩
  · intro call h
    obtain ⟨message, hrequest, hexchange⟩ := typed_exchanges h
    exact ⟨message, hrequest, exchange_uncategorized hexchange c⟩
  · intro binary timeout
    exact discover_uncategorized binary timeout c

/-! A run of ones. -/

def ones (k : Nat) : Text := List.replicate k ('1' : CodePoint) ++ (['\n'] : Text)

theorem ones_encode (k : Nat) : Utf8.Encodes (ones k) (List.replicate k 0x31 ++ [0x0a]) := by
  induction k with
  | zero => exact Utf8.encodes_cons (c := '\n') (by decide) Utf8.encodes_nil
  | succ k ih => exact Utf8.encodes_cons (c := '1') (by decide) ih

theorem ones_overlong {k : Nat} (h : Numeral.digitLimit < k) : Overlong k .value (ones k) := by
  have hone : CodePoint.isAsciiDigit '1' = true := by decide
  obtain ⟨k, rfl⟩ := Nat.exists_eq_succ_of_ne_zero (by omega : k ≠ 0)
  have hdigits : Json.Digits (List.replicate (k + 1) '1') := by
    refine ⟨by simp, ?_⟩
    intro c hc
    rwa [List.eq_of_mem_replicate hc]
  have hhead : (List.replicate (k + 1) ('1' : CodePoint)).head? ≠ some ('0' : CodePoint) := by
    rw [List.replicate_succ, List.head?_cons]
    decide
  have hstop : Json.IntegerStops (['\n'] : Text) :=
    Json.numberStops_integer (Frame.numberStops_line_feed [])
  exact .positive (Or.inr ⟨hdigits, hhead⟩) List.length_replicate h hstop

theorem ones_ahead {k : Nat} (h : Numeral.digitLimit < k) :
    OverlongAhead k (List.replicate k 0x31 ++ [0x0a]) := by
  have hoverlong := ones_overlong h
  have hbegins := Json.skipSpace_begins (Json.overlong_begins hoverlong)
  refine ⟨[], _, [], (List.append_nil _).symm, ⟨Or.inl rfl, by simp⟩, ?_, Or.inr rfl,
    _, ⟨_, ones_encode k, hbegins, by simp [ones]⟩, hoverlong⟩
  obtain ⟨k, rfl⟩ := Nat.exists_eq_succ_of_ne_zero (by omega : k ≠ 0)
  exact Stream.opens_cons (by decide) _

theorem long_integer_fails_call_and_discovery :
    (∃ e, (settle Call.watchList.perform { isOpen := true, stream :=
        { incoming := List.replicate 4301 0x31 ++ [0x0a] } }).1 = .error e ∧
      e.category? = none) ∧
    ∃ e, (settle (discover (.text "watchman") .null) { host :=
        { discovery := .finished 0 (ones 4301) none } }).1 = .error e ∧ e.category? = none := by
  have hlimit : Numeral.digitLimit < 4301 := by decide
  constructor
  · obtain ⟨message, hrequest, hcall⟩ :=
      (replies_outside_categories { isOpen := true, stream :=
        { incoming := List.replicate 4301 0x31 ++ [0x0a] } }).2.1 .watchList .watchList
    cases hrequest
    refine hcall.mpr ⟨rfl, .list ?_, Or.inr ⟨rfl, rfl, 4301, ones_ahead hlimit⟩⟩
    intro v hv
    obtain ⟨t, -, rfl⟩ := List.mem_map.mp hv
    exact .text
  · refine ((replies_outside_categories { host :=
      { discovery := .finished 0 (ones 4301) none } }).2.2.2 _ _).mpr
        (.output rfl ?_ (n := 4301) ?_)
    · rw [ones, List.replicate_succ, List.cons_append, List.head?_cons]
      decide
    · have hoverlong := ones_overlong hlimit
      rwa [Json.skipSpace_begins (Json.overlong_begins hoverlong)]

/-- A line of 4301 digits. -/
theorem long_integer_uncategorized :
    ∃ e, (settle read { isOpen := true, stream :=
        { incoming := List.replicate 4301 0x31 ++ [0x0a] } }).1 = .error e ∧
      e.category? = none := by
  have hlimit : Numeral.digitLimit < 4301 := by decide
  exact (read_uncategorized _).mpr ⟨rfl, 4301, ones_ahead hlimit⟩

end Client

end FileWatch
