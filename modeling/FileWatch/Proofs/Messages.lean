import FileWatch.Proofs.Json.Prefixes
import FileWatch.Proofs.Utf8
import FileWatch.Frame
/-!
Messages in frames. A frame decodes exactly when it is JSON white space, one document and a line
feed. On a frame that ends with a line feed, more input is asked for where the reader of documents
was starved; whatever was read otherwise stays read.
-/

namespace FileWatch.Frame

open Utf8 (Encodes)

def SpaceBytes (b : Bytes) : Prop := ∀ d ∈ b, d = 0x20 ∨ d = 0x09 ∨ d = 0x0a ∨ d = 0x0d

def DocumentBytes (b : Bytes) (v : Value) : Prop := ∃ d, Encodes d b ∧ Json.Document d v

/-- A frame that holds a message: white space, a document and a line feed. -/
def Message (frame : Bytes) (v : Value) : Prop :=
  ∃ W D, frame = W ++ D ++ [0x0a] ∧ SpaceBytes W ∧ DocumentBytes D v

theorem isSpace_cases {c : CodePoint} (h : Json.isSpace c = true) :
    c = ' ' ∨ c = '\t' ∨ c = '\n' ∨ c = '\r' := by
  simp only [Json.isSpace, Bool.or_eq_true, decide_eq_true_eq] at h
  rcases h with ((h | h) | h) | h <;> simp [h]

theorem spaceBytes_of_spaces {w : Text} {b : Bytes} (hw : Json.Spaces w) (h : Encodes w b) :
    SpaceBytes b := by
  obtain ⟨-, rfl⟩ := h
  intro d hd
  obtain ⟨c, hc, hd⟩ := List.mem_flatMap.mp hd
  rcases isSpace_cases (hw c hc) with rfl | rfl | rfl | rfl <;>
    (obtain rfl := List.mem_singleton.mp hd; decide)

theorem spaces_of_spaceBytes {b : Bytes} (h : SpaceBytes b) :
    ∃ w, Encodes w b ∧ Json.Spaces w := by
  induction b with
  | nil => exact ⟨[], Utf8.encodes_nil, Json.spaces_nil⟩
  | cons d b ih =>
    obtain ⟨w, hw, hs⟩ := ih fun e he => h e (by simp [he])
    have point {c : CodePoint} (hc : Json.isSpace c = true) (hplain : c.isSurrogate = false)
        (hform : Utf8.encodePoint c = [d]) : ∃ w, Encodes w (d :: b) ∧ Json.Spaces w := by
      refine ⟨c :: w, ?_, Json.spaces_cons hc hs⟩
      have whole := Utf8.encodes_cons hplain hw
      rwa [hform] at whole
    rcases h d (by simp) with rfl | rfl | rfl | rfl
    · exact point (c := ' ') (by decide) (by decide) rfl
    · exact point (c := '\t') (by decide) (by decide) rfl
    · exact point (c := '\n') (by decide) (by decide) rfl
    · exact point (c := '\r') (by decide) (by decide) rfl

/-- A message as text: white space, a document and a line feed. -/
theorem message_text {frame : Bytes} {v : Value} :
    Message frame v ↔ ∃ w d, Encodes (w ++ (d ++ (['\n'] : Text))) frame ∧ Json.Spaces w ∧
      Json.Document d v := by
  constructor
  · rintro ⟨W, D, rfl, hW, d, hd, hdoc⟩
    obtain ⟨w, hw, hs⟩ := spaces_of_spaceBytes hW
    refine ⟨w, d, ?_, hs, hdoc⟩
    rw [List.append_assoc]
    exact Utf8.encodes_append hw (Utf8.encodes_append hd (Utf8.encodes_cons (by decide)
      Utf8.encodes_nil))
  · rintro ⟨w, d, ⟨hplain, rfl⟩, hs, hdoc⟩
    have hw : Encodes w (w.flatMap Utf8.encodePoint) := ⟨fun c hc => hplain c (by simp [hc]), rfl⟩
    have hd : Encodes d (d.flatMap Utf8.encodePoint) := ⟨fun c hc => hplain c (by simp [hc]), rfl⟩
    refine ⟨_, _, ?_, spaceBytes_of_spaces hs hw, d, hd, hdoc⟩
    rw [List.flatMap_append, List.flatMap_append, List.append_assoc]
    rfl

theorem numberStops_line_feed (rest : Text) : Json.NumberStops ('\n' :: rest) :=
  Json.numberStops_cons (by decide) rest

theorem document_line {d : Text} {v : Value} (h : Json.Document d v) (more : Text) :
    Json.document (d ++ ('\n' :: more : Text)) = .ok (v, '\n' :: more) :=
  Json.document_complete h fun _ => numberStops_line_feed more

theorem skipSpace_document {w d : Text} {v : Value} (hw : Json.Spaces w) (h : Json.Document d v)
    (rest : Text) : Json.skipSpace (w ++ (d ++ rest)) = d ++ rest := by
  rw [Json.skipSpace_spaces hw,
    Json.skipSpace_begins (Json.begins_append (Json.spells_begins h) rest)]

/-- A frame decodes exactly when it holds a message. -/
theorem decode_ok {frame : Bytes} {v : Value} : decode frame = .ok v ↔ Message frame v := by
  rw [message_text]
  constructor
  · intro h
    unfold decode at h
    cases ht : Utf8.decode frame with
    | error e => simp only [ht] at h; cases h
    | ok t =>
      simp only [ht] at h
      split_ifs at h with hempty
      cases hdoc : Json.document (Json.skipSpace t) with
      | error e => cases e <;> (simp only [hdoc] at h; cases h)
      | ok p =>
        obtain ⟨v', rest⟩ := p
        simp only [hdoc] at h
        obtain ⟨w, hw, hsplit⟩ := Json.skipSpace_split t
        obtain ⟨d, hd, hspells⟩ := Json.document_sound hdoc
        cases rest with
        | nil => cases h
        | cons c more =>
          simp only at h
          split_ifs at h with hc hmore
          cases h
          obtain rfl := List.isEmpty_iff.mp hmore
          subst hc
          refine ⟨w, d, ?_, hw, hspells⟩
          rw [← hd, ← hsplit]
          exact Utf8.decode_ok.mp ht
  · rintro ⟨w, d, ht, hw, hdoc⟩
    unfold decode
    have hbegins := Json.begins_append (Json.spells_begins hdoc) (['\n'] : Text)
    have hne : (d ++ (['\n'] : Text)).isEmpty = false := by
      obtain ⟨c, rest, hcons, -⟩ := hbegins
      rw [hcons]
      rfl
    simp only [Utf8.decode_ok.mpr ht, skipSpace_document hw hdoc, hne, document_line hdoc]
    rfl

/-! Frames that end with a line feed. -/

def Body (frame : Bytes) (body : Text) : Prop :=
  ∃ t, Encodes t frame ∧ Json.skipSpace t = body ∧ body ≠ []

theorem needsMore_body {frame : Bytes} {body : Text} (h : Body frame body) :
    needsMore frame = match Json.document body with
      | .error (.malformed _ rest) => .ok (Text.isBlank rest)
      | .error (.longInteger digits) => .error digits
      | .ok _ => .ok false := by
  obtain ⟨t, ht, rfl, hne⟩ := h
  have hempty : (Json.skipSpace t).isEmpty = false := by simpa using hne
  unfold needsMore
  simp only [Utf8.decode_ok.mpr ht, hempty]
  rfl

theorem needsMore_true {frame : Bytes} (h : needsMore frame = .ok true) :
    ∃ body fault rest, Body frame body ∧ Json.document body = .error (.malformed fault rest) ∧
      Text.isBlank rest = true := by
  have hframe := h
  unfold needsMore at h
  cases ht : Utf8.decode frame with
  | error e => simp [ht] at h
  | ok t =>
    simp only [ht] at h
    split_ifs at h with hempty
    · cases h
    have hbody : Body frame (Json.skipSpace t) :=
      ⟨t, Utf8.decode_ok.mp ht, rfl, by simpa using hempty⟩
    rw [needsMore_body hbody] at hframe
    cases hdoc : Json.document (Json.skipSpace t) with
    | ok p => simp [hdoc] at hframe
    | error e =>
      cases e with
      | longInteger digits => simp [hdoc] at hframe
      | malformed fault rest =>
        simp only [hdoc, Except.ok.injEq] at hframe
        exact ⟨_, fault, rest, hbody, hdoc, hframe⟩

/-- An integer with too many digits is met by whoever reads the frame. -/
theorem needsMore_longInteger {frame : Bytes} {digits : Nat}
    (h : decode frame = .error (.longInteger digits)) :
    needsMore frame = .error digits := by
  unfold decode at h
  unfold needsMore
  cases ht : Utf8.decode frame with
  | error e => simp [ht] at h
  | ok t =>
    simp only [ht] at h ⊢
    by_cases hempty : (Json.skipSpace t).isEmpty = true
    · rw [if_pos hempty] at h
      cases h
    · rw [if_neg hempty] at h ⊢
      cases hdoc : Json.document (Json.skipSpace t) with
      | error e =>
        rw [hdoc] at h
        cases e with
        | malformed fault rest => cases h
        | longInteger n =>
          cases h
          rfl
      | ok p =>
        obtain ⟨v, rest⟩ := p
        rw [hdoc] at h
        cases rest with
        | nil => cases h
        | cons d more =>
          dsimp only at h
          split_ifs at h <;> cases h

theorem body_ended {frame : Bytes} {body : Text} (h : Body frame body)
    (hframe : frame.getLast? = some 0x0a) : Json.Ended body := by
  obtain ⟨t, ht, rfl, hne⟩ := h
  have hended := (Utf8.encodes_ended ht).mp hframe
  obtain ⟨w, -, hsplit⟩ := Json.skipSpace_split t
  rw [hsplit] at hended
  exact Json.ended_of_append hended hne

/-- What comes behind a frame that ends with a line feed comes behind its body. -/
theorem body_append {frame c : Bytes} {body whole : Text} (h : Body frame body)
    (hframe : frame.getLast? = some 0x0a) (hwhole : Body (frame ++ c) whole) :
    ∃ u, Encodes u c ∧ whole = body ++ u := by
  obtain ⟨t, ht, rfl, hne⟩ := h
  obtain ⟨t', ht', rfl, -⟩ := hwhole
  obtain ⟨t₁, t₂, rfl, h₁, h₂⟩ := Utf8.encodes_cut ht' hframe
  obtain rfl : t = t₁ := by
    have hsame := Utf8.decode_ok.mpr h₁
    rw [Utf8.decode_ok.mpr ht] at hsame
    exact Except.ok.inj hsame
  refine ⟨t₂, h₂, ?_⟩
  obtain ⟨d, more, hcons⟩ := List.exists_cons_of_ne_nil hne
  rw [hcons, Json.skipSpace_append hcons]
  rfl

theorem message_body {frame : Bytes} {v : Value} (h : Message frame v) :
    ∃ d, Body frame (d ++ (['\n'] : Text)) ∧ Json.Document d v := by
  obtain ⟨w, d, ht, hw, hdoc⟩ := message_text.mp h
  exact ⟨d, ⟨_, ht, skipSpace_document hw hdoc _, by simp⟩, hdoc⟩

theorem needsMore_message {frame : Bytes} {v : Value} (h : Message frame v) :
    needsMore frame = .ok false := by
  obtain ⟨d, hbody, hdoc⟩ := message_body h
  rw [needsMore_body hbody, document_line hdoc]

/-- On every proper beginning of a message that ends with a line, the message goes on. -/
theorem needsMore_beginning {frame c : Bytes} {v : Value} {body : Text} (hbody : Body frame body)
    (hframe : frame.getLast? = some 0x0a) (hc : c ≠ []) (h : Message (frame ++ c) v) :
    needsMore frame = .ok true := by
  obtain ⟨d, hwhole, hdoc⟩ := message_body h
  obtain ⟨u, hu, hsplit⟩ := body_append hbody hframe hwhole
  have hread := document_line hdoc []
  rw [hsplit] at hread
  have hended := body_ended hbody hframe
  rw [needsMore_body hbody]
  rcases Json.document_stable hended u with ⟨fault, hstarved⟩ | hfinal
  · rw [hstarved]
    rfl
  · -- The document would end before the frame does, and nothing could come behind it.
    exfalso
    rw [hread] at hfinal
    cases hdocument : Json.document body with
    | error e =>
      rw [hdocument] at hfinal
      cases hfinal
    | ok p =>
      obtain ⟨v', rest⟩ := p
      rw [hdocument, Json.extend_ok] at hfinal
      have hrest := Json.sound_ended (Json.within_sound _).1 hended hdocument
      have hjoin : (['\n'] : Text) = rest ++ u := (Prod.mk.inj (Except.ok.inj hfinal)).2
      rcases List.append_eq_singleton_iff.mp hjoin.symm with ⟨rfl, -⟩ | ⟨-, rfl⟩
      · exact Json.ended_ne_nil hrest rfl
      · exact hc hu.2

end FileWatch.Frame
