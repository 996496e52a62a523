import FileWatch.Proofs.Json.Longest
import FileWatch.Proofs.Receptions
/-!
Where frames end. Every frame falls into one of three classes, told apart by its text alone: it is a
message, it has a document with something else behind it, or it has no document. The reader hands on
no frame that goes on behind the line feed after its document.
-/

namespace FileWatch

open FileWatch.Json (Document First Overlong Spaces)
open Utf8 (Encodes)

namespace Frame

/-- The frame is white space, the document that is read first, which denotes `v`, and `x`. -/
def Holds (frame : Bytes) (v : Value) (x : Text) : Prop :=
  ∃ w d, Encodes (w ++ (d ++ x)) frame ∧ Spaces w ∧ First d v x

def Unterminated (frame : Bytes) : Prop := ∃ v x, Holds frame v x ∧ x ≠ (['\n'] : Text)

inductive Undocumented (frame : Bytes) : Prop where
  | notText : (∀ t, ¬ Encodes t frame) → Undocumented frame
  | blank {t} : Encodes t frame → Spaces t → Undocumented frame
  | missing {t} : Encodes t frame →
      (∀ w d x v, t = w ++ (d ++ x) → Spaces w → ¬ Document d v) → Undocumented frame

/-- No integer over the limit stands where everything in front of it is well-formed. -/
def Short (frame : Bytes) : Prop := ∀ body n, Body frame body → ¬ Overlong n .value body

def Fails (frame : Bytes) (category : Category) : Prop :=
  ∃ e, decode frame = .error e ∧ (Failure.frame e).category? = some category

theorem encodes_unique {t u : Text} {frame : Bytes} (ht : Encodes t frame) (hu : Encodes u frame) :
    u = t := by
  have hread := Utf8.decode_ok.mpr ht
  rw [Utf8.decode_ok.mpr hu] at hread
  exact Except.ok.inj hread

/-! What becomes of a frame. -/

def terminated (v : Value) (x : Text) : Except DecodeError Value :=
  match x with
  | c :: more =>
    if c = '\n' then if more.isEmpty then .ok v else .error .trailingData else .error .noNewline
  | [] => .error .noNewline

theorem terminated_ok {v v' : Value} {x : Text} :
    terminated v x = .ok v' ↔ v' = v ∧ x = (['\n'] : Text) := by
  unfold terminated
  cases x with
  | nil => simp
  | cons c more =>
    by_cases hc : c = '\n'
    · cases more with
      | nil => simp [hc, eq_comm]
      | cons d more => simp [hc]
    · simp [hc]

theorem terminated_error {v : Value} {x : Text} {e : DecodeError} (h : terminated v x = .error e) :
    e = .noNewline ∧ x.head? ≠ some ('\n' : CodePoint) ∨
      e = .trailingData ∧ ∃ more, more ≠ [] ∧ x = ('\n' :: more : Text) := by
  unfold terminated at h
  cases x with
  | nil =>
    cases h
    exact Or.inl ⟨rfl, by simp⟩
  | cons c more =>
    by_cases hc : c = '\n'
    · subst hc
      cases more with
      | nil => cases h
      | cons d more =>
        cases h
        exact Or.inr ⟨rfl, d :: more, by simp, rfl⟩
    · simp only [if_neg hc] at h
      cases h
      exact Or.inl ⟨rfl, by simpa using hc⟩

theorem decode_notText {frame : Bytes} (h : ∀ t, ¬ Encodes t frame) : Fails frame .parse := by
  cases ht : Utf8.decode frame with
  | ok t => exact absurd (Utf8.decode_ok.mp ht) (h t)
  | error e =>
    refine ⟨.utf8 e, ?_, rfl⟩
    unfold decode
    simp only [ht]

theorem decode_blank {frame : Bytes} {t : Text} (h : Encodes t frame)
    (hnil : Json.skipSpace t = []) : Fails frame .parse := by
  refine ⟨.blank, ?_, rfl⟩
  unfold decode
  simp only [Utf8.decode_ok.mpr h, hnil]
  rfl

theorem decode_body {frame : Bytes} {body : Text} (h : Body frame body) :
    ∃ t, decode frame = match Json.document body with
      | .error (.malformed fault rest) => .error (.malformed fault t rest)
      | .error (.longInteger digits) => .error (.longInteger digits)
      | .ok (v, x) => terminated v x := by
  obtain ⟨t, ht, rfl, hne⟩ := h
  have hempty : (Json.skipSpace t).isEmpty = false := by simpa using hne
  refine ⟨t, ?_⟩
  unfold decode
  simp only [Utf8.decode_ok.mpr ht, hempty]
  rfl

theorem short_iff {frame : Bytes} : Short frame ↔ ∀ n, decode frame ≠ .error (.longInteger n) := by
  constructor
  · intro h n hdecode
    obtain ⟨body, hbody, hlong⟩ := needsMore_error.mp (needsMore_longInteger hdecode)
    exact h body n hbody hlong
  · intro h body n hbody hlong
    obtain ⟨t, hdecode⟩ := decode_body hbody
    rw [Json.document_overlong.mpr hlong] at hdecode
    exact h n hdecode

/-! The classes. -/

theorem holds_body {frame : Bytes} {v : Value} {x : Text} (h : Holds frame v x) :
    ∃ d, Body frame (d ++ x) ∧ First d v x := by
  obtain ⟨w, d, ht, hw, hd⟩ := h
  have hbegins := Json.begins_append (Json.spells_begins hd.document) x
  refine ⟨d, ⟨_, ht, skipSpace_document hw hd.document x, ?_⟩, hd⟩
  obtain ⟨c, rest, hcons, -⟩ := hbegins
  simp [hcons]

theorem holds_decode {frame : Bytes} {v : Value} {x : Text} (hshort : Short frame)
    (h : Holds frame v x) : decode frame = terminated v x := by
  obtain ⟨d, hbody, hd⟩ := holds_body h
  obtain ⟨t, hdecode⟩ := decode_body hbody
  rw [hdecode, Json.document_first hd fun n => hshort _ n hbody]

theorem holds_documented {frame : Bytes} {v : Value} {x : Text} (h : Holds frame v x) :
    ¬ Undocumented frame := by
  obtain ⟨w, d, ht, hw, hd⟩ := h
  intro hnone
  cases hnone with
  | notText hnot => exact hnot _ ht
  | blank hu hblank =>
    obtain rfl := encodes_unique ht hu
    obtain ⟨c, rest, rfl, hc⟩ := Json.spells_begins hd.document
    have hspace := hblank c (by simp)
    rw [Json.opens_not_space hc] at hspace
    cases hspace
  | missing hu hmissing =>
    obtain rfl := encodes_unique ht hu
    exact hmissing w d x v rfl hw hd.document

/-- A frame has no document, or it has one and decodes as what is behind that makes it. -/
theorem undocumented_or_holds {frame : Bytes} (hshort : Short frame) :
    Undocumented frame ∧ Fails frame .parse ∨
      ∃ v x, Holds frame v x ∧ decode frame = terminated v x := by
  by_cases htext : ∃ t, Encodes t frame
  · obtain ⟨t, ht⟩ := htext
    obtain ⟨w, hw, hsplit⟩ := Json.skipSpace_split t
    by_cases hnil : Json.skipSpace t = []
    · rw [hnil, List.append_nil] at hsplit
      exact Or.inl ⟨.blank ht (hsplit ▸ hw), decode_blank ht hnil⟩
    · have hbody : Body frame (Json.skipSpace t) := ⟨t, ht, rfl, hnil⟩
      obtain ⟨whole, hdecode⟩ := decode_body hbody
      rcases hread : Json.document (Json.skipSpace t) with (⟨fault, rest⟩ | n) | ⟨v, x⟩
      · left
        rw [hread] at hdecode
        have hnone := (Json.document_missing fun n => hshort _ n hbody).mp ⟨fault, rest, hread⟩
        refine ⟨.missing ht ?_, _, hdecode, rfl⟩
        rintro w' d x v rfl hw' hd
        rw [skipSpace_document hw' hd] at hnone
        exact hnone d v x rfl hd
      · exact absurd (Json.document_overlong.mp hread) (hshort _ n hbody)
      · right
        rw [hread] at hdecode
        obtain ⟨d, hd, hfirst⟩ := Json.first_document hread
        refine ⟨v, x, ⟨w, d, ?_, hw, hfirst⟩, hdecode⟩
        rwa [← hd, ← hsplit]
  · have hnot : ∀ t, ¬ Encodes t frame := not_exists.mp htext
    exact Or.inl ⟨.notText hnot, decode_notText hnot⟩

theorem terminated_framing {v : Value} {x : Text} {e : DecodeError}
    (h : terminated v x = .error e) :
    (Failure.frame e).category? = some .framing := by
  rcases terminated_error h with ⟨rfl, -⟩ | ⟨rfl, -⟩ <;> rfl

theorem message_holds {frame : Bytes} {v : Value} : Message frame v ↔ Holds frame v ['\n'] := by
  rw [message_text]
  constructor
  · rintro ⟨w, d, ht, hw, hd⟩
    refine ⟨w, d, ht, hw, hd, ?_⟩
    -- What is read in front of the line feed is the whole document.
    obtain ⟨d', hsplit, hfirst⟩ := Json.first_document (document_line hd [])
    obtain rfl := List.append_cancel_right hsplit
    exact hfirst.longest
  · rintro ⟨w, d, ht, hw, hd⟩
    exact ⟨w, d, ht, hw, hd.document⟩

section

variable {frame : Bytes} (hshort : Short frame)
include hshort

theorem fails_framing : Fails frame .framing ↔ Unterminated frame := by
  constructor
  · rintro ⟨e, hdecode, hcategory⟩
    rcases undocumented_or_holds hshort with ⟨-, e', hdecode', hparse⟩ | ⟨v, x, hholds, hx⟩
    · rw [hdecode] at hdecode'
      cases hdecode'
      rw [hcategory] at hparse
      cases hparse
    · refine ⟨v, x, hholds, ?_⟩
      rintro rfl
      rw [terminated_ok.mpr ⟨rfl, rfl⟩, hdecode] at hx
      cases hx
  · rintro ⟨v, x, hholds, hx⟩
    have hdecode := holds_decode hshort hholds
    cases hterminated : terminated v x with
    | ok v' => exact absurd (terminated_ok.mp hterminated).2 hx
    | error e => exact ⟨e, hdecode.trans hterminated, terminated_framing hterminated⟩

theorem fails_parse : Fails frame .parse ↔ Undocumented frame := by
  constructor
  · rintro ⟨e, hdecode, hcategory⟩
    rcases undocumented_or_holds hshort with ⟨hnone, -⟩ | ⟨v, x, -, hx⟩
    · exact hnone
    · rw [terminated_framing (hx.symm.trans hdecode)] at hcategory
      cases hcategory
  · intro hnone
    rcases undocumented_or_holds hshort with ⟨-, hfails⟩ | ⟨v, x, hholds, -⟩
    · exact hfails
    · exact absurd hnone (holds_documented hholds)

theorem message_or_unterminated (h : ¬ Undocumented frame) :
    (∃ v, Message frame v) ∨ Unterminated frame := by
  rcases undocumented_or_holds hshort with ⟨hnone, -⟩ | ⟨v, x, hholds, -⟩
  · exact absurd hnone h
  · by_cases hx : x = (['\n'] : Text)
    · rw [hx] at hholds
      exact Or.inl ⟨v, message_holds.mpr hholds⟩
    · exact Or.inr ⟨v, x, hholds, hx⟩

theorem message_terminated {v : Value} (h : Message frame v) : ¬ Unterminated frame := by
  intro hunterminated
  obtain ⟨e, hdecode, -⟩ := (fails_framing hshort).mpr hunterminated
  rw [decode_ok.mpr h] at hdecode
  cases hdecode

theorem undocumented_iff : Undocumented frame ↔
    (∀ v, ¬ Message frame v) ∧ ¬ Unterminated frame := by
  constructor
  · intro hnone
    constructor
    · intro v hmessage
      exact holds_documented (message_holds.mp hmessage) hnone
    · rintro ⟨v, x, hholds, -⟩
      exact holds_documented hholds hnone
  · rintro ⟨hmessage, hunterminated⟩
    by_contra hdocumented
    rcases message_or_unterminated hshort hdocumented with ⟨v, h⟩ | h
    · exact hmessage v h
    · exact hunterminated h

end

/-- A frame without integers over the limit decodes, fails for want of its line feed or fails for
want of a document. A value comes from a message alone, the second from a frame whose document has
something else behind it, and the third from the other frames: those that are not text, are blank or
begin with no document. -/
theorem frames_classified {frame : Bytes} (hshort : Short frame) :
    ((∃ v, decode frame = .ok v) ∨ Fails frame .framing ∨ Fails frame .parse) ∧
      (∀ v, decode frame = .ok v ↔ Message frame v) ∧
      (Fails frame .framing ↔ Unterminated frame) ∧
      (Fails frame .parse ↔ Undocumented frame) ∧
      (∀ v, Message frame v → ¬ Unterminated frame) ∧
      (Undocumented frame ↔ (∀ v, ¬ Message frame v) ∧ ¬ Unterminated frame) := by
  refine ⟨?_, fun v => decode_ok, fails_framing hshort, fails_parse hshort,
    fun v => message_terminated hshort, undocumented_iff hshort⟩
  by_cases hdocumented : Undocumented frame
  · exact Or.inr (Or.inr ((fails_parse hshort).mpr hdocumented))
  · rcases message_or_unterminated hshort hdocumented with ⟨v, hmessage⟩ | hunterminated
    · exact Or.inl ⟨v, decode_ok.mpr hmessage⟩
    · exact Or.inr (Or.inl ((fails_framing hshort).mpr hunterminated))

/-- `01`: the longest number at the front is the zero, and a one stands behind it. -/
theorem number_behind_zero : Short [0x30, 0x31, 0x0a] ∧ Unterminated [0x30, 0x31, 0x0a] := by
  have hshort : Short [0x30, 0x31, 0x0a] := by
    rw [short_iff]
    rintro n ⟨⟩
  exact ⟨hshort, (frames_classified hshort).2.2.1.mp ⟨.noNewline, rfl, rfl⟩⟩

end Frame

end FileWatch
