import FileWatch.Proofs.Answers
import FileWatch.Proofs.Printing
import FileWatch.Proofs.RoundTrip
/-!
Answers printed as JSON. The document that is printed for an answer decodes to the same answer.
-/

namespace FileWatch.Report

open FileWatch.Json (Decoded Encodable Nameable Sendable Serializable received
  receivedItems)
open FileWatch.Reply (AnswerOf FileOf IntegerOf queryAnswer)
open FileWatch.Value (lookup?)

structure Plain (r : QueryAnswer) : Prop where
  version : Encodable r.version
  clock : Encodable r.clock
  names : ∀ s ∈ r.files, Encodable s.name

def WithinLimit (r : QueryAnswer) : Prop :=
  ∀ s ∈ r.files, s.mode.natAbs < 10 ^ Numeral.digitLimit ∧
    s.size.natAbs < 10 ^ Numeral.digitLimit

/-! Answers that were read. -/

theorem integerOf_within {name : Text} {es : List (Value × Value)} (h : Decoded (.dict es))
    {n : Int} (hn : IntegerOf (lookup? name es) n) : n.natAbs < 10 ^ Numeral.digitLimit := by
  generalize hslot : lookup? name es = slot at hn
  cases hn with
  | missing => exact Nat.pow_pos (by decide)
  | present =>
    cases Reply.decoded_inherited.lookup h hslot with
    | int hlimit => exact hlimit

theorem fileOf_within {v : Value} {s : FileRecord} (hv : Decoded v) (h : FileOf v s) :
    s.mode.natAbs < 10 ^ Numeral.digitLimit ∧ s.size.natAbs < 10 ^ Numeral.digitLimit := by
  cases h with
  | name => exact ⟨Nat.pow_pos (by decide), Nat.pow_pos (by decide)⟩
  | object _ hmode hsize _ _ => exact ⟨integerOf_within hv hmode, integerOf_within hv hsize⟩

theorem answerOf_within {v : Value} {r : QueryAnswer} (hv : Decoded v) (h : AnswerOf v r) :
    WithinLimit r := by
  cases h with
  | @object es items _ _ hfiles hitems _ _ _ =>
    have hlist := Reply.decoded_inherited.lookup hv hfiles
    have hitem : ∀ item ∈ items, Decoded item :=
      fun item hmem => Reply.decoded_inherited.item hlist hmem
    unfold WithinLimit
    generalize r.files = files at hitems
    clear hfiles hlist
    induction hitems with
    | nil => simp
    | cons hfirst _ ih =>
      rw [List.forall_mem_cons] at hitem ⊢
      exact ⟨fileOf_within hitem.1 hfirst, ih hitem.2⟩

/-! The value that is printed. -/

theorem joinSurrogates_encodable {t : Text} (h : Encodable t) : joinSurrogates t = t := by
  fun_induction joinSurrogates t with
  | case1 c d rest hpair _ =>
    have hc := h c (by simp)
    simp only [CodePoint.isHighSurrogate, CodePoint.isLowSurrogate, CodePoint.isSurrogate,
      Bool.and_eq_true, decide_eq_true_eq, Bool.and_eq_false_iff, decide_eq_false_iff_not] at *
    omega
  | case2 c d rest _ ih => rw [ih fun e he => h e (by simp [he])]
  | case3 => rfl

/-- An object with distinct keys that are texts without surrogates. -/
theorem sendable_object (members : List (Text × Value)) (hkeys : (members.map Prod.fst).Nodup)
    (htexts : ∀ m ∈ members, Encodable m.1) (hvalues : ∀ m ∈ members, Sendable m.2) :
    Sendable (.dict (members.map Json.entryOf)) := by
  refine .dict ?_ ?_ ?_
  · intro e he
    obtain ⟨m, hm, rfl⟩ := List.mem_map.mp he
    exact ⟨m.1, rfl, htexts m hm⟩
  · have hentries := hkeys.map (f := Value.text) fun _ _ => Value.text.inj
    rwa [List.map_map] at hentries ⊢
  · intro e he
    obtain ⟨m, hm, rfl⟩ := List.mem_map.mp he
    exact hvalues m hm

theorem encodable_keys {members : List (Text × Value)}
    (h : (members.all fun m => m.1.all fun c => !c.isSurrogate) = true) :
    ∀ m ∈ members, Encodable m.1 :=
  fun m hm => Json.encodable_of_all (List.all_eq_true.mp h m hm)

theorem fileValue_sendable {s : FileRecord} (hname : Encodable s.name)
    (hmode : s.mode.natAbs < 10 ^ Numeral.digitLimit)
    (hsize : s.size.natAbs < 10 ^ Numeral.digitLimit) : Sendable (fileValue s) := by
  have hkeys : (["name", "exists", "mode", "new", "size"] : List Text).Nodup := by decide
  have hobject := sendable_object [("name", .text s.name), ("exists", .bool s.existing),
    ("mode", .int s.mode), ("new", .bool s.isNew), ("size", .int s.size)] hkeys
    (encodable_keys rfl)
  rw [fileValue, joinSurrogates_encodable hname]
  apply hobject
  simp only [List.forall_mem_cons]
  exact ⟨.text hname, .bool, .int hmode, .bool, .int hsize, by simp⟩

theorem queryValue_sendable {r : QueryAnswer} (h : Plain r) (hlimit : WithinLimit r) :
    Sendable (queryValue r) := by
  have hfiles : Sendable (.list (r.files.map fileValue)) := by
    refine .list ?_
    intro v hv
    obtain ⟨s, hs, rfl⟩ := List.mem_map.mp hv
    exact fileValue_sendable (h.names s hs) (hlimit s hs).1 (hlimit s hs).2
  rw [queryValue, joinSurrogates_encodable h.version, joinSurrogates_encodable h.clock]
  have hkeys : (["version", "clock", "is_fresh_instance", "files"] : List Text).Nodup := by decide
  have hobject := sendable_object [("version", .text r.version),
    ("clock", .text r.clock), ("is_fresh_instance", .bool r.isFreshInstance),
    ("files", .list (r.files.map fileValue))] hkeys (encodable_keys rfl)
  apply hobject
  simp only [List.forall_mem_cons]
  exact ⟨.text h.version, .text h.clock, .bool, hfiles, by simp⟩

/-- The value holds no tuples, so nothing of it changes on the way. -/
theorem queryValue_received (r : QueryAnswer) : received (queryValue r) = queryValue r := by
  have hfiles (files : List FileRecord) :
      receivedItems (files.map fileValue) = files.map fileValue := by
    induction files with
    | nil => rfl
    | cons s files ih =>
      rw [List.map_cons, receivedItems, ih]
      rfl
  rw [queryValue, received]
  simp only [Json.receivedEntries, received, hfiles]

theorem fileOf_fileValue {s : FileRecord} (hname : Encodable s.name) :
    FileOf (fileValue s) s := by
  rw [fileValue, joinSurrogates_encodable hname]
  have hflag (b : Bool) : b = true ↔ some (Value.bool b) = some (.bool true) := by simp
  exact .object rfl .present .present (hflag s.existing) (hflag s.isNew)

theorem answerOf_queryValue {r : QueryAnswer} (h : Plain r) : AnswerOf (queryValue r) r := by
  have hfiles : List.Forall₂ FileOf (r.files.map fileValue) r.files := by
    rw [List.forall₂_map_left_iff, List.forall₂_same]
    exact fun s hs => fileOf_fileValue (h.names s hs)
  rw [queryValue, joinSurrogates_encodable h.version, joinSurrogates_encodable h.clock]
  exact .object rfl rfl hfiles rfl rfl rfl

/-! Which answers are printed. -/

/-- An answer can be printed as JSON exactly if its integers are within the limit. -/
theorem queryValue_serializable {r : QueryAnswer} :
    Serializable (queryValue r) ↔ WithinLimit r := by
  have hfile (s : FileRecord) : Serializable (fileValue s) ↔
      s.mode.natAbs < 10 ^ Numeral.digitLimit ∧ s.size.natAbs < 10 ^ Numeral.digitLimit := by
    constructor
    · intro h
      cases h with
      | dict _ hvalues =>
        have hmode := hvalues (.text "mode", .int s.mode) (by simp)
        have hsize := hvalues (.text "size", .int s.size) (by simp)
        cases hmode with
        | int hmode =>
          cases hsize with
          | int hsize => exact ⟨hmode, hsize⟩
    · rintro ⟨hmode, hsize⟩
      refine .dict ?_ ?_
      · simp [Nameable.text]
      · simp [Serializable.text, Serializable.bool, Serializable.int hmode,
          Serializable.int hsize]
  constructor
  · intro h s hs
    cases h with
    | dict _ hvalues =>
      have hfiles := hvalues (.text "files", .list (r.files.map fileValue)) (by simp)
      cases hfiles with
      | list hitems => exact (hfile s).mp (hitems _ (List.mem_map_of_mem hs))
  · intro h
    have hfiles : Serializable (.list (r.files.map fileValue)) := by
      refine .list ?_
      intro v hv
      obtain ⟨s, hs, rfl⟩ := List.mem_map.mp hv
      exact (hfile s).mpr (h s hs)
    refine .dict ?_ ?_
    · simp [Nameable.text]
    · simp only [List.forall_mem_cons]
      exact ⟨.text, .text, .bool, hfiles, by simp⟩

/-! What is printed. -/

theorem indented_encodable {depth : Nat} {v : Value} {s : Text}
    (h : Json.encodeAt .indented depth v = .ok s) :
    Encodable s ↔ ∀ t, Json.TextIn t v → Encodable t :=
  Json.encodeAt_encodable (Json.encodable_of_all rfl) (Json.encodable_of_all rfl) h

theorem answerJson_run (r : QueryAnswer) (c : Console) (out : Text) :
    ((answerJson r).run c).run out = match Json.encode .indented (queryValue r) with
      | .ok s => ((write c.advice (s ++ ("\n" : Text))).run c).run out
      | .error e => .error (.json e) out := by
  unfold answerJson
  rw [printer_bind]
  cases Json.encode .indented (queryValue r) <;> rfl

theorem answerJson_prints {r : QueryAnswer} {s : Text}
    (h : Json.encode .indented (queryValue r) = .ok s) (htext : Encodable s) (c : Console)
    (out : Text) : ((answerJson r).run c).run out = .ok () (out ++ (s ++ ("\n" : Text))) := by
  have hline : Encodable (s ++ ("\n" : Text)) :=
    List.forall_mem_append.mpr ⟨htext, Json.encodable_of_all rfl⟩
  rw [answerJson_run, h]
  exact write_text c hline _ _

theorem answerJson_refuses {r : QueryAnswer} (h : ¬ WithinLimit r) (c : Console) (out : Text) :
    ∃ e, ((answerJson r).run c).run out = .error (.json e) out := by
  cases hs : Json.encode .indented (queryValue r) with
  | ok s => exact absurd (queryValue_serializable.mp (Json.encodeAt_ok.mp ⟨s, hs⟩)) h
  | error e =>
    refine ⟨e, ?_⟩
    rw [answerJson_run, hs]

/-- An answer that was taken from a reply is printed as one document on every console if its
integers are within the limit, as they are where the reply was read. That document, sent as a reply
itself, decodes to the same answer. Nothing is printed of any other answer. -/
theorem printed_answer_decodes {reply : Value} {r : QueryAnswer} (h : queryAnswer reply = .ok r)
    (hplain : Plain r) (c : Console) (out : Text) :
    (Decoded reply → WithinLimit r) ∧
    (WithinLimit r → ∃ s v frame,
      ((answerJson r).run c).run out = .ok () (out ++ (s ++ ("\n" : Text))) ∧
      Json.Document s v ∧ Utf8.encode (s ++ ("\n" : Text)) = .ok frame ∧
      Frame.decode frame = .ok v ∧ queryAnswer v = .ok r) ∧
    (¬ WithinLimit r → ∃ e, ((answerJson r).run c).run out = .error (.json e) out) := by
  refine ⟨?_, ?_, fun hbeyond => answerJson_refuses hbeyond c out⟩
  · intro hreply
    exact answerOf_within hreply ((Reply.queryAnswer_ok hreply.json).mp h)
  · intro hwithin
    have hsendable := queryValue_sendable hplain hwithin
    obtain ⟨s, hs, hdoc⟩ := Json.sendable_written Json.indented_spacing hsendable 0
    rw [queryValue_received] at hdoc
    have htext : Encodable s := (indented_encodable hs).mpr (Json.sendable_texts hsendable)
    have hline : Utf8.Encodes ("\n" : Text) [0x0a] :=
      Utf8.encodes_cons (c := '\n') (by decide) Utf8.encodes_nil
    have hframe := Utf8.encodes_append ⟨htext, rfl⟩ hline
    refine ⟨s, queryValue r, _, answerJson_prints hs htext c out, hdoc, Utf8.encode_ok.mpr hframe,
      ?_, ?_⟩
    · exact Frame.decode_document ⟨s, ⟨htext, rfl⟩, hdoc⟩
    · exact Reply.queryAnswer_accepts (Json.document_decoded hdoc).json
        (answerOf_queryValue hplain)

/-- A new file without a mode, and one of which only the name is known. -/
theorem two_files_printed :
    let file : Value := .dict [(.text "name", .text "b"), (.text "new", .bool true),
      (.text "size", .int 7)]
    let reply : Value := .dict [(.text "files", .list [file, .text "a"]),
      (.text "version", .text "1"), (.text "clock", .text "c"),
      (.text "is_fresh_instance", .bool false)]
    let r : QueryAnswer := ⟨[⟨"b", false, 0, true, 7⟩, { name := "a" }], "1", "c", false⟩
    queryAnswer reply = .ok r ∧
      ∃ s v frame, ((answerJson r).run {}).run [] = .ok () (s ++ ("\n" : Text)) ∧
        Json.Document s v ∧ Utf8.encode (s ++ ("\n" : Text)) = .ok frame ∧
        Frame.decode frame = .ok v ∧ queryAnswer v = .ok r := by
  intro file reply r
  have hreply : queryAnswer reply = .ok r := rfl
  have hseven : (7 : Int).natAbs < 10 ^ Numeral.digitLimit :=
    lt_of_lt_of_le (by decide) (Nat.pow_le_pow_right (by decide) (by decide : 1 ≤ _))
  have hfile : Decoded file :=
    .dict (by simp) (by simp [Decoded.text, Decoded.bool, Decoded.int hseven])
  have hdecoded : Decoded reply := by
    refine .dict (by simp) ?_
    simp [Decoded.text, Decoded.bool, Decoded.list, hfile]
  have hplain : Plain r := by
    refine ⟨Json.encodable_of_all rfl, Json.encodable_of_all rfl, ?_⟩
    intro s hs
    rcases List.mem_cons.mp hs with rfl | hs
    · exact Json.encodable_of_all rfl
    · obtain rfl := List.mem_singleton.mp hs
      exact Json.encodable_of_all rfl
  obtain ⟨hwithin, hprinted, -⟩ := printed_answer_decodes hreply hplain {} []
  exact ⟨hreply, hprinted (hwithin hdecoded)⟩

/-- A file whose size has one digit too many. -/
theorem long_size_not_printed :
    let file : Value := .dict [(.text "name", .text "a"),
      (.text "size", .int (10 ^ Numeral.digitLimit))]
    let reply : Value := .dict [(.text "files", .list [file]), (.text "version", .text "1"),
      (.text "clock", .text "c"), (.text "is_fresh_instance", .bool false)]
    let r : QueryAnswer := ⟨[{ name := "a", size := 10 ^ Numeral.digitLimit }], "1", "c", false⟩
    queryAnswer reply = .ok r ∧ Plain r ∧
      ∃ e, ((answerJson r).run {}).run [] = .error (.json e) [] := by
  intro file reply r
  have hbeyond : ¬ WithinLimit r := by
    intro hwithin
    have hsize := (hwithin _ (List.mem_singleton_self _)).2
    simp at hsize
  refine ⟨rfl, ⟨Json.encodable_of_all rfl, Json.encodable_of_all rfl, ?_⟩,
    answerJson_refuses hbeyond {} []⟩
  intro s hs
  obtain rfl := List.mem_singleton.mp hs
  exact Json.encodable_of_all rfl

end FileWatch.Report
