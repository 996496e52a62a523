import FileWatch.Failure
import FileWatch.Proofs.Json.Decoded
/-!
Verdicts on replies. A reply that was read either is what its command calls for, or the error says
that the daemon refused the command or that the shape is wrong. No such reply is left without a
verdict, since every part of it can be shown in a message; a part that holds an integer over the
limit cannot.
-/

namespace FileWatch

namespace Template

def Unmarked (t : Text) : Prop := t.all (· != '%') = true

theorem unmarked_append {s t : Text} (hs : Unmarked s) (ht : Unmarked t) : Unmarked (s ++ t) := by
  rw [Unmarked, List.all_append, Bool.and_eq_true]
  exact ⟨hs, ht⟩

theorem fillFrom_mark {p : Text} (h : Unmarked p) (t : Text) :
    ∀ position, fillFrom t false position 0 (p ++ "%s") = .ok (p ++ t) := by
  induction p with
  | nil =>
    intro position
    have hmark : mark false ['s'] = .ok (⟨false, 0, none, 's'⟩, []) := rfl
    have hletter : ¬ CodePoint.ofChar 's' = CodePoint.ofChar '%' := by decide
    have hshow : ∀ n, Mark.show ⟨false, 0, none, 's'⟩ n t = .ok t := by
      intro n
      simp only [Mark.show, if_true, Nat.zero_sub]
      rfl
    change fillFrom t false position 0 ['%', 's'] = .ok t
    rw [fillFrom, if_pos rfl, hmark]
    simp only [bind, Except.bind, hletter, hshow, if_false, Bool.false_eq_true]
    change Except.ok (t ++ []) = Except.ok t
    rw [List.append_nil]
  | cons c p ih =>
    intro position
    rw [Unmarked, List.all_cons, Bool.and_eq_true, bne_iff_ne] at h
    rw [List.cons_append, fillFrom, if_neg h.1, ih h.2]
    rfl

/-- A template whose one mark stands at its end is filled by any text. -/
theorem fill_mark {p : Text} (h : Unmarked p) (t : Text) : fill (p ++ "%s") t = .ok (p ++ t) :=
  fillFrom_mark h t 0

end Template

namespace Reply

open FileWatch.Json (Decoded DecodedEntries HoldsLong JsonValue)
open FileWatch.Template (Unmarked)

variable {α β : Type}

/-- Whether an error is a verdict on the reply: the command was refused or the shape is wrong. -/
def Verdict (e : Error) : Prop :=
  (Failure.reply e).category? = some .command ∨ (Failure.reply e).category? = some .responseShape

theorem verdict_refused (command reason : Text) : Verdict (.refused command reason) := Or.inl rfl

theorem verdict_shape (expected : Shape) (message : Text) : Verdict (.shape expected message) :=
  Or.inr rfl

inductive Judged (P : α → Prop) : Except Error α → Prop where
  | ok {a} : P a → Judged P (.ok a)
  | error {e} : Verdict e → Judged P (.error e)

theorem Judged.bind {P : α → Prop} {Q : β → Prop} {x : Except Error α} {f : α → Except Error β}
    (hx : Judged P x) (hf : ∀ a, P a → Judged Q (f a)) : Judged Q (x >>= f) := by
  cases hx with
  | ok ha => exact hf _ ha
  | error he => exact .error he

theorem judged_mapM {P : α → Prop} {f : α → Except Error β} {items : List α}
    (hitems : ∀ a ∈ items, P a) (hf : ∀ a, P a → Judged (fun _ => True) (f a)) :
    Judged (fun _ => True) (items.mapM f) := by
  induction items with
  | nil => exact .ok trivial
  | cons a items ih =>
    rw [List.mapM_cons]
    refine (hf a (hitems a (by simp))).bind ?_
    intro b _
    refine (ih fun a' ha' => hitems a' (by simp [ha'])).bind ?_
    intro bs _
    exact .ok trivial

/-! Messages about a part of a reply. -/

theorem fragment_decoded {v : Value} (h : Decoded v) : ∃ t, fragment v = .ok t := by
  obtain ⟨t, ht⟩ := Json.decoded_encodes .spaced h 0
  refine ⟨t, ?_⟩
  rw [fragment, Json.encode, ht]

theorem fragment_long {v : Value} (h : HoldsLong v) : ∃ e, fragment v = .error e := by
  obtain ⟨e, he⟩ := Json.long_unwritten h []
  cases hencode : Json.encode .spaced v with
  | ok t => exact absurd (Json.encodeAt_ok.mp ⟨t, hencode⟩) (Json.long_unserializable h)
  | error _ =>
    refine ⟨e, ?_⟩
    rw [fragment, hencode]
    exact he

def Shape.Named : Shape → Prop
  | .reply command => Unmarked command
  | _ => True

theorem template_marked {expected : Shape} (h : expected.Named) :
    ∃ p, Unmarked p ∧ expected.template = p ++ "%s" := by
  cases expected with
  | reply command =>
    refine ⟨("Got non-object result from watchman " : Text) ++ command ++ ": ", ?_, ?_⟩
    · exact Template.unmarked_append (Template.unmarked_append rfl h) rfl
    · rw [Shape.template, List.append_assoc _ _ ("%s" : Text)]
      rfl
  | files => exact ⟨"Bad files ", rfl, by simp [Shape.template, Text.ofString]⟩
  | file => exact ⟨"must be object: ", rfl, by simp [Shape.template, Text.ofString]⟩
  | fileName => exact ⟨"name must be string: ", rfl, by simp [Shape.template, Text.ofString]⟩
  | fileMode => exact ⟨"mode must be integer: ", rfl, by simp [Shape.template, Text.ofString]⟩
  | fileSize => exact ⟨"size must be integer: ", rfl, by simp [Shape.template, Text.ofString]⟩
  | version => exact ⟨"Bad version ", rfl, by simp [Shape.template, Text.ofString]⟩
  | clock => exact ⟨"Bad clock ", rfl, by simp [Shape.template, Text.ofString]⟩
  | freshness => exact ⟨"Bad is_fresh_instance ", rfl, by simp [Shape.template, Text.ofString]⟩
  | roots =>
    exact ⟨"Got bogus value from watch-list ", rfl, by simp [Shape.template, Text.ofString]⟩
  | root =>
    exact ⟨"Got non-string root from watch-list ", rfl, by simp [Shape.template, Text.ofString]⟩

theorem misshapen_shape (expected : Shape) (hnamed : expected.Named) {v : Value}
    (h : Decoded v) : ∃ message, misshapen expected v = .shape expected message := by
  obtain ⟨t, ht⟩ := fragment_decoded h
  obtain ⟨p, hp, htemplate⟩ := template_marked hnamed
  refine ⟨p ++ t, ?_⟩
  rw [misshapen, ht]
  simp only [htemplate, Template.fill_mark hp]

theorem misshapen_long (expected : Shape) {v : Value} (h : HoldsLong v) :
    ∃ e, misshapen expected v = .tooLong e := by
  obtain ⟨e, he⟩ := fragment_long h
  exact ⟨e, by rw [misshapen, he]⟩

theorem misshapen_decoded (expected : Shape) (hnamed : expected.Named) {v : Value}
    (h : Decoded v) : Verdict (misshapen expected v) := by
  obtain ⟨message, hmessage⟩ := misshapen_shape expected hnamed h
  rw [hmessage]
  exact verdict_shape _ _

/-! Parts of a reply. -/

structure Inherited (P : Value → Prop) : Prop where
  null : P .null
  item : ∀ {vs : List Value} {v : Value}, P (.list vs) → v ∈ vs → P v
  entry : ∀ {es : List (Value × Value)} {e : Value × Value}, P (.dict es) → e ∈ es → P e.2

theorem json_inherited : Inherited JsonValue := by
  refine ⟨.null, fun h hv => ?_, fun h he => ?_⟩
  · cases h with
    | list hitems => exact hitems _ hv
  · cases h with
    | dict _ hvalues => exact hvalues _ he

theorem decoded_inherited : Inherited Decoded := by
  refine ⟨.null, fun h hv => ?_, fun h he => ?_⟩
  · cases h with
    | list hitems => exact hitems _ hv
  · cases h with
    | dict _ hvalues => exact hvalues _ he

theorem Inherited.lookup {P : Value → Prop} (hP : Inherited P) {name : Text}
    {es : List (Value × Value)} {v : Value} (h : P (.dict es))
    (hv : Value.lookup? name es = some v) : P v := by
  rw [Value.lookup?, Option.map_eq_some_iff] at hv
  obtain ⟨e, he, rfl⟩ := hv
  exact hP.entry h (List.mem_of_find?_eq_some he)

theorem Inherited.field {P : Value → Prop} (hP : Inherited P) (name : String)
    {es : List (Value × Value)} (h : P (.dict es)) : P (field name es) := by
  rw [Reply.field]
  cases hv : Value.lookup? name es with
  | none => exact hP.null
  | some v => exact hP.lookup h hv

theorem dict_decoded {es : List (Value × Value)} (h : DecodedEntries es) : Decoded (.dict es) :=
  .dict h.1 h.2

theorem envelope_accepts (command : Text) {es : List (Value × Value)} (h : JsonValue (.dict es))
    (hnone : Value.lookup? "error" es = none) : envelope command (.dict es) = .ok es := by
  rw [envelope, Json.ownEntries_json fun e he => json_inherited.entry h he]
  simp only [hnone]

/-- A command is refused for whatever reason can be shown. -/
theorem envelope_refuses (command : Text) {es : List (Value × Value)} (h : JsonValue (.dict es))
    {reason : Value} (hreason : Value.lookup? "error" es = some reason)
    (hshort : ¬ HoldsLong reason) :
    ∃ t, envelope command (.dict es) = .error (.refused command t) := by
  obtain ⟨t, ht⟩ := fragment_decoded ((json_inherited.lookup h hreason).decoded hshort)
  rw [envelope, Json.ownEntries_json fun e he => json_inherited.entry h he]
  cases reason with
  | text t => exact ⟨t, by simp only [hreason]⟩
  | _ => exact ⟨t, by simp only [hreason, ht]⟩

theorem envelope_long (command : Text) {es : List (Value × Value)} (h : JsonValue (.dict es))
    {reason : Value} (hreason : Value.lookup? "error" es = some reason) (hlong : HoldsLong reason) :
    ∃ e, envelope command (.dict es) = .error (.tooLong e) := by
  obtain ⟨e, he⟩ := fragment_long hlong
  refine ⟨e, ?_⟩
  rw [envelope, Json.ownEntries_json fun e he => json_inherited.entry h he]
  cases hlong with
  | int _ | item _ _ | entry _ _ => simp only [hreason, he]

theorem envelope_judged (command : Text) (hcommand : Unmarked command) {v : Value}
    (h : Decoded v) : Judged DecodedEntries (envelope command v) := by
  have hv := h
  cases h with
  | @dict es hkeys hvalues =>
    have hentries : DecodedEntries es := ⟨hkeys, hvalues⟩
    cases hreason : Value.lookup? "error" es with
    | none =>
      rw [envelope_accepts command hv.json hreason]
      exact .ok hentries
    | some reason =>
      have hshort := (decoded_inherited.lookup hv hreason).short
      obtain ⟨t, hrefused⟩ := envelope_refuses command hv.json hreason hshort
      rw [hrefused]
      exact .error (verdict_refused command t)
  | null | bool | int _ | float | text | list _ =>
    exact .error (misshapen_decoded (.reply command) hcommand hv)

/-- Every list of watched roots decodes or gets a verdict. -/
theorem watchedRoots_judged {v : Value} (h : Decoded v) :
    Judged (fun _ => True) (watchedRoots v) := by
  refine (envelope_judged "watch-list" rfl h).bind ?_
  intro entries hentries
  dsimp only
  split
  · rename_i items hitems
    have hroots := decoded_inherited.field "roots" (dict_decoded hentries)
    rw [hitems] at hroots
    have hitem : ∀ v ∈ items, Decoded v := fun v hv => decoded_inherited.item hroots hv
    rw [Json.ownItems_json fun v hv => (hitem v hv).json]
    refine (judged_mapM hitem ?_).bind fun _ _ => .ok trivial
    intro root hroot
    split
    · exact .ok trivial
    · exact .error (misshapen_decoded .root trivial hroot)
  · exact .error (misshapen_decoded .roots trivial h)

end Reply

end FileWatch
