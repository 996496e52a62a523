import FileWatch.Proofs.Json.Written
import FileWatch.Proofs.Lists
import FileWatch.Value.Literal
import FileWatch.Value.Part
import Mathlib.Data.List.Induction
/-!
Values of JSON, and those of them that documents denote. They hold no reference to a container
around them, so each of their parts is a value of its own. What a document denotes has a text in
every layout, for it holds no integer over the limit; a value that does has neither a text nor a
literal.
-/

namespace FileWatch.Json

/-- A value of JSON, with integers of any size. -/
inductive JsonValue : Value → Prop where
  | null : JsonValue .null
  | bool {b} : JsonValue (.bool b)
  | int {n} : JsonValue (.int n)
  | float {x} : JsonValue (.float x)
  | text {t} : JsonValue (.text t)
  | list {vs} : (∀ v ∈ vs, JsonValue v) → JsonValue (.list vs)
  | dict {es} : (∀ e ∈ es, ∃ key, e.1 = .text key) → (∀ e ∈ es, JsonValue e.2) →
      JsonValue (.dict es)

inductive HoldsLong : Value → Prop where
  | int {n} : 10 ^ Numeral.digitLimit ≤ n.natAbs → HoldsLong (.int n)
  | item {v vs} : v ∈ vs → HoldsLong v → HoldsLong (.list vs)
  | entry {e es} : e ∈ es → HoldsLong e.2 → HoldsLong (.dict es)

inductive Decoded : Value → Prop where
  | null : Decoded .null
  | bool {b} : Decoded (.bool b)
  | int {n} : n.natAbs < 10 ^ Numeral.digitLimit → Decoded (.int n)
  | float {x} : Decoded (.float x)
  | text {t} : Decoded (.text t)
  | list {vs} : (∀ v ∈ vs, Decoded v) → Decoded (.list vs)
  | dict {es} : (∀ e ∈ es, ∃ key, e.1 = .text key) → (∀ e ∈ es, Decoded e.2) →
      Decoded (.dict es)

/-! What documents denote. -/

theorem digitsValue_bound {s : Text} (h : ∀ c ∈ s, c.isAsciiDigit = true) :
    Numeral.digitsValue s < 10 ^ s.length := by
  induction s using List.reverseRecOn with
  | nil => exact Nat.one_pos
  | append_singleton s c ih =>
    have hs := ih fun d hd => h d (by simp [hd])
    have hc := h c (by simp)
    simp only [CodePoint.isAsciiDigit, Bool.and_eq_true, decide_eq_true_eq] at hc
    have hdigit : c.asciiDigit? = some (c.val - 0x30) := by
      simp [CodePoint.asciiDigit?, hc.1, hc.2]
    rw [digitsValue_append hdigit, List.length_append, List.length_singleton, Nat.pow_succ]
    omega

theorem unsigned_decoded {negative : Bool} {s : Text} {v : Value} (h : Unsigned negative s v) :
    Decoded v := by
  cases h with
  | real _ _ _ _ => exact .float
  | integer hw hl =>
    have hbound := digitsValue_bound (whole_digits hw).2
    have hlimit : 10 ^ s.length ≤ 10 ^ Numeral.digitLimit := Nat.pow_le_pow_right (by decide) hl
    apply Decoded.int
    cases negative with
    | true =>
      simp only [signed, if_true, Int.natAbs_neg, Int.natAbs_natCast]
      omega
    | false =>
      simp only [signed, Bool.false_eq_true, if_false, Int.natAbs_natCast]
      omega

def DecodedEntries (es : List (Value × Value)) : Prop :=
  (∀ e ∈ es, ∃ key, e.1 = .text key) ∧ ∀ e ∈ es, Decoded e.2

theorem decodedEntries_cons {e : Value × Value} {es : List (Value × Value)} :
    DecodedEntries (e :: es) ↔ ((∃ key, e.1 = .text key) ∧ Decoded e.2) ∧ DecodedEntries es := by
  simp only [DecodedEntries, List.forall_mem_cons]
  constructor
  · rintro ⟨⟨hk, hks⟩, hv, hvs⟩
    exact ⟨⟨hk, hv⟩, hks, hvs⟩
  · rintro ⟨⟨hk, hv⟩, hks, hvs⟩
    exact ⟨⟨hk, hks⟩, hv, hvs⟩

theorem insertEntry_decoded {key : Text} {v : Value} {es : List (Value × Value)}
    (hv : Decoded v) (h : DecodedEntries es) :
    DecodedEntries (Value.insertEntry (.text key) v es) := by
  induction es with
  | nil => exact decodedEntries_cons.mpr ⟨⟨⟨key, rfl⟩, hv⟩, h⟩
  | cons e es ih =>
    obtain ⟨k, u⟩ := e
    obtain ⟨⟨hk, hu⟩, hes⟩ := decodedEntries_cons.mp h
    rw [Value.insertEntry]
    split
    · exact decodedEntries_cons.mpr ⟨⟨hk, hv⟩, hes⟩
    · exact decodedEntries_cons.mpr ⟨⟨hk, hu⟩, ih hes⟩

theorem collect_decoded {ms : List (Text × Value)} (h : ∀ m ∈ ms, Decoded m.2) :
    DecodedEntries (collect ms) := by
  have from_front : ∀ es, DecodedEntries es → DecodedEntries
      (ms.foldl (fun entries m => Value.insertEntry (.text m.1) m.2 entries) es) := by
    induction ms with
    | nil => exact fun es hes => hes
    | cons m ms ih =>
      intro es hes
      exact ih (fun m' hm' => h m' (by simp [hm'])) _ (insertEntry_decoded (h m (by simp)) hes)
  exact from_front [] ⟨by simp, by simp⟩

def PartDecoded : Part → Prop
  | .value v => Decoded v
  | .items vs => ∀ v ∈ vs, Decoded v
  | .member _ v => Decoded v
  | .members ms => ∀ m ∈ ms, Decoded m.2

theorem word_decoded {w : String} {v : Value} (h : (w, v) ∈ words) : Decoded v := by
  simp only [words, List.mem_cons, Prod.mk.injEq, List.not_mem_nil, or_false] at h
  rcases h with ⟨-, rfl⟩ | ⟨-, rfl⟩ | ⟨-, rfl⟩ | ⟨-, rfl⟩ | ⟨-, rfl⟩ | ⟨-, rfl⟩
  · exact .null
  · exact .bool
  · exact .bool
  · exact .float
  · exact .float
  · exact .float

theorem spells_decoded {s : Text} {p : Part} (h : Spells s p) : PartDecoded p := by
  induction h with
  | word hw => exact word_decoded hw
  | number h =>
    cases h with
    | positive h => exact unsigned_decoded h
    | negative h => exact unsigned_decoded h
  | string _ => exact Decoded.text
  | emptyList _ => exact Decoded.list (by simp)
  | list _ _ ih => exact Decoded.list ih
  | emptyDict _ => exact Decoded.dict (by simp) (by simp)
  | dict _ _ ih => exact Decoded.dict (collect_decoded ih).1 (collect_decoded ih).2
  | lastItem _ _ ih =>
    intro v hv
    obtain rfl := List.mem_singleton.mp hv
    exact ih
  | item _ _ _ _ ih ih' => exact List.forall_mem_cons.mpr ⟨ih, ih'⟩
  | member _ _ _ _ ih => exact ih
  | lastMember _ _ ih =>
    intro m hm
    obtain rfl := List.mem_singleton.mp hm
    exact ih
  | moreMembers _ _ _ _ ih ih' => exact List.forall_mem_cons.mpr ⟨ih, ih'⟩

theorem document_decoded {s : Text} {v : Value} (h : Document s v) : Decoded v := spells_decoded h

/-! What can be written. -/

theorem decoded_serializable {v : Value} (h : Decoded v) : Serializable v := by
  induction h with
  | null => exact .null
  | bool => exact .bool
  | int hn => exact .int hn
  | float => exact .float
  | text => exact .text
  | list _ ih => exact .list ih
  | dict hkeys _ ih =>
    refine .dict ?_ ih
    intro e he
    obtain ⟨key, hkey⟩ := hkeys e he
    rw [hkey]
    exact .text

/-- Whatever was read can be written. -/
theorem decoded_encodes (l : Layout) {v : Value} (h : Decoded v) (depth : Nat) :
    ∃ t, encodeAt l depth v = .ok t := encodeAt_ok.mpr (decoded_serializable h)

/-! Integers over the limit. -/

theorem Decoded.json {v : Value} (h : Decoded v) : JsonValue v := by
  induction h with
  | null => exact .null
  | bool => exact .bool
  | int _ => exact .int
  | float => exact .float
  | text => exact .text
  | list _ ih => exact .list ih
  | dict hkeys _ ih => exact .dict hkeys ih

theorem JsonValue.decoded {v : Value} (h : JsonValue v) (hshort : ¬ HoldsLong v) : Decoded v := by
  induction h with
  | null => exact .null
  | bool => exact .bool
  | int => exact .int (Nat.not_le.mp fun hlong => hshort (.int hlong))
  | float => exact .float
  | text => exact .text
  | list _ ih => exact .list fun v hv => ih v hv fun hlong => hshort (.item hv hlong)
  | dict hkeys _ ih => exact .dict hkeys fun e he => ih e he fun hlong => hshort (.entry he hlong)

theorem long_unserializable {v : Value} (h : HoldsLong v) : ¬ Serializable v := by
  induction h with
  | int hlong =>
    rintro (_ | _ | hshort)
    exact absurd hshort (Nat.not_lt.mpr hlong)
  | item hmem _ ih =>
    intro hserializable
    cases hserializable with
    | list hitems => exact ih (hitems _ hmem)
  | entry hmem _ ih =>
    intro hserializable
    cases hserializable with
    | dict _ hvalues => exact ih (hvalues _ hmem)

theorem Decoded.short {v : Value} (h : Decoded v) : ¬ HoldsLong v :=
  fun hlong => long_unserializable hlong (decoded_serializable h)

theorem literals_item {inDict : List Bool} {v : Value} {vs : List Value} {ts : List Text}
    (hv : v ∈ vs) (h : Value.literalsWithin inDict vs = .ok ts) :
    ∃ t, Value.literalWithin inDict v = .ok t := by
  induction vs generalizing ts with
  | nil => cases hv
  | cons u vs ih =>
    obtain ⟨t, ht, h⟩ := except_bind_ok.mp h
    obtain ⟨ts, hts, -⟩ := except_bind_ok.mp h
    rcases List.mem_cons.mp hv with rfl | hv
    · exact ⟨t, ht⟩
    · exact ih hv hts

theorem literals_entry {inDict : List Bool} {e : Value × Value} {es : List (Value × Value)}
    {ts : List Text} (he : e ∈ es) (h : Value.entryLiterals inDict es = .ok ts) :
    ∃ t, Value.literalWithin inDict e.2 = .ok t := by
  induction es generalizing ts with
  | nil => cases he
  | cons d es ih =>
    obtain ⟨_, -, h⟩ := except_bind_ok.mp h
    obtain ⟨t, ht, h⟩ := except_bind_ok.mp h
    obtain ⟨ts, hts, -⟩ := except_bind_ok.mp h
    rcases List.mem_cons.mp he with rfl | he
    · exact ⟨t, ht⟩
    · exact ih he hts

theorem long_unwritten {v : Value} (h : HoldsLong v) (inDict : List Bool) :
    ∃ e, Value.literalWithin inDict v = .error e := by
  suffices hnone : ∀ t, Value.literalWithin inDict v ≠ .ok t by
    cases hliteral : Value.literalWithin inDict v with
    | ok t => exact absurd hliteral (hnone t)
    | error e => exact ⟨e, rfl⟩
  induction h generalizing inDict with
  | int hlong =>
    intro t hliteral
    rw [Value.literalWithin, Numeral.write, if_neg (Nat.not_lt.mpr hlong)] at hliteral
    cases hliteral
  | item hmem _ ih =>
    intro t hliteral
    obtain ⟨ts, hts, -⟩ := except_bind_ok.mp hliteral
    obtain ⟨u, hu⟩ := literals_item hmem hts
    exact ih _ u hu
  | entry hmem _ ih =>
    intro t hliteral
    obtain ⟨ts, hts, -⟩ := except_bind_ok.mp hliteral
    obtain ⟨u, hu⟩ := literals_entry hmem hts
    exact ih _ u hu

/-! Parts of their own. -/

theorem rebindItems_same (around : Nat → Value) (depth : Nat) {vs : List Value}
    (h : ∀ v ∈ vs, ∀ d, Value.rebind around d v = v) :
    Value.rebindItems around depth vs = vs := by
  induction vs with
  | nil => rfl
  | cons v vs ih =>
    rw [Value.rebindItems, h v (by simp), ih fun u hu => h u (by simp [hu])]

theorem rebindEntries_same (around : Nat → Value) (depth : Nat) {es : List (Value × Value)}
    (h : ∀ e ∈ es, ∀ d, Value.rebind around d e.2 = e.2) :
    Value.rebindEntries around depth es = es := by
  induction es with
  | nil => rfl
  | cons e es ih =>
    rw [Value.rebindEntries, h e (by simp), ih fun u hu => h u (by simp [hu])]

/-- Where nothing refers to a container there is nothing to replace. -/
theorem json_rebind (around : Nat → Value) {v : Value} (h : JsonValue v) :
    ∀ depth, Value.rebind around depth v = v := by
  induction h with
  | null | bool | int | float | text => exact fun _ => rfl
  | list _ ih =>
    intro depth
    rw [Value.rebind, rebindItems_same around (depth + 1) ih]
  | dict _ _ ih =>
    intro depth
    rw [Value.rebind, rebindEntries_same around (depth + 1) ih]

theorem json_ownPart (whole : Value) (holding : Value → Value) {v : Value} (h : JsonValue v) :
    Value.ownPart whole holding v = v := by
  have hsame := json_rebind (fun depth => holding (.enclosing (depth + 1))) h 0
  cases h <;> exact hsame

theorem mapIdx_same {α : Type} {f : Nat → α → α} {l : List α} (h : ∀ i, ∀ a ∈ l, f i a = a) :
    l.mapIdx f = l := by
  apply List.ext_getElem
  · simp
  · intro i h₁ h₂
    rw [List.getElem_mapIdx]
    exact h i _ (List.getElem_mem h₂)

theorem ownItems_json {vs : List Value} (h : ∀ v ∈ vs, JsonValue v) :
    Value.ownItems vs = vs :=
  mapIdx_same fun _ v hv => json_ownPart _ _ (h v hv)

theorem ownEntries_json {es : List (Value × Value)} (h : ∀ e ∈ es, JsonValue e.2) :
    Value.ownEntries es = es := by
  apply mapIdx_same
  intro i e he
  dsimp only
  rw [json_ownPart _ _ (h e he)]

end FileWatch.Json
