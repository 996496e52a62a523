import FileWatch.Proofs.Json.Texts
/-!
Which values have a text, and which code points that text holds. A layout adds none but its own
white space and separators, so what a text holds beyond ASCII comes from the texts in its value.
-/

namespace FileWatch.Json

inductive Nameable : Value → Prop where
  | null : Nameable .null
  | bool {b} : Nameable (.bool b)
  | int {n} : n.natAbs < 10 ^ Numeral.digitLimit → Nameable (.int n)
  | float {x} : Nameable (.float x)
  | text {t} : Nameable (.text t)

/-- The values of the kinds that JSON has: no integer over the limit, and no container that holds
itself. -/
inductive Serializable : Value → Prop where
  | null : Serializable .null
  | bool {b} : Serializable (.bool b)
  | int {n} : n.natAbs < 10 ^ Numeral.digitLimit → Serializable (.int n)
  | float {x} : Serializable (.float x)
  | text {t} : Serializable (.text t)
  | list {vs} : (∀ v ∈ vs, Serializable v) → Serializable (.list vs)
  | tuple {vs} : (∀ v ∈ vs, Serializable v) → Serializable (.tuple vs)
  | dict {es} : (∀ e ∈ es, Nameable e.1) → (∀ e ∈ es, Serializable e.2) → Serializable (.dict es)

inductive TextIn (t : Text) : Value → Prop where
  | self : TextIn t (.text t)
  | list {v vs} : v ∈ vs → TextIn t v → TextIn t (.list vs)
  | tuple {v vs} : v ∈ vs → TextIn t v → TextIn t (.tuple vs)
  | key {v es} : (.text t, v) ∈ es → TextIn t (.dict es)
  | dict {e es} : e ∈ es → TextIn t e.2 → TextIn t (.dict es)

/-! Whatever has a text is serializable. -/

theorem keyText_nameable {k : Value} {t : Text} (h : keyText k = .ok t) : Nameable k := by
  cases k with
  | null => exact .null
  | bool b => exact .bool
  | float x => exact .float
  | text t => exact .text
  | int n =>
    rw [keyText, Numeral.write] at h
    split at h
    · exact .int ‹_›
    · cases h
  | bytes | list | tuple | set | dict | expression | term | basis | scope | moment | civil
  | enclosing =>
    cases h

mutual

theorem encodeAt_serializable {l : Layout} {depth : Nat} {v : Value} {t : Text}
    (h : encodeAt l depth v = .ok t) : Serializable v := by
  cases v with
  | null => exact .null
  | bool b => exact .bool
  | float x => exact .float
  | text t => exact .text
  | int n =>
    rw [encodeAt, Numeral.write] at h
    split at h
    · exact .int ‹_›
    · cases h
  | list items =>
    cases hitems : encodeItems l (depth + 1) items with
    | ok ts => exact .list (encodeItems_serializable hitems)
    | error e => rw [encodeAt, hitems] at h; cases h
  | tuple items =>
    cases hitems : encodeItems l (depth + 1) items with
    | ok ts => exact .tuple (encodeItems_serializable hitems)
    | error e => rw [encodeAt, hitems] at h; cases h
  | dict entries =>
    cases hentries : encodeEntries l (depth + 1) entries with
    | ok ts =>
      obtain ⟨hkeys, hvalues⟩ := encodeEntries_serializable hentries
      exact .dict hkeys hvalues
    | error e => rw [encodeAt, hentries] at h; cases h
  | bytes | set | expression | term | basis | scope | moment | civil | enclosing => cases h
  termination_by structural v

theorem encodeItems_serializable {l : Layout} {depth : Nat} {vs : List Value} {ts : List Text}
    (h : encodeItems l depth vs = .ok ts) : ∀ v ∈ vs, Serializable v := by
  cases vs with
  | nil => simp
  | cons v vs =>
    cases hv : encodeAt l depth v with
    | error e => rw [encodeItems, hv] at h; cases h
    | ok t =>
      cases hvs : encodeItems l depth vs with
      | error e => rw [encodeItems, hv, hvs] at h; cases h
      | ok ts =>
        exact List.forall_mem_cons.mpr ⟨encodeAt_serializable hv, encodeItems_serializable hvs⟩
  termination_by structural vs

theorem encodeEntries_serializable {l : Layout} {depth : Nat} {es : List (Value × Value)}
    {ts : List Text} (h : encodeEntries l depth es = .ok ts) :
    (∀ e ∈ es, Nameable e.1) ∧ ∀ e ∈ es, Serializable e.2 := by
  cases es with
  | nil => simp
  | cons e es =>
    obtain ⟨k, v⟩ := e
    cases hk : keyText k with
    | error e => rw [encodeEntries, hk] at h; cases h
    | ok key =>
      cases hv : encodeAt l depth v with
      | error e => rw [encodeEntries, hk, hv] at h; cases h
      | ok t =>
        cases hes : encodeEntries l depth es with
        | error e => rw [encodeEntries, hk, hv, hes] at h; cases h
        | ok ts =>
          obtain ⟨hkeys, hvalues⟩ := encodeEntries_serializable hes
          exact ⟨List.forall_mem_cons.mpr ⟨keyText_nameable hk, hkeys⟩,
            List.forall_mem_cons.mpr ⟨encodeAt_serializable hv, hvalues⟩⟩
  termination_by structural es

end

/-! Whatever is serializable has a text. -/

def Each (P : CodePoint → Prop) (t : Text) : Prop := ∀ c ∈ t, P c

section

variable {P : CodePoint → Prop}

theorem each_append {s t : Text} : Each P (s ++ t) ↔ Each P s ∧ Each P t := List.forall_mem_append

theorem each_cons {c : CodePoint} {t : Text} : Each P (c :: t) ↔ P c ∧ Each P t :=
  List.forall_mem_cons

/-- The layout adds only code points with a property, which the graphic ones have. -/
structure Layout.Adds (l : Layout) (P : CodePoint → Prop) : Prop where
  graphic : ∀ c, isGraphic c = true → P c
  afterItem : Each P l.afterItem
  afterKey : Each P l.afterKey
  lineBreak : ∀ depth, Each P (l.lineBreak depth)

variable {l : Layout}

theorem Layout.Adds.of_graphic (hl : l.Adds P) {t : Text} (h : Graphic t) : Each P t :=
  fun c hc => hl.graphic c (h c hc)

theorem join_each {separator : Text} (hs : Each P separator) (ts : List Text) :
    Each P (Text.join separator ts) ↔ ∀ t ∈ ts, Each P t := by
  induction ts with
  | nil => simp [Text.join, Each]
  | cons t ts ih =>
    cases ts with
    | nil => exact List.forall_mem_singleton.symm
    | cons t' ts =>
      rw [Text.join, each_append, each_append, ih]
      · refine Iff.trans ?_ List.forall_mem_cons.symm
        exact ⟨fun h => ⟨h.1.1, h.2⟩, fun h => ⟨⟨h.1, hs⟩, h.2⟩⟩
      · exact List.cons_ne_nil _ _

theorem enclose_each (hl : l.Adds P) (depth : Nat) {opening closing : CodePoint}
    (hopening : isGraphic opening = true) (hclosing : isGraphic closing = true) (ts : List Text) :
    Each P (l.enclose depth opening closing ts) ↔ ∀ t ∈ ts, Each P t := by
  have ho := hl.graphic opening hopening
  have hc : Each P [closing] := hl.of_graphic (graphic_cons hclosing (graphic_of_all rfl))
  unfold Layout.enclose
  cases ts with
  | nil =>
    have hpair : Each P [opening, closing] := each_cons.mpr ⟨ho, hc⟩
    exact iff_of_true hpair (by simp)
  | cons t ts =>
    have hseparator := each_append.mpr ⟨hl.afterItem, hl.lineBreak (depth + 1)⟩
    simp only [List.isEmpty_cons, Bool.false_eq_true, if_false, List.cons_append, each_cons,
      each_append, join_each hseparator]
    refine ⟨fun h => h.2.1.1.2, fun h => ?_⟩
    exact ⟨ho, ⟨⟨hl.lineBreak _, h⟩, hl.lineBreak _⟩, each_cons.mp hc⟩

theorem writeString_each (hl : l.Adds P) (t : Text) :
    Each P (writeString t) ↔ Each P (t.flatMap escaped) := by
  have hquote : Each P (['"'] : Text) := hl.of_graphic (graphic_of_all rfl)
  rw [writeString_eq, each_cons, each_append]
  exact ⟨fun h => h.2.1, fun h => ⟨hl.graphic _ rfl, h, hquote⟩⟩

def TextsEach (P : CodePoint → Prop) (v : Value) : Prop :=
  ∀ t, TextIn t v → Each P (t.flatMap escaped)

theorem textsEach_text (t : Text) : TextsEach P (.text t) ↔ Each P (t.flatMap escaped) := by
  constructor
  · exact fun h => h t .self
  · rintro h s ⟨⟩
    exact h

theorem textsEach_list (vs : List Value) :
    TextsEach P (.list vs) ↔ ∀ v ∈ vs, TextsEach P v := by
  constructor
  · exact fun h v hv t ht => h t (.list hv ht)
  · rintro h t (⟨⟩ | ⟨hv, ht⟩)
    exact h _ hv t ht

theorem textsEach_tuple (vs : List Value) :
    TextsEach P (.tuple vs) ↔ ∀ v ∈ vs, TextsEach P v := by
  constructor
  · exact fun h v hv t ht => h t (.tuple hv ht)
  · rintro h t (⟨⟩ | ⟨⟩ | ⟨hv, ht⟩)
    exact h _ hv t ht

theorem textsEach_dict (es : List (Value × Value)) : TextsEach P (.dict es) ↔
    ∀ e ∈ es, (∀ t, e.1 = .text t → Each P (t.flatMap escaped)) ∧ TextsEach P e.2 := by
  constructor
  · rintro h ⟨k, v⟩ he
    refine ⟨?_, fun t ht => h t (.dict he ht)⟩
    rintro t rfl
    exact h t (.key he)
  · rintro h t ht
    cases ht with
    | key he => exact (h _ he).1 t rfl
    | dict he ht => exact (h _ he).2 t ht

theorem textsEach_none {v : Value} (h : ∀ t, ¬ TextIn t v) : TextsEach P v :=
  fun t ht => absurd ht (h t)

def Brings (P : CodePoint → Prop) (r : Except EncodeError Text) (v : Value) : Prop :=
  ∃ s, r = .ok s ∧ (Each P s ↔ TextsEach P v)

theorem brings_graphic (hl : l.Adds P) {r : Except EncodeError Text} {s : Text} {v : Value}
    (hr : r = .ok s) (hs : Graphic s) (hv : ∀ t, ¬ TextIn t v) : Brings P r v :=
  ⟨s, hr, iff_of_true (hl.of_graphic hs) (textsEach_none hv)⟩

theorem write_within {n : Int} (h : n.natAbs < 10 ^ Numeral.digitLimit) :
    (Numeral.write n).mapError EncodeError.tooLong = .ok (Text.ofInt n) := by
  rw [Numeral.write, if_pos h]
  rfl

theorem keyText_brings (hl : l.Adds P) {k : Value} (h : Nameable k) :
    ∃ key, keyText k = .ok key ∧
      (Each P (writeString key) ↔ ∀ t, k = .text t → Each P (t.flatMap escaped)) := by
  have graphic {k : Value} {key : Text} (hk : keyText k = .ok key) (hkey : Graphic key)
      (hnone : ∀ t, k ≠ .text t) : ∃ key, keyText k = .ok key ∧
        (Each P (writeString key) ↔ ∀ t, k = .text t → Each P (t.flatMap escaped)) := by
    refine ⟨key, hk, iff_of_true ?_ fun t ht => absurd ht (hnone t)⟩
    refine (writeString_each hl key).mpr (hl.of_graphic ?_)
    intro d hd
    obtain ⟨c, hc, hd⟩ := List.mem_flatMap.mp hd
    rcases escaped_graphic c with ⟨hescaped, -⟩ | ⟨he, -⟩
    · exact hescaped d hd
    · rw [he, List.mem_singleton] at hd
      rw [hd]
      exact hkey c hc
  cases h with
  | null => exact graphic rfl (graphic_of_all rfl) (by simp)
  | @bool b => cases b <;> exact graphic rfl (graphic_of_all rfl) (by simp)
  | int hn =>
    have hk := write_within hn
    rw [← keyText] at hk
    exact graphic hk (ofInt_graphic _) (by simp)
  | float => exact graphic rfl (writeFloat_graphic _) (by simp)
  | @text t =>
    refine ⟨t, rfl, (writeString_each hl t).trans ?_⟩
    constructor
    · rintro h t ⟨⟩
      exact h
    · exact fun h => h t rfl

theorem encodeItems_brings (depth : Nat) {vs : List Value}
    (h : ∀ v ∈ vs, ∀ d, Brings P (encodeAt l d v) v) :
    ∃ ts, encodeItems l depth vs = .ok ts ∧
      ((∀ t ∈ ts, Each P t) ↔ ∀ v ∈ vs, TextsEach P v) := by
  induction vs with
  | nil => exact ⟨[], rfl, by simp⟩
  | cons v vs ih =>
    obtain ⟨t, ht, hbrings⟩ := h v (by simp) depth
    obtain ⟨ts, hts, hall⟩ := ih fun u hu => h u (by simp [hu])
    refine ⟨t :: ts, by rw [encodeItems, ht, hts]; rfl, ?_⟩
    rw [List.forall_mem_cons, List.forall_mem_cons, hbrings, hall]

theorem encodeEntries_brings (hl : l.Adds P) (depth : Nat) {es : List (Value × Value)}
    (hkeys : ∀ e ∈ es, Nameable e.1) (h : ∀ e ∈ es, ∀ d, Brings P (encodeAt l d e.2) e.2) :
    ∃ ts, encodeEntries l depth es = .ok ts ∧ ((∀ t ∈ ts, Each P t) ↔
      ∀ e ∈ es, (∀ t, e.1 = .text t → Each P (t.flatMap escaped)) ∧ TextsEach P e.2) := by
  induction es with
  | nil => exact ⟨[], rfl, by simp⟩
  | cons e es ih =>
    obtain ⟨k, v⟩ := e
    obtain ⟨key, hk, hkey⟩ := keyText_brings hl (hkeys (k, v) (by simp))
    obtain ⟨t, ht, hbrings⟩ := h (k, v) (by simp) depth
    obtain ⟨ts, hts, hall⟩ := ih (fun e he => hkeys e (by simp [he])) fun e he => h e (by simp [he])
    refine ⟨(writeString key ++ l.afterKey ++ t) :: ts, by rw [encodeEntries, hk, ht, hts]; rfl, ?_⟩
    rw [List.forall_mem_cons, List.forall_mem_cons, each_append, each_append, hkey, hbrings, hall]
    exact ⟨fun h => ⟨⟨h.1.1.1, h.1.2⟩, h.2⟩, fun h => ⟨⟨⟨h.1.1, hl.afterKey⟩, h.1.2⟩, h.2⟩⟩

theorem serializable_brings (hl : l.Adds P) {v : Value} (h : Serializable v) :
    ∀ depth, Brings P (encodeAt l depth v) v := by
  induction h with
  | null => exact fun depth => brings_graphic hl rfl (graphic_of_all rfl) (by rintro t ⟨⟩)
  | @bool b =>
    intro depth
    cases b <;> exact brings_graphic hl rfl (graphic_of_all rfl) (by rintro t ⟨⟩)
  | int hn =>
    intro depth
    have hencode := write_within hn
    rw [← encodeAt] at hencode
    exact brings_graphic hl hencode (ofInt_graphic _) (by rintro t ⟨⟩)
  | float => exact fun depth => brings_graphic hl rfl (writeFloat_graphic _) (by rintro t ⟨⟩)
  | @text t =>
    exact fun depth => ⟨_, rfl, (writeString_each hl t).trans (textsEach_text t).symm⟩
  | @list vs _ ih =>
    intro depth
    obtain ⟨ts, hts, hall⟩ := encodeItems_brings (depth + 1) ih
    refine ⟨l.enclose depth '[' ']' ts, by rw [encodeAt, hts]; rfl, ?_⟩
    rw [enclose_each hl depth rfl rfl, hall, textsEach_list]
  | @tuple vs _ ih =>
    intro depth
    obtain ⟨ts, hts, hall⟩ := encodeItems_brings (depth + 1) ih
    refine ⟨l.enclose depth '[' ']' ts, by rw [encodeAt, hts]; rfl, ?_⟩
    rw [enclose_each hl depth rfl rfl, hall, textsEach_tuple]
  | @dict es hkeys _ ih =>
    intro depth
    obtain ⟨ts, hts, hall⟩ := encodeEntries_brings hl (depth + 1) hkeys ih
    refine ⟨l.enclose depth '\x7b' '\x7d' ts, by rw [encodeAt, hts]; rfl, ?_⟩
    rw [enclose_each hl depth rfl rfl, hall, textsEach_dict]

end

/-! The layouts. -/

theorem Layout.adds_any (l : Layout) : l.Adds fun _ => True :=
  ⟨fun _ _ => trivial, fun _ _ => trivial, fun _ _ => trivial, fun _ _ _ => trivial⟩

/-- The values with a text in a layout are the serializable ones. -/
theorem encodeAt_ok {l : Layout} {depth : Nat} {v : Value} :
    (∃ t, encodeAt l depth v = .ok t) ↔ Serializable v := by
  constructor
  · rintro ⟨t, ht⟩
    exact encodeAt_serializable ht
  · intro h
    obtain ⟨t, ht, -⟩ := serializable_brings l.adds_any h depth
    exact ⟨t, ht⟩

theorem lineBreak_each {P : CodePoint → Prop} (l : Layout) (hfeed : P '\n')
    (hspace : P ' ') (depth : Nat) : Each P (l.lineBreak depth) := by
  unfold Layout.lineBreak
  split
  · simp [Each]
  · refine each_cons.mpr ⟨hfeed, ?_⟩
    intro c hc
    rwa [List.eq_of_mem_replicate hc]

/-- No surrogate but those of the texts. -/
theorem encodeAt_encodable {l : Layout} (hitem : Encodable l.afterItem)
    (hkey : Encodable l.afterKey) {depth : Nat} {v : Value} {s : Text}
    (h : encodeAt l depth v = .ok s) : Encodable s ↔ ∀ t, TextIn t v → Encodable t := by
  have hl : l.Adds fun c => c.isSurrogate = false :=
    ⟨fun c hc => ascii_encodable (graphic_ascii hc), hitem, hkey, lineBreak_each l rfl rfl⟩
  obtain ⟨s', hs', hbrings⟩ := serializable_brings hl (encodeAt_serializable h) depth
  obtain rfl : s = s' := Except.ok.inj (h.symm.trans hs')
  refine hbrings.trans (forall₂_congr fun t _ => ?_)
  exact escaped_encodable t

theorem compact_encodable {depth : Nat} {v : Value} {s : Text}
    (h : encodeAt .compact depth v = .ok s) : Encodable s ↔ ∀ t, TextIn t v → Encodable t :=
  encodeAt_encodable (encodable_of_all rfl) (encodable_of_all rfl) h

/-- The compact text stands on one line. -/
theorem compact_line_feed {depth : Nat} {v : Value} {s : Text}
    (h : encodeAt .compact depth v = .ok s) : ('\n' : CodePoint) ∉ s := by
  have hgraphic (c : CodePoint) (hc : isGraphic c = true) : c ≠ '\n' := by
    rintro rfl
    exact absurd hc (by decide)
  have hl : Layout.compact.Adds fun c => c ≠ '\n' := by
    refine ⟨hgraphic, ?_, ?_, ?_⟩
    · exact fun c hc => hgraphic c (graphic_of_all (t := Layout.compact.afterItem) rfl c hc)
    · exact fun c hc => hgraphic c (graphic_of_all (t := Layout.compact.afterKey) rfl c hc)
    · rintro depth c ⟨⟩
  obtain ⟨s', hs', hbrings⟩ := serializable_brings hl (encodeAt_serializable h) depth
  obtain rfl : s = s' := Except.ok.inj (h.symm.trans hs')
  intro hmem
  exact hbrings.mpr (fun t _ => escaped_line_feed t) _ hmem rfl

end FileWatch.Json
