import FileWatch.Proofs.Json.Serializable
import Mathlib.Data.List.Forall2
import Mathlib.Data.List.Nodup
/-!
What the writer writes. In every layout that adds nothing but white space the text of a value is a
document that denotes the value again, tuples as lists.
-/

namespace FileWatch.Json

/-! Containers. -/

/-- The values that can be sent and come back: no floats, no integer over the limit, no surrogates
and only text, each once, as keys. -/
inductive Sendable : Value → Prop where
  | null : Sendable .null
  | bool {b} : Sendable (.bool b)
  | int {n} : n.natAbs < 10 ^ Numeral.digitLimit → Sendable (.int n)
  | text {t} : Encodable t → Sendable (.text t)
  | list {vs} : (∀ v ∈ vs, Sendable v) → Sendable (.list vs)
  | tuple {vs} : (∀ v ∈ vs, Sendable v) → Sendable (.tuple vs)
  | dict {es} : (∀ e ∈ es, ∃ key, e.1 = .text key ∧ Encodable key) →
      (es.map Prod.fst).Nodup → (∀ e ∈ es, Sendable e.2) → Sendable (.dict es)

/-- The values that come back from their text: no floats, no integer over the limit and only text,
each once, as keys. -/
inductive Writable : Value → Prop where
  | null : Writable .null
  | bool {b} : Writable (.bool b)
  | int {n} : n.natAbs < 10 ^ Numeral.digitLimit → Writable (.int n)
  | text {t} : Writable (.text t)
  | list {vs} : (∀ v ∈ vs, Writable v) → Writable (.list vs)
  | tuple {vs} : (∀ v ∈ vs, Writable v) → Writable (.tuple vs)
  | dict {es} : (∀ e ∈ es, ∃ key, e.1 = .text key) → (es.map Prod.fst).Nodup →
      (∀ e ∈ es, Writable e.2) → Writable (.dict es)

theorem sendable_writable {v : Value} (h : Sendable v) : Writable v := by
  induction h with
  | null => exact .null
  | bool => exact .bool
  | int hn => exact .int hn
  | text _ => exact .text
  | list _ ih => exact .list ih
  | tuple _ ih => exact .tuple ih
  | dict hkeys hnodup _ ih =>
    refine .dict (fun e he => ?_) hnodup ih
    obtain ⟨key, hkey, -⟩ := hkeys e he
    exact ⟨key, hkey⟩

mutual

/-- A value as it comes back: with its tuples as lists. -/
def received : Value → Value
  | .list items => .list (receivedItems items)
  | .tuple items => .list (receivedItems items)
  | .dict entries => .dict (receivedEntries entries)
  | v => v
  termination_by structural v => v

def receivedItems : List Value → List Value
  | [] => []
  | v :: rest => received v :: receivedItems rest
  termination_by structural vs => vs

def receivedEntries : List (Value × Value) → List (Value × Value)
  | [] => []
  | (k, v) :: rest => (k, received v) :: receivedEntries rest
  termination_by structural es => es

end

theorem sendable_texts {v : Value} (h : Sendable v) : ∀ t, TextIn t v → Encodable t := by
  induction h with
  | null | bool | int _ => rintro t ⟨⟩
  | text ht =>
    rintro t ⟨⟩
    exact ht
  | list _ ih | tuple _ ih =>
    rintro t (⟨⟩ | ⟨hv, ht⟩ | ⟨hv, ht⟩)
    all_goals exact ih _ hv t ht
  | dict hkeys _ _ ih =>
    intro t ht
    cases ht with
    | key he =>
      obtain ⟨key, hkey, hencodable⟩ := hkeys _ he
      obtain rfl := Value.text.inj hkey
      exact hencodable
    | dict he ht => exact ih _ he t ht

structure Layout.Spacing (l : Layout) : Prop where
  afterItem : ∃ w, Spaces w ∧ l.afterItem = (',' :: w : Text)
  afterKey : ∃ w, Spaces w ∧ l.afterKey = (':' :: w : Text)

theorem compact_spacing : Layout.compact.Spacing := ⟨⟨[], spaces_nil, rfl⟩, [], spaces_nil, rfl⟩

theorem spaced_spacing : Layout.spaced.Spacing :=
  ⟨⟨[' '], spaces_cons rfl spaces_nil, rfl⟩, [' '], spaces_cons rfl spaces_nil, rfl⟩

theorem indented_spacing : Layout.indented.Spacing :=
  ⟨⟨[], spaces_nil, rfl⟩, [' '], spaces_cons rfl spaces_nil, rfl⟩

theorem lineBreak_spaces (l : Layout) (depth : Nat) : Spaces (l.lineBreak depth) :=
  lineBreak_each (P := fun c => isSpace c = true) l rfl rfl depth

theorem spaces_append {w w' : Text} (h : Spaces w) (h' : Spaces w') : Spaces (w ++ w') := by
  intro c hc
  rcases List.mem_append.mp hc with hc | hc
  · exact h c hc
  · exact h' c hc

def Written (r : Except EncodeError Text) (v : Value) : Prop :=
  ∃ s, r = .ok s ∧ Spells s (.value v)

/-- Elements that are spelled, with commas between them and the closing bracket behind. -/
theorem join_spells {α : Type} {part : α → Part} {parts : List α → Part} {close : CodePoint}
    (rules : ElementRules part parts close) {w w' : Text} (hw : Spaces w) (hw' : Spaces w')
    {ts : List Text} {as : List α} (h : List.Forall₂ (fun t a => Spells t (part a)) ts as)
    (hne : ts ≠ []) :
    Spells (Text.join (',' :: w) ts ++ (w' ++ [close])) (parts as) := by
  induction h with
  | nil => exact absurd rfl hne
  | @cons t a ts as ht hts ih =>
    cases hts with
    | nil => exact rules.last ht hw'
    | @cons t' a' ts as ht' hts =>
      have hrest := rules.more ht spaces_nil hw (ih (List.cons_ne_nil _ _))
      simpa [Text.join] using hrest

section

variable {l : Layout}

theorem enclose_cons (depth : Nat) (opening closing : CodePoint) {ts : List Text} (h : ts ≠ []) :
    l.enclose depth opening closing ts = opening :: (l.lineBreak (depth + 1) ++
      (Text.join (l.afterItem ++ l.lineBreak (depth + 1)) ts ++
        (l.lineBreak depth ++ [closing]))) := by
  have hempty : ts.isEmpty = false := by simpa using h
  unfold Layout.enclose
  rw [hempty]
  simp

/-- Elements that have been written, between their brackets. -/
theorem enclose_written {α : Type} {part : α → Part} {parts : List α → Part}
    {opening close : CodePoint} {empty : Value} {build : List α → Value} (hl : l.Spacing)
    (rules : ElementRules part parts close)
    (container : ContainerRules parts opening close empty build) (hempty : build [] = empty)
    (depth : Nat) {ts : List Text} {as : List α}
    (h : List.Forall₂ (fun t a => Spells t (part a)) ts as) :
    Spells (l.enclose depth opening close ts) (.value (build as)) := by
  by_cases hne : ts = []
  · subst hne
    rw [List.forall₂_nil_left_iff.mp h, hempty]
    exact container.none spaces_nil
  · obtain ⟨w, hw, hitem⟩ := hl.afterItem
    have hinner := lineBreak_spaces l (depth + 1)
    rw [enclose_cons depth _ _ hne, hitem]
    apply container.some hinner
    exact join_spells rules (spaces_append hw hinner) (lineBreak_spaces l depth) h hne

theorem encodeItems_written (depth : Nat) {vs : List Value}
    (h : ∀ v ∈ vs, ∀ d, Written (encodeAt l d v) (received v)) :
    ∃ ts, encodeItems l depth vs = .ok ts ∧
      List.Forall₂ (fun t v => Spells t (.value v)) ts (receivedItems vs) := by
  induction vs with
  | nil => exact ⟨[], rfl, .nil⟩
  | cons v vs ih =>
    obtain ⟨s, hs, hspells⟩ := h v (by simp) depth
    obtain ⟨ts, hts, hall⟩ := ih fun u hu => h u (by simp [hu])
    exact ⟨s :: ts, by rw [encodeItems, hs, hts]; rfl, .cons hspells hall⟩

/-- A list or a tuple. -/
theorem written_items (hl : l.Spacing) (depth : Nat) {vs : List Value}
    (h : ∀ v ∈ vs, ∀ d, Written (encodeAt l d v) (received v)) :
    Written (do
      let items ← encodeItems l (depth + 1) vs
      pure (l.enclose depth '[' ']' items)) (.list (receivedItems vs)) := by
  obtain ⟨ts, hts, hall⟩ := encodeItems_written (depth + 1) h
  rw [hts]
  exact ⟨_, rfl, enclose_written hl item_rules list_rules rfl depth hall⟩

/-! Objects. -/

def entryOf (m : Text × Value) : Value × Value := (.text m.1, m.2)

theorem insertEntry_new {key : Text} {v : Value} {ms : List (Text × Value)}
    (h : key ∉ ms.map Prod.fst) :
    Value.insertEntry (.text key) v (ms.map entryOf) = (ms ++ [(key, v)]).map entryOf := by
  induction ms with
  | nil => rfl
  | cons m ms ih =>
    rw [List.map_cons, List.mem_cons, not_or] at h
    have hkey : Value.sameKey (.text m.1) (.text key) = false := by
      simp only [Value.sameKey, decide_eq_false_iff_not]
      exact fun heq => h.1 heq.symm
    rw [List.map_cons, List.cons_append, List.map_cons, ← ih h.2]
    simp only [entryOf, Value.insertEntry, hkey]
    rfl

/-- Members with different keys are the entries of their object in order. -/
theorem collect_distinct {ms : List (Text × Value)} (h : (ms.map Prod.fst).Nodup) :
    collect ms = ms.map entryOf := by
  have from_front : ∀ front, ((front ++ ms).map Prod.fst).Nodup →
      ms.foldl (fun entries m => Value.insertEntry (.text m.1) m.2 entries)
        (front.map entryOf) = (front ++ ms).map entryOf := by
    induction ms with
    | nil =>
      intro front _
      rw [List.append_nil]
      rfl
    | cons m ms ih =>
      intro front hfront
      have hnew : m.1 ∉ front.map Prod.fst := by
        rw [List.map_append, List.map_cons, List.nodup_append] at hfront
        intro hmem
        exact hfront.2.2 m.1 hmem m.1 (by simp) rfl
      rw [List.foldl_cons, insertEntry_new hnew]
      have hrest := ih (List.Nodup.of_cons h) (front ++ [m])
      rw [List.append_assoc, List.singleton_append] at hrest
      exact hrest hfront
  exact from_front [] h

theorem encodeEntries_written (hl : l.Spacing) (depth : Nat) {es : List (Value × Value)}
    (hkeys : ∀ e ∈ es, ∃ key, e.1 = .text key)
    (h : ∀ e ∈ es, ∀ d, Written (encodeAt l d e.2) (received e.2)) :
    ∃ ts ms, encodeEntries l depth es = .ok ts ∧
      List.Forall₂ (fun t (m : Text × Value) => Spells t (.member m.1 m.2)) ts ms ∧
      receivedEntries es = ms.map entryOf ∧ es.map Prod.fst = ms.map fun m => .text m.1 := by
  induction es with
  | nil => exact ⟨[], [], rfl, .nil, rfl, rfl⟩
  | cons e es ih =>
    obtain ⟨k, v⟩ := e
    obtain ⟨key, hk⟩ := hkeys (k, v) (by simp)
    obtain rfl : k = .text key := hk
    obtain ⟨s, hs, hspells⟩ := h (.text key, v) (by simp) depth
    obtain ⟨ts, ms, hts, hall, hreceived, hfirst⟩ := ih
      (fun e he => hkeys e (by simp [he])) (fun e he => h e (by simp [he]))
    refine ⟨(writeString key ++ l.afterKey ++ s) :: ts, (key, received v) :: ms, ?_,
      .cons ?_ hall, ?_, ?_⟩
    · rw [encodeEntries, hs, hts]
      rfl
    · obtain ⟨w, hw, hcolon⟩ := hl.afterKey
      have hmember := Spells.member (escaped_text key) spaces_nil hw hspells
      rw [hcolon, writeString_eq]
      simpa using hmember
    · rw [receivedEntries, hreceived]
      rfl
    · rw [List.map_cons, List.map_cons, hfirst]

/-- Whatever can come back is written, at any depth, as a document that denotes it. -/
theorem writable_written (hl : l.Spacing) {v : Value} (h : Writable v) :
    ∀ depth, Written (encodeAt l depth v) (received v) := by
  induction h with
  | null => exact fun depth => ⟨_, rfl, .word (v := .null) (by simp [words])⟩
  | @bool b =>
    intro depth
    cases b
    · exact ⟨_, rfl, .word (v := .bool false) (by simp [words])⟩
    · exact ⟨_, rfl, .word (v := .bool true) (by simp [words])⟩
  | @int n hn =>
    intro depth
    refine ⟨Text.ofInt n, ?_, .number (ofInt_number hn)⟩
    rw [encodeAt, write_within hn]
  | @text t =>
    intro depth
    refine ⟨writeString t, rfl, ?_⟩
    rw [writeString_eq]
    exact .string (escaped_text t)
  | list _ ih | tuple _ ih => exact fun depth => written_items hl depth ih
  | @dict es hkeys hnodup _ ih =>
    intro depth
    obtain ⟨ts, ms, hts, hall, hreceived, hfirst⟩ :=
      encodeEntries_written hl (depth + 1) hkeys ih
    have hdistinct : (ms.map Prod.fst).Nodup := by
      rw [hfirst] at hnodup
      apply List.Nodup.of_map Value.text
      rwa [List.map_map]
    rw [received, hreceived, ← collect_distinct hdistinct, encodeAt, hts]
    exact ⟨_, rfl, enclose_written hl member_rules dict_rules rfl depth hall⟩

theorem sendable_written (hl : l.Spacing) {v : Value} (h : Sendable v) :
    ∀ depth, Written (encodeAt l depth v) (received v) :=
  writable_written hl (sendable_writable h)

end

end FileWatch.Json
