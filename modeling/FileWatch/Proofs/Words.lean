import FileWatch.Proofs.Traversal
import Mathlib.Data.List.Basic
/-!
The query language as it is sent. A grammar says which values are words of the language without
speaking of expressions; the wire forms of expressions are its words and no others.
-/

namespace FileWatch

/-- A slot at the end of an array: left out, or one of the words that may stand there. -/
inductive EndSlot (allowed : List String) : List Value → Prop where
  | absent : EndSlot allowed []
  | present {word : String} : word ∈ allowed → EndSlot allowed [.text word]

inductive OriginWord : Value → Prop where
  | clock {t : Text} : t ≠ [] → OriginWord (.text t)
  | second (n : Int) : OriginWord (.int n)

inductive NamesWord : Value → Prop where
  | one {t : Text} : t ≠ [] → NamesWord (.text t)
  | several {ts : List NonemptyText} : 2 ≤ ts.length →
      NamesWord (.list (ts.map fun t => .text t.val))

inductive QueryWord : Value → Prop where
  | union {tag : String} {words : List Value} : tag ∈ ["allof", "anyof"] → words ≠ [] →
      (∀ w ∈ words, QueryWord w) → QueryWord (.list (.text tag :: words))
  | negation {word : Value} : QueryWord word → QueryWord (.list [.text "not", word])
  | constant {tag : String} : tag ∈ ["true", "false", "empty", "exists"] →
      QueryWord (.list [.text tag])
  | since {origin : Value} {basis : List Value} : OriginWord origin →
      EndSlot ["oclock", "mtime", "ctime"] basis →
      QueryWord (.list (.text "since" :: origin :: basis))
  | suffix {t : Text} : t ≠ [] → QueryWord (.list [.text "suffix", .text t])
  | pattern {tag : String} {t : Text} {scope : List Value} :
      tag ∈ ["match", "imatch", "pcre", "ipcre"] → t ≠ [] →
      EndSlot ["basename", "wholename"] scope → QueryWord (.list (.text tag :: .text t :: scope))
  | name {tag : String} {names : Value} {scope : List Value} : tag ∈ ["name", "iname"] →
      NamesWord names → EndSlot ["basename", "wholename"] scope →
      QueryWord (.list (.text tag :: names :: scope))
  | fileType {letter : CodePoint} : QueryWord (.list [.text "type", .text [letter]])

section

variable {κ : Type} {all : List κ} {tag : String} {words : List String}

theorem mem_words_iff {word : κ → String} (hall : ∀ k, k ∈ all) (hwords : all.map word = words) :
    tag ∈ words ↔ ∃ k, word k = tag := by
  rw [← hwords, List.mem_map]
  constructor
  · rintro ⟨k, -, hk⟩
    exact ⟨k, hk⟩
  · rintro ⟨k, hk⟩
    exact ⟨k, hall k, hk⟩

theorem endSlot_iff {word? : κ → Option String} {vs : List Value} (hall : ∀ k, k ∈ all)
    (hwords : all.map word? = none :: words.map some) :
    EndSlot words vs ↔ ∃ k, slot (word? k) = vs := by
  have hmem (w : Option String) : (∃ k, word? k = w) ↔ w = none ∨ ∃ s ∈ words, some s = w := by
    rw [← List.mem_map, ← List.mem_cons, ← hwords, List.mem_map]
    constructor
    · rintro ⟨k, hk⟩
      exact ⟨k, hall k, hk⟩
    · rintro ⟨k, -, hk⟩
      exact ⟨k, hk⟩
  constructor
  · intro h
    cases h with
    | absent =>
      obtain ⟨k, hk⟩ := (hmem none).mpr (Or.inl rfl)
      exact ⟨k, by rw [hk]; rfl⟩
    | @present word hword =>
      obtain ⟨k, hk⟩ := (hmem (some word)).mpr (Or.inr ⟨word, hword, rfl⟩)
      exact ⟨k, by rw [hk]; rfl⟩
  · rintro ⟨k, rfl⟩
    obtain hk | ⟨word, hword, hk⟩ := (hmem (word? k)).mp ⟨k, rfl⟩
    · rw [hk]
      exact .absent
    · rw [← hk]
      exact .present hword

end

namespace Expression

/-! The words that stand in one place are those of the kinds of terms. -/

theorem unionTag_iff {tag : String} :
    tag ∈ ["allof", "anyof"] ↔ ∃ kind : Union, kind.term.word = tag := by
  have hall (k : Union) : k ∈ [Union.allOf, .anyOf] := by cases k <;> decide
  exact mem_words_iff hall rfl

theorem constantTag_iff {tag : String} :
    tag ∈ ["true", "false", "empty", "exists"] ↔ ∃ kind : Constant, kind.term.word = tag := by
  have hall (k : Constant) : k ∈ [Constant.always, .never, .empty, .present] := by
    cases k <;> decide
  exact mem_words_iff hall rfl

theorem patternTag_iff {tag : String} :
    tag ∈ ["match", "imatch", "pcre", "ipcre"] ↔ ∃ kind : PatternKind, kind.term.word = tag := by
  have hall (k : PatternKind) : k ∈ [PatternKind.glob, .globCaseless, .regex, .regexCaseless] := by
    cases k <;> decide
  exact mem_words_iff hall rfl

theorem nameTag_iff {tag : String} :
    tag ∈ ["name", "iname"] ↔ ∃ kind : NameKind, kind.term.word = tag := by
  have hall (k : NameKind) : k ∈ [NameKind.exact, .caseless] := by cases k <;> decide
  exact mem_words_iff hall rfl

theorem basisSlot_iff {vs : List Value} :
    EndSlot ["oclock", "mtime", "ctime"] vs ↔ ∃ b : ClockBasis, slot b.word? = vs := by
  have hall (b : ClockBasis) : b ∈ ClockBasis.all := by cases b <;> decide
  exact endSlot_iff hall rfl

theorem scopeSlot_iff {vs : List Value} :
    EndSlot ["basename", "wholename"] vs ↔ ∃ s : PathScope, slot s.word? = vs := by
  have hall (s : PathScope) : s ∈ PathScope.all := by cases s <;> decide
  exact endSlot_iff hall rfl

theorem originWord_iff {v : Value} : OriginWord v ↔ ∃ o : Origin, o.wire = v := by
  constructor
  · intro h
    cases h with
    | clock ht => exact ⟨.clock ⟨_, ht⟩, rfl⟩
    | second n => exact ⟨.timestamp n, rfl⟩
  · rintro ⟨o, rfl⟩
    cases o with
    | clock t => exact .clock t.property
    | timestamp n => exact .second n

theorem namesWord_iff {v : Value} : NamesWord v ↔ ∃ first rest, namesWire first rest = v := by
  constructor
  · intro h
    cases h with
    | one ht => exact ⟨⟨_, ht⟩, [], rfl⟩
    | @several ts hlength =>
      obtain _ | ⟨first, _ | ⟨second, rest⟩⟩ := ts
      · cases hlength
      · exact absurd hlength (by simp)
      · exact ⟨first, second :: rest, rfl⟩
  · rintro ⟨first, rest, rfl⟩
    cases rest with
    | nil => exact .one first.property
    | cons second rest =>
      have htwo : 2 ≤ (first :: second :: rest).length := by simp
      exact .several htwo

/-! Words and wire forms. -/

theorem wire_word (e : Expression) : QueryWord e.wire := by
  induction e using clause_induction with
  | h e ih =>
    cases e with
    | constant kind => exact .constant (constantTag_iff.mpr ⟨kind, rfl⟩)
    | union kind first rest =>
      rw [wire_eq, arguments_clauses (by simp [clauses])]
      refine .union (unionTag_iff.mpr ⟨kind, rfl⟩) (by simp [clauses]) ?_
      intro w hw
      obtain ⟨c, hc, rfl⟩ := List.mem_map.mp hw
      exact ih c hc
    | negation clause => exact .negation (ih clause (List.mem_singleton_self clause))
    | since origin basis =>
      exact .since (originWord_iff.mpr ⟨origin, rfl⟩) (basisSlot_iff.mpr ⟨basis, rfl⟩)
    | suffix value => exact .suffix value.property
    | pattern kind value scope =>
      have htag := patternTag_iff.mpr ⟨kind, rfl⟩
      exact .pattern htag value.property (scopeSlot_iff.mpr ⟨scope, rfl⟩)
    | name kind first rest scope =>
      have hnames := namesWord_iff.mpr ⟨first, rest, rfl⟩
      exact .name (nameTag_iff.mpr ⟨kind, rfl⟩) hnames (scopeSlot_iff.mpr ⟨scope, rfl⟩)
    | fileType letter => exact .fileType

theorem words_wires {words : List Value} (h : ∀ w ∈ words, ∃ e : Expression, e.wire = w) :
    ∃ es : List Expression, es.map wire = words := by
  induction words with
  | nil => exact ⟨[], rfl⟩
  | cons w words ih =>
    rw [List.forall_mem_cons] at h
    obtain ⟨e, rfl⟩ := h.1
    obtain ⟨es, rfl⟩ := ih h.2
    exact ⟨e :: es, rfl⟩

theorem word_wire {v : Value} (h : QueryWord v) : ∃ e : Expression, e.wire = v := by
  induction h with
  | union htag hne _ ih =>
    obtain ⟨kind, rfl⟩ := unionTag_iff.mp htag
    obtain ⟨es, rfl⟩ := words_wires ih
    cases es with
    | nil => exact absurd rfl hne
    | cons first rest => exact ⟨union kind first rest, by rw [wire, wireAll_eq, List.map_cons]⟩
  | negation _ ih =>
    obtain ⟨e, rfl⟩ := ih
    exact ⟨negation e, rfl⟩
  | constant htag =>
    obtain ⟨kind, rfl⟩ := constantTag_iff.mp htag
    exact ⟨constant kind, rfl⟩
  | since horigin hbasis =>
    obtain ⟨o, rfl⟩ := originWord_iff.mp horigin
    obtain ⟨b, rfl⟩ := basisSlot_iff.mp hbasis
    exact ⟨since o b, rfl⟩
  | suffix ht => exact ⟨suffix ⟨_, ht⟩, rfl⟩
  | pattern htag ht hscope =>
    obtain ⟨kind, rfl⟩ := patternTag_iff.mp htag
    obtain ⟨s, rfl⟩ := scopeSlot_iff.mp hscope
    exact ⟨pattern kind ⟨_, ht⟩ s, rfl⟩
  | name htag hnames hscope =>
    obtain ⟨kind, rfl⟩ := nameTag_iff.mp htag
    obtain ⟨first, rest, rfl⟩ := namesWord_iff.mp hnames
    obtain ⟨s, rfl⟩ := scopeSlot_iff.mp hscope
    exact ⟨name kind first rest s, rfl⟩
  | @fileType letter => exact ⟨fileType letter, rfl⟩

theorem queryWord_iff {v : Value} : QueryWord v ↔ ∃ e : Expression, e.wire = v := by
  constructor
  · exact word_wire
  · rintro ⟨e, rfl⟩
    exact wire_word e

end Expression

end FileWatch
