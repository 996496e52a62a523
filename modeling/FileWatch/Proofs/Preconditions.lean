import FileWatch.Proofs.Words
import Mathlib.Data.List.Basic
/-!
What the constructors of expressions require. Each argument has a slot, which says what may stand in
it; a call is refused exactly when an argument does not fit its slot, a union is given no clause, or
the platform cannot place a time without an offset. What is not refused is an expression, and its
wire form is a word of the query language.
-/

namespace FileWatch

/-- The classes of errors that arguments may raise: a value that will not do, a value of the wrong
type, something asked of a value that it does not have, and what a platform says of a time. -/
inductive ErrorClass where
  | value
  | type
  | property
  | key
  | overflow
  | system
  deriving DecidableEq, Repr

def Misuse.errorClass : Misuse → ErrorClass
  | .unhashable _ | .notIterable _ | .noLength _ | .notIndexable _ => .type
  | .missingKey _ => .key
  | .noProperty .. => .property
  | .tooLong _ => .value

def LocalTimeError.errorClass : LocalTimeError → ErrorClass
  | .badValue _ => .value
  | .tooLarge _ => .overflow
  | .system _ => .system

def ArgumentError.errorClass : ArgumentError → ErrorClass
  | .emptyText _ | .wrongTerm .. | .noClause _ | .noName _ | .badLetter _ => .value
  | .notText .. | .notExpression _ | .namesAsText | .badOrigin _ | .badTime _ | .badBasis
  | .badScope | .missing .. | .surplus .. => .type
  | .localTime e => e.errorClass
  | .misuse e => e.errorClass

inductive Yields : Value → List Value → Prop where
  | bytes (b : Bytes) : Yields (.bytes b) (b.map fun n => .int n.toNat)
  | list (items : List Value) : Yields (.list items) items
  | tuple (items : List Value) : Yields (.tuple items) items
  | set (items : List Value) : Yields (.set items) items
  | dict (entries : List (Value × Value)) : Yields (.dict entries) (entries.map Prod.fst)

inductive Slot where
  | expression
  | text
  | time
  | letter
  | names
  | basis
  | scope
  deriving DecidableEq, Repr

/-- What may stand in a slot. Names are one text or a sequence of at least one; a truth value is no
time. -/
inductive Slot.Admits : Slot → Value → Prop where
  | expression (e : Expression) : Admits .expression (.expression e)
  | text {t : Text} : t ≠ [] → Admits .text (.text t)
  | second (n : Int) : Admits .time (.int n)
  | moment (m : Moment) : Admits .time (.moment m)
  | civil (t : CivilTime) : Admits .time (.civil t)
  | letter (c : CodePoint) : Admits .letter (.text [c])
  | name {t : Text} : t ≠ [] → Admits .names (.text t)
  | names {v : Value} {items : List Value} : Yields v items → items ≠ [] →
      (∀ item ∈ items, Admits .text item) → Admits .names v
  | basis (b : ClockBasis) : Admits .basis (.basis b)
  | scope (s : PathScope) : Admits .scope (.scope s)

namespace Constructor

def IsFunction : Constructor → Prop
  | term _ | sinceTime => True
  | node _ => False

def slots (given : Nat) : Constructor → List Slot
  | term .allOf | term .anyOf => List.replicate given .expression
  | term .negation => [.expression]
  | term .since => [.text, .basis]
  | sinceTime => [.time, .basis]
  | term .suffix => [.text]
  | term .glob | term .globCaseless | term .regex | term .regexCaseless => [.text, .scope]
  | term .name | term .nameCaseless => [.names, .scope]
  | term .fileType => [.letter]
  | term .always | term .never | term .empty | term .present | node _ => []

def Takes (given : Nat) : Constructor → Prop
  | term .allOf | term .anyOf => True
  | c => c.parameters.1.length ≤ given ∧
      given ≤ c.parameters.1.length + c.parameters.2.length

inductive Violated (c : Constructor) (vs : List Value) : Prop where
  | noClause : c ∈ [term .allOf, term .anyOf] → vs = [] → Violated c vs
  | argument {s : Slot} {v : Value} : (s, v) ∈ (c.slots vs.length).zip vs → ¬ s.Admits v →
      Violated c vs

/-- The platform has no second for the time, which is given without an offset. -/
def Unplaced (here : LocalTime) (c : Constructor) (vs : List Value) (e : LocalTimeError) : Prop :=
  c = sinceTime ∧ ∃ t, vs.head? = some (.civil t) ∧ here t = .error e

end Constructor

namespace Expression

/-- The step goes through exactly under a condition. It refuses the rest for its value or type. -/
structure Guards {α : Type} (r : Except ArgumentError α) (P : Prop) : Prop where
  returns : (∃ a, r = .ok a) ↔ P
  refuses : ∀ e, r = .error e → e.errorClass = .value ∨ e.errorClass = .type

section

variable {α β : Type} {P Q : Prop} {r : Except ArgumentError α}

theorem Guards.congr (h : Guards r P) (hPQ : P ↔ Q) : Guards r Q := ⟨h.returns.trans hPQ, h.refuses⟩

theorem guards_ok {a : α} (h : P) : Guards (.ok a) P :=
  ⟨iff_of_true ⟨a, rfl⟩ h, fun _ he => by cases he⟩

theorem guards_error {e : ArgumentError} (hP : ¬ P)
    (he : e.errorClass = .value ∨ e.errorClass = .type) :
    Guards (.error e : Except ArgumentError α) P := by
  refine ⟨iff_of_false ?_ hP, ?_⟩
  · rintro ⟨a, ⟨⟩⟩
  · rintro _ ⟨⟩
    exact he

theorem guards_bind {f : α → Except ArgumentError β} (hr : Guards r P)
    (hf : ∀ a, Guards (f a) Q) : Guards (r >>= f) (P ∧ Q) := by
  obtain ⟨hreturns, hrefuses⟩ := hr
  cases r with
  | ok a =>
    have hP : P := hreturns.mp ⟨a, rfl⟩
    exact (hf a).congr (by simp [hP])
  | error e =>
    refine guards_error ?_ (hrefuses e rfl)
    rintro ⟨hP, -⟩
    obtain ⟨a, ⟨⟩⟩ := hreturns.mpr hP

/-- What is made of the result does not matter. -/
theorem guards_made {f : α → β} (hr : Guards r P) :
    Guards (do let a ← r; pure (f a)) P :=
  (guards_bind hr fun _ => guards_ok trivial).congr (and_iff_left trivial)

theorem guards_mapM {f : β → Except ArgumentError α} {R : β → Prop}
    (hf : ∀ b, Guards (f b) (R b)) (bs : List β) : Guards (bs.mapM f) (∀ b ∈ bs, R b) := by
  induction bs with
  | nil => exact guards_ok (by simp)
  | cons b bs ih =>
    rw [List.mapM_cons]
    have hboth := guards_bind (hf b) fun a => guards_made (f := fun as => a :: as) ih
    exact hboth.congr List.forall_mem_cons.symm

end

/-! Arguments. -/

theorem requireText_guards (what : String) (v : Value) :
    Guards (requireText what v) (Slot.text.Admits v) := by
  cases v with
  | text t =>
    rw [requireText]
    split
    · exact guards_ok (.text ‹_›)
    · refine guards_error ?_ (Or.inl rfl)
      rintro ⟨⟩
      contradiction
  | _ => exact guards_error nofun (Or.inr rfl)

theorem ofValue_guards (v : Value) : Guards (ofValue v) (Slot.expression.Admits v) := by
  cases v with
  | expression e => exact guards_ok (.expression e)
  | _ => exact guards_error nofun (Or.inr rfl)

theorem requireBasis_guards (v : Option Value) :
    Guards (requireBasis v) (∀ b ∈ v, Slot.basis.Admits b) := by
  cases v with
  | none => exact guards_ok nofun
  | some v =>
    simp only [Option.mem_some_iff, forall_eq']
    cases v with
    | basis b => exact guards_ok (.basis b)
    | _ => exact guards_error nofun (Or.inr rfl)

theorem requireScope_guards (v : Option Value) :
    Guards (requireScope v) (∀ s ∈ v, Slot.scope.Admits s) := by
  cases v with
  | none => exact guards_ok nofun
  | some v =>
    simp only [Option.mem_some_iff, forall_eq']
    cases v with
    | scope s => exact guards_ok (.scope s)
    | _ => exact guards_error nofun (Or.inr rfl)

/-! Nodes. -/

theorem buildUnion_guards (kind : Union) (vs : List Value) :
    Guards (buildUnion kind vs) (vs ≠ [] ∧ ∀ v ∈ vs, Slot.expression.Admits v) := by
  cases vs with
  | nil => exact guards_error (by simp) (Or.inl rfl)
  | cons v vs =>
    have hclauses := guards_bind (ofValue_guards v) fun first =>
      guards_made (f := union kind first) (guards_mapM ofValue_guards vs)
    exact hclauses.congr (by simp)

theorem buildSinceClock_guards (clock : Value) (basis : Option Value) :
    Guards (buildSinceClock clock basis)
      (Slot.text.Admits clock ∧ ∀ b ∈ basis, Slot.basis.Admits b) :=
  guards_bind (requireText_guards _ clock) fun _ => guards_made (requireBasis_guards basis)

theorem buildSinceTime_guards {here : LocalTime} {time : Value}
    (hplaced : ∀ t e, time = .civil t → here t ≠ .error e) (basis : Option Value) :
    Guards (buildSinceTime here time basis)
      (Slot.time.Admits time ∧ ∀ b ∈ basis, Slot.basis.Admits b) := by
  have hbasis (second : Int) :=
    guards_made (f := since (.timestamp second)) (requireBasis_guards basis)
  cases time with
  | int n => exact (hbasis n).congr (and_iff_right (.second n)).symm
  | moment m => exact (hbasis m.unixSecond).congr (and_iff_right (.moment m)).symm
  | civil t =>
    cases hsecond : here t with
    | error e => exact absurd hsecond (hplaced t e rfl)
    | ok second =>
      rw [buildSinceTime, hsecond]
      exact (hbasis second).congr (and_iff_right (.civil t)).symm
  | _ => exact guards_error (fun h => by cases h.1) (Or.inr rfl)

theorem buildPattern_guards (kind : PatternKind) (value : Value) (scope : Option Value) :
    Guards (buildPattern kind value scope)
      (Slot.text.Admits value ∧ ∀ s ∈ scope, Slot.scope.Admits s) :=
  guards_bind (requireText_guards _ value) fun _ => guards_made (requireScope_guards scope)

theorem buildName_guards (kind : NameKind) (names : List Value) (scope : Option Value) :
    Guards (buildName kind names scope)
      ((names ≠ [] ∧ ∀ n ∈ names, Slot.text.Admits n) ∧ ∀ s ∈ scope, Slot.scope.Admits s) := by
  cases names with
  | nil => exact guards_error (by simp) (Or.inl rfl)
  | cons n names =>
    have htext := requireText_guards (kind.term.word ++ " candidate")
    have hnames := guards_bind (htext n) fun first => guards_bind (guards_mapM htext names)
      fun rest => guards_made (f := name kind first rest) (requireScope_guards scope)
    exact hnames.congr (by simp [and_assoc])

theorem Yields.unique {v : Value} {items items' : List Value} (h : Yields v items)
    (h' : Yields v items') : items' = items := by
  cases h <;> cases h' <;> rfl

theorem admits_names {v : Value} {items : List Value} (h : Yields v items) :
    Slot.names.Admits v ↔ items ≠ [] ∧ ∀ item ∈ items, Slot.text.Admits item := by
  constructor
  · intro hv
    cases hv with
    | name => cases h
    | names h' hne hitems =>
      rw [Yields.unique h h'] at hne hitems
      exact ⟨hne, hitems⟩
  · rintro ⟨hne, hitems⟩
    exact .names h hne hitems

/-- A name term's candidates, or why there are none. -/
theorem candidates_cases (v : Value) :
    (∃ items, candidates v = .ok items ∧
      (Slot.names.Admits v ↔ items ≠ [] ∧ ∀ item ∈ items, Slot.text.Admits item)) ∨
    ∃ e, candidates v = .error e ∧ e.errorClass = .type ∧ ¬ Slot.names.Admits v := by
  cases v with
  | text t =>
    refine Or.inl ⟨[.text t], rfl, ?_⟩
    constructor
    · intro h
      cases h with
      | name ht => simpa using Slot.Admits.text ht
      | names h => cases h
    · rintro ⟨-, h⟩
      cases h (.text t) (List.mem_singleton_self _) with
      | text ht => exact .name ht
  | bytes b => exact Or.inl ⟨_, rfl, admits_names (.bytes b)⟩
  | list items => exact Or.inl ⟨_, rfl, admits_names (.list items)⟩
  | tuple items => exact Or.inl ⟨_, rfl, admits_names (.tuple items)⟩
  | set items => exact Or.inl ⟨_, rfl, admits_names (.set items)⟩
  | dict entries => exact Or.inl ⟨_, rfl, admits_names (.dict entries)⟩
  | _ =>
    refine Or.inr ⟨_, rfl, rfl, ?_⟩
    intro h
    cases h with
    | names h => cases h

theorem buildNames_guards (kind : NameKind) (v : Value) (scope : Option Value) :
    Guards (do buildName kind (← candidates v) scope)
      (Slot.names.Admits v ∧ ∀ s ∈ scope, Slot.scope.Admits s) := by
  obtain ⟨items, hitems, hv⟩ | ⟨e, he, hclass, hv⟩ := candidates_cases v
  · rw [hitems, hv]
    exact buildName_guards kind items scope
  · rw [he]
    exact guards_error (fun h => hv h.1) (Or.inr hclass)

/-- What is not a single letter is refused for its value, whatever it is. -/
theorem buildFileType_refused {v : Value} (h : ∀ c, v ≠ .text [c]) :
    ∃ e, buildFileType v = .error e ∧ e.errorClass = .value := by
  unfold buildFileType
  split
  · exact absurd rfl (h _)
  · split
    · exact ⟨_, rfl, rfl⟩
    · exact ⟨_, rfl, rfl⟩

theorem buildFileType_guards (v : Value) : Guards (buildFileType v) (Slot.letter.Admits v) := by
  by_cases hletter : ∃ c, v = .text [c]
  · obtain ⟨c, rfl⟩ := hletter
    exact guards_ok (.letter c)
  · obtain ⟨e, he, hclass⟩ := buildFileType_refused fun c hc => hletter ⟨c, hc⟩
    rw [he]
    refine guards_error ?_ (Or.inl hclass)
    intro hadmits
    cases hadmits with
    | letter c => exact hletter ⟨c, rfl⟩

/-! Arguments that fit. -/

theorem mapM_made {ε α β : Type} {f : β → Except ε α} {g : α → β} (h : ∀ a, f (g a) = .ok a)
    (as : List α) : (as.map g).mapM f = .ok as := by
  induction as with
  | nil => rfl
  | cons a as ih =>
    rw [List.map_cons, List.mapM_cons, h, ih]
    rfl

theorem requireText_given (what : String) (t : NonemptyText) :
    requireText what (.text t.val) = .ok t := dif_pos t.property

theorem buildUnion_given (kind : Union) (first : Expression) (rest : List Expression) :
    buildUnion kind ((first :: rest).map .expression) = .ok (union kind first rest) := by
  have hrest : (rest.map .expression).mapM ofValue = .ok rest :=
    mapM_made (f := ofValue) (g := Value.expression) (fun _ => rfl) rest
  rw [List.map_cons, buildUnion, hrest]
  rfl

end Expression

namespace Constructor

open Expression

/-! Calls. -/

variable {here : LocalTime}

theorem arityError_class (c : Constructor) (given : Nat) :
    (c.arityError given).errorClass = .type := by
  unfold arityError
  dsimp only
  split <;> rfl

theorem violated_iff {c : Constructor} {vs : List Value} :
    Violated c vs ↔ c ∈ [term .allOf, term .anyOf] ∧ vs = [] ∨
      ∃ p ∈ (c.slots vs.length).zip vs, ¬ p.1.Admits p.2 := by
  constructor
  · intro h
    cases h with
    | noClause hc hvs => exact Or.inl ⟨hc, hvs⟩
    | argument hp hv => exact Or.inr ⟨_, hp, hv⟩
  · rintro (⟨hc, hvs⟩ | ⟨⟨s, v⟩, hp, hv⟩)
    · exact .noClause hc hvs
    · exact .argument hp hv

/-- Outside unions only the slots matter. -/
theorem Guards.of_slots {c : Constructor} {vs : List Value}
    {r : Except ArgumentError Expression} (hc : c ∉ [term .allOf, term .anyOf])
    (h : Guards r (∀ p ∈ (c.slots vs.length).zip vs, p.1.Admits p.2)) :
    Guards r (¬ Violated c vs) := by
  refine h.congr ?_
  rw [violated_iff]
  simp [hc]

theorem union_guards (kind : Union) (vs : List Value) :
    Guards ((term kind.term).call here vs) (¬ Violated (term kind.term) vs) := by
  have hzip : ∀ vs : List Value, (List.replicate vs.length Slot.expression).zip vs =
      vs.map fun v => (.expression, v) := by
    intro vs
    induction vs with
    | nil => rfl
    | cons v vs ih => simp [List.replicate_succ, ih]
  have hslots : (term kind.term).slots vs.length = List.replicate vs.length .expression := by
    cases kind <;> rfl
  have hcall : (term kind.term).call here vs = buildUnion kind vs := by
    cases kind <;> rfl
  have hkind : term kind.term ∈ [term .allOf, term .anyOf] := by cases kind <;> decide
  rw [hcall]
  refine (buildUnion_guards kind vs).congr ?_
  rw [violated_iff, hslots, hzip]
  simp [hkind]

section

variable {c : Constructor} {s s' : Slot} {vs : List Value}

/-- A union has a slot for each argument that is given. -/
theorem not_union {rest : List Slot} (hslots : ∀ n, c.slots n = s :: rest) :
    c ∉ [term .allOf, term .anyOf] := by
  intro hc
  have hzero := hslots 0
  simp only [List.mem_cons, List.not_mem_nil, or_false] at hc
  obtain rfl | rfl := hc <;> cases hzero

/-- The functions of one argument. -/
theorem single_guards {build : Value → Except ArgumentError Expression}
    (hslots : ∀ n, c.slots n = [s]) (hcall : ∀ v, c.call here [v] = build v)
    (hbuild : ∀ v, Guards (build v) (s.Admits v)) (h : 1 ≤ vs.length ∧ vs.length ≤ 1) :
    Guards (c.call here vs) (¬ Violated c vs) := by
  obtain ⟨v, rfl⟩ := List.length_eq_one_iff.mp (le_antisymm h.2 h.1)
  apply Guards.of_slots (not_union hslots)
  rw [hcall, hslots]
  exact (hbuild v).congr (by simp)

/-- The functions of one argument and a second that may be left out. -/
theorem pair_guards (build : Value → Option Value → Except ArgumentError Expression)
    (hslots : ∀ n, c.slots n = [s, s']) (hone : ∀ v, c.call here [v] = build v none)
    (htwo : ∀ v w, c.call here [v, w] = build v (some w))
    (hbuild : ∀ v ∈ vs.head?, ∀ o, Guards (build v o) (s.Admits v ∧ ∀ w ∈ o, s'.Admits w))
    (h : 1 ≤ vs.length ∧ vs.length ≤ 2) : Guards (c.call here vs) (¬ Violated c vs) := by
  apply Guards.of_slots (not_union hslots)
  rw [hslots]
  obtain hlength | hlength : vs.length = 1 ∨ vs.length = 2 := by omega
  · obtain ⟨v, rfl⟩ := List.length_eq_one_iff.mp hlength
    rw [hone]
    exact (hbuild v rfl none).congr (by simp)
  · obtain ⟨v, w, rfl⟩ := List.length_eq_two.mp hlength
    rw [htwo]
    exact (hbuild v rfl (some w)).congr (by simp)

end

theorem constant_guards (kind : Constant) {vs : List Value}
    (h : 0 ≤ vs.length ∧ vs.length ≤ 0) :
    Guards ((term kind.term).call here vs) (¬ Violated (term kind.term) vs) := by
  obtain rfl : vs = [] := List.length_eq_zero_iff.mp (Nat.le_zero.mp h.2)
  have hvalid : ¬ Violated (term kind.term) [] := by
    rw [violated_iff]
    cases kind <;> simp [Constant.term]
  cases kind <;> exact guards_ok hvalid

theorem call_guards {c : Constructor} (hc : c.IsFunction) {vs : List Value}
    (h : c.Takes vs.length) (hplaced : ∀ e, ¬ Unplaced here c vs e) :
    Guards (c.call here vs) (¬ Violated c vs) := by
  cases c with
  | node kind => cases hc
  | sinceTime =>
    refine pair_guards (buildSinceTime here) (fun _ => rfl) (fun _ => rfl)
      (fun _ _ => rfl) (fun v hv => ?_) h
    apply buildSinceTime_guards
    rintro t e rfl htime
    exact hplaced e ⟨rfl, t, hv, htime⟩
  | term t =>
    cases t with
    | allOf => exact union_guards .allOf vs
    | anyOf => exact union_guards .anyOf vs
    | negation =>
      have hbuild (v : Value) := guards_made (f := negation) (ofValue_guards v)
      exact single_guards (fun _ => rfl) (fun _ => rfl) hbuild h
    | always => exact constant_guards .always h
    | never => exact constant_guards .never h
    | empty => exact constant_guards .empty h
    | present => exact constant_guards .present h
    | since =>
      exact pair_guards _ (fun _ => rfl) (fun _ => rfl) (fun _ _ => rfl)
        (fun v _ => buildSinceClock_guards v) h
    | suffix =>
      have hbuild (v : Value) := guards_made (f := suffix) (requireText_guards "suffix" v)
      exact single_guards (fun _ => rfl) (fun _ => rfl) hbuild h
    | glob | globCaseless | regex | regexCaseless =>
      exact pair_guards _ (fun _ => rfl) (fun _ => rfl) (fun _ _ => rfl)
        (fun v _ => buildPattern_guards _ v) h
    | name | nameCaseless =>
      exact pair_guards _ (fun _ => rfl) (fun _ => rfl) (fun _ _ => rfl)
        (fun v _ => buildNames_guards _ v) h
    | fileType => exact single_guards (fun _ => rfl) (fun _ => rfl) buildFileType_guards h

theorem call_arity {c : Constructor} (hc : c.IsFunction) {vs : List Value}
    (h : ¬ c.Takes vs.length) : c.call here vs = .error (c.arityError vs.length) := by
  cases c with
  | node kind => cases hc
  | sinceTime =>
    obtain _ | ⟨a, _ | ⟨b, _ | ⟨d, vs⟩⟩⟩ := vs
    · rfl
    · exact absurd ⟨le_rfl, Nat.le_succ 1⟩ h
    · exact absurd ⟨Nat.le_succ 1, le_rfl⟩ h
    · rfl
  | term t =>
    cases t with
    | allOf | anyOf => exact absurd trivial h
    | always | never | empty | present =>
      cases vs with
      | nil => exact absurd ⟨le_rfl, le_rfl⟩ h
      | cons => rfl
    | negation | suffix | fileType =>
      obtain _ | ⟨a, _ | ⟨b, vs⟩⟩ := vs
      · rfl
      · exact absurd ⟨le_rfl, le_rfl⟩ h
      · rfl
    | since | glob | globCaseless | regex | regexCaseless | name | nameCaseless =>
      obtain _ | ⟨a, _ | ⟨b, _ | ⟨d, vs⟩⟩⟩ := vs
      · rfl
      · exact absurd ⟨le_rfl, Nat.le_succ 1⟩ h
      · exact absurd ⟨Nat.le_succ 1, le_rfl⟩ h
      · rfl

/-- Every expression comes from a call of a function. -/
theorem call_builds (e : Expression) : ∃ c vs, IsFunction c ∧ c.call here vs = .ok e := by
  cases e with
  | constant kind => exact ⟨term kind.term, [], trivial, by cases kind <;> rfl⟩
  | union kind first rest =>
    refine ⟨term kind.term, (first :: rest).map .expression, trivial, ?_⟩
    cases kind <;> exact buildUnion_given _ first rest
  | negation clause => exact ⟨term .negation, [.expression clause], trivial, rfl⟩
  | since origin basis =>
    cases origin with
    | clock t =>
      have hbuild : buildSinceClock (.text t.val) (some (.basis basis)) =
          .ok (since (.clock t) basis) := by
        rw [buildSinceClock, requireText_given]
        rfl
      exact ⟨term .since, [.text t.val, .basis basis], trivial, hbuild⟩
    | timestamp n => exact ⟨sinceTime, [.int n, .basis basis], trivial, rfl⟩
  | suffix value =>
    have hbuild : buildSuffix (.text value.val) = .ok (suffix value) := by
      rw [buildSuffix, requireText_given]
      rfl
    exact ⟨term .suffix, [.text value.val], trivial, hbuild⟩
  | pattern kind value scope =>
    have hbuild : buildPattern kind (.text value.val) (some (.scope scope)) =
        .ok (pattern kind value scope) := by
      rw [buildPattern, requireText_given]
      rfl
    refine ⟨term kind.term, [.text value.val, .scope scope], trivial, ?_⟩
    cases kind <;> exact hbuild
  | name kind first rest scope =>
    have hbuild : buildName kind (.text first.val :: rest.map fun t => .text t.val)
        (some (.scope scope)) = .ok (Expression.name kind first rest scope) := by
      rw [buildName, requireText_given, mapM_made (requireText_given _)]
      rfl
    refine ⟨term kind.term, [.list (.text first.val :: rest.map fun t => .text t.val),
      .scope scope], trivial, ?_⟩
    cases kind <;> exact hbuild
  | fileType letter => exact ⟨term .fileType, [.text [letter]], trivial, rfl⟩

/-- The platform is asked before the basis is looked at. -/
theorem call_unplaced {c : Constructor} {vs : List Value} {e : LocalTimeError}
    (h : c.Takes vs.length) (hunplaced : Unplaced here c vs e) :
    c.call here vs = .error (.localTime e) := by
  obtain ⟨rfl, t, hhead, htime⟩ := hunplaced
  have hbuild (basis : Option Value) :
      buildSinceTime here (.civil t) basis = .error (.localTime e) := by
    rw [buildSinceTime, htime]
    rfl
  obtain _ | ⟨a, _ | ⟨b, _ | ⟨d, vs⟩⟩⟩ := vs
  · cases hhead
  · cases hhead
    exact hbuild none
  · cases hhead
    exact hbuild (some b)
  · exact absurd h.2 (by simp [parameters])

theorem universal_offset : (0 : Int).natAbs < 86400000000 := by
  decide

/-- A platform in universal time. It looks for the second a day back too, and so has none for a time
on the first day of the calendar. -/
def universal : LocalTime := fun t =>
  if t.dayNumber = 1 then .error (.badValue "year 0 is out of range")
  else .ok (Moment.unixSecond ⟨t, 0, universal_offset⟩)

end Constructor

end FileWatch
