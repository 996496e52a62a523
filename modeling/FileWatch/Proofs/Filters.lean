import FileWatch.Proofs.Json.Serializable
import FileWatch.Query.Filter
import FileWatch.Query.Wire
/-!
What filters are sent as. The expression that filters give is made of texts alone, whatever they
are: a since term starts at a clock and never at a second. So it can always be shown and sent.
-/

namespace FileWatch

open FileWatch.Json (Serializable)

/-- Texts in lists of any depth. -/
inductive Textual : Value → Prop where
  | text {t} : Textual (.text t)
  | list {vs} : (∀ v ∈ vs, Textual v) → Textual (.list vs)

theorem textual_serializable {v : Value} (h : Textual v) : Serializable v := by
  induction h with
  | text => exact .text
  | list _ ih => exact .list ih

mutual

theorem literalWithin_textual {v : Value} (h : Textual v) (inDict : List Bool) :
    ∃ t, v.literalWithin inDict = .ok t := by
  cases v with
  | text t => exact ⟨_, rfl⟩
  | list items =>
    cases h with
    | list hitems =>
      obtain ⟨ts, hts⟩ := literalsWithin_textual hitems (false :: inDict)
      rw [Value.literalWithin, hts]
      exact ⟨_, rfl⟩
  | _ => cases h
  termination_by structural v

theorem literalsWithin_textual {vs : List Value} (h : ∀ v ∈ vs, Textual v) (inDict : List Bool) :
    ∃ ts, Value.literalsWithin inDict vs = .ok ts := by
  cases vs with
  | nil => exact ⟨[], rfl⟩
  | cons v vs =>
    rw [List.forall_mem_cons] at h
    obtain ⟨t, ht⟩ := literalWithin_textual h.1 inDict
    obtain ⟨ts, hts⟩ := literalsWithin_textual h.2 inDict
    rw [Value.literalsWithin, ht, hts]
    exact ⟨_, rfl⟩
  termination_by structural vs

end

def Gives {ε α : Type} (P : α → Prop) (r : Except ε α) : Prop := ∀ a, r = .ok a → P a

section

variable {ε α β : Type} {P : α → Prop} {Q : β → Prop}

theorem gives_ok {a : α} (h : P a) : Gives P (.ok a : Except ε α) := by
  rintro _ ⟨⟩
  exact h

theorem gives_error (e : ε) : Gives P (.error e : Except ε α) := by
  rintro _ ⟨⟩

theorem gives_bind {r : Except ε α} {f : α → Except ε β} (hr : Gives P r)
    (hf : ∀ a, P a → Gives Q (f a)) : Gives Q (r >>= f) := by
  cases r with
  | ok a => exact hf a (hr a rfl)
  | error e => exact gives_error e

theorem gives_mapM {f : β → Except ε α} (hf : ∀ b, Gives P (f b)) (bs : List β) :
    Gives (fun as => ∀ a ∈ as, P a) (bs.mapM f) := by
  induction bs with
  | nil => exact gives_ok (by simp)
  | cons b bs ih =>
    rw [List.mapM_cons]
    refine gives_bind (hf b) fun a ha => gives_bind ih fun as has => gives_ok ?_
    exact List.forall_mem_cons.mpr ⟨ha, has⟩

theorem gives_any (r : Except ε α) : Gives (fun _ => True) r := fun _ _ => trivial

end

namespace Expression

def Worded (e : Expression) : Prop := Textual e.wire

theorem worded_constant (kind : Constant) : Worded (constant kind) :=
  .list (by simp [Textual.text])

theorem wireAll_eq (es : List Expression) : wireAll es = es.map wire := by
  induction es with
  | nil => rfl
  | cons e es ih => rw [wireAll, ih, List.map_cons]

theorem worded_union {first : Expression} {rest : List Expression} (kind : Union)
    (h : ∀ e ∈ first :: rest, Worded e) : Worded (union kind first rest) := by
  rw [Worded, wire, wireAll_eq, ← List.map_cons]
  refine .list ?_
  intro v hv
  rcases List.mem_cons.mp hv with rfl | hv
  · exact .text
  · obtain ⟨e, he, rfl⟩ := List.mem_map.mp hv
    exact h e he

theorem buildFileType_worded (letter : Value) : Gives Worded (buildFileType letter) := by
  unfold buildFileType
  split
  · exact gives_ok (.list (by simp [Textual.text]))
  · split <;> exact gives_error _

theorem buildSuffix_worded (value : Value) : Gives Worded (buildSuffix value) :=
  gives_bind (gives_any _) fun _ _ => gives_ok (.list (by simp [Textual.text]))

theorem buildSinceClock_worded (clock : Value) : Gives Worded (buildSinceClock clock none) := by
  refine gives_bind (gives_any _) fun t _ => gives_ok (.list ?_)
  simp [Textual.text, Origin.wire, slot, ClockBasis.word?]

theorem buildName_worded (kind : NameKind) (names : List Value) :
    Gives Worded (buildName kind names none) := by
  cases names with
  | nil => exact gives_error _
  | cons name names =>
    refine gives_bind (gives_any _) fun first _ => gives_bind (gives_any _) fun rest _ => ?_
    refine gives_ok ?_
    have hnames : Textual (if rest.isEmpty then .text first.val
        else .list (.text first.val :: rest.map fun t => .text t.val)) := by
      split
      · exact .text
      · refine .list ?_
        intro v hv
        rcases List.mem_cons.mp hv with rfl | hv
        · exact .text
        · obtain ⟨t, -, rfl⟩ := List.mem_map.mp hv
          exact .text
    refine .list ?_
    intro v hv
    simp only [List.mem_cons] at hv
    rcases hv with rfl | rfl | hv
    · exact .text
    · exact hnames
    · cases hv

/-- A union whose clauses are expressions already. -/
theorem buildUnion_worded (kind : Union) {es : List Expression} (h : ∀ e ∈ es, Worded e) :
    Gives Worded (buildUnion kind (es.map .expression)) := by
  cases es with
  | nil => exact gives_error _
  | cons e es =>
    have hvalues : Gives (fun rest => rest = es) ((es.map Value.expression).mapM ofValue) := by
      clear h
      induction es with
      | nil => exact gives_ok rfl
      | cons e es ih =>
        rw [List.map_cons, List.mapM_cons]
        refine gives_bind (gives_ok rfl) fun e' he => gives_bind ih fun rest hrest => gives_ok ?_
        rw [he, hrest]
    refine gives_bind (gives_ok rfl) fun first hfirst => ?_
    refine gives_bind hvalues fun rest hrest => gives_ok ?_
    rw [← hfirst, hrest]
    exact worded_union kind h

end Expression

namespace Filters

open Expression

theorem clause_worded (v : Value) {build : Value → Except ArgumentError Expression}
    (h : Gives Worded (build v)) : Gives (fun es => ∀ e ∈ es, Worded e) (clause v build) := by
  unfold clause
  split
  · cases hbuild : build v with
    | error e => exact gives_error e
    | ok e => exact gives_ok (by simpa using h e hbuild)
  · exact gives_ok (by simp)

theorem suffixClause_worded (suffixes : Value) :
    Gives (fun es => ∀ e ∈ es, Worded e) (suffixClause suffixes) := by
  refine gives_bind (gives_any _) fun n _ => ?_
  split
  · exact gives_ok (by simp)
  · refine gives_bind (gives_any _) fun v _ => gives_bind (buildSuffix_worded v) fun e he => ?_
    exact gives_ok (by simpa using he)
  · refine gives_bind (gives_any _) fun vs _ => ?_
    refine gives_bind (gives_mapM buildSuffix_worded vs) fun clauses hclauses => ?_
    exact gives_bind (buildUnion_worded .anyOf hclauses) fun e he => gives_ok (by simpa using he)

theorem clauses_worded (f : Filters) : Gives (fun es => ∀ e ∈ es, Worded e) f.clauses := by
  have hnames : Gives Worded (do buildName .exact (← candidates f.names) none) :=
    gives_bind (gives_any _) fun names _ => buildName_worded .exact names
  refine gives_bind (clause_worded _ (buildFileType_worded _)) fun types htypes => ?_
  refine gives_bind (clause_worded _ (buildSinceClock_worded _)) fun since hsince => ?_
  refine gives_bind (clause_worded _ hnames) fun names hnames => ?_
  refine gives_bind (suffixClause_worded _) fun suffixes hsuffixes => gives_ok ?_
  simp only [List.forall_mem_append]
  exact ⟨⟨⟨htypes, hsince⟩, hnames⟩, hsuffixes⟩

/-- The expression that filters give is made of texts alone. -/
theorem expression_worded (f : Filters) : Gives Worded f.expression := by
  refine gives_bind (clauses_worded f) fun es hes => ?_
  split
  · exact gives_ok (worded_constant .always)
  · exact gives_ok (by simpa using hes)
  · exact gives_ok (worded_union .allOf hes)

end Filters

end FileWatch
