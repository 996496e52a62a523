import FileWatch.CommandLine.Command
import FileWatch.Proofs.Preconditions
import FileWatch.Proofs.Traversal
/-!
What filters select. Under any truth of the conditions that single terms state, the expression that
filters give holds exactly when all filters that are given do. Filters that are empty texts count as
not given, but an empty name or suffix among others is refused.
-/

namespace FileWatch

/-- The conditions on a file that terms without clauses state; a name term states one for each
candidate. -/
inductive Condition where
  | empty
  | present
  | since (origin : Origin) (basis : ClockBasis)
  | suffix (value : NonemptyText)
  | pattern (kind : PatternKind) (value : NonemptyText) (scope : PathScope)
  | name (kind : NameKind) (candidate : NonemptyText) (scope : PathScope)
  | fileType (letter : CodePoint)

namespace Expression

mutual

def Holds (truth : Condition → Prop) : Expression → Prop
  | constant .always => True
  | constant .never => False
  | constant .empty => truth .empty
  | constant .present => truth .present
  | union .allOf first rest => Holds truth first ∧ AllHold truth rest
  | union .anyOf first rest => Holds truth first ∨ SomeHolds truth rest
  | negation clause => ¬ Holds truth clause
  | since origin basis => truth (.since origin basis)
  | suffix value => truth (.suffix value)
  | pattern kind value scope => truth (.pattern kind value scope)
  | name kind first rest scope => ∃ candidate ∈ first :: rest, truth (.name kind candidate scope)
  | fileType letter => truth (.fileType letter)
  termination_by structural e => e

def AllHold (truth : Condition → Prop) : List Expression → Prop
  | [] => True
  | e :: es => Holds truth e ∧ AllHold truth es
  termination_by structural es => es

def SomeHolds (truth : Condition → Prop) : List Expression → Prop
  | [] => False
  | e :: es => Holds truth e ∨ SomeHolds truth es
  termination_by structural es => es

end

section

variable {truth : Condition → Prop} {first : Expression} {rest : List Expression}

theorem allHold_iff {es : List Expression} : AllHold truth es ↔ ∀ e ∈ es, e.Holds truth := by
  induction es with
  | nil => simp [AllHold]
  | cons e es ih => rw [AllHold, ih, List.forall_mem_cons]

theorem someHolds_iff {es : List Expression} : SomeHolds truth es ↔ ∃ e ∈ es, e.Holds truth := by
  induction es with
  | nil => simp [SomeHolds]
  | cons e es ih => rw [SomeHolds, ih, List.exists_mem_cons_iff]

theorem holds_allOf :
    (union .allOf first rest).Holds truth ↔ ∀ e ∈ first :: rest, e.Holds truth := by
  rw [Holds, allHold_iff, List.forall_mem_cons]

theorem holds_anyOf :
    (union .anyOf first rest).Holds truth ↔ ∃ e ∈ first :: rest, e.Holds truth := by
  rw [Holds, someHolds_iff, List.exists_mem_cons_iff]

end

def Branching (e : Expression) : Prop :=
  ∀ kind first rest, union kind first rest ∈ e.nodes → rest ≠ []

theorem branching_leaf {e : Expression} (h : e.clauses = []) : e.Branching := by
  intro kind first rest hnode
  rw [nodes_eq, h] at hnode
  obtain rfl := List.mem_singleton.mp hnode
  cases h

theorem branching_union {kind : Union} {first : Expression} {rest : List Expression}
    (hrest : rest ≠ []) (h : ∀ e ∈ first :: rest, e.Branching) :
    (union kind first rest).Branching := by
  intro kind' first' rest' hnode
  rw [nodes_eq, List.mem_append, List.mem_flatMap] at hnode
  obtain ⟨e, he, hnode⟩ | hnode := hnode
  · exact h e he kind' first' rest' hnode
  · cases List.mem_singleton.mp hnode
    exact hrest

end Expression

/-- A result that is refused for a value under a condition and else is as it should be. -/
inductive Checked {α : Type} (bad : Prop) (P : α → Prop) : Except ArgumentError α → Prop where
  | refused {e : ArgumentError} : bad → e.errorClass = .value → Checked bad P (.error e)
  | passed {a : α} : ¬ bad → P a → Checked bad P (.ok a)

section

variable {α β : Type} {bad bad' : Prop} {P : α → Prop} {Q : β → Prop}
  {r : Except ArgumentError α}

theorem Checked.congr {P' : α → Prop} (h : Checked bad P r) (hbad : bad ↔ bad')
    (hP : ∀ a, P a → P' a) : Checked bad' P' r := by
  cases h with
  | refused hb he => exact .refused (hbad.mp hb) he
  | passed hb ha => exact .passed (mt hbad.mpr hb) (hP _ ha)

theorem Checked.bind {f : α → Except ArgumentError β} (h : Checked bad P r)
    (hf : ∀ a, P a → Checked bad' Q (f a)) : Checked (bad ∨ bad') Q (r >>= f) := by
  cases h with
  | refused hb he => exact .refused (Or.inl hb) he
  | passed hb ha => exact (hf _ ha).congr (or_iff_right hb).symm fun _ => id

/-- What never fails is no reason to refuse. -/
theorem Checked.andThen {f : α → Except ArgumentError β} (h : Checked bad P r)
    (hf : ∀ a, P a → ∃ b, f a = .ok b ∧ Q b) : Checked bad Q (r >>= f) := by
  have hnever : ∀ a, P a → Checked False Q (f a) := by
    intro a ha
    obtain ⟨b, hb, hQ⟩ := hf a ha
    rw [hb]
    exact .passed not_false hQ
  exact (h.bind hnever).congr (or_iff_left not_false) fun _ => id

theorem Checked.made {f : α → β} (h : Checked bad P r) (hf : ∀ a, P a → Q (f a)) :
    Checked bad Q (do let a ← r; pure (f a)) := h.andThen fun a ha => ⟨f a, rfl, hf a ha⟩

end

namespace Expression

theorem requireText_checked (what : String) (t : Text) :
    Checked (t = []) (fun n => n.val = t) (requireText what (.text t)) := by
  by_cases h : t = []
  · rw [requireText, dif_neg (not_not.mpr h)]
    exact .refused h rfl
  · rw [requireText, dif_pos h]
    exact .passed h rfl

/-- A step that needs texts with something in them, over a list of texts. -/
theorem texts_checked {α : Type} {f : Value → Except ArgumentError α} {make : NonemptyText → α}
    (h : ∀ t, Checked (t = []) (fun a => ∃ n : NonemptyText, n.val = t ∧ make n = a) (f (.text t)))
    (ts : List Text) :
    Checked ([] ∈ ts)
      (fun as => ∃ ns : List NonemptyText, ns.map Subtype.val = ts ∧ ns.map make = as)
      ((ts.map .text).mapM f) := by
  induction ts with
  | nil => exact .passed List.not_mem_nil ⟨[], rfl, rfl⟩
  | cons t ts ih =>
    rw [List.map_cons, List.mapM_cons]
    have hbad : t = [] ∨ [] ∈ ts ↔ [] ∈ t :: ts := by simp [eq_comm]
    refine Checked.congr ?_ hbad fun _ => id
    refine (h t).bind fun a ha => ih.made fun as has => ?_
    obtain ⟨n, rfl, rfl⟩ := ha
    obtain ⟨ns, rfl, rfl⟩ := has
    exact ⟨n :: ns, rfl, rfl⟩

theorem buildName_checked (t : Text) (ts : List Text) :
    Checked ([] ∈ t :: ts)
      (fun e => ∃ first rest, List.map Subtype.val (first :: rest) = t :: ts ∧
        name .exact first rest .standard = e)
      (buildName .exact ((t :: ts).map .text) none) := by
  have hcandidate (t : Text) := (requireText_checked "name candidate" t).congr Iff.rfl
    fun n hn => (⟨n, hn, rfl⟩ : ∃ m : NonemptyText, m.val = t ∧ id m = n)
  have hbad : t = [] ∨ [] ∈ ts ↔ [] ∈ t :: ts := by simp [eq_comm]
  refine Checked.congr ?_ hbad fun _ => id
  refine (requireText_checked _ t).bind fun first hfirst =>
    (texts_checked hcandidate ts).made fun rest hrest => ?_
  obtain ⟨ns, rfl, rfl⟩ := hrest
  exact ⟨first, ns, by rw [List.map_cons, hfirst], by rw [List.map_id]⟩

end Expression

namespace Filters

open Expression

def ofTexts (suffixes names : List Text) (since fileType : Option Text) : Filters :=
  ⟨.list (suffixes.map .text), .list (names.map .text), (since.map Value.text).getD .null,
    (fileType.map Value.text).getD .null⟩

/-- The filters of a query on a command line are texts. -/
theorem readQuery_ofTexts (words : List Text) :
    Gives (fun command => ∀ q, command = .query q →
      ∃ suffixes names since fileType, q.filters = ofTexts suffixes names since fileType)
      (Command.readQuery words) := by
  refine gives_bind (gives_any _) fun a _ => ?_
  split
  · exact gives_ok nofun
  · refine gives_bind (gives_any _) fun path _ => gives_ok ?_
    rintro _ ⟨⟩
    exact ⟨_, _, _, _, rfl⟩

structure Passes (suffixes names : List Text) (since fileType : Option Text)
    (truth : Condition → Prop) : Prop where
  letter : ∀ c, fileType = some [c] → truth (.fileType c)
  clock : ∀ t : NonemptyText, since = some t.val → truth (.since (.clock t) .standard)
  name : names ≠ [] → ∃ t : NonemptyText, t.val ∈ names ∧ truth (.name .exact t .standard)
  suffix : suffixes ≠ [] → ∃ t : NonemptyText, t.val ∈ suffixes ∧ truth (.suffix t)

/-- The filters that are refused: a type of several characters, or an empty text in a list. -/
def Unfit (suffixes names : List Text) (fileType : Option Text) : Prop :=
  (∃ t, fileType = some t ∧ t ≠ [] ∧ t.length ≠ 1) ∨ [] ∈ names ∨ [] ∈ suffixes

structure Selects (meaning : (Condition → Prop) → Prop) (es : List Expression) : Prop where
  holds : ∀ truth, (∀ e ∈ es, e.Holds truth) ↔ meaning truth
  branching : ∀ e ∈ es, e.Branching

section

variable {meaning meaning' : (Condition → Prop) → Prop} {es es' : List Expression}
  {e : Expression}

theorem selects_nil (h : ∀ truth, meaning truth) : Selects meaning [] :=
  ⟨fun truth => iff_of_true (List.forall_mem_nil _) (h truth), List.forall_mem_nil _⟩

theorem selects_one (h : ∀ truth, e.Holds truth ↔ meaning truth) (hbranching : e.Branching) :
    Selects meaning [e] :=
  ⟨fun truth => (by simpa using h truth), by simpa using hbranching⟩

theorem Selects.append (h : Selects meaning es) (h' : Selects meaning' es') :
    Selects (fun truth => meaning truth ∧ meaning' truth) (es ++ es') := by
  constructor
  · intro truth
    rw [List.forall_mem_append, h.holds, h'.holds]
  · rw [List.forall_mem_append]
    exact ⟨h.branching, h'.branching⟩

theorem clause_truthy {v : Value} {build : Value → Except ArgumentError Expression}
    (h : v.isTruthy = true) : clause v build = (do let e ← build v; pure [e]) := if_pos h

/-- A filter that may be left out, or be an empty text. -/
theorem clause_checked (o : Option Text) {build : Value → Except ArgumentError Expression}
    {bad : Text → Prop} {saying : Text → (Condition → Prop) → Prop}
    (h : ∀ t, t ≠ [] → Checked (bad t) (fun e => Selects (saying t) [e]) (build (.text t))) :
    Checked (∃ t, o = some t ∧ t ≠ [] ∧ bad t)
      (Selects fun truth => ∀ t, o = some t → t ≠ [] → saying t truth)
      (clause ((o.map Value.text).getD .null) build) := by
  cases o with
  | none => exact .passed (by simp) (selects_nil (by simp))
  | some t =>
    by_cases ht : t = []
    · subst ht
      exact .passed (by simp) (selects_nil (by simp))
    · have htruthy : (Value.text t).isTruthy = true := by simpa [Value.isTruthy] using ht
      rw [Option.map_some, Option.getD_some, clause_truthy htruthy]
      have hmade := (h t ht).made (f := fun e => [e]) (Q := Selects (saying t)) fun _ => id
      refine hmade.congr (by simp [ht]) fun es hes => ⟨fun truth => ?_, hes.branching⟩
      rw [hes.holds]
      simp [ht]

theorem fileType_checked (o : Option Text) :
    Checked (∃ t, o = some t ∧ t ≠ [] ∧ t.length ≠ 1)
      (Selects fun truth => ∀ c, o = some [c] → truth (.fileType c))
      (clause ((o.map Value.text).getD .null) buildFileType) := by
  have hletter (t : Text) (ht : t ≠ []) : Checked (t.length ≠ 1)
      (fun e => Selects (fun truth => ∀ c, t = [c] → truth (.fileType c)) [e])
      (buildFileType (.text t)) := by
    by_cases hlength : t.length = 1
    · obtain ⟨c, rfl⟩ := List.length_eq_one_iff.mp hlength
      refine .passed (not_not.mpr hlength) (selects_one (fun truth => ?_) (branching_leaf rfl))
      simp [Holds]
    · obtain ⟨e, he, hclass⟩ := buildFileType_refused (v := .text t) fun c hc => by
        cases hc
        exact hlength rfl
      rw [he]
      exact .refused hlength hclass
  refine (clause_checked o hletter).congr Iff.rfl fun es hes => ⟨fun truth => ?_, hes.branching⟩
  rw [hes.holds]
  constructor
  · intro h c hc
    exact h [c] hc (List.cons_ne_nil _ _) c rfl
  · rintro h t ht - c rfl
    exact h c ht

theorem since_checked (o : Option Text) :
    Checked False
      (Selects fun truth =>
        ∀ t : NonemptyText, o = some t.val → truth (.since (.clock t) .standard))
      (clause ((o.map Value.text).getD .null) fun clock => buildSinceClock clock none) := by
  have hclock (t : Text) (ht : t ≠ []) : Checked False
      (fun e => Selects
        (fun truth => ∀ n : NonemptyText, n.val = t → truth (.since (.clock n) .standard)) [e])
      (buildSinceClock (.text t) none) := by
    have hbuild : buildSinceClock (.text t) none =
        .ok (Expression.since (.clock ⟨t, ht⟩) .standard) := by
      rw [buildSinceClock, requireText, dif_pos ht]
      rfl
    rw [hbuild]
    refine .passed not_false (selects_one (fun truth => ?_) (branching_leaf rfl))
    rw [Holds]
    constructor
    · rintro h n rfl
      exact h
    · intro h
      exact h ⟨t, ht⟩ rfl
  refine (clause_checked o hclock).congr (by simp) fun es hes => ⟨fun truth => ?_, hes.branching⟩
  rw [hes.holds]
  constructor
  · intro h n hn
    exact h n.val hn n.property n rfl
  · rintro h t ht - n rfl
    exact h n ht

theorem exists_among (ns : List NonemptyText) {P : NonemptyText → Prop} :
    (∃ t : NonemptyText, t.val ∈ ns.map Subtype.val ∧ P t) ↔ ∃ t ∈ ns, P t := by
  simp only [List.mem_map_of_injective Subtype.val_injective]

theorem names_checked (names : List Text) :
    Checked ([] ∈ names)
      (Selects fun truth =>
        names ≠ [] → ∃ t : NonemptyText, t.val ∈ names ∧ truth (.name .exact t .standard))
      (clause (.list (names.map .text)) fun v => do buildName .exact (← candidates v) none) := by
  cases names with
  | nil => exact .passed List.not_mem_nil (selects_nil (by simp))
  | cons t ts =>
    rw [clause_truthy rfl]
    refine (buildName_checked t ts).made fun e he => ?_
    obtain ⟨first, rest, htexts, rfl⟩ := he
    refine selects_one (fun truth => ?_) (branching_leaf rfl)
    rw [← htexts, Holds, exists_among]
    simp

theorem suffixClause_checked (suffixes : List Text) :
    Checked ([] ∈ suffixes)
      (Selects fun truth =>
        suffixes ≠ [] → ∃ t : NonemptyText, t.val ∈ suffixes ∧ truth (.suffix t))
      (suffixClause (.list (suffixes.map .text))) := by
  have hsuffix (t : Text) : Checked (t = [])
      (fun e => ∃ n : NonemptyText, n.val = t ∧ suffix n = e) (buildSuffix (.text t)) :=
    (requireText_checked "suffix" t).made fun n hn => ⟨n, hn, rfl⟩
  obtain _ | ⟨t, _ | ⟨u, ts⟩⟩ := suffixes
  · exact .passed List.not_mem_nil (selects_nil (by simp))
  · have hclause : suffixClause (.list ([t].map .text)) =
        (do let e ← buildSuffix (.text t); pure [e]) := rfl
    rw [hclause]
    refine ((hsuffix t).congr (by simp [eq_comm]) fun _ => id).made fun e he => ?_
    obtain ⟨n, rfl, rfl⟩ := he
    refine selects_one (fun truth => ?_) (branching_leaf rfl)
    have hone := exists_among [n] (P := fun t => truth (.suffix t))
    rw [List.map_singleton] at hone
    rw [Holds, hone]
    simp
  · have hclause : suffixClause (.list ((t :: u :: ts).map .text)) =
        (do let clauses ← ((t :: u :: ts).map .text).mapM buildSuffix
            let e ← buildUnion .anyOf (clauses.map .expression)
            pure [e]) := rfl
    rw [hclause]
    have hclauses := texts_checked hsuffix (t :: u :: ts)
    refine hclauses.andThen fun es hes => ?_
    obtain ⟨ns, hns, rfl⟩ := hes
    obtain _ | ⟨n, _ | ⟨m, ns⟩⟩ := ns
    · cases hns
    · cases hns
    · rw [List.map_cons, buildUnion_given, ← hns]
      refine ⟨_, rfl, selects_one (fun truth => ?_) ?_⟩
      · rw [holds_anyOf, ← List.map_cons, exists_among]
        simp [Holds]
      · apply branching_union (List.cons_ne_nil _ _)
        exact (List.forall_mem_map (f := suffix) (l := n :: m :: ns)).mpr
          fun x _ => branching_leaf rfl

end

theorem clauses_checked (suffixes names : List Text) (since fileType : Option Text) :
    Checked (Unfit suffixes names fileType) (Selects (Passes suffixes names since fileType))
      (ofTexts suffixes names since fileType).clauses := by
  have hall := (fileType_checked fileType).bind fun types htypes =>
    (since_checked since).bind fun clocks hclocks => (names_checked names).bind fun names hnames =>
    (suffixClause_checked suffixes).made fun suffixes hsuffixes =>
    ((htypes.append hclocks).append hnames).append hsuffixes
  refine hall.congr ?_ fun es hes => ⟨fun truth => ?_, hes.branching⟩
  · rw [Unfit, false_or]
  · rw [hes.holds]
    constructor
    · rintro ⟨⟨⟨hletter, hclock⟩, hname⟩, hsuffix⟩
      exact ⟨hletter, hclock, hname, hsuffix⟩
    · rintro ⟨hletter, hclock, hname, hsuffix⟩
      exact ⟨⟨⟨hletter, hclock⟩, hname⟩, hsuffix⟩

/-- Filters are refused exactly when they are unfit, and then for a value. Else the expression holds
exactly for what passes all filters that are given, and none of its unions has a single clause. -/
theorem expression_selects (suffixes names : List Text) (since fileType : Option Text) :
    let result := (ofTexts suffixes names since fileType).expression
    (Unfit suffixes names fileType ∧ ∃ e, result = .error e ∧ e.errorClass = .value) ∨
    (¬ Unfit suffixes names fileType ∧ ∃ e, result = .ok e ∧
      (∀ truth, e.Holds truth ↔ Passes suffixes names since fileType truth) ∧
      ∀ kind first rest, union kind first rest ∈ e.nodes → rest ≠ []) := by
  intro result
  have hresult : Checked (Unfit suffixes names fileType)
      (fun e => (∀ truth, e.Holds truth ↔ Passes suffixes names since fileType truth) ∧
        e.Branching) result := by
    have hclauses := clauses_checked suffixes names since fileType
    refine hclauses.andThen fun es hes => ?_
    match es with
    | [] =>
      refine ⟨_, rfl, fun truth => ?_, branching_leaf rfl⟩
      rw [← hes.holds]
      simp [Holds]
    | [e] =>
      refine ⟨_, rfl, fun truth => ?_, hes.branching e List.mem_cons_self⟩
      rw [← hes.holds]
      simp
    | first :: second :: rest =>
      refine ⟨_, rfl, fun truth => ?_, branching_union (List.cons_ne_nil _ _) hes.branching⟩
      rw [← hes.holds, holds_allOf]
  generalize result = r at hresult
  cases hresult with
  | refused hbad he => exact Or.inl ⟨hbad, _, rfl, he⟩
  | passed hbad he => exact Or.inr ⟨hbad, _, rfl, he⟩

end Filters

end FileWatch
