import FileWatch.Proofs.Filters
import FileWatch.Proofs.Wire
import Mathlib.Data.List.Basic
/-!
Going through an expression. The nodes of a tree are its places, each once and none before a place
below it, and their wire forms are the arrays that stand for expressions in the wire form of the
whole.
-/

namespace FileWatch.Expression

def clauses : Expression → List Expression
  | union _ first rest => first :: rest
  | negation clause => [clause]
  | _ => []

mutual

/-- What holds of a node whenever it holds of its clauses holds of every expression. -/
theorem clause_induction {P : Expression → Prop} (h : ∀ e, (∀ c ∈ e.clauses, P c) → P e) :
    ∀ e, P e
  | union k first rest => by
    apply h
    exact List.forall_mem_cons.mpr ⟨clause_induction h first, clause_induction_all h rest⟩
  | negation clause => by
    apply h
    exact List.forall_mem_cons.mpr ⟨clause_induction h clause, nofun⟩
  | constant k => h _ nofun
  | since o b => h _ nofun
  | suffix t => h _ nofun
  | pattern k t s => h _ nofun
  | name k t ts s => h _ nofun
  | fileType c => h _ nofun
  termination_by structural e => e

theorem clause_induction_all {P : Expression → Prop} (h : ∀ e, (∀ c ∈ e.clauses, P c) → P e) :
    ∀ es : List Expression, ∀ c ∈ es, P c
  | [] => nofun
  | e :: es => List.forall_mem_cons.mpr ⟨clause_induction h e, clause_induction_all h es⟩
  termination_by structural es => es

end

theorem nodesOfAll_eq (es : List Expression) : nodesOfAll es = es.flatMap nodes := by
  induction es with
  | nil => rfl
  | cons e es ih => rw [nodesOfAll, ih, List.flatMap_cons]

theorem nodes_eq (e : Expression) : e.nodes = e.clauses.flatMap nodes ++ [e] := by
  cases e with
  | union k first rest => rw [nodes, nodesOfAll_eq, clauses, List.flatMap_cons]
  | negation clause => simp [nodes, clauses]
  | _ => rfl

/-! Arrays. -/

def isComposite : Value → Bool
  | .text t => t = "allof" || t = "anyof" || t = "not"
  | _ => false

mutual

/-- The arrays that stand for expressions in a wire form: those among the arguments in order, then
the array itself. -/
def arrays : Value → List Value
  | .list (tag :: rest) =>
    (if isComposite tag then arraysAmong rest else []) ++ [.list (tag :: rest)]
  | _ => []
  termination_by structural v => v

def arraysAmong : List Value → List Value
  | [] => []
  | v :: rest => arrays v ++ arraysAmong rest
  termination_by structural vs => vs

end

def tag? : Value → Option Text
  | .list (.text t :: _) => some t
  | _ => none

def tags (v : Value) : List Text := (arrays v).filterMap tag?

theorem arraysAmong_eq (vs : List Value) : arraysAmong vs = vs.flatMap arrays := by
  induction vs with
  | nil => rfl
  | cons v vs ih => rw [arraysAmong, ih, List.flatMap_cons]

theorem isComposite_word (t : Term) :
    isComposite (.text t.word) = decide (t ∈ [Term.allOf, Term.anyOf, Term.negation]) := by
  cases t <;> decide

/-- Only the words of unions and negations are followed by expressions. -/
theorem isComposite_term (e : Expression) :
    isComposite (.text e.term.word) = !e.clauses.isEmpty := by
  rw [isComposite_word]
  cases e with
  | constant kind | union kind _ _ | pattern kind _ _ | name kind _ _ _ => cases kind <;> rfl
  | negation | since | suffix | fileType => rfl

theorem arguments_clauses {e : Expression} (h : e.clauses ≠ []) :
    e.arguments = e.clauses.map wire := by
  cases e with
  | union kind first rest => rw [arguments, wireAll_eq, clauses, List.map_cons]
  | negation clause => rfl
  | _ => exact absurd rfl h

theorem arrays_wire (e : Expression) :
    arrays e.wire = (e.clauses.map wire).flatMap arrays ++ [e.wire] := by
  rw [wire_eq, arrays, isComposite_term, arraysAmong_eq, ← wire_eq]
  by_cases hclauses : e.clauses = []
  · simp [hclauses]
  · rw [arguments_clauses hclauses]
    simp [hclauses]

theorem nodes_arrays (e : Expression) : e.nodes.map wire = arrays e.wire := by
  induction e using clause_induction with
  | h e ih =>
    rw [nodes_eq, arrays_wire, List.map_append, List.map_flatMap, List.flatMap_map]
    congr 1
    exact List.flatMap_congr ih

theorem terms_tags (e : Expression) :
    (e.terms.map fun t => Text.ofString t.word) = tags e.wire := by
  have htag (n : Expression) : tag? n.wire = some (Text.ofString n.term.word) := by
    rw [wire_eq]
    rfl
  rw [tags, ← nodes_arrays, List.filterMap_map, terms, List.map_map]
  rw [← List.filterMap_eq_map]
  congr 1
  funext n
  exact (htag n).symm

/-! Places. -/

/-- The node at a place, which is the way to it: at each node the number of a clause. -/
def at? (e : Expression) : List Nat → Option Expression
  | [] => some e
  | i :: way => (e.clauses[i]?).bind fun c => c.at? way

mutual

def places : Expression → List (List Nat)
  | union _ first rest => (places first).map (0 :: ·) ++ placesFrom 1 rest ++ [[]]
  | negation clause => (places clause).map (0 :: ·) ++ [[]]
  | _ => [[]]
  termination_by structural e => e

def placesFrom (i : Nat) : List Expression → List (List Nat)
  | [] => []
  | e :: rest => (places e).map (i :: ·) ++ placesFrom (i + 1) rest
  termination_by structural es => es

end

theorem places_eq (e : Expression) : e.places = placesFrom 0 e.clauses ++ [[]] := by
  cases e with
  | negation clause => rw [places, clauses, placesFrom, placesFrom, List.append_nil]
  | _ => rfl

theorem mem_placesFrom {i : Nat} {es : List Expression} {p : List Nat} :
    p ∈ placesFrom i es ↔ ∃ j c way, es[j]? = some c ∧ way ∈ c.places ∧ p = (i + j) :: way := by
  induction es generalizing i with
  | nil => simp [placesFrom]
  | cons e es ih =>
    rw [placesFrom, List.mem_append, List.mem_map, ih]
    constructor
    · rintro (⟨way, hway, rfl⟩ | ⟨j, c, way, hc, hway, rfl⟩)
      · exact ⟨0, e, way, rfl, hway, rfl⟩
      · exact ⟨j + 1, c, way, hc, hway, by rw [Nat.add_right_comm, Nat.add_assoc]⟩
    · rintro ⟨j, c, way, hc, hway, rfl⟩
      cases j with
      | zero =>
        cases hc
        exact Or.inl ⟨way, hway, rfl⟩
      | succ j => exact Or.inr ⟨j, c, way, hc, hway, by rw [Nat.add_right_comm, Nat.add_assoc]⟩

theorem mem_places (e : Expression) (p : List Nat) : p ∈ e.places ↔ (e.at? p).isSome := by
  induction e using clause_induction generalizing p with
  | h e ih =>
    rw [places_eq, List.mem_append, List.mem_singleton, mem_placesFrom]
    cases p with
    | nil => simp [at?]
    | cons i way =>
      rw [at?]
      constructor
      · rintro (⟨j, c, way', hc, hway, hp⟩ | hp)
        · obtain ⟨rfl, rfl⟩ := List.cons.inj hp
          rw [Nat.zero_add, hc]
          exact (ih c (List.mem_of_getElem? hc) way).mp hway
        · cases hp
      · intro hsome
        cases hc : e.clauses[i]? with
        | none =>
          rw [hc] at hsome
          cases hsome
        | some c =>
          rw [hc] at hsome
          have hway := (ih c (List.mem_of_getElem? hc) way).mpr hsome
          exact Or.inl ⟨i, c, way, hc, hway, by rw [Nat.zero_add]⟩

/-- The clauses from the `i`-th on give the nodes at the places below them. -/
theorem placesFrom_at {e : Expression}
    (h : ∀ c ∈ e.clauses, c.places.map c.at? = c.nodes.map some) {i : Nat} {es : List Expression}
    (hes : e.clauses.drop i = es) :
    (placesFrom i es).map e.at? = (es.flatMap nodes).map some := by
  induction es generalizing i with
  | nil => rfl
  | cons c es ih =>
    have hc : e.clauses[i]? = some c := by rw [← List.head?_drop, hes, List.head?_cons]
    have hrest : e.clauses.drop (i + 1) = es := by rw [← List.tail_drop, hes, List.tail_cons]
    have hbelow : ((places c).map (i :: ·)).map e.at? = c.nodes.map some := by
      rw [← h c (List.mem_of_getElem? hc), List.map_map]
      apply List.map_congr_left
      intro way _
      rw [Function.comp_apply, at?, hc, Option.bind_some]
    rw [placesFrom, List.map_append, hbelow, ih hrest, List.flatMap_cons, List.map_append]

theorem places_at (e : Expression) : e.places.map e.at? = e.nodes.map some := by
  induction e using clause_induction with
  | h e ih =>
    rw [places_eq, nodes_eq, List.map_append, List.map_append, placesFrom_at ih List.drop_zero]
    rfl

/-- No place stands before one that it leads to. -/
def Outward (ps : List (List Nat)) : Prop := ps.Pairwise fun p q => ¬ p <+: q

theorem placesFrom_outward {es : List Expression} (h : ∀ c ∈ es, Outward c.places) (i : Nat) :
    Outward (placesFrom i es) := by
  induction es generalizing i with
  | nil => exact List.Pairwise.nil
  | cons c es ih =>
    rw [List.forall_mem_cons] at h
    refine List.pairwise_append.mpr ⟨?_, ih h.2 (i + 1), ?_⟩
    · apply List.pairwise_map.mpr
      refine h.1.imp fun {p q} hpq hprefix => ?_
      exact hpq (List.cons_prefix_cons.mp hprefix).2
    · intro p hp q hq hprefix
      obtain ⟨way, -, rfl⟩ := List.mem_map.mp hp
      obtain ⟨j, c', way', -, -, rfl⟩ := mem_placesFrom.mp hq
      have hfirst := (List.cons_prefix_cons.mp hprefix).1
      omega

theorem places_outward (e : Expression) : Outward e.places := by
  induction e using clause_induction with
  | h e ih =>
    rw [places_eq]
    refine List.pairwise_append.mpr ⟨placesFrom_outward ih 0, List.pairwise_singleton _ _, ?_⟩
    intro p hp q hq hprefix
    obtain ⟨j, c, way, -, -, rfl⟩ := mem_placesFrom.mp hp
    rw [List.mem_singleton.mp hq] at hprefix
    cases List.prefix_nil.mp hprefix

theorem places_nodup (e : Expression) : e.places.Nodup := by
  refine (places_outward e).imp ?_
  rintro p q hpq rfl
  exact hpq (List.prefix_refl p)

/-- The words of the nodes are read off the wire form from the innermost arrays outwards. The nodes
are those at the places of the tree, each place once, none before a place below it and the whole
last, and there are as many as the wire form has arrays for expressions. -/
theorem walk_agrees_with_wire (e : Expression) : ∃ v, wireOf (.expression e) = .ok v ∧
    (e.terms.map fun t => Text.ofString t.word) = tags v ∧
    e.nodes.map wire = arrays v ∧ e.nodes.length = (arrays v).length ∧
    e.nodes.getLast? = some e ∧
    ∃ places : List (List Nat), places.map e.at? = e.nodes.map some ∧
      (∀ p, p ∈ places ↔ (e.at? p).isSome) ∧ places.Nodup ∧
      places.Pairwise fun p q => ¬ p <+: q := by
  have hlast : e.nodes.getLast? = some e := by rw [nodes_eq, List.getLast?_concat]
  have hlength : e.nodes.length = (arrays e.wire).length := by
    rw [← nodes_arrays, List.length_map]
  refine ⟨e.wire, rfl, terms_tags e, nodes_arrays e, hlength, hlast, e.places, ?_⟩
  exact ⟨places_at e, mem_places e, places_nodup e, places_outward e⟩

end FileWatch.Expression
