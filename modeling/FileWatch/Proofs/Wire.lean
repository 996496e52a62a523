import FileWatch.Query.Wire
import Mathlib.Data.List.Basic
/-!
The wire form as a code for expressions. The word in front tells the kind of a node, and every slot
behind it can be read back: two trees have the same wire form exactly when they are equal. Nor does
a tree depend on how the sequences among a constructor's arguments are given.
-/

namespace FileWatch

theorem CodePoint.ofChar_injective : Function.Injective CodePoint.ofChar := by
  intro c d h
  have hval : (CodePoint.ofChar c).val = (CodePoint.ofChar d).val := by rw [h]
  exact Char.toNat_inj.mp hval

theorem Text.ofString_injective : Function.Injective Text.ofString := by
  intro s t h
  have hlist : s.toList = t.toList := List.map_injective_iff.mpr CodePoint.ofChar_injective h
  exact String.toList_inj.mp hlist

/-! Words and terms can be read back. -/

theorem injective_of_read {α β : Type} {write : α → β} (read : β → Option α)
    (h : ∀ a, read (write a) = some a) : Function.Injective write := by
  intro a b hab
  have ha := h a
  rw [hab, h b] at ha
  exact (Option.some.inj ha).symm

theorem Term.word_injective : Function.Injective Term.word :=
  injective_of_read (fun w => Term.all.find? fun t => t.word = w) (by
    intro t
    cases t <;> decide)

theorem ClockBasis.word_injective : Function.Injective ClockBasis.word? :=
  injective_of_read (fun w => ClockBasis.all.find? fun b => b.word? = w) (by
    intro b
    cases b <;> decide)

theorem PathScope.word_injective : Function.Injective PathScope.word? :=
  injective_of_read (fun w => PathScope.all.find? fun s => s.word? = w) (by
    intro s
    cases s <;> decide)

theorem Constant.term_injective : Function.Injective Constant.term :=
  injective_of_read Expression.constant? (by
    intro k
    cases k <;> rfl)

theorem Union.term_injective : Function.Injective Union.term :=
  injective_of_read Expression.union? (by
    intro k
    cases k <;> rfl)

theorem PatternKind.term_injective : Function.Injective PatternKind.term :=
  injective_of_read Expression.patternKind? (by
    intro k
    cases k <;> rfl)

theorem NameKind.term_injective : Function.Injective NameKind.term :=
  injective_of_read Expression.nameKind? (by
    intro k
    cases k <;> rfl)

/-! Slots. -/

theorem slot_injective : Function.Injective slot := by
  intro u w h
  cases u with
  | none =>
    cases w with
    | none => rfl
    | some t => cases h
  | some s =>
    cases w with
    | none => cases h
    | some t =>
      have htext : Text.ofString s = Text.ofString t := by simpa [slot] using h
      rw [Text.ofString_injective htext]

theorem Origin.wire_injective : Function.Injective Origin.wire := by
  intro o p h
  cases o with
  | clock s =>
    cases p with
    | clock t => rw [Subtype.ext (Value.text.inj h)]
    | timestamp n => cases h
  | timestamp m =>
    cases p with
    | clock t => cases h
    | timestamp n => rw [Value.int.inj h]

namespace Expression

theorem texts_injective :
    Function.Injective (List.map fun t : NonemptyText => Value.text t.val) := by
  apply List.map_injective_iff.mpr
  intro s t h
  exact Subtype.ext (Value.text.inj h)

/-- The candidates of a name term in one slot: one alone stands for itself. -/
def namesWire (first : NonemptyText) (rest : List NonemptyText) : Value :=
  if rest.isEmpty then .text first.val else .list (.text first.val :: rest.map fun t => .text t.val)

theorem namesWire_injective {first first' : NonemptyText} {rest rest' : List NonemptyText}
    (h : namesWire first rest = namesWire first' rest') : first = first' ∧ rest = rest' := by
  cases rest with
  | nil =>
    cases rest' with
    | nil => exact ⟨Subtype.ext (Value.text.inj h), rfl⟩
    | cons t ts => cases h
  | cons s ss =>
    cases rest' with
    | nil => cases h
    | cons t ts =>
      have hall : first :: s :: ss = first' :: t :: ts := texts_injective (Value.list.inj h)
      exact ⟨(List.cons.inj hall).1, (List.cons.inj hall).2⟩

def arguments : Expression → List Value
  | constant _ => []
  | union _ first rest => wire first :: wireAll rest
  | negation clause => [wire clause]
  | since origin basis => origin.wire :: slot basis.word?
  | suffix value => [.text value.val]
  | pattern _ value scope => .text value.val :: slot scope.word?
  | name _ first rest scope => namesWire first rest :: slot scope.word?
  | fileType letter => [.text [letter]]

theorem wire_eq (e : Expression) : e.wire = .list (.text e.term.word :: e.arguments) := by
  cases e <;> rfl

theorem same_wire {a b : Expression} (h : a.wire = b.wire) :
    a.term = b.term ∧ a.arguments = b.arguments := by
  rw [wire_eq a, wire_eq b] at h
  have hparts := List.cons.inj (Value.list.inj h)
  exact ⟨Term.word_injective (Text.ofString_injective (Value.text.inj hparts.1)), hparts.2⟩

def kindOfTerm : Term → NodeKind
  | .always | .never | .empty | .present => .constant
  | .allOf | .anyOf => .union
  | .negation => .negation
  | .since => .since
  | .suffix => .suffix
  | .glob | .globCaseless | .regex | .regexCaseless => .pattern
  | .name | .nameCaseless => .name
  | .fileType => .fileType

def nodeKind : Expression → NodeKind
  | constant _ => .constant
  | union .. => .union
  | negation _ => .negation
  | since .. => .since
  | suffix _ => .suffix
  | pattern .. => .pattern
  | name .. => .name
  | fileType _ => .fileType

theorem kindOfTerm_term (e : Expression) : kindOfTerm e.term = e.nodeKind := by
  cases e with
  | constant kind | union kind _ _ | pattern kind _ _ | name kind _ _ _ => cases kind <;> rfl
  | negation | since | suffix | fileType => rfl

theorem same_kind {a b : Expression} (h : a.wire = b.wire) : a.nodeKind = b.nodeKind := by
  rw [← kindOfTerm_term a, ← kindOfTerm_term b, (same_wire h).1]

mutual

/-- Trees with one wire form have one kind of node on top, and the slots behind the word hold the
same clauses and payloads. -/
theorem wire_injective : ∀ a b : Expression, a.wire = b.wire → a = b
  | constant k, b, h => by
    cases b with
    | constant l => rw [Constant.term_injective (same_wire h).1]
    | _ => cases same_kind h
  | union k e es, b, h => by
    cases b with
    | union l f fs =>
      obtain ⟨hterm, hclauses⟩ := same_wire h
      have hfirst := wire_injective e f (List.cons.inj hclauses).1
      have hrest := wireAll_injective es fs (List.cons.inj hclauses).2
      rw [Union.term_injective hterm, hfirst, hrest]
    | _ => cases same_kind h
  | negation e, b, h => by
    cases b with
    | negation f => rw [wire_injective e f (List.cons.inj (same_wire h).2).1]
    | _ => cases same_kind h
  | since o c, b, h => by
    cases b with
    | since p d =>
      have hslots := List.cons.inj (same_wire h).2
      rw [Origin.wire_injective hslots.1, ClockBasis.word_injective (slot_injective hslots.2)]
    | _ => cases same_kind h
  | suffix s, b, h => by
    cases b with
    | suffix t =>
      have htext := (List.cons.inj (same_wire h).2).1
      rw [Subtype.ext (Value.text.inj htext)]
    | _ => cases same_kind h
  | pattern k s c, b, h => by
    cases b with
    | pattern l t d =>
      obtain ⟨hterm, harguments⟩ := same_wire h
      have hslots := List.cons.inj harguments
      rw [PatternKind.term_injective hterm, Subtype.ext (Value.text.inj hslots.1),
        PathScope.word_injective (slot_injective hslots.2)]
    | _ => cases same_kind h
  | name k s ss c, b, h => by
    cases b with
    | name l t ts d =>
      obtain ⟨hterm, harguments⟩ := same_wire h
      have hslots := List.cons.inj harguments
      obtain ⟨hfirst, hrest⟩ := namesWire_injective hslots.1
      rw [NameKind.term_injective hterm, hfirst, hrest,
        PathScope.word_injective (slot_injective hslots.2)]
    | _ => cases same_kind h
  | fileType c, b, h => by
    cases b with
    | fileType d =>
      have htext := Value.text.inj (List.cons.inj (same_wire h).2).1
      rw [(List.cons.inj htext).1]
    | _ => cases same_kind h

theorem wireAll_injective : ∀ as bs : List Expression, wireAll as = wireAll bs → as = bs
  | [], bs, h => by
    cases bs with
    | nil => rfl
    | cons b bs => cases h
  | a :: as, bs, h => by
    cases bs with
    | nil => cases h
    | cons b bs =>
      have hboth := List.cons.inj h
      rw [wire_injective a b hboth.1, wireAll_injective as bs hboth.2]

end

/-! Sequences among the arguments. -/

end Expression

def Value.listed : Value → Value
  | tuple items => list items
  | v => v

def Value.gathered : Value → Value
  | text t => list [text t]
  | v => v.listed

/-- An argument with its sequence, if it is one, as a list. Only the constructors of name terms take
a text for a sequence. -/
def Constructor.uniform : Constructor → Value → Value
  | term .name | term .nameCaseless => Value.gathered
  | _ => Value.listed

namespace Expression

theorem toOption_bind {ε α β : Type} (x : Except ε α) (f : α → Except ε β) :
    (x >>= f).toOption = x.toOption.bind fun a => (f a).toOption := by
  cases x <;> rfl

theorem toOption_map {ε α β : Type} (f : α → β) (x : Except ε α) :
    (f <$> x).toOption = x.toOption.map f := by
  cases x <;> rfl

theorem toOption_error {ε α : Type} (e : ε) : (Except.error e : Except ε α).toOption = none := rfl

theorem members_listed (v : Value) : members v.listed = members v := by
  cases v <;> rfl

theorem candidates_gathered (v : Value) : candidates v.gathered = candidates v := by
  cases v <;> rfl

theorem requireText_listed (what : String) (v : Value) :
    (requireText what v.listed).toOption = (requireText what v).toOption := by
  cases v <;> rfl

theorem ofValue_listed (v : Value) : (ofValue v.listed).toOption = (ofValue v).toOption := by
  cases v <;> rfl

theorem requireBasis_listed (v : Value) :
    (requireBasis (some v.listed)).toOption = (requireBasis (some v)).toOption := by
  cases v <;> rfl

theorem requireScope_listed (v : Value) :
    (requireScope (some v.listed)).toOption = (requireScope (some v)).toOption := by
  cases v <;> rfl

theorem requireScope_gathered (v : Value) :
    (requireScope (some v.gathered)).toOption = (requireScope (some v)).toOption := by
  cases v <;> rfl

theorem requireTerm_tuple {α : Type} (select? : Term → Option α) (expected : TermClass)
    (items : List Value) : (requireTerm select? expected (.tuple items)).toOption = none := by
  unfold requireTerm
  rw [toOption_bind]
  cases (Value.tuple items).requireHashable <;> rfl

theorem requireTerm_listed {α : Type} (select? : Term → Option α) (expected : TermClass)
    (v : Value) :
    (requireTerm select? expected v.listed).toOption =
      (requireTerm select? expected v).toOption := by
  cases v with
  | tuple items =>
    rw [requireTerm_tuple]
    rfl
  | _ => rfl

/-! Each way of building a node makes of a tuple what it makes of a list. -/

theorem mapM_listed {α : Type} {f : Value → Except ArgumentError α}
    (hf : ∀ v, (f v.listed).toOption = (f v).toOption) (vs : List Value) :
    ((vs.map Value.listed).mapM f).toOption = (vs.mapM f).toOption := by
  induction vs with
  | nil => rfl
  | cons v vs ih => simp only [List.map_cons, List.mapM_cons, toOption_bind, hf, ih]

theorem buildUnion_listed (kind : Union) (vs : List Value) :
    (buildUnion kind (vs.map Value.listed)).toOption = (buildUnion kind vs).toOption := by
  cases vs with
  | nil => rfl
  | cons v vs =>
    simp only [List.map_cons, buildUnion, toOption_bind, ofValue_listed, mapM_listed ofValue_listed]

theorem buildSince_listed (v : Value) (basis : Option Value) :
    (buildSince v.listed basis).toOption = (buildSince v basis).toOption := by
  cases v <;> rfl

theorem buildSinceTime_listed (here : LocalTime) (v : Value) (basis : Option Value) :
    (buildSinceTime here v.listed basis).toOption = (buildSinceTime here v basis).toOption := by
  cases v <;> rfl

theorem buildSince_basis (v basis : Value) :
    (buildSince v (some basis.listed)).toOption = (buildSince v (some basis)).toOption := by
  cases v <;> simp only [buildSince, toOption_bind, requireBasis_listed]

theorem buildSinceTime_basis (here : LocalTime) (v basis : Value) :
    (buildSinceTime here v (some basis.listed)).toOption =
      (buildSinceTime here v (some basis)).toOption := by
  cases v <;> simp only [buildSinceTime, toOption_bind, requireBasis_listed]

theorem buildName_scope (kind : NameKind) (names : List Value) (scope : Value) :
    (buildName kind names (some scope.listed)).toOption =
      (buildName kind names (some scope)).toOption := by
  cases names with
  | nil => rfl
  | cons name names => simp only [buildName, toOption_bind, requireScope_listed]

theorem buildName_scope_gathered (kind : NameKind) (names : List Value) (scope : Value) :
    (buildName kind names (some scope.gathered)).toOption =
      (buildName kind names (some scope)).toOption := by
  cases names with
  | nil => rfl
  | cons name names => simp only [buildName, toOption_bind, requireScope_gathered]

theorem buildFileType_listed (v : Value) :
    (buildFileType v.listed).toOption = (buildFileType v).toOption := by
  have hother {v : Value} (h : ∀ c, v ≠ .text [c]) : (buildFileType v).toOption = none := by
    unfold buildFileType
    split
    · exact absurd rfl (h _)
    · split <;> rfl
  cases v with
  | tuple items => rw [Value.listed, hother (by simp), hother (by simp)]
  | _ => rfl

theorem buildNameNode_listed (given names : Value) (scope : Option Value) :
    (Constructor.call.buildNameNode given names.listed scope).toOption =
      (Constructor.call.buildNameNode given names scope).toOption := by
  cases names <;> rfl

theorem buildNameNode_given (given names : Value) (scope : Option Value) :
    (Constructor.call.buildNameNode given.listed names scope).toOption =
      (Constructor.call.buildNameNode given names scope).toOption := by
  simp only [Constructor.call.buildNameNode, toOption_bind, requireTerm_listed]

theorem buildNameNode_scope (given names scope : Value) :
    (Constructor.call.buildNameNode given names (some scope.listed)).toOption =
      (Constructor.call.buildNameNode given names (some scope)).toOption := by
  unfold Constructor.call.buildNameNode
  cases names <;> simp only [toOption_bind, buildName_scope]

theorem call_uniform (here : LocalTime) (c : Constructor) (arguments : List Value) :
    (c.call here (arguments.map c.uniform)).toOption = (c.call here arguments).toOption := by
  cases c with
  | term t =>
    cases t with
    | allOf => exact buildUnion_listed .allOf arguments
    | anyOf => exact buildUnion_listed .anyOf arguments
    | _ =>
      rcases arguments with _ | ⟨a, _ | ⟨b, _ | ⟨d, as⟩⟩⟩ <;>
        simp only [List.map_nil, List.map_cons, Constructor.call, Constructor.uniform,
          toOption_error, toOption_bind, buildNegation, ofValue_listed, buildSinceClock,
          requireText_listed, requireBasis_listed, buildSuffix, buildPattern, requireScope_listed,
          candidates_gathered, buildName_scope_gathered, buildFileType_listed]
  | sinceTime =>
    rcases arguments with _ | ⟨a, _ | ⟨b, _ | ⟨d, as⟩⟩⟩ <;>
      simp only [List.map_nil, List.map_cons, Constructor.call, Constructor.uniform, toOption_error,
        buildSinceTime_listed, buildSinceTime_basis]
  | node kind =>
    cases kind with
    | _ =>
      rcases arguments with _ | ⟨a, _ | ⟨b, _ | ⟨d, _ | ⟨e, as⟩⟩⟩⟩ <;>
        simp only [List.map_nil, List.map_cons, Constructor.call, Constructor.uniform,
          toOption_error, toOption_bind, toOption_map, requireTerm_listed, members_listed,
          buildNegation, ofValue_listed, buildSince_listed, buildSince_basis, buildSuffix,
          requireText_listed, buildPattern, requireScope_listed, buildNameNode_listed,
          buildNameNode_given, buildNameNode_scope, buildFileType_listed]

/-- The wire form is unambiguous: every expression has one, and two expressions have the same
exactly when they are equal. Arguments that differ only in how their sequences are given build the
same expression, or none. -/
theorem wire_determines_expression :
    (∀ a b : Expression, ∃ v w, wireOf (.expression a) = .ok v ∧ wireOf (.expression b) = .ok w ∧
      (v = w ↔ a = b)) ∧
    ∀ (here : LocalTime) (c : Constructor) (as bs : List Value),
      as.map c.uniform = bs.map c.uniform →
        (c.call here as).toOption = (c.call here bs).toOption := by
  constructor
  · intro a b
    refine ⟨a.wire, b.wire, rfl, rfl, wire_injective a b, ?_⟩
    intro h
    rw [h]
  · intro here c as bs h
    rw [← call_uniform here c as, ← call_uniform here c bs, h]

/-- One candidate may come alone or in a tuple, and a second one is no scope. -/
theorem candidate_alone_or_in_tuple :
    let alone : List Value := [.text "a", .scope .baseName]
    let tuple : List Value := [.tuple [.text "a"], .scope .baseName]
    let nowhere : LocalTime := fun _ => .error (.system "no local time")
    ((Constructor.term .name).call nowhere alone).toOption =
        ((Constructor.term .name).call nowhere tuple).toOption ∧
      ∃ v w, wireOf (.expression (.name .exact ⟨"a", by decide⟩ [] .baseName)) = .ok v ∧
        wireOf (.expression (.name .exact ⟨"a", by decide⟩ [⟨"basename", by decide⟩] .standard)) =
          .ok w ∧ v ≠ w := by
  constructor
  · exact wire_determines_expression.2 _ (.term .name) _ _ rfl
  · obtain ⟨v, w, hv, hw, hsame⟩ := wire_determines_expression.1
      (.name .exact ⟨"a", by decide⟩ [] .baseName)
      (.name .exact ⟨"a", by decide⟩ [⟨"basename", by decide⟩] .standard)
    refine ⟨v, w, hv, hw, ?_⟩
    rw [Ne, hsame]
    simp

end Expression

end FileWatch
