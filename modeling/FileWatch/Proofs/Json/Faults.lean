import FileWatch.Proofs.Json.Documents
/-!
Where the reader of documents gives up: at the end of the text, at a control character inside a
string, or at a code point that is no white space. White space between tokens is never at fault.
-/

namespace FileWatch.Json

variable {α β : Type}

/-- A fault lies at the end of the text or at a code point that is wrong there. -/
def Placed (r : Reading α) : Prop :=
  ∀ fault rest, r = .error (.malformed fault rest) → rest = [] ∨ Misread fault rest

def Trimmed (t : Text) : Prop := ∀ c more, t = c :: more → isSpace c = false

theorem trimmed_skipSpace (t : Text) : Trimmed (skipSpace t) :=
  fun _ _ h => skipSpace_head h

theorem trimmed_cons {c : CodePoint} {t : Text} (h : Trimmed (c :: t)) : isSpace c = false :=
  h c t rfl

theorem placed_ok (p : α × Text) : Placed (.ok p : Reading α) := by
  intro fault rest h
  cases h

theorem trimmed_misread {t : Text} (h : Trimmed t) (fault : Fault) :
    t = [] ∨ Misread fault t := by
  cases t with
  | nil => exact Or.inl rfl
  | cons c more => exact Or.inr (misread_cons (trimmed_cons h) fault more)

theorem placed_at {t : Text} (h : Trimmed t) (fault : Fault) :
    Placed (.error (.malformed fault t) : Reading α) := by
  intro fault' rest hr
  cases hr
  exact trimmed_misread h _

theorem placed_andThen {r : Reading α} {k : α → Text → Reading β} (hr : Placed r)
    (hk : ∀ a rest, r = .ok (a, rest) → Placed (k a rest)) : Placed (andThen r k) := by
  rcases r with e | ⟨a, rest⟩
  · intro fault rest h
    cases h
    exact hr fault rest rfl
  · exact hk a rest rfl

theorem placed_token {fault : Fault} {t : Text} {k : CodePoint → Text → Reading β}
    (hk : ∀ d more, isSpace d = false → Placed (k d more)) : Placed (token fault t k) := by
  unfold token
  cases hs : skipSpace t with
  | nil =>
    intro fault' rest h
    cases h
    exact Or.inl rfl
  | cons d more => exact hk d more (skipSpace_head hs)

theorem placed_string {q : CodePoint} (hq : isSpace q = false) (t : Text) :
    Placed (string (q :: t) 0 t) :=
  fun _ _ h => Or.inr (string_misread (fun f => misread_cons hq f t) h)

theorem placed_scalar {t : Text} (h : Trimmed t) : Placed (scalar t) := by
  intro fault rest hr
  obtain rfl := scalar_fault hr
  exact trimmed_misread h fault

theorem placed_listed {close : CodePoint} {element : Reading α} {others : Text → Reading (List α)}
    (he : Placed element) (ho : ∀ t, Trimmed t → Placed (others t)) :
    Placed (listed close element others) := by
  apply placed_andThen he
  intro a rest _
  apply placed_token
  intro d more hd
  by_cases hclose : d = close
  · rw [if_pos hclose]
    exact placed_ok _
  · rw [if_neg hclose]
    by_cases hcomma : d = ','
    · rw [if_pos hcomma]
      apply placed_andThen (ho _ (trimmed_skipSpace more))
      intro as rest _
      exact placed_ok _
    · rw [if_neg hcomma]
      intro fault rest h
      cases h
      exact Or.inr (misread_cons hd _ more)

theorem placed_bracketed {fault : Fault} {close : CodePoint} {empty : Value} {build : α → Value}
    {contents : Text → Reading α} {t : Text} (hc : ∀ s, Trimmed s → Placed (contents s)) :
    Placed (bracketed fault close empty build contents t) := by
  apply placed_token
  intro d more hd
  by_cases hclose : d = close
  · rw [if_pos hclose]
    exact placed_ok _
  · rw [if_neg hclose]
    apply placed_andThen
    · apply hc
      intro c tail h
      obtain ⟨rfl, -⟩ := List.cons.inj h
      exact hd
    · intro a rest _
      exact placed_ok _

theorem placed_member {n : Nat} {t : Text} (ht : Trimmed t)
    (hv : ∀ s, Trimmed s → Placed (valueWithin n s)) : Placed (memberWithin n t) := by
  unfold memberWithin
  cases t with
  | nil => exact placed_at ht _
  | cons q body =>
    by_cases hq : q = '"'
    · simp only [if_pos hq]
      apply placed_andThen (placed_string (trimmed_cons ht) body)
      intro key rest _
      apply placed_token
      intro d more hd
      by_cases hcolon : d = ':'
      · rw [if_pos hcolon]
        apply placed_andThen (hv _ (trimmed_skipSpace more))
        intro v rest _
        exact placed_ok _
      · rw [if_neg hcolon]
        intro fault rest h
        cases h
        exact Or.inr (misread_cons hd _ more)
    · simp only [if_neg hq]
      exact placed_at ht _

theorem within_placed (n : Nat) :
    (∀ t, Trimmed t → Placed (valueWithin n t)) ∧ (∀ t, Trimmed t → Placed (itemsWithin n t)) ∧
      ∀ t, Trimmed t → Placed (membersWithin n t) := by
  induction n with
  | zero =>
    exact ⟨fun _ ht => placed_at ht _, fun _ ht => placed_at ht _, fun _ ht => placed_at ht _⟩
  | succ n ih =>
    obtain ⟨hv, hi, hm⟩ := ih
    refine ⟨?_, ?_, ?_⟩
    · intro t ht
      cases t with
      | nil => exact placed_at ht _
      | cons c t =>
        rcases value_kinds c with rfl | rfl | rfl | hc
        · rw [valueWithin_string]
          apply placed_andThen (placed_string (trimmed_cons ht) t)
          intro x rest _
          exact placed_ok _
        · rw [valueWithin_list]
          exact placed_bracketed hi
        · rw [valueWithin_dict]
          exact placed_bracketed hm
        · rw [valueWithin_scalar hc]
          exact placed_scalar ht
    · intro t ht
      rw [itemsWithin_succ]
      exact placed_listed (hv t ht) hi
    · intro t ht
      rw [membersWithin_succ]
      exact placed_listed (placed_member ht hv) hm

/-- White space in front of the document apart, a document's fault is placed. -/
theorem document_placed {t : Text} (h : Trimmed t) : Placed (document t) :=
  (within_placed _).1 t h

end FileWatch.Json
