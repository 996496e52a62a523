import Mathlib.Data.List.Nodup
/-!
Lists that are worked through item by item, where an item may fail, and entries that are looked up
by their name.
-/

namespace FileWatch

section

variable {ε α β : Type}

theorem except_bind_ok {x : Except ε α} {g : α → Except ε β} {b : β} :
    x >>= g = .ok b ↔ ∃ a, x = .ok a ∧ g a = .ok b := by
  cases x with
  | error e =>
    constructor
    · rintro ⟨⟩
    · rintro ⟨_, ⟨⟩, -⟩
  | ok a =>
    constructor
    · exact fun h => ⟨a, rfl, h⟩
    · rintro ⟨_, ⟨⟩, h⟩
      exact h

theorem except_bind_error {x : Except ε α} {g : α → Except ε β} {e : ε} :
    x >>= g = .error e ↔ x = .error e ∨ ∃ a, x = .ok a ∧ g a = .error e := by
  cases x with
  | error e' =>
    constructor
    · rintro ⟨⟩
      exact .inl rfl
    · rintro (h | ⟨_, ⟨⟩, -⟩)
      cases h
      rfl
  | ok a =>
    constructor
    · exact fun h => .inr ⟨a, rfl, h⟩
    · rintro (h | ⟨_, ⟨⟩, h⟩)
      · cases h
      · exact h

variable {f : α → Except ε β}

theorem mapM_ok {items : List α} {results : List β} :
    items.mapM f = .ok results ↔ List.Forall₂ (fun a b => f a = .ok b) items results := by
  induction items generalizing results with
  | nil =>
    rw [List.mapM_nil, List.forall₂_nil_left_iff]
    exact ⟨fun h => (Except.ok.inj h).symm, fun h => congrArg Except.ok h.symm⟩
  | cons a rest ih =>
    rw [List.mapM_cons, except_bind_ok]
    constructor
    · rintro ⟨b, hfirst, h⟩
      obtain ⟨bs, hrest, ⟨⟩⟩ := except_bind_ok.mp h
      exact .cons hfirst (ih.mp hrest)
    · rintro (_ | ⟨hfirst, hrest⟩)
      exact ⟨_, hfirst, except_bind_ok.mpr ⟨_, ih.mpr hrest, rfl⟩⟩

/-- The error is that of the first item that fails. -/
theorem mapM_error {items : List α} {e : ε} :
    items.mapM f = .error e ↔ ∃ before item after, items = before ++ item :: after ∧
      (∀ a ∈ before, ∃ b, f a = .ok b) ∧ f item = .error e := by
  induction items with
  | nil =>
    constructor
    · rintro ⟨⟩
    · rintro ⟨before, item, after, hitems, -⟩
      simp at hitems
  | cons a rest ih =>
    rw [List.mapM_cons, except_bind_error]
    constructor
    · rintro (hfirst | ⟨b, hfirst, h⟩)
      · exact ⟨[], a, rest, rfl, by simp, hfirst⟩
      · rcases except_bind_error.mp h with hrest | ⟨_, -, ⟨⟩⟩
        obtain ⟨before, item, after, rfl, hbefore, hitem⟩ := ih.mp hrest
        exact ⟨a :: before, item, after, rfl,
          List.forall_mem_cons.mpr ⟨⟨b, hfirst⟩, hbefore⟩, hitem⟩
    · rintro ⟨_ | ⟨c, before⟩, item, after, ⟨⟩, hbefore, hitem⟩
      · exact .inl hitem
      · obtain ⟨⟨b, hfirst⟩, hbefore⟩ := List.forall_mem_cons.mp hbefore
        have hrest := ih.mpr ⟨before, item, after, rfl, hbefore, hitem⟩
        exact .inr ⟨b, hfirst, except_bind_error.mpr (.inl hrest)⟩

theorem exists_forall₂ {R : α → β → Prop} {l : List α} :
    (∀ a ∈ l, ∃ b, R a b) ↔ ∃ bs, List.Forall₂ R l bs := by
  induction l with
  | nil => simp
  | cons a l ih =>
    rw [List.forall_mem_cons, ih]
    constructor
    · rintro ⟨⟨b, hb⟩, bs, hbs⟩
      exact ⟨b :: bs, .cons hb hbs⟩
    · rintro ⟨_, h⟩
      cases h with
      | cons hb hbs => exact ⟨⟨_, hb⟩, _, hbs⟩

end

/-! Entries and their names. -/

section

variable {α β : Type} [BEq α] [LawfulBEq α] {entries : List (α × β)} {name : α}

theorem lookup_eq_none : entries.lookup name = none ↔ name ∉ entries.map Prod.fst := by
  rw [List.lookup_eq_none_iff, List.mem_map]
  constructor
  · rintro h ⟨entry, hentry, rfl⟩
    simpa using h entry hentry
  · intro h entry hentry
    rw [bne_iff_ne]
    rintro rfl
    exact h ⟨entry, hentry, rfl⟩

theorem lookup_filter (p : α → Bool) (name : α) (entries : List (α × β)) :
    (entries.filter fun entry => p entry.1).lookup name =
      if p name then entries.lookup name else none := by
  induction entries with
  | nil => simp
  | cons entry rest ih =>
    obtain ⟨name', v⟩ := entry
    rw [List.filter_cons, List.lookup_cons]
    cases hname : name == name' with
    | true =>
      obtain rfl := eq_of_beq hname
      cases hp : p name with
      | true => simp
      | false => simpa [hp] using ih
    | false =>
      cases p name' with
      | true => simpa [List.lookup_cons, hname] using ih
      | false => simpa using ih

theorem lookup_mapped {γ : Type} (g : α → β → γ) (name : α) (entries : List (α × β)) :
    (entries.map fun entry => (entry.1, g entry.1 entry.2)).lookup name =
      (entries.lookup name).map (g name) := by
  induction entries with
  | nil => rfl
  | cons entry rest ih =>
    obtain ⟨name', v⟩ := entry
    rw [List.map_cons, List.lookup_cons, List.lookup_cons, ih]
    cases hname : name == name' with
    | true =>
      obtain rfl := eq_of_beq hname
      rfl
    | false => rfl

end

/-! Entries of which those with one name are changed. -/

section

variable {α β : Type} [BEq α] [LawfulBEq α] [DecidableEq α] (changed : α) (f : β → β)

def changeEntry (entry : α × β) : α × β :=
  if entry.1 = changed then (entry.1, f entry.2) else (entry.1, entry.2)

omit [BEq α] [LawfulBEq α] in
theorem names_changed (entries : List (α × β)) :
    (entries.map (changeEntry changed f)).map Prod.fst = entries.map Prod.fst := by
  rw [List.map_map]
  refine List.map_congr_left fun entry _ => ?_
  rw [Function.comp_apply, changeEntry]
  split <;> rfl

theorem lookup_changed (name : α) (entries : List (α × β)) :
    (entries.map (changeEntry changed f)).lookup name =
      if name = changed then (entries.lookup name).map f else entries.lookup name := by
  have hentries : entries.map (changeEntry changed f) =
      entries.map fun entry => (entry.1, if entry.1 = changed then f entry.2 else entry.2) :=
    List.map_congr_left fun entry _ => by rw [changeEntry]; split <;> rfl
  rw [hentries, lookup_mapped fun n v => if n = changed then f v else v]
  split
  · rfl
  · exact Option.map_id'

end

end FileWatch
