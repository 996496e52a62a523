import FileWatch.Proofs.Json.Grammar
import Mathlib.Data.List.Induction
/-!
The members of an object and the entries that they leave. Of several members with one key the last
one counts, and no two entries have the same key.
-/

namespace FileWatch.Json

open FileWatch.Value (insertEntry lookup? sameKey)

inductive ObjectText : Text → List (Text × Value) → Prop where
  | empty {w} : Spaces w → ObjectText ('\x7b' :: (w ++ (['\x7d'] : Text))) []
  | full {w s ms} : Spaces w → Spells s (.members ms) → ObjectText ('\x7b' :: (w ++ s)) ms

theorem number_not_dict {s : Text} {es : List (Value × Value)} : ¬ Number s (.dict es) := by
  intro h
  cases h with
  | positive h => cases h
  | negative h => cases h

theorem word_not_dict {w : String} {es : List (Value × Value)} : (w, Value.dict es) ∉ words := by
  simp [words]

/-- The documents that denote dictionaries are the objects. -/
theorem document_dict {s : Text} {es : List (Value × Value)} :
    Document s (.dict es) ↔ ∃ ms, ObjectText s ms ∧ es = collect ms := by
  constructor
  · intro h
    cases h with
    | word hw => exact absurd hw word_not_dict
    | number hn => exact absurd hn number_not_dict
    | emptyDict hw => exact ⟨[], .empty hw, rfl⟩
    | dict hw hs => exact ⟨_, .full hw hs, rfl⟩
  · rintro ⟨ms, hobject, rfl⟩
    cases hobject with
    | empty hw => exact .emptyDict hw
    | full hw hs => exact .dict hw hs

theorem sameKey_text {k : Value} {t : Text} : sameKey k (.text t) = true ↔ k = .text t := by
  cases k <;> simp [sameKey, Value.integral?]

theorem lookup_insertEntry (key name : Text) (v : Value) (es : List (Value × Value)) :
    lookup? name (insertEntry (.text key) v es) =
      if name = key then some v else lookup? name es := by
  unfold lookup?
  induction es with
  | nil =>
    by_cases h : name = key
    · simp [insertEntry, h, sameKey]
    · simp [insertEntry, h, Ne.symm h, sameKey]
  | cons e es ih =>
    obtain ⟨k, u⟩ := e
    rw [insertEntry]
    by_cases hk : sameKey k (.text key) = true
    · rw [if_pos hk]
      obtain rfl := sameKey_text.mp hk
      by_cases h : name = key
      · simp [h, sameKey]
      · simp [h, Ne.symm h, sameKey]
    · rw [if_neg hk, List.find?_cons, List.find?_cons]
      by_cases hname : sameKey k (.text name) = true
      · have hne : name ≠ key := by
          rintro rfl
          exact hk hname
        simp [hname, hne]
      · simpa [hname] using ih

theorem collect_append (ms : List (Text × Value)) (key : Text) (v : Value) :
    collect (ms ++ [(key, v)]) = insertEntry (.text key) v (collect ms) := by
  simp [collect, List.foldl_append]

theorem lookup_collect (name : Text) (ms : List (Text × Value)) :
    lookup? name (collect ms) = ms.reverse.lookup name := by
  induction ms using List.reverseRecOn with
  | nil => rfl
  | append_singleton ms m ih =>
    obtain ⟨key, v⟩ := m
    rw [collect_append, lookup_insertEntry, List.reverse_append, List.reverse_singleton,
      List.singleton_append, List.lookup_cons, ih]
    by_cases h : name = key
    · simp [h]
    · rw [if_neg h, beq_eq_false_iff_ne.mpr h]

/-- What is found under a name is the value of the last member with that name. -/
theorem lookup_last {name : Text} {ms : List (Text × Value)} {v : Value} :
    lookup? name (collect ms) = some v ↔ ∃ before after,
      ms = before ++ (name, v) :: after ∧ ∀ m ∈ after, m.1 ≠ name := by
  rw [lookup_collect, List.lookup_eq_some_iff]
  constructor
  · rintro ⟨after, before, hms, hafter⟩
    refine ⟨before.reverse, after.reverse, ?_, fun m hm => ?_⟩
    · rw [← List.reverse_reverse ms, hms]
      simp
    · exact Ne.symm (bne_iff_ne.mp (hafter m (List.mem_reverse.mp hm)))
  · rintro ⟨before, after, rfl, hafter⟩
    refine ⟨after.reverse, before.reverse, by simp, fun m hm => ?_⟩
    exact bne_iff_ne.mpr (Ne.symm (hafter m (List.mem_reverse.mp hm)))

/-! The entries. -/

theorem mem_insertEntry {key : Text} {v : Value} {e : Value × Value} {es : List (Value × Value)}
    (h : e ∈ insertEntry (.text key) v es) : e = (.text key, v) ∨ e ∈ es := by
  induction es with
  | nil => exact .inl (List.mem_singleton.mp h)
  | cons e' es ih =>
    obtain ⟨k, u⟩ := e'
    rw [insertEntry] at h
    split at h
    · rename_i hk
      obtain rfl := sameKey_text.mp hk
      exact (List.mem_cons.mp h).imp_right (List.mem_cons_of_mem _)
    · rcases List.mem_cons.mp h with rfl | h
      · exact .inr List.mem_cons_self
      · exact (ih h).imp_right (List.mem_cons_of_mem _)

theorem insertEntry_nodup {key : Text} (v : Value) {es : List (Value × Value)}
    (h : (es.map Prod.fst).Nodup) : ((insertEntry (.text key) v es).map Prod.fst).Nodup := by
  induction es with
  | nil => simp [insertEntry]
  | cons e es ih =>
    obtain ⟨k, u⟩ := e
    rw [List.map_cons, List.nodup_cons] at h
    rw [insertEntry]
    split
    · rw [List.map_cons, List.nodup_cons]
      exact h
    · rename_i hk
      rw [List.map_cons, List.nodup_cons]
      refine ⟨fun hmem => ?_, ih h.2⟩
      obtain ⟨e, he, hsame⟩ := List.mem_map.mp hmem
      rcases mem_insertEntry he with rfl | he
      · exact hk (sameKey_text.mpr hsame.symm)
      · exact h.1 (List.mem_map.mpr ⟨e, he, hsame⟩)

/-- Every entry comes from a member. -/
theorem mem_collect {ms : List (Text × Value)} {e : Value × Value} (h : e ∈ collect ms) :
    ∃ m ∈ ms, e = (.text m.1, m.2) := by
  induction ms using List.reverseRecOn with
  | nil => cases h
  | append_singleton ms m ih =>
    rw [collect_append] at h
    rcases mem_insertEntry h with rfl | h
    · exact ⟨m, by simp, rfl⟩
    · obtain ⟨m', hm', he⟩ := ih h
      exact ⟨m', List.mem_append_left _ hm', he⟩

theorem collect_nodup (ms : List (Text × Value)) : ((collect ms).map Prod.fst).Nodup := by
  induction ms using List.reverseRecOn with
  | nil => exact List.nodup_nil
  | append_singleton ms m ih =>
    rw [collect_append]
    exact insertEntry_nodup m.2 ih

end FileWatch.Json
