import FileWatch.Proofs.Json.Documents
/-!
Beginnings of documents. A text that ends with a line feed either gives its final reading, whatever
comes behind it, or the reading was starved; and whatever starved the reader goes on to a document.
-/

namespace FileWatch.Json

variable {α β : Type}

/-! A reading that was not starved is final. -/

theorem extend_ok {c : Text} {a : α} {rest : Text} :
    extend c (.ok (a, rest) : Reading α) = .ok (a, rest ++ c) := rfl

theorem sound_ended {part : α → Part} {read : Text → Reading α} (h : Sound part read)
    {t rest : Text} {a : α} (ht : Ended t) (hread : read t = .ok (a, rest)) : Ended rest := by
  obtain ⟨s, rfl, hs⟩ := h t a rest hread
  exact ended_after_token (spells_ends hs) ht

theorem skipSpace_stable {c t : Text} {read : Text → Reading α} (hnil : Starved (read []))
    (h : ∀ s, Ended s → Stable c (read s) (read (s ++ c))) (ht : Ended t) :
    Stable c (read (skipSpace t)) (read (skipSpace (t ++ c))) := by
  cases hs : skipSpace t with
  | nil => exact Or.inl hnil
  | cons d more =>
    rw [skipSpace_append hs]
    exact h (d :: more) (ended_append [d] (skipSpace_ended ht hs))

theorem listed_stable {c : Text} {close : CodePoint} {element element' : Reading α}
    {others : Text → Reading (List α)} (he : Stable c element element')
    (hrest : ∀ a rest, element = .ok (a, rest) → Ended rest)
    (hnil : Starved (others [])) (ho : ∀ t, Ended t → Stable c (others t) (others (t ++ c))) :
    Stable c (listed close element others) (listed close element' others) := by
  apply andThen_stable he
  intro a rest hread
  apply token_stable (hrest a rest hread)
  intro d more _ hmore
  by_cases hclose : d = close
  · rw [if_pos hclose, if_pos hclose]
    exact stable_of_eq rfl
  · rw [if_neg hclose, if_neg hclose]
    by_cases hcomma : d = ','
    · rw [if_pos hcomma, if_pos hcomma]
      apply andThen_stable (skipSpace_stable hnil ho hmore)
      intro as rest _
      exact stable_of_eq rfl
    · rw [if_neg hcomma, if_neg hcomma]
      exact stable_of_eq rfl

theorem bracketed_stable {c t : Text} {fault : Fault} {close : CodePoint} {empty : Value}
    {build : α → Value} {contents : Text → Reading α} (ht : Ended t)
    (hc : ∀ s, Ended s → Stable c (contents s) (contents (s ++ c))) :
    Stable c (bracketed fault close empty build contents t)
      (bracketed fault close empty build contents (t ++ c)) := by
  apply token_stable ht
  intro d more _ hmore
  by_cases hclose : d = close
  · rw [if_pos hclose, if_pos hclose]
    exact stable_of_eq rfl
  · rw [if_neg hclose, if_neg hclose]
    apply andThen_stable (hc (d :: more) (ended_append [d] hmore))
    intro a rest _
    exact stable_of_eq rfl

theorem string_stable {t : Text} (c : Text) (ht : Ended t) (q : CodePoint) :
    Stable c (string (q :: t) 0 t) (string (q :: (t ++ c)) 0 (t ++ c)) := by
  apply stable_of_eq
  rw [← List.cons_append]
  apply string_append
  rwa [List.drop_zero]

theorem string_ended {opening t x rest : Text} (ht : Ended t)
    (h : string opening 0 t = .ok (x, rest)) : Ended rest := by
  obtain ⟨s, hs, -⟩ := string_sound h
  rw [List.drop_zero] at hs
  rw [hs] at ht
  exact ended_tail (ended_of_append ht (List.cons_ne_nil _ _)) (by decide)

theorem valueWithin_nil (n : Nat) : Starved (valueWithin n []) := by
  cases n <;> exact ⟨.value, rfl⟩

theorem itemsWithin_nil (n : Nat) : Starved (itemsWithin n []) := by
  cases n with
  | zero => exact ⟨.value, rfl⟩
  | succ n =>
    obtain ⟨fault, h⟩ := valueWithin_nil n
    exact ⟨fault, by rw [itemsWithin_succ, h]; rfl⟩

theorem membersWithin_nil (n : Nat) : Starved (membersWithin n []) := by
  cases n <;> exact ⟨.propertyName, rfl⟩

theorem memberWithin_stable {n : Nat} {c t : Text} (ht : Ended t)
    (hv : ∀ s, Ended s → Stable c (valueWithin n s) (valueWithin n (s ++ c))) :
    Stable c (memberWithin n t) (memberWithin n (t ++ c)) := by
  obtain ⟨q, body, rfl⟩ := List.exists_cons_of_ne_nil (ended_ne_nil ht)
  simp only [memberWithin, List.cons_append]
  by_cases hq : q = '"'
  · rw [if_pos hq, if_pos hq]
    have hbody : Ended body := ended_tail ht (by rw [hq]; decide)
    apply andThen_stable (string_stable c hbody q)
    intro key rest hstring
    apply token_stable (string_ended hbody hstring)
    intro d more _ hmore
    by_cases hcolon : d = ':'
    · rw [if_pos hcolon, if_pos hcolon]
      apply andThen_stable (skipSpace_stable (valueWithin_nil n) hv hmore)
      intro v rest _
      exact stable_of_eq rfl
    · rw [if_neg hcolon, if_neg hcolon]
      exact stable_of_eq rfl
  · rw [if_neg hq, if_neg hq]
    exact stable_of_eq rfl

theorem within_stable (c : Text) (n : Nat) :
    (∀ t, Ended t → Stable c (valueWithin n t) (valueWithin n (t ++ c))) ∧
    (∀ t, Ended t → Stable c (itemsWithin n t) (itemsWithin n (t ++ c))) ∧
    (∀ t, Ended t → Stable c (membersWithin n t) (membersWithin n (t ++ c))) := by
  induction n with
  | zero => exact ⟨fun _ _ => Or.inr rfl, fun _ _ => Or.inr rfl, fun _ _ => Or.inr rfl⟩
  | succ n ih =>
    obtain ⟨hv, hi, hm⟩ := ih
    refine ⟨?_, ?_, ?_⟩
    · intro t ht
      obtain ⟨d, t, rfl⟩ := List.exists_cons_of_ne_nil (ended_ne_nil ht)
      rw [List.cons_append]
      rcases value_kinds d with rfl | rfl | rfl | hd
      · rw [valueWithin_string, valueWithin_string]
        apply andThen_stable (string_stable c (ended_tail ht (by decide)) _)
        intro x rest _
        exact stable_of_eq rfl
      · rw [valueWithin_list, valueWithin_list]
        exact bracketed_stable (ended_tail ht (by decide)) hi
      · rw [valueWithin_dict, valueWithin_dict]
        exact bracketed_stable (ended_tail ht (by decide)) hm
      · rw [valueWithin_scalar hd, valueWithin_scalar hd]
        exact stable_of_eq (scalar_append ht c)
    · intro t ht
      rw [itemsWithin_succ, itemsWithin_succ]
      exact listed_stable (hv t ht) (fun v rest => sound_ended (within_sound n).1 ht)
        (itemsWithin_nil n) hi
    · intro t ht
      rw [membersWithin_succ, membersWithin_succ]
      exact listed_stable (memberWithin_stable ht hv)
        (fun m rest => sound_ended (memberWithin_sound (within_sound n).1) ht)
        (membersWithin_nil n) hm

/-- More text changes nothing behind a line feed, unless the reading wanted more. -/
theorem document_stable {t : Text} (ht : Ended t) (c : Text) :
    Stable c (document t) (document (t ++ c)) := by
  have h := (within_stable c (2 * (t ++ c).length + 1)).1 t ht
  rw [valueWithin_document (by simp only [List.length_append]; omega)] at h
  exact h

/-! A reading that was starved can go on to a document. -/

def Encodable (t : Text) : Prop := ∀ c ∈ t, c.isSurrogate = false

/-- Whatever starves `read` can be completed to a part. -/
def Completes (part : α → Part) (read : Text → Reading α) : Prop :=
  ∀ t, Starved (read t) → ∃ c a, Encodable c ∧ Spells (t ++ c) (part a)

theorem encodable_closing {c : Text} {close : CodePoint} (hc : Encodable c)
    (hclose : close = ']' ∨ close = '\x7d') : Encodable (c ++ [close]) := by
  intro d hd
  rcases List.mem_append.mp hd with hd | hd
  · exact hc d hd
  · obtain rfl := List.mem_singleton.mp hd
    rcases hclose with rfl | rfl <;> decide

theorem encodable_of_all {t : Text} (h : (t.all fun c => !c.isSurrogate) = true) : Encodable t := by
  intro c hc
  simpa using List.all_eq_true.mp h c hc

theorem encodable_nil : Encodable [] := by
  intro c hc
  cases hc

theorem andThen_starved {r : Reading α} {k : α → Text → Reading β} (h : Starved (andThen r k)) :
    Starved r ∨ ∃ a rest, r = .ok (a, rest) ∧ Starved (k a rest) := by
  rcases r with e | ⟨a, rest⟩
  · obtain ⟨fault, he⟩ := h
    cases he
    exact Or.inl ⟨fault, rfl⟩
  · exact Or.inr ⟨a, rest, rfl, h⟩

theorem token_starved {fault : Fault} {t : Text} {k : CodePoint → Text → Reading β}
    (h : Starved (token fault t k)) :
    Spaces t ∨ ∃ w d more, Spaces w ∧ t = w ++ d :: more ∧ Starved (k d more) := by
  obtain ⟨w, hw, hsplit⟩ := skipSpace_split t
  unfold token at h
  cases hs : skipSpace t with
  | nil =>
    rw [hs, List.append_nil] at hsplit
    exact Or.inl (hsplit ▸ hw)
  | cons d more =>
    simp only [hs] at h
    rw [hs] at hsplit
    exact Or.inr ⟨w, d, more, hw, hsplit, h⟩

theorem not_starved_ok {p : α × Text} : ¬ Starved (.ok p : Reading α) := by
  rintro ⟨fault, h⟩
  cases h

theorem starved_malformed {fault : Fault} {t : Text}
    (h : Starved (.error (.malformed fault t) : Reading α)) : t = [] := by
  obtain ⟨fault', h⟩ := h
  cases h
  rfl

theorem not_starved_malformed {fault : Fault} {d : CodePoint} {t : Text} :
    ¬ Starved (.error (.malformed fault (d :: t)) : Reading α) := by
  intro h
  cases starved_malformed h

theorem not_starved_string {d : CodePoint} (hd : isSpace d = false) (t : Text) :
    ¬ Starved (string (d :: t) 0 t) := by
  rintro ⟨fault, h⟩
  obtain ⟨c, more, hnil, -⟩ := string_misread (fun f => misread_cons hd f t) h
  cases hnil

theorem spells_zero : Spells ['0'] (.value (.int 0)) :=
  .number (.positive (.integer (.inl rfl) (by decide)))

theorem listed_completes {part : α → Part} {parts : List α → Part} {close : CodePoint}
    {element : Text → Reading α} {others : Text → Reading (List α)}
    (rules : ElementRules part parts close) (hsound : Sound part element)
    (he : Completes part element) (ho : Completes parts others) :
    Completes parts fun t => listed close (element t) others := by
  intro t h
  rcases andThen_starved h with hstarved | ⟨a, rest, hread, hrest⟩
  · obtain ⟨c, a, hc, hs⟩ := he t hstarved
    refine ⟨c ++ [close], [a], encodable_closing hc rules.closing, ?_⟩
    rw [← List.append_assoc]
    exact rules.last hs spaces_nil
  · obtain ⟨s, rfl, hs⟩ := hsound t a rest hread
    rcases token_starved hrest with hw | ⟨w, d, tail, hw, rfl, htail⟩
    · refine ⟨[close], [a], encodable_closing encodable_nil rules.closing, ?_⟩
      rw [List.append_assoc]
      exact rules.last hs hw
    · by_cases hd : d = close
      · rw [if_pos hd] at htail
        exact absurd htail not_starved_ok
      · rw [if_neg hd] at htail
        by_cases hcomma : d = ','
        · rw [if_pos hcomma] at htail
          rcases andThen_starved htail with hothers | ⟨as, rest, -, hlist⟩
          · obtain ⟨w', hw', hsplit⟩ := skipSpace_split tail
            obtain ⟨c, as, hc, hs'⟩ := ho _ hothers
            refine ⟨c, a :: as, hc, ?_⟩
            have whole := rules.more hs hw hw' hs'
            rw [hsplit, hcomma]
            simpa using whole
          · exact absurd hlist not_starved_ok
        · rw [if_neg hcomma] at htail
          exact absurd htail not_starved_malformed

theorem bracketed_completes {parts : α → Part} {fault : Fault} {opening close : CodePoint}
    {empty : Value} {build : α → Value} {contents : Text → Reading α}
    (rules : ContainerRules parts opening close empty build)
    (hcontents : Completes parts contents) {t : Text}
    (h : Starved (bracketed fault close empty build contents t)) :
    ∃ c v, Encodable c ∧ Spells (opening :: t ++ c) (.value v) := by
  rcases token_starved h with hw | ⟨w, d, more, hw, rfl, hmore⟩
  · exact ⟨[close], empty, encodable_closing encodable_nil rules.closing, rules.none hw⟩
  · by_cases hd : d = close
    · rw [if_pos hd] at hmore
      exact absurd hmore not_starved_ok
    · rw [if_neg hd] at hmore
      rcases andThen_starved hmore with hstarved | ⟨a, rest, -, hbuild⟩
      · obtain ⟨c, a, hc, hs⟩ := hcontents _ hstarved
        refine ⟨c, build a, hc, ?_⟩
        have whole := rules.some hw hs
        simpa using whole
      · exact absurd hbuild not_starved_ok

theorem memberWithin_completes {n : Nat} (hv : Completes .value (valueWithin n)) :
    Completes (fun m => .member m.1 m.2) (memberWithin n) := by
  intro t h
  unfold memberWithin at h
  cases t with
  | nil =>
    refine ⟨['"', '"', ':', '0'], ([], .int 0), encodable_of_all rfl, ?_⟩
    exact Spells.member .nil spaces_nil spaces_nil spells_zero
  | cons q body =>
    by_cases hq : q = '"'
    · simp only [if_pos hq] at h
      rcases andThen_starved h with hstring | ⟨key, rest, hread, hrest⟩
      · exact absurd hstring (not_starved_string (by rw [hq]; decide) body)
      · obtain ⟨k, hk, hchars⟩ := string_sound hread
        rw [List.drop_zero] at hk
        rw [hk, hq]
        rcases token_starved hrest with hw | ⟨w, d, more, hw, rfl, hmore⟩
        · refine ⟨[':', '0'], (key, .int 0), encodable_of_all rfl, ?_⟩
          have whole := Spells.member hchars hw spaces_nil spells_zero
          simpa using whole
        · by_cases hcolon : d = ':'
          · rw [if_pos hcolon] at hmore
            rcases andThen_starved hmore with hvalue | ⟨v, rest, -, hmember⟩
            · obtain ⟨w', hw', hsplit⟩ := skipSpace_split more
              obtain ⟨c, v, hc, hs⟩ := hv _ hvalue
              refine ⟨c, (key, v), hc, ?_⟩
              have whole := Spells.member hchars hw hw' hs
              rw [hsplit, hcolon]
              simpa using whole
            · exact absurd hmember not_starved_ok
          · rw [if_neg hcolon] at hmore
            exact absurd hmore not_starved_malformed
    · simp only [if_neg hq] at h
      exact absurd h not_starved_malformed

/-- Each part can be written from its start. -/
theorem spells_some :
    (∃ c v, Encodable c ∧ Spells c (.value v)) ∧ (∃ c vs, Encodable c ∧ Spells c (.items vs)) ∧
      ∃ c ms, Encodable c ∧ Spells c (.members ms) := by
  refine ⟨⟨['0'], .int 0, encodable_of_all rfl, spells_zero⟩, ?_, ?_⟩
  · exact ⟨['0', ']'], [.int 0], encodable_of_all rfl, .lastItem spells_zero spaces_nil⟩
  · exact ⟨['"', '"', ':', '0', '\x7d'], [([], .int 0)], encodable_of_all rfl,
      .lastMember (.member .nil spaces_nil spaces_nil spells_zero) spaces_nil⟩

theorem within_completes (n : Nat) :
    Completes .value (valueWithin n) ∧ Completes .items (itemsWithin n) ∧
      Completes .members (membersWithin n) := by
  obtain ⟨value, items, members⟩ := spells_some
  induction n with
  | zero =>
    refine ⟨?_, ?_, ?_⟩
    · intro t h
      obtain rfl := starved_malformed h
      exact value
    · intro t h
      obtain rfl := starved_malformed h
      exact items
    · intro t h
      obtain rfl := starved_malformed h
      exact members
  | succ n ih =>
    obtain ⟨hv, hi, hm⟩ := ih
    refine ⟨?_, ?_, ?_⟩
    · intro t h
      cases t with
      | nil => exact value
      | cons d t =>
        rcases value_kinds d with rfl | rfl | rfl | hd
        · rw [valueWithin_string] at h
          rcases andThen_starved h with hstring | ⟨x, rest, -, htext⟩
          · exact absurd hstring (not_starved_string (by decide) t)
          · exact absurd htext not_starved_ok
        · rw [valueWithin_list] at h
          exact bracketed_completes list_rules hi h
        · rw [valueWithin_dict] at h
          exact bracketed_completes dict_rules hm h
        · rw [valueWithin_scalar hd] at h
          obtain ⟨fault, hfault⟩ := h
          cases scalar_fault hfault
    · intro t h
      rw [itemsWithin_succ] at h
      exact listed_completes item_rules (within_sound n).1 hv hi t h
    · intro t h
      rw [membersWithin_succ] at h
      exact listed_completes member_rules (memberWithin_sound (within_sound n).1)
        (memberWithin_completes hv) hm t h

/-- What starves the reader is the beginning of a document. -/
theorem document_completes {t : Text} (h : Starved (document t)) :
    ∃ c v, Encodable c ∧ Document (t ++ c) v :=
  (within_completes _).1 t h

end FileWatch.Json
