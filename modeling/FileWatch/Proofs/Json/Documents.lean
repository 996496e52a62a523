import FileWatch.Proofs.Json.Scalars
import FileWatch.Proofs.Json.Strings
/-!
Documents. The reader's three functions are put together from two shapes, a container between its
brackets and a list of elements with commas, and each shape has its own lemmas. Main results: what
is read is spelled by the grammar, what the grammar spells is read, and the bound on the reader's
steps is never reached.
-/

namespace FileWatch.Json

variable {α : Type}

def bracketed (fault : Fault) (close : CodePoint) (empty : Value) (build : α → Value)
    (contents : Text → Reading α) (t : Text) : Reading Value :=
  token fault t fun c more =>
    if c = close then .ok (empty, more)
    else andThen (contents (c :: more)) fun a rest => .ok (build a, rest)

def listed (close : CodePoint) (element : Reading α) (others : Text → Reading (List α)) :
    Reading (List α) :=
  andThen element fun a rest => token .comma rest fun c more =>
    if c = close then .ok ([a], more)
    else if c = ',' then andThen (others (skipSpace more)) fun as rest => .ok (a :: as, rest)
    else .error (.malformed .comma (c :: more))

def memberWithin (n : Nat) (t : Text) : Reading (Text × Value) :=
  match t with
  | [] => .error (.malformed .propertyName [])
  | q :: body =>
    if q = '"' then
      andThen (string (q :: body) 0 body) fun key rest => token .colon rest fun c more =>
        if c = ':' then andThen (valueWithin n (skipSpace more)) fun v rest => .ok ((key, v), rest)
        else .error (.malformed .colon (c :: more))
    else .error (.malformed .propertyName (q :: body))

theorem valueWithin_cons (n : Nat) (c : CodePoint) (rest : Text) :
    valueWithin (n + 1) (c :: rest) =
      if c = '"' then andThen (string (c :: rest) 0 rest) fun t rest => .ok (.text t, rest)
      else if c = '[' then bracketed .value ']' (.list []) .list (itemsWithin n) rest
      else if c = '\x7b' then
        bracketed .propertyName '\x7d' (.dict []) (fun ms => .dict (collect ms))
          (membersWithin n) rest
      else scalar (c :: rest) := by
  rw [valueWithin]
  split
  · cases string (c :: rest) 0 rest <;> rfl
  · split
    · unfold bracketed token
      cases skipSpace rest with
      | nil => rfl
      | cons d more =>
        dsimp only
        split
        · rfl
        · cases itemsWithin n (d :: more) <;> rfl
    · split
      · unfold bracketed token
        cases skipSpace rest with
        | nil => rfl
        | cons d more =>
          dsimp only
          split
          · rfl
          · cases membersWithin n (d :: more) <;> rfl
      · rfl

theorem valueWithin_string (n : Nat) (rest : Text) :
    valueWithin (n + 1) ('"' :: rest) =
      andThen (string ('"' :: rest) 0 rest) fun t rest => .ok (.text t, rest) := by
  rw [valueWithin_cons, if_pos rfl]

theorem valueWithin_list (n : Nat) (rest : Text) :
    valueWithin (n + 1) ('[' :: rest) =
      bracketed .value ']' (.list []) .list (itemsWithin n) rest := by
  rw [valueWithin_cons, if_neg (by decide), if_pos rfl]

theorem valueWithin_dict (n : Nat) (rest : Text) :
    valueWithin (n + 1) ('\x7b' :: rest) =
      bracketed .propertyName '\x7d' (.dict []) (fun ms => .dict (collect ms))
        (membersWithin n) rest := by
  rw [valueWithin_cons, if_neg (by decide), if_neg (by decide), if_pos rfl]

def BeginsScalar (c : CodePoint) : Prop := c ≠ '"' ∧ c ≠ '[' ∧ c ≠ '\x7b'

theorem valueWithin_scalar {n : Nat} {c : CodePoint} {t : Text} (h : BeginsScalar c) :
    valueWithin (n + 1) (c :: t) = scalar (c :: t) := by
  rw [valueWithin_cons, if_neg h.1, if_neg h.2.1, if_neg h.2.2]

/-- Its first code point tells how a value is read. -/
theorem value_kinds (c : CodePoint) : c = '"' ∨ c = '[' ∨ c = '\x7b' ∨ BeginsScalar c := by
  by_cases hq : c = '"'
  · exact Or.inl hq
  · by_cases hl : c = '['
    · exact Or.inr (Or.inl hl)
    · by_cases hd : c = '\x7b'
      · exact Or.inr (Or.inr (Or.inl hd))
      · exact Or.inr (Or.inr (Or.inr ⟨hq, hl, hd⟩))

theorem itemsWithin_succ (n : Nat) (t : Text) :
    itemsWithin (n + 1) t = listed ']' (valueWithin n t) (itemsWithin n) := by
  rw [itemsWithin]
  unfold listed andThen token
  rcases valueWithin n t with e | ⟨v, rest⟩
  · rfl
  · dsimp only
    cases skipSpace rest with
    | nil => rfl
    | cons c more =>
      dsimp only
      split
      · rfl
      · split
        · cases itemsWithin n (skipSpace more) <;> rfl
        · rfl

theorem membersWithin_succ (n : Nat) (t : Text) :
    membersWithin (n + 1) t = listed '\x7d' (memberWithin n t) (membersWithin n) := by
  cases t with
  | nil => rfl
  | cons q body =>
    rw [membersWithin]
    unfold listed memberWithin andThen token
    dsimp only
    split
    · rcases string (q :: body) 0 body with e | ⟨key, rest⟩
      · rfl
      · dsimp only
        cases skipSpace rest with
        | nil => rfl
        | cons c more =>
          dsimp only
          split
          · rcases valueWithin n (skipSpace more) with e | ⟨v, rest⟩
            · rfl
            · dsimp only
              cases skipSpace rest with
              | nil => rfl
              | cons c more =>
                dsimp only
                split
                · rfl
                · split
                  · cases membersWithin n (skipSpace more) <;> rfl
                  · rfl
          · rfl
    · rfl

/-! What is read is spelled. -/

/-- Whatever `read` takes off the front of a text is spelled as the part it gives. -/
def Sound (part : α → Part) (read : Text → Reading α) : Prop :=
  ∀ t a rest, read t = .ok (a, rest) → ∃ s, t = s ++ rest ∧ Spells s (part a)

theorem listed_sound {part : α → Part} {parts : List α → Part} {close : CodePoint}
    {element : Text → Reading α} {others : Text → Reading (List α)}
    (rules : ElementRules part parts close) (he : Sound part element) (ho : Sound parts others) :
    Sound parts fun t => listed close (element t) others := by
  intro t as rest h
  obtain ⟨a, behind, hread, hbehind⟩ := andThen_ok h
  obtain ⟨s, rfl, hs⟩ := he t a behind hread
  obtain ⟨w, c, tail, hw, rfl, -, htoken⟩ := token_ok hbehind
  by_cases hc : c = close
  · rw [if_pos hc] at htoken
    cases htoken
    exact ⟨_, by simp [hc], rules.last hs hw⟩
  · rw [if_neg hc] at htoken
    by_cases hcomma : c = ','
    · rw [if_pos hcomma] at htoken
      obtain ⟨as', rest', hothers, hlist⟩ := andThen_ok htoken
      cases hlist
      obtain ⟨w', hw', htail⟩ := skipSpace_split tail
      obtain ⟨s', hs', hspells⟩ := ho _ _ _ hothers
      refine ⟨_, ?_, rules.more hs hw hw' hspells⟩
      rw [htail, hs', hcomma]
      simp
    · rw [if_neg hcomma] at htoken
      cases htoken

theorem bracketed_sound {parts : α → Part} {fault : Fault} {opening close : CodePoint}
    {empty : Value} {build : α → Value} {contents : Text → Reading α}
    (rules : ContainerRules parts opening close empty build)
    (hc : Sound parts contents) {t rest : Text} {v : Value}
    (h : bracketed fault close empty build contents t = .ok (v, rest)) :
    ∃ s, opening :: t = s ++ rest ∧ Document s v := by
  obtain ⟨w, c, tail, hw, rfl, -, htoken⟩ := token_ok h
  by_cases hclose : c = close
  · rw [if_pos hclose] at htoken
    cases htoken
    exact ⟨_, by simp [hclose], rules.none hw⟩
  · rw [if_neg hclose] at htoken
    obtain ⟨a, rest', hread, hbuild⟩ := andThen_ok htoken
    cases hbuild
    obtain ⟨s, hs, hspells⟩ := hc _ _ _ hread
    refine ⟨_, ?_, rules.some hw hspells⟩
    rw [hs]
    simp

theorem memberWithin_sound {n : Nat} (hv : Sound .value (valueWithin n)) :
    Sound (fun m => .member m.1 m.2) (memberWithin n) := by
  intro t m rest h
  unfold memberWithin at h
  cases t with
  | nil => cases h
  | cons q body =>
    by_cases hq : q = '"'
    · simp only [if_pos hq] at h
      obtain ⟨key, behind, hstring, hbehind⟩ := andThen_ok h
      obtain ⟨k, hk, hchars⟩ := string_sound hstring
      obtain ⟨w, c, tail, hw, rfl, -, htoken⟩ := token_ok hbehind
      by_cases hcolon : c = ':'
      · rw [if_pos hcolon] at htoken
        obtain ⟨v, rest', hread, hmember⟩ := andThen_ok htoken
        cases hmember
        obtain ⟨w', hw', htail⟩ := skipSpace_split tail
        obtain ⟨s, hs, hspells⟩ := hv _ _ _ hread
        refine ⟨_, ?_, .member hchars hw hw' hspells⟩
        rw [List.drop_zero] at hk
        rw [hk, htail, hs, hq, hcolon]
        simp
      · rw [if_neg hcolon] at htoken
        cases htoken
    · simp only [if_neg hq] at h
      cases h

theorem within_sound (n : Nat) :
    Sound .value (valueWithin n) ∧ Sound .items (itemsWithin n) ∧
      Sound .members (membersWithin n) := by
  induction n with
  | zero =>
    refine ⟨?_, ?_, ?_⟩ <;> intro t a rest h <;> cases h
  | succ n ih =>
    obtain ⟨hv, hi, hm⟩ := ih
    refine ⟨?_, ?_, ?_⟩
    · intro t v rest h
      cases t with
      | nil => cases h
      | cons c t =>
        rcases value_kinds c with rfl | rfl | rfl | hc
        · rw [valueWithin_string] at h
          obtain ⟨x, behind, hstring, htext⟩ := andThen_ok h
          cases htext
          obtain ⟨s, hs, hchars⟩ := string_sound hstring
          refine ⟨_, ?_, .string hchars⟩
          rw [List.drop_zero] at hs
          rw [hs]
          simp
        · rw [valueWithin_list] at h
          exact bracketed_sound list_rules hi h
        · rw [valueWithin_dict] at h
          exact bracketed_sound dict_rules hm h
        · rw [valueWithin_scalar hc] at h
          exact scalar_sound h
    · intro t vs rest h
      rw [itemsWithin_succ] at h
      exact listed_sound item_rules hv hi t vs rest h
    · intro t ms rest h
      rw [membersWithin_succ] at h
      exact listed_sound member_rules (memberWithin_sound hv) hm t ms rest h

/-- What is read off the front of a text is a document. -/
theorem document_sound {t rest : Text} {v : Value} (h : document t = .ok (v, rest)) :
    ∃ s, t = s ++ rest ∧ Document s v :=
  (within_sound _).1 t v rest h

/-! What is spelled is read. -/

theorem listed_last {close : CodePoint} {element : Reading α} {others : Text → Reading (List α)}
    {a : α} {w rest : Text} (hw : Spaces w) (hclose : isSpace close = false)
    (he : element = .ok (a, w ++ close :: rest)) :
    listed close element others = .ok ([a], rest) := by
  rw [he]
  simp only [listed, andThen, token_spaces _ hw hclose, if_true]

theorem listed_more {close : CodePoint} {element : Reading α} {others : Text → Reading (List α)}
    {a : α} {as : List α} {w w' t rest : Text} (hw : Spaces w) (hw' : Spaces w') (ht : Begins t)
    (hclose : close ≠ ',') (he : element = .ok (a, w ++ (',' :: (w' ++ t) : Text)))
    (ho : others t = .ok (as, rest)) : listed close element others = .ok (a :: as, rest) := by
  have hcomma : isSpace ',' = false := by decide
  rw [he]
  simp only [listed, andThen, token_spaces _ hw hcomma, if_neg hclose.symm, if_true,
    skipSpace_spaces hw', skipSpace_begins ht, ho]

theorem bracketed_empty {fault : Fault} {close : CodePoint} {empty : Value} {build : α → Value}
    {contents : Text → Reading α} {w : Text} (hw : Spaces w) (hclose : isSpace close = false)
    (rest : Text) :
    bracketed fault close empty build contents (w ++ close :: rest) = .ok (empty, rest) := by
  simp only [bracketed, token_spaces _ hw hclose, if_true]

theorem bracketed_full {fault : Fault} {close : CodePoint} {empty : Value} {build : α → Value}
    {contents : Text → Reading α} {a : α} {w t rest : Text} (hw : Spaces w) (ht : Begins t)
    (hclose : close = ']' ∨ close = '\x7d') (hc : contents t = .ok (a, rest)) :
    bracketed fault close empty build contents (w ++ t) = .ok (build a, rest) := by
  obtain ⟨c, t, rfl, hopen⟩ := ht
  have hne : c ≠ close := by
    rcases hclose with rfl | rfl
    · exact (opens_not_closing hopen).1
    · exact (opens_not_closing hopen).2
  simp only [bracketed, token_spaces _ hw (opens_not_space hopen), if_neg hne, hc, andThen]

theorem memberWithin_complete {n : Nat} {k key w w' s rest : Text} {v : Value}
    (hk : Characters k key) (hw : Spaces w) (hw' : Spaces w') (hs : Begins s)
    (hv : valueWithin n (s ++ rest) = .ok (v, rest)) :
    memberWithin n ('"' :: (k ++ ('"' :: (w ++ (':' :: (w' ++ (s ++ rest)) : Text)) : Text))) =
      .ok ((key, v), rest) := by
  have hcolon : isSpace ':' = false := by decide
  simp only [memberWithin, if_true, string_complete hk, andThen, token_spaces _ hw hcolon,
    skipSpace_spaces hw', skipSpace_begins (begins_append hs rest), hv]

/-- How a part is read from a text that it begins, with how many steps. A number has to end where
the part ends. -/
def IsRead (s : Text) : Part → Prop
  | .value v => ∀ n rest, 2 * s.length + 1 ≤ n → (Number s v → NumberStops rest) →
      valueWithin n (s ++ rest) = .ok (v, rest)
  | .items vs => ∀ n rest, 2 * s.length + 2 ≤ n → itemsWithin n (s ++ rest) = .ok (vs, rest)
  | .member key v => ∀ n rest, 2 * s.length + 1 ≤ n → NumberStops rest →
      memberWithin n (s ++ rest) = .ok ((key, v), rest)
  | .members ms => ∀ n rest, 2 * s.length + 2 ≤ n → membersWithin n (s ++ rest) = .ok (ms, rest)

theorem numberStops_spaces {w rest : Text} (hw : Spaces w) (h : NumberStops rest) :
    NumberStops (w ++ rest) := by
  cases w with
  | nil => exact h
  | cons c w =>
    have hc := hw c (by simp)
    simp only [isSpace, Bool.or_eq_true, decide_eq_true_eq] at hc
    apply numberStops_cons
    rcases hc with ((rfl | rfl) | rfl) | rfl <;> decide

theorem closing_stops {c : CodePoint} (hc : c = ']' ∨ c = '\x7d' ∨ c = ',') (rest : Text) :
    NumberStops (c :: rest) := by
  apply numberStops_cons
  rcases hc with rfl | rfl | rfl <;> decide

theorem unsigned_begins_scalar {negative : Bool} {s : Text} {v : Value}
    (h : Unsigned negative s v) : ∃ c t, s = c :: t ∧ BeginsScalar c := by
  obtain ⟨c, t, rfl, hc⟩ := unsigned_head h
  refine ⟨c, t, rfl, ?_, ?_, ?_⟩
  · rintro rfl
    exact absurd hc (by decide)
  · rintro rfl
    exact absurd hc (by decide)
  · rintro rfl
    exact absurd hc (by decide)

theorem number_begins_scalar {s : Text} {v : Value} (h : Number s v) :
    ∃ c t, s = c :: t ∧ BeginsScalar c := by
  cases h with
  | positive h => exact unsigned_begins_scalar h
  | negative h => exact ⟨_, _, rfl, by decide, by decide, by decide⟩

theorem word_begins_scalar {w : String} {v : Value} (h : (w, v) ∈ words) :
    ∃ c t, Text.ofString w = c :: t ∧ BeginsScalar c := by
  simp only [words, List.mem_cons, Prod.mk.injEq, List.not_mem_nil, or_false] at h
  rcases h with ⟨rfl, -⟩ | ⟨rfl, -⟩ | ⟨rfl, -⟩ | ⟨rfl, -⟩ | ⟨rfl, -⟩ | ⟨rfl, -⟩ <;>
    exact ⟨_, _, rfl, by decide, by decide, by decide⟩

theorem valueWithin_of_scalar {n : Nat} {s rest : Text} {v : Value}
    (hs : ∃ c t, s = c :: t ∧ BeginsScalar c) (h : scalar (s ++ rest) = .ok (v, rest)) :
    valueWithin (n + 1) (s ++ rest) = .ok (v, rest) := by
  obtain ⟨c, t, rfl, hc⟩ := hs
  rw [List.cons_append] at h ⊢
  rw [valueWithin_scalar hc, h]

theorem isRead_value {s : Text} {v : Value} (h : ∀ n rest, 2 * s.length ≤ n →
    (Number s v → NumberStops rest) → valueWithin (n + 1) (s ++ rest) = .ok (v, rest)) :
    IsRead s (.value v) := by
  intro n rest hn hstop
  obtain ⟨n, rfl⟩ := Nat.exists_eq_succ_of_ne_zero (by omega : n ≠ 0)
  exact h n rest (by omega) hstop

theorem isRead_items {s : Text} {vs : List Value} (h : ∀ n rest, 2 * s.length + 1 ≤ n →
    itemsWithin (n + 1) (s ++ rest) = .ok (vs, rest)) : IsRead s (.items vs) := by
  intro n rest hn
  obtain ⟨n, rfl⟩ := Nat.exists_eq_succ_of_ne_zero (by omega : n ≠ 0)
  exact h n rest (by omega)

theorem isRead_members {s : Text} {ms : List (Text × Value)} (h : ∀ n rest, 2 * s.length + 1 ≤ n →
    membersWithin (n + 1) (s ++ rest) = .ok (ms, rest)) : IsRead s (.members ms) := by
  intro n rest hn
  obtain ⟨n, rfl⟩ := Nat.exists_eq_succ_of_ne_zero (by omega : n ≠ 0)
  exact h n rest (by omega)

theorem spells_read {s : Text} {p : Part} (h : Spells s p) : IsRead s p := by
  induction h with
  | word hw =>
    apply isRead_value
    intro n rest _ _
    exact valueWithin_of_scalar (word_begins_scalar hw) (scalar_word hw rest)
  | number hnum =>
    apply isRead_value
    intro n rest _ hstop
    exact valueWithin_of_scalar (number_begins_scalar hnum) (scalar_number hnum (hstop hnum))
  | string hchars =>
    apply isRead_value
    intro n rest _ _
    simp only [List.cons_append, List.append_assoc, List.nil_append]
    rw [valueWithin_string, string_complete hchars]
    rfl
  | emptyList hw =>
    apply isRead_value
    intro n rest _ _
    simp only [List.cons_append, List.append_assoc, List.nil_append]
    rw [valueWithin_list, bracketed_empty hw (by decide)]
  | list hw hs ih =>
    apply isRead_value
    intro n rest hn _
    simp only [List.length_cons, List.length_append] at hn
    rw [List.cons_append, List.append_assoc, valueWithin_list]
    exact bracketed_full hw (begins_append (spells_begins hs) rest) (.inl rfl)
      (ih n rest (by omega))
  | emptyDict hw =>
    apply isRead_value
    intro n rest _ _
    simp only [List.cons_append, List.append_assoc, List.nil_append]
    rw [valueWithin_dict, bracketed_empty hw (by decide)]
  | dict hw hs ih =>
    apply isRead_value
    intro n rest hn _
    simp only [List.length_cons, List.length_append] at hn
    rw [List.cons_append, List.append_assoc, valueWithin_dict]
    exact bracketed_full hw (begins_append (spells_begins hs) rest) (.inr rfl)
      (ih n rest (by omega))
  | lastItem hs hw ih =>
    apply isRead_items
    intro n rest hn
    simp only [List.length_append, List.append_assoc, List.cons_append, List.nil_append] at hn ⊢
    rw [itemsWithin_succ]
    have hstop := numberStops_spaces hw (closing_stops (.inl rfl) rest)
    exact listed_last hw (by decide) (ih n _ (by omega) fun _ => hstop)
  | @item s v w w' s' vs hs hw hw' hs' ih ih' =>
    apply isRead_items
    intro n rest hn
    simp only [List.length_cons, List.length_append, List.append_assoc, List.cons_append] at hn ⊢
    rw [itemsWithin_succ]
    have hstop := numberStops_spaces hw (closing_stops (.inr (.inr rfl)) (w' ++ (s' ++ rest)))
    exact listed_more hw hw' (begins_append (spells_begins hs') rest) (by decide)
      (ih n _ (by omega) fun _ => hstop) (ih' n rest (by omega))
  | member hk hw hw' hs ih =>
    intro n rest hn hstop
    simp only [List.length_cons, List.length_append, List.append_assoc, List.cons_append] at hn ⊢
    exact memberWithin_complete hk hw hw' (spells_begins hs) (ih n rest (by omega) fun _ => hstop)
  | lastMember hs hw ih =>
    apply isRead_members
    intro n rest hn
    simp only [List.length_append, List.append_assoc, List.cons_append, List.nil_append] at hn ⊢
    rw [membersWithin_succ]
    have hstop := numberStops_spaces hw (closing_stops (.inr (.inl rfl)) rest)
    exact listed_last hw (by decide) (ih n _ (by omega) hstop)
  | @moreMembers s key v w w' s' ms hs hw hw' hs' ih ih' =>
    apply isRead_members
    intro n rest hn
    simp only [List.length_cons, List.length_append, List.append_assoc, List.cons_append] at hn ⊢
    rw [membersWithin_succ]
    have hstop := numberStops_spaces hw (closing_stops (.inr (.inr rfl)) (w' ++ (s' ++ rest)))
    exact listed_more hw hw' (begins_append (spells_begins hs') rest) (by decide)
      (ih n _ (by omega) hstop) (ih' n rest (by omega))

/-- A document is read off the front of a text, unless it is a number that goes on. -/
theorem document_complete {s rest : Text} {v : Value} (h : Document s v)
    (hstop : Number s v → NumberStops rest) : document (s ++ rest) = .ok (v, rest) :=
  spells_read h _ rest (by simp only [List.length_append]; omega) hstop

/-! More steps than the bound change nothing. -/

theorem listed_congr {close : CodePoint} {element : Reading α}
    {others others' : Text → Reading (List α)}
    (h : ∀ a rest, element = .ok (a, rest) → ∀ t, t.length < rest.length → others t = others' t) :
    listed close element others = listed close element others' := by
  apply andThen_congr
  intro a rest hread
  apply token_congr
  intro c more hlen
  have hskip := skipSpace_length more
  rw [h a rest hread (skipSpace more) (by simp only [List.length_cons] at hlen; omega)]

theorem bracketed_congr {fault : Fault} {close : CodePoint} {empty : Value} {build : α → Value}
    {contents contents' : Text → Reading α} {t : Text}
    (h : ∀ s, s.length ≤ t.length → contents s = contents' s) :
    bracketed fault close empty build contents t =
      bracketed fault close empty build contents' t := by
  apply token_congr
  intro c more hlen
  rw [h (c :: more) hlen]

theorem memberWithin_congr {n m : Nat} {t : Text}
    (h : ∀ s, s.length < t.length → valueWithin n s = valueWithin m s) :
    memberWithin n t = memberWithin m t := by
  cases t with
  | nil => rfl
  | cons q body =>
    simp only [memberWithin]
    split
    · apply andThen_congr
      intro key rest hstring
      apply token_congr
      intro c more hlen
      obtain ⟨k, hk, -⟩ := string_sound hstring
      have hskip := skipSpace_length more
      have hbody := congrArg List.length hk
      simp only [List.drop_zero, List.length_append, List.length_cons] at hbody hlen
      rw [h (skipSpace more) (by simp only [List.length_cons]; omega)]
    · rfl

/-- What a part is read from is not empty, so less is left. -/
theorem sound_shorter {part : α → Part} {read : Text → Reading α} (h : Sound part read)
    {t rest : Text} {a : α} (hread : read t = .ok (a, rest)) : rest.length < t.length := by
  obtain ⟨s, rfl, hs⟩ := h t a rest hread
  obtain ⟨c, s, rfl, -⟩ := spells_begins hs
  simp only [List.length_append, List.length_cons]
  omega

theorem within_steps (n : Nat) :
    (∀ m t, 2 * t.length + 1 ≤ n → 2 * t.length + 1 ≤ m → valueWithin n t = valueWithin m t) ∧
    (∀ m t, 2 * t.length + 2 ≤ n → 2 * t.length + 2 ≤ m → itemsWithin n t = itemsWithin m t) ∧
    (∀ m t, 2 * t.length + 2 ≤ n → 2 * t.length + 2 ≤ m →
      membersWithin n t = membersWithin m t) := by
  induction n with
  | zero => exact ⟨by omega, by omega, by omega⟩
  | succ n ih =>
    obtain ⟨hv, hi, hm⟩ := ih
    refine ⟨?_, ?_, ?_⟩
    · intro m t hn hm'
      obtain ⟨m, rfl⟩ := Nat.exists_eq_succ_of_ne_zero (by omega : m ≠ 0)
      cases t with
      | nil => rfl
      | cons c t =>
        simp only [List.length_cons] at hn hm'
        rw [valueWithin_cons, valueWithin_cons,
          bracketed_congr fun s hs => hi m s (by omega) (by omega),
          bracketed_congr fun s hs => hm m s (by omega) (by omega)]
    · intro m t hn hm'
      obtain ⟨m, rfl⟩ := Nat.exists_eq_succ_of_ne_zero (by omega : m ≠ 0)
      rw [itemsWithin_succ, itemsWithin_succ, hv m t (by omega) (by omega)]
      apply listed_congr
      intro v rest hread s hs
      have hrest := sound_shorter (within_sound m).1 hread
      exact hi m s (by omega) (by omega)
    · intro m t hn hm'
      obtain ⟨m, rfl⟩ := Nat.exists_eq_succ_of_ne_zero (by omega : m ≠ 0)
      rw [membersWithin_succ, membersWithin_succ,
        memberWithin_congr fun s hs => hv m s (by omega) (by omega)]
      apply listed_congr
      intro v rest hread s hs
      have hrest := sound_shorter (memberWithin_sound (within_sound m).1) hread
      exact hm m s (by omega) (by omega)

/-- The bound on the steps of a reading is never reached. -/
theorem valueWithin_document {n : Nat} {t : Text} (h : 2 * t.length + 1 ≤ n) :
    valueWithin n t = document t :=
  (within_steps n).1 _ t h (by omega)

end FileWatch.Json
