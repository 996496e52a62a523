import FileWatch.Proofs.Lists
import FileWatch.Query.Field
import Mathlib.Data.Int.Bitwise
import Mathlib.Data.List.Forall2
import Mathlib.Data.List.Nodup
import Mathlib.Data.List.Perm.Basic
import Mathlib.Data.List.TakeWhile
/-!
Masks and lists of names carry the same information. A mask is read bit by bit in two's complement:
it selects the attributes whose bits it has, and a list of names sets the bits of the attributes
that it names, in whatever order, letter case and number.
-/

namespace FileWatch

namespace Field

/-! The places of the bits. -/

theorem mem_all (f : Field) : f ∈ all := by cases f <;> decide

theorem index_lt (f : Field) : f.index < all.length := List.idxOf_lt_length_of_mem (mem_all f)

theorem index_inj {f g : Field} : f.index = g.index ↔ f = g := List.idxOf_inj (mem_all f)

theorem all_ascending : all.Pairwise fun f g => f.index < g.index := by decide

theorem exists_index {place : Nat} (h : place < all.length) : ∃ f : Field, f.index = place := by
  have hdistinct : all.Nodup := by decide
  exact ⟨all[place], hdistinct.idxOf_getElem place h⟩

/-- A bit of a number, read in two's complement. -/
theorem int_testBit (mask : Int) (place : Nat) :
    mask.testBit place = decide (mask / ((2 ^ place : Nat) : Int) % 2 = 1) := by
  have hpos : (0 : Int) < ((2 ^ place : Nat) : Int) := Int.natCast_pos.mpr (Nat.two_pow_pos place)
  cases mask with
  | ofNat n =>
    change n.testBit place = _
    rw [Nat.testBit_eq_decide_div_mod_eq, decide_eq_decide, Int.ofNat_eq_natCast,
      ← Int.natCast_ediv]
    omega
  | negSucc n =>
    change (!n.testBit place) = _
    have hquotient :
        Int.negSucc n / ((2 ^ place : Nat) : Int) = -((n / 2 ^ place : Nat) : Int) - 1 := by
      rw [Int.negSucc_ediv n hpos]
      change -((n : Int) / ((2 ^ place : Nat) : Int) + 1) = _
      rw [← Int.natCast_ediv]
      omega
    rw [Nat.testBit_eq_decide_div_mod_eq, hquotient, ← decide_not, decide_eq_decide]
    omega

theorem isIn_eq (mask : Int) (f : Field) : isIn mask f = mask.testBit f.index :=
  (int_testBit mask f.index).symm

/-! What a mask selects, and the mask of some attributes. -/

theorem mem_selected {mask : Int} {f : Field} :
    f ∈ selected mask ↔ mask.testBit f.index = true := by
  rw [selected, List.mem_filter, isIn_eq]
  exact and_iff_right (mem_all f)

theorem selected_ascending (mask : Int) :
    (selected mask).Pairwise fun f g => f.index < g.index :=
  all_ascending.filter _

theorem testBit_maskOf {fields : List Field} {place : Nat} :
    (maskOf fields).testBit place = true ↔ ∃ f ∈ fields, f.index = place := by
  -- the mask so far is the start of the fold
  have hfold (mask : Nat) :
      (fields.foldl (fun mask f => mask ||| f.bit) mask).testBit place = true ↔
        mask.testBit place = true ∨ ∃ f ∈ fields, f.index = place := by
    induction fields generalizing mask with
    | nil => simp
    | cons f rest ih =>
      rw [List.foldl_cons, ih, Nat.testBit_or, bit, Nat.testBit_two_pow, Bool.or_eq_true,
        decide_eq_true_eq, List.exists_mem_cons_iff, or_assoc]
  rw [maskOf, hfold, Nat.zero_testBit]
  simp

theorem maskOf_congr {fields others : List Field} (h : ∀ f, f ∈ fields ↔ f ∈ others) :
    maskOf fields = maskOf others := by
  refine Nat.eq_of_testBit_eq fun place => ?_
  rw [Bool.eq_iff_iff, testBit_maskOf, testBit_maskOf]
  simp [h]

theorem maskOf_append (fields others : List Field) :
    maskOf (fields ++ others) = maskOf fields ||| maskOf others := by
  refine Nat.eq_of_testBit_eq fun place => ?_
  rw [Bool.eq_iff_iff, Nat.testBit_or, Bool.or_eq_true, testBit_maskOf, testBit_maskOf,
    testBit_maskOf]
  simp only [List.mem_append, or_and_right, exists_or]

theorem mem_selected_maskOf {fields : List Field} {f : Field} :
    f ∈ selected (maskOf fields : Nat) ↔ f ∈ fields := by
  rw [mem_selected]
  change (maskOf fields).testBit f.index = true ↔ _
  rw [testBit_maskOf]
  constructor
  · rintro ⟨g, hg, hindex⟩
    exact index_inj.mp hindex ▸ hg
  · exact fun hf => ⟨f, hf, rfl⟩

/-- The mask of what a mask selects is that mask without the bits that belong to no attribute. -/
theorem testBit_maskOf_selected (mask : Int) (place : Nat) :
    (maskOf (selected mask)).testBit place =
      (decide (place < all.length) && mask.testBit place) := by
  rw [Bool.eq_iff_iff, testBit_maskOf, Bool.and_eq_true, decide_eq_true_eq]
  constructor
  · rintro ⟨f, hf, rfl⟩
    exact ⟨index_lt f, mem_selected.mp hf⟩
  · rintro ⟨hplace, hbit⟩
    obtain ⟨f, rfl⟩ := exists_index hplace
    exact ⟨f, mem_selected.mpr hbit, rfl⟩

/-! Names of attributes. -/

/-- A text names an attribute when it has the capital form of the attribute's word, white space
around it apart. -/
def Spells (t : Text) (f : Field) : Prop :=
  (Text.strip t).flatMap capitals = (Text.ofString f.word).flatMap capitals

instance (t : Text) (f : Field) : Decidable (Spells t f) := inferInstanceAs (Decidable (_ = _))

theorem capital_words_distinct :
    (all.map fun f => (Text.ofString f.word).flatMap capitals).Nodup := by
  decide +kernel

theorem spells_unique {t : Text} {f g : Field} (hf : Spells t f) (hg : Spells t g) : f = g :=
  List.inj_on_of_nodup_map capital_words_distinct (mem_all f) (mem_all g) (hf.symm.trans hg)

theorem word_inj {f g : Field} (h : f.word = g.word) : f = g := by
  refine List.inj_on_of_nodup_map capital_words_distinct (mem_all f) (mem_all g) ?_
  exact congrArg (fun w => (Text.ofString w).flatMap capitals) h

theorem ofName?_eq_some {t : Text} {f : Field} : ofName? t = some f ↔ Spells t f := by
  have hfind : ofName? t = all.find? fun g => decide (Spells t g) := rfl
  rw [hfind]
  constructor
  · intro h
    simpa using List.find?_some h
  · intro h
    cases hfound : all.find? fun g => decide (Spells t g) with
    | none => exact absurd (decide_eq_true h) (List.find?_eq_none.mp hfound f (mem_all f))
    | some g =>
      have hg : Spells t g := by simpa using List.find?_some hfound
      rw [spells_unique hg h]

/-! Letter case and white space around a name. -/

theorem asciiLower_cases (c : CodePoint) :
    Binary64.asciiLower c = c ∨ ∃ n < 26, c = Fin.ofNat 0x110000 (0x41 + n) := by
  unfold Binary64.asciiLower
  split
  · rename_i h
    simp only [Bool.and_eq_true, decide_eq_true_eq] at h
    refine .inr ⟨c.val - 0x41, by omega, Fin.ext ?_⟩
    rw [Fin.val_ofNat, Nat.mod_eq_of_lt] <;> omega
  · exact .inl rfl

theorem capitals_asciiLower (c : CodePoint) : capitals (Binary64.asciiLower c) = capitals c := by
  rcases asciiLower_cases c with h | ⟨n, hn, rfl⟩
  · rw [h]
  · revert n
    decide +kernel

theorem isBlank_asciiLower (c : CodePoint) : (Binary64.asciiLower c).isBlank = c.isBlank := by
  rcases asciiLower_cases c with h | ⟨n, hn, rfl⟩
  · rw [h]
  · revert n
    decide +kernel

theorem word_not_blank (f : Field) : ∀ c ∈ Text.ofString f.word, c.isBlank = false := by
  have hwords : ∀ f ∈ all, ((Text.ofString f.word).all fun c => !c.isBlank) = true := by
    decide +kernel
  simpa using hwords f (mem_all f)

theorem strip_surrounded {before t after : Text} (hbefore : before.isBlank = true)
    (ht : ∀ c ∈ t, c.isBlank = false) (hafter : after.isBlank = true) :
    Text.strip (before ++ (t ++ after)) = t := by
  have hdrop {s rest : Text} (hrest : ∀ c ∈ s, c.isBlank = false) (hs : s ≠ []) :
      (s ++ rest).dropWhile CodePoint.isBlank = s ++ rest := by
    cases s with
    | nil => exact absurd rfl hs
    | cons c s => exact List.dropWhile_cons_of_neg (by simp [hrest c List.mem_cons_self])
  rw [Text.isBlank, List.all_eq_true] at hbefore hafter
  rw [Text.strip, Text.trim, List.dropWhile_append_of_pos hbefore]
  rcases eq_or_ne t [] with rfl | hne
  · rw [List.nil_append, List.dropWhile_eq_nil_iff.mpr hafter]
    rfl
  · rw [hdrop ht hne, List.reverse_append, List.dropWhile_append_of_pos (by simpa using hafter),
      ← List.append_nil t.reverse, hdrop (by simpa using ht) (by simpa using hne),
      List.append_nil, List.reverse_reverse]

/-- A word in any letter case and with white space around it is a name of its attribute. -/
theorem spells_surrounded {before t after : Text} {f : Field} (hbefore : before.isBlank = true)
    (ht : t.map Binary64.asciiLower = Text.ofString f.word) (hafter : after.isBlank = true) :
    Spells (before ++ (t ++ after)) f := by
  have hblank : ∀ c ∈ t, c.isBlank = false := by
    intro c hc
    rw [← isBlank_asciiLower]
    exact word_not_blank f _ (ht ▸ List.mem_map_of_mem hc)
  rw [Spells, strip_surrounded hbefore hblank hafter, ← ht, List.flatMap_map]
  simp only [capitals_asciiLower]

/-! Lists of names. -/

inductive Names : Value → Field → Prop where
  | intro {t f} : Spells t f → Names (.text t) f

theorem readName_ok {v : Value} {f : Field} : readName v = .ok f ↔ Names v f := by
  constructor
  · intro h
    unfold readName at h
    split at h
    · split at h
      · rename_i hname
        cases h
        exact .intro (ofName?_eq_some.mp hname)
      · cases h
    · cases h
    · cases h
  · rintro ⟨h⟩
    simp only [readName, ofName?_eq_some.mpr h]

theorem readNames_ok {names : List Value} {fields : List Field} :
    names.mapM readName = .ok fields ↔ List.Forall₂ Names names fields := by
  rw [mapM_ok]
  simp only [readName_ok]

/-- A list gives the mask of the attributes that its members name, and no other list is taken. -/
theorem parse_ok {names : List Value} {mask : Nat} :
    parse (.list names) = .ok mask ↔
      ∃ fields, List.Forall₂ Names names fields ∧ maskOf fields = mask := by
  have hparse : parse (.list names) =
      names.mapM readName >>= fun fields => .ok (maskOf fields) := rfl
  rw [hparse, except_bind_ok]
  simp only [readNames_ok, Except.ok.injEq]

def wordsOf (fields : List Field) : Value := .list (fields.map fun f => .text f.word)

theorem names_word (f : Field) : Names (.text f.word) f := by
  have hstrip : Text.strip ([] ++ (Text.ofString f.word ++ [])) = Text.ofString f.word :=
    strip_surrounded rfl (word_not_blank f) rfl
  rw [List.nil_append, List.append_nil] at hstrip
  exact .intro (congrArg (List.flatMap capitals) hstrip)

theorem parse_wordsOf (fields : List Field) : parse (wordsOf fields) = .ok (maskOf fields) := by
  refine parse_ok.mpr ⟨fields, ?_, rfl⟩
  rw [List.forall₂_map_left_iff, List.forall₂_same]
  exact fun f _ => names_word f

theorem parse_append {names others : List Value} {mask : Nat} :
    parse (.list (names ++ others)) = .ok mask ↔ ∃ left right, parse (.list names) = .ok left ∧
      parse (.list others) = .ok right ∧ mask = left ||| right := by
  simp only [parse_ok, ← readNames_ok, List.mapM_append, except_bind_ok]
  constructor
  · rintro ⟨_, ⟨fields, hfields, fields', hfields', ⟨⟩⟩, rfl⟩
    exact ⟨_, _, ⟨fields, hfields, rfl⟩, ⟨fields', hfields', rfl⟩, maskOf_append fields fields'⟩
  · rintro ⟨_, _, ⟨fields, hfields, rfl⟩, ⟨fields', hfields', rfl⟩, rfl⟩
    exact ⟨_, ⟨fields, hfields, fields', hfields', rfl⟩, maskOf_append fields fields'⟩

theorem parse_perm {names others : List Value} {mask : Nat} (h : names.Perm others)
    (hmask : parse (.list names) = .ok mask) : parse (.list others) = .ok mask := by
  obtain ⟨fields, hfields, rfl⟩ := parse_ok.mp hmask
  obtain ⟨fields', hfields', hperm⟩ := List.perm_comp_forall₂ h.symm hfields
  exact parse_ok.mpr ⟨fields', hfields', maskOf_congr fun f => hperm.mem_iff⟩

/-- Masks and names are inverse. A mask comes back from its names without the bits that belong to no
attribute. The names of a list's mask are the words of the attributes that are named in the list,
each once and in ascending order of their bits; a list is taken when each of its members is a name,
which a word is in any letter case and with white space around it. The mask of two lists together
has the bits of both, and the order in a list is of no importance. -/
theorem masks_and_names_inverse :
    (∀ mask : Int, ∃ chosen back, namesOf (.int mask) = .ok chosen ∧
      parse (wordsOf chosen) = .ok back ∧
      ∀ place, back.testBit place = (decide (place < 21) && mask.testBit place)) ∧
    (∀ names mask, parse (.list names) = .ok mask → ∃ fields chosen,
      List.Forall₂ Names names fields ∧ namesOf (.int mask) = .ok chosen ∧
      (chosen.map word).Nodup ∧ chosen.Pairwise (fun f g => f.index < g.index) ∧
      ∀ f, f ∈ chosen ↔ f ∈ fields) ∧
    (∀ names, (∃ mask, parse (.list names) = .ok mask) ↔ ∀ v ∈ names, ∃ f, Names v f) ∧
    (∀ before t after f, before.isBlank = true → after.isBlank = true →
      t.map Binary64.asciiLower = Text.ofString (word f) →
      Names (.text (before ++ (t ++ after))) f) ∧
    (∀ names others mask, parse (.list (names ++ others)) = .ok mask ↔ ∃ left right,
      parse (.list names) = .ok left ∧ parse (.list others) = .ok right ∧ mask = left ||| right) ∧
    (∀ names others mask, names.Perm others → parse (.list names) = .ok mask →
      parse (.list others) = .ok mask) := by
  refine ⟨?_, ?_, ?_, ?_, fun _ _ _ => parse_append, fun _ _ _ => parse_perm⟩
  · intro mask
    exact ⟨_, _, rfl, parse_wordsOf _, testBit_maskOf_selected mask⟩
  · intro names mask h
    obtain ⟨fields, hfields, rfl⟩ := parse_ok.mp h
    have hascending := selected_ascending (maskOf fields : Nat)
    have hnodup : (selected (maskOf fields : Nat)).Nodup :=
      hascending.imp fun hlt heq => absurd (congrArg index heq) (Nat.ne_of_lt hlt)
    exact ⟨fields, _, hfields, rfl, hnodup.map fun _ _ => word_inj, hascending,
      fun f => mem_selected_maskOf⟩
  · intro names
    rw [exists_forall₂]
    simp only [parse_ok]
    exact ⟨fun ⟨_, fields, hfields, _⟩ => ⟨fields, hfields⟩,
      fun ⟨fields, hfields⟩ => ⟨_, fields, hfields, rfl⟩⟩
  · intro before t after f hbefore hafter ht
    exact .intro (spells_surrounded hbefore ht hafter)

/-- Two attributes, one of them named twice and in other letter cases. -/
theorem size_and_name_named :
    let names : List Value := [.text " Size", .text "NAME\n", .text "size"]
    (∃ fields, List.Forall₂ Names names fields ∧ ∀ f, f ∈ [name, size] ↔ f ∈ fields) ∧
      parse (.list names.reverse) = .ok 16385 ∧ Names (.text " Size") size ∧
      ∃ left right, parse (.list [.text " Size"]) = .ok left ∧
        parse (.list [.text "NAME\n", .text "size"]) = .ok right ∧ 16385 = left ||| right := by
  intro names
  have hparse : parse (.list names) = .ok 16385 := by decide +kernel
  have hspace : Text.isBlank ((" " : String) : Text) = true := by decide +kernel
  have hletters :
      ((("Size" : String) : Text)).map Binary64.asciiLower = Text.ofString size.word := by
    decide +kernel
  obtain ⟨-, hnames, -, hspelled, happend, hperm⟩ := masks_and_names_inverse
  obtain ⟨fields, chosen, hfields, hchosen, -, -, hmem⟩ := hnames names 16385 hparse
  have hselected : namesOf (.int 16385) = .ok [name, size] := by decide +kernel
  cases hchosen.symm.trans hselected
  refine ⟨⟨fields, hfields, hmem⟩, hperm names _ 16385 names.reverse_perm.symm hparse, ?_, ?_⟩
  · exact hspelled " " "Size" [] size hspace rfl hletters
  · exact (happend [.text " Size"] [.text "NAME\n", .text "size"] 16385).mp hparse

end Field

end FileWatch
