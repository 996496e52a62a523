import FileWatch.Config.Settings
import FileWatch.Proofs.Sections
/-!
What the client's section of a file sees wins: once the options of the file are loaded, they are
those that are visible from that section, with the values that they have there. But the defaults
are also worked out on their own, and a default that only the client's section completes then ends
the loading.
-/

namespace FileWatch.Config

namespace Scope

variable {s : Scope}

/-- Every option that is seen from a scope has a value there. -/
def Resolves (s : Scope) : Prop :=
  ∀ entry ∈ s.visible, ∃ value, s.expand entry.1 entry.2 10 entry.2 = .ok value

theorem expanded_ok {entry result : Text × Text} :
    (s.expand entry.1 entry.2 10 entry.2 >>= fun value => pure (entry.1, value)) =
        Except.ok result ↔
      result.1 = entry.1 ∧ s.expand entry.1 entry.2 10 entry.2 = .ok result.2 := by
  rw [except_bind_ok]
  constructor
  · rintro ⟨value, hvalue, ⟨⟩⟩
    exact ⟨rfl, hvalue⟩
  · rintro ⟨hname, hvalue⟩
    exact ⟨_, hvalue, hname ▸ rfl⟩

theorem resolve_ok {options : Options} : s.resolve = .ok options ↔
    List.Forall₂ (fun entry result => result.1 = entry.1 ∧
      s.expand entry.1 entry.2 10 entry.2 = .ok result.2) s.visible options := by
  refine mapM_ok.trans ?_
  constructor <;> refine List.Forall₂.imp fun _ _ => ?_
  · exact expanded_ok.mp
  · exact expanded_ok.mpr

theorem resolves_iff : (∃ options, s.resolve = .ok options) ↔ s.Resolves := by
  unfold Resolves
  have hentries : (∀ entry ∈ s.visible, ∃ value,
      s.expand entry.1 entry.2 10 entry.2 = .ok value) ↔
      ∀ entry ∈ s.visible, ∃ result : Text × Text, result.1 = entry.1 ∧
        s.expand entry.1 entry.2 10 entry.2 = .ok result.2 := by
    refine forall₂_congr fun entry _ => ?_
    exact ⟨fun ⟨value, h⟩ => ⟨(entry.1, value), rfl, h⟩, fun ⟨result, _, h⟩ => ⟨_, h⟩⟩
  rw [hentries, exists_forall₂]
  exact exists_congr fun _ => resolve_ok

/-- The error is that of the first option without a value. -/
theorem resolve_error {e : InterpolationError} (h : s.resolve = .error e) :
    ∃ before name raw after, s.visible = before ++ (name, raw) :: after ∧
      s.expand name raw 10 raw = .error e ∧
      ∀ entry ∈ before, ∃ value, s.expand entry.1 entry.2 10 entry.2 = .ok value := by
  obtain ⟨before, ⟨name, raw⟩, after, hvisible, hbefore, hentry⟩ := mapM_error.mp h
  refine ⟨before, name, raw, after, hvisible, ?_, fun entry hmem => ?_⟩
  · rcases except_bind_error.mp hentry with hraw | ⟨_, -, ⟨⟩⟩
    exact hraw
  · obtain ⟨result, hresult⟩ := hbefore entry hmem
    exact ⟨_, (expanded_ok.mp hresult).2⟩

theorem names_resolved {options : Options} (h : s.resolve = .ok options) :
    options.map Prod.fst = s.visible.map Prod.fst := by
  replace h := resolve_ok.mp h
  generalize s.visible = visible at h ⊢
  induction h with
  | nil => rfl
  | cons hentry _ ih => rw [List.map_cons, List.map_cons, hentry.1, ih]

theorem lookup_resolved {options : Options} (h : s.resolve = .ok options) {name value : Text} :
    options.lookup name = some value ↔ ∃ raw, s.visible.lookup name = some raw ∧
      s.expand name raw 10 raw = .ok value := by
  replace h := resolve_ok.mp h
  generalize s.visible = visible at h ⊢
  induction h with
  | nil => simp
  | @cons entry result visible options hentry _ ih =>
    obtain ⟨first, raw⟩ := entry
    obtain ⟨first', text⟩ := result
    obtain ⟨hsame, htext⟩ := hentry
    dsimp only at hsame htext
    subst hsame
    rw [List.lookup_cons, List.lookup_cons]
    cases hname : name == first' with
    | false => exact ih
    | true =>
      obtain rfl := eq_of_beq hname
      constructor
      · rintro ⟨⟩
        exact ⟨raw, rfl, htext⟩
      · rintro ⟨_, ⟨⟩, hvalue⟩
        cases htext.symm.trans hvalue
        rfl

end Scope

/-! Options over others. -/

def put (options : Options) (name value : Text) : Options :=
  if (options.lookup name).isSome then options.map (changeEntry name fun _ => value)
  else options ++ [(name, value)]

theorem merge_cons (options : Options) (name value : Text) (rest : Options) :
    merge options ((name, value) :: rest) = merge (put options name value) rest := rfl

theorem lookup_put (options : Options) (name value other : Text) :
    (put options name value).lookup other =
      if other = name then some value else options.lookup other := by
  unfold put
  split
  · rename_i hthere
    rw [lookup_changed]
    split
    · rename_i hsame
      obtain ⟨v, hv⟩ := Option.isSome_iff_exists.mp hthere
      rw [hsame, hv]
      rfl
    · rfl
  · rename_i hnew
    have hnone := Option.not_isSome_iff_eq_none.mp hnew
    rw [List.lookup_append, List.lookup_cons]
    by_cases hsame : other = name
    · subst hsame
      rw [hnone, beq_self_eq_true, if_pos rfl]
      rfl
    · rw [beq_eq_false_iff_ne.mpr hsame, if_neg hsame]
      exact Option.or_none

theorem put_named {options : Options} (h : WellNamed options) {name : Text}
    (hname : Text.lower name = name) (value : Text) : WellNamed (put options name value) := by
  unfold put
  split
  · exact h.of_names (names_changed name _ options)
  · rename_i hnew
    exact h.add (Option.not_isSome_iff_eq_none.mp hnew) hname value

theorem merge_named {options others : Options} (h : WellNamed options)
    (hothers : ∀ name ∈ others.map Prod.fst, Text.lower name = name) :
    WellNamed (merge options others) := by
  induction others generalizing options with
  | nil => exact h
  | cons entry rest ih =>
    obtain ⟨hname, hrest⟩ := List.forall_mem_cons.mp hothers
    exact ih (put_named h hname entry.2) hrest

theorem lookup_merge {options others : Options} (hothers : (others.map Prod.fst).Nodup)
    (name : Text) :
    (merge options others).lookup name = (others.lookup name).or (options.lookup name) := by
  induction others generalizing options with
  | nil => rfl
  | cons entry rest ih =>
    obtain ⟨first, value⟩ := entry
    rw [List.map_cons, List.nodup_cons] at hothers
    rw [merge_cons, ih hothers.2, lookup_put, List.lookup_cons]
    by_cases hsame : name = first
    · subst hsame
      rw [lookup_eq_none.mpr hothers.1, beq_self_eq_true, if_pos rfl]
      rfl
    · rw [beq_eq_false_iff_ne.mpr hsame, if_neg hsame]

/-! What the client's section sees. -/

section

variable {s : Sections} {own : Options}

theorem lookup_visible (name : Text) :
    (s.scope clientSection own).visible.lookup name =
      (own.lookup name <|> s.defaults.lookup name) := by
  change (own ++ s.defaults.filter fun entry => (own.lookup entry.1).isNone).lookup name = _
  rw [List.lookup_append, lookup_filter fun name => (own.lookup name).isNone]
  cases own.lookup name <;> rfl

theorem visible_named (hdefaults : WellNamed s.defaults) (hown : WellNamed own) :
    WellNamed (s.scope clientSection own).visible := by
  change WellNamed (own ++ s.defaults.filter fun entry => (own.lookup entry.1).isNone)
  have hrest : ∀ name ∈ (s.defaults.filter fun entry => (own.lookup entry.1).isNone).map Prod.fst,
      name ∈ s.defaults.map Prod.fst ∧ name ∉ own.map Prod.fst := by
    intro name hname
    obtain ⟨entry, hentry, rfl⟩ := List.mem_map.mp hname
    obtain ⟨hmem, hnew⟩ := List.mem_filter.mp hentry
    exact ⟨List.mem_map_of_mem hmem, lookup_eq_none.mp (Option.isNone_iff_eq_none.mp hnew)⟩
  constructor
  · rw [List.map_append, List.nodup_append]
    refine ⟨hown.distinct, hdefaults.distinct.sublist (List.filter_sublist.map _), ?_⟩
    rintro name hname _ hother rfl
    exact (hrest name hother).2 hname
  · rw [List.map_append, List.forall_mem_append]
    exact ⟨hown.lowered, fun name hname => hdefaults.lowered name (hrest name hname).1⟩

theorem client_ok (hown : s.sections.lookup clientSection = some own) {options : Options} :
    s.client = .ok options ↔ ∃ defaults seen,
      Scope.resolve ⟨defaultSection, s.defaults⟩ = .ok defaults ∧
      (s.scope clientSection own).resolve = .ok seen ∧ options = merge defaults seen := by
  unfold Sections.client
  rw [hown, except_bind_ok]
  constructor
  · rintro ⟨defaults, hdefaults, h⟩
    obtain ⟨seen, hseen, ⟨⟩⟩ := except_bind_ok.mp h
    exact ⟨defaults, seen, hdefaults, hseen, rfl⟩
  · rintro ⟨defaults, seen, hdefaults, hseen, rfl⟩
    exact ⟨defaults, hdefaults, except_bind_ok.mpr ⟨seen, hseen, rfl⟩⟩

theorem client_error (hown : s.sections.lookup clientSection = some own)
    (hresolves : (s.scope clientSection own).Resolves) {e : InterpolationError}
    (h : s.client = .error e) : Scope.resolve ⟨defaultSection, s.defaults⟩ = .error e := by
  unfold Sections.client at h
  rw [hown] at h
  rcases except_bind_error.mp h with hdefaults | ⟨defaults, -, h⟩
  · exact hdefaults
  · obtain ⟨seen, hseen⟩ := Scope.resolves_iff.mpr hresolves
    dsimp only at h
    rw [hseen] at h
    cases h

/-- The defaults give way to what the client's section sees, and add nothing to it. -/
theorem lookup_client {file : Text} (hread : readSections file = .ok s)
    (hown : s.sections.lookup clientSection = some own) {options : Options}
    (h : s.client = .ok options) : WellNamed options ∧ ∀ name value,
      options.lookup name = some value ↔
        ∃ raw, (own.lookup name <|> s.defaults.lookup name) = some raw ∧
          (s.scope clientSection own).expand name raw 10 raw = .ok value := by
  obtain ⟨hdefaults, hsections⟩ := sections_named hread
  have hvisible := visible_named hdefaults (hsections _ _ hown)
  obtain ⟨defaults, seen, hresolved, hseen, rfl⟩ := (client_ok hown).mp h
  have hnames := Scope.names_resolved hseen
  have hseenNamed := hvisible.of_names hnames
  refine ⟨merge_named (hdefaults.of_names (Scope.names_resolved hresolved)) hseenNamed.lowered,
    fun name value => ?_⟩
  -- A name that the section does not see is none of the defaults either.
  have hlookup : (merge defaults seen).lookup name = seen.lookup name := by
    rw [lookup_merge hseenNamed.distinct]
    cases hname : seen.lookup name with
    | some v => rfl
    | none =>
      rw [Option.none_or, lookup_eq_none, Scope.names_resolved hresolved, ← lookup_eq_none]
      rw [lookup_eq_none, hnames, ← lookup_eq_none, lookup_visible] at hname
      cases hown : own.lookup name with
      | some v =>
        rw [hown] at hname
        cases hname
      | none =>
        rw [hown] at hname
        exact hname
  rw [hlookup, Scope.lookup_resolved hseen, lookup_visible]

end

/-- When all that the client's section sees has a value there, the options of the file are loaded
as that section sees them exactly when every default has a value on its own as well, and otherwise
the first default without one is the error. -/
theorem client_view_loaded (environment : Environment) (path : Text) (assignments : Option Text)
    {file : Text} {s : Sections} {own : Options} (hread : readSections file = .ok s)
    (hown : s.sections.lookup clientSection = some own)
    (hresolves : (s.scope clientSection own).Resolves) :
    ((∃ options, load environment ⟨path, some file, assignments⟩ = .ok options) ↔
      (⟨defaultSection, s.defaults⟩ : Scope).Resolves) ∧
    (∀ options, load environment ⟨path, some file, assignments⟩ = .ok options →
      WellNamed options ∧ ∀ name value, options.lookup name = some value ↔
        ∃ raw, (own.lookup name <|> s.defaults.lookup name) = some raw ∧
          (s.scope clientSection own).expand name raw 10 raw = .ok value) ∧
    (∀ e, load environment ⟨path, some file, assignments⟩ = .error e →
      ∃ before name raw after cause, s.defaults = before ++ (name, raw) :: after ∧
        (⟨defaultSection, s.defaults⟩ : Scope).expand name raw 10 raw = .error cause ∧
        (∀ entry ∈ before, ∃ value, (⟨defaultSection, s.defaults⟩ : Scope).expand entry.1 entry.2
          10 entry.2 = .ok value) ∧
        e = .interpolation cause) := by
  have hload : load environment ⟨path, some file, assignments⟩ =
      s.client.mapError .interpolation := by
    unfold load
    dsimp only
    rw [hread]
    rfl
  rw [hload]
  cases hclient : s.client with
  | ok options =>
    obtain ⟨defaults, seen, hdefaults, -⟩ := (client_ok hown).mp hclient
    refine ⟨⟨fun _ => Scope.resolves_iff.mp ⟨defaults, hdefaults⟩, fun _ => ⟨options, rfl⟩⟩, ?_, ?_⟩
    · rintro _ ⟨⟩
      exact lookup_client hread hown hclient
    · rintro _ ⟨⟩
  | error cause =>
    have herror := client_error hown hresolves hclient
    refine ⟨⟨?_, ?_⟩, ?_, ?_⟩
    · rintro ⟨_, ⟨⟩⟩
    · intro hdefaults
      obtain ⟨options, hoptions⟩ := Scope.resolves_iff.mpr hdefaults
      cases herror.symm.trans hoptions
    · rintro _ ⟨⟩
    · rintro _ ⟨⟩
      obtain ⟨before, name, raw, after, hvisible, hraw, hbefore⟩ := Scope.resolve_error herror
      exact ⟨before, name, raw, after, cause, hvisible, hraw, hbefore, rfl⟩

/-- A default that refers to another is worked out with the client's own option, under whatever
case that was written. -/
theorem client_option_in_default :
    let file : Text := "[DEFAULT]\ndir=/d\nlog=%(dir)s/l\n[CLIENT]\nDir=/c\nSockname=%(dir)s/s\n"
    ∃ options, load [] ⟨"config.cfg", some file, none⟩ = .ok options ∧
      options.lookup ("log" : Text) = some "/c/l" ∧
      options.lookup ("sockname" : Text) = some "/c/s" := by
  intro file
  let own : Options := [("dir", "/c"), ("sockname", "%(dir)s/s")]
  let s : Sections := ⟨[("dir", "/d"), ("log", "%(dir)s/l")], [(clientSection, own)]⟩
  have hread : readSections file = .ok s := by decide +kernel
  have hseen : (s.scope clientSection own).resolve =
      .ok [("dir", "/c"), ("sockname", "/c/s"), ("log", "/c/l")] := by decide +kernel
  have hdefaults : Scope.resolve ⟨defaultSection, s.defaults⟩ =
      .ok [("dir", "/d"), ("log", "/d/l")] := by decide +kernel
  have hown : s.sections.lookup clientSection = some own := by decide +kernel
  obtain ⟨hloads, hview, -⟩ := client_view_loaded [] "config.cfg" none hread hown
    (Scope.resolves_iff.mp ⟨_, hseen⟩)
  obtain ⟨options, hoptions⟩ := hloads.mpr (Scope.resolves_iff.mp ⟨_, hdefaults⟩)
  have hlookup := (hview options hoptions).2
  exact ⟨options, hoptions,
    (hlookup _ _).mpr ⟨"%(dir)s/l", by decide +kernel, by decide +kernel⟩,
    (hlookup _ _).mpr ⟨"%(dir)s/s", by decide +kernel, by decide +kernel⟩⟩

/-- A default that only the client's section completes has a value there, and ends the loading. -/
theorem completed_default_fails :
    let file : Text := "[DEFAULT]\nsockname=%(dir)s/s\n[CLIENT]\ndir=/run\n"
    let own : Options := [("dir", "/run")]
    let s : Sections := ⟨[("sockname", "%(dir)s/s")], [(clientSection, own)]⟩
    readSections file = .ok s ∧ s.sections.lookup clientSection = some own ∧
      (s.scope clientSection own).Resolves ∧
      (s.scope clientSection own).expand "sockname" "%(dir)s/s" 10 "%(dir)s/s" = .ok "/run/s" ∧
      load [] ⟨"config.cfg", some file, none⟩ =
        .error (.interpolation (.missing "sockname" "DEFAULT" "dir" "%(dir)s/s")) := by
  intro file own s
  have hseen : (s.scope clientSection own).resolve =
      .ok [("dir", "/run"), ("sockname", "/run/s")] := by decide +kernel
  exact ⟨by decide +kernel, by decide +kernel, Scope.resolves_iff.mp ⟨_, hseen⟩, by decide +kernel,
    by decide +kernel⟩

end FileWatch.Config
