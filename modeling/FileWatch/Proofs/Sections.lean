import FileWatch.Config.Sections
import FileWatch.Proofs.Lists
import FileWatch.Proofs.LowerCase
/-!
The options of a section have distinct names in lower case, whatever file they are read from: each
line that is read keeps them so.
-/

namespace FileWatch.Config

structure WellNamed {α : Type} (entries : List (Text × α)) : Prop where
  distinct : (entries.map Prod.fst).Nodup
  lowered : ∀ name ∈ entries.map Prod.fst, Text.lower name = name

theorem WellNamed.nil {α : Type} : WellNamed ([] : List (Text × α)) :=
  ⟨List.nodup_nil, by simp⟩

theorem WellNamed.of_names {α β : Type} {entries : List (Text × α)} {others : List (Text × β)}
    (h : WellNamed entries) (hnames : others.map Prod.fst = entries.map Prod.fst) :
    WellNamed others :=
  ⟨hnames ▸ h.distinct, hnames ▸ h.lowered⟩

theorem WellNamed.add {α : Type} {entries : List (Text × α)} {name : Text} (h : WellNamed entries)
    (hnew : entries.lookup name = none) (hlowered : Text.lower name = name) (v : α) :
    WellNamed (entries ++ [(name, v)]) := by
  have hfresh := lookup_eq_none.mp hnew
  constructor
  · rw [List.map_append, List.nodup_append]
    refine ⟨h.distinct, List.nodup_singleton _, ?_⟩
    rintro other hother _ hname rfl
    rw [List.map_singleton, List.mem_singleton] at hname
    subst hname
    exact hfresh hother
  · rw [List.map_append, List.forall_mem_append]
    exact ⟨h.lowered, by simpa using hlowered⟩

/-! One line after another. -/

namespace Progress

def Named (p : Progress) : Prop := ∀ name, WellNamed (p.draft name)

theorem named_update {p : Progress} (h : p.Named) {f : Draft → Draft}
    (hf : ∀ name, p.current = some name → WellNamed (f (p.draft name))) : (p.update f).Named := by
  intro name
  unfold update
  cases hcurrent : p.current with
  | none => exact h name
  | some current =>
    have hdraft := h name
    unfold draft at hdraft hf ⊢
    change WellNamed (((p.drafts.map (changeEntry current f)).lookup name).getD [])
    rw [lookup_changed]
    split
    · rename_i hname
      subst hname
      have hnew := hf name hcurrent
      cases hlookup : p.drafts.lookup name with
      | none => exact .nil
      | some d =>
        rw [hlookup] at hnew
        exact hnew
    · exact hdraft

theorem named_extend {p : Progress} (h : p.Named) (line : Text) : (p.extend line).Named :=
  named_update h fun name _ => (h name).of_names (names_changed p.option (· ++ [line]) _)

end Progress

theorem openSection_named {p p' : Progress} (h : p.Named) {line : Nat} {name : Text}
    (hopen : openSection p line name = .ok p') : p'.Named := by
  unfold openSection at hopen
  split at hopen
  · cases hopen
    exact h
  · split at hopen
    · cases hopen
    · cases hopen
      intro other
      have hother := h other
      unfold Progress.draft at hother ⊢
      rw [List.lookup_append]
      cases hlookup : p.drafts.lookup other with
      | some d =>
        rw [hlookup] at hother
        exact hother
      | none =>
        rw [Option.none_or, List.lookup_cons]
        cases other == name <;> exact .nil

theorem addOption_named {p p' : Progress} (h : p.Named) {name : Text}
    (hcurrent : p.current = some name) {line : Nat} {content value : Text}
    (hadd : addOption p name line content value = .ok p') : p'.Named := by
  unfold addOption at hadd
  cases hsplit : splitOption? value with
  | none =>
    rw [hsplit] at hadd
    cases hadd
    exact h
  | some parts =>
    obtain ⟨option, first⟩ := parts
    rw [hsplit] at hadd
    dsimp only at hadd
    generalize hq : (if option.isEmpty then _ else p) = q at hadd
    have hsame : q.drafts = p.drafts ∧ q.current = p.current := by
      rw [← hq]
      split <;> exact ⟨rfl, rfl⟩
    have hnamed : q.Named := by
      intro other
      rw [Progress.draft, hsame.1]
      exact h other
    split at hadd
    · cases hadd
    · rename_i hnew
      cases hadd
      refine Progress.named_update hnamed fun current hq => ?_
      rw [hsame.2, hcurrent] at hq
      cases hq
      have hnone := Option.not_isSome_iff_eq_none.mp hnew
      exact (hnamed name).add hnone (Text.lower_lower option) _

/-- Reading a line keeps the names distinct and in lower case. -/
theorem readLine_named {p p' : Progress} (h : p.Named) {line : Nat} {content : Text}
    (hread : readLine p line content = .ok p') : p'.Named := by
  unfold readLine at hread
  dsimp only at hread
  split at hread
  · cases hread
    exact h
  split at hread
  · cases hread
    split
    · exact h
    · exact Progress.named_extend h []
  split at hread
  · cases hread
    exact Progress.named_extend h _
  have hindented :
      Progress.Named { p with indent := (content.takeWhile CodePoint.isBlank).length } := h
  split at hread
  · exact openSection_named hindented hread
  · cases hread
  · exact addOption_named hindented ‹_› hread

theorem readLines_named {p p' : Progress} (h : p.Named) {line : Nat} {lines : List Text}
    (hread : readLines p line lines = .ok p') : p'.Named := by
  induction lines generalizing p line with
  | nil =>
    cases hread
    exact h
  | cons content rest ih =>
    obtain ⟨q, hline, hrest⟩ := except_bind_ok.mp hread
    exact ih (readLine_named h hline) hrest

/-! The whole file. -/

theorem finish_named {d : Draft} (h : WellNamed d) : WellNamed (finish d) :=
  h.of_names (List.map_map ..)

theorem named_begin : ({} : Progress).Named := by
  intro name
  unfold Progress.draft
  rw [List.lookup_cons]
  cases name == defaultSection <;> exact .nil

/-- The names of the options in every section of a file are distinct and in lower case. -/
theorem sections_named {file : Text} {s : Sections} (h : readSections file = .ok s) :
    WellNamed s.defaults ∧
      ∀ name own, s.sections.lookup name = some own → WellNamed own := by
  obtain ⟨p, hlines, h⟩ := except_bind_ok.mp h
  have hnamed := readLines_named named_begin hlines
  have hlookup (name : Text) : WellNamed
      (((p.drafts.map fun entry => (entry.1, finish entry.2)).lookup name).getD []) := by
    have hdraft := hnamed name
    unfold Progress.draft at hdraft
    rw [lookup_mapped fun _ d => finish d]
    cases hname : p.drafts.lookup name with
    | none => exact .nil
    | some d =>
      rw [hname] at hdraft
      exact finish_named hdraft
  split at h
  · cases h
  · cases h
    refine ⟨hlookup defaultSection, fun name own hown => ?_⟩
    have hname := hlookup name
    dsimp only at hown
    rw [lookup_filter (fun name => name != defaultSection)] at hown
    split at hown
    · rw [hown] at hname
      exact hname
    · cases hown

end FileWatch.Config
