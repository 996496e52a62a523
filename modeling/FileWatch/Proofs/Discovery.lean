import FileWatch.Proofs.Connecting
import FileWatch.Proofs.Json.Members
import FileWatch.Proofs.Receptions
/-!
What discovery accepts. The path that it finds is the last `sockname` member of the one object that
the command printed, with nothing but white space around it. Whatever else the command comes to is
a failure, of discovery unless the run breaks off, and a client that is to find its socket then
creates none.
-/

namespace FileWatch

open FileWatch.Json (Spaces ObjectText Overlong)

/-- The output is one object between white space, and the last member of the object under the name
`sockname` is a path. -/
inductive Announces : Text → Text → Prop where
  | intro {w d w' before after path} : Spaces w →
      ObjectText d (before ++ (("sockname" : Text), Value.text path) :: after) →
      (∀ member ∈ after, member.1 ≠ ("sockname" : Text)) → Spaces w' →
      Announces (w ++ (d ++ w')) path

theorem spaces_skipped {w : Text} (h : Json.skipSpace w = []) : Spaces w := by
  intro c hc
  exact List.dropWhile_eq_nil_iff.mp h c hc

theorem object_opens {d : Text} {ms : List (Text × Value)} (h : ObjectText d ms) :
    ∃ rest : Text, d = ('\x7b' :: rest : Text) := by
  cases h <;> exact ⟨_, rfl⟩

/-- The byte order mark is neither white space nor the beginning of an object. -/
theorem announced_unmarked {output path : Text} (h : Announces output path) :
    output.head? ≠ some 0xFEFF := by
  obtain @⟨w, d, w', before, after, _, hw, hd, -, -⟩ := h
  obtain ⟨rest, rfl⟩ := object_opens hd
  cases w with
  | nil => exact fun hmark => absurd (Option.some.inj hmark) (by decide)
  | cons c w =>
    rintro ⟨⟩
    exact absurd (hw 0xFEFF List.mem_cons_self) (by decide)

/-- A path is taken from the output exactly when it announces that path. -/
theorem socknameOf_ok {output path : Text} :
    socknameOf output = .ok path ↔ Announces output path := by
  constructor
  · intro h
    unfold socknameOf at h
    dsimp only at h
    split at h
    · cases h
    split at h
    · cases h
    · cases h
    rename_i v rest hdocument
    split at h
    · cases h
    rename_i hrest
    split at h
    · split at h
      · rename_i t hlookup
        cases h
        obtain ⟨d, hd, hdict⟩ := Json.document_sound hdocument
        obtain ⟨ms, hobject, rfl⟩ := Json.document_dict.mp hdict
        obtain ⟨before, after, rfl, hafter⟩ := Json.lookup_last.mp hlookup
        obtain ⟨w, hw, houtput⟩ := Json.skipSpace_split output
        rw [hd] at houtput
        rw [houtput]
        exact .intro hw hobject hafter (spaces_skipped (by simpa using hrest))
      · cases h
      · cases h
    · cases h
  · intro h
    have hunmarked := announced_unmarked h
    obtain @⟨w, d, w', before, after, _, hw, hd, hafter, hw'⟩ := h
    have hdict := Json.document_dict.mpr ⟨_, hd, rfl⟩
    have hskip : Json.skipSpace (w ++ (d ++ w')) = d ++ w' := by
      rw [Json.skipSpace_spaces hw]
      exact Json.skipSpace_begins (Json.begins_append (Json.spells_begins hdict) w')
    have hdocument := @Json.document_complete d w' _ hdict fun hn =>
      absurd hn Json.number_not_dict
    have hlookup := Json.lookup_last.mpr ⟨before, after, Eq.refl (before ++ (_, .text path) :: _),
      hafter⟩
    have hrest : Json.skipSpace w' = [] := List.dropWhile_eq_nil_iff.mpr hw'
    unfold socknameOf
    simp only [hunmarked, if_false, hskip, hdocument, hrest, hlookup]
    rfl

theorem socknameOf_error {output : Text} {e : Failure} (h : socknameOf output = .error e) :
    e.category? = none ∨ e.category? = some .discovery := by
  unfold socknameOf at h
  dsimp only at h
  repeat' split at h
  all_goals
    cases h
  all_goals
    first
    | exact Or.inl rfl
    | exact Or.inr rfl

namespace Client

theorem discover_error {binary timeout : Value} {c : Client} {e : Failure}
    (h : (settle (discover binary timeout) c).1 = .error e) :
    e.category? = none ∨ e.category? = some .discovery := by
  have hends := discover_ends binary timeout c
  rw [h] at hends
  cases hends with
  | broken | unwritten => exact Or.inl rfl
  | failed | expired | exited => exact Or.inr rfl
  | printed _ hsockname => exact socknameOf_error hsockname

theorem discover_ok (binary timeout : Value) (c : Client) (path : Text) :
    (settle (discover binary timeout) c).1 = .ok path ↔
      ∃ output errors, c.host.discovery = .finished 0 output errors ∧ Announces output path := by
  have hends := discover_ends binary timeout c
  generalize (settle (discover binary timeout) c).1 = r at hends
  cases hends with
  | failed h | broken h | unwritten h | expired h => exact iff_of_false nofun (by simp [h])
  | exited h hstatus => exact iff_of_false nofun (by simp [h, hstatus])
  | printed h hr =>
    rw [← hr, socknameOf_ok]
    constructor
    · exact fun hannounced => ⟨_, _, h, hannounced⟩
    · rintro ⟨_, _, hfinished, hannounced⟩
      cases h.symm.trans hfinished
      exact hannounced

theorem discover_calls (binary timeout : Value) (c : Client) :
    (settle (discover binary timeout) c).2.calls =
      c.calls ++ [.run [binary, .text "get-sockname"] timeout] :=
  congrArg Client.calls (discover_unlogged binary timeout c)

/-- The path is found exactly when the command succeeded and announced it. Otherwise discovery
fails, and connecting fails with it before any socket is created. The failure is one of discovery
but for a command that prints what is no text, an integer over the limit, or an error that cannot be
written out. -/
theorem discovers_exactly_announced (binary timeout : Value) (c : Client) :
    (∀ path, (settle (discover binary timeout) c).1 = .ok path ↔
      ∃ output errors, c.host.discovery = .finished 0 output errors ∧ Announces output path) ∧
    ((∀ path output errors, c.host.discovery = .finished 0 output errors →
        ¬ Announces output path) →
      ∃ e, (Undiscovered binary c.host ∧ e.category? = none ∨
          ¬ Undiscovered binary c.host ∧ e.category? = some .discovery) ∧
        (settle (discover binary timeout) c).1 = .error e ∧
        (settle (connect ⟨.null, timeout, binary⟩) c).1 = .error e ∧
        (settle (connect ⟨.null, timeout, binary⟩) c).2.calls =
          c.calls ++ [.run [binary, .text "get-sockname"] timeout]) := by
  refine ⟨discover_ok binary timeout c, fun hnone => ?_⟩
  have hundiscovered := discover_uncategorized binary timeout c
  have hcalls := discover_calls binary timeout c
  rw [connect_discovering, settle_bind]
  rcases hsettle : settle (discover binary timeout) c with ⟨e | path, c'⟩
  · rw [hsettle] at hcalls hundiscovered
    refine ⟨e, ?_, rfl, rfl, hcalls⟩
    rw [← hundiscovered]
    rcases discover_error (congrArg Prod.fst hsettle) with hcategory | hcategory
    · exact Or.inl ⟨⟨e, rfl, hcategory⟩, hcategory⟩
    · refine Or.inr ⟨?_, hcategory⟩
      rintro ⟨_, ⟨⟩, hcategory'⟩
      rw [hcategory] at hcategory'
      cases hcategory'
  · obtain ⟨output, errors, hfinished, hannounced⟩ :=
      (discover_ok binary timeout c path).mp (congrArg Prod.fst hsettle)
    exact absurd hannounced (hnone path output errors hfinished)

/-- A path that a later member takes back is not found, and no socket is created. -/
theorem path_taken_back :
    let output : Text := "\x7b\"sockname\":\"/a\",\"sockname\":null\x7d\n"
    let c : Client := { host := { discovery := .finished 0 output none } }
    ∃ e, e.category? = some .discovery ∧
      (settle (connect ⟨.null, .null, .text "watchman"⟩) c).1 = .error e ∧
      (settle (connect ⟨.null, .null, .text "watchman"⟩) c).2.calls =
        [.run [.text "watchman", .text "get-sockname"] .null] := by
  intro output c
  obtain ⟨hfound, hlost⟩ := discovers_exactly_announced (.text "watchman") .null c
  have hread : (Json.document (Json.skipSpace output)).toOption.isSome = true := by decide +kernel
  have hnone : (settle (discover (.text "watchman") .null) c).1.toOption = none := by
    decide +kernel
  obtain ⟨e, hcategory, -, hconnect, hcalls⟩ := hlost fun path output errors h hannounced => by
    rw [(hfound path).mpr ⟨output, errors, h, hannounced⟩] at hnone
    cases hnone
  refine ⟨e, ?_, hconnect, hcalls⟩
  rcases hcategory with ⟨hundiscovered, -⟩ | ⟨-, hdiscovery⟩
  · cases hundiscovered with
    | output hfinished _ hn =>
      cases hfinished
      rw [Json.document_overlong.mpr hn] at hread
      cases hread
    | expired hexpired => cases hexpired
    | broken hbroken => cases hbroken
  · exact hdiscovery

/-- The command writes a byte that is no text, among its errors if not in its answer. -/
theorem undecodable_answer_uncategorized :
    let undecodable : CallFault := .undecodable ⟨.invalidStart, 0xff, 0, 1⟩
    let c : Client := { host := { discovery := .broken undecodable } }
    ∃ e, (settle (discover (.text "watchman") .null) c).1 = .error e ∧ e.category? = none ∧
      (settle (connect {}) c).1 = .error e :=
  ⟨_, rfl, rfl, rfl⟩

end Client

end FileWatch
