import FileWatch.CommandLine.Run
import FileWatch.Proofs.Filters
import FileWatch.Proofs.Reports
import FileWatch.Proofs.Visits
/-!
Errands. A command either is refused for invalid arguments or poses an errand: help, the socket's
path, or a call of the daemon. What an errand achieves is told apart from how it fails.
-/

namespace FileWatch

open FileWatch.Client (Answer Answered Breaking Call Undiscovered discover settle visit)
open FileWatch.Config (Environment Files Settings)
open FileWatch.Report (Printer)

variable {α β : Type}

/-! Errands. -/

/-- What a command comes down to: help, the socket's path, or a call with the records that go into
the log before it and the report on its answer. -/
inductive Errand where
  | help
  | locate
  | ask (log : List LogRecord) (call : Call) (report : Answer → Printer Unit)

def QueryCommand.mask (q : QueryCommand) : Except FieldError Nat :=
  if q.fields.isEmpty then .ok Field.name.bit else Field.parse (.list (q.fields.map .text))

def QueryCommand.report (q : QueryCommand) (mask : Nat) : Answer → Printer Unit
  | .files a => if q.asJson then Report.answerJson a else Report.answer a (.int mask)
  | _ => pure ()

def rootsReport : Answer → Printer Unit
  | .roots w => Report.roots w
  | _ => pure ()

namespace Command

inductive Poses : Command → Errand → Prop where
  | help : Poses .help .help
  | sockname : Poses .sockname .locate
  | watch {p} : Poses (.watch p)
      (.ask [] (.watch (.text p)) fun _ => Report.success (("Watching " : Text) ++ p))
  | watchDel {p} : Poses (.watchDel p)
      (.ask [] (.watchDel (.text p)) fun _ => Report.success (("Stopped watching " : Text) ++ p))
  | watchList : Poses .watchList (.ask [] .watchList rootsReport)
  | query {q e note} {mask : Nat} : q.filters.expression = .ok e → q.mask = .ok mask →
      Run.expressionRecord e = .ok note → Poses (.query q)
        (.ask [⟨.debug, note⟩] (.query (.text q.path) (.expression e) (.int mask)) (q.report mask))

inductive Unfit : Command → Text → Prop where
  | filters {q e} : q.filters.expression = .error e → Unfit (.query q) e.message
  | fields {q x e} : q.filters.expression = .ok x → q.mask = .error e → Unfit (.query q) e.message

theorem expressionRecord_worded {e : Expression} (h : e.Worded) :
    ∃ note, Run.expressionRecord e = .ok note := by
  obtain ⟨t, ht⟩ := literalWithin_textual h []
  rw [Run.expressionRecord, Value.literal, ht]
  exact ⟨_, rfl⟩

theorem poses_or_unfit (command : Command) :
    (∃ errand, Poses command errand) ∨ ∃ message, Unfit command message := by
  cases command with
  | help => exact Or.inl ⟨_, .help⟩
  | sockname => exact Or.inl ⟨_, .sockname⟩
  | watch p => exact Or.inl ⟨_, .watch⟩
  | watchDel p => exact Or.inl ⟨_, .watchDel⟩
  | watchList => exact Or.inl ⟨_, .watchList⟩
  | query q =>
    cases hexpression : q.filters.expression with
    | error e => exact Or.inr ⟨_, .filters hexpression⟩
    | ok e =>
      cases hmask : q.mask with
      | error e => exact Or.inr ⟨_, .fields hexpression hmask⟩
      | ok mask =>
        obtain ⟨note, hnote⟩ :=
          expressionRecord_worded (Filters.expression_worded q.filters e hexpression)
        exact Or.inl ⟨_, .query hexpression hmask hnote⟩

theorem poses_typed {command : Command} {log : List LogRecord} {call : Call}
    {report : Answer → Printer Unit} (h : Poses command (.ask log call report)) : call.Typed := by
  cases h with
  | watch => exact .watch _
  | watchDel => exact .watchDel _
  | watchList => exact .watchList
  | query => exact .query _ _ _

theorem poses_message {command : Command} {log : List LogRecord} {call : Call}
    {report : Answer → Printer Unit} (h : Poses command (.ask log call report)) :
    ∃ message, call.request = .ok message ∧ Json.Serializable message := by
  have hwords (ts : List Text) : Json.Serializable (Client.simpleCommand ts) := by
    refine .list ?_
    intro v hv
    obtain ⟨t, -, rfl⟩ := List.mem_map.mp hv
    exact .text
  cases h with
  | watch => exact ⟨_, rfl, hwords _⟩
  | watchDel => exact ⟨_, rfl, hwords _⟩
  | watchList => exact ⟨_, rfl, hwords _⟩
  | @query q e note mask hexpression hmask hnote =>
    have hwire := textual_serializable (Filters.expression_worded q.filters e hexpression)
    have hfields : Json.Serializable
        (.list ((Field.selected mask).map fun f => Value.text f.word)) := by
      refine .list ?_
      intro v hv
      obtain ⟨f, -, rfl⟩ := List.mem_map.mp hv
      exact .text
    have hoptions : Json.Serializable (.dict [(.text "expression", e.wire),
        (.text "fields", .list ((Field.selected mask).map fun f => Value.text f.word))]) := by
      refine .dict ?_ ?_
      · simp [Json.Nameable.text]
      · simp [hwire, hfields]
    exact ⟨_, rfl, .list (by simp [Json.Serializable.text, hoptions])⟩

end Command

/-! What an errand comes to. -/

namespace Errand

def action (s : Settings) : Errand → Action (Printer Unit)
  | .help => pure (pure ())
  | .locate => do
    let configured := s.sockname.getD []
    let path ←
      if configured.isEmpty then discover s.target.binary s.target.timeout else pure configured
    pure (Report.emit (path ++ ("\n" : Text)))
  | .ask log call report => do
    modify fun c => { c with log := c.log ++ log }
    report <$> visit s.target call.perform

inductive Achieved (s : Settings) (c : Client) : Errand → Printer Unit → Prop where
  | helped : Achieved s c .help (pure ())
  | configured {path} : s.sockname = some path → path ≠ [] →
      Achieved s c .locate (Report.emit (path ++ ("\n" : Text)))
  | discovered {path c'} : s.sockname.getD [] = [] →
      settle (discover s.target.binary s.target.timeout) c = (.ok path, c') →
      Achieved s c .locate (Report.emit (path ++ ("\n" : Text)))
  | answered {log call report answer} :
      Answered s.target call { c with log := c.log ++ log } answer →
      Achieved s c (.ask log call report) (report answer)

/-- The errands that fail outside the client's categories. -/
inductive Broken (s : Settings) (c : Client) : Errand → Prop where
  | undiscovered : s.sockname.getD [] = [] → Undiscovered s.target.binary c.host →
      Broken s c .locate
  | unanswered {log call report message} : call.request = .ok message →
      Breaking s { c with log := c.log ++ log } message → Broken s c (.ask log call report)

theorem map_eq_ok {ε : Type} {r : Except ε α} {f : α → β} {b : β} :
    r.map f = .ok b ↔ ∃ a, r = .ok a ∧ f a = b := by
  cases r <;> simp [Except.map]

theorem map_eq_error {ε : Type} {r : Except ε α} {f : α → β} {e : ε} :
    r.map f = .error e ↔ r = .error e := by
  cases r <;> simp [Except.map]

theorem settle_map (f : α → β) (x : Action α) (c : Client) :
    (settle (do let a ← x; pure (f a)) c).1 = (settle x c).1.map f := by
  rw [Client.settle_bind]
  rcases settle x c with ⟨e | a, c'⟩ <;> rfl

theorem ask_result (s : Settings) (log : List LogRecord) (call : Call)
    (report : Answer → Printer Unit) (c : Client) :
    (settle ((Errand.ask log call report).action s) c).1 =
      (settle (visit s.target call.perform) { c with log := c.log ++ log }).1.map report :=
  settle_map report _ _

theorem locate_configured {s : Settings} (h : s.sockname.getD [] ≠ []) (c : Client) :
    (settle (Errand.locate.action s) c).1 =
      .ok (Report.emit (s.sockname.getD [] ++ ("\n" : Text))) := by
  have hne : (s.sockname.getD []).isEmpty = false := by simpa using h
  rw [action]
  dsimp only
  rw [hne]
  rfl

theorem locate_discovering {s : Settings} (h : s.sockname.getD [] = []) (c : Client) :
    (settle (Errand.locate.action s) c).1 =
      (settle (discover s.target.binary s.target.timeout) c).1.map fun path =>
        Report.emit (path ++ ("\n" : Text)) := by
  rw [action, h]
  exact settle_map _ _ _

variable {s : Settings} {c : Client} {command : Command} {errand : Errand}

theorem locate_achieved (p : Printer Unit) :
    (settle (Errand.locate.action s) c).1 = .ok p ↔ Achieved s c .locate p := by
  -- A path that is configured but empty counts as none.
  by_cases hconfigured : s.sockname.getD [] = []
  · rw [locate_discovering hconfigured, map_eq_ok]
    constructor
    · rintro ⟨path, hpath, rfl⟩
      exact .discovered hconfigured (Prod.ext hpath rfl)
    · intro hp
      cases hp with
      | configured hpath hne =>
        rw [hpath] at hconfigured
        exact absurd hconfigured hne
      | discovered _ hdiscover => exact ⟨_, congrArg Prod.fst hdiscover, rfl⟩
  · rw [locate_configured hconfigured]
    constructor
    · rintro ⟨⟩
      obtain ⟨path, hpath⟩ : ∃ path, s.sockname = some path := by
        cases hsockname : s.sockname with
        | none => exact absurd (by rw [hsockname]; rfl) hconfigured
        | some path => exact ⟨path, rfl⟩
      rw [hpath] at hconfigured ⊢
      exact .configured hpath hconfigured
    · intro hp
      cases hp with
      | configured hpath _ =>
        rw [hpath]
        rfl
      | discovered hnone _ => exact absurd hnone hconfigured

theorem ask_achieved {log : List LogRecord} {call : Call} {report : Answer → Printer Unit}
    (h : call.Typed) (p : Printer Unit) :
    (settle ((Errand.ask log call report).action s) c).1 = .ok p ↔
      Achieved s c (.ask log call report) p := by
  have hanswered := Client.visit_answered h s.target { c with log := c.log ++ log }
  rw [ask_result, map_eq_ok]
  constructor
  · rintro ⟨answer, hvisit, rfl⟩
    exact .answered ((hanswered answer).mp hvisit)
  · intro hp
    cases hp with
    | answered ha => exact ⟨_, (hanswered _).mpr ha, rfl⟩

theorem action_achieved (h : Command.Poses command errand) (p : Printer Unit) :
    (settle (errand.action s) c).1 = .ok p ↔ Achieved s c errand p := by
  cases errand with
  | help =>
    constructor
    · rintro ⟨⟩
      exact .helped
    · rintro ⟨⟩
      rfl
  | locate => exact locate_achieved p
  | ask log call report => exact ask_achieved (Command.poses_typed h) p

theorem locate_broken :
    (∃ e, (settle (Errand.locate.action s) c).1 = .error e ∧ e.category? = none) ↔
      Broken s c .locate := by
  by_cases hconfigured : s.sockname.getD [] = []
  · have hdiscover := Client.discover_uncategorized s.target.binary s.target.timeout c
    simp only [locate_discovering hconfigured, map_eq_error]
    refine hdiscover.trans ⟨.undiscovered hconfigured, ?_⟩
    rintro ⟨-, hundiscovered⟩
    exact hundiscovered
  · rw [locate_configured hconfigured]
    refine iff_of_false ?_ ?_
    · rintro ⟨e, ⟨⟩, -⟩
    · rintro ⟨hnone, -⟩
      exact hconfigured hnone

theorem ask_broken {log : List LogRecord} {call : Call} {report : Answer → Printer Unit}
    {message : Value} (h : call.Typed) (hrequest : call.request = .ok message)
    (hmessage : Json.Serializable message) (hc : Client.Unconnected c) :
    (∃ e, (settle ((Errand.ask log call report).action s) c).1 = .error e ∧
      e.category? = none) ↔ Broken s c (.ask log call report) := by
  have hunconnected : Client.Unconnected { c with log := c.log ++ log } :=
    ⟨hc.isOpen, hc.creations, hc.closings⟩
  have hvisit := Client.visit_uncategorized h hrequest hmessage s hunconnected
  simp only [ask_result, map_eq_error]
  refine hvisit.trans ⟨.unanswered hrequest, ?_⟩
  intro hbroken
  cases hbroken with
  | unanswered hrequest' hbreaking =>
    rw [hrequest] at hrequest'
    cases hrequest'
    exact hbreaking

theorem action_broken (h : Command.Poses command errand) (hc : Client.Unconnected c) :
    (∃ e, (settle (errand.action s) c).1 = .error e ∧ e.category? = none) ↔ Broken s c errand := by
  cases errand with
  | help =>
    refine iff_of_false ?_ ?_
    · rintro ⟨e, ⟨⟩, -⟩
    · rintro ⟨⟩
  | locate => exact locate_broken
  | ask log call report =>
    obtain ⟨message, hrequest, hmessage⟩ := Command.poses_message h
    exact ask_broken (Command.poses_typed h) hrequest hmessage hc

end Errand

end FileWatch
