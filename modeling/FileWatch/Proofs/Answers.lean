import FileWatch.Proofs.Lists
import FileWatch.Proofs.Replies
/-!
Answers to queries. An answer is accepted exactly if it has the documented shape, and is then taken
over slot by slot. Otherwise the error names the first of its faults: those of the files, item by
item, come before those of the other fields. An error has a category unless the part that it is to
show holds an integer over the limit.
-/

namespace FileWatch.Reply

open FileWatch.Json (Decoded HoldsLong JsonValue)
open FileWatch.Value (lookup?)

variable {α β : Type}

/-! The documented shape. -/

def IntegerIfPresent (slot : Option Value) : Prop := ∀ v, slot = some v → ∃ n, v = .int n

inductive DocumentedFile : Value → Prop where
  | name {t} : DocumentedFile (.text t)
  | object {es t} : lookup? "name" es = some (.text t) → IntegerIfPresent (lookup? "mode" es) →
      IntegerIfPresent (lookup? "size" es) → DocumentedFile (.dict es)

inductive Documented : Value → Prop where
  | object {es items version clock fresh} : lookup? "error" es = none →
      lookup? "files" es = some (.list items) → (∀ item ∈ items, DocumentedFile item) →
      lookup? "version" es = some (.text version) → lookup? "clock" es = some (.text clock) →
      lookup? "is_fresh_instance" es = some (.bool fresh) → Documented (.dict es)

def Refuses (v : Value) : Prop := ∃ es reason, v = .dict es ∧ lookup? "error" es = some reason

/-! What is taken over. -/

inductive IntegerOf : Option Value → Int → Prop where
  | missing : IntegerOf none 0
  | present {n} : IntegerOf (some (.int n)) n

inductive FileOf : Value → FileRecord → Prop where
  | name {t} : FileOf (.text t) { name := t }
  | object {es file} : lookup? "name" es = some (.text file.name) →
      IntegerOf (lookup? "mode" es) file.mode → IntegerOf (lookup? "size" es) file.size →
      (file.existing = true ↔ lookup? "exists" es = some (.bool true)) →
      (file.isNew = true ↔ lookup? "new" es = some (.bool true)) → FileOf (.dict es) file

inductive AnswerOf : Value → QueryAnswer → Prop where
  | object {es items answer} : lookup? "error" es = none →
      lookup? "files" es = some (.list items) → List.Forall₂ FileOf items answer.files →
      lookup? "version" es = some (.text answer.version) →
      lookup? "clock" es = some (.text answer.clock) →
      lookup? "is_fresh_instance" es = some (.bool answer.isFreshInstance) →
      AnswerOf (.dict es) answer

/-! The faults. -/

def holdsText : Option Value → Bool
  | some (.text _) => true
  | _ => false

def holdsTruth : Option Value → Bool
  | some (.bool _) => true
  | _ => false

def holdsInteger : Option Value → Bool
  | none | some (.int _) => true
  | _ => false

structure Fault where
  expected : Shape
  part : Value

def unfit (expected : Shape) (part : Value) (fits : Bool) : List Fault :=
  if fits then [] else [⟨expected, part⟩]

def fileFaults (item : Value) : List Fault :=
  match item with
  | .text _ => []
  | .dict es => unfit .fileName item (holdsText (lookup? "name" es)) ++
      (unfit .fileMode item (holdsInteger (lookup? "mode" es)) ++
        unfit .fileSize item (holdsInteger (lookup? "size" es)))
  | _ => [⟨.file, item⟩]

/-- Everything that is wrong with an answer, in the order in which it is looked at. -/
def answerFaults (reply : Value) : List Fault :=
  match reply with
  | .dict es =>
    (match lookup? "files" es with
      | some (.list items) => items.flatMap fileFaults
      | _ => [⟨.files, field "files" es⟩]) ++
    (unfit .version (field "version" es) (holdsText (lookup? "version" es)) ++
      (unfit .clock (field "clock" es) (holdsText (lookup? "clock" es)) ++
        unfit .freshness (field "is_fresh_instance" es)
          (holdsTruth (lookup? "is_fresh_instance" es))))
  | _ => [⟨.reply "query", reply⟩]

/-- A step of decoding that finds no fault and gives what it should, or ends with the first fault.
-/
inductive Reported (P : α → Prop) (faults : List Fault) : Except Error α → Prop where
  | ok {a} : P a → faults = [] → Reported P faults (.ok a)
  | error {fault} : faults.head? = some fault →
      Reported P faults (.error (misshapen fault.expected fault.part))

theorem Reported.bind {P : α → Prop} {Q : β → Prop} {faults later : List Fault}
    {x : Except Error α} {f : α → Except Error β} (hx : Reported P faults x)
    (hf : ∀ a, P a → Reported Q later (f a)) : Reported Q (faults ++ later) (x >>= f) := by
  cases hx with
  | ok ha hnone =>
    rw [hnone, List.nil_append]
    exact hf _ ha
  | error hfirst =>
    refine .error ?_
    rw [List.head?_append, hfirst, Option.some_or]

theorem reported_misshapen {P : α → Prop} (expected : Shape) (v : Value) {later : List Fault} :
    Reported P (⟨expected, v⟩ :: later) (.error (misshapen expected v)) :=
  @Reported.error _ P _ ⟨expected, v⟩ rfl

theorem reported_mapM {R : α → β → Prop} {faults : α → List Fault} {f : α → Except Error β}
    {items : List α} (h : ∀ a ∈ items, Reported (R a) (faults a) (f a)) :
    Reported (List.Forall₂ R items) (items.flatMap faults) (items.mapM f) := by
  induction items with
  | nil => exact .ok .nil rfl
  | cons a items ih =>
    rw [List.mapM_cons, List.flatMap_cons]
    refine (h a List.mem_cons_self).bind ?_
    intro b hb
    rw [← List.append_nil (items.flatMap faults)]
    refine (ih fun a' ha' => h a' (List.mem_cons_of_mem a ha')).bind ?_
    intro bs hbs
    exact .ok (.cons hb hbs) rfl

/-! What the reading of a slot finds. -/

section

variable (name : String) (expected : Shape) {es : List (Value × Value)} {Q : β → Prop}
  {later : List Fault}

/-- A text is read from a slot and taken on to what comes next. -/
theorem textField_reported {next : Text → Except Error β}
    (hnext : ∀ t, lookup? name es = some (.text t) → Reported Q later (next t)) :
    Reported Q (unfit expected (field name es) (holdsText (lookup? name es)) ++ later)
      (match field name es with
        | .text t => pure t >>= next
        | v => throw (misshapen expected v) >>= next) := by
  rw [field]
  cases hslot : lookup? name es with
  | none => exact reported_misshapen expected .null
  | some v =>
    cases v with
    | text t => exact hnext t hslot
    | _ => exact reported_misshapen expected _

theorem truthField_reported {next : Bool → Except Error β}
    (hnext : ∀ b, lookup? name es = some (.bool b) → Reported Q later (next b)) :
    Reported Q (unfit expected (field name es) (holdsTruth (lookup? name es)) ++ later)
      (match field name es with
        | .bool b => pure b >>= next
        | v => throw (misshapen expected v) >>= next) := by
  rw [field]
  cases hslot : lookup? name es with
  | none => exact reported_misshapen expected .null
  | some v =>
    cases v with
    | bool b => exact hnext b hslot
    | _ => exact reported_misshapen expected _

end

theorem integer_some {name : String} {es : List (Value × Value)} {n : Int} :
    integer name es = some n ↔ IntegerOf (lookup? name es) n := by
  rw [integer]
  constructor
  · intro h
    cases hslot : lookup? name es with
    | none =>
      rw [hslot] at h
      cases h
      exact .missing
    | some v =>
      rw [hslot] at h
      cases v with
      | int m =>
        cases h
        exact .present
      | _ => cases h
  · intro h
    generalize lookup? name es = slot at h
    cases h <;> rfl

theorem integer_none {name : String} {es : List (Value × Value)} (h : integer name es = none) :
    holdsInteger (lookup? name es) = false := by
  rw [integer] at h
  cases hslot : lookup? name es with
  | none =>
    rw [hslot] at h
    cases h
  | some v =>
    rw [hslot] at h
    cases v with
    | int m => cases h
    | _ => rfl

theorem flag_true {name : String} {es : List (Value × Value)} :
    flag name es = true ↔ lookup? name es = some (.bool true) := by
  rw [flag]
  cases hslot : lookup? name es with
  | none => simp
  | some v => cases v <;> simp

theorem holdsInteger_of {slot : Option Value} {n : Int} (h : IntegerOf slot n) :
    holdsInteger slot = true := by
  cases h <;> rfl

theorem fileRecord_reported (item : Value) :
    Reported (FileOf item) (fileFaults item) (fileRecord item) := by
  cases item with
  | text => exact .ok .name rfl
  | dict es =>
    rw [fileRecord, fileFaults, field]
    cases hname : lookup? "name" es with
    | none => exact reported_misshapen .fileName _
    | some name =>
      cases name with
      | text name =>
        dsimp only [Option.getD_some]
        cases hmode : integer "mode" es with
        | none =>
          rw [integer_none hmode]
          exact reported_misshapen .fileMode _
        | some mode =>
          have hmode := integer_some.mp hmode
          rw [holdsInteger_of hmode]
          cases hsize : integer "size" es with
          | none =>
            rw [integer_none hsize]
            exact reported_misshapen .fileSize _
          | some size =>
            have hsize := integer_some.mp hsize
            rw [holdsInteger_of hsize]
            exact .ok (.object hname hmode hsize flag_true flag_true) rfl
      | _ => exact reported_misshapen .fileName _
  | _ => exact reported_misshapen .file _

/-! The whole answer. -/

theorem filesField_reported {es : List (Value × Value)} (h : JsonValue (.dict es)) {Q : β → Prop}
    {later : List Fault} {next : List FileRecord → Except Error β}
    (hnext : ∀ items files, lookup? "files" es = some (.list items) →
      List.Forall₂ FileOf items files → Reported Q later (next files)) :
    Reported Q
      ((match lookup? "files" es with
        | some (.list items) => items.flatMap fileFaults
        | _ => [⟨.files, field "files" es⟩]) ++ later)
      (match field "files" es with
        | .list items => (Value.ownItems items).mapM fileRecord >>= next
        | v => throw (misshapen .files v) >>= next) := by
  rw [field]
  cases hslot : lookup? "files" es with
  | none => exact reported_misshapen .files .null
  | some v =>
    cases v with
    | list items =>
      have hlist := json_inherited.lookup h hslot
      dsimp only [Option.getD_some]
      rw [Json.ownItems_json fun item hmem => json_inherited.item hlist hmem]
      have hitems := reported_mapM fun item (_ : item ∈ items) => fileRecord_reported item
      exact hitems.bind fun files hfiles => hnext items files hslot hfiles
    | _ => exact reported_misshapen .files _

theorem queryAnswer_reported {v : Value} (h : JsonValue v) (hallowed : ¬ Refuses v) :
    Reported (AnswerOf v) (answerFaults v) (queryAnswer v) := by
  have hv := h
  cases h with
  | null | bool | int | float | text | list _ => exact reported_misshapen (.reply "query") _
  | @dict es _ _ =>
    have hnone : lookup? "error" es = none := by
      by_contra hreason
      obtain ⟨reason, hreason⟩ := Option.ne_none_iff_exists'.mp hreason
      exact hallowed ⟨es, reason, rfl, hreason⟩
    rw [queryAnswer, envelope_accepts "query" hv hnone]
    -- Each field's fault stands in front of those of the fields behind it.
    refine filesField_reported hv ?_
    intro items files hfiles hitems
    refine textField_reported "version" .version ?_
    intro version hversion
    refine textField_reported "clock" .clock ?_
    intro clock hclock
    rw [← List.append_nil (unfit .freshness _ _)]
    refine truthField_reported "is_fresh_instance" .freshness ?_
    intro fresh hfresh
    exact .ok (.object hnone hfiles hitems hversion hclock hfresh) rfl

/-! The parts at fault. -/

def Tells (P : Value → Prop) (fault : Fault) : Prop := fault.expected.Named ∧ P fault.part

theorem unfit_tells {P : Value → Prop} (expected : Shape) (hnamed : expected.Named) {part : Value}
    (h : P part) (fits : Bool) : ∀ fault ∈ unfit expected part fits, Tells P fault := by
  intro fault hfault
  cases fits with
  | true => cases hfault
  | false =>
    rw [List.mem_singleton.mp hfault]
    exact ⟨hnamed, h⟩

theorem fileFaults_tells {P : Value → Prop} {item : Value} (h : P item) :
    ∀ fault ∈ fileFaults item, Tells P fault := by
  unfold fileFaults
  split
  · exact nofun
  · rw [List.forall_mem_append, List.forall_mem_append]
    exact ⟨unfit_tells .fileName trivial h _,
      unfit_tells .fileMode trivial h _,
      unfit_tells .fileSize trivial h _⟩
  · exact List.forall_mem_singleton.mpr ⟨trivial, h⟩

/-- What is shown of an answer is a part of it, or the null that stands for a part that is missing.
-/
theorem answerFaults_tells {P : Value → Prop} (hP : Inherited P) {v : Value} (h : P v) :
    ∀ fault ∈ answerFaults v, Tells P fault := by
  unfold answerFaults
  split
  · rename_i es
    have hfield (name : String) : P (field name es) := hP.field name h
    rw [List.forall_mem_append, List.forall_mem_append, List.forall_mem_append]
    refine ⟨?_, unfit_tells .version trivial (hfield _) _,
      unfit_tells .clock trivial (hfield _) _,
      unfit_tells .freshness trivial (hfield _) _⟩
    split
    · rename_i items hitems
      have hlist := hP.lookup h hitems
      intro fault hfault
      obtain ⟨item, hmem, hfault⟩ := List.mem_flatMap.mp hfault
      exact fileFaults_tells (hP.item hlist hmem) fault hfault
    · exact List.forall_mem_singleton.mpr ⟨trivial, hfield _⟩
  · exact List.forall_mem_singleton.mpr ⟨rfl, h⟩

/-- The part of a reply that its error shows: the reason of a refusal, or the first part at fault.
-/
def Cites (v part : Value) : Prop :=
  (∃ es, v = .dict es ∧ lookup? "error" es = some part) ∨
    ¬ Refuses v ∧ ∃ expected, (answerFaults v).head? = some ⟨expected, part⟩

/-- How an answer that is not accepted comes out, by the part that is to be shown. -/
theorem queryAnswer_cites {v : Value} (h : JsonValue v) {part : Value} (hcites : Cites v part) :
    (HoldsLong part → ∃ e, queryAnswer v = .error (.tooLong e)) ∧
      (¬ HoldsLong part → (Refuses v → ∃ t, queryAnswer v = .error (.refused "query" t)) ∧
        (¬ Refuses v → ∃ expected message, (answerFaults v).head? = some ⟨expected, part⟩ ∧
          queryAnswer v = .error (.shape expected message))) := by
  rcases hcites with ⟨es, rfl, hreason⟩ | ⟨hallowed, expected, hfirst⟩
  · constructor
    · intro hlong
      obtain ⟨e, he⟩ := envelope_long "query" h hreason hlong
      exact ⟨e, by rw [queryAnswer, he]; rfl⟩
    · intro hshort
      refine ⟨fun _ => ?_, fun hallowed => absurd ⟨es, part, rfl, hreason⟩ hallowed⟩
      obtain ⟨t, ht⟩ := envelope_refuses "query" h hreason hshort
      exact ⟨t, by rw [queryAnswer, ht]; rfl⟩
  · have hmem : ⟨expected, part⟩ ∈ answerFaults v := List.mem_of_head? hfirst
    obtain ⟨hnamed, hpart⟩ := answerFaults_tells json_inherited h _ hmem
    have herror : queryAnswer v = .error (misshapen expected part) := by
      have hreported := queryAnswer_reported h hallowed
      generalize queryAnswer v = result at hreported
      cases hreported with
      | ok _ hnone =>
        rw [hnone] at hfirst
        cases hfirst
      | error hfault =>
        obtain rfl := Option.some.inj (hfault.symm.trans hfirst)
        rfl
    rw [herror]
    constructor
    · intro hlong
      obtain ⟨e, he⟩ := misshapen_long expected hlong
      exact ⟨e, by rw [he]⟩
    · intro hshort
      obtain ⟨message, hmessage⟩ := misshapen_shape expected hnamed (hpart.decoded hshort)
      exact ⟨fun hrefuses => absurd hrefuses hallowed,
        fun _ => ⟨expected, message, hfirst, by rw [hmessage]⟩⟩

/-! What has the documented shape is accepted. -/

theorem fileRecord_accepts {v : Value} {file : FileRecord} (h : FileOf v file) :
    fileRecord v = .ok file := by
  cases h with
  | name => rfl
  | @object es _ hname hmode hsize hexists hnew =>
    have hexisting : flag "exists" es = file.existing :=
      Bool.eq_iff_iff.mpr (flag_true.trans hexists.symm)
    have hisNew : flag "new" es = file.isNew := Bool.eq_iff_iff.mpr (flag_true.trans hnew.symm)
    rw [fileRecord, field, hname, integer_some.mpr hmode, integer_some.mpr hsize, hexisting, hisNew]
    rfl

theorem queryAnswer_accepts {v : Value} (hv : JsonValue v) {answer : QueryAnswer}
    (h : AnswerOf v answer) : queryAnswer v = .ok answer := by
  cases h with
  | @object es items _ hnone hfiles hitems hversion hclock hfresh =>
    have hlist := json_inherited.lookup hv hfiles
    have hown := Json.ownItems_json fun item hmem => json_inherited.item hlist hmem
    have hrecords := mapM_ok.mpr (hitems.imp fun _ _ => fileRecord_accepts)
    rw [queryAnswer, envelope_accepts "query" hv hnone]
    simp only [bind, Except.bind, pure, Except.pure, field, hfiles, hversion, hclock, hfresh,
      Option.getD_some, hown, hrecords]

theorem integerOf_of_present {slot : Option Value} (h : IntegerIfPresent slot) :
    ∃ n, IntegerOf slot n := by
  cases slot with
  | none => exact ⟨0, .missing⟩
  | some v =>
    obtain ⟨n, rfl⟩ := h v rfl
    exact ⟨n, .present⟩

theorem IntegerOf.ifPresent {slot : Option Value} {n : Int} (h : IntegerOf slot n) :
    IntegerIfPresent slot := by
  cases h with
  | missing =>
    intro v hv
    cases hv
  | present =>
    rintro v ⟨⟩
    exact ⟨_, rfl⟩

theorem documentedFile_iff {v : Value} : DocumentedFile v ↔ ∃ file, FileOf v file := by
  constructor
  · intro h
    cases h with
    | @name t => exact ⟨{ name := t }, .name⟩
    | @object es t hname hmode hsize =>
      obtain ⟨mode, hmode⟩ := integerOf_of_present hmode
      obtain ⟨size, hsize⟩ := integerOf_of_present hsize
      exact ⟨⟨t, flag "exists" es, mode, flag "new" es, size⟩,
        .object hname hmode hsize flag_true flag_true⟩
  · rintro ⟨file, h⟩
    cases h with
    | name => exact .name
    | object hname hmode hsize _ _ => exact .object hname hmode.ifPresent hsize.ifPresent

theorem documented_iff {v : Value} : Documented v ↔ ∃ answer, AnswerOf v answer := by
  constructor
  · intro h
    cases h with
    | @object es items version clock fresh hnone hfiles hitems hversion hclock hfresh =>
      obtain ⟨files, hrecords⟩ :=
        exists_forall₂.mp fun item hmem => documentedFile_iff.mp (hitems item hmem)
      exact ⟨⟨files, version, clock, fresh⟩, .object hnone hfiles hrecords hversion hclock hfresh⟩
  · rintro ⟨answer, h⟩
    cases h with
    | object hnone hfiles hrecords hversion hclock hfresh =>
      refine .object hnone hfiles ?_ hversion hclock hfresh
      intro item hmem
      exact documentedFile_iff.mpr (exists_forall₂.mpr ⟨_, hrecords⟩ item hmem)

theorem queryAnswer_ok {v : Value} (h : JsonValue v) {answer : QueryAnswer} :
    queryAnswer v = .ok answer ↔ AnswerOf v answer := by
  refine ⟨?_, queryAnswer_accepts h⟩
  intro hanswer
  have hallowed : ¬ Refuses v := by
    rintro ⟨es, reason, hes, hreason⟩
    obtain ⟨hlong, hshort⟩ := queryAnswer_cites h (Or.inl ⟨es, hes, hreason⟩)
    by_cases hholds : HoldsLong reason
    · obtain ⟨e, he⟩ := hlong hholds
      rw [he] at hanswer
      cases hanswer
    · obtain ⟨t, ht⟩ := (hshort hholds).1 ⟨es, reason, hes, hreason⟩
      rw [ht] at hanswer
      cases hanswer
  have hreported := queryAnswer_reported h hallowed
  rw [hanswer] at hreported
  cases hreported with
  | ok hfits _ => exact hfits

/-- An answer that is not accepted has a part that its error is to show. -/
theorem queryAnswer_error {v : Value} (h : JsonValue v) {e : Error}
    (he : queryAnswer v = .error e) : ∃ part, Cites v part := by
  by_cases hrefuses : Refuses v
  · obtain ⟨es, reason, hes, hreason⟩ := hrefuses
    exact ⟨reason, Or.inl ⟨es, hes, hreason⟩⟩
  · have hreported := queryAnswer_reported h hrefuses
    rw [he] at hreported
    generalize hresult : (.error e : Except Error QueryAnswer) = result at hreported
    cases hreported with
    | ok => cases hresult
    | @error fault hfirst => exact ⟨fault.part, Or.inr ⟨hrefuses, fault.expected, hfirst⟩⟩

/-- The three ways in which an answer is not accepted. -/
inductive Unaccepted (v : Value) : Error → Prop where
  | long {part e} : Cites v part → HoldsLong part → Unaccepted v (.tooLong e)
  | refused {reason} : Refuses v → Unaccepted v (.refused "query" reason)
  | shape {expected part message} : ¬ Refuses v →
      (answerFaults v).head? = some ⟨expected, part⟩ → Unaccepted v (.shape expected message)

theorem queryAnswer_unaccepted {v : Value} (h : JsonValue v) {e : Error}
    (he : queryAnswer v = .error e) : Unaccepted v e := by
  obtain ⟨part, hcites⟩ := queryAnswer_error h he
  obtain ⟨hlong, hshort⟩ := queryAnswer_cites h hcites
  by_cases hholds : HoldsLong part
  · obtain ⟨_, htooLong⟩ := hlong hholds
    rw [htooLong] at he
    cases he
    exact .long hcites hholds
  obtain ⟨hrefused, hshape⟩ := hshort hholds
  by_cases hrefuses : Refuses v
  · obtain ⟨_, hreason⟩ := hrefused hrefuses
    rw [hreason] at he
    cases he
    exact .refused hrefuses
  · obtain ⟨_, _, hfirst, hmessage⟩ := hshape hrefuses
    rw [hmessage] at he
    cases he
    exact .shape hrefuses hfirst

theorem cites_decoded {v part : Value} (h : Decoded v) (hcites : Cites v part) : Decoded part := by
  rcases hcites with ⟨es, rfl, hreason⟩ | ⟨-, expected, hfirst⟩
  · exact decoded_inherited.lookup h hreason
  · exact (answerFaults_tells decoded_inherited h _ (List.mem_of_head? hfirst)).2

/-- Every answer that was read decodes or gets a verdict. -/
theorem queryAnswer_judged {v : Value} (h : Decoded v) :
    Judged (fun _ => True) (queryAnswer v) := by
  cases hresult : queryAnswer v with
  | ok answer => exact .ok trivial
  | error e =>
    refine .error ?_
    cases queryAnswer_unaccepted h.json hresult with
    | long hcites hholds => exact absurd hholds (cites_decoded h hcites).short
    | refused _ => exact verdict_refused "query" _
    | shape _ _ => exact verdict_shape _ _

/-- An answer of the documented shape is taken over as a whole, whatever value of JSON the reply is.
A refusal is told apart from the other replies, and of those that are left the error names the first
fault. But where the part that the error is to show holds an integer over the limit, the error has
no category. -/
theorem queryAnswer_exact {v : Value} (h : JsonValue v) :
    ((∃ answer, queryAnswer v = .ok answer) ↔ Documented v) ∧
      (∀ answer, queryAnswer v = .ok answer ↔ AnswerOf v answer) ∧
      ((∃ e, queryAnswer v = .error e ∧ (Failure.reply e).category? = some .command) ↔
        Refuses v ∧ ∀ part, Cites v part → ¬ HoldsLong part) ∧
      (¬ Documented v → ¬ Refuses v → ∃ e fault, queryAnswer v = .error e ∧
        (answerFaults v).head? = some fault ∧ (¬ HoldsLong fault.part →
          (Failure.reply e).category? = some .responseShape ∧
            (Failure.reply e).field? = fault.expected.field?)) ∧
      ((∃ e, queryAnswer v = .error e ∧ (Failure.reply e).category? = none) ↔
        ∃ part, Cites v part ∧ HoldsLong part) := by
  have haccepted : (∃ answer, queryAnswer v = .ok answer) ↔ Documented v :=
    (exists_congr fun _ => queryAnswer_ok h).trans documented_iff.symm
  refine ⟨haccepted, fun _ => queryAnswer_ok h, ⟨?_, ?_⟩, ?_, ⟨?_, ?_⟩⟩
  · rintro ⟨e, he, hcategory⟩
    cases queryAnswer_unaccepted h he with
    | long _ _ => cases hcategory
    | shape _ _ => cases hcategory
    | refused hrefuses =>
      refine ⟨hrefuses, fun part hcites hlong => ?_⟩
      obtain ⟨_, htooLong⟩ := (queryAnswer_cites h hcites).1 hlong
      rw [htooLong] at he
      cases he
  · rintro ⟨hrefuses, hshort⟩
    obtain ⟨es, reason, hes, hreason⟩ := hrefuses
    have hcites : Cites v reason := Or.inl ⟨es, hes, hreason⟩
    obtain ⟨hrefused, -⟩ := (queryAnswer_cites h hcites).2 (hshort reason hcites)
    obtain ⟨t, ht⟩ := hrefused ⟨es, reason, hes, hreason⟩
    exact ⟨_, ht, rfl⟩
  · intro hundocumented hallowed
    cases hresult : queryAnswer v with
    | ok answer => exact absurd (haccepted.mp ⟨answer, hresult⟩) hundocumented
    | error e =>
      cases queryAnswer_unaccepted h hresult with
      | refused hrefuses => exact absurd hrefuses hallowed
      | shape _ hfirst => exact ⟨_, _, rfl, hfirst, fun _ => ⟨rfl, rfl⟩⟩
      | long hcites hlong =>
        rcases hcites with ⟨es, hes, hreason⟩ | ⟨-, expected, hfirst⟩
        · exact absurd ⟨es, _, hes, hreason⟩ hallowed
        · exact ⟨_, _, rfl, hfirst, fun hshort => absurd hlong hshort⟩
  · rintro ⟨e, he, hcategory⟩
    cases queryAnswer_unaccepted h he with
    | refused _ => cases hcategory
    | shape _ _ => cases hcategory
    | @long part _ hcites hlong => exact ⟨part, hcites, hlong⟩
  · rintro ⟨part, hcites, hlong⟩
    obtain ⟨e, he⟩ := (queryAnswer_cites h hcites).1 hlong
    exact ⟨_, he, rfl⟩

/-- A mode that is a truth value is found before the size that is null, the list among the files
and the missing version. -/
theorem first_fault_is_mode :
    let file : Value := .dict [(.text "size", .null), (.text "mode", .bool true),
      (.text "name", .text "b")]
    let reply : Value := .dict [(.text "files", .list [.text "a", file, .list []])]
    ∃ e, queryAnswer reply = .error e ∧ (Failure.reply e).category? = some .responseShape ∧
      (Failure.reply e).field? = some "mode" := by
  intro file reply
  have hfile : Decoded file :=
    .dict (by simp) (by simp [Decoded.null, Decoded.bool, Decoded.text])
  have hitems : Decoded (.list [.text "a", file, .list []]) :=
    .list (by simp [Decoded.text, hfile, Decoded.list])
  have hreply : Decoded reply := .dict (by simp) (by simpa using hitems)
  have hundocumented : ¬ Documented reply := by
    intro hdocumented
    dsimp only [reply] at hdocumented
    cases hdocumented with
    | object _ _ _ hversion _ _ => cases hversion
  have hallowed : ¬ Refuses reply := by
    rintro ⟨es, reason, hes, hreason⟩
    obtain rfl := Value.dict.inj hes
    cases hreason
  obtain ⟨e, fault, herror, hfirst, hverdict⟩ :=
    (queryAnswer_exact hreply.json).2.2.2.1 hundocumented hallowed
  have hmode : (answerFaults reply).head? = some ⟨.fileMode, file⟩ := rfl
  rw [hmode] at hfirst
  cases hfirst
  obtain ⟨hcategory, hfield⟩ := hverdict hfile.short
  exact ⟨e, herror, hcategory, hfield⟩

/-- The reason of a refusal is an integer with one digit too many. -/
theorem long_reason_uncategorized :
    let reply : Value := .dict [(.text "error", .int (10 ^ Numeral.digitLimit))]
    JsonValue reply ∧ Refuses reply ∧
      ∃ e, queryAnswer reply = .error e ∧ (Failure.reply e).category? = none := by
  intro reply
  have hreply : JsonValue reply := .dict (by simp) (by simp [JsonValue.int])
  have hlong : HoldsLong (.int (10 ^ Numeral.digitLimit)) :=
    .int (by simp [Int.natAbs_pow])
  have hcites : Cites reply (.int (10 ^ Numeral.digitLimit)) := Or.inl ⟨_, rfl, rfl⟩
  obtain ⟨e, he⟩ := (queryAnswer_cites hreply hcites).1 hlong
  exact ⟨hreply, ⟨_, _, rfl, rfl⟩, _, he, rfl⟩

end FileWatch.Reply
