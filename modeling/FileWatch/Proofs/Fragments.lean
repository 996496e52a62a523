import FileWatch.Proofs.Answers
import FileWatch.Proofs.Json.Longest
import FileWatch.Proofs.Json.Members
import FileWatch.Proofs.Lists
import FileWatch.Proofs.Messages
/-!
What the message of an error of shape shows. It ends with the JSON text of the part of the reply at
fault, and that text reads back as that part: none is too long or of a kind that cannot be written,
and a lone surrogate stands for itself. Floats alone are left out.
-/

namespace FileWatch

namespace Json

inductive FloatFree : Value → Prop where
  | null : FloatFree .null
  | bool {b} : FloatFree (.bool b)
  | int {n} : FloatFree (.int n)
  | text {t} : FloatFree (.text t)
  | list {vs} : (∀ v ∈ vs, FloatFree v) → FloatFree (.list vs)
  | dict {es} : (∀ e ∈ es, FloatFree e.2) → FloatFree (.dict es)

def PartWritable : Part → Prop
  | .value v => FloatFree v → Writable v
  | .items vs => ∀ v ∈ vs, FloatFree v → Writable v
  | .member _ v => FloatFree v → Writable v
  | .members ms => ∀ m ∈ ms, FloatFree m.2 → Writable m.2

theorem decoded_scalar_writable {v : Value} (h : Decoded v) (hlist : ∀ vs, v ≠ .list vs)
    (hdict : ∀ es, v ≠ .dict es) (hfree : FloatFree v) : Writable v := by
  cases h with
  | null => exact .null
  | bool => exact .bool
  | int hn => exact .int hn
  | float => cases hfree
  | text => exact .text
  | list _ => exact absurd rfl (hlist _)
  | dict _ _ => exact absurd rfl (hdict _)

theorem collect_writable {ms : List (Text × Value)}
    (h : ∀ m ∈ ms, FloatFree m.2 → Writable m.2) (hfree : FloatFree (.dict (collect ms))) :
    Writable (.dict (collect ms)) := by
  cases hfree with
  | dict hfree =>
    refine .dict (fun e he => ?_) (collect_nodup ms) fun e he => ?_
    · obtain ⟨m, -, rfl⟩ := mem_collect he
      exact ⟨m.1, rfl⟩
    · have hvalue := hfree e he
      obtain ⟨m, hm, rfl⟩ := mem_collect he
      exact h m hm hvalue

theorem spells_writable {s : Text} {p : Part} (h : Spells s p) : PartWritable p := by
  induction h with
  | @word w v hw =>
    have hscalar : (∀ vs, v ≠ .list vs) ∧ ∀ es, v ≠ .dict es := by
      simp only [words, List.mem_cons, Prod.mk.injEq, List.not_mem_nil, or_false] at hw
      rcases hw with ⟨-, rfl⟩ | ⟨-, rfl⟩ | ⟨-, rfl⟩ | ⟨-, rfl⟩ | ⟨-, rfl⟩ | ⟨-, rfl⟩ <;> simp
    exact decoded_scalar_writable (word_decoded hw) hscalar.1 hscalar.2
  | @number s v hn =>
    have hdecoded : Decoded v := spells_decoded (.number hn)
    have hscalar : (∀ vs, v ≠ .list vs) ∧ ∀ es, v ≠ .dict es := by
      cases hn with
      | positive h | negative h => cases h <;> simp
    exact decoded_scalar_writable hdecoded hscalar.1 hscalar.2
  | string _ => exact fun _ => .text
  | emptyList _ => exact fun _ => .list (by simp)
  | list _ _ ih =>
    intro hfree
    cases hfree with
    | list hfree => exact .list fun v hv => ih v hv (hfree v hv)
  | emptyDict _ => exact fun _ => .dict (by simp) List.nodup_nil (by simp)
  | dict _ _ ih => exact collect_writable ih
  | lastItem _ _ ih =>
    intro v hv
    obtain rfl := List.mem_singleton.mp hv
    exact ih
  | item _ _ _ _ ih ih' => exact List.forall_mem_cons.mpr ⟨ih, ih'⟩
  | member _ _ _ _ ih => exact ih
  | lastMember _ _ ih =>
    intro m hm
    obtain rfl := List.mem_singleton.mp hm
    exact ih
  | moreMembers _ _ _ _ ih ih' => exact List.forall_mem_cons.mpr ⟨ih, ih'⟩

theorem receivedItems_same {vs : List Value} (h : ∀ v ∈ vs, received v = v) :
    receivedItems vs = vs := by
  induction vs with
  | nil => rfl
  | cons v vs ih => rw [receivedItems, h v (by simp), ih fun u hu => h u (by simp [hu])]

theorem receivedEntries_same {es : List (Value × Value)} (h : ∀ e ∈ es, received e.2 = e.2) :
    receivedEntries es = es := by
  induction es with
  | nil => rfl
  | cons e es ih => rw [receivedEntries, h e (by simp), ih fun u hu => h u (by simp [hu])]

/-- What was read holds no tuple, and comes back as it is. -/
theorem received_decoded {v : Value} (h : Decoded v) : received v = v := by
  induction h with
  | null | bool | int _ | float | text => rfl
  | list _ ih => rw [received, receivedItems_same ih]
  | dict _ _ ih => rw [received, receivedEntries_same ih]

end Json

namespace Reply

open FileWatch.Json (Decoded DecodedEntries FloatFree Writable)
open FileWatch.Value (lookup?)

variable {α β : Type}

structure Quotable (v : Value) : Prop where
  decoded : Decoded v
  writable : Writable v

theorem document_quotable {s : Text} {v : Value} (h : Json.Document s v) (hfree : FloatFree v) :
    Quotable v := ⟨Json.document_decoded h, Json.spells_writable h hfree⟩

theorem quotable_inherited : Inherited Quotable := by
  refine ⟨⟨.null, .null⟩, fun ⟨hdecoded, hwritable⟩ hv => ?_, fun ⟨hdecoded, hwritable⟩ he => ?_⟩
  · cases hwritable with
    | list hwritable => exact ⟨decoded_inherited.item hdecoded hv, hwritable _ hv⟩
  · cases hwritable with
    | dict _ _ hwritable => exact ⟨decoded_inherited.entry hdecoded he, hwritable _ he⟩

theorem Quotable.item {vs : List Value} (h : Quotable (.list vs)) :
    ∀ v ∈ vs, Quotable v := fun _ hv => quotable_inherited.item h hv

theorem Quotable.field {es : List (Value × Value)} (h : Quotable (.dict es)) (name : String) :
    Quotable (field name es) := quotable_inherited.field name h

/-- The message is made of a fixed text and the JSON text of the part, which reads back as that
part and nothing else. -/
def Quotes (expected : Shape) (part : Value) (message : Text) : Prop :=
  ∃ lead text, expected.template = lead ++ ("%s" : Text) ∧ message = lead ++ text ∧
    Json.encode .spaced part = .ok text ∧ Json.document text = .ok (part, [])

theorem misshapen_quotes (expected : Shape) (hnamed : expected.Named) {v : Value}
    (h : Quotable v) :
    ∃ message, misshapen expected v = .shape expected message ∧ Quotes expected v message := by
  obtain ⟨text, htext, hdocument⟩ := Json.writable_written Json.spaced_spacing h.writable 0
  rw [Json.received_decoded h.decoded] at hdocument
  have hread := @Json.document_complete text [] v hdocument fun _ => Json.numberStops_nil
  obtain ⟨lead, hlead, htemplate⟩ := template_marked hnamed
  have hfragment : fragment v = .ok text := by rw [fragment, Json.encode, htext]
  refine ⟨lead ++ text, ?_, lead, text, htemplate, rfl, htext, ?_⟩
  · rw [misshapen, hfragment]
    simp only [htemplate, Template.fill_mark hlead]
  · rwa [List.append_nil] at hread

/-! The part at fault. -/

/-- What is wrong with one file of an answer; what is looked at before is as it should be. -/
inductive FileFault : Value → Shape → Prop where
  | kind {item} : (∀ t, item ≠ .text t) → (∀ es, item ≠ .dict es) → FileFault item .file
  | name {es} : (∀ t, field "name" es ≠ .text t) → FileFault (.dict es) .fileName
  | mode {es name} : field "name" es = .text name → ¬ IntegerIfPresent (lookup? "mode" es) →
      FileFault (.dict es) .fileMode
  | size {es name} : field "name" es = .text name → IntegerIfPresent (lookup? "mode" es) →
      ¬ IntegerIfPresent (lookup? "size" es) → FileFault (.dict es) .fileSize

/-- The part of an answer at fault: the answer that is no object, the first file that is not as
documented, or the value of the first other field that is not. -/
inductive AnswerFault : Value → Shape → Value → Prop where
  | reply {reply} : (∀ es, reply ≠ .dict es) → AnswerFault reply (.reply "query") reply
  | files {es} : (∀ items, field "files" es ≠ .list items) →
      AnswerFault (.dict es) .files (field "files" es)
  | file {es before item after expected} :
      field "files" es = .list (before ++ item :: after) → (∀ a ∈ before, DocumentedFile a) →
      FileFault item expected → AnswerFault (.dict es) expected item
  | version {es items} : field "files" es = .list items → (∀ a ∈ items, DocumentedFile a) →
      (∀ t, field "version" es ≠ .text t) →
      AnswerFault (.dict es) .version (field "version" es)
  | clock {es items version} : field "files" es = .list items →
      (∀ a ∈ items, DocumentedFile a) → field "version" es = .text version →
      (∀ t, field "clock" es ≠ .text t) → AnswerFault (.dict es) .clock (field "clock" es)
  | freshness {es items version clock} : field "files" es = .list items →
      (∀ a ∈ items, DocumentedFile a) → field "version" es = .text version →
      field "clock" es = .text clock → (∀ b, field "is_fresh_instance" es ≠ .bool b) →
      AnswerFault (.dict es) .freshness (field "is_fresh_instance" es)

inductive RootsFault : Value → Shape → Value → Prop where
  | reply {reply} : (∀ es, reply ≠ .dict es) → RootsFault reply (.reply "watch-list") reply
  | roots {es} : (∀ items, field "roots" es ≠ .list items) →
      RootsFault (.dict es) .roots (.dict es)
  | root {es before item after} : field "roots" es = .list (before ++ item :: after) →
      (∀ a ∈ before, ∃ t, a = .text t) → (∀ t, item ≠ .text t) → RootsFault (.dict es) .root item

inductive Blames (fault : Shape → Value → Prop) : Error → Prop where
  | refused {command reason} : Blames fault (.refused command reason)
  | shape {expected part message} : fault expected part → Quotes expected part message →
      Blames fault (.shape expected message)

theorem Blames.imp {fault fault' : Shape → Value → Prop}
    (h : ∀ expected part, fault expected part → fault' expected part) {e : Error}
    (he : Blames fault e) : Blames fault' e := by
  cases he with
  | refused => exact .refused
  | shape hfault hquotes => exact .shape (h _ _ hfault) hquotes

theorem misshapen_blames {fault : Shape → Value → Prop} (expected : Shape)
    (hnamed : expected.Named) {v : Value} (h : Quotable v) (hfault : fault expected v) :
    Blames fault (misshapen expected v) := by
  obtain ⟨message, hmessage, hquotes⟩ := misshapen_quotes expected hnamed h
  rw [hmessage]
  exact .shape hfault hquotes

def Blamed (fault : Shape → Value → Prop) (outcome : Except Error α) : Prop :=
  ∀ e, outcome = .error e → Blames fault e

theorem blamed_ok (fault : Shape → Value → Prop) (a : α) : Blamed fault (.ok a) := by
  rintro _ ⟨⟩

theorem blamed_misshapen {fault : Shape → Value → Prop} (expected : Shape)
    (hnamed : expected.Named) {v : Value} (h : Quotable v) (hfault : fault expected v) :
    Blamed fault (.error (misshapen expected v) : Except Error α) := by
  rintro _ ⟨⟩
  exact misshapen_blames expected hnamed h hfault

/-- A text is read and taken on to what comes next. -/
theorem text_blamed {fault : Shape → Value → Prop} (expected : Shape) (hnamed : expected.Named)
    {v : Value} (h : Quotable v) (hfault : (∀ t, v ≠ .text t) → fault expected v)
    {next : Text → Except Error β} (hnext : ∀ t, v = .text t → Blamed fault (next t)) :
    Blamed fault (match v with
      | .text t => pure t >>= next
      | v => throw (misshapen expected v) >>= next) := by
  split
  · exact hnext _ rfl
  · rename_i htext
    exact blamed_misshapen expected hnamed h (hfault htext)

theorem truth_blamed {fault : Shape → Value → Prop} (expected : Shape) (hnamed : expected.Named)
    {v : Value} (h : Quotable v) (hfault : (∀ b, v ≠ .bool b) → fault expected v)
    {next : Bool → Except Error β} (hnext : ∀ b, v = .bool b → Blamed fault (next b)) :
    Blamed fault (match v with
      | .bool b => pure b >>= next
      | v => throw (misshapen expected v) >>= next) := by
  split
  · exact hnext _ rfl
  · rename_i htruth
    exact blamed_misshapen expected hnamed h (hfault htruth)

/-- The items of a list are read one by one and taken on to what comes next. What is blamed when
there is no list is the value itself or what it is a part of. -/
theorem items_blamed {fault : Shape → Value → Prop} {f : Value → Except Error α} {v : Value}
    (expected : Shape) (hnamed : expected.Named) (culprit : Value → Value) (h : Quotable v)
    (hculprit : Quotable (culprit v))
    (hfault : (∀ items, v ≠ .list items) → fault expected (culprit v))
    (hitem : ∀ before item after e, v = .list (before ++ item :: after) →
      (∀ a ∈ before, ∃ b, f a = .ok b) → f item = .error e → Blames fault e)
    {next : List α → Except Error β}
    (hnext : ∀ items as, v = .list items → items.mapM f = .ok as → Blamed fault (next as)) :
    Blamed fault (match v with
      | .list items => (Value.ownItems items).mapM f >>= next
      | v => throw (misshapen expected (culprit v)) >>= next) := by
  split
  · rename_i items
    rw [Json.ownItems_json fun item hmem => (h.item item hmem).decoded.json]
    intro e he
    obtain hfirst | ⟨as, has, he⟩ := except_bind_error.mp he
    · obtain ⟨before, item, after, rfl, hbefore, herror⟩ := mapM_error.mp hfirst
      exact hitem before item after e rfl hbefore herror
    · exact hnext items as rfl has e he
  · rename_i hlist
    exact blamed_misshapen expected hnamed hculprit (hfault hlist)

theorem integer_missing {name : String} {es : List (Value × Value)} :
    integer name es = none ↔ ¬ IntegerIfPresent (lookup? name es) := by
  rw [← not_iff_not, not_not, ← ne_eq, Option.ne_none_iff_exists']
  constructor
  · rintro ⟨n, hn⟩
    exact (integer_some.mp hn).ifPresent
  · intro h
    obtain ⟨n, hn⟩ := integerOf_of_present h
    exact ⟨n, integer_some.mpr hn⟩

theorem fileRecord_blamed {item : Value} (h : Quotable item) :
    Blamed (fun expected part => part = item ∧ FileFault item expected) (fileRecord item) := by
  unfold fileRecord
  split
  · exact blamed_ok _ _
  · rename_i es
    split
    · rename_i name hname
      cases hmode : integer "mode" es with
      | none =>
        exact blamed_misshapen .fileMode trivial h ⟨rfl, .mode hname (integer_missing.mp hmode)⟩
      | some mode =>
        have hpresent := (integer_some.mp hmode).ifPresent
        cases hsize : integer "size" es with
        | none =>
          exact blamed_misshapen .fileSize trivial h
            ⟨rfl, .size hname hpresent (integer_missing.mp hsize)⟩
        | some size => exact blamed_ok _ _
    · rename_i hname
      exact blamed_misshapen .fileName trivial h ⟨rfl, .name hname⟩
  · rename_i htext hdict
    exact blamed_misshapen .file trivial h ⟨rfl, .kind htext hdict⟩

theorem fileRecord_documented {item : Value} {file : FileRecord}
    (hfile : fileRecord item = .ok file) : DocumentedFile item := by
  have hreported := fileRecord_reported item
  rw [hfile] at hreported
  cases hreported with
  | ok hfile _ => exact documentedFile_iff.mpr ⟨file, hfile⟩

/-- The entries of a reply are taken on to what comes next, if it is an object. -/
theorem envelope_blamed {fault : Shape → Value → Prop} (command : Text)
    (hcommand : Template.Unmarked command) {reply : Value} (h : Quotable reply)
    (hfault : (∀ es, reply ≠ .dict es) → fault (.reply command) reply)
    {next : List (Value × Value) → Except Error β}
    (hnext : ∀ es, reply = .dict es → Blamed fault (next es)) :
    Blamed fault (envelope command reply >>= next) := by
  cases reply with
  | dict es =>
    cases hreason : lookup? "error" es with
    | none =>
      rw [envelope_accepts command h.decoded.json hreason]
      exact hnext es rfl
    | some reason =>
      have hshort := (decoded_inherited.lookup h.decoded hreason).short
      obtain ⟨t, ht⟩ := envelope_refuses command h.decoded.json hreason hshort
      rw [ht]
      rintro _ ⟨⟩
      exact .refused
  | _ => exact blamed_misshapen (.reply command) hcommand h (hfault fun _ hdict => nomatch hdict)

theorem queryAnswer_blamed {reply : Value} (h : Quotable reply) :
    Blamed (AnswerFault reply) (queryAnswer reply) := by
  unfold queryAnswer
  refine envelope_blamed "query" rfl h .reply ?_
  rintro es rfl
  -- The first field that is not as it should be is quoted.
  refine items_blamed .files trivial id (h.field "files") (h.field "files") AnswerFault.files ?_ ?_
  · intro before item after e hfiles hbefore herror
    have hitem : ∀ v ∈ before ++ item :: after, Quotable v := (hfiles ▸ h.field "files").item
    have hdocumented : ∀ a ∈ before, DocumentedFile a := by
      intro a ha
      obtain ⟨file, hfile⟩ := hbefore a ha
      exact fileRecord_documented hfile
    refine (fileRecord_blamed (hitem item (by simp)) e herror).imp ?_
    rintro expected _ ⟨rfl, hfault⟩
    exact .file hfiles hdocumented hfault
  intro items files hfiles hrecords
  have hdocumented : ∀ a ∈ items, DocumentedFile a := by
    intro a ha
    obtain ⟨file, hfile⟩ := exists_forall₂.mpr ⟨files, mapM_ok.mp hrecords⟩ a ha
    exact fileRecord_documented hfile
  refine text_blamed .version trivial (h.field "version") (.version hfiles hdocumented) ?_
  intro version hversion
  refine text_blamed .clock trivial (h.field "clock") (.clock hfiles hdocumented hversion) ?_
  intro clock hclock
  refine truth_blamed .freshness trivial (h.field "is_fresh_instance")
    (.freshness hfiles hdocumented hversion hclock) ?_
  exact fun fresh _ => blamed_ok _ _

theorem watchedRoots_blamed {reply : Value} (h : Quotable reply) :
    Blamed (RootsFault reply) (watchedRoots reply) := by
  unfold watchedRoots
  refine envelope_blamed "watch-list" rfl h .reply ?_
  rintro es rfl
  refine items_blamed .roots trivial (fun _ => .dict es) (h.field "roots") h RootsFault.roots ?_
    fun _ _ _ _ => blamed_ok _ _
  intro before item after e hroots hbefore herror
  split at herror
  · cases herror
  rename_i htext
  refine blamed_misshapen .root trivial ((hroots ▸ h.field "roots").item item (by simp))
    (.root hroots ?_ htext) e herror
  intro a ha
  obtain ⟨t, ht⟩ := hbefore a ha
  split at ht
  · exact ⟨_, rfl⟩
  · cases ht

/-- Whatever reply without floats is not accepted, the error is a refusal, or its message quotes the
part at fault. -/
theorem shape_errors_quote {frame : Bytes} {reply : Value} (hread : Frame.decode frame = .ok reply)
    (hfree : FloatFree reply) :
    (∀ e, queryAnswer reply = .error e → Blames (AnswerFault reply) e) ∧
      ∀ e, watchedRoots reply = .error e → Blames (RootsFault reply) e := by
  obtain ⟨_, _, -, -, d, -, hdocument⟩ := Frame.decode_ok.mp hread
  have hquotable := document_quotable hdocument hfree
  exact ⟨queryAnswer_blamed hquotable, watchedRoots_blamed hquotable⟩

/-- The second file is a list that holds a lone surrogate. -/
theorem surrogate_quoted :
    let item : Value := .list [.text [0xD800], .int 1]
    let reply : Value := .dict [(.text "files", .list [.text "a", item])]
    let message : Text := ("must be object: [\"" : Text) ++ [0xD800] ++ ("\", 1]" : Text)
    Frame.decode [0x7b, 0x22, 0x66, 0x69, 0x6c, 0x65, 0x73, 0x22, 0x3a, 0x5b, 0x22, 0x61, 0x22,
        0x2c, 0x5b, 0x22, 0x5c, 0x75, 0x64, 0x38, 0x30, 0x30, 0x22, 0x2c, 0x31, 0x5d, 0x5d, 0x7d,
        0x0a] = .ok reply ∧
      queryAnswer reply = .error (.shape .file message) ∧ Quotes .file item message := by
  intro item reply message
  have hread : Frame.decode [0x7b, 0x22, 0x66, 0x69, 0x6c, 0x65, 0x73, 0x22, 0x3a, 0x5b, 0x22,
      0x61, 0x22, 0x2c, 0x5b, 0x22, 0x5c, 0x75, 0x64, 0x38, 0x30, 0x30, 0x22, 0x2c, 0x31, 0x5d,
      0x5d, 0x7d, 0x0a] = .ok reply := rfl
  have hitem : FloatFree item := .list (by simp [FloatFree.text, FloatFree.int])
  have hfree : FloatFree reply :=
    .dict (by simpa using FloatFree.list (by simp [FloatFree.text, hitem]))
  have herror : queryAnswer reply = .error (.shape .file message) := by decide +kernel
  refine ⟨hread, herror, ?_⟩
  have hblames := (shape_errors_quote hread hfree).1 _ herror
  cases hblames with
  | @shape _ part _ hfault hquotes =>
    suffices hpart : part = item by rwa [← hpart]
    change AnswerFault (.dict [(.text "files", .list [.text "a", item])]) .file part at hfault
    cases hfault with
    | @file _ before _ after _ hfiles hbefore hfile =>
      have hitems : [.text "a", item] = before ++ part :: after := Value.list.inj hfiles
      cases before with
      | nil =>
        cases hitems
        cases hfile with
        | kind htext _ => exact absurd rfl (htext _)
      | cons a before =>
        cases before with
        | nil =>
          cases hitems
          rfl
        | cons b before => simp at hitems

end Reply

end FileWatch
