import FileWatch.Proofs.Steps
import Mathlib.Data.List.DropRight
/-!
What becomes of requests whose sending fails. A write that fails leaves nothing behind; a flush that
fails leaves the request's bytes in the stream, and they go out with the next flush that works: that
of a request, or that of the stream's closing.
-/

namespace FileWatch.Client

/-- What an event did for requests. A stream is drained where it is closed and its flush works. -/
inductive Delivery where
  | unwritten
  | held (frame : Bytes)
  | returned (frame : Bytes)
  | drained

namespace Delivery

def written : Delivery → Bytes
  | unwritten | drained => []
  | held frame | returned frame => frame

def accepted : Delivery → Bytes
  | returned frame => frame
  | _ => []

def flushes : Delivery → Bool
  | returned _ | drained => true
  | _ => false

end Delivery

open Delivery

def Event.message? : Event → Option Value
  | step s => s.message?
  | _ => none

/-- A request is returned when its sending succeeds, and held back when its bytes have been written
and the flush behind that fails. -/
def dispatch (c : Client) (message : Value) : Delivery :=
  match Frame.encode message, (settle (send message) c).1 with
  | .ok frame, .ok () => .returned frame
  | .ok frame, .error (.send _) =>
    if c.stream.writeError = none then .held frame else .unwritten
  | _, _ => .unwritten

def delivery (c : Client) (event : Event) : Delivery :=
  match event.message? with
  | some message => dispatch c message
  | none =>
    if event.closes && c.isOpen && c.stream.drains && c.stream.flushError.isNone then .drained
    else .unwritten

def deliveries (c : Client) : List Event → List Delivery
  | [] => []
  | event :: events => delivery c event :: deliveries (event.happen c) events

/-- What a delivery does to the bytes that were sent and those that wait. -/
def Delivery.post : Delivery → Bytes × Bytes → Bytes × Bytes
  | unwritten, box => box
  | held frame, box => (box.1, box.2 ++ frame)
  | returned frame, box => (box.1 ++ (box.2 ++ frame), [])
  | drained, box => (box.1 ++ box.2, [])

/-! One event. -/

theorem send_open {c : Client} (h : c.isOpen = true) {message : Value} {frame : Bytes}
    (hframe : Frame.encode message = .ok frame) :
    settle (send message) c = match c.stream.writeError, c.stream.flushError with
      | some e, _ => (.error (.send e), { c with stream := { c.stream with writeError := none } })
      | none, some e => (.error (.send e), { c with stream :=
          { c.stream with pending := c.stream.pending ++ frame, flushError := none } })
      | none, none => (.ok (), announced frame { c with stream := { c.stream with
          sent := c.stream.sent ++ (c.stream.pending ++ frame), pending := [] } }) := by
  unfold settle send
  rw [run_bind_ok (run_requireOpen h), hframe, run_bind_ok (run_lift_ok _ frame c)]
  cases hwrite : c.stream.writeError with
  | some e => simp [Stream.write, hwrite]
  | none =>
    cases hflush : c.stream.flushError with
    | some e => simp [Stream.write, hwrite, Stream.flush, hflush]
    | none => simp [Stream.write, hwrite, Stream.flush, hflush, announced]

theorem send_unframed {c : Client} (h : c.isOpen = true) {message : Value} {e : Frame.EncodeError}
    (hframe : Frame.encode message = .error e) :
    settle (send message) c = (.error (encodeFailure e), c) := by
  unfold settle send
  rw [run_bind_ok (run_requireOpen h), hframe]
  cases e <;> rfl

theorem send_posts (message : Value) (c : Client) :
    outbox (settle (send message) c).2 = (dispatch c message).post (outbox c) := by
  unfold dispatch
  cases hopen : c.isOpen with
  | false =>
    rw [send_closed hopen message]
    cases Frame.encode message <;> rfl
  | true =>
    cases hframe : Frame.encode message with
    | error e =>
      rw [send_unframed hopen hframe]
      rfl
    | ok frame =>
      rw [send_open hopen hframe]
      cases hwrite : c.stream.writeError with
      | some e => simp [Delivery.post, outbox]
      | none =>
        cases hflush : c.stream.flushError with
        | some e => rfl
        | none => rfl

variable {α : Type}

theorem close_posts (c : Client) : outbox (settle close c).2 =
    if c.isOpen && c.stream.drains && c.stream.flushError.isNone then drained.post (outbox c)
    else outbox c := by
  cases hopen : c.isOpen with
  | false =>
    rw [close_closed hopen]
    rfl
  | true =>
    have hstream := (close_open hopen).2.2
    have hsends := close_sends c.stream
    rw [outbox, hstream, hsends, Bool.true_and]
    rfl

/-- A step without a message sends what waits if it drains the stream, and nothing otherwise. -/
theorem step_posts {s : Step} (h : s.message? = none) (c : Client) :
    outbox (settle s.perform c).2 = (delivery c (.step s)).post (outbox c) := by
  have hkept {x : Action Unit} (hx : Keeps outbox x) (hs : s.closes = false)
      (hperform : s.perform = x) :
      outbox (settle s.perform c).2 = (delivery c (.step s)).post (outbox c) := by
    have hdelivery : delivery c (.step s) = .unwritten := by
      simp [delivery, Event.message?, h, Event.closes, hs]
    rw [hdelivery, hperform]
    exact hx c
  cases s with
  | send message => cases h
  | read => exact hkept (keeps_outbox (keeps_bind keeps_read fun _ => keeps_pure _)) rfl rfl
  | ask call =>
    cases hrequest : call.request with
    | ok message =>
      rw [Step.message?, hrequest] at h
      cases h
    | error e =>
      refine hkept (keeps_throw e) rfl ?_
      rw [Step.perform, perform_unbuilt hrequest]
      rfl
  | enter => exact hkept (keeps_pure _) rfl rfl
  | close | exit | exitConnection =>
    refine (close_posts c).trans ?_
    rw [delivery]
    simp only [Event.message?, Step.message?, Event.closes, Step.closes, Bool.true_and]
    split <;> rfl

theorem asks_posts {x : Action α} {message : Value} (h : Asks x message) (c : Client) :
    outbox (settle x c).2 = (dispatch c message).post (outbox c) := by
  obtain ⟨rest, hrest, rfl⟩ := h
  rw [← send_posts, settle_bind]
  rcases settle (send message) c with ⟨e | _, c'⟩
  · rfl
  · exact keeps_outbox hrest c'

theorem event_posts (event : Event) (c : Client) :
    outbox (event.happen c) = (delivery c event).post (outbox c) := by
  cases event with
  | feed bytes => rfl
  | arm call e => cases call <;> rfl
  | step s =>
    cases hmessage : s.message? with
    | none => exact step_posts hmessage c
    | some message =>
      have hdelivery : delivery c (.step s) = dispatch c message := by
        simp [delivery, Event.message?, hmessage]
      rw [hdelivery]
      exact asks_posts (step_asks hmessage) c

/-! Events one after the other. -/

theorem advance_append (c : Client) (earlier later : List Event) :
    advance c (earlier ++ later) = advance (advance c earlier) later := List.foldl_append

theorem deliveries_append (c : Client) (earlier later : List Event) :
    deliveries c (earlier ++ later) =
      deliveries c earlier ++ deliveries (advance c earlier) later := by
  induction earlier generalizing c with
  | nil => rfl
  | cons event earlier ih =>
    rw [List.cons_append, deliveries, ih, deliveries, List.cons_append]
    rfl

def flushed (ds : List Delivery) : List Delivery := ds.rdropWhile fun d => !d.flushes

def waiting (ds : List Delivery) : List Delivery := ds.rtakeWhile fun d => !d.flushes

theorem flushed_append_waiting (ds : List Delivery) : flushed ds ++ waiting ds = ds :=
  List.rdropWhile_append_rtakeWhile

theorem flushed_concat (ds : List Delivery) (d : Delivery) :
    flushed (ds ++ [d]) = if d.flushes then ds ++ [d] else flushed ds := by
  rw [flushed, List.rdropWhile_concat, flushed]
  cases d.flushes <;> rfl

theorem waiting_concat (ds : List Delivery) (d : Delivery) :
    waiting (ds ++ [d]) = if d.flushes then [] else waiting ds ++ [d] := by
  rw [waiting, List.rtakeWhile_concat, waiting]
  cases d.flushes <;> rfl

/-- The bytes of the requests up to the last flush that works have gone out, and those of the
requests behind it wait. -/
theorem advance_outbox (c : Client) (hpending : c.stream.pending = []) (events : List Event) :
    outbox (advance c events) =
      (c.stream.sent ++ (flushed (deliveries c events)).flatMap written,
        (waiting (deliveries c events)).flatMap written) := by
  induction events using List.reverseRecOn with
  | nil =>
    change (c.stream.sent, c.stream.pending) = (c.stream.sent ++ [], [])
    rw [hpending, List.append_nil]
  | append_singleton events event ih =>
    have hlast : deliveries (advance c events) [event] = [delivery (advance c events) event] := rfl
    have hrun : advance c (events ++ [event]) = event.happen (advance c events) := by
      rw [advance_append]
      rfl
    rw [hrun, event_posts, ih, deliveries_append, hlast, flushed_concat, waiting_concat]
    cases delivery (advance c events) event with
    | unwritten =>
      have hnone : flushes unwritten = false := rfl
      simp [hnone, Delivery.post, written]
    | held frame =>
      have hheld : flushes (held frame) = false := rfl
      simp [hheld, Delivery.post, written]
    | returned frame =>
      -- Whatever waits in front of a flush goes out with it.
      have hreturned : flushes (returned frame) = true := rfl
      have hall := congrArg (List.flatMap written) (flushed_append_waiting (deliveries c events))
      rw [List.flatMap_append] at hall
      simp [hreturned, Delivery.post, written, ← hall]
    | drained =>
      have hdrained : flushes drained = true := rfl
      have hall := congrArg (List.flatMap written) (flushed_append_waiting (deliveries c events))
      rw [List.flatMap_append] at hall
      simp [hdrained, Delivery.post, written, ← hall]

/-! Requests that fail and are sent nevertheless. -/

/-- No request that was held back is followed by a flush that works. -/
def Terminal (ds : List Delivery) : Prop :=
  ds.Pairwise fun earlier later => later.flushes → ∀ frame, earlier ≠ held frame

theorem flushed_last {ds : List Delivery} (h : flushed ds ≠ []) :
    ((flushed ds).getLast h).flushes = true := by
  have hlast := List.rdropWhile_last_not (fun d : Delivery => !d.flushes) ds h
  rwa [Bool.not_eq_true, Bool.not_eq_false'] at hlast

theorem terminal_iff (ds : List Delivery) :
    Terminal ds ↔ ∀ frame, held frame ∉ flushed ds := by
  have hsplit := flushed_append_waiting ds
  constructor
  · intro hterminal frame hmem
    rw [Terminal, ← hsplit, List.pairwise_append] at hterminal
    have hne : flushed ds ≠ [] := List.ne_nil_of_mem hmem
    have hlast := flushed_last hne
    rw [← List.dropLast_append_getLast hne, List.mem_append, List.mem_singleton] at hmem
    rcases hmem with hmem | hmem
    · have hbefore := hterminal.1
      rw [← List.dropLast_append_getLast hne, List.pairwise_append] at hbefore
      exact hbefore.2.2 _ hmem _ (List.mem_singleton_self _) hlast frame rfl
    · rw [← hmem] at hlast
      cases hlast
  · intro hheld
    have hwaiting : ∀ d ∈ waiting ds, d.flushes ≠ true := by
      intro d hd hreturned
      have hnot := List.mem_rtakeWhile_imp hd
      rw [hreturned] at hnot
      cases hnot
    rw [Terminal, ← hsplit, List.pairwise_append]
    refine ⟨?_, ?_, ?_⟩
    · apply List.pairwise_of_forall_mem_list
      intro earlier hearlier later _ _ frame hframe
      exact hheld frame (hframe ▸ hearlier)
    · apply List.pairwise_of_forall_mem_list
      intro earlier _ later hlater hreturned
      exact absurd hreturned (hwaiting later hlater)
    · intro earlier _ later hlater hreturned
      exact absurd hreturned (hwaiting later hlater)

theorem waiting_accepted (ds : List Delivery) : (waiting ds).flatMap accepted = [] := by
  rw [List.flatMap_eq_nil_iff]
  intro d hd
  have hnot := List.mem_rtakeWhile_imp hd
  cases d with
  | returned frame | drained => cases hnot
  | unwritten | held frame => rfl

theorem accepted_length (ds : List Delivery) :
    (ds.flatMap accepted).length ≤ (ds.flatMap written).length := by
  induction ds with
  | nil => exact Nat.le_refl 0
  | cons d ds ih =>
    rw [List.flatMap_cons, List.flatMap_cons, List.length_append, List.length_append]
    refine Nat.add_le_add ?_ ih
    cases d <;> simp [accepted, written]

/-- Exactly the accepted bytes were written if nothing was held back, for no frame is empty. -/
theorem written_eq_accepted {ds : List Delivery} (hframes : ∀ frame, held frame ∈ ds → frame ≠ []) :
    ds.flatMap written = ds.flatMap accepted ↔ ∀ frame, held frame ∉ ds := by
  induction ds with
  | nil => simp
  | cons d ds ih =>
    have ih := ih fun frame hmem => hframes frame (List.mem_cons_of_mem _ hmem)
    rw [List.flatMap_cons, List.flatMap_cons]
    cases d with
    | unwritten | drained => simpa [written, accepted] using ih
    | returned frame => simpa [written, accepted] using ih
    | held frame =>
      refine iff_of_false ?_ fun h => h frame List.mem_cons_self
      intro hbytes
      have hlength := congrArg List.length hbytes
      have hbound := accepted_length ds
      have hpositive := List.length_pos_iff.mpr (hframes frame List.mem_cons_self)
      rw [List.length_append, List.length_append] at hlength
      simp only [written, accepted, List.length_nil] at hlength
      omega

theorem encode_nonempty {message : Value} {frame : Bytes} (h : Frame.encode message = .ok frame) :
    frame ≠ [] := by
  rw [Frame.encode] at h
  cases htext : (Json.encode .compact message).mapError Frame.EncodeError.json with
  | error e =>
    rw [htext] at h
    cases h
  | ok t =>
    cases hbytes : (Utf8.encode t).mapError Frame.EncodeError.utf8 with
    | error e =>
      simp only [htext, hbytes, bind, Except.bind] at h
      cases h
    | ok bytes =>
      simp only [htext, hbytes, bind, Except.bind] at h
      cases h
      exact List.append_ne_nil_of_right_ne_nil _ (List.cons_ne_nil _ _)

/-- A request is held back only if its flush has failed. -/
theorem dispatch_held {c : Client} {message : Value} {frame : Bytes}
    (h : dispatch c message = held frame) :
    Frame.encode message = .ok frame ∧ ∃ e, (settle (send message) c).1 = .error (.send e) := by
  unfold dispatch at h
  split at h
  · cases h
  · rename_i sent e hframe hsend
    split at h
    · cases h
      exact ⟨hframe, e, hsend⟩
    · cases h
  · cases h

theorem delivery_held {c : Client} {event : Event} {frame : Bytes}
    (h : delivery c event = held frame) :
    ∃ message, event.message? = some message ∧ dispatch c message = held frame := by
  unfold delivery at h
  cases hmessage : event.message? with
  | none =>
    rw [hmessage] at h
    dsimp only at h
    split at h <;> cases h
  | some message =>
    rw [hmessage] at h
    exact ⟨message, rfl, h⟩

theorem deliveries_framed {c : Client} {events : List Event} {frame : Bytes}
    (h : held frame ∈ deliveries c events) : frame ≠ [] := by
  induction events generalizing c with
  | nil => cases h
  | cons event events ih =>
    rw [deliveries, List.mem_cons] at h
    rcases h with h | h
    · obtain ⟨message, _, hdispatch⟩ := delivery_held h.symm
      exact encode_nonempty (dispatch_held hdispatch).1
    · exact ih h

/-- The holder of the client is told that the request has failed. -/
theorem step_held {c : Client} {s : Step} {frame : Bytes} (h : delivery c (.step s) = held frame) :
    ∃ e, (settle s.perform c).1 = .error (.send e) := by
  obtain ⟨message, hmessage, hdispatch⟩ := delivery_held h
  obtain ⟨_, e, hsend⟩ := dispatch_held hdispatch
  obtain ⟨rest, _, hperform⟩ := step_asks hmessage
  refine ⟨e, ?_⟩
  rw [hperform, settle_bind]
  rcases hsettle : settle (send message) c with ⟨result, c'⟩
  rw [hsettle] at hsend
  cases hsend
  rfl

/-- A request whose flush failed goes out with the next flush that works, be it that of a request or
that of the stream's closing. The daemon is sent exactly the requests that were returned if, and
only if, no request that was held back is followed by such a flush. -/
theorem held_requests_go_out_with_next_flush (c : Client) (hpending : c.stream.pending = [])
    (events : List Event) :
    outbox (advance c events) =
        (c.stream.sent ++ (flushed (deliveries c events)).flatMap written,
          (waiting (deliveries c events)).flatMap written) ∧
      ((advance c events).stream.sent =
          c.stream.sent ++ (deliveries c events).flatMap accepted ↔
        Terminal (deliveries c events)) ∧
      ∀ (c' : Client) (s : Step) (frame : Bytes), delivery c' (.step s) = held frame →
        ∃ e, (settle s.perform c').1 = .error (.send e) := by
  have houtbox := advance_outbox c hpending events
  have hsent := congrArg Prod.fst houtbox
  refine ⟨houtbox, ?_, fun _ _ _ h => step_held h⟩
  have hframes : ∀ frame, held frame ∈ flushed (deliveries c events) → frame ≠ [] :=
    fun frame hmem => deliveries_framed ((List.rdropWhile_prefix _ _).mem hmem)
  have haccepted : (deliveries c events).flatMap accepted =
      (flushed (deliveries c events)).flatMap accepted := by
    conv_lhs => rw [← flushed_append_waiting (deliveries c events)]
    rw [List.flatMap_append, waiting_accepted, List.append_nil]
  rw [terminal_iff, ← written_eq_accepted hframes, haccepted]
  change (advance c events).stream.sent = _ at hsent
  rw [hsent, List.append_cancel_left_eq]

def brokenPipe : Client :=
  { isOpen := true, stream := { flushError := some ⟨some 32, "Broken pipe", none⟩ } }

def drainingPipe : Client := { brokenPipe with stream := { brokenPipe.stream with drains := true } }

/-- Two messages go out with a third, and one with the closing. -/
theorem held_messages_go_out_together :
    let events : List Event := [.step (.send .null), .arm .flush ⟨some 32, "Broken pipe", none⟩,
      .step (.send .null), .step (.send (.bool true)), .arm .write ⟨some 32, "Broken pipe", none⟩,
      .step (.send .null)]
    (outbox (advance brokenPipe events) =
        ([0x6e, 0x75, 0x6c, 0x6c, 0x0a, 0x6e, 0x75, 0x6c, 0x6c, 0x0a,
          0x74, 0x72, 0x75, 0x65, 0x0a], []) ∧
      (advance brokenPipe events).stream.sent ≠
        (deliveries brokenPipe events).flatMap accepted) ∧
      outbox (advance drainingPipe [.step (.send .null), .step .close]) =
        ([0x6e, 0x75, 0x6c, 0x6c, 0x0a], []) := by
  intro events
  obtain ⟨houtbox, hexact, -⟩ := held_requests_go_out_with_next_flush brokenPipe rfl events
  obtain ⟨hdrained, -⟩ := held_requests_go_out_with_next_flush drainingPipe rfl
    [.step (.send .null), .step .close]
  refine ⟨⟨houtbox.trans rfl, ?_⟩, hdrained.trans rfl⟩
  intro haccepted
  have hterminal := hexact.mp haccepted
  have hds : deliveries brokenPipe events =
      [held [0x6e, 0x75, 0x6c, 0x6c, 0x0a], unwritten, held [0x6e, 0x75, 0x6c, 0x6c, 0x0a],
        returned [0x74, 0x72, 0x75, 0x65, 0x0a], unwritten, unwritten] := rfl
  rw [Terminal, hds] at hterminal
  have hlater : returned [0x74, 0x72, 0x75, 0x65, 0x0a] ∈ (deliveries brokenPipe events).tail := by
    rw [hds]
    simp
  exact List.rel_of_pairwise_cons hterminal hlater rfl _ rfl

/-- The sender is told that the first message has failed, and the daemon gets it with the second. -/
theorem failed_message_is_sent_later :
    let failed := settle (send .null) brokenPipe
    let later := settle (send (.bool true)) failed.2
    (∃ e, failed.1 = .error e ∧ e.category? = some .send) ∧ later.1 = .ok () ∧
      Frame.encode (.bool true) = .ok [0x74, 0x72, 0x75, 0x65, 0x0a] ∧
      later.2.stream.sent ≠ [0x74, 0x72, 0x75, 0x65, 0x0a] ∧
      later.2.stream.sent = [0x6e, 0x75, 0x6c, 0x6c, 0x0a, 0x74, 0x72, 0x75, 0x65, 0x0a] := by
  have hlater : (settle (send (.bool true)) (settle (send .null) brokenPipe).2).2.stream.sent =
      [0x6e, 0x75, 0x6c, 0x6c, 0x0a, 0x74, 0x72, 0x75, 0x65, 0x0a] := rfl
  refine ⟨⟨_, rfl, rfl⟩, rfl, rfl, ?_, hlater⟩
  rw [hlater]
  decide

end FileWatch.Client
