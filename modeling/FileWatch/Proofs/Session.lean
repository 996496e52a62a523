import FileWatch.Proofs.Steps
/-!
Sessions. The calls of a client are made one after the other whether they fail or not, and requests
stay paired with replies: however a call ends, the next one takes the reply that is meant for it.
-/

namespace FileWatch.Client

open FileWatch.Reply (Verdict)
open FileWatch.Stream (ReplyBytes)

/-- What a call fails with over a reply is a verdict on it. -/
theorem decode_verdict {call : Call} {b : Bytes} {v : Value} {e : Reply.Error}
    (h : ReplyBytes b v) (hdecode : call.decode v = .error e) : Verdict e := by
  obtain ⟨B, W, D, -, -, -, t, -, hdocument⟩ := h
  have hjudged := call.decode_judged (Json.document_decoded hdocument)
  rw [hdecode] at hjudged
  cases hjudged with
  | error hverdict => exact hverdict

/-- The client after calls, each of which may have failed. -/
def after (c : Client) (calls : List Call) : Client :=
  calls.foldl (fun c call => (settle call.perform c).2) c

def frames (calls : List Call) : List Bytes := calls.filterMap fun call => call.frame.toOption

def replyStream (replies : List (Bytes × Value)) : Bytes := (replies.map Prod.fst).flatten

theorem frames_append (earlier later : List Call) :
    frames (earlier ++ later) = frames earlier ++ frames later := List.filterMap_append

theorem frames_sent {call : Call} {frame : Bytes} (h : call.frame = .ok frame) :
    frames [call] = [frame] := by
  simp [frames, h, Except.toOption]

theorem frames_unsent {call : Call} {e : Failure} (h : call.frame = .error e) :
    frames [call] = [] := by
  simp [frames, h, Except.toOption]

/-- As many replies are gone from the stream as frames have been sent on it. -/
structure InStep (c : Client) (replies : List (Bytes × Value)) (sent : List Bytes) (c' : Client) :
    Prop where
  isOpen : c'.isOpen = true
  stream : c'.stream = exchanged c.stream sent.flatten (replyStream (replies.drop sent.length))

section

variable {c c' : Client} {replies : List (Bytes × Value)} {sent : List Bytes}

theorem inStep_start (h : Ready c) (hc : c.stream.incoming = replyStream replies) :
    InStep c replies [] c := by
  refine ⟨h.isOpen, ?_⟩
  rw [exchanged, List.flatten_nil, List.append_nil, List.length_nil, List.drop_zero, ← hc]

theorem inStep_ready (h : Ready c) (hstep : InStep c replies sent c') : Ready c' := by
  refine ⟨hstep.isOpen, ?_, ?_, ?_⟩
  · rw [hstep.stream]
    exact h.pending
  · rw [hstep.stream]
    exact h.writeError
  · rw [hstep.stream]
    exact h.flushError

theorem inStep_incoming (hstep : InStep c replies sent c') :
    c'.stream.incoming = replyStream (replies.drop sent.length) := by
  rw [hstep.stream, exchanged]

theorem replyStream_next {k : Nat} {r : Bytes × Value} (h : replies[k]? = some r) :
    replyStream (replies.drop k) = r.1 ++ replyStream (replies.drop (k + 1)) := by
  obtain ⟨hk, rfl⟩ := List.getElem?_eq_some_iff.mp h
  rw [List.drop_eq_getElem_cons hk, replyStream, List.map_cons, List.flatten_cons, ← replyStream]

/-- A call with a frame takes the reply that is next. -/
theorem inStep_call (h : Ready c) (hstep : InStep c replies sent c') {call : Call} {frame : Bytes}
    (hframe : call.frame = .ok frame) {r : Bytes × Value} (hr : replies[sent.length]? = some r)
    (hreply : ReplyBytes r.1 r.2) :
    ∃ c'', settle call.perform c' = ((call.decode r.2).mapError .reply, c'') ∧
      c''.stream = exchanged c'.stream frame (replyStream (replies.drop (sent.length + 1))) ∧
      InStep c replies (sent ++ [frame]) c'' := by
  have hincoming := (inStep_incoming hstep).trans (replyStream_next hr)
  obtain ⟨c'', hsettle, hopen, hs⟩ :=
    perform_yields call (inStep_ready h hstep) hframe hreply hincoming
  refine ⟨c'', hsettle, hs, hopen, ?_⟩
  rw [hs, hstep.stream]
  simp [exchanged]

/-- A call without a frame fails before anything is sent or read, and leaves no trace. -/
theorem settle_unsent (h : Ready c) {call : Call} {e : Failure} (hframe : call.frame = .error e) :
    settle call.perform c = (.error e, c) := by
  rw [Call.frame] at hframe
  cases hrequest : call.request with
  | error unbuilt =>
    rw [hrequest] at hframe
    cases hframe
    rw [perform_unbuilt hrequest]
    rfl
  | ok message =>
    rw [hrequest] at hframe
    obtain ⟨rest, -, hperform⟩ := perform_asks hrequest
    rw [hperform, settle_bind, settle, send_unsent h hframe]

theorem after_inStep (h : Ready c) (hreplies : ∀ r ∈ replies, ReplyBytes r.1 r.2)
    (calls : List Call) (hstep : InStep c replies sent c')
    (hm : sent.length + (frames calls).length ≤ replies.length) :
    InStep c replies (sent ++ frames calls) (after c' calls) := by
  induction calls generalizing sent c' with
  | nil => simpa [frames, after] using hstep
  | cons call calls ih =>
    rw [← List.singleton_append, frames_append, List.length_append] at hm
    rw [← List.singleton_append, frames_append, ← List.append_assoc]
    cases hframe : call.frame with
    | error e =>
      have hsame := settle_unsent (inStep_ready h hstep) hframe
      rw [frames_unsent hframe, List.append_nil]
      rw [frames_unsent hframe, List.length_nil, Nat.zero_add] at hm
      rw [List.singleton_append, after, List.foldl_cons, hsame]
      exact ih hstep hm
    | ok frame =>
      rw [frames_sent hframe, List.length_singleton] at hm
      have hlt : sent.length < replies.length := by omega
      obtain ⟨c'', hsettle, -, hnext⟩ := inStep_call h hstep hframe (List.getElem?_eq_getElem hlt)
        (hreplies _ (List.getElem_mem hlt))
      rw [frames_sent hframe, List.singleton_append, after, List.foldl_cons, hsettle]
      refine ih hnext ?_
      rw [List.length_append, List.length_singleton]
      omega

end

/-- Requests and replies stay paired. The calls of a session of any length send the frames of those
that have one, in order, and take as many replies. Of each call: without a frame it fails with the
client as it was; with one it sends that and takes exactly the reply at its own place, and returns
what it decodes from that reply or fails with a verdict on it. -/
theorem requests_pair_with_replies (c : Client) (hready : Ready c)
    (replies : List (Bytes × Value)) (hreplies : ∀ r ∈ replies, ReplyBytes r.1 r.2)
    (hc : c.stream.incoming = replyStream replies) (calls : List Call)
    (hm : (frames calls).length ≤ replies.length) :
    ((after c calls).stream.sent = c.stream.sent ++ (frames calls).flatten ∧
      (after c calls).stream.incoming = replyStream (replies.drop (frames calls).length)) ∧
    ∀ earlier call later, calls = earlier ++ call :: later →
      (∀ e, call.frame = .error e →
        settle call.perform (after c earlier) = (.error e, after c earlier)) ∧
      ∀ frame, call.frame = .ok frame →
        ∃ reply v rest c', replies[(frames earlier).length]? = some (reply, v) ∧
          (after c earlier).stream.incoming = reply ++ rest ∧
          settle call.perform (after c earlier) = ((call.decode v).mapError .reply, c') ∧
          c'.stream = exchanged (after c earlier).stream frame rest ∧
          ∀ e, call.decode v = .error e → Verdict e := by
  have hstart := inStep_start hready hc
  constructor
  · have hend := after_inStep hready hreplies calls hstart (by simpa using hm)
    rw [hend.stream]
    exact ⟨rfl, rfl⟩
  · rintro earlier call later rfl
    rw [frames_append, List.length_append] at hm
    have hearlier : (frames earlier).length ≤ replies.length := by omega
    have hbefore := after_inStep hready hreplies earlier hstart (by simpa using hearlier)
    rw [List.nil_append] at hbefore
    constructor
    · intro e hframe
      exact settle_unsent (inStep_ready hready hbefore) hframe
    · intro frame hframe
      rw [← List.singleton_append, frames_append, frames_sent hframe, List.length_append,
        List.length_singleton] at hm
      have hlt : (frames earlier).length < replies.length := by omega
      obtain ⟨⟨reply, v⟩, hnext⟩ : ∃ r, replies[(frames earlier).length]? = some r :=
        ⟨_, List.getElem?_eq_getElem hlt⟩
      have hreply := hreplies _ (List.mem_of_getElem? hnext)
      have hincoming := (inStep_incoming hbefore).trans (replyStream_next hnext)
      obtain ⟨c', hsettle, hs, -⟩ := inStep_call hready hbefore hframe hnext hreply
      exact ⟨reply, v, _, c', hnext, hincoming, hsettle, hs, fun e => decode_verdict hreply⟩

/-- A watch is refused, a query for what is no expression is never sent, and the roots that are
asked for then come from the second reply. -/
theorem roots_after_refusal :
    let c : Client := { isOpen := true, stream := { incoming :=
      [0x7b, 0x22, 0x65, 0x72, 0x72, 0x6f, 0x72, 0x22, 0x3a, 0x31, 0x7d, 0x0a, 0x0a, 0x7b, 0x22,
        0x72, 0x6f, 0x6f, 0x74, 0x73, 0x22, 0x3a, 0x0a, 0x5b, 0x5d, 0x7d, 0x0a] } }
    let earlier : List Call := [.watch (.text "/a"), .query (.text "/a") (.int 3) defaultFields]
    (settle Call.watchList.perform (after c earlier)).1 = .ok (.roots ⟨[]⟩) ∧
      (after c (earlier ++ [.watchList])).stream.incoming = [] := by
  intro c earlier
  have refusal : ReplyBytes [0x7b, 0x22, 0x65, 0x72, 0x72, 0x6f, 0x72, 0x22, 0x3a, 0x31, 0x7d, 0x0a]
      (.dict [(.text "error", .int 1)]) :=
    Stream.replyBytes_message.mpr ⟨[], _, rfl, ⟨Or.inl rfl, by simp⟩, Frame.decode_ok.mp rfl⟩
  have roots : ReplyBytes
      [0x0a, 0x7b, 0x22, 0x72, 0x6f, 0x6f, 0x74, 0x73, 0x22, 0x3a, 0x0a, 0x5b, 0x5d, 0x7d, 0x0a]
      (.dict [(.text "roots", .list [])]) :=
    Stream.replyBytes_message.mpr ⟨[0x0a],
      [0x7b, 0x22, 0x72, 0x6f, 0x6f, 0x74, 0x73, 0x22, 0x3a, 0x0a, 0x5b, 0x5d, 0x7d, 0x0a], rfl,
      ⟨Or.inr rfl, List.all_eq_true.mp rfl⟩, Frame.decode_ok.mp rfl⟩
  have paired := requests_pair_with_replies c ⟨rfl, rfl, rfl, rfl⟩
    [(_, .dict [(.text "error", .int 1)]), (_, .dict [(.text "roots", .list [])])]
    (List.forall_mem_cons.mpr ⟨refusal, List.forall_mem_cons.mpr ⟨roots, by simp⟩⟩) rfl
    (earlier ++ [.watchList]) (by rfl)
  obtain ⟨⟨-, hrest⟩, hcalls⟩ := paired
  obtain ⟨reply, v, rest, c', hnext, -, hsettle, -, -⟩ := (hcalls earlier .watchList [] rfl).2 _ rfl
  cases hnext
  constructor
  · rw [hsettle]
    rfl
  · exact hrest

end FileWatch.Client
