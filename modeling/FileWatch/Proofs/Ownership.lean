import FileWatch.Proofs.Connecting
/-!
Who closes the socket. The socket of a connection is closed by the first step that closes and by no
other. Where connecting fails behind the creation of the socket, it is closed there if the failure
has a category; a call that breaks off without one leaves it open. Once closed, a connection stays
so, and nothing passes through it.
-/

namespace FileWatch

def SystemCall.creates : SystemCall → Bool
  | .createSocket => true
  | _ => false

def SystemCall.closes : SystemCall → Bool
  | .closeSocket => true
  | _ => false

namespace Client

def sockets (c : Client) : Nat :=
  if c.host.socketError.isSome then 0 else c.calls.countP SystemCall.creates

def closings (c : Client) : Nat := c.calls.countP SystemCall.closes

structure Owned (c : Client) : Prop where
  sockets : sockets c = 1
  closings : closings c = if c.isOpen then 0 else 1

theorem owned_custody {c : Client} : Owned (custody c) ↔ Owned c :=
  ⟨fun h => ⟨h.sockets, h.closings⟩, fun h => ⟨h.sockets, h.closings⟩⟩

theorem sockets_called {call : SystemCall} (h : call.creates = false) (c : Client) :
    sockets (called call c) = sockets c := by
  simp [sockets, called, h]

theorem closings_called {call : SystemCall} (h : call.closes = false) (c : Client) :
    closings (called call c) = closings c := by
  simp [closings, called, h]

theorem closings_released (c : Client) : closings (called .closeSocket c) = closings c + 1 := by
  simp [closings, called, SystemCall.closes]

/-! Connecting. -/

/-- What the calls on the socket are given fits them: the time limit, and the path, which can be
written out and has an encoding. -/
structure Fitting (host : Host) (path timeout : Value) : Prop where
  limit : timeout ≠ .null → host.limitFault = none
  path : ∃ p, path.display = .ok p
  encoding : host.pathFault = none

/-- How connecting may end: with an open connection that owns its socket, without a socket, or with
a socket that is closed exactly if the failure has a category, which it has if everything `fits`. -/
def Connects (fits : Prop) : Except Failure Unit × Client → Prop
  | (.ok (), c) => c.isOpen = true ∧ Owned c ∧ fits
  | (.error e, c) => c.isOpen = false ∧ (sockets c = 0 ∧ closings c = 0 ∨
      sockets c = 1 ∧ (closings c = if e.category?.isSome then 1 else 0) ∧
        (e.category?.isSome ↔ fits))

structure Holding (c : Client) : Prop where
  isOpen : c.isOpen = false
  sockets : sockets c = 1
  closings : closings c = 0

theorem holding_called {call : SystemCall} {c : Client} (h : Holding c)
    (hcreates : call.creates = false) (hcloses : call.closes = false) : Holding (called call c) :=
  ⟨h.isOpen, (sockets_called hcreates c).trans h.sockets,
    (closings_called hcloses c).trans h.closings⟩

theorem connects_closed {fits : Prop} {c : Client} (h : Holding c) (hfits : fits) {e : Failure}
    (hcategory : e.category?.isSome) : Connects fits (.error e, called .closeSocket c) := by
  have hsockets : sockets (called .closeSocket c) = 1 := (sockets_called rfl c).trans h.sockets
  refine ⟨h.isOpen, Or.inr ⟨hsockets, ?_, iff_of_true hcategory hfits⟩⟩
  rw [if_pos hcategory, closings_released, h.closings]

theorem connects_left {fits : Prop} {c : Client} (h : Holding c) (hfits : ¬ fits) {e : Failure}
    (hcategory : e.category? = none) : Connects fits (.error e, c) := by
  have hnone : ¬ e.category?.isSome := by rw [hcategory]; exact nofun
  refine ⟨h.isOpen, Or.inr ⟨h.sockets, ?_, iff_of_false hnone hfits⟩⟩
  rw [if_neg hnone, h.closings]

theorem connects_opened {fits : Prop} {c : Client} (h : Holding c) (hfits : fits) (path : Text)
    (log : List LogRecord) : Connects fits (.ok (), { c with path, isOpen := true, log }) :=
  ⟨rfl, ⟨h.sockets, h.closings⟩, hfits⟩

theorem reaches_connects {fits : Prop} {path : Value} {c : Client}
    {r : Except Failure Unit × Client} (h : Holding c)
    (hfits : fits ↔ (∃ p, path.display = .ok p) ∧ c.host.pathFault = none)
    (hr : Reaches path c r) : Connects fits r := by
  have htried (p : Text) : Holding (called (.connect p) c) := holding_called h rfl rfl
  have hwrapped (p : Text) : Holding (called .wrapSocket (called (.connect p) c)) :=
    holding_called (htried p) rfl rfl
  cases hr with
  | unwritten hpath => exact connects_left h (by simp [hfits, hpath]) rfl
  | unfit hpath hfault => exact connects_left (htried _) (by simp [hfits, hfault]) rfl
  | refused hpath hfault =>
    have hall := hfits.mpr ⟨⟨_, hpath⟩, hfault⟩
    exact connects_closed (htried _) hall rfl
  | unwrapped hpath hfault =>
    have hall := hfits.mpr ⟨⟨_, hpath⟩, hfault⟩
    exact connects_closed (hwrapped _) hall rfl
  | opened hpath hfault =>
    have hall := hfits.mpr ⟨⟨_, hpath⟩, hfault⟩
    exact connects_opened (hwrapped _) hall _ _

structure Unconnected (c : Client) : Prop where
  isOpen : c.isOpen = false
  creations : c.calls.countP SystemCall.creates = 0
  closings : closings c = 0

theorem connects_without {fits : Prop} {c : Client} (hopen : c.isOpen = false)
    (hnone : sockets c = 0) (hclosings : closings c = 0) (e : Failure) :
    Connects fits (.error e, c) :=
  ⟨hopen, Or.inl ⟨hnone, hclosings⟩⟩

theorem connects_unconnected {fits : Prop} {c : Client} (h : Unconnected c) (e : Failure) :
    Connects fits (.error e, c) :=
  connects_without h.isOpen (by simp [sockets, h.creations]) h.closings e

theorem holding_limited {c : Client} (h : Holding c) (timeout : Value) :
    Holding (limited timeout c) := by
  by_cases hnull : timeout = .null
  · subst hnull
    exact h
  · rw [limited_given hnull]
    exact holding_called h rfl rfl

theorem connectPath_connects (path timeout : Value) {c : Client} (h : Unconnected c) :
    Connects (Fitting c.host path timeout) (settle (connectPath path timeout) c) := by
  have hclosings : closings (called .createSocket c) = 0 := (closings_called rfl c).trans h.closings
  have hcreated (hsocket : c.host.socketError = none) : Holding (called .createSocket c) :=
    ⟨h.isOpen, by simp [sockets, called, hsocket, h.creations, SystemCall.creates], hclosings⟩
  generalize hr : settle (connectPath path timeout) c = r
  have hends := hr ▸ connectPath_ends path timeout c
  cases hends with
  | uncreated hsocket =>
    have hnone : sockets (called .createSocket c) = 0 := by simp [sockets, called, hsocket]
    exact connects_without (c := called .createSocket c) h.isOpen hnone hclosings _
  | unlimited hsocket hnull hfault =>
    have hlimited : Holding (called (.setTimeout timeout) (called .createSocket c)) :=
      holding_called (hcreated hsocket) rfl rfl
    refine connects_left hlimited (fun hfits => ?_) rfl
    rw [hfits.limit hnull] at hfault
    cases hfault
  | reaches hsocket hlimit hreaches =>
    refine reaches_connects (holding_limited (hcreated hsocket) timeout) ?_ hreaches
    rw [limited_host]
    exact ⟨fun hfits => ⟨hfits.path, hfits.encoding⟩, fun h => ⟨hlimit, h.1, h.2⟩⟩

theorem unconnected_custody {c : Client} : Unconnected (custody c) ↔ Unconnected c :=
  ⟨fun h => ⟨h.isOpen, h.creations, h.closings⟩, fun h => ⟨h.isOpen, h.creations, h.closings⟩⟩

theorem discover_unconnected (binary timeout : Value) {c : Client} (h : Unconnected c) :
    Unconnected (settle (discover binary timeout) c).2 ∧
      (settle (discover binary timeout) c).2.host = c.host := by
  have hrun : Unconnected (called (.run [binary, .text "get-sockname"] timeout) c) := by
    refine ⟨h.isOpen, ?_, (closings_called rfl c).trans h.closings⟩
    simp [called, h.creations, SystemCall.creates]
  have hsame := discover_unlogged binary timeout c
  have hunlogged := congrArg custody hsame
  have hcustody : custody (settle (discover binary timeout) c).2 =
      custody (called (.run [binary, .text "get-sockname"] timeout) c) := hunlogged
  have hhost := congrArg Client.host hsame
  refine ⟨?_, hhost⟩
  rw [← unconnected_custody, hcustody, unconnected_custody]
  exact hrun

theorem connect_connects (target : Target) {c : Client} (h : Unconnected c) :
    Connects (Fitting c.host target.sockname target.timeout) (settle (connect target) c) := by
  obtain ⟨sockname, timeout, binary⟩ := target
  by_cases hnull : sockname = .null
  · subst hnull
    obtain ⟨hfound, hhost⟩ := discover_unconnected binary timeout h
    rw [connect_discovering, settle_bind]
    rcases hsettle : settle (discover binary timeout) c with ⟨e | name, c'⟩
    · rw [hsettle] at hfound
      exact connects_unconnected hfound e
    · rw [hsettle] at hfound hhost
      -- Both a path that is found and the null in its place can be written out.
      have hsame : Fitting c'.host (.text name) timeout ↔ Fitting c.host .null timeout := by
        dsimp only at hhost
        rw [hhost]
        exact ⟨fun h => ⟨h.limit, ⟨_, rfl⟩, h.encoding⟩, fun h => ⟨h.limit, ⟨_, rfl⟩, h.encoding⟩⟩
      rw [← propext hsame]
      exact connectPath_connects (.text name) timeout hfound
  · rw [connect_located hnull]
    exact connectPath_connects sockname timeout h

/-! Every event keeps the socket owned. -/

theorem owned_released {c : Client} (h : Owned c) (hopen : c.isOpen = true) :
    Owned (released c) := by
  have hclosings : closings c = 0 := by rw [h.closings, hopen]; rfl
  refine ⟨(sockets_called rfl _).trans h.sockets, ?_⟩
  rw [released, closings_released]
  exact congrArg (· + 1) hclosings

theorem perform_closes {s : Step} (h : s.closes = true) : s.perform = close := by
  cases s with
  | close | exit | exitConnection => rfl
  | send | read | ask | enter => cases h

/-- What one event does to the ownership of the socket. -/
theorem event_owned {c : Client} (h : Owned c) (event : Event) :
    Owned (event.happen c) ∧ (event.happen c).isOpen = (c.isOpen && !event.closes) := by
  cases hcloses : event.closes with
  | false =>
    have hsame := event_custody hcloses c
    constructor
    · rw [← owned_custody, hsame, owned_custody]
      exact h
    · rw [Bool.not_false, Bool.and_true, ← custody_isOpen, hsame, custody_isOpen]
  | true =>
    cases event with
    | feed bytes => cases hcloses
    | arm call e => cases hcloses
    | step s =>
      rw [Event.happen, perform_closes hcloses]
      cases hopen : c.isOpen with
      | false =>
        rw [close_closed hopen]
        exact ⟨h, hopen⟩
      | true =>
        obtain ⟨-, hclosed, -⟩ := close_open hopen
        constructor
        · rw [← owned_custody, hclosed]
          exact owned_released (owned_custody.mpr h) hopen
        · rw [← custody_isOpen, hclosed]
          rfl

theorem advance_owned {c : Client} (h : Owned c) (events : List Event) :
    Owned (advance c events) ∧
      (advance c events).isOpen = (c.isOpen && !events.any Event.closes) := by
  induction events generalizing c with
  | nil => exact ⟨h, by simp [advance]⟩
  | cons event events ih =>
    obtain ⟨howned, hopen⟩ := event_owned h event
    obtain ⟨hrest, hrestOpen⟩ := ih howned
    refine ⟨hrest, ?_⟩
    rw [advance, List.foldl_cons, ← advance, hrestOpen, hopen, List.any_cons, Bool.not_or,
      Bool.and_assoc]

/-! Nothing passes through a closed connection. -/

theorem perform_closed {c : Client} (h : c.isOpen = false) (call : Call) :
    settle call.perform c = match call.request with
      | .ok _ => (.error .closed, c)
      | .error e => (.error e, c) := by
  cases hrequest : call.request with
  | ok message =>
    obtain ⟨rest, -, hperform⟩ := perform_asks hrequest
    rw [hperform, settle_bind, send_closed h]
  | error e =>
    rw [perform_unbuilt hrequest]
    rfl

theorem closed_step {c : Client} (h : c.isOpen = false) (s : Step) :
    (settle s.perform c).2 = c ∧ (s.Uses → (settle s.perform c).1 = .error .closed) ∧
      (s.closes = true → (settle s.perform c).1 = .ok ()) := by
  cases s with
  | send message =>
    rw [Step.perform, send_closed h]
    exact ⟨rfl, fun _ => rfl, fun hcloses => by cases hcloses⟩
  | read =>
    rw [Step.perform, settle_bind, read_closed h]
    exact ⟨rfl, fun _ => rfl, fun hcloses => by cases hcloses⟩
  | ask call =>
    rw [Step.perform, settle_bind, perform_closed h]
    cases hrequest : call.request with
    | ok message => exact ⟨rfl, fun _ => rfl, fun hcloses => by cases hcloses⟩
    | error e =>
      refine ⟨rfl, ?_, fun hcloses => by cases hcloses⟩
      rintro (hread | ⟨message, hmessage⟩)
      · cases hread
      · rw [Step.message?, hrequest] at hmessage
        cases hmessage
  | enter =>
    refine ⟨rfl, ?_, fun hcloses => by cases hcloses⟩
    rintro (hread | ⟨message, hmessage⟩)
    · cases hread
    · cases hmessage
  | close | exit | exitConnection =>
    rw [perform_closes rfl, close_closed h]
    refine ⟨rfl, ?_, fun _ => rfl⟩
    rintro (hread | ⟨message, hmessage⟩)
    · cases hread
    · cases hmessage

/-- A connection through which nothing passes: the steps that use it fail without a trace, and
closing does nothing. -/
def Shut (c : Client) : Prop :=
  ∀ s : Step, (settle s.perform c).2 = c ∧
    (s.Uses → ∃ e, (settle s.perform c).1 = .error e ∧ e.category? = some .stream) ∧
    (s.closes = true → (settle s.perform c).1 = .ok ())

/-- Which sockets are closed. For every host and whatever happens between the steps: where
connecting fails with a category, a socket that was created has been closed, and where it fails
without one, the socket is left open. That happens exactly if a call on the socket is given what
does not fit it. Where connecting succeeds, the socket is closed by the first step that closes and
by no other, and from then on nothing passes. -/
theorem socket_closed_once_unless_unfit (host : Host) (stream : Stream) (target : Target) :
    let fits := Fitting host target.sockname target.timeout
    let ended := settle (connect target) { host, stream }
    (∀ e, ended.1 = .error e → ended.2.isOpen = false ∧ sockets ended.2 ≤ 1 ∧
      (closings ended.2 = if e.category?.isSome then sockets ended.2 else 0) ∧
      (closings ended.2 = sockets ended.2 ↔ sockets ended.2 = 0 ∨ fits)) ∧
    (ended.1 = .ok () → fits ∧ ∀ events : List Event,
      let c := advance ended.2 events
      c.isOpen = !events.any Event.closes ∧ sockets c = 1 ∧
        (closings c = if c.isOpen then 0 else 1) ∧ (c.isOpen = false → Shut c)) := by
  intro fits ended
  have hstart : Unconnected { host, stream } := ⟨rfl, rfl, rfl⟩
  have hconnects : Connects fits ended := connect_connects target hstart
  obtain ⟨outcome, c⟩ := ended
  constructor
  · intro e hfailed
    obtain rfl : outcome = .error e := hfailed
    obtain ⟨hclosed, ⟨hnone, hclosings⟩ | ⟨hone, hclosings, hfits⟩⟩ := hconnects
    · have hequal : closings c = sockets c := hclosings.trans hnone.symm
      refine ⟨hclosed, hnone.trans_le (Nat.zero_le 1), ?_, iff_of_true hequal (Or.inl hnone)⟩
      rw [hclosings, hnone, ite_self]
    · refine ⟨hclosed, hone.le, by rw [hclosings, hone], ?_⟩
      rw [hclosings, hone, ← hfits]
      cases e.category?.isSome <;> simp
  · intro hdone
    obtain rfl : outcome = .ok () := hdone
    obtain ⟨hopen, howned, hfits⟩ := hconnects
    refine ⟨hfits, fun events => ?_⟩
    obtain ⟨hafter, hafterOpen⟩ := advance_owned howned events
    rw [hopen, Bool.true_and] at hafterOpen
    refine ⟨hafterOpen, hafter.sockets, hafter.closings, ?_⟩
    intro hclosed s
    obtain ⟨hsame, huses, hcloses⟩ := closed_step hclosed s
    exact ⟨hsame, fun hs => ⟨.closed, huses hs, rfl⟩, hcloses⟩

/-- The stream's closing fails, the socket is closed all the same, and a watch that is asked for
after a second closing is refused. -/
theorem socket_closed_after_failed_close :
    let ended := settle (connect { sockname := .text "/s" }) {}
    let c := advance ended.2 [.arm .close ⟨some 5, "Input/output error", none⟩, .step .close,
      .step .exit]
    closings c = 1 ∧
      ∃ e, (settle (Step.ask (.watch (.text "/a"))).perform c).1 = .error e ∧
        e.category? = some .stream := by
  intro ended c
  obtain ⟨-, hconnected⟩ := socket_closed_once_unless_unfit {} {} { sockname := .text "/s" }
  obtain ⟨hopen, -, hclosings, hshut⟩ := (hconnected rfl).2
    [.arm .close ⟨some 5, "Input/output error", none⟩, .step .close, .step .exit]
  have hclosed : c.isOpen = false := hopen
  constructor
  · exact hclosings.trans (by rw [hopen]; rfl)
  · exact (hshut hclosed _).2.1 (Or.inr ⟨_, rfl⟩)

/-- The path is a lone surrogate, or the time limit is infinite: the call breaks off, and the socket
stays open with nobody to close it. -/
theorem socket_left_open :
    let surrogate : CodePoint := Fin.ofNat 0x110000 0xD800
    let unencodable : CallFault := .unencodable ⟨surrogate, 0, 1⟩
    let tooLarge : CallFault := .tooLarge "timestamp too large"
    let named := settle (connect { sockname := .text [surrogate] })
      { host := { pathFault := unencodable } }
    let timed := settle (connect { sockname := .text "/s", timeout := .float (.infinite false) })
      { host := { limitFault := tooLarge } }
    (named.1 = .error (.call unencodable) ∧ sockets named.2 = 1 ∧ closings named.2 = 0) ∧
      timed.1 = .error (.call tooLarge) ∧ sockets timed.2 = 1 ∧ closings timed.2 = 0 :=
  ⟨⟨rfl, rfl, rfl⟩, rfl, rfl, rfl⟩

end Client

end FileWatch
