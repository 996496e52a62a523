import FileWatch.Config.Settings
import FileWatch.Proofs.Discovery
import FileWatch.Proofs.Ownership
/-!
Visits to the daemon: a client connects, makes one call and closes the connection however the call
has ended. A visit is answered, or fails at the first stage that does not go through. What it fails
with belongs to a category, but for calls that break off, surrogates that are to be sent and
integers that are too long.
-/

namespace FileWatch

theorem run_finally {ε σ α β : Type} (x : EStateM ε σ α) (y : EStateM ε σ β) (s : σ) :
    (try x finally y : EStateM ε σ α).run s = match x.run s with
      | .ok a s' =>
        match y.run s' with
        | .ok _ s'' => .ok a s''
        | .error e s'' => .error e s''
      | .error e s' =>
        match y.run s' with
        | .ok _ s'' => .error e s''
        | .error e' s'' => .error e' s'' := by
  simp only [tryFinally, tryFinally', Functor.map, EStateM.map, EStateM.run]
  cases x s with
  | ok a s' =>
    dsimp only
    cases y s' <;> rfl
  | error e s' =>
    dsimp only
    cases y s' <;> rfl

namespace Client

open FileWatch.Config (Settings)
open FileWatch.Json (Overlong Serializable)
open FileWatch.Stream (OverlongAhead)

variable {α β γ : Type}

def visit (target : Target) (x : Action α) : Action α := do
  connect target
  try x finally close

theorem close_done (c : Client) : ∃ c', close.run c = .ok () c' := by
  have hsettle : (settle close c).1 = .ok () := by
    cases hopen : c.isOpen with
    | true => exact (close_open hopen).1
    | false => rw [close_closed hopen]
  unfold settle at hsettle
  cases hrun : close.run c with
  | ok _ c' => exact ⟨c', rfl⟩
  | error e c' =>
    rw [hrun] at hsettle
    cases hsettle

/-- Closing at the end changes nothing of how an action ends. -/
theorem finally_close (x : Action α) (c : Client) :
    settle (try x finally close) c = ((settle x c).1, (settle close (settle x c).2).2) := by
  unfold settle
  rw [run_finally]
  cases x.run c with
  | ok a c' =>
    obtain ⟨c'', hclose⟩ := close_done c'
    simp only [hclose]
  | error e c' =>
    obtain ⟨c'', hclose⟩ := close_done c'
    simp only [hclose]

theorem visit_result (target : Target) (x : Action α) (c : Client) :
    (settle (visit target x) c).1 = match settle (connect target) c with
      | (.ok (), c') => (settle x c').1
      | (.error e, _) => .error e := by
  rw [visit, settle_bind]
  rcases settle (connect target) c with ⟨e | a, c'⟩
  · rfl
  · dsimp only
    rw [finally_close]

/-! Visits that are answered. -/

inductive Answered (target : Target) (call : Call) (c : Client) (answer : Answer) : Prop where
  | accepted {message v c₁ c₂ c₃} : settle (connect target) c = (.ok (), c₁) →
      call.request = .ok message → settle (send message) c₁ = (.ok (), c₂) →
      settle read c₂ = (.ok v, c₃) → call.decode v = .ok answer → Answered target call c answer

theorem perform_answered {call : Call} {message : Value}
    (h : Exchanges call.perform message call.decode) {c : Client} {answer : Answer} :
    (settle call.perform c).1 = .ok answer ↔ ∃ v c₁ c₂, settle (send message) c = (.ok (), c₁) ∧
      settle read c₁ = (.ok v, c₂) ∧ call.decode v = .ok answer := by
  obtain ⟨k, hperform, hk⟩ := h
  rw [hperform, settle_bind]
  rcases settle (send message) c with ⟨e | u, c₁⟩
  · simp
  · dsimp only
    rw [settle_bind]
    rcases hread : settle read c₁ with ⟨e | v, c₂⟩
    · simp [hread]
    · dsimp only
      rw [hk]
      constructor
      · intro hdecode
        cases hv : call.decode v with
        | error e =>
          rw [hv] at hdecode
          cases hdecode
        | ok a =>
          rw [hv] at hdecode
          cases hdecode
          exact ⟨v, c₁, c₂, rfl, hread, hv⟩
      · rintro ⟨v', c₁', c₂', hsend, hread', hv⟩
        cases hsend
        rw [hread] at hread'
        cases hread'
        rw [hv]
        rfl

theorem visit_answered {call : Call} (h : call.Typed) (target : Target) (c : Client)
    (answer : Answer) :
    (settle (visit target call.perform) c).1 = .ok answer ↔ Answered target call c answer := by
  obtain ⟨message, hrequest, hexchange⟩ := typed_exchanges h
  rw [visit_result]
  rcases hconnect : settle (connect target) c with ⟨e | u, c₁⟩
  · refine iff_of_false (by simp) ?_
    rintro ⟨hconnect', -, -, -, -⟩
    rw [hconnect] at hconnect'
    cases hconnect'
  · dsimp only
    rw [perform_answered hexchange]
    constructor
    · rintro ⟨v, c₂, c₃, hsend, hread, hdecode⟩
      exact .accepted hconnect hrequest hsend hread hdecode
    · rintro ⟨hconnect', hrequest', hsend, hread, hdecode⟩
      rw [hconnect] at hconnect'
      rw [hrequest] at hrequest'
      cases hconnect'
      cases hrequest'
      exact ⟨_, _, _, hsend, hread, hdecode⟩

/-! Connecting. -/

theorem keeps_stream_connectPath (path timeout : Value) :
    Keeps (fun c => c.stream) (connectPath path timeout) := by
  intro c
  have hlimited : (limited timeout (called .createSocket c)).stream = c.stream := by
    cases timeout <;> rfl
  generalize hr : settle (connectPath path timeout) c = r
  have hends := hr ▸ connectPath_ends path timeout c
  cases hends with
  | uncreated | unlimited => rfl
  | reaches _ _ hreaches => cases hreaches <;> exact hlimited

theorem connect_target_some {s : Settings} {path : Text} (h : s.sockname = some path) :
    connect s.target = connectPath (.text path) s.target.timeout := by
  obtain ⟨sockname, binary, limit⟩ := s
  cases h
  have hpath : Value.text path ≠ .null := nofun
  exact connect_located hpath _ _

theorem connect_target_none {s : Settings} (h : s.sockname = none) :
    connect s.target = (do
      let name ← discover s.target.binary s.target.timeout
      connectPath (.text name) s.target.timeout) := by
  obtain ⟨sockname, binary, limit⟩ := s
  cases h
  exact connect_discovering _ _

theorem keeps_stream_connect (s : Settings) : Keeps (fun c => c.stream) (connect s.target) := by
  cases hsockname : s.sockname with
  | some path =>
    rw [connect_target_some hsockname]
    exact keeps_stream_connectPath _ _
  | none =>
    rw [connect_target_none hsockname]
    refine keeps_bind (fun c => ?_) fun name => keeps_stream_connectPath _ _
    have hunlogged := congrArg Client.stream (discover_unlogged s.target.binary s.target.timeout c)
    exact hunlogged

theorem connect_opens (s : Settings) {c c' : Client} (hc : Unconnected c)
    (h : settle (connect s.target) c = (.ok (), c')) : c'.isOpen = true := by
  have hconnects := connect_connects s.target hc
  rw [h] at hconnects
  exact hconnects.1

/-! Failures without a category. -/

/-- The path that a client with these settings connects to: the configured one, or the one that the
discovery command announces. -/
inductive Located (s : Settings) (host : Host) : Text → Prop where
  | configured {path} : s.sockname = some path → Located s host path
  | announced {output errors path} : s.sockname = none →
      host.discovery = .finished 0 output errors → Announces output path → Located s host path

inductive Unreached (s : Settings) (host : Host) : Prop where
  | undiscovered : s.sockname = none → Undiscovered (.text s.binary) host → Unreached s host
  | unfit {path} : Located s host path → host.socketError = none →
      ¬ Fitting host (.text path) s.target.timeout → Unreached s host

theorem connectPath_uncategorized (path timeout : Value) (c : Client) :
    (∃ e, (settle (connectPath path timeout) c).1 = .error e ∧ e.category? = none) ↔
      c.host.socketError = none ∧ ¬ Fitting c.host path timeout := by
  generalize hr : settle (connectPath path timeout) c = r
  have hends := hr ▸ connectPath_ends path timeout c
  cases hends with
  | uncreated hsocket =>
    refine iff_of_false ?_ (by simp [hsocket])
    rintro ⟨e, ⟨⟩, hcategory⟩
    cases hcategory
  | unlimited hsocket hnull hfault =>
    refine iff_of_true ⟨_, rfl, rfl⟩ ⟨hsocket, fun hfits => ?_⟩
    rw [hfits.limit hnull] at hfault
    cases hfault
  | reaches hsocket hlimit hreaches =>
    have hhost : (limited timeout (called .createSocket c)).host = c.host := limited_host timeout _
    have hfits {p : Text} (hpath : path.display = .ok p)
        (hfault : (limited timeout (called .createSocket c)).host.pathFault = none) :
        Fitting c.host path timeout := ⟨hlimit, ⟨p, hpath⟩, hhost ▸ hfault⟩
    cases hreaches with
    | unwritten hpath =>
      refine iff_of_true ⟨_, rfl, rfl⟩ ⟨hsocket, fun h => ?_⟩
      obtain ⟨p, hp⟩ := h.path
      rw [hpath] at hp
      cases hp
    | unfit hpath hfault =>
      refine iff_of_true ⟨_, rfl, rfl⟩ ⟨hsocket, fun h => ?_⟩
      rw [hhost, h.encoding] at hfault
      cases hfault
    | refused hpath hfault | unwrapped hpath hfault =>
      refine iff_of_false ?_ fun h => h.2 (hfits hpath hfault)
      rintro ⟨e, ⟨⟩, hcategory⟩
      cases hcategory
    | opened hpath hfault => exact iff_of_false nofun fun h => h.2 (hfits hpath hfault)

/-- Connecting fails outside the categories only where a call breaks off. -/
theorem connect_uncategorized (s : Settings) (c : Client) :
    (∃ e, (settle (connect s.target) c).1 = .error e ∧ e.category? = none) ↔
      Unreached s c.host := by
  cases hsockname : s.sockname with
  | some path =>
    rw [connect_target_some hsockname, connectPath_uncategorized]
    constructor
    · rintro ⟨hsocket, hunfit⟩
      exact .unfit (.configured hsockname) hsocket hunfit
    · rintro (⟨hnone, -⟩ | ⟨-, hsocket, hunfit⟩)
      · rw [hsockname] at hnone
        cases hnone
      · exact ⟨hsocket, fun h => hunfit ⟨h.limit, ⟨_, rfl⟩, h.encoding⟩⟩
  | none =>
    have hdiscover := discover_uncategorized s.target.binary s.target.timeout c
    have hfound := discover_ok s.target.binary s.target.timeout c
    have hhost := congrArg Client.host (discover_unlogged s.target.binary s.target.timeout c)
    rw [connect_target_none hsockname, settle_bind]
    rcases hsettle : settle (discover s.target.binary s.target.timeout) c with ⟨e | name, c'⟩
    · rw [hsettle] at hdiscover hfound
      simp only [Except.error.injEq] at hdiscover ⊢
      constructor
      · intro h
        exact .undiscovered hsockname (hdiscover.mp h)
      · rintro (⟨-, hundiscovered⟩ | ⟨hlocated, -⟩)
        · exact hdiscover.mpr hundiscovered
        · cases hlocated with
          | configured hsome =>
            rw [hsockname] at hsome
            cases hsome
          | announced _ hfinished hannounced =>
            cases (hfound _).mpr ⟨_, _, hfinished, hannounced⟩
    · rw [hsettle] at hdiscover hfound hhost
      have hsame : c'.host = c.host := hhost
      obtain ⟨output, errors, hfinished, hannounced⟩ := (hfound name).mp rfl
      dsimp only
      rw [connectPath_uncategorized, hsame]
      constructor
      · rintro ⟨hsocket, hunfit⟩
        exact .unfit (.announced hsockname hfinished hannounced) hsocket hunfit
      · rintro (⟨-, hundiscovered⟩ | ⟨-, hsocket, hunfit⟩)
        · obtain ⟨e, he, -⟩ := hdiscover.mpr hundiscovered
          cases he
        · exact ⟨hsocket, fun h => hunfit ⟨h.limit, ⟨_, rfl⟩, h.encoding⟩⟩

/-- The visits that fail outside the categories. -/
inductive Breaking (s : Settings) (c : Client) (message : Value) : Prop where
  | unreached : Unreached s c.host → Breaking s c message
  | surrogate {c'} : settle (connect s.target) c = (.ok (), c') → HoldsSurrogate message →
      Breaking s c message
  | overlong {c' n} : settle (connect s.target) c = (.ok (), c') → c.stream.writeError = none →
      c.stream.flushError = none → OverlongAhead n c.stream.incoming → Breaking s c message

theorem visit_uncategorized {call : Call} (h : call.Typed) {message : Value}
    (hrequest : call.request = .ok message) (hmessage : Serializable message) (s : Settings)
    {c : Client} (hc : Unconnected c) :
    (∃ e, (settle (visit s.target call.perform) c).1 = .error e ∧ e.category? = none) ↔
      Breaking s c message := by
  obtain ⟨message', hrequest', hexchange⟩ := typed_exchanges h
  rw [hrequest] at hrequest'
  cases hrequest'
  have hconnect := connect_uncategorized s c
  have hstream := keeps_stream_connect s c
  rw [visit_result]
  rcases hsettle : settle (connect s.target) c with ⟨e | u, c'⟩
  · rw [hsettle] at hconnect
    simp only [Except.error.injEq] at hconnect ⊢
    rw [hconnect]
    constructor
    · exact .unreached
    · intro hbreaking
      cases hbreaking with
      | unreached hunreached => exact hunreached
      | surrogate hconnected | overlong hconnected =>
        rw [hsettle] at hconnected
        cases hconnected
  -- Once connected, what is left is one exchange over the stream that was there at first.
  · rw [hsettle] at hconnect hstream
    have hopen := connect_opens s hc hsettle
    dsimp only at hstream ⊢
    rw [exchange_uncategorized hexchange, hstream]
    constructor
    · rintro ⟨-, -, hholds | ⟨hwrite, hflush, n, hn⟩⟩
      · exact .surrogate hsettle hholds
      · exact .overlong hsettle hwrite hflush hn
    · intro hbreaking
      refine ⟨hopen, hmessage, ?_⟩
      cases hbreaking with
      | unreached hunreached =>
        obtain ⟨e, he, -⟩ := hconnect.mpr hunreached
        cases he
      | surrogate _ hholds => exact Or.inl hholds
      | overlong _ hwrite hflush hn => exact Or.inr ⟨hwrite, hflush, _, hn⟩

end Client

end FileWatch
