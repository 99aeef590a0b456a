import KalshiAutotrader.Md.FeedSteps

/-!
What a step does to the current client and to the back-off.

`Effect` lists it case by case, and `client_invariant` is the induction: what holds
of a new client and survives what can happen to a client holds of the current client
wherever a run gets to. A client that is replaced is left alone from then on, so this
is a statement about every client of the run.
-/

namespace KalshiAutotrader.Md

open Kit KalshiAutotrader.Core Logging Simdjson FeedHandler

/-! ### The client -/

/-- A client as `connect_client` leaves it. -/
inductive WsClient.Fresh : WsClient → Prop
  | connecting (options : RunOptions) (url : WsUrl) (headers : SignedHeaders) :
      Fresh ((newClient options).connectTo url headers)
  | rejected (options : RunOptions) (err : WsError) : Fresh ((newClient options).report err)

/-- A fresh client of a handler that runs with these options. -/
inductive WsClient.FreshWith (options : RunOptions) : WsClient → Prop
  | connecting (url : WsUrl) (headers : SignedHeaders) :
      FreshWith options ((newClient options).connectTo url headers)
  | rejected (err : WsError) : FreshWith options ((newClient options).report err)

theorem WsClient.FreshWith.fresh {options : RunOptions} {c : WsClient}
    (h : c.FreshWith options) : c.Fresh := by
  cases h with
  | connecting url headers => exact .connecting options url headers
  | rejected err => exact .rejected options err

/-- What a new client takes from the options is not the headers. -/
theorem WsClient.FreshWith.of_headers {options : RunOptions} {headers : SignedHeaders}
    {c : WsClient} (h : c.FreshWith { options with headers := headers }) :
    c.FreshWith options := by
  cases h with
  | connecting url headers => exact .connecting url headers
  | rejected err => exact .rejected err

/-- The client after its websocket handshake, with `on_open` called and the first read
started. -/
def WsClient.openedWith (c : WsClient) (cmd : Bytes) : WsClient :=
  let c := { c.finish .wsHandshake with opened := true }
  (if cmd ≠ [] then c.sendText cmd else c).begin .read

/-- The completions that neither fail nor open the connection. -/
inductive WsClient.Advances (c : WsClient) : FeedAct → WsClient → Prop
  | resolved (hop : .resolve ∈ c.inFlight) : Advances c (.resolved none)
      ({ c.finish .resolve with deadline := some connectTimeout }.begin .connect)
  | connected (hop : .connect ∈ c.inFlight) :
      Advances c (.connected none none) ((c.finish .connect).begin .sslHandshake)
  | sslHandshaken (hop : .sslHandshake ∈ c.inFlight) :
      Advances c (.sslHandshaken none) ((c.finish .sslHandshake).begin .wsHandshake)
  | received {msg : Bytes} (closed : Bool) (hop : .read ∈ c.inFlight) :
      Advances c (.read (.ok msg))
        ({ c.finish .read with dispatched := c.dispatched + 1, closed := closed }.begin .read)
  | written (hop : .write ∈ c.inFlight) : Advances c (.written none) (c.finish .write)

/-! ### One step -/

/-- The back-off, the delays since the last open and what the timer was given are as
before. -/
structure SameBackoff (s s' : RunState) : Prop where
  reconnect : s'.reconnect = s.reconnect
  delays : s'.delays = s.delays
  duration : s'.timer.duration = s.timer.duration

inductive Effect (s : RunState) : FeedAct → RunState → Prop
  | failed {a : FeedAct} {op : Op} {err : WsError} {msg : Bytes}
      (houtcome : a.outcome = some (op, some (err, msg))) (hop : op ∈ s.inFlight) :
      Effect s a (fail (s.updateClient (·.finish op)) err msg)
  | advanced {a : FeedAct} {c c' : WsClient} {s' : RunState} (hclient : s.client = some c)
      (hadvances : c.Advances a c') (hclient' : s'.client = some c') (hback : SameBackoff s s') :
      Effect s a s'
  | opened {c : WsClient} {s' : RunState} (hclient : s.client = some c)
      (hop : .wsHandshake ∈ c.inFlight)
      (hclient' : s'.client = some (c.openedWith s.options.subscribeCmd))
      (hreconnect : s'.reconnect = s.reconnect.reset) (hdelays : s'.delays = []) :
      Effect s (.wsHandshaken none) s'
  | waited {moment : Moment} (hexpired : 0 < s.timer.expired) :
      Effect s (.waited moment) (onWait
        { s with timer := { s.timer with expired := s.timer.expired - 1 } } moment)
  | other {a : FeedAct} {s' : RunState} (houtcome : a.outcome = none)
      (hwaited : ∀ moment, a ≠ .waited moment) (hclient : s'.client = s.client)
      (hback : SameBackoff s s') : Effect s a s'

namespace FeedHandler

variable {iterate : ℕ → Bytes → Except SimdError Document} {options : RunOptions}
  {s s' : RunState} {a : FeedAct}

theorem effect_of_next (h : next iterate s a = some s') : Effect s a s' := by
  unfold next at h
  split at h
  · cases h
  cases a with
  | resolved ec =>
      obtain ⟨hop, rfl⟩ := finish_map_eq_some.mp h
      cases ec with
      | some text => exact .failed rfl hop
      | none =>
          obtain ⟨c, hc, hopc⟩ := exists_client_of_mem hop
          exact .advanced hc (.resolved hopc)
            (by simp [onResolve, RunState.updateClient, hc]) ⟨rfl, rfl, rfl⟩
  | connected ec sni =>
      obtain ⟨hop, rfl⟩ := finish_map_eq_some.mp h
      cases ec with
      | some text => exact .failed rfl hop
      | none =>
          cases sni with
          | some text => exact .failed rfl hop
          | none =>
              obtain ⟨c, hc, hopc⟩ := exists_client_of_mem hop
              exact .advanced hc (.connected hopc)
                (by simp [onConnect, RunState.updateClient, hc]) ⟨rfl, rfl, rfl⟩
  | sslHandshaken ec =>
      obtain ⟨hop, rfl⟩ := finish_map_eq_some.mp h
      cases ec with
      | some text => exact .failed rfl hop
      | none =>
          obtain ⟨c, hc, hopc⟩ := exists_client_of_mem hop
          exact .advanced hc (.sslHandshaken hopc)
            (by simp [onSslHandshake, RunState.updateClient, hc]) ⟨rfl, rfl, rfl⟩
  | wsHandshaken ec =>
      obtain ⟨hop, rfl⟩ := finish_map_eq_some.mp h
      cases ec with
      | some text => exact .failed rfl hop
      | none =>
          obtain ⟨c, hc, hopc⟩ := exists_client_of_mem hop
          rw [onWsHandshake_eq]
          exact .opened hc hopc (by simp [RunState.updateClient, hc, WsClient.openedWith]) rfl rfl
  | read result =>
      obtain ⟨hop, rfl⟩ := finish_map_eq_some.mp h
      cases result with
      | error text => exact .failed rfl hop
      | ok msg =>
          obtain ⟨c, hc, hopc⟩ := exists_client_of_mem hop
          obtain ⟨output, -, heq⟩ :=
            onRead_eq (s := s.updateClient (·.finish .read)) iterate msg
          rw [heq]
          refine .advanced hc (.received (c.closed || decide (s.remaining = 1)) hopc) ?_
            ⟨rfl, rfl, rfl⟩
          by_cases hlast : s.remaining = 1 <;>
            simp [RunState.updateClient, hc, hlast, WsClient.close, WsClient.finish]
  | written ec =>
      obtain ⟨hop, rfl⟩ := finish_map_eq_some.mp h
      cases ec with
      | some text => exact .failed rfl hop
      | none =>
          obtain ⟨c, hc, hopc⟩ := exists_client_of_mem hop
          exact .advanced hc (.written hopc)
            (by simp [onWrite, RunState.updateClient, hc]) ⟨rfl, rfl, rfl⟩
  | waited moment =>
      obtain ⟨hexpired, heq⟩ := Option.ite_none_right_eq_some.mp h
      obtain rfl := Option.some.inj heq
      exact .waited hexpired
  | control | expire | waitAborted | discarded =>
      obtain ⟨-, heq⟩ := Option.ite_none_right_eq_some.mp h
      obtain rfl := Option.some.inj heq
      exact .other rfl (by simp) rfl ⟨rfl, rfl, rfl⟩

/-! ### Every client of a run -/

theorem fresh_connectClient (s : RunState) :
    ∃ c, (connectClient s).client = some c ∧ c.FreshWith s.options := by
  rcases connectClient_cases s with ⟨url, -, heq⟩ | ⟨err, -, heq⟩ <;> rw [heq]
  · exact ⟨_, rfl, .connecting _ _⟩
  · exact ⟨_, fail_client _ _ _, .rejected _⟩

theorem fresh_onWait (s : RunState) (moment : Moment) :
    ∃ c, (onWait s moment).client = some c ∧ c.FreshWith s.options := by
  obtain ⟨headers, logs, heq, -⟩ := onWait_eq s moment
  rw [heq]
  obtain ⟨c, hc, hnew⟩ := fresh_connectClient { s with
    options := { s.options with headers := headers }, trace := s.trace ++ logs }
  exact ⟨c, hc, hnew.of_headers⟩

/-- The rule for clients, over the runs whose steps meet `P`. -/
theorem client_invariant {P : RunState → FeedAct → Prop} {I : WsClient → Prop}
    (hfresh : ∀ {c}, c.FreshWith options → I c)
    (hfail : ∀ {c op err}, op ∈ c.inFlight → I c → I ((c.finish op).report err))
    (hadvance : ∀ {a c c'}, c.Advances a c' → I c → I c')
    (hopen : ∀ {s c}, P s (.wsHandshaken none) → .wsHandshake ∈ c.inFlight → I c →
      I (c.openedWith options.subscribeCmd))
    (h : (feed iterate options).Reach P s) : ∃ c, s.client = some c ∧ I c := by
  have hboth : RunsWith options s ∧ ∃ c, s.client = some c ∧ I c := by
    refine h.invariant (I := fun s => RunsWith options s ∧ ∃ c, s.client = some c ∧ I c) ?_
      fun {s a s'} hs hP hnext => ⟨runsWith_step hs.1 (step_of_next hnext).2, ?_⟩
    · obtain ⟨c, hc, hnew⟩ := fresh_connectClient (.initial options)
      exact ⟨runsWith_connectClient ⟨⟨options.headers, rfl⟩, rfl⟩, c, hc, hfresh hnew⟩
    · obtain ⟨hruns, c, hc, hI⟩ := hs
      obtain ⟨headers, hoptions⟩ := hruns.configured
      cases effect_of_next hnext with
      | failed _ hop =>
          obtain ⟨c', hc', hopc⟩ := exists_client_of_mem hop
          obtain rfl := Option.some.inj (hc.symm.trans hc')
          exact ⟨_, by simp [RunState.updateClient, hc]; rfl, hfail hopc hI⟩
      | advanced hc' hadvances hnew =>
          obtain rfl := Option.some.inj (hc.symm.trans hc')
          exact ⟨_, hnew, hadvance hadvances hI⟩
      | opened hc' hop hnew =>
          obtain rfl := Option.some.inj (hc.symm.trans hc')
          refine ⟨_, hnew, ?_⟩
          rw [hoptions]
          exact hopen hP hop hI
      | @waited moment =>
          obtain ⟨c', hc', hnew⟩ := fresh_onWait
            { s with timer := { s.timer with expired := s.timer.expired - 1 } } moment
          have hnew : c'.FreshWith s.options := hnew
          rw [hoptions] at hnew
          exact ⟨c', hc', hfresh hnew.of_headers⟩
      | other _ _ hsame => exact ⟨c, hsame.trans hc, hI⟩
  exact hboth.2

end FeedHandler

end KalshiAutotrader.Md
