import KalshiAutotrader.Md.StreamUse

/-!
Which headers a connection is opened with.

The handler signs anew before each reconnect, and keeps the old headers when that fails.
The requests of a run are therefore determined by its actions: each is made with what the
last refresh that succeeded had returned by the time its client was made.
-/

namespace KalshiAutotrader.Md

open Kit KalshiAutotrader.Core Logging Simdjson FeedHandler

/-- The headers in use, and the requests made so far. -/
structure Requests where
  headers : SignedHeaders
  made : List HandshakeRequest

/-- What an action does to the requests of a handler. -/
def Requests.follow (options : RunOptions) (url : WsUrl) (r : Requests) : FeedAct → Requests
  | .waited moment =>
      match options.refreshHeaders with
      | none => r
      | some refresh => { r with headers := (refresh moment).getD r.headers }
  | .sslHandshaken none => { r with made := r.made ++ [⟨url.host, url.target, r.headers⟩] }
  | _ => r

/-- The requests of a run. -/
def requests (options : RunOptions) (url : WsUrl) (acts : List FeedAct) : Requests :=
  acts.foldl (Requests.follow options url) ⟨options.headers, []⟩

variable {iterate : ℕ → Bytes → Except SimdError Document} {options : RunOptions} {url : WsUrl}
  {s s' : RunState}

/-! ### One step -/

/-- The step makes no request, and leaves the next one as it is. -/
structure SameRequests (s s' : RunState) : Prop where
  headers : s'.options.headers = s.options.headers
  request : s'.request = s.request
  handshakes : s'.handshakes = s.handshakes

theorem sameRequests_fail {op : Op} (hop : op ∈ s.inFlight) (err : WsError) (msg : Bytes) :
    SameRequests s (fail (s.updateClient (·.finish op)) err msg) := by
  obtain ⟨client, hclient, -⟩ := exists_client_of_mem hop
  refine ⟨by simp, ?_, by simp⟩
  rw [fail_request]
  simp [RunState.request, RunState.updateClient, hclient]

/-- A handler that keeps its client, whatever else the client does. -/
theorem sameRequests_of_client {op : Op} (hop : op ∈ s.inFlight) {f : WsClient → WsClient}
    (hf : ∀ c, (f c).handshakeRequest = c.handshakeRequest)
    (hclient' : s'.client = s.client.map f) (hheaders : s'.options.headers = s.options.headers)
    (hhandshakes : s'.handshakes = s.handshakes) : SameRequests s s' := by
  obtain ⟨client, hclient, -⟩ := exists_client_of_mem hop
  refine ⟨hheaders, ?_, hhandshakes⟩
  simp [RunState.request, hclient', hclient, hf]

/-- The headers a wait that expires at `moment` leaves in use. -/
def RunOptions.headersAt (options : RunOptions) (moment : Moment) : SignedHeaders :=
  match options.refreshHeaders with
  | none => options.headers
  | some refresh => (refresh moment).getD options.headers

/-- A connection is asked for with the headers of the options. -/
theorem request_connectClient (hurl : parseWsUrl s.options.wsUrl = .ok url) :
    (connectClient s).options = s.options ∧
      (connectClient s).request = some ⟨url.host, url.target, s.options.headers⟩ ∧
      (connectClient s).handshakes = s.handshakes := by
  rcases connectClient_cases s with ⟨url', hurl', heq⟩ | ⟨err, herr, -⟩
  · obtain rfl := Except.ok.inj (hurl.symm.trans hurl')
    rw [heq]
    exact ⟨rfl, rfl, rfl⟩
  · rw [hurl] at herr
    cases herr

/-- Before it connects, the handler of a wait takes the new headers, if there are any. -/
theorem onWait_headers (s : RunState) (moment : Moment) :
    ∃ logs, onWait s moment = connectClient { s with
      options := { s.options with headers := s.options.headersAt moment }
      trace := s.trace ++ logs } := by
  unfold onWait RunOptions.headersAt
  cases s.options.refreshHeaders with
  | none => exact ⟨[], by rw [List.append_nil]⟩
  | some refresh =>
      cases hmoment : refresh moment with
      | some refreshed =>
          refine ⟨[], ?_⟩
          simp only [hmoment, Option.getD_some, List.append_nil]
      | none =>
          refine ⟨[.log
            (logEvent .error (ascii "md.ws_client") (ascii "refresh_headers_failed") [])], ?_⟩
          simp only [hmoment, Option.getD_none]
          rfl

theorem request_onWait (moment : Moment) (hurl : parseWsUrl s.options.wsUrl = .ok url) :
    (onWait s moment).options.headers = s.options.headersAt moment ∧
      (onWait s moment).request = some ⟨url.host, url.target, s.options.headersAt moment⟩ ∧
      (onWait s moment).handshakes = s.handshakes := by
  obtain ⟨logs, heq⟩ := onWait_headers s moment
  let refreshed : RunState := { s with
    options := { s.options with headers := s.options.headersAt moment }
    trace := s.trace ++ logs }
  have heq : onWait s moment = connectClient refreshed := heq
  obtain ⟨hoptions, hrequest, hhandshakes⟩ := request_connectClient (s := refreshed) hurl
  rw [heq]
  exact ⟨congrArg RunOptions.headers hoptions, hrequest, hhandshakes⟩

/-- What a step does to the requests: a TLS handshake that succeeds makes the next one, a
wait that has expired makes a client for another, and nothing else has to do with them. -/
theorem requests_of_next {a : FeedAct} (h : next iterate s a = some s') :
    (a = .sslHandshaken none ∧ s'.options.headers = s.options.headers ∧
        s'.request = s.request ∧ s'.handshakes = s.handshakes ++ s.request.toList) ∨
      (∃ moment, a = .waited moment ∧ s' = onWait
        { s with timer := { s.timer with expired := s.timer.expired - 1 } } moment) ∨
      ((a ≠ .sslHandshaken none) ∧ (∀ moment, a ≠ .waited moment) ∧ SameRequests s s') := by
  unfold next at h
  split at h
  · cases h
  cases a with
  | resolved ec =>
      obtain ⟨hop, rfl⟩ := finish_map_eq_some.mp h
      refine .inr (.inr ⟨by simp, by simp, ?_⟩)
      cases ec with
      | some text => exact sameRequests_fail hop _ _
      | none =>
          rw [onResolve, updateClient_updateClient]
          exact sameRequests_of_client (f := fun c =>
            { c.finish .resolve with deadline := some connectTimeout }.begin .connect)
            hop (fun _ => rfl) rfl rfl rfl
  | connected ec sni =>
      obtain ⟨hop, rfl⟩ := finish_map_eq_some.mp h
      refine .inr (.inr ⟨by simp, by simp, ?_⟩)
      cases ec with
      | some text => exact sameRequests_fail hop _ _
      | none =>
          cases sni with
          | some text => exact sameRequests_fail hop _ _
          | none =>
              rw [onConnect, updateClient_updateClient]
              exact sameRequests_of_client (f := fun c => (c.finish .connect).begin .sslHandshake)
                hop (fun _ => rfl) rfl rfl rfl
  | sslHandshaken ec =>
      obtain ⟨hop, rfl⟩ := finish_map_eq_some.mp h
      cases ec with
      | some text => exact .inr (.inr ⟨by simp, by simp, sameRequests_fail hop _ _⟩)
      | none =>
          obtain ⟨client, hclient, -⟩ := exists_client_of_mem hop
          refine .inl ⟨rfl, rfl, ?_, ?_⟩ <;>
            simp [onSslHandshake, RunState.request, RunState.updateClient, hclient,
              WsClient.handshakeRequest, WsClient.begin, WsClient.finish]
  | wsHandshaken ec =>
      obtain ⟨hop, rfl⟩ := finish_map_eq_some.mp h
      refine .inr (.inr ⟨by simp, by simp, ?_⟩)
      cases ec with
      | some text => exact sameRequests_fail hop _ _
      | none =>
          rw [onWsHandshake_eq, updateClient_updateClient]
          refine sameRequests_of_client hop (fun c => ?_) rfl rfl rfl
          dsimp only
          split <;> rfl
  | read result =>
      obtain ⟨hop, rfl⟩ := finish_map_eq_some.mp h
      refine .inr (.inr ⟨by simp, by simp, ?_⟩)
      cases result with
      | error text => exact sameRequests_fail hop _ _
      | ok msg =>
          obtain ⟨output, -, heq⟩ :=
            onRead_eq (s := s.updateClient (·.finish .read)) iterate msg
          rw [heq, updateClient_updateClient]
          refine sameRequests_of_client hop (fun c => ?_) rfl rfl rfl
          dsimp only
          split <;> rfl
  | written ec =>
      obtain ⟨hop, rfl⟩ := finish_map_eq_some.mp h
      refine .inr (.inr ⟨by simp, by simp, ?_⟩)
      cases ec with
      | some text => exact sameRequests_fail hop _ _
      | none =>
          exact sameRequests_of_client (f := (·.finish .write)) hop (fun _ => rfl) rfl rfl rfl
  | waited moment =>
      obtain ⟨-, heq⟩ := Option.ite_none_right_eq_some.mp h
      exact .inr (.inl ⟨moment, rfl, (Option.some.inj heq).symm⟩)
  | control | expire | waitAborted | discarded =>
      obtain ⟨-, heq⟩ := Option.ite_none_right_eq_some.mp h
      obtain rfl := Option.some.inj heq
      exact .inr (.inr ⟨by simp, by simp, rfl, rfl, rfl⟩)

/-! ### Every run -/

/-- The run has made these requests, and is ready for the next. -/
structure Makes (options : RunOptions) (url : WsUrl) (r : Requests) (s : RunState) : Prop where
  runs : RunsWith options s
  headers : s.options.headers = r.headers
  request : s.request = some ⟨url.host, url.target, r.headers⟩
  handshakes : s.handshakes = r.made

theorem makes_next {r : Requests} {a : FeedAct} (hurl : parseWsUrl options.wsUrl = .ok url)
    (hs : Makes options url r s) (h : next iterate s a = some s') :
    Makes options url (r.follow options url a) s' := by
  obtain ⟨headers, hoptions⟩ := hs.runs.configured
  have hruns := runsWith_step hs.runs (step_of_next h).2
  rcases requests_of_next h with
    ⟨rfl, hheaders, hrequest, hhandshakes⟩ | ⟨moment, rfl, rfl⟩ | ⟨hssl, hwaited, hsame⟩
  · refine ⟨hruns, hheaders.trans hs.headers, hrequest.trans hs.request, ?_⟩
    rw [hhandshakes, hs.handshakes, hs.request]
    rfl
  · have hurl' : parseWsUrl s.options.wsUrl = .ok url := by
      rw [hoptions]
      exact hurl
    obtain ⟨hheaders', hrequest, hhandshakes⟩ := request_onWait
      (s := { s with timer := { s.timer with expired := s.timer.expired - 1 } }) moment hurl'
    have hfollow : (r.follow options url (.waited moment)).headers =
        s.options.headersAt moment := by
      rw [RunOptions.headersAt, hs.headers]
      simp only [Requests.follow, hoptions]
      cases options.refreshHeaders <;> rfl
    have hmade : (r.follow options url (.waited moment)).made = r.made := by
      simp only [Requests.follow]
      cases options.refreshHeaders <;> rfl
    refine ⟨hruns, hheaders'.trans hfollow.symm, ?_, ?_⟩
    · rw [hrequest, hfollow]
    · rw [hhandshakes, hmade]
      exact hs.handshakes
  · have hfollow : r.follow options url a = r := by
      cases a with
      | waited moment => exact absurd rfl (hwaited moment)
      | sslHandshaken ec =>
          cases ec with
          | none => exact absurd rfl hssl
          | some text => rfl
      | _ => rfl
    rw [hfollow]
    exact ⟨hruns, hsame.headers.trans hs.headers, hsame.request.trans hs.request,
      hsame.handshakes.trans hs.handshakes⟩

/-- The handshakes of a run are those its actions ask for. Each is asked for with what the
last refresh that succeeded before its client was made has returned, or with the headers
of the options if there was none. -/
theorem handshakes_with_latest_headers (iterate : ℕ → Bytes → Except SimdError Document)
    (options : RunOptions) (url : WsUrl) (hurl : parseWsUrl options.wsUrl = .ok url)
    (acts : List FeedAct) (s : RunState)
    (h : (feed iterate options).exec (feed iterate options).start acts = some s) :
    s.handshakes = (requests options url acts).made ∧
      s.options.headers = (requests options url acts).headers := by
  have hmakes : Makes options url (requests options url acts) s := by
    refine Machine.run_induction
      (C := fun acts s => Makes options url (requests options url acts) s) ?_ ?_ h
    · obtain ⟨hoptions, hrequest, hhandshakes⟩ :=
        request_connectClient (s := .initial options) hurl
      have hruns : RunsWith options (RunState.initial options) := ⟨⟨options.headers, rfl⟩, rfl⟩
      exact ⟨runsWith_connectClient hruns, congrArg RunOptions.headers hoptions, hrequest,
        hhandshakes⟩
    · intro acts s a s' _ hs hnext
      rw [requests, List.foldl_append]
      exact makes_next hurl hs hnext
  exact ⟨hmakes.handshakes, hmakes.headers⟩

/-- Options with headers that cannot be refreshed at first. -/
def refreshing : RunOptions :=
  { localOptions with refreshHeaders := some fun moment =>
      if moment.nowMs = 0 then none else some ⟨[], ascii "signed again"⟩ }

/-- Two connections are lost, and a third is opened. -/
def openedAgain : List FeedAct :=
  lostConnection ++ [.expire, .waited ⟨0, 0⟩] ++ lostConnection ++ [.expire, .waited ⟨1, 0⟩] ++
    opening

theorem handshakes_with_latest_headers_refreshing :
    ∃ s, (feed eager refreshing).exec (feed eager refreshing).start openedAgain = some s ∧
      s.handshakes.map HandshakeRequest.headers =
        [⟨[], []⟩, ⟨[], []⟩, ⟨[], ascii "signed again"⟩] := by
  obtain ⟨s, hexec⟩ := Option.isSome_iff_exists.mp
    (show ((feed eager refreshing).exec (feed eager refreshing).start openedAgain).isSome by
      decide +kernel)
  have hmade := (handshakes_with_latest_headers eager refreshing
    ⟨ascii "localhost", ascii "443", ascii "/"⟩ (by decide) openedAgain s hexec).1
  refine ⟨s, hexec, ?_⟩
  rw [hmade]
  rfl

end KalshiAutotrader.Md
