import KalshiAutotrader.Md.FeedSteps

/-!
When a client is replaced.

The handler of the reconnect timer overwrites the client without asking what it
is doing. Two things can go wrong. A client can have a read and a write in
flight; the first of them to fail schedules the reconnect, and the other may
still be there when the client goes. And a second error that comes when the wait
of the first has expired arms the timer once more; the first wait brings a new
client, and the second one tears it down.

Each of the two is avoided exactly by a condition on the errors: that a client
reports one with nothing else in flight, and that none is reported while an
expired wait is queued.
-/

namespace KalshiAutotrader.Md

open Kit KalshiAutotrader.Core Logging Simdjson FeedHandler

variable {iterate : ℕ → Bytes → Except SimdError Document} {options : RunOptions}

/-! ### The new client -/

@[simp] theorem connectClient_orphans (s : RunState) :
    (connectClient s).orphans = s.orphans ++ s.inFlight := by
  rcases connectClient_cases s with ⟨url, -, heq⟩ | ⟨err, -, heq⟩ <;> rw [heq]
  simp

@[simp] theorem onWait_orphans (s : RunState) (moment : Moment) :
    (onWait s moment).orphans = s.orphans ++ s.inFlight := by
  obtain ⟨headers, logs, heq, -⟩ := onWait_eq s moment
  rw [heq, connectClient_orphans]
  rfl

/-- A client whose URL is good starts without errors, and the timer stays as it is. -/
theorem onWait_of_url {s : RunState} {url : WsUrl} (h : parseWsUrl s.options.wsUrl = .ok url)
    (moment : Moment) :
    (onWait s moment).reported = [] ∧ (onWait s moment).timer = s.timer ∧
      (onWait s moment).stopped = s.stopped := by
  obtain ⟨headers, logs, heq, -⟩ := onWait_eq s moment
  rw [heq]
  rcases connectClient_cases { s with
      options := { s.options with headers := headers }, trace := s.trace ++ logs } with
    ⟨url', -, hconnect⟩ | ⟨err, herr, -⟩
  · rw [hconnect]
    exact ⟨rfl, rfl, rfl⟩
  · rw [h] at herr
    cases herr

theorem failing_of_outcome {a : FeedAct} {op : Op} {e : WsError × Bytes}
    (h : a.outcome = some (op, some e)) : a.failing = some op := by
  simp [FeedAct.failing, h]

theorem outcome_of_failing {a : FeedAct} {op : Op} (h : a.failing = some op) :
    ∃ e, a.outcome = some (op, some e) := by
  unfold FeedAct.failing at h
  obtain ⟨⟨op', e⟩, houtcome, hop⟩ := Option.bind_eq_some_iff.mp h
  cases e with
  | none => simp at hop
  | some e =>
      obtain rfl : op' = op := by simpa using hop
      exact ⟨e, houtcome⟩

/-- A step that completes an operation with an error reports it. -/
theorem fail_of_failing {s s' : RunState} {a : FeedAct} {op : Op} (hfailing : a.failing = some op)
    (h : next iterate s a = some s') : s.stopped = false ∧ op ∈ s.inFlight ∧
      ∃ err msg, s' = fail (s.updateClient (·.finish op)) err msg := by
  obtain ⟨hlive, hstep⟩ := step_of_next h
  obtain ⟨e, houtcome⟩ := outcome_of_failing hfailing
  cases hstep with
  | failed houtcome' hop =>
      obtain ⟨rfl, -⟩ : _ = op ∧ _ := by simpa [houtcome] using houtcome'.symm
      exact ⟨hlive, hop, _, _, rfl⟩
  | proceeded houtcome' => simp [houtcome] at houtcome'
  | _ => cases houtcome

theorem inFlight_finish {s : RunState} {op : Op} (hop : op ∈ s.inFlight) :
    (s.updateClient (·.finish op)).inFlight = s.inFlight.erase op := by
  obtain ⟨client, hclient, -⟩ := exists_client_of_mem hop
  simp [RunState.inFlight, RunState.updateClient, hclient, WsClient.finish]

/-- An error arms the timer of a handler that reconnects. -/
theorem fail_arms {s : RunState} (hlive : s.stopped = false) (hauto : s.reconnect.enabled = true)
    (err : WsError) (msg : Bytes) :
    (fail s err msg).stopped = false ∧ (fail s err msg).timer.armed = true ∧
      (fail s err msg).timer.expired = s.timer.expired := by
  refine ⟨by simp [hlive, hauto], ?_, ?_⟩ <;> simp [hauto]

theorem idle_initial (options : RunOptions) : ¬ (RunState.initial options).timer.Pending :=
  ReconnectTimer.not_pending_iff.mpr ⟨rfl, rfl⟩

/-- The timer expires and its handler is called. -/
theorem exec_expire_waited {s : RunState} (hlive : s.stopped = false)
    (harmed : s.timer.armed = true) (moment : Moment) :
    (feed iterate options).exec s [.expire, .waited moment] = some (onWait
      { s with timer := { s.timer with armed := false } } moment) := by
  simp [Machine.exec, feed, next, hlive, harmed, ReconnectTimer.expire]

/-! ### Operations of replaced clients -/

/-- An error is reported by a client that has nothing else in flight. -/
def ReportsAlone (s : RunState) (a : FeedAct) : Prop :=
  ∀ op ∈ a.failing, s.inFlight.erase op = []

instance (s : RunState) (a : FeedAct) : Decidable (ReportsAlone s a) :=
  inferInstanceAs (Decidable (∀ op ∈ a.failing, _))

/-- While a reconnect is due, the client has nothing in flight. -/
structure Quiescent (s : RunState) : Prop where
  quiet : s.timer.Pending → s.inFlight = []
  single : s.timer.Single
  orphans : s.orphans = []

/-- After an error there is one wait, whether the handler reconnects or not. -/
theorem single_fail {s : RunState} (hsingle : s.timer.Single) (hexpired : s.timer.expired = 0)
    (err : WsError) (msg : Bytes) : (fail s err msg).timer.Single := by
  rw [fail_timer]
  split
  · exact ReconnectTimer.single_rearm hexpired _
  · exact hsingle

theorem quiescent_fail {s : RunState} (hflight : s.inFlight = []) (hidle : ¬ s.timer.Pending)
    (horphans : s.orphans = []) (err : WsError) (msg : Bytes) : Quiescent (fail s err msg) where
  quiet _ := by simpa using hflight
  single := single_fail (ReconnectTimer.single_of_not_pending hidle)
    (ReconnectTimer.not_pending_iff.mp hidle).2 err msg
  orphans := by simpa using horphans

theorem quiescent_connectClient {s : RunState} (hflight : s.inFlight = [])
    (hidle : ¬ s.timer.Pending) (horphans : s.orphans = []) : Quiescent (connectClient s) := by
  have hnone : s.orphans ++ s.inFlight = [] := by rw [horphans, hflight, List.append_nil]
  rcases connectClient_cases s with ⟨url, -, heq⟩ | ⟨err, -, heq⟩ <;> rw [heq]
  · exact ⟨fun hdue => absurd hdue hidle, ReconnectTimer.single_of_not_pending hidle, hnone⟩
  · apply quiescent_fail
    · rfl
    · exact hidle
    · exact hnone

theorem quiescent_onWait {s : RunState} (hflight : s.inFlight = []) (hidle : ¬ s.timer.Pending)
    (horphans : s.orphans = []) (moment : Moment) : Quiescent (onWait s moment) := by
  obtain ⟨headers, logs, heq, -⟩ := onWait_eq s moment
  rw [heq]
  exact quiescent_connectClient hflight hidle horphans

theorem quiescent_of_proceeds {s s' : RunState} {op : Op} (hs : Quiescent s)
    (hop : op ∈ s.inFlight) (h : Proceeds op s s') : Quiescent s' := by
  refine ⟨fun hdue => ?_, h.timer ▸ hs.single, h.orphans.trans hs.orphans⟩
  -- with an operation in flight there is no reconnect due
  rw [h.timer] at hdue
  rw [hs.quiet hdue] at hop
  cases hop

theorem quiescent_step {s s' : RunState} {a : FeedAct} (hs : Quiescent s)
    (halone : ReportsAlone s a) (h : next iterate s a = some s') : Quiescent s' := by
  obtain ⟨-, hstep⟩ := step_of_next h
  cases hstep with
  | failed houtcome hop =>
      have hempty := halone _ (failing_of_outcome houtcome)
      refine quiescent_fail ((inFlight_finish hop).trans hempty) (fun hdue => ?_) hs.orphans _ _
      rw [hs.quiet hdue] at hop
      cases hop
  | proceeded _ _ hop hproceeds => exact quiescent_of_proceeds hs hop hproceeds
  | received hop hproceeds => exact quiescent_of_proceeds hs hop hproceeds
  | expired harmed =>
      exact ⟨fun _ => hs.quiet (.inl harmed), hs.single.expire harmed, hs.orphans⟩
  | waited hexpired =>
      apply quiescent_onWait
      · exact hs.quiet (.inr hexpired)
      · exact hs.single.idle_after hexpired
      · exact hs.orphans
  | discarded hop =>
      rw [hs.orphans] at hop
      cases hop
  | aborted => exact ⟨hs.quiet, ⟨hs.single.armed, hs.single.expired⟩, hs.orphans⟩
  | controlled => exact ⟨hs.quiet, hs.single, hs.orphans⟩

theorem quiescent_of_reach {s : RunState} (h : (feed iterate options).Reach ReportsAlone s) :
    Quiescent s := by
  refine h.invariant ?_ fun hs halone hnext => quiescent_step hs halone hnext
  apply quiescent_connectClient
  · rfl
  · exact idle_initial options
  · rfl

/-- An error of a client with something else in flight lets a reconnect replace the
client over it. -/
theorem orphans_of_not_alone {s s' : RunState} {a : FeedAct} (hauto : s.reconnect.enabled = true)
    (hnext : next iterate s a = some s') (hbad : ¬ ReportsAlone s a) (moment : Moment) :
    ∃ s'', (feed iterate options).exec s' [.expire, .waited moment] = some s'' ∧
      s''.orphans ≠ [] := by
  simp only [ReportsAlone, Option.mem_def, not_forall] at hbad
  obtain ⟨op, hfailing, hmore⟩ := hbad
  obtain ⟨hlive, hop, err, msg, rfl⟩ := fail_of_failing hfailing hnext
  have hflight : (fail (s.updateClient (·.finish op)) err msg).inFlight ≠ [] := by
    rwa [fail_inFlight, inFlight_finish hop]
  obtain ⟨hstopped, harmed, -⟩ := fail_arms (s := s.updateClient (·.finish op)) hlive hauto err msg
  -- from here on only the armed timer and the operation in flight matter
  generalize fail (s.updateClient (·.finish op)) err msg = t at hflight hstopped harmed
  refine ⟨_, exec_expire_waited hstopped harmed moment, ?_⟩
  rw [onWait_orphans]
  exact fun hnone => hflight (List.append_eq_nil_iff.mp hnone).2

/-- Where every error is reported by a client with nothing else in flight, only the
current client ever has operations in flight; and wherever a run that reconnects
lets an error through that is not, two more steps leave an operation behind. -/
theorem orphans_eq_nil (iterate : ℕ → Bytes → Except SimdError Document) (options : RunOptions) :
    (∀ s, (feed iterate options).Reach ReportsAlone s → s.orphans = []) ∧
    (options.autoReconnect = true → ∀ s a s', (feed iterate options).Reachable s →
      (feed iterate options).next s a = some s' → ¬ ReportsAlone s a →
      ∃ s'', (feed iterate options).exec s' [.expire, .waited ⟨0, 0⟩] = some s'' ∧
        s''.orphans ≠ []) := by
  refine ⟨fun s h => (quiescent_of_reach h).orphans, fun hauto s a s' h hnext hbad => ?_⟩
  exact orphans_of_not_alone ((runsWith_of_reachable h).enabled.trans hauto) hnext hbad _

/-- A run that leaves a read behind: the write of the subscribe command fails, and
the reconnect comes while the read is in flight. -/
def orphaningRun : List FeedAct :=
  opening ++ [.written (some (ascii "broken pipe")), .expire, .waited ⟨0, 0⟩]

theorem orphaningRun_orphans :
    localOptions.autoReconnect = true ∧
      ((feed eager localOptions).exec (feed eager localOptions).start orphaningRun).map
        (·.orphans) = some [.read] := by
  exact ⟨rfl, by decide +kernel⟩

/-! ### Clients without errors -/

/-- No error is reported while an expired wait is queued. -/
def NoLateError (s : RunState) (a : FeedAct) : Prop := ∀ op ∈ a.failing, s.timer.expired = 0

instance (s : RunState) (a : FeedAct) : Decidable (NoLateError s a) :=
  inferInstanceAs (Decidable (∀ op ∈ a.failing, _))

/-- The handler of an expired wait finds a client that has reported an error. -/
def ReplacesFailed (s : RunState) : FeedAct → Prop
  | .waited _ => 0 < s.timer.expired → s.reported ≠ []
  | _ => True

instance (s : RunState) (a : FeedAct) : Decidable (ReplacesFailed s a) :=
  match a with
  | .waited _ => inferInstanceAs (Decidable (_ → _))
  | .resolved _ | .connected _ _ | .sslHandshaken _ | .wsHandshaken _ | .read _ | .written _
  | .control _ _ | .expire | .waitAborted | .discarded _ => isTrue trivial

/-- A reconnect is due to an error of the current client, and to one error only. -/
structure Blamed (s : RunState) : Prop where
  blamed : s.timer.Pending → s.reported ≠ []
  single : s.timer.Single

theorem blamed_fail {s : RunState} {client : WsClient} (hclient : s.client = some client)
    (hsingle : s.timer.Single) (hexpired : s.timer.expired = 0) (err : WsError) (msg : Bytes) :
    Blamed (fail s err msg) where
  blamed _ := by simp [RunState.reported, hclient, WsClient.report]
  single := single_fail hsingle hexpired err msg

theorem blamed_connectClient {s : RunState} (hidle : ¬ s.timer.Pending) :
    Blamed (connectClient s) := by
  rcases connectClient_cases s with ⟨url, -, heq⟩ | ⟨err, -, heq⟩ <;> rw [heq]
  · exact ⟨fun hdue => absurd hdue hidle, ReconnectTimer.single_of_not_pending hidle⟩
  · apply blamed_fail rfl
    · exact ReconnectTimer.single_of_not_pending hidle
    · exact (ReconnectTimer.not_pending_iff.mp hidle).2

theorem blamed_onWait {s : RunState} (hidle : ¬ s.timer.Pending) (moment : Moment) :
    Blamed (onWait s moment) := by
  obtain ⟨headers, logs, heq, -⟩ := onWait_eq s moment
  rw [heq]
  exact blamed_connectClient hidle

theorem blamed_of_proceeds {s s' : RunState} {op : Op} (hs : Blamed s) (h : Proceeds op s s') :
    Blamed s' :=
  ⟨by rw [h.timer, h.reported]; exact hs.blamed, h.timer ▸ hs.single⟩

theorem blamed_step {s s' : RunState} {a : FeedAct} (hs : Blamed s) (hlate : NoLateError s a)
    (h : next iterate s a = some s') : Blamed s' := by
  obtain ⟨-, hstep⟩ := step_of_next h
  cases hstep with
  | @failed _ op err msg houtcome hop =>
      obtain ⟨client, hclient, -⟩ := exists_client_of_mem hop
      have hexpired : s.timer.expired = 0 := hlate op (failing_of_outcome houtcome)
      have hcurrent : (s.updateClient (·.finish op)).client = some (client.finish op) := by
        simp [RunState.updateClient, hclient]
      exact blamed_fail hcurrent hs.single hexpired err msg
  | proceeded _ _ _ hproceeds => exact blamed_of_proceeds hs hproceeds
  | received _ hproceeds => exact blamed_of_proceeds hs hproceeds
  | expired harmed => exact ⟨fun _ => hs.blamed (.inl harmed), hs.single.expire harmed⟩
  | waited hexpired =>
      apply blamed_onWait
      exact hs.single.idle_after hexpired
  | aborted => exact ⟨hs.blamed, ⟨hs.single.armed, hs.single.expired⟩⟩
  | _ => exact ⟨hs.blamed, hs.single⟩

theorem blamed_of_reach {s : RunState} (h : (feed iterate options).Reach NoLateError s) :
    Blamed s := by
  refine h.invariant ?_ fun hs hlate hnext => blamed_step hs hlate hnext
  exact blamed_connectClient (idle_initial options)

/-- A client only gets as far as an operation if its URL is good. -/
def UrlParsed (s : RunState) : Prop :=
  s.inFlight ≠ [] → ∃ url, parseWsUrl s.options.wsUrl = .ok url

theorem urlParsed_connectClient (s : RunState) : UrlParsed (connectClient s) := by
  rcases connectClient_cases s with ⟨url, hurl, heq⟩ | ⟨err, -, heq⟩ <;> rw [heq]
  · exact fun _ => ⟨url, hurl⟩
  · exact fun hflight => absurd (fail_inFlight _ err _) hflight

theorem urlParsed_step {s s' : RunState} {a : FeedAct} (hs : UrlParsed s)
    (h : next iterate s a = some s') : UrlParsed s' := by
  obtain ⟨-, hstep⟩ := step_of_next h
  cases hstep with
  | failed _ hop =>
      intro _
      simpa [RunState.updateClient] using hs (List.ne_nil_of_mem hop)
  | proceeded _ _ hop hproceeds =>
      intro _
      rw [hproceeds.options]
      exact hs (List.ne_nil_of_mem hop)
  | received hop hproceeds =>
      intro _
      rw [hproceeds.options]
      exact hs (List.ne_nil_of_mem hop)
  | @waited moment =>
      obtain ⟨headers, logs, heq, -⟩ := onWait_eq
        { s with timer := { s.timer with expired := s.timer.expired - 1 } } moment
      rw [heq]
      exact urlParsed_connectClient _
  | _ => exact hs

theorem urlParsed_of_reachable {s : RunState} (h : (feed iterate options).Reachable s) :
    UrlParsed s :=
  h.invariant (urlParsed_connectClient _) fun hs _ hnext => urlParsed_step hs hnext

/-- An error while an expired wait is queued arms the timer over it. The queued wait
brings a new client, and the timer expires on that one. -/
theorem teardown_of_late {s s' : RunState} {a : FeedAct} (hauto : s.reconnect.enabled = true)
    (hurl : UrlParsed s) (hnext : next iterate s a = some s') (hbad : ¬ NoLateError s a)
    (moment : Moment) :
    ∃ s'', (feed iterate options).exec s' [.waited moment, .expire] = some s'' ∧
      s''.stopped = false ∧ 0 < s''.timer.expired ∧ s''.reported = [] := by
  simp only [NoLateError, Option.mem_def, not_forall] at hbad
  obtain ⟨op, hfailing, hqueued⟩ := hbad
  obtain ⟨hlive, hop, err, msg, rfl⟩ := fail_of_failing hfailing hnext
  obtain ⟨url, hparsed⟩ := hurl (List.ne_nil_of_mem hop)
  obtain ⟨hstopped, harmed, hexpired⟩ :=
    fail_arms (s := s.updateClient (·.finish op)) hlive hauto err msg
  have hoptions : (fail (s.updateClient (·.finish op)) err msg).options = s.options :=
    fail_options _ err msg
  have hqueue : 0 < s.timer.expired := by omega
  generalize fail (s.updateClient (·.finish op)) err msg = t at hstopped harmed hexpired hoptions
  replace hexpired : t.timer.expired = s.timer.expired := hexpired
  obtain ⟨hreported, htimer, hstill⟩ := onWait_of_url
    (s := { t with timer := { t.timer with expired := t.timer.expired - 1 } })
    (hoptions ▸ hparsed) moment
  generalize hwaited : onWait { t with
    timer := { t.timer with expired := t.timer.expired - 1 } } moment = u at hreported htimer hstill
  -- the queued wait installs the new client and leaves the timer armed
  have hfirst : next iterate t (.waited moment) = some u := by
    simp [next, hstopped, hexpired, hqueue, ← hwaited]
  have hrearmed : u.timer.armed = true := by rw [htimer]; exact harmed
  have hsecond : next iterate u .expire = some { u with timer := u.timer.expire } := by
    simp [next, hstill, hstopped, hrearmed]
  refine ⟨{ u with timer := u.timer.expire }, ?_, hstill.trans hstopped, Nat.succ_pos _, hreported⟩
  simp [Machine.exec, feed, hfirst, hsecond]

/-- Where no error is reported while an expired wait is queued, every reconnect
replaces a client that has reported an error; and wherever a run that reconnects
lets such an error through, two more steps bring a client without errors, with a
queued wait that replaces it. -/
theorem replaces_failed (iterate : ℕ → Bytes → Except SimdError Document)
    (options : RunOptions) :
    (∀ acts, (feed iterate options).Along NoLateError (feed iterate options).start acts →
      (feed iterate options).Along ReplacesFailed (feed iterate options).start acts) ∧
    (options.autoReconnect = true → ∀ s a s', (feed iterate options).Reachable s →
      (feed iterate options).next s a = some s' → ¬ NoLateError s a →
      ∃ s'', (feed iterate options).exec s' [.waited ⟨0, 0⟩, .expire] = some s'' ∧
        s''.stopped = false ∧ ¬ ReplacesFailed s'' (.waited ⟨0, 0⟩)) := by
  refine ⟨fun acts h => ?_, fun hauto s a s' h hnext hbad => ?_⟩
  · refine h.of_reach (fun {s a} hs hlate => ?_) .start
    cases a with
    | waited moment => exact fun hexpired => (blamed_of_reach hs).blamed (.inr hexpired)
    | _ => trivial
  · obtain ⟨s'', hexec, hstopped, hexpired, hreported⟩ := teardown_of_late
      ((runsWith_of_reachable h).enabled.trans hauto) (urlParsed_of_reachable h) hnext hbad ⟨0, 0⟩
    exact ⟨s'', hexec, hstopped, fun hfailed => hfailed hexpired hreported⟩

/-- A run that tears down a healthy connection. The write and the read of a
connection fail, the read when the wait of the write has expired; the next
connection is opened, and the wait of the read ends it. -/
def teardownRun : List FeedAct :=
  opening ++ [.written (some (ascii "broken pipe")), .expire, .read (.error (ascii "reset")),
    .waited ⟨0, 0⟩] ++ opening ++ [.expire]

theorem teardownRun_replaces :
    localOptions.autoReconnect = true ∧
      ((feed eager localOptions).exec (feed eager localOptions).start teardownRun).map
        (fun s => (s.reported, s.inFlight, s.timer.expired)) = some ([], [.write, .read], 1) ∧
      ¬ (feed eager localOptions).Along ReplacesFailed (feed eager localOptions).start
        (teardownRun ++ [.waited ⟨0, 0⟩]) := by
  exact ⟨rfl, by decide +kernel, by decide +kernel⟩

end KalshiAutotrader.Md
