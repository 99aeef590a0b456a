import KalshiAutotrader.Md.MessageFlow

/-!
What the handler says.

The outputs of a run only ever grow, and each is of one of a dozen kinds. What comes
from outside, messages, control frames and the texts of errors, stands in the fields and
in the payload of a log event, and never where its level, its component or its message
is decided.
-/

namespace KalshiAutotrader.Md

open Kit KalshiAutotrader.Core Logging Simdjson FeedHandler

/-- What the handler may do to the outside. -/
inductive Says : Output → Prop
  | capture (msg : Bytes) : Says (.capture (msg ++ [newline]))
  | sink (call : SinkCall) : Says (.sink call)
  | wsError (err : WsError) (msg : Bytes) : Says (.log (wsErrorEvent err msg))
  | reconnectScheduled (delay : Milliseconds) : Says (.log (reconnectScheduledEvent delay))
  | refreshFailed :
      Says (.log (logEvent .error (ascii "md.ws_client") (ascii "refresh_headers_failed") []))
  | wsOpen : Says (.log wsOpenEvent)
  | control (kind : FrameType) (payload : Bytes) :
      Says (.log (logEvent .info (ascii "md.ws_client") (controlMessage kind)
        (LogFields.addString [] (ascii "payload") payload)))
  | wsMessage (msg : Bytes) (count : ℕ) : Says (.log (wsMessageEvent msg count))
  | firstMessage : Says (.log firstMessageEvent)
  | maxMessages : Says (.log maxMessagesEvent)
  | unsupported : Says (.log unsupportedEvent)
  | parseError (error : ParseError) (raw : Bytes) (includeRaw : Bool) :
      Says (.log (parseErrorEvent error raw includeRaw))

/-- The trace goes on with things that are said. -/
def Speaks (s s' : RunState) : Prop :=
  ∃ outputs, s'.trace = s.trace ++ outputs ∧ ∀ output ∈ outputs, Says output

theorem Speaks.of_eq {s s' : RunState} (h : s'.trace = s.trace) : Speaks s s' :=
  ⟨[], by simpa using h, by simp⟩

theorem Speaks.trans {s t u : RunState} (hst : Speaks s t) (htu : Speaks t u) : Speaks s u := by
  obtain ⟨first, hfirst, hspoken⟩ := hst
  obtain ⟨rest, hrest, hspoken'⟩ := htu
  refine ⟨first ++ rest, by rw [hrest, hfirst, List.append_assoc], ?_⟩
  exact List.forall_mem_append.mpr ⟨hspoken, hspoken'⟩

theorem speaks_fail (s : RunState) (err : WsError) (msg : Bytes) : Speaks s (fail s err msg) := by
  rw [fail_eq]
  split
  · refine ⟨_, rfl, ?_⟩
    simpa using ⟨Says.wsError err msg, Says.reconnectScheduled _⟩
  · refine ⟨_, rfl, ?_⟩
    simpa using Says.wsError err msg

theorem speaks_connectClient (s : RunState) : Speaks s (connectClient s) := by
  rcases connectClient_cases s with ⟨url, -, heq⟩ | ⟨err, -, heq⟩ <;> rw [heq]
  · exact .of_eq rfl
  · exact Speaks.trans (.of_eq rfl) (speaks_fail _ _ _)

theorem speaks_onWait (s : RunState) (moment : Moment) : Speaks s (onWait s moment) := by
  unfold onWait
  refine Speaks.trans ?_ (speaks_connectClient _)
  cases hrefresh : s.options.refreshHeaders with
  | none => exact .of_eq rfl
  | some refresh =>
      cases hmoment : refresh moment with
      | some refreshed => exact .of_eq (by simp [hmoment])
      | none =>
          simp only [hmoment]
          refine ⟨_, rfl, ?_⟩
          simpa using Says.refreshFailed

variable {iterate : ℕ → Bytes → Except SimdError Document}

theorem says_of_disposed {includeRaw : Bool} {msg : Bytes} {output : Output}
    (h : Disposed iterate includeRaw msg output) : Says output := by
  cases h with
  | sink => exact .sink _
  | unsupported => exact .unsupported
  | parseError => exact .parseError _ _ _

theorem speaks_onRead (s : RunState) (msg : Bytes) : Speaks s (onRead iterate s (.ok msg)) := by
  obtain ⟨output, hdisposed, heq⟩ := onRead_eq (s := s) iterate msg
  rw [heq]
  refine ⟨_, List.append_assoc _ _ _, ?_⟩
  have hraw : ∀ output ∈ rawOutput s.options.logRawMessages msg s.seen, Says output := by
    unfold rawOutput
    split
    · simpa using Says.wsMessage msg s.seen
    · simp
  have hfirst : ∀ output ∈ firstOutput s.seen, Says output := by
    unfold firstOutput
    split
    · simpa using Says.firstMessage
    · simp
  have hlast : ∀ output ∈ lastOutput s.remaining, Says output := by
    unfold lastOutput
    split
    · simpa using Says.maxMessages
    · simp
  refine List.forall_mem_append.mpr ⟨List.forall_mem_cons.mpr ⟨.capture msg, ?_⟩, hlast⟩
  refine List.forall_mem_append.mpr ⟨List.forall_mem_append.mpr ⟨hraw, hfirst⟩, ?_⟩
  exact List.forall_mem_singleton.mpr (says_of_disposed hdisposed)

/-- A step only says what can be said. -/
theorem speaks_of_next {s s' : RunState} {a : FeedAct} (h : next iterate s a = some s') :
    Speaks s s' := by
  unfold next at h
  split at h
  · cases h
  cases a with
  | resolved ec | sslHandshaken ec | written ec =>
      obtain ⟨-, rfl⟩ := finish_map_eq_some.mp h
      cases ec with
      | some text => exact Speaks.trans (.of_eq rfl) (speaks_fail _ _ _)
      | none => exact .of_eq rfl
  | connected ec sni =>
      obtain ⟨-, rfl⟩ := finish_map_eq_some.mp h
      cases ec with
      | some text => exact Speaks.trans (.of_eq rfl) (speaks_fail _ _ _)
      | none =>
          cases sni with
          | some text => exact Speaks.trans (.of_eq rfl) (speaks_fail _ _ _)
          | none => exact .of_eq rfl
  | wsHandshaken ec =>
      obtain ⟨-, rfl⟩ := finish_map_eq_some.mp h
      cases ec with
      | some text => exact Speaks.trans (.of_eq rfl) (speaks_fail _ _ _)
      | none =>
          rw [onWsHandshake_eq]
          refine ⟨_, rfl, ?_⟩
          simpa using Says.wsOpen
  | read result =>
      obtain ⟨-, rfl⟩ := finish_map_eq_some.mp h
      cases result with
      | error text => exact Speaks.trans (.of_eq rfl) (speaks_fail _ _ _)
      | ok msg => exact Speaks.trans (.of_eq rfl) (speaks_onRead _ msg)
  | control kind payload =>
      obtain ⟨-, heq⟩ := Option.ite_none_right_eq_some.mp h
      obtain rfl := Option.some.inj heq
      refine ⟨_, rfl, ?_⟩
      simpa using Says.control kind payload
  | waited moment =>
      obtain ⟨-, heq⟩ := Option.ite_none_right_eq_some.mp h
      obtain rfl := Option.some.inj heq
      exact Speaks.trans (.of_eq rfl) (speaks_onWait _ moment)
  | expire | waitAborted | discarded =>
      obtain ⟨-, heq⟩ := Option.ite_none_right_eq_some.mp h
      obtain rfl := Option.some.inj heq
      exact .of_eq rfl

theorem says_of_reachable {options : RunOptions} {s : RunState}
    (h : (feed iterate options).Reachable s) : ∀ output ∈ s.trace, Says output := by
  refine h.invariant (I := fun s => ∀ output ∈ s.trace, Says output) ?_ fun hs _ hnext => ?_
  · obtain ⟨outputs, htrace, hspoken⟩ := speaks_connectClient (.initial options)
    rw [feed, htrace]
    exact List.forall_mem_append.mpr ⟨by simp [RunState.initial], hspoken⟩
  · obtain ⟨outputs, htrace, hspoken⟩ := speaks_of_next hnext
    rw [htrace]
    exact List.forall_mem_append.mpr ⟨hs, hspoken⟩

end KalshiAutotrader.Md
