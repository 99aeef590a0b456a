import KalshiAutotrader.Md.FeedSteps

/-!
Where the messages go.

Over a whole run, with any number of connections, the messages received are
captured, counted and disposed of one by one, and nothing else is captured or
handed to the sink. A limit on the number of messages is a countdown that starts
at the limit and stops the loop when it reaches zero.
-/

namespace KalshiAutotrader.Md

open Kit KalshiAutotrader.Core Logging Simdjson FeedHandler

/-- The messages a run receives. -/
def received (acts : List FeedAct) : List Bytes := acts.filterMap FeedAct.message

/-- The trace of a run answers its messages one by one: each is captured, the
first one is announced, and each has one disposition. -/
inductive Accounts (iterate : ℕ → Bytes → Except SimdError Document) (includeRaw : Bool) :
    List Bytes → List Output → Prop
  | nil : Accounts iterate includeRaw [] []
  | snoc {msgs : List Bytes} {outputs : List Output} {msg : Bytes} {output : Output}
      (h : Accounts iterate includeRaw msgs outputs)
      (hdisposed : Disposed iterate includeRaw msg output) :
      Accounts iterate includeRaw (msgs ++ [msg])
        (outputs ++ .capture (msg ++ [newline]) :: (firstOutput msgs.length ++ [output]))

/-- What an output adds to the capture file. -/
def Output.captured : Output → Bytes
  | .capture bytes => bytes
  | _ => []

def RunState.captureFile (s : RunState) : Bytes := s.trace.flatMap Output.captured

/-- How often the first message is announced. -/
def RunState.announced (s : RunState) : ℕ := s.trace.count (.log firstMessageEvent)

theorem captureFile_eq (s : RunState) : s.captureFile = s.answers.flatMap Output.captured := by
  unfold RunState.captureFile RunState.answers
  induction s.trace with
  | nil => rfl
  | cons output outputs ih =>
      rw [List.flatMap_cons, ih, List.filter_cons]
      cases output <;> simp [Output.answers, Output.captured]
      split <;> simp [Output.captured]

theorem announced_eq (s : RunState) : s.announced = s.answers.count (.log firstMessageEvent) :=
  (List.count_filter (by decide +kernel)).symm

variable {iterate : ℕ → Bytes → Except SimdError Document} {options : RunOptions}

/-- A disposition is not a capture. -/
theorem captured_of_disposed {includeRaw : Bool} {msg : Bytes} {output : Output}
    (h : Disposed iterate includeRaw msg output) : output.captured = [] := by
  cases h <;> rfl

theorem captured_firstOutput (seen : ℕ) : (firstOutput seen).flatMap Output.captured = [] := by
  unfold firstOutput
  split <;> rfl

/-- A disposition is not an announcement. -/
theorem ne_first_of_disposed {includeRaw : Bool} {msg : Bytes} {output : Output}
    (h : Disposed iterate includeRaw msg output) : output ≠ .log firstMessageEvent := by
  cases h with
  | sink => simp
  | unsupported => decide +kernel
  | parseError =>
      intro heq
      have hname : (parseErrorEvent _ msg includeRaw).message = firstMessageEvent.message :=
        congrArg LogEvent.message (Output.log.inj heq)
      unfold parseErrorEvent at hname
      revert hname
      split <;> exact show ascii "parse_error" ≠ ascii "first_message_received" by decide +kernel

/-- Every message is captured once, in order. -/
theorem captured_of_accounts {includeRaw : Bool} {msgs : List Bytes} {outputs : List Output}
    (h : Accounts iterate includeRaw msgs outputs) :
    outputs.flatMap Output.captured = msgs.flatMap (· ++ [newline]) := by
  induction h with
  | nil => rfl
  | @snoc msgs outputs msg output _ hdisposed ih =>
      have hrest : (firstOutput msgs.length ++ [output]).flatMap Output.captured = [] := by
        rw [List.flatMap_append, captured_firstOutput]
        simp [captured_of_disposed hdisposed]
      rw [List.flatMap_append, ih, List.flatMap_cons, hrest, List.append_nil, List.flatMap_append]
      simp [Output.captured]

/-- The first message is announced, and no other. -/
theorem announced_of_accounts {includeRaw : Bool} {msgs : List Bytes} {outputs : List Output}
    (h : Accounts iterate includeRaw msgs outputs) :
    outputs.count (.log firstMessageEvent) = min 1 msgs.length := by
  induction h with
  | nil => rfl
  | @snoc msgs outputs msg output _ hdisposed ih =>
      have hlast : [output].count (.log firstMessageEvent) = 0 :=
        List.count_eq_zero.mpr (by simpa using (ne_first_of_disposed hdisposed).symm)
      have hfirst : (firstOutput msgs.length).count (.log firstMessageEvent) =
          if msgs.length = 0 then 1 else 0 := by
        unfold firstOutput
        split <;> simp
      rw [List.count_append, ih, List.count_cons_of_ne (by simp), List.count_append, hlast, hfirst,
        List.length_append, List.length_singleton]
      split <;> omega

/-! ### Counting -/

/-- The messages received so far are accounted for, and the countdown and the
stop flag are where they should be. -/
structure Counted (iterate : ℕ → Bytes → Except SimdError Document) (options : RunOptions)
    (msgs : List Bytes) (s : RunState) : Prop where
  accounts : Accounts iterate options.includeRawOnParseError msgs s.answers
  seen : s.seen = msgs.length
  countdown : (0 < options.maxMessages ∧ s.seen + s.remaining = options.maxMessages) ∨
    (options.maxMessages = 0 ∧ s.remaining = 0)
  stopped : s.stopped = true ↔ (0 < options.maxMessages ∧ s.remaining = 0) ∨
    (options.autoReconnect = false ∧ s.errors ≠ [])

theorem counted_initial (options : RunOptions) : Counted iterate options [] (.initial options) where
  accounts := .nil
  seen := rfl
  countdown := by
    have hremaining : (RunState.initial options).remaining = options.maxMessages := rfl
    have hseen : (RunState.initial options).seen = 0 := rfl
    omega
  stopped := by
    simp only [RunState.initial]
    simp
    omega

theorem counted_of_unanswered {msgs : List Bytes} {s s' : RunState} (hruns : RunsWith options s)
    (hs : Counted iterate options msgs s) (h : Unanswered s s') :
    Counted iterate options msgs s' where
  accounts := h.answers ▸ hs.accounts
  seen := h.seen.trans hs.seen
  countdown := by
    rw [h.seen, h.remaining]
    exact hs.countdown
  stopped := by
    obtain ⟨errs, herrors, hstopped⟩ := h.stopped
    rw [hstopped, hs.stopped, hruns.enabled, h.remaining, herrors]
    by_cases hnone : errs = [] <;> by_cases hauto : options.autoReconnect = false <;>
      simp [hnone, hauto]

theorem counted_of_answered {msgs : List Bytes} {s s' : RunState} {msg : Bytes}
    (hruns : RunsWith options s) (hs : Counted iterate options msgs s) (hlive : s.stopped = false)
    (h : Answered iterate msg s s') (herrors : s'.errors = s.errors) :
    Counted iterate options (msgs ++ [msg]) s' := by
  -- the loop is not stopped, so a countdown is not at its end
  have hmore : 0 < options.maxMessages → 0 < s.remaining := by
    intro hlimit
    by_contra hzero
    rw [hs.stopped.mpr (.inl ⟨hlimit, by omega⟩)] at hlive
    cases hlive
  -- and no error has been reported that would have stopped it
  have hquiet : ¬ (options.autoReconnect = false ∧ s.errors ≠ []) := fun hfailed => by
    rw [hs.stopped.mpr (.inr hfailed)] at hlive
    cases hlive
  obtain ⟨output, hdisposed, hanswers⟩ := h.answers
  refine ⟨?_, ?_, ?_, ?_⟩
  · obtain ⟨headers, hoptions⟩ := hruns.configured
    rw [hanswers, hs.seen]
    exact hs.accounts.snoc (by simpa [hoptions] using hdisposed)
  · simp [h.seen, hs.seen]
  · rw [h.seen, h.remaining]
    rcases hs.countdown with ⟨hlimit, hsum⟩ | ⟨hnone, hzero⟩
    · have := hmore hlimit
      omega
    · omega
  -- the message stops the loop when the countdown was at one
  · rw [h.stopped, hlive, h.remaining, herrors]
    simp only [Bool.false_or, beq_iff_eq, hquiet, or_false]
    rcases hs.countdown with ⟨hlimit, hsum⟩ | ⟨hnone, hzero⟩
    · have := hmore hlimit
      omega
    · omega

theorem counted_of_exec {acts : List FeedAct} {s : RunState}
    (h : (feed iterate options).exec (feed iterate options).start acts = some s) :
    RunsWith options s ∧ Counted iterate options (received acts) s := by
  refine Machine.run_induction
    (C := fun acts s => RunsWith options s ∧ Counted iterate options (received acts) s) ?_ ?_ h
  · have hinitial : RunsWith options (.initial options) := ⟨⟨options.headers, rfl⟩, rfl⟩
    exact ⟨runsWith_connectClient hinitial,
      counted_of_unanswered hinitial (counted_initial options) (unanswered_connectClient _)⟩
  · rintro acts s a s' - ⟨hruns, hs⟩ hnext
    obtain ⟨hlive, hstep⟩ := step_of_next hnext
    refine ⟨runsWith_step hruns hstep, ?_⟩
    rw [received, List.filterMap_append, ← received]
    rcases step_messages hstep with ⟨msg, hmsg, hanswered, herrors, -⟩ | ⟨hmsg, hunanswered⟩
    · simpa [hmsg] using counted_of_answered hruns hs hlive hanswered herrors
    · simpa [hmsg] using counted_of_unanswered hruns hs hunanswered

/-- The capture file is the messages, each ended by a newline. -/
theorem captureFile_of_counted {msgs : List Bytes} {s : RunState}
    (h : Counted iterate options msgs s) : s.captureFile = msgs.flatMap (· ++ [newline]) :=
  (captureFile_eq s).trans (captured_of_accounts h.accounts)

/-- Every message of a run is captured, counted and disposed of exactly once and
in order, and a limit stops the run at that message and at no other. -/
theorem messages_accounted (iterate : ℕ → Bytes → Except SimdError Document)
    (options : RunOptions) (acts : List FeedAct) (s : RunState)
    (h : (feed iterate options).exec (feed iterate options).start acts = some s) :
    Accounts iterate options.includeRawOnParseError (received acts) s.answers ∧
    s.captureFile = (received acts).flatMap (· ++ [newline]) ∧
    s.announced = min 1 (received acts).length ∧
    s.seen = (received acts).length ∧
    (0 < options.maxMessages → s.seen + s.remaining = options.maxMessages ∧
      (s.stopped = true ↔ s.seen = options.maxMessages ∨
        (options.autoReconnect = false ∧ s.errors ≠ []))) ∧
    (options.maxMessages = 0 →
      (s.stopped = true ↔ options.autoReconnect = false ∧ s.errors ≠ [])) := by
  obtain ⟨-, hs⟩ := counted_of_exec h
  refine ⟨hs.accounts, captureFile_of_counted hs,
    (announced_eq s).trans (announced_of_accounts hs.accounts), hs.seen, ?_, ?_⟩
  · intro hlimit
    have hsum : s.seen + s.remaining = options.maxMessages := by
      have := hs.countdown
      omega
    refine ⟨hsum, hs.stopped.trans (or_congr_left ?_)⟩
    omega
  · intro hnone
    rw [hs.stopped, hnone]
    simp

def limitedOptions : RunOptions := { localOptions with maxMessages := 2 }

/-- Two messages that do not parse, on two connections. -/
def twoMessages : List FeedAct :=
  opening ++ [.read (.ok (ascii "x")), .read (.error (ascii "reset")), .expire, .waited ⟨0, 0⟩] ++
    opening ++ [.read (.ok (ascii "y"))]

theorem twoMessages_accounted :
    ∃ s, (feed eager limitedOptions).exec (feed eager limitedOptions).start twoMessages = some s ∧
      s.captureFile = ascii "x" ++ newline :: ascii "y" ++ [newline] ∧ s.announced = 1 ∧ s.seen = 2 ∧
      s.stopped = true := by
  obtain ⟨s, hs⟩ := Option.isSome_iff_exists.mp (show ((feed eager limitedOptions).exec
    (feed eager limitedOptions).start twoMessages).isSome = true by decide +kernel)
  obtain ⟨-, hcapture, hannounced, hseen, hlimit, -⟩ :=
    messages_accounted eager limitedOptions twoMessages s hs
  exact ⟨s, hs, hcapture, hannounced, hseen, (hlimit (by decide)).2.mpr (.inl hseen)⟩

end KalshiAutotrader.Md
