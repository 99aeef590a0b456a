import KalshiAutotrader.App.AppContext
import KalshiAutotrader.Core.ConfigSchema
import KalshiAutotrader.Md.ClientSteps

/-!
The timeouts of a connection.

They are configured in milliseconds and installed in nanoseconds, and on the way the
client keeps them in seconds. What does not fill a second is lost there, and what is
more than 292 years overflows in the end.
-/

namespace KalshiAutotrader.App

open Kit KalshiAutotrader.Core Logging Md Simdjson

/-- The stream has the configured timeouts, over the integers. -/
structure Installed (ws : WsConfig) (timeout : StreamTimeout) : Prop where
  handshake : timeout.handshakeTimeout.toInt = ws.handshakeTimeoutMs.toInt * 10 ^ 6
  idle : timeout.idleTimeout.toInt = ws.idleTimeoutMs.toInt * 10 ^ 6

instance (ws : WsConfig) (timeout : StreamTimeout) : Decidable (Installed ws timeout) :=
  decidable_of_iff (_ ∧ _) ⟨fun h => ⟨h.1, h.2⟩, fun h => ⟨h.1, h.2⟩⟩

/-- Whole seconds, and no more nanoseconds than a 64-bit count holds. -/
def WholeSeconds (ms : Milliseconds) : Prop := 1000 ∣ ms.toInt ∧ ms.toInt * 10 ^ 6 < 2 ^ 63

instance (ms : Milliseconds) : Decidable (WholeSeconds ms) :=
  inferInstanceAs (Decidable (_ ∧ _))

/-- What `configure_timeouts` installs on a client that `configure_callbacks` set up. -/
def AppContext.streamTimeout (ctx : AppContext) (sign : Signer) : Option StreamTimeout :=
  (FeedHandler.newClient (ctx.buildRunOptions sign)).configureTimeouts.streamTimeout

/-! ### One duration -/

/-- The cast to seconds and the widening to nanoseconds. -/
theorem toInt_seconds_iff {ms : Milliseconds} (h0 : 0 ≤ ms.toInt) :
    (ms / 1000 * 1000000000).toInt = ms.toInt * 10 ^ 6 ↔ WholeSeconds ms := by
  have hseconds : (ms / 1000).toInt = ms.toInt / 1000 := by
    rw [Int64.toInt_div_of_ne_right _ _ (by decide), show (1000 : Int64).toInt = 1000 from rfl,
      Int.tdiv_eq_ediv_of_nonneg h0]
  have hbelow := (ms / 1000 * 1000000000).toInt_lt
  rw [WholeSeconds]
  rw [Int64.toInt_mul, hseconds, show (1000000000 : Int64).toInt = 1000000000 from rfl] at hbelow ⊢
  generalize ms.toInt = z at *
  -- without an overflow the product is the product of integers
  have hfits : z * 10 ^ 6 < 2 ^ 63 →
      (z / 1000 * 1000000000).bmod (2 ^ 64) = z / 1000 * 1000000000 := by
    intro hz
    exact Int.bmod_eq_of_le (by omega) (by omega)
  constructor
  · intro heq
    have hz : z * 10 ^ 6 < 2 ^ 63 := heq ▸ hbelow
    rw [hfits hz] at heq
    omega
  · rintro ⟨hdvd, hz⟩
    rw [hfits hz]
    omega

/-! ### Every client -/

variable {iterate : ℕ → Bytes → Except SimdError Document} {options : RunOptions}

/-- The client has the timeouts of the options, and has installed no others. -/
structure Configured (options : RunOptions) (c : WsClient) : Prop where
  installed : ∀ timeout ∈ c.streamTimeout,
    (FeedHandler.newClient options).configureTimeouts.streamTimeout = some timeout

theorem configured_fresh {c : WsClient} (h : c.FreshWith options) : Configured options c := by
  constructor
  intro timeout hinstalled
  cases h with
  | connecting => exact hinstalled
  | rejected => cases hinstalled

theorem configured_advance {c c' : WsClient} {a : FeedAct} (hadvances : c.Advances a c')
    (h : Configured options c) : Configured options c' := by
  cases hadvances <;> exact ⟨h.installed⟩

theorem configured_open {c : WsClient} (h : Configured options c) :
    Configured options (c.openedWith options.subscribeCmd) := by
  constructor
  unfold WsClient.openedWith
  split <;> exact h.installed

theorem configured_of_reachable {s : RunState} (h : (Md.feed iterate options).Reachable s) :
    ∃ c, s.client = some c ∧ Configured options c :=
  FeedHandler.client_invariant configured_fresh (fun _ hc => ⟨hc.installed⟩) configured_advance
    (fun _ _ hc => configured_open hc) h

/-- With an accepted configuration, the timeouts that are installed are the configured
ones exactly when these are whole seconds that fit. In every state of every run the
client has none but those. -/
theorem timeouts_installed_iff (iterate : Bytes → Except SimdError Document) (file : Option Bytes)
    (host : Host) (ctx : AppContext) (hload : loadConfig iterate file = .ok ctx.config) :
    ((∀ timeout ∈ ctx.streamTimeout host.sign, Installed ctx.config.ws timeout) ↔
      WholeSeconds ctx.config.ws.handshakeTimeoutMs ∧ WholeSeconds ctx.config.ws.idleTimeoutMs) ∧
    ∀ s, (ctx.feed host).Reachable s → ∀ c ∈ s.client, ∀ timeout ∈ c.streamTimeout,
      ctx.streamTimeout host.sign = some timeout := by
  obtain ⟨-, hhandshake, hidle, -⟩ := checkWs_eq_ok.mp (checkWs_of_loadConfig hload)
  rw [Int64.lt_iff_toInt_lt, Int.not_lt] at hhandshake hidle
  constructor
  · rw [← toInt_seconds_iff hhandshake, ← toInt_seconds_iff hidle]
    constructor
    · intro h
      obtain ⟨hh, hi⟩ := h _ rfl
      exact ⟨hh, hi⟩
    · rintro ⟨hh, hi⟩ timeout htimeout
      obtain rfl := Option.some.inj htimeout
      exact ⟨hh, hi⟩
  · intro s hs c hc timeout htimeout
    obtain ⟨c', hc', hconfigured⟩ := configured_of_reachable hs
    obtain rfl := Option.some.inj (hc'.symm.trans hc)
    exact hconfigured.installed timeout htimeout

theorem timeouts_installed_local : ∃ ctx : AppContext,
    loadConfig (eager 0) (some (fileAt (ascii "wss://localhost"))) = .ok ctx.config ∧
      ∀ timeout ∈ ctx.streamTimeout localHost.sign, Installed ctx.config.ws timeout := by
  have hbuilt : (localContext (ascii "wss://localhost")).map (fun ctx =>
      (decide (loadConfig (eager 0) (some (fileAt (ascii "wss://localhost"))) = .ok ctx.config),
        ctx.config.ws)) = some (true, defaultWsConfig) := by decide +kernel
  obtain ⟨ctx, -, hctx⟩ := Option.map_eq_some_iff.mp hbuilt
  obtain ⟨hload, hws⟩ := Prod.mk.inj hctx
  have hload := of_decide_eq_true hload
  refine ⟨ctx, hload, (timeouts_installed_iff _ _ localHost ctx hload).1.mpr ?_⟩
  rw [hws]
  decide

/-- A configuration file with these timeouts. -/
def timeoutsFile (handshake idle : ℕ) : Bytes :=
  Json.render (.obj [
    (ascii "env", .str (ascii "demo")),
    (ascii "ws_url", .str (ascii "wss://localhost")),
    (ascii "subscription", .obj [
      (ascii "channels", .arr [.str (ascii "trade")]),
      (ascii "market_tickers", .arr [])]),
    (ascii "ws", .obj [
      (ascii "handshake_timeout_ms", .int false handshake),
      (ascii "idle_timeout_ms", .int false idle)])])

/-- Half a second becomes no time at all, and 292 years become a negative time. -/
theorem timeouts_lost :
    ((AppContext.build localHost (some (timeoutsFile 500 9223372037000))
        ⟨1700000000000, 0⟩).toOption.map fun ctx =>
      (ctx.config.ws.handshakeTimeoutMs, ctx.config.ws.idleTimeoutMs)) =
        some (500, 9223372037000) ∧
    ((AppContext.build localHost (some (timeoutsFile 500 9223372037000))
        ⟨1700000000000, 0⟩).toOption.bind fun ctx => ctx.streamTimeout localHost.sign) =
        some ⟨0, -9223372036709551616, true⟩ ∧
    ((AppContext.build localHost (some (timeoutsFile 500 9223372037000))
        ⟨1700000000000, 0⟩).toOption.map fun ctx =>
      (ctx.streamTimeout localHost.sign).map fun timeout =>
        decide (Installed ctx.config.ws timeout)) = some (some false) :=
  ⟨by decide +kernel, by decide +kernel, by decide +kernel⟩

end KalshiAutotrader.App
