import KalshiAutotrader.App.AppContext
import KalshiAutotrader.Core.ConfigSchema
import KalshiAutotrader.Md.Retries

/-!
The retries of a handler that runs with an accepted configuration.

The checks of the configuration put the initial delay between zero and the maximum.
They let zero through, and a handler whose connections keep failing then retries
without any delay, for ever. They let a maximum through that is more than the timer can
take, and the timer is then given something else.
-/

namespace KalshiAutotrader.App

open Kit KalshiAutotrader.Core Logging Md Simdjson Reading

/-- The checks on the delays. -/
structure Delays (ws : WsConfig) : Prop where
  nonneg : 0 ≤ ws.reconnectInitialDelayMs.toInt
  ordered : ws.reconnectInitialDelayMs.toInt ≤ ws.reconnectMaxDelayMs.toInt

theorem delays_of_loadConfig {iterate : Bytes → Except SimdError Document} {file : Option Bytes}
    {config : Config} (h : loadConfig iterate file = .ok config) : Delays config.ws := by
  obtain ⟨-, -, -, hinitial, -, hordered⟩ := checkWs_eq_ok.mp (checkWs_of_loadConfig h)
  rw [Int64.lt_iff_toInt_lt, Int.not_lt] at hinitial
  exact ⟨hinitial, hordered⟩

/-- With an accepted configuration, errors in a row bring the delays to the maximum, and the
timer is given it, exactly if there are no retries, or the initial delay is not zero and
the maximum fits the nanoseconds of the timer. -/
theorem retries_settle_iff (iterate : Bytes → Except SimdError Document) (file : Option Bytes)
    (host : Host) (ctx : AppContext) (hload : loadConfig iterate file = .ok ctx.config)
    (hmax : 0 < ctx.config.ws.reconnectMaxDelayMs.toInt) :
    Settles host.iterate (ctx.buildRunOptions host.sign) ↔
      ctx.config.ws.autoReconnect = false ∨
        0 < ctx.config.ws.reconnectInitialDelayMs.toInt ∧
          ctx.config.ws.reconnectMaxDelayMs.toInt * 10 ^ 6 < 2 ^ 63 := by
  have hdelays := delays_of_loadConfig hload
  exact settles_iff hdelays.nonneg hdelays.ordered hmax

theorem retries_settle_local : ∃ ctx : AppContext,
    loadConfig (eager 0) (some (fileAt (ascii "wss://localhost"))) = .ok ctx.config ∧
      Settles eager (ctx.buildRunOptions localHost.sign) := by
  have hbuilt : (localContext (ascii "wss://localhost")).map (fun ctx =>
      (decide (loadConfig (eager 0) (some (fileAt (ascii "wss://localhost"))) = .ok ctx.config),
        ctx.config.ws)) = some (true, defaultWsConfig) := by decide +kernel
  obtain ⟨ctx, -, hctx⟩ := Option.map_eq_some_iff.mp hbuilt
  obtain ⟨hload, hws⟩ := Prod.mk.inj hctx
  have hload := of_decide_eq_true hload
  have hmax : 0 < ctx.config.ws.reconnectMaxDelayMs.toInt := by
    rw [hws]
    decide
  refine ⟨ctx, hload, (retries_settle_iff _ _ localHost ctx hload hmax).mpr (.inr ?_)⟩
  rw [hws]
  decide

/-- A configuration without a first delay is accepted, and its retries are never delayed. So
is one whose delays are more than the timer can take. -/
theorem zeroDelay_never_settles :
    (loadConfig (eager 0) (some (ReconnectState.delaysFile 0 30000))).map
        (fun c => (c.ws.autoReconnect, c.ws.reconnectInitialDelayMs, c.ws.reconnectMaxDelayMs)) =
      .ok (true, 0, 30000) ∧
    ¬ Settles eager
      { localOptions with reconnectInitialDelay := 0, reconnectMaxDelay := 30000 } ∧
    (loadConfig (eager 0) (some (ReconnectState.delaysFile (10 ^ 13) (10 ^ 13)))).map
        (fun c => (c.ws.autoReconnect, c.ws.reconnectInitialDelayMs, c.ws.reconnectMaxDelayMs)) =
      .ok (true, 10000000000000, 10000000000000) ∧
    ¬ Settles eager { localOptions with
      reconnectInitialDelay := 10000000000000, reconnectMaxDelay := 10000000000000 } := by
  refine ⟨by decide +kernel, fun hsettles => ?_, by decide +kernel, fun hsettles => ?_⟩
  · obtain hoff | ⟨hpos, -⟩ := (settles_iff (by decide) (by decide) (by decide)).mp hsettles
    · cases hoff
    · cases hpos
  · obtain hoff | ⟨-, hfits⟩ := (settles_iff (by decide) (by decide) (by decide)).mp hsettles
    · cases hoff
    · exact absurd hfits (by decide)

end KalshiAutotrader.App
