import KalshiAutotrader.Kit.Machine
import KalshiAutotrader.Kit.Bytes
import KalshiAutotrader.Kit.Lines
import KalshiAutotrader.Kit.LossyFifo
import KalshiAutotrader.Kit.Broadcast
import KalshiAutotrader.Kit.BoundedBuffer
import KalshiAutotrader.Kit.Json
import KalshiAutotrader.Kit.JsonOrder
import KalshiAutotrader.Kit.JsonRender
import KalshiAutotrader.Kit.JsonEncoding
import KalshiAutotrader.Kit.JsonStrings
import KalshiAutotrader.Kit.Reading
import KalshiAutotrader.Simdjson.OnDemand
import KalshiAutotrader.Core.Config
import KalshiAutotrader.Core.ConfigFormat
import KalshiAutotrader.Core.ConfigSchema
import KalshiAutotrader.Core.ConfigErrors
import KalshiAutotrader.Core.ValidConfig
import KalshiAutotrader.Core.Auth
import KalshiAutotrader.Core.Signing
import KalshiAutotrader.Logging.Event
import KalshiAutotrader.Logging.AsyncJsonLogger
import KalshiAutotrader.Logging.Delivery
import KalshiAutotrader.Logging.Batches
import KalshiAutotrader.Logging.DropReport
import KalshiAutotrader.Logging.Shutdown
import KalshiAutotrader.Logging.Progress
import KalshiAutotrader.Logging.LogLine
import KalshiAutotrader.Md.ExchangeEvents
import KalshiAutotrader.Md.EventParser
import KalshiAutotrader.Md.WireFormat
import KalshiAutotrader.Md.Dispatcher
import KalshiAutotrader.Md.MessageSchema
import KalshiAutotrader.Md.FieldReads
import KalshiAutotrader.Md.TradeTime
import KalshiAutotrader.Md.BookSides
import KalshiAutotrader.Md.ValidEvents
import KalshiAutotrader.Md.ErrorKinds
import KalshiAutotrader.Md.Subscribe
import KalshiAutotrader.Md.WsUrl
import KalshiAutotrader.Md.WsClient
import KalshiAutotrader.Md.Reconnect
import KalshiAutotrader.Md.FeedHandler
import KalshiAutotrader.Md.FeedSteps
import KalshiAutotrader.Md.ClientSteps
import KalshiAutotrader.Md.StreamUse
import KalshiAutotrader.Md.SubscribeOnce
import KalshiAutotrader.Md.FreshHeaders
import KalshiAutotrader.Md.Deadline
import KalshiAutotrader.Md.Backoff
import KalshiAutotrader.Md.MessageFlow
import KalshiAutotrader.Md.Vocabulary
import KalshiAutotrader.Md.LogFlags
import KalshiAutotrader.Md.Sinks
import KalshiAutotrader.Md.Replay
import KalshiAutotrader.Md.Liveness
import KalshiAutotrader.Md.Replacement
import KalshiAutotrader.Md.Retries
import KalshiAutotrader.Md.LostConnections
import KalshiAutotrader.App.AppContext
import KalshiAutotrader.App.FieldOrder
import KalshiAutotrader.App.LoggerOptions
import KalshiAutotrader.App.RetryDelays
import KalshiAutotrader.App.Timeouts
import KalshiAutotrader.App.LogEncoding
import KalshiAutotrader.App.LoggingSink
import KalshiAutotrader.App.Program
import KalshiAutotrader.App.EndToEnd
import KalshiAutotrader.App.PrivateKey
