import BallyOS.ArraySensor.Calibration
import BallyOS.ArraySensor.Position
import BallyOS.ArraySensor.Sensor
import BallyOS.Ble.DeviceName
import BallyOS.Ble.Latch
import BallyOS.Ble.Server
import BallyOS.Ble.Stream
import BallyOS.Ble.Wakeup
import BallyOS.Boot.Identity
import BallyOS.Boot.Lives
import BallyOS.Btp.Endpoint
import BallyOS.Btp.Interface
import BallyOS.Btp.Reference
import BallyOS.Buttons.Presses
import BallyOS.Buttons.Routine
import BallyOS.CommConfig.Menu
import BallyOS.CommConfig.OneSession
import BallyOS.CommConfig.Staying
import BallyOS.Command.Acceptance
import BallyOS.Command.Arrival
import BallyOS.Command.Channels
import BallyOS.Command.Completion
import BallyOS.Command.History
import BallyOS.Command.Processor
import BallyOS.Command.Replay
import BallyOS.Command.ReplyBuffers
import BallyOS.Command.ReplyKeys
import BallyOS.Command.Request
import BallyOS.Command.Reservation
import BallyOS.DebugTests.Cancelling
import BallyOS.DebugTests.Scheduled
import BallyOS.Encoder.Counter
import BallyOS.Encoder.Drift
import BallyOS.Flags.Blink
import BallyOS.Flags.DeadMan
import BallyOS.HBridge.Agreement
import BallyOS.HBridge.Pulses
import BallyOS.Jobs.Edges
import BallyOS.Jobs.Ids
import BallyOS.Jobs.Lateness
import BallyOS.Jobs.Loading
import BallyOS.Jobs.Rate
import BallyOS.Jobs.RoundTrip
import BallyOS.Junkebox.LastCall
import BallyOS.Junkebox.Mailbox
import BallyOS.Junkebox.Notes
import BallyOS.Junkebox.Player
import BallyOS.Junkebox.Stopping
import BallyOS.KeyStore.Digest
import BallyOS.KeyStore.Store
import BallyOS.Library.Binary32
import BallyOS.Library.ByteRing
import BallyOS.Library.Calls
import BallyOS.Library.Carrying
import BallyOS.Library.Cutting
import BallyOS.Library.Descriptors
import BallyOS.Library.Durable
import BallyOS.Library.Framing
import BallyOS.Library.Hull
import BallyOS.Library.LittleEndian
import BallyOS.Library.Numbering
import BallyOS.Library.Numeral
import BallyOS.Library.Pacing
import BallyOS.Library.Run
import BallyOS.Library.SessionLedger
import BallyOS.Library.SlotRing
import BallyOS.Library.Tokens
import BallyOS.Library.Volume
import BallyOS.Logger.Consumers
import BallyOS.Logger.ReadSide
import BallyOS.Logger.Record
import BallyOS.Logger.Retained
import BallyOS.Logger.Ring
import BallyOS.Logger.SdFlush
import BallyOS.Logger.SendCursor
import BallyOS.Motors.KillSwitch
import BallyOS.Motors.Outputs
import BallyOS.Ota.AllOrNothing
import BallyOS.Ota.Attempts
import BallyOS.Ota.Link
import BallyOS.Ota.Rounds
import BallyOS.Ota.RunningSearch
import BallyOS.Ota.StoredList
import BallyOS.Ota.Updater
import BallyOS.Ota.Upload
import BallyOS.Scripts.ToTheEnd
import BallyOS.Sequence.KeyReuse
import BallyOS.Sequence.Senders
import BallyOS.Session.Routing
import BallyOS.Settings.Divisors
import BallyOS.Settings.Fields
import BallyOS.Settings.File
import BallyOS.Settings.Ranges
import BallyOS.Settings.RoundTrip
import BallyOS.Settings.Table
import BallyOS.StateMachine.Exclusion
import BallyOS.StateMachine.History
import BallyOS.StateMachine.Machine
import BallyOS.StateMachine.ReportedError
import BallyOS.States.DebugGate
import BallyOS.States.Transitions
import BallyOS.Storage.Account
import BallyOS.Storage.Card
import BallyOS.Storage.DiskSignature
import BallyOS.Storage.LogFlush
import BallyOS.Storage.LogNames
import BallyOS.Storage.Playback
import BallyOS.Storage.Replay
import BallyOS.Tcp.ClosedOnce
import BallyOS.Tcp.Leftover
import BallyOS.Tcp.Server
import BallyOS.Tcp.Sockets
import BallyOS.Telemetry.ExactlyOnce
import BallyOS.Telemetry.Publisher
import BallyOS.Telemetry.Sampling
import BallyOS.Telemetry.Targets
import BallyOS.Terminal.Accounts
import BallyOS.Terminal.Isolation
import BallyOS.Terminal.Lines
import BallyOS.Terminal.Recency
import BallyOS.Terminal.Responder
import BallyOS.Terminal.Sessions
import BallyOS.Terminal.Splicing
import BallyOS.Transport.Margin
import BallyOS.Transport.ReservedMargin
import BallyOS.Transport.SendQueue
import BallyOS.Transport.SessionStreams
import BallyOS.Tx.Account
import BallyOS.Tx.Delivery
import BallyOS.Tx.Scheduler
import BallyOS.Tx.Steps
import BallyOS.Usb.MassStorage
import BallyOS.Usb.Ownership
import BallyOS.Usb.SerialServer
