import MouseHero.Library.Allocations
import MouseHero.Library.BigEndian
import MouseHero.Library.FaultState
import MouseHero.Library.MessagePack
import MouseHero.Library.CFloat
import MouseHero.Buffer
import MouseHero.Mpack.Reader
import MouseHero.Mpack.Reads
import MouseHero.Mpack.Writer
import MouseHero.Event.Types
import MouseHero.Event.Codec
import MouseHero.Event.Wire
import MouseHero.Event.Frame
import MouseHero.Event.RoundTrip
import MouseHero.Event.Malformed
import MouseHero.Event.Parsed
import MouseHero.Event.Received
import MouseHero.Library.ChainedTable
import MouseHero.Library.HighWaterMark
import MouseHero.Library.GreedyMatching
import MouseHero.Input.MouseFilter
import MouseHero.Input.MouseThrottle
import MouseHero.Input.Devices
import MouseHero.Input.Facade
import MouseHero.Input.Keymap
import MouseHero.Input.Keyboard
import MouseHero.Client.Manager
import MouseHero.Client.Collection
import MouseHero.Client.Reachable
import MouseHero.Client.View
import MouseHero.Server.World
import MouseHero.Server.Handler
import MouseHero.Server.Session
import MouseHero.Server.Command
import MouseHero.Server.Outcomes
import MouseHero.Server.FrameConditions
import MouseHero.Server.Replay
import MouseHero.Server.Datagram
import MouseHero.Server.Strangers
import MouseHero.Server.Connections
import MouseHero.Server.Responses
import MouseHero.Server.Containment
import MouseHero.Server.Stream
import MouseHero.Server.Reassembly
import MouseHero.Client.Uids
import MouseHero.Client.References
import MouseHero.Event.Faults
import MouseHero.Server.Ownership
import MouseHero.Server.Sessions
import MouseHero.Server.Requests
import MouseHero.Server.Release
import MouseHero.Server.Binding
import MouseHero.Server.Status
import MouseHero.Server.Targets
import MouseHero.Server.Isolation
import MouseHero.Library.SharedAccumulator
import MouseHero.Server.Throttling
import MouseHero.Library.AssociationList
import MouseHero.Config.Store
import MouseHero.Library.Scanning
import MouseHero.Config.File
import MouseHero.Config.Refinement
import MouseHero.Config.Lines
import MouseHero.Config.RoundTrip
import MouseHero.Library.Formats
import MouseHero.Mpack.Formats
import MouseHero.Config.Request
import MouseHero.Config.AllOrNothing
import MouseHero.Mpack.Integers
import MouseHero.Event.Headers
import MouseHero.Server.Resynchronisation
import MouseHero.Config.Rewriting
import MouseHero.Library.Runs
import MouseHero.Gui.ServerProcess
import MouseHero.Gui.SingleServer
import MouseHero.Gui.FinalStop
import MouseHero.Library.Triples
import MouseHero.Input.Uinput
import MouseHero.Input.Releases
import MouseHero.Server.Clicks
import MouseHero.Library.Utf8
import MouseHero.Library.Sections
import MouseHero.Gui.ConfigService
import MouseHero.Gui.LineReadings
import MouseHero.Gui.PlainLines
import MouseHero.Gui.ConfigAgreement
import MouseHero.Library.Mirrors
import MouseHero.Library.Ledger
import MouseHero.Server.Heap
import MouseHero.Server.Accounts
import MouseHero.Server.Releases
import MouseHero.Server.Leaks
import MouseHero.Server.Callbacks
import MouseHero.Server.Balance
import MouseHero.Event.TextBuffers
import MouseHero.Event.Pairing
import MouseHero.Server.Discovery
import MouseHero.Config.PhysicalLines
import MouseHero.Config.Quoting
import MouseHero.Config.PostBack
import MouseHero.Library.ErrorDiffusion
import MouseHero.Server.Subpixels
import MouseHero.Server.ThrottleRuns
import MouseHero.Server.Overflow
import MouseHero.Library.KeyComparison
import MouseHero.Gui.UpdateService
import MouseHero.Gui.Backoff
import MouseHero.Server.Startup
import MouseHero.Library.FirstWins
import MouseHero.Input.XkbMapper
import MouseHero.Input.ReverseKeymap
import MouseHero.Server.Characters
import MouseHero.Library.Brackets
import MouseHero.Input.Modifiers
import MouseHero.Input.Pasting
import MouseHero.Input.HeldKeys
import MouseHero.Server.HeldKeys
import MouseHero.Library.ExactArithmetic
import MouseHero.Input.FilterLimits
import MouseHero.Input.FilterRange
import MouseHero.Server.Sensitivity
import MouseHero.Library.Numerals
import MouseHero.Support.Logger
import MouseHero.Support.LogSteps
import MouseHero.Library.RollingSlots
import MouseHero.Support.Rotation
import MouseHero.Support.FileErrors
import MouseHero.Library.BoundedHistory
import MouseHero.Support.ErrorStack
import MouseHero.Library.MemoryBlocks
import MouseHero.Support.MacAddresses
import MouseHero.Library.BlockHeap
import MouseHero.Mpack.GrowableWriter
import MouseHero.Mpack.Growth
import MouseHero.Event.FrameMemory
import MouseHero.Server.Http
import MouseHero.Server.HttpRuns
import MouseHero.Library.Framing
import MouseHero.Server.Exchanges
import MouseHero.Library.MessagePackValues
import MouseHero.Mpack.Values
import MouseHero.Server.StatusMessage
import MouseHero.Gui.Dashboard
import MouseHero.Gui.SingleInstance
import MouseHero.Gui.InstanceRaces
import MouseHero.Library.Agreement
import MouseHero.Server.Alike
import MouseHero.Server.Transports
import MouseHero.Input.DeviceSetup
import MouseHero.Input.Announcements
import MouseHero.Server.Reads
import MouseHero.Server.Crashes
import MouseHero.Input.ThrottleWords
import MouseHero.Server.Spacing
import MouseHero.Server.Mixing
