import DeviceConfig.Binary.Double
import DeviceConfig.Binary.Format
import DeviceConfig.Binary.Single
import DeviceConfig.Check
import DeviceConfig.Codec
import DeviceConfig.Common
import DeviceConfig.Custom
import DeviceConfig.Cycle
import DeviceConfig.Decimal.Shortest
import DeviceConfig.Decimal.Text
import DeviceConfig.Device
import DeviceConfig.Document
import DeviceConfig.Hook
import DeviceConfig.Host
import DeviceConfig.Inference
import DeviceConfig.Json.Numeral
import DeviceConfig.Json.Object
import DeviceConfig.Json.Pointer
import DeviceConfig.Json.Text
import DeviceConfig.Json.Value
import DeviceConfig.Json.Written
import DeviceConfig.Lifecycle
import DeviceConfig.Main
import DeviceConfig.Parameters.Extraction
import DeviceConfig.Parameters.Field
import DeviceConfig.Parameters.Worker
import DeviceConfig.Picture.Field
import DeviceConfig.Picture.Register
import DeviceConfig.Picture.Scalar
import DeviceConfig.Picture.Settings
import DeviceConfig.Picture.Structured
import DeviceConfig.Port
import DeviceConfig.Request
import DeviceConfig.Response.Code
import DeviceConfig.Response.Error
import DeviceConfig.Response.Record
import DeviceConfig.Rule
import DeviceConfig.Sensor.Basic
import DeviceConfig.Sensor.Exchange
import DeviceConfig.Sensor.Property
import DeviceConfig.Sensor.Register
import DeviceConfig.Sensor.Simulator
import DeviceConfig.Serialized
import DeviceConfig.Shell.Command
import DeviceConfig.Shell.Console
import DeviceConfig.Shell.Dialogue
import DeviceConfig.Shell.Environment
import DeviceConfig.Shell.FileTree
import DeviceConfig.Shell.Files
import DeviceConfig.Shell.Replay
import DeviceConfig.Shell.Session
import DeviceConfig.Shell.Settings
import DeviceConfig.Slots
import DeviceConfig.State
import DeviceConfig.Text.Blank
import DeviceConfig.Text.Digits
import DeviceConfig.Toml.Literal
import DeviceConfig.Toml.Node
import DeviceConfig.Toml.Quoted
import DeviceConfig.Toml.Reader
import DeviceConfig.Toml.Writer
import DeviceConfig.Tree
import DeviceConfig.Proofs.Cycle
import DeviceConfig.Proofs.Steps
import DeviceConfig.Proofs.Rounding
import DeviceConfig.Proofs.Digits
import DeviceConfig.Proofs.Objects
import DeviceConfig.Proofs.Checks
import DeviceConfig.Proofs.Echo
import DeviceConfig.Proofs.Simulator
import DeviceConfig.Proofs.Sections
import DeviceConfig.Proofs.Document
import DeviceConfig.Proofs.Device
import DeviceConfig.Proofs.Lifecycle
import DeviceConfig.Proofs.Mirror
import DeviceConfig.Proofs.Recording
import DeviceConfig.Proofs.Running
import DeviceConfig.Proofs.Stream
import DeviceConfig.Proofs.Requests
import DeviceConfig.Proofs.Working
import DeviceConfig.Proofs.Faults
import DeviceConfig.Proofs.Queue
import DeviceConfig.Proofs.Application
import DeviceConfig.Proofs.Acceptance
import DeviceConfig.Proofs.WellFormed
import DeviceConfig.Proofs.RoundTrip
import DeviceConfig.Proofs.Delivery
import DeviceConfig.Proofs.Commitment
import DeviceConfig.Proofs.Domain
import DeviceConfig.Proofs.Ordering
import DeviceConfig.Proofs.Destruction
import DeviceConfig.Proofs.Numerals
import DeviceConfig.Proofs.Serialization
import DeviceConfig.Proofs.Routing
import DeviceConfig.Proofs.Nesting
import DeviceConfig.Proofs.Reading
import DeviceConfig.Proofs.Fidelity
import DeviceConfig.Proofs.Paths
import DeviceConfig.Proofs.Processing
import DeviceConfig.Proofs.Merging
import DeviceConfig.Proofs.Turns
import DeviceConfig.Proofs.Parts
import DeviceConfig.Proofs.Settling
import DeviceConfig.Proofs.Repetition
import DeviceConfig.Proofs.Independence
import DeviceConfig.Proofs.Frame
import DeviceConfig.Proofs.Descent
import DeviceConfig.Proofs.Violations
import DeviceConfig.Proofs.Visits
import DeviceConfig.Proofs.Attempts
import DeviceConfig.Proofs.Values
import DeviceConfig.Proofs.Entries
import DeviceConfig.Proofs.Scaling
import DeviceConfig.Proofs.Rereading
import DeviceConfig.Proofs.Placement
import DeviceConfig.Proofs.Extraction
import DeviceConfig.Proofs.Saturation
import DeviceConfig.Proofs.Spelling
import DeviceConfig.Proofs.Refusal
import DeviceConfig.Proofs.Notice
import DeviceConfig.Proofs.Demands
import DeviceConfig.Proofs.Magnitude
