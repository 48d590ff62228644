import HomeMonitor.Text.Occurrence
import HomeMonitor.Text.Block
import HomeMonitor.Text.Mark
import HomeMonitor.Text.Lines
import HomeMonitor.Arduino.WString
import HomeMonitor.Arduino.Host
import HomeMonitor.Framing.Extract
import HomeMonitor.Sketch.AsyncWebserver
import HomeMonitor.Sketch.Keypad
import HomeMonitor.Sketch.Sensors
import HomeMonitor.Sketch.RFID
import HomeMonitor.Framing.Format
import HomeMonitor.Framing.Codec
import HomeMonitor.Framing.Acceptance
import HomeMonitor.Framing.Truncation
import HomeMonitor.Framing.Widest
import HomeMonitor.Machine.Run
import HomeMonitor.Machine.Loop
import HomeMonitor.Sketch.Website
import HomeMonitor.Template.Engine
import HomeMonitor.Template.Stream
import HomeMonitor.Template.Fill
import HomeMonitor.Template.Page
import HomeMonitor.Template.RootPage
import HomeMonitor.Template.Termination
import HomeMonitor.Template.RootPageEnds
import HomeMonitor.Keypad.Decisions
import HomeMonitor.Keypad.Password
import HomeMonitor.Sensors.Reports
import HomeMonitor.RFID.Reply
import HomeMonitor.RFID.Scan
import HomeMonitor.RFID.Identity
import HomeMonitor.RFID.Stream
import HomeMonitor.Network.System
import HomeMonitor.Network.Opening
import HomeMonitor.Network.Routing
import HomeMonitor.Server.Interleaving
import HomeMonitor.Cmd.Shell
import HomeMonitor.Sketch.WebpageIncludeCreator
import HomeMonitor.Website.Generator
import HomeMonitor.Machine.Simulation
import HomeMonitor.Matrix.Keypad
import HomeMonitor.Matrix.KeyList
import HomeMonitor.Matrix.Tracker
import HomeMonitor.Matrix.Presses
import HomeMonitor.Matrix.Typing
import HomeMonitor.Keypad.Node
import HomeMonitor.Text.Head
import HomeMonitor.Arduino.Chars
import HomeMonitor.Http.Request
import HomeMonitor.Http.Packets
import HomeMonitor.Sketch.Endpoints
import HomeMonitor.Http.Routes
import HomeMonitor.Http.Url
import HomeMonitor.Http.Answered
import HomeMonitor.Text.Chunks
import HomeMonitor.Http.Response
import HomeMonitor.Http.Delivery
import HomeMonitor.Http.Progmem
import HomeMonitor.Template.Buffers
import HomeMonitor.Http.Chunked
import HomeMonitor.Http.Client
import HomeMonitor.Http.Page
import HomeMonitor.Http.Calls
import HomeMonitor.Network.Board
import HomeMonitor.Network.Dashboard
import HomeMonitor.Network.Browsers
import HomeMonitor.Network.Unlocking
import HomeMonitor.Network.LivePage
