import Kwe.Apply.Canvas
import Kwe.Audio.Alignment
import Kwe.Audio.Emission
import Kwe.Cdp.Correlation
import Kwe.Daemon.Durability
import Kwe.Daemon.Framing
import Kwe.Desktop.Injection
import Kwe.Desktop.Records
import Kwe.Desktop.Understood
import Kwe.Display.Handoff
import Kwe.Display.Pointer
import Kwe.Display.Surfaces
import Kwe.Effects.Order
import Kwe.Foundation.Backlog
import Kwe.Foundation.Base64
import Kwe.Foundation.CappedLines
import Kwe.Foundation.EcmaScript
import Kwe.Foundation.FileUrl
import Kwe.Foundation.Limiter
import Kwe.Foundation.Lines
import Kwe.Foundation.Lossy
import Kwe.Foundation.Numbering
import Kwe.Foundation.Percent
import Kwe.Foundation.Utf16
import Kwe.Foundation.Windows
import Kwe.Frames.Readers
import Kwe.Frames.Stale
import Kwe.Input.Acks
import Kwe.Input.Channels
import Kwe.Input.Control
import Kwe.Input.RoundTrip
import Kwe.Layers.Draws
import Kwe.Layers.States
import Kwe.Manager.Activation
import Kwe.Manager.Applying
import Kwe.Manager.Packages
import Kwe.Manager.Previews
import Kwe.Manager.Queues
import Kwe.Particles.Frames
import Kwe.Particles.Motion
import Kwe.Particles.Playback
import Kwe.Particles.Population
import Kwe.Pipes.Reads
import Kwe.Pipes.Writes
import Kwe.Playlists.Convergence
import Kwe.Playlists.Editor
import Kwe.Playlists.Identities
import Kwe.Playlists.Imports
import Kwe.Playlists.Precedence
import Kwe.Playlists.Restore
import Kwe.Playlists.Selection
import Kwe.Playlists.Shuffle
import Kwe.Playlists.Timing
import Kwe.Reports.Finalize
import Kwe.Reports.Findings
import Kwe.Reports.Inspection
import Kwe.Reports.ShaderHelper
import Kwe.Reports.Supervise
import Kwe.Scene.EffectSlots
import Kwe.Scene.Lookup
import Kwe.Scripts.Armed
import Kwe.Scripts.Engine
import Kwe.Shader.Evaluated
import Kwe.Shader.Included
import Kwe.Shader.Locations
import Kwe.Shader.Macros
import Kwe.Shader.Placement
import Kwe.Shader.Preprocess
import Kwe.Supervisor.Displayed
import Kwe.Supervisor.Generations
import Kwe.Supervisor.LastGood
import Kwe.Supervisor.Phases
import Kwe.Supervisor.Quarantine
import Kwe.Supervisor.Requests
import Kwe.Supervisor.StderrRing
import Kwe.Text.Agreement
import Kwe.Text.Calls
import Kwe.Text.Packing
import Kwe.Vdf.RoundTrip
import Kwe.Web.Acknowledged
import Kwe.Web.Base64
import Kwe.Web.PageUrl
import Kwe.Web.Pointer
import Kwe.Workshop.Aging
import Kwe.Workshop.Merged
import Kwe.Workshop.Subscriptions
import Kwe.Workshop.Sync
