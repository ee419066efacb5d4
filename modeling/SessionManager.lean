import SessionManager.Guarantees.EventBlocks
import SessionManager.Guarantees.Submission
import SessionManager.Guarantees.DeadSessions
import SessionManager.Guarantees.Desktop
import SessionManager.Guarantees.FinalRuns
import SessionManager.Guarantees.Health
import SessionManager.Guarantees.ActiveRuns
import SessionManager.World.Schedule
import SessionManager.Guarantees.Guards
import SessionManager.Lifecycle.Sealing
import SessionManager.Lifecycle.Terminal
import SessionManager.Stream.Chain
import SessionManager.Guarantees.Heartbeats
import SessionManager.Guarantees.Reconnect
import SessionManager.Guarantees.Delivery
import SessionManager.Reconciler.Restart
import SessionManager.Lifecycle.Apart
import SessionManager.Library.Numbering
import SessionManager.World.Messages
import SessionManager.Guarantees.Conversation
import SessionManager.Guarantees.Versions
import SessionManager.World.Bindings
import SessionManager.Runtime.Engine
import SessionManager.System.State
import SessionManager.Guarantees.Isolation
import SessionManager.Guarantees.LostRuntimes
import SessionManager.Guarantees.ToolResults
import SessionManager.Guarantees.TextualCalls
import SessionManager.Guarantees.Selection
import SessionManager.Guarantees.HeldKeys
import SessionManager.Guarantees.ToolInputs
import SessionManager.Guarantees.ToolErrors
import SessionManager.Guarantees.BashOutput
import SessionManager.Guarantees.CommandNumbers
import SessionManager.Guarantees.Buffers
import SessionManager.Guarantees.Cleanup
import SessionManager.Guarantees.Execution
import SessionManager.Guarantees.Records
import SessionManager.Events.Frames
import SessionManager.Agents.Markup
import SessionManager.Guarantees.ParsedCalls
import SessionManager.Guarantees.Containers
import SessionManager.Guarantees.Leftovers
import SessionManager.Demo.Answered
import SessionManager.Demo.Rendering
import SessionManager.Demo.Breakpoints
import SessionManager.Demo.Screenshots
import SessionManager.Demo.Edit
import SessionManager.Demo.Edits
import SessionManager.Demo.Snippets
import SessionManager.Guarantees.Timeline
import SessionManager.Guarantees.AgentRuns
import SessionManager.Runtime.VncAccess
import SessionManager.Demo.Shells
import SessionManager.Guarantees.ShownDesktop
