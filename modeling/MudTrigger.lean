import MudTrigger.Config.File
import MudTrigger.Game.Inspect
import MudTrigger.Game.Pulse
import MudTrigger.World.Extract
import MudTrigger.Proofs.Store.Reach
import MudTrigger.Proofs.Wait.Reach
import MudTrigger.Proofs.Flow.Program
import MudTrigger.Proofs.Loop.Count
import MudTrigger.Proofs.Blocks.Apart
import MudTrigger.Proofs.Blocks.Matcher
import MudTrigger.Proofs.Blocks.Patched
import MudTrigger.Proofs.Blocks.Links
import MudTrigger.Proofs.Loop.Ceiling
import MudTrigger.Proofs.Flow.Layout
import MudTrigger.Proofs.Flow.Outcome
import MudTrigger.Proofs.Flow.Passes
import MudTrigger.Proofs.Flow.Refine
import MudTrigger.Proofs.Wait.Lazy
import MudTrigger.Proofs.Trace.Course
import MudTrigger.Proofs.Trace.Agree
import MudTrigger.Proofs.Wait.Exact
import MudTrigger.Proofs.World.Dead
import MudTrigger.Proofs.Suspend.Transparent
import MudTrigger.Proofs.World.Purge
import MudTrigger.Proofs.World.Players
import MudTrigger.Proofs.Event.Unseen
import MudTrigger.Proofs.Event.Barred
import MudTrigger.Proofs.Recursion.Depth
import MudTrigger.Proofs.File.Load
import MudTrigger.Proofs.World.History
import MudTrigger.Proofs.Data.Roster
import MudTrigger.Proofs.Text.Parts
import MudTrigger.Proofs.Flow.Bounded
import MudTrigger.Proofs.Flow.Stray
import MudTrigger.Proofs.Expression.Integers
import MudTrigger.Proofs.Expression.Truth
import MudTrigger.Proofs.Wait.Clock
import MudTrigger.Proofs.Guard.Deferral
import MudTrigger.Proofs.Text.Phrases
import MudTrigger.Proofs.Text.Brackets
import MudTrigger.Proofs.Variables.Global
import MudTrigger.Proofs.Variables.Captured
import MudTrigger.Proofs.Event.Declined
import MudTrigger.Proofs.World.Placed
import MudTrigger.Proofs.World.Tour
import MudTrigger.Proofs.World.Unscripted
import MudTrigger.Proofs.Event.Walk
import MudTrigger.Proofs.Random.Range
import MudTrigger.Proofs.Random.Checkpoint
import MudTrigger.Proofs.Event.Dying
import MudTrigger.Proofs.Event.Scan
import MudTrigger.Proofs.Flow.Blank
import MudTrigger.Proofs.Variables.Ordered
import MudTrigger.Proofs.Text.Abbreviation
