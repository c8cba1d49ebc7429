import Concord.Main
import Concord.Scenario.ObserverSession
import Concord.Scenario.RosterSession
import Concord.Scenario.Session
import Concord.Proofs.Engine.Pipeline
import Concord.Proofs.Engine.Preservation
import Concord.Proofs.Engine.Serialization
import Concord.Proofs.Engine.Closing
import Concord.Proofs.Engine.Shutdown
import Concord.Proofs.Engine.Delivery
import Concord.Proofs.Grammar
import Concord.Proofs.Engine.Narration
import Concord.Proofs.Engine.Deferral
import Concord.Proofs.Engine.Lockstep
import Concord.Proofs.Engine.Comparison
import Concord.Proofs.Engine.Failures
import Concord.Proofs.Engine.Capacity
import Concord.Proofs.Engine.Promptness
import Concord.Proofs.Engine.Declarations
import Concord.Proofs.Precedence.Cycles
import Concord.Proofs.Engine.Verdicts
import Concord.Proofs.Engine.Draining
import Concord.Proofs.Engine.Observers
import Concord.Proofs.Engine.Polls
import Concord.Proofs.Wardrobe.Laundry
import Concord.Proofs.Engine.Canvasses
import Concord.Proofs.Settings
import Concord.Proofs.Engine.Journals
import Concord.Proofs.Engine.Refusals
import Concord.Proofs.Engine.Losses
import Concord.Proofs.Engine.Setbacks
import Concord.Proofs.Engine.Tracing
import Concord.Proofs.Engine.Warnings
import Concord.Proofs.Engine.Walks
import Concord.Proofs.Queueing
import Concord.Proofs.Engine.Rounds
