import Redelivery.Consumer.Plan
import Redelivery.Main
import Redelivery.Session.Run
import Redelivery.Source.Script
import Redelivery.Stack
import Redelivery.Identifier
import Redelivery.Proofs.Layer.Coverage
import Redelivery.Proofs.Layer.EndOfStream
import Redelivery.Proofs.Layer.Plain
import Redelivery.Proofs.Layer.WakeUp
import Redelivery.Proofs.Port.Hom
import Redelivery.Proofs.Port.Recorded
import Redelivery.Proofs.Session.Reach
import Redelivery.Proofs.Source.Memory
import Redelivery.Proofs.Layer.Order
import Redelivery.Proofs.Layer.Interruption
import Redelivery.Proofs.Consumer.Reach
import Redelivery.Proofs.Consumer.Watched
import Redelivery.Proofs.Consumer.Reread
import Redelivery.Proofs.Stack.Conduit
import Redelivery.Proofs.Stack.Lockstep
import Redelivery.Proofs.Consumer.Settled
import Redelivery.Proofs.Stack.Binding
import Redelivery.Proofs.Stack.Semblance
import Redelivery.Proofs.Layer.Inside
import Redelivery.Proofs.Stack.Lining
import Redelivery.Proofs.Stack.Outermost
import Redelivery.Proofs.Stack.Sessions
import Redelivery.Proofs.Stack.Transparent
import Redelivery.Proofs.Source.Semblance
import Redelivery.Proofs.Layer.AfterEnd
import Redelivery.Proofs.Consumer.Recorded
import Redelivery.Proofs.Consumer.Report
import Redelivery.Proofs.Consumer.Lifecycle
import Redelivery.Proofs.Consumer.Flaky
import Redelivery.Proofs.Consumer.Hom
import Redelivery.Proofs.Layer.Aloof
import Redelivery.Proofs.Consumer.Undeterred
import Redelivery.Proofs.Command.Supply
import Redelivery.Proofs.Command.Consumption
import Redelivery.Proofs.Consumer.Passing
import Redelivery.Proofs.Consumer.Run
import Redelivery.Proofs.Command.Production
import Redelivery.Proofs.Layer.Commutation
import Redelivery.Proofs.Layer.Correlation
import Redelivery.Proofs.Backoff
import Redelivery.Proofs.Rounding
import Redelivery.Proofs.Duration
import Redelivery.Proofs.Delays
import Redelivery.Proofs.Backlog
import Redelivery.Proofs.Layer.Diagnostics
import Redelivery.Proofs.Layer.Abandonment
import Redelivery.Proofs.Layer.Pacing
import Redelivery.Proofs.Layer.Provenance
import Redelivery.Proofs.Jitter
import Redelivery.Proofs.Layer.Endurance
import Redelivery.Proofs.Settings.Saved
import Redelivery.Proofs.Source.HandOver
import Redelivery.Proofs.Source.Waiting
import Redelivery.Proofs.Json.Grammar
import Redelivery.Proofs.Descent
import Redelivery.Proofs.Failure
import Redelivery.Proofs.Json.Skip
import Redelivery.Proofs.Json.Overlay
import Redelivery.Proofs.Settings.Overlay
