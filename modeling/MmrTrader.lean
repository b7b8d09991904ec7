import MmrTrader.Journal.Retention
import MmrTrader.Saga.Send
import MmrTrader.Saga.SubmitCheck
import MmrTrader.Liquidation.OwnerRuns
import MmrTrader.Control.PauseGate
import MmrTrader.Broker.FillBinding
import MmrTrader.Broker.NothingLost
import MmrTrader.Broker.SagaRelease
import MmrTrader.Experiment.KillEnforced
import MmrTrader.Session.Incident
import MmrTrader.Deployment.Cap
import MmrTrader.Ai.BudgetClock
import MmrTrader.Ai.BudgetLaws
import MmrTrader.Ai.GatewayLaws
import MmrTrader.Ai.Reported
import MmrTrader.Authority.Overrides
import MmrTrader.RiskPolicy.Laws
import MmrTrader.Breaker.Reset
import MmrTrader.Signals.Coverage
import MmrTrader.Evaluation.Laws
import MmrTrader.Submit.GivenUp
import MmrTrader.Promotion.ActivationLaws
import MmrTrader.Strategy.Newest
import MmrTrader.Sandbox.SupervisorLaws
import MmrTrader.Strategy.StaysDisabled
import MmrTrader.Attribution.RebuildLaws
import MmrTrader.AiPaper.Decision
import MmrTrader.Dispatch.Growth
import MmrTrader.Saga.LateFill
import MmrTrader.Scoreboard.SessionOutcomes
import MmrTrader.Scoreboard.SealAudit
import MmrTrader.Research.Canonical
import MmrTrader.Strategy.SignalHoldLaws
import MmrTrader.Scoreboard.CommissionRuns
import MmrTrader.Simulation.Lookahead
import MmrTrader.Sandbox.Frames
import MmrTrader.Sizing.SizingLaws
import MmrTrader.Data.MergeLaws
import MmrTrader.Evidence.Laws
import MmrTrader.Command.ApprovalRuns
import MmrTrader.Rpc.Client
