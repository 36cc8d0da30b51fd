import MrAgent.AdmissionRecovery
import MrAgent.CandidateSuppression
import MrAgent.CommitPushOnce
import MrAgent.CompressedDiff
import MrAgent.CopyFaithful
import MrAgent.DeadWorkerRecovery
import MrAgent.DiagnosticSample
import MrAgent.DiffIdentity
import MrAgent.DiffRoundTrip
import MrAgent.EffectLedger
import MrAgent.EpisodeLease
import MrAgent.FailureText
import MrAgent.FixConservation
import MrAgent.FormatTree
import MrAgent.HeavyRepairHunks
import MrAgent.HintSelection
import MrAgent.InitialPlanCover
import MrAgent.InlineBody
import MrAgent.InlineThreads
import MrAgent.LateSuccess
import MrAgent.LatestCard
import MrAgent.LeaseFencing
import MrAgent.LifecycleOrder
import MrAgent.LineLocation
import MrAgent.MandatoryActions
import MrAgent.MemoriesKept
import MrAgent.MemoryTaxonomy
import MrAgent.NumberedReadback
import MrAgent.OrphanTransfer
import MrAgent.ParsedPatch
import MrAgent.PatchAccounting
import MrAgent.PatchScope
import MrAgent.PausedAuto
import MrAgent.PipelineResolution
import MrAgent.ProjectSkillSession
import MrAgent.ProposalConfined
import MrAgent.Redelivery
import MrAgent.RedisKeys
import MrAgent.RepairGate
import MrAgent.RepairStateCycle
import MrAgent.ReportDigest
import MrAgent.ReportFreshness
import MrAgent.ReportRoundTrip
import MrAgent.ResumeIdentity
import MrAgent.RunEnrichment
import MrAgent.SkillGate
import MrAgent.SkillIsolation
import MrAgent.SplitLabels
import MrAgent.SupersededWorker
import MrAgent.TerminalStatus
import MrAgent.WorkerRegistry
