import SwarmCraft.Cli.Checksum
import SwarmCraft.Cli.Permit
import SwarmCraft.Network.Invite
import SwarmCraft.Refinement.Ballot
import SwarmCraft.Safety.ArtifactStability
import SwarmCraft.Safety.Authentication
import SwarmCraft.Safety.CertificateOrder
import SwarmCraft.Safety.CertificateRetry
import SwarmCraft.Safety.CommitRecovery
import SwarmCraft.Safety.DescriptorAgreement
import SwarmCraft.Safety.FreshnessFence
import SwarmCraft.Safety.HonestSource
import SwarmCraft.Safety.HostingRestart
import SwarmCraft.Safety.Learning
import SwarmCraft.Safety.LiveAuthority
import SwarmCraft.Safety.Outsiders
import SwarmCraft.Safety.PrepareBase
import SwarmCraft.Safety.PromiseBase
import SwarmCraft.Safety.RecordChains
import SwarmCraft.Safety.SleepBase
import SwarmCraft.Safety.SoloMaintenance
import SwarmCraft.Safety.SurvivingQuorum
import SwarmCraft.Safety.TransferHandoff
