import Scratchbox.Lib.Calls
import Scratchbox.Lib.CallRules
import Scratchbox.Lib.Tokens
import Scratchbox.PathList
import Scratchbox.Dotdots
import Scratchbox.RuleTree
import Scratchbox.Resolution
import Scratchbox.DotdotEval
import Scratchbox.CleanRules
import Scratchbox.LookUps
import Scratchbox.ResolutionFacts
import Scratchbox.Engine
import Scratchbox.SymlinkSplice
import Scratchbox.RuleAgreement
import Scratchbox.CleanInvariant
import Scratchbox.ResolutionAnswers
import Scratchbox.ChrootConfinement
import Scratchbox.Chroot
import Scratchbox.ResolutionFollows
import Scratchbox.ChrootFacts
import Scratchbox.ChrootTransparency
import Scratchbox.ChrootRuns
import Scratchbox.FdPathDb
import Scratchbox.EngineFacts
import Scratchbox.OpenatChain
import Scratchbox.DescriptorRuns
import Scratchbox.RuleTables
import Scratchbox.ReverseRules
import Scratchbox.Lib.Placing
import Scratchbox.PathTexts
import Scratchbox.PlainRules
import Scratchbox.ReverseRoundTrip
import Scratchbox.ActionProtection
import Scratchbox.SelectorCoverage
import Scratchbox.Lib.SearchTree
import Scratchbox.RuletreeFile
import Scratchbox.InodeStore
import Scratchbox.InodeStoreFacts
import Scratchbox.InodeMap
import Scratchbox.ActiveCounter
import Scratchbox.SimulatedIds
import Scratchbox.Lib.MaskedBits
import Scratchbox.VpermStat
import Scratchbox.ChmodGates
import Scratchbox.ChownGates
import Scratchbox.MkdirGates
import Scratchbox.Lib.LinkTable
import Scratchbox.LinkRemoval
import Scratchbox.IdCallRuns
import Scratchbox.IdExport
import Scratchbox.RpcSocket
import Scratchbox.ExecEnvironment
import Scratchbox.ExecPostprocess
import Scratchbox.UserEnvironment
import Scratchbox.Lib.Chains
import Scratchbox.PrepareExec
import Scratchbox.ExecContainment
import Scratchbox.HostCleaning
import Scratchbox.TranslationErrors
import Scratchbox.HostPrefixes
import Scratchbox.ParentErrors
import Scratchbox.NetRules
import Scratchbox.SocketGates
import Scratchbox.Lib.Bytes
import Scratchbox.Lib.Programs
import Scratchbox.RuletreeImage
import Scratchbox.RuletreeLayout
import Scratchbox.ObjectStability
import Scratchbox.RuletreeLimit
import Scratchbox.CatalogTree
import Scratchbox.CatalogStore
import Scratchbox.RuleForest
import Scratchbox.LoaderStructure
import Scratchbox.PathMatchers
import Scratchbox.RuleSearch
import Scratchbox.ReverseGeneration
import Scratchbox.ReverseShadowing
import Scratchbox.ExecPreprocess
import Scratchbox.ScriptHeader
import Scratchbox.Lib.LinkedList
import Scratchbox.LinkedPaths
import Scratchbox.Assertions
import Scratchbox.EnvironmentFrame
import Scratchbox.Lib.Reads
import Scratchbox.LibraryPaths
import Scratchbox.BinaryInspection
import Scratchbox.InspectionReads
import Scratchbox.BinaryTypes
import Scratchbox.AddressPatterns
import Scratchbox.ExecCleanup
import Scratchbox.ExecMachine
import Scratchbox.PathSearch
import Scratchbox.AbsoluteForms
import Scratchbox.UnknownOwners
