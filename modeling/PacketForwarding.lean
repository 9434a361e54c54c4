import PacketForwarding.Foundation.Altivec
import PacketForwarding.Foundation.CString
import PacketForwarding.Foundation.Cells
import PacketForwarding.Foundation.Custody
import PacketForwarding.Foundation.Endings
import PacketForwarding.Foundation.Entries
import PacketForwarding.Foundation.Gather
import PacketForwarding.Foundation.Groups
import PacketForwarding.Foundation.Lanes
import PacketForwarding.Foundation.Layout
import PacketForwarding.Foundation.LongestPrefix
import PacketForwarding.Foundation.Neon
import PacketForwarding.Foundation.Numerals
import PacketForwarding.Foundation.OnesComplement
import PacketForwarding.Foundation.Outcome
import PacketForwarding.Foundation.Pacing
import PacketForwarding.Foundation.Pairing
import PacketForwarding.Foundation.Parts
import PacketForwarding.Foundation.Passes
import PacketForwarding.Foundation.Positions
import PacketForwarding.Foundation.Prefixes
import PacketForwarding.Foundation.Runs
import PacketForwarding.Foundation.Sections
import PacketForwarding.Foundation.Sweeps
import PacketForwarding.Foundation.Threads
import PacketForwarding.Foundation.Traced
import PacketForwarding.Foundation.WholeNumerals
import PacketForwarding.L2fwd.Conservation
import PacketForwarding.L2fwd.LcoreMap
import PacketForwarding.L2fwd.MainLoop
import PacketForwarding.L2fwd.Ownership
import PacketForwarding.L2fwd.PktGen
import PacketForwarding.L2fwd.PortMap
import PacketForwarding.L3fwd.Acl
import PacketForwarding.L3fwd.AclFields
import PacketForwarding.L3fwd.AclForm
import PacketForwarding.L3fwd.AclLoader
import PacketForwarding.L3fwd.AclLoop
import PacketForwarding.L3fwd.AclParse
import PacketForwarding.L3fwd.AclPrecedence
import PacketForwarding.L3fwd.AclPrint
import PacketForwarding.L3fwd.AclRules
import PacketForwarding.L3fwd.AclSend
import PacketForwarding.L3fwd.AclSenders
import PacketForwarding.L3fwd.AltivecMulti
import PacketForwarding.L3fwd.Checksum
import PacketForwarding.L3fwd.ChecksumUpdate
import PacketForwarding.L3fwd.CommandLine
import PacketForwarding.L3fwd.Config
import PacketForwarding.L3fwd.Em
import PacketForwarding.L3fwd.EmEvents
import PacketForwarding.L3fwd.EmExtractors
import PacketForwarding.L3fwd.EmFlows
import PacketForwarding.L3fwd.EmGeneric
import PacketForwarding.L3fwd.EmKeys
import PacketForwarding.L3fwd.EmLoop
import PacketForwarding.L3fwd.EmRuleFiles
import PacketForwarding.L3fwd.EmRules
import PacketForwarding.L3fwd.EmVector
import PacketForwarding.L3fwd.EthRewrite
import PacketForwarding.L3fwd.EventBatches
import PacketForwarding.L3fwd.EventBurst
import PacketForwarding.L3fwd.EventDepth
import PacketForwarding.L3fwd.EventPorts
import PacketForwarding.L3fwd.EventSetup
import PacketForwarding.L3fwd.EventSingle
import PacketForwarding.L3fwd.EventVector
import PacketForwarding.L3fwd.EventWords
import PacketForwarding.L3fwd.Fib
import PacketForwarding.L3fwd.FibAsLpm
import PacketForwarding.L3fwd.FibLookup
import PacketForwarding.L3fwd.FibLoop
import PacketForwarding.L3fwd.FibPorts
import PacketForwarding.L3fwd.Forwarders
import PacketForwarding.L3fwd.InetAddr
import PacketForwarding.L3fwd.InitMem
import PacketForwarding.L3fwd.Lcore
import PacketForwarding.L3fwd.Lpm
import PacketForwarding.L3fwd.LpmClock
import PacketForwarding.L3fwd.LpmDrain
import PacketForwarding.L3fwd.LpmLoop
import PacketForwarding.L3fwd.LpmPaths
import PacketForwarding.L3fwd.LpmReads
import PacketForwarding.L3fwd.LpmRules
import PacketForwarding.L3fwd.LpmSetup
import PacketForwarding.L3fwd.MaxPktLen
import PacketForwarding.L3fwd.MbufPool
import PacketForwarding.L3fwd.NeonMulti
import PacketForwarding.L3fwd.NeonPaths
import PacketForwarding.L3fwd.Options
import PacketForwarding.L3fwd.PollLoop
import PacketForwarding.L3fwd.PollSetup
import PacketForwarding.L3fwd.PortGroup
import PacketForwarding.L3fwd.Program
import PacketForwarding.L3fwd.ReadRules
import PacketForwarding.L3fwd.Relay
import PacketForwarding.L3fwd.Rfc1812
import PacketForwarding.L3fwd.RouteFiles
import PacketForwarding.L3fwd.RuleFields
import PacketForwarding.L3fwd.RuleFile
import PacketForwarding.L3fwd.RuleLines
import PacketForwarding.L3fwd.RuleLoaders
import PacketForwarding.L3fwd.RuleLoading
import PacketForwarding.L3fwd.SendCalls
import PacketForwarding.L3fwd.SendFrames
import PacketForwarding.L3fwd.SendMulti
import PacketForwarding.L3fwd.TxBuffer
import PacketForwarding.L3fwd.TxCustody
import PacketForwarding.L3fwd.Validity
import PacketForwarding.L3fwd.VectorOffset
import PacketForwarding.L3fwd.VectorSlots
import PacketForwarding.NumericOptions
import PacketForwarding.Ports
