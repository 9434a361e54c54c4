import PacketForwarding.L3fwd.Config
import PacketForwarding.L3fwd.InitMem
import PacketForwarding.L3fwd.MaxPktLen
import PacketForwarding.L3fwd.MbufPool
import PacketForwarding.NumericOptions

/-! # The options of the command line -/

namespace PacketForwarding.L3fwd

open CString
open L2fwd (Strsplit)

/-! ## What is set -/

inductive SchedType
  | ordered | atomic | parallel
  deriving DecidableEq

inductive AclClassifyAlg
  | default | scalar | sse | avx2 | neon | altivec | avx512x16 | avx512x32
  deriving DecidableEq

/-- What the options set of `struct l3fwd_event_resources`. -/
structure EventOptions where
  enabled : Bool
  vectorEnabled : Bool
  schedType : SchedType
  ethRxQueues : BitVec 16
  vectorSize : BitVec 16
  vectorTmoNs : BitVec 64

/-- The variables that the options set, where `L3FWD_LOOKUP_DEFAULT` is no mode. The last three
are local to `parse_args`. -/
structure Options where
  enabledPortMask : BitVec 32
  promiscuousOn : Bool
  lookupMode : Option LookupMode
  lcoreParams : List LcoreParams
  nbRxd : BitVec 16
  nbTxd : BitVec 16
  rxBurstSize : BitVec 32
  txBurstSize : BitVec 32
  mbMempoolCacheSize : BitVec 32
  addrs : EthAddrs
  numaOn : Bool
  ipv6 : Bool
  maxPktLen : BitVec 32
  parsePtype : Bool
  relaxRxOffload : Bool
  disableRss : Bool
  perPortPool : Bool
  ruleIpv4Name : Option Bytes
  ruleIpv6Name : Option Bytes
  alg : AclClassifyAlg
  evtRsrc : EventOptions
  lcoreParamsGiven : Bool
  eventqSched : Bool
  ethRxQ : Bool

/-- `lcore_params_array_default` -/
def lcoreParamsArrayDefault : List LcoreParams :=
  [⟨0#16, 0#16, 2#32⟩, ⟨0#16, 1#16, 2#32⟩, ⟨0#16, 2#16, 2#32⟩, ⟨1#16, 0#16, 2#32⟩,
    ⟨1#16, 1#16, 2#32⟩, ⟨1#16, 2#16, 2#32⟩, ⟨2#16, 0#16, 2#32⟩, ⟨3#16, 0#16, 3#32⟩,
    ⟨3#16, 1#16, 3#32⟩]

/-- `RX_DESC_DEFAULT` and `TX_DESC_DEFAULT` -/
def descDefault : BitVec 16 := 1024#16

/-- `DEFAULT_PKT_BURST` -/
def defaultPktBurst : BitVec 32 := 32#32

/-- `l3fwd_get_eventdev_rsrc` sets two fields of memory that is zero. -/
def l3fwdGetEventdevRsrc : EventOptions where
  enabled := false
  vectorEnabled := false
  schedType := .atomic
  ethRxQueues := 1#16
  vectorSize := 0#16
  vectorTmoNs := 0#64

/-- The variables before the first option, with the addresses that `main` has set. -/
def Options.initial : Options where
  enabledPortMask := 0#32
  promiscuousOn := false
  lookupMode := none
  lcoreParams := lcoreParamsArrayDefault
  nbRxd := descDefault
  nbTxd := descDefault
  rxBurstSize := defaultPktBurst
  txBurstSize := defaultPktBurst
  mbMempoolCacheSize := BitVec.ofNat 32 mempoolCacheSize
  addrs := .preInit
  numaOn := true
  ipv6 := false
  maxPktLen := 0#32
  parsePtype := false
  relaxRxOffload := false
  disableRss := false
  perPortPool := false
  ruleIpv4Name := none
  ruleIpv6Name := none
  alg := .default
  evtRsrc := l3fwdGetEventdevRsrc
  lcoreParamsGiven := false
  eventqSched := false
  ethRxQ := false

/-! ## Arguments -/

/-- What the parsers need of the environment: two functions, and the receive burst that the
driver of the first port recommends, if the port can be asked. -/
structure Platform where
  rteStrsplit : Strsplit
  cmdlineParseEtheraddr : Bytes → Option (BitVec 48)
  defaultRxBurstSize : Option (BitVec 16)

def parseMode (optarg : Bytes) (enabled : Bool) : Bool :=
  if optarg = ascii "poll" then false
  else if optarg = ascii "eventdev" then true
  else enabled

/-- The size of a queue. `rte_exit` is `none`. -/
def parseQueueSize (queueSizeArg : Bytes) : Option (BitVec 16) :=
  match wholeUlong 10 queueSizeArg with
  | none => none
  | some value =>
      if value = 0 then none
      else if 0xffff < value then none
      else some (BitVec.ofNat 16 value)

def parseEventqSched (optarg : Bytes) (schedType : SchedType) : SchedType :=
  if optarg = ascii "ordered" then .ordered
  else if optarg = ascii "atomic" then .atomic
  else if optarg = ascii "parallel" then .parallel
  else schedType

/-- The number is of sixteen bits before it is compared with zero. -/
def parseEventEthRxQueues (ethRxQueuesArg : Bytes) (ethRxQueues : BitVec 16) : BitVec 16 :=
  match wholeUlong 10 ethRxQueuesArg with
  | none => ethRxQueues
  | some value =>
      let numEthRxQueues := BitVec.ofNat 16 value
      if numEthRxQueues = 0#16 then ethRxQueues else numEthRxQueues

def parseLookup (optarg : Bytes) : Option LookupMode :=
  if optarg = ascii "em" then some .em
  else if optarg = ascii "lpm" then some .lpm
  else if optarg = ascii "fib" then some .fib
  else if optarg = ascii "acl" then some .acl
  else none

/-- The limit `RTE_MEMPOOL_CACHE_MAX_SIZE` is what `MEMPOOL_CACHE_SIZE` stands for. -/
def parseMbcacheSize (optarg : Bytes) (mbMempoolCacheSize : BitVec 32) : Option (BitVec 32) :=
  match wholeUlong 10 optarg with
  | none => some mbMempoolCacheSize
  | some mbCacheSize =>
      if mbCacheSize ≤ mempoolCacheSize then some (BitVec.ofNat 32 mbCacheSize) else none

/-- If user gives a value of zero, query the PMD for its recommended Rx burst size. -/
def parsePktBurst (platform : Platform) (optarg : Bytes) (isRxBurst : Bool)
    (burstSz : BitVec 32) : BitVec 32 :=
  match wholeUlong 10 optarg with
  | none => burstSz
  | some pktBurst =>
      if maxPktBurst < pktBurst then burstSz
      else if 0 < pktBurst then BitVec.ofNat 32 pktBurst
      else if isRxBurst = true then
        match platform.defaultRxBurstSize with
        | none => burstSz
        | some burstSize =>
            if burstSize = 0#16 then burstSz
            else if maxPktBurst < burstSize.toNat then burstSz
            else burstSize.setWidth 32
      else
        burstSz

/-- `acl_alg` -/
def aclAlg : List (Bytes × AclClassifyAlg) :=
  [(ascii "scalar", .scalar), (ascii "sse", .sse), (ascii "avx2", .avx2), (ascii "neon", .neon),
    (ascii "altivec", .altivec), (ascii "avx512x16", .avx512x16), (ascii "avx512x32", .avx512x32)]

def parseAclAlg (alg : Bytes) : AclClassifyAlg :=
  match aclAlg.find? fun entry => entry.1 = alg with
  | none => .default
  | some entry => entry.2

/-! ## One option -/

/-- What `getopt_long` returns, each time it is called, with the argument. -/
inductive Opt
  | portmask (optarg : Bytes)
  | promiscuous
  | legacyEm
  | legacyLpm
  | config (optarg : Bytes)
  | rxQueueSize (optarg : Bytes)
  | txQueueSize (optarg : Bytes)
  | pktRxBurst (optarg : Bytes)
  | pktTxBurst (optarg : Bytes)
  | mbCacheSize (optarg : Bytes)
  | ethDest (optarg : Bytes)
  | noNuma
  | ipv6
  | maxPktLen (optarg : Bytes)
  | hashEntryNum (optarg : Bytes)
  | parsePtype
  | relaxRxOffload
  | disableRss
  | perPortPool
  | mode (optarg : Bytes)
  | eventqSync (optarg : Bytes)
  | eventEthRxQueues (optarg : Bytes)
  | enableVector
  | vectorSize (optarg : Bytes)
  | vectorTmoNs (optarg : Bytes)
  | lookup (optarg : Bytes)
  | ruleIpv4 (optarg : Bytes)
  | ruleIpv6 (optarg : Bytes)
  | alg (optarg : Bytes)
  | other

/-- An option that is refused ends the program, like a call of `rte_exit`. -/
def parseOpt (platform : Platform) (options : Options) : Opt → Option Options
  | .portmask optarg =>
      let enabledPortMask := parsePortmask optarg
      if enabledPortMask = 0#32 then none
      else some { options with enabledPortMask := enabledPortMask }
  | .promiscuous => some { options with promiscuousOn := true }
  | .legacyEm =>
      if options.lookupMode ≠ none then none else some { options with lookupMode := some .em }
  | .legacyLpm =>
      if options.lookupMode ≠ none then none else some { options with lookupMode := some .lpm }
  | .config optarg =>
      (parseConfig platform.rteStrsplit optarg).map fun lcoreParams =>
        { options with lcoreParams := lcoreParams, lcoreParamsGiven := true }
  | .rxQueueSize optarg =>
      (parseQueueSize optarg).map fun nbRxd => { options with nbRxd := nbRxd }
  | .txQueueSize optarg =>
      (parseQueueSize optarg).map fun nbTxd => { options with nbTxd := nbTxd }
  | .pktRxBurst optarg =>
      some { options with rxBurstSize := parsePktBurst platform optarg true options.rxBurstSize }
  | .pktTxBurst optarg =>
      some { options with txBurstSize := parsePktBurst platform optarg false options.txBurstSize }
  | .mbCacheSize optarg =>
      (parseMbcacheSize optarg options.mbMempoolCacheSize).map fun mbMempoolCacheSize =>
        { options with mbMempoolCacheSize := mbMempoolCacheSize }
  | .ethDest optarg =>
      (ethDestOption platform.cmdlineParseEtheraddr options.addrs optarg).map fun stored =>
        { options with addrs := stored.2 }
  | .noNuma => some { options with numaOn := false }
  | .ipv6 => some { options with ipv6 := true }
  | .maxPktLen optarg => some { options with maxPktLen := parseMaxPktLen optarg }
  | .hashEntryNum _ => some options
  | .parsePtype => some { options with parsePtype := true }
  | .relaxRxOffload => some { options with relaxRxOffload := true }
  | .disableRss => some { options with disableRss := true }
  | .perPortPool => some { options with perPortPool := true }
  | .mode optarg =>
      some { options with evtRsrc := { options.evtRsrc with
        enabled := parseMode optarg options.evtRsrc.enabled } }
  | .eventqSync optarg =>
      some { options with
        evtRsrc := { options.evtRsrc with
          schedType := parseEventqSched optarg options.evtRsrc.schedType }
        eventqSched := true }
  | .eventEthRxQueues optarg =>
      some { options with
        evtRsrc := { options.evtRsrc with
          ethRxQueues := parseEventEthRxQueues optarg options.evtRsrc.ethRxQueues }
        ethRxQ := true }
  | .enableVector =>
      some { options with evtRsrc := { options.evtRsrc with vectorEnabled := true } }
  | .vectorSize optarg =>
      some { options with evtRsrc := { options.evtRsrc with
        vectorSize := BitVec.ofInt 16 (strtol 10 optarg).value } }
  | .vectorTmoNs optarg =>
      some { options with evtRsrc := { options.evtRsrc with
        vectorTmoNs := BitVec.ofNat 64 (strtoul 10 optarg).value } }
  | .lookup optarg =>
      if options.lookupMode ≠ none then none
      else (parseLookup optarg).map fun lookupMode => { options with lookupMode := some lookupMode }
  | .ruleIpv4 optarg => some { options with ruleIpv4Name := some optarg }
  | .ruleIpv6 optarg => some { options with ruleIpv6Name := some optarg }
  | .alg optarg => some { options with alg := parseAclAlg optarg }
  | .other => none

/-! ## The whole command line -/

/-- `VECTOR_SIZE_DEFAULT` and `VECTOR_TMO_NS_DEFAULT` -/
def EventOptions.withVectorDefaults (evtRsrc : EventOptions) : EventOptions :=
  { evtRsrc with
    vectorSize :=
      if evtRsrc.vectorEnabled = true ∧ evtRsrc.vectorSize = 0#16 then BitVec.ofNat 16 maxPktBurst
      else evtRsrc.vectorSize
    vectorTmoNs :=
      if evtRsrc.vectorEnabled = true ∧ evtRsrc.vectorTmoNs = 0#64 then 1000000#64
      else evtRsrc.vectorTmoNs }

/-- What is checked and set behind the last option. -/
def checkOptions (options : Options) : Option Options :=
  -- lcore config is not valid when event mode is selected
  if options.evtRsrc.enabled = true ∧ options.lcoreParamsGiven = true then
    none
  -- the other two are valid only then
  else if options.evtRsrc.enabled = false ∧ options.ethRxQ = true then
    none
  else if options.evtRsrc.enabled = false ∧ options.eventqSched = true then
    none
  else
    some { options with
      evtRsrc := options.evtRsrc.withVectorDefaults
      -- pick longest-prefix match as default match
      lookupMode := some (options.lookupMode.getD .lpm) }

def parseArgs (platform : Platform) (line : List Opt) : Option Options := do
  let options ← line.foldlM (parseOpt platform) .initial
  checkOptions options

end PacketForwarding.L3fwd
