import PacketForwarding.Foundation.Parts
import PacketForwarding.L3fwd.Options

/-! # Which command lines are accepted

Every option sets one thing, and none but its own. So what an option does depends on the
options for the same setting only, and the order of options for different settings does not
matter.
-/

namespace PacketForwarding.L3fwd

open CString

/-! ## Settings -/

inductive Setting
  | portmask | promiscuous | lookup | config | rxQueueSize | txQueueSize | pktRxBurst
  | pktTxBurst | mbCacheSize | ethDest | numa | ipv6 | maxPktLen | hashEntryNum | parsePtype
  | relaxRxOffload | disableRss | perPortPool | mode | eventqSync | eventEthRxQueues
  | enableVector | vectorSize | vectorTmoNs | ruleIpv4 | ruleIpv6 | alg | other
  deriving DecidableEq

/-- Some options are noted as well when they are given. -/
abbrev Setting.Value : Setting → Type
  | portmask => BitVec 32
  | lookup => Option LookupMode
  | config => List LcoreParams × Bool
  | rxQueueSize | txQueueSize => BitVec 16
  | pktRxBurst | pktTxBurst | mbCacheSize | maxPktLen => BitVec 32
  | ethDest => EthAddrs
  | promiscuous | numa | ipv6 | parsePtype | relaxRxOffload | disableRss | perPortPool => Bool
  | mode | enableVector => Bool
  | eventqSync => SchedType × Bool
  | eventEthRxQueues => BitVec 16 × Bool
  | vectorSize => BitVec 16
  | vectorTmoNs => BitVec 64
  | ruleIpv4 | ruleIpv6 => Option Bytes
  | alg => AclClassifyAlg
  | hashEntryNum | other => Unit

abbrev Settings := ∀ setting : Setting, setting.Value

def Options.ofSettings (settings : Settings) : Options where
  enabledPortMask := settings .portmask
  promiscuousOn := settings .promiscuous
  lookupMode := settings .lookup
  lcoreParams := (settings .config).1
  nbRxd := settings .rxQueueSize
  nbTxd := settings .txQueueSize
  rxBurstSize := settings .pktRxBurst
  txBurstSize := settings .pktTxBurst
  mbMempoolCacheSize := settings .mbCacheSize
  addrs := settings .ethDest
  numaOn := settings .numa
  ipv6 := settings .ipv6
  maxPktLen := settings .maxPktLen
  parsePtype := settings .parsePtype
  relaxRxOffload := settings .relaxRxOffload
  disableRss := settings .disableRss
  perPortPool := settings .perPortPool
  ruleIpv4Name := settings .ruleIpv4
  ruleIpv6Name := settings .ruleIpv6
  alg := settings .alg
  evtRsrc := {
    enabled := settings .mode
    vectorEnabled := settings .enableVector
    schedType := (settings .eventqSync).1
    ethRxQueues := (settings .eventEthRxQueues).1
    vectorSize := settings .vectorSize
    vectorTmoNs := settings .vectorTmoNs }
  lcoreParamsGiven := (settings .config).2
  eventqSched := (settings .eventqSync).2
  ethRxQ := (settings .eventEthRxQueues).2

def Settings.setTo (settings : Settings) (setting : Setting) (value : setting.Value) : Options :=
  .ofSettings (Function.update settings setting value)

def Options.settings (options : Options) : Settings
  | .portmask => options.enabledPortMask
  | .promiscuous => options.promiscuousOn
  | .lookup => options.lookupMode
  | .config => (options.lcoreParams, options.lcoreParamsGiven)
  | .rxQueueSize => options.nbRxd
  | .txQueueSize => options.nbTxd
  | .pktRxBurst => options.rxBurstSize
  | .pktTxBurst => options.txBurstSize
  | .mbCacheSize => options.mbMempoolCacheSize
  | .ethDest => options.addrs
  | .numa => options.numaOn
  | .ipv6 => options.ipv6
  | .maxPktLen => options.maxPktLen
  | .hashEntryNum => ()
  | .parsePtype => options.parsePtype
  | .relaxRxOffload => options.relaxRxOffload
  | .disableRss => options.disableRss
  | .perPortPool => options.perPortPool
  | .mode => options.evtRsrc.enabled
  | .eventqSync => (options.evtRsrc.schedType, options.eventqSched)
  | .eventEthRxQueues => (options.evtRsrc.ethRxQueues, options.ethRxQ)
  | .enableVector => options.evtRsrc.vectorEnabled
  | .vectorSize => options.evtRsrc.vectorSize
  | .vectorTmoNs => options.evtRsrc.vectorTmoNs
  | .ruleIpv4 => options.ruleIpv4Name
  | .ruleIpv6 => options.ruleIpv6Name
  | .alg => options.alg
  | .other => ()

namespace Opt

/-- What an option sets. -/
def setting : Opt → Setting
  | .portmask _ => .portmask
  | .promiscuous => .promiscuous
  | .legacyEm => .lookup
  | .legacyLpm => .lookup
  | .config _ => .config
  | .rxQueueSize _ => .rxQueueSize
  | .txQueueSize _ => .txQueueSize
  | .pktRxBurst _ => .pktRxBurst
  | .pktTxBurst _ => .pktTxBurst
  | .mbCacheSize _ => .mbCacheSize
  | .ethDest _ => .ethDest
  | .noNuma => .numa
  | .ipv6 => .ipv6
  | .maxPktLen _ => .maxPktLen
  | .hashEntryNum _ => .hashEntryNum
  | .parsePtype => .parsePtype
  | .relaxRxOffload => .relaxRxOffload
  | .disableRss => .disableRss
  | .perPortPool => .perPortPool
  | .mode _ => .mode
  | .eventqSync _ => .eventqSync
  | .eventEthRxQueues _ => .eventEthRxQueues
  | .enableVector => .enableVector
  | .vectorSize _ => .vectorSize
  | .vectorTmoNs _ => .vectorTmoNs
  | .lookup _ => .lookup
  | .ruleIpv4 _ => .ruleIpv4
  | .ruleIpv6 _ => .ruleIpv6
  | .alg _ => .alg
  | .other => .other

/-- The mode that an option selects. -/
def lookupMode : Opt → Option LookupMode
  | .legacyEm => some .em
  | .legacyLpm => some .lpm
  | .lookup optarg => parseLookup optarg
  | _ => none

/-- Only one lookup mode is allowed at a time. -/
def select (selected : Option LookupMode) : Option LookupMode → Option (Option LookupMode)
  | none => selected.map some
  | some _ => none

theorem map_select {α : Type} (f : Option LookupMode → α) (selected before : Option LookupMode) :
    (select selected before).map f =
      if before ≠ none then none else selected.map fun mode => f (some mode) := by
  cases before with
  | none => exact Option.map_map f some selected
  | some mode => rfl

/-- What an option makes of its setting. -/
def own (platform : Platform) : (opt : Opt) → opt.setting.Value → Option opt.setting.Value
  | .portmask optarg, _ =>
      if parsePortmask optarg = 0#32 then none else some (parsePortmask optarg)
  | .promiscuous, _ => some true
  | .legacyEm, before => select (some .em) before
  | .legacyLpm, before => select (some .lpm) before
  | .config optarg, _ =>
      (parseConfig platform.rteStrsplit optarg).map fun lcoreParams => (lcoreParams, true)
  | .rxQueueSize optarg, _ => parseQueueSize optarg
  | .txQueueSize optarg, _ => parseQueueSize optarg
  | .pktRxBurst optarg, burstSz => some (parsePktBurst platform optarg true burstSz)
  | .pktTxBurst optarg, burstSz => some (parsePktBurst platform optarg false burstSz)
  | .mbCacheSize optarg, cacheSize => parseMbcacheSize optarg cacheSize
  | .ethDest optarg, addrs =>
      (ethDestOption platform.cmdlineParseEtheraddr addrs optarg).map Prod.snd
  | .noNuma, _ => some false
  | .ipv6, _ => some true
  | .maxPktLen optarg, _ => some (parseMaxPktLen optarg)
  | .hashEntryNum _, _ => some ()
  | .parsePtype, _ => some true
  | .relaxRxOffload, _ => some true
  | .disableRss, _ => some true
  | .perPortPool, _ => some true
  | .mode optarg, enabled => some (parseMode optarg enabled)
  | .eventqSync optarg, schedType => some (parseEventqSched optarg schedType.1, true)
  | .eventEthRxQueues optarg, queues => some (parseEventEthRxQueues optarg queues.1, true)
  | .enableVector, _ => some true
  | .vectorSize optarg, _ => some (BitVec.ofInt 16 (strtol 10 optarg).value)
  | .vectorTmoNs optarg, _ => some (BitVec.ofNat 64 (strtoul 10 optarg).value)
  | .lookup optarg, before => select (parseLookup optarg) before
  | .ruleIpv4 optarg, _ => some (some optarg)
  | .ruleIpv6 optarg, _ => some (some optarg)
  | .alg optarg, _ => some (parseAclAlg optarg)
  | .other, _ => none

end Opt

section

variable (platform : Platform)

theorem parseOpt_ofSettings (settings : Settings) (opt : Opt) :
    parseOpt platform (.ofSettings settings) opt =
      (Parts.step Opt.setting (Opt.own platform) settings opt).map .ofSettings := by
  have lookups := fun selected =>
    Opt.map_select (settings.setTo .lookup) selected (settings .lookup)
  rw [Parts.step, Option.map_map]
  cases opt with
  | portmask optarg =>
      simp only [parseOpt, Opt.own]
      split
      · rfl
      · rfl
  | legacyEm => exact (lookups (some .em)).symm
  | legacyLpm => exact (lookups (some .lpm)).symm
  | lookup optarg => exact (lookups (parseLookup optarg)).symm
  | ethDest optarg => exact (Option.map_map (settings.setTo .ethDest) Prod.snd _).symm
  | config optarg => exact (Option.map_map (settings.setTo .config) (fun params => (params, true)) _).symm
  | _ => rfl

theorem parseOpts_ofSettings (line : List Opt) (settings : Settings) :
    line.foldlM (parseOpt platform) (.ofSettings settings) =
      (line.foldlM (Parts.step Opt.setting (Opt.own platform)) settings).map .ofSettings :=
  Parts.run_map _ _ (parseOpt_ofSettings platform) line settings

/-- What the options of a command line make of one setting. -/
abbrev runSetting (setting : Setting) (line : List Opt) (value : setting.Value) :
    Option setting.Value :=
  line.foldlM (Parts.stepAt Opt.setting (Opt.own platform) setting) value

theorem parseOpts_eq_some {line : List Opt} {options after : Options} :
    line.foldlM (parseOpt platform) options = some after ↔
      ∀ setting, runSetting platform setting line (options.settings setting) =
        some (after.settings setting) := by
  have parts := parseOpts_ofSettings platform line options.settings
  constructor
  · intro parsed
    rw [show Options.ofSettings options.settings = options from rfl, parsed] at parts
    rcases Option.map_eq_some_iff.mp parts.symm with ⟨settings, run, rfl⟩
    intro setting
    have own := (Parts.run_eq_some _ _).mp run setting
    cases setting with
    | _ => exact own
  · intro own
    rw [show Options.ofSettings options.settings = options from rfl,
      (Parts.run_eq_some _ _).mpr own] at parts
    exact parts

end

/-! ## The order of the options -/

/-- Options for different settings may be given in any order. -/
theorem parseArgs_order (platform : Platform) {line line' : List Opt}
    (same : ∀ setting, (line.filter fun opt => opt.setting = setting) =
      line'.filter fun opt => opt.setting = setting) :
    parseArgs platform line = parseArgs platform line' := by
  have runs : line.foldlM (parseOpt platform) .initial =
      line'.foldlM (parseOpt platform) .initial := by
    rw [show Options.initial = .ofSettings Options.initial.settings from rfl,
      parseOpts_ofSettings, parseOpts_ofSettings,
      Parts.run_congr Opt.setting (Opt.own platform) same]
  rw [parseArgs, parseArgs, runs]

/-- A platform without Ethernet addresses, and with a device that recommends no burst. -/
def plainPlatform : Platform where
  rteStrsplit := fun s count delim => splitTokens delim count s
  cmdlineParseEtheraddr := fun _ => none
  defaultRxBurstSize := none

/-- `-p 3 --config (0,0,2),(1,0,2) --rx-burst 64 --lookup em` -/
def emCommandLine : List Opt :=
  [.portmask (ascii "3"), .config (ascii "(0,0,2),(1,0,2)"), .pktRxBurst (ascii "64"),
    .lookup (ascii "em")]

theorem parseArgs_order_em :
    parseArgs plainPlatform emCommandLine = parseArgs plainPlatform emCommandLine.reverse := by
  apply parseArgs_order
  intro setting
  cases setting with
  | _ => rfl

/-! ## Options that are accepted -/

/-- An option that is accepted, where it selects a lookup mode as long as none is selected. -/
def Opt.Fine (platform : Platform) : Opt → Prop
  | .portmask optarg => ∃ value, signedNumeral 16 optarg = some value ∧ PassesForMask value
  | .config optarg => (parseConfig platform.rteStrsplit optarg).isSome
  | .rxQueueSize optarg | .txQueueSize optarg =>
      ∃ value, signedNumeral 10 optarg = some value ∧ 0 < ulongOf value ∧ ulongOf value ≤ 0xffff
  | .mbCacheSize optarg =>
      ∀ value, signedNumeral 10 optarg = some value → ulongOf value ≤ mempoolCacheSize
  | .ethDest optarg => ∃ numeral address value,
      cutAt L2fwd.comma optarg = some (numeral, address) ∧
        signedNumeral 10 numeral = some value ∧ PassesForPort value ∧
        (platform.cmdlineParseEtheraddr address).isSome
  | .lookup optarg => optarg ∈ [ascii "em", ascii "lpm", ascii "fib", ascii "acl"]
  | .other => False
  | _ => True

section

variable (platform : Platform)

theorem parseQueueSize_isSome {optarg : Bytes} :
    (parseQueueSize optarg).isSome ↔ ∃ value, signedNumeral 10 optarg = some value ∧
      0 < ulongOf value ∧ ulongOf value ≤ 0xffff := by
  rw [parseQueueSize, wholeUlong_eq]
  cases numeral : signedNumeral 10 optarg with
  | none => simp
  | some value =>
      simp only [Option.map_some, Option.some.injEq, exists_eq_left']
      split
      · rename_i zero
        simp [zero]
      · split
        · simp
          omega
        · simp
          omega

theorem parseMbcacheSize_isSome {optarg : Bytes} {before : BitVec 32} :
    (parseMbcacheSize optarg before).isSome ↔
      ∀ value, signedNumeral 10 optarg = some value → ulongOf value ≤ mempoolCacheSize := by
  rw [parseMbcacheSize, wholeUlong_eq]
  cases numeral : signedNumeral 10 optarg with
  | none => simp
  | some value => simp

theorem parseLookup_isSome {optarg : Bytes} :
    (parseLookup optarg).isSome ↔
      optarg ∈ [ascii "em", ascii "lpm", ascii "fib", ascii "acl"] := by
  simp only [parseLookup, List.mem_cons, List.not_mem_nil, or_false]
  split
  · simp [*]
  · split
    · simp [*]
    · split
      · simp [*]
      · split
        · simp [*]
        · simp [*]

theorem parsePortmask_isFine {optarg : Bytes} :
    parsePortmask optarg ≠ 0#32 ↔
      ∃ value, signedNumeral 16 optarg = some value ∧ PassesForMask value := by
  cases numeral : signedNumeral 16 optarg with
  | none => simp [parsePortmask, parseHexMask, wholeUlong_eq, numeral]
  | some value =>
      simp only [Option.some.injEq, exists_eq_left']
      exact parseHexMask_ne_zero_iff numeral

theorem ethDestOption_isSome {cmdlineParseEtheraddr : Bytes → Option (BitVec 48)}
    {addrs : EthAddrs} {optarg : Bytes} :
    (ethDestOption cmdlineParseEtheraddr addrs optarg).isSome ↔
      ∃ numeral address value, cutAt L2fwd.comma optarg = some (numeral, address) ∧
        signedNumeral 10 numeral = some value ∧ PassesForPort value ∧
        (cmdlineParseEtheraddr address).isSome := by
  rw [Option.isSome_iff_exists]
  constructor
  · rintro ⟨⟨portid, after⟩, stored⟩
    rcases ethDestOption_some.mp stored with ⟨dest, read, isPort, _⟩
    rcases readEthDest_some.mp read with
      ⟨numeral, address, value, cut, isNumeral, inRange, parsed, port⟩
    refine ⟨numeral, address, value, cut, isNumeral, ?_, Option.isSome_of_mem parsed⟩
    rw [passesForPort_iff inRange, ← port]
    unfold parseEthDest at isPort
    by_contra large
    simp [Nat.le_of_not_lt large] at isPort
  · rintro ⟨numeral, address, value, cut, isNumeral, passes, parsed⟩
    rcases Option.isSome_iff_exists.mp parsed with ⟨peerAddr, isAddress⟩
    let dest : EthDest := ⟨BitVec.ofNat 16 (ulongOf value), peerAddr⟩
    have read : readEthDest cmdlineParseEtheraddr optarg = some dest :=
      readEthDest_some.mpr ⟨numeral, address, value, cut, isNumeral, passes.1, isAddress, rfl⟩
    have inArray : ¬ rteMaxEthports ≤ dest.portid.toNat :=
      Nat.not_le.mpr ((passesForPort_iff passes.1).mp passes)
    have isPort : parseEthDest addrs dest = some (addrs.setDest dest.portid.toNat
        (copyPeerAddr (addrs.destEthAddr dest.portid.toNat) peerAddr)) := by
      rw [parseEthDest, if_neg inArray]
    exact ⟨_, ethDestOption_some.mpr ⟨dest, read, isPort, rfl⟩⟩

theorem own_isSome (opt : Opt) (other : opt.setting ≠ .lookup) (value : opt.setting.Value) :
    (opt.own platform value).isSome ↔ opt.Fine platform := by
  cases opt with
  | portmask optarg =>
      have accepted : (if parsePortmask optarg = 0#32 then none
          else some (parsePortmask optarg)).isSome ↔ parsePortmask optarg ≠ 0#32 := by
        split
        · simp [*]
        · simp [*]
      exact accepted.trans parsePortmask_isFine
  | config optarg => exact Bool.eq_iff_iff.mp Option.isSome_map
  | rxQueueSize optarg => exact parseQueueSize_isSome
  | txQueueSize optarg => exact parseQueueSize_isSome
  | mbCacheSize optarg => exact parseMbcacheSize_isSome
  | ethDest optarg => exact (Bool.eq_iff_iff.mp Option.isSome_map).trans ethDestOption_isSome
  | legacyEm => exact absurd rfl other
  | legacyLpm => exact absurd rfl other
  | lookup optarg => exact absurd rfl other
  | other => exact iff_of_false Bool.false_ne_true id
  | _ => exact iff_of_true rfl trivial

theorem stepAt_isSome {setting : Setting} (other : setting ≠ .lookup) (opt : Opt)
    (value : setting.Value) :
    (Parts.stepAt Opt.setting (Opt.own platform) setting value opt).isSome ↔
      (opt.setting = setting → opt.Fine platform) := by
  by_cases same : opt.setting = setting
  · subst same
    rw [Parts.stepAt_own, own_isSome platform opt other]
    simp
  · rw [Parts.stepAt_other _ _ same]
    simp [same]

/-- An option for the lookup mode selects one. -/
theorem stepAt_lookup {opt : Opt} (isLookup : opt.setting = .lookup)
    (before : Option LookupMode) :
    ∃ selected, Parts.stepAt Opt.setting (Opt.own platform) .lookup before opt =
        Opt.select selected before ∧ (selected.isSome ↔ opt.Fine platform) := by
  cases opt with
  | legacyEm => exact ⟨some .em, rfl, by simp [Opt.Fine]⟩
  | legacyLpm => exact ⟨some .lpm, rfl, by simp [Opt.Fine]⟩
  | lookup optarg => exact ⟨parseLookup optarg, rfl, parseLookup_isSome⟩
  | _ => nomatch isLookup

theorem runLookup_isSome : ∀ (line : List Opt) (before : Option LookupMode),
    (runSetting platform .lookup line before).isSome ↔
      (∀ opt ∈ line, opt.setting = .lookup → opt.Fine platform) ∧
        (line.countP fun opt => opt.setting = .lookup) ≤ if before = none then 1 else 0
  | [], before => by simp
  | opt :: line, before => by
      rw [runSetting, List.foldlM_cons, List.forall_mem_cons]
      by_cases isLookup : opt.setting = .lookup
      · rcases stepAt_lookup platform isLookup before with ⟨selected, stepped, isFine⟩
        rw [List.countP_cons_of_pos (by simp [isLookup]), stepped, ← isFine]
        cases before with
        | some mode => simp [Opt.select]
        | none =>
            cases selected with
            | none => simp [Opt.select, isLookup]
            | some mode =>
                simpa [Opt.select] using runLookup_isSome line (some mode)
      · rw [List.countP_cons_of_neg (by simp [isLookup]), Parts.stepAt_other _ _ isLookup]
        simpa [isLookup] using runLookup_isSome line before

end

/-! ## The transfer mode -/

/-- The transfer mode that an option names: whether it is the event mode. -/
def Opt.eventdev : Opt → Option Bool
  | .mode optarg =>
      if optarg = ascii "poll" then some false
      else if optarg = ascii "eventdev" then some true
      else none
  | _ => none

/-- The last transfer mode that is named is the event mode. -/
def EventMode (line : List Opt) : Prop :=
  (line.filterMap Opt.eventdev).getLast? = some true

theorem stepAt_mode (platform : Platform) (opt : Opt) (enabled : Bool) :
    Parts.stepAt Opt.setting (Opt.own platform) .mode enabled opt =
      some (opt.eventdev.getD enabled) := by
  cases opt with
  | mode optarg =>
      rw [show Parts.stepAt Opt.setting (Opt.own platform) .mode enabled (.mode optarg) =
        some (parseMode optarg enabled) from rfl, parseMode, Opt.eventdev]
      split
      · rfl
      · split
        · rfl
        · rfl
  | _ => rfl

theorem runMode_eq (platform : Platform) : ∀ (line : List Opt) (enabled : Bool),
    runSetting platform .mode line enabled =
      some ((line.filterMap Opt.eventdev).getLast?.getD enabled)
  | [], enabled => rfl
  | opt :: line, enabled => by
      rw [runSetting, List.foldlM_cons, stepAt_mode]
      apply (runMode_eq platform line _).trans
      cases named : opt.eventdev with
      | none => rw [List.filterMap_cons_none named, Option.getD_none]
      | some mode =>
          rw [List.filterMap_cons_some named, List.getLast?_cons, Option.getD_some,
            Option.getD_some]

section

variable {platform : Platform} {line : List Opt}

theorem parseOpts_isSome :
    (line.foldlM (parseOpt platform) .initial).isSome ↔
      (∀ opt ∈ line, opt.Fine platform) ∧
        (line.countP fun opt => opt.setting = .lookup) ≤ 1 := by
  rw [show Options.initial = .ofSettings Options.initial.settings from rfl,
    parseOpts_ofSettings, Option.isSome_map, Parts.run_isSome]
  have others : ∀ setting, setting ≠ .lookup →
      ((runSetting platform setting line (Options.initial.settings setting)).isSome ↔
        ∀ opt ∈ line, opt.setting = setting → opt.Fine platform) := by
    intro setting other
    exact Parts.runAt_isSome (stepAt_isSome platform other)
  have lookups := runLookup_isSome platform line none
  rw [if_pos rfl] at lookups
  constructor
  · intro runs
    rcases lookups.mp (runs .lookup) with ⟨fine, once⟩
    refine ⟨?_, once⟩
    intro opt member
    by_cases isLookup : opt.setting = .lookup
    · exact fine opt member isLookup
    · exact (others opt.setting isLookup).mp (runs opt.setting) opt member rfl
  · rintro ⟨fine, once⟩ setting
    by_cases isLookup : setting = .lookup
    · subst isLookup
      exact lookups.mpr ⟨fun opt member _ => fine opt member, once⟩
    · exact (others setting isLookup).mpr fun opt member _ => fine opt member

/-- What is known about the options behind the last one. -/
structure Noted (line : List Opt) (options : Options) : Prop where
  enabled : options.evtRsrc.enabled = true ↔ EventMode line
  lcoreParamsGiven : options.lcoreParamsGiven = true ↔ ∃ opt ∈ line, opt.setting = .config
  eventqSched : options.eventqSched = true ↔ ∃ opt ∈ line, opt.setting = .eventqSync
  ethRxQ : options.ethRxQ = true ↔ ∃ opt ∈ line, opt.setting = .eventEthRxQueues

/-- A setting that is noted when it is set. -/
theorem runSetting_noted (setting : Setting) (mark : setting.Value → Bool)
    (marks : ∀ opt value next, opt.setting = setting →
      Parts.stepAt Opt.setting (Opt.own platform) setting value opt = some next →
        mark next = true)
    {options : Options} (parsed : line.foldlM (parseOpt platform) .initial = some options)
    (unmarked : mark (Options.initial.settings setting) = false) :
    mark (options.settings setting) = true ↔ ∃ opt ∈ line, opt.setting = setting := by
  have run := (parseOpts_eq_some platform).mp parsed setting
  rw [Parts.runAt_marks marks run, unmarked, Bool.false_or, List.any_eq_true]
  simp

theorem parseOpts_noted {options : Options}
    (parsed : line.foldlM (parseOpt platform) .initial = some options) : Noted line options := by
  constructor
  · have mode := (parseOpts_eq_some platform).mp parsed .mode
    rw [runMode_eq] at mode
    rw [show options.evtRsrc.enabled = options.settings .mode from rfl, ← Option.some.inj mode,
      EventMode]
    cases (line.filterMap Opt.eventdev).getLast? with
    | none => simp [Options.settings, Options.initial, l3fwdGetEventdevRsrc]
    | some last => simp
  · refine runSetting_noted .config Prod.snd ?_ parsed rfl
    intro opt value next isConfig stepped
    cases opt with
    | config optarg =>
        rcases Option.map_eq_some_iff.mp stepped with ⟨lcoreParams, _, rfl⟩
        rfl
    | _ => nomatch isConfig
  · refine runSetting_noted .eventqSync Prod.snd ?_ parsed rfl
    intro opt value next isSched stepped
    cases opt with
    | eventqSync optarg => exact congrArg Prod.snd (Option.some.inj stepped).symm
    | _ => nomatch isSched
  · refine runSetting_noted .eventEthRxQueues Prod.snd ?_ parsed rfl
    intro opt value next isQueues stepped
    cases opt with
    | eventEthRxQueues optarg => exact congrArg Prod.snd (Option.some.inj stepped).symm
    | _ => nomatch isQueues

theorem checkOptions_isSome {options : Options} :
    (checkOptions options).isSome ↔
      (options.evtRsrc.enabled = true → ¬ options.lcoreParamsGiven = true) ∧
      (¬ options.evtRsrc.enabled = true →
        ¬ options.ethRxQ = true ∧ ¬ options.eventqSched = true) := by
  unfold checkOptions
  cases options.evtRsrc.enabled
  · cases options.ethRxQ
    · cases options.eventqSched
      · simp
      · simp
    · simp
  · cases options.lcoreParamsGiven
    · simp
    · simp

end

/-- A command line is accepted exactly if each of its options is fine by itself, at most one
selects a lookup mode, and none is for the other transfer mode than the last one that is
named. -/
theorem parseArgs_isSome_iff (platform : Platform) (line : List Opt) :
    (parseArgs platform line).isSome ↔
      (∀ opt ∈ line, opt.Fine platform) ∧
      (line.countP fun opt => opt.setting = .lookup) ≤ 1 ∧
      (EventMode line → ∀ opt ∈ line, opt.setting ≠ .config) ∧
      (¬ EventMode line → ∀ opt ∈ line,
        opt.setting ≠ .eventEthRxQueues ∧ opt.setting ≠ .eventqSync) := by
  rw [← and_assoc, ← parseOpts_isSome, parseArgs]
  cases parsed : line.foldlM (parseOpt platform) .initial with
  | none => simp
  | some options =>
      have noted := parseOpts_noted parsed
      simp only [Option.bind_eq_bind, Option.bind_some, Option.isSome_some, true_and]
      rw [checkOptions_isSome, noted.enabled, noted.lcoreParamsGiven, noted.ethRxQ,
        noted.eventqSched]
      simp only [not_exists, not_and, forall_and]

/-! ## What an accepted command line sets -/

/-- A number of packets that fits into a burst. -/
abbrev IsBurst (burst : BitVec 32) : Prop :=
  0 < burst.toNat ∧ burst.toNat ≤ maxPktBurst

/-- What holds of a setting before and behind each option. -/
def Setting.Good : (setting : Setting) → setting.Value → Prop
  | .pktRxBurst, burst => IsBurst burst
  | .pktTxBurst, burst => IsBurst burst
  | .rxQueueSize, size => size ≠ 0#16
  | .txQueueSize, size => size ≠ 0#16
  | .mbCacheSize, size => size.toNat ≤ mempoolCacheSize
  | .config, (params, given) =>
      params.length ≤ maxLcoreParams ∧ (given = false → params = lcoreParamsArrayDefault)
  | .eventqSync, (schedType, given) => given = false → schedType = .atomic
  | .eventEthRxQueues, (queues, given) => queues ≠ 0#16 ∧ (given = false → queues = 1#16)
  | _, _ => True

/-- The settings of a command line that is accepted. -/
structure Options.Sound (options : Options) : Prop where
  rxBurst : IsBurst options.rxBurstSize
  txBurst : IsBurst options.txBurstSize
  rxQueueSize : options.nbRxd ≠ 0#16
  txQueueSize : options.nbTxd ≠ 0#16
  cacheSize : options.mbMempoolCacheSize.toNat ≤ mempoolCacheSize
  lcoreParams : options.lcoreParams.length ≤ maxLcoreParams
  lookupMode : options.lookupMode ≠ none
  ethRxQueues : options.evtRsrc.ethRxQueues ≠ 0#16
  vectors : options.evtRsrc.vectorEnabled = true →
    options.evtRsrc.vectorSize ≠ 0#16 ∧ options.evtRsrc.vectorTmoNs ≠ 0#64
  events : options.evtRsrc.enabled = true → options.lcoreParams = lcoreParamsArrayDefault
  polls : options.evtRsrc.enabled = false →
    options.evtRsrc.schedType = .atomic ∧ options.evtRsrc.ethRxQueues = 1#16

section

variable {platform : Platform}

theorem parsePktBurst_isBurst (optarg : Bytes) (isRxBurst : Bool) {before : BitVec 32}
    (isBurst : IsBurst before) : IsBurst (parsePktBurst platform optarg isRxBurst before) := by
  unfold parsePktBurst
  cases wholeUlong 10 optarg with
  | none => exact isBurst
  | some pktBurst =>
      dsimp only
      split
      · exact isBurst
      · rename_i small
        have fits : pktBurst % 2 ^ 32 = pktBurst := by
          unfold maxPktBurst at small
          omega
        split
        · rename_i positive
          rw [IsBurst, BitVec.toNat_ofNat, fits]
          exact ⟨positive, Nat.le_of_not_lt small⟩
        · split
          · cases platform.defaultRxBurstSize with
            | none => exact isBurst
            | some burstSize =>
                dsimp only
                split
                · exact isBurst
                · rename_i nonzero
                  split
                  · exact isBurst
                  · rename_i recommended
                    rw [IsBurst, BitVec.toNat_setWidth_of_le (by decide)]
                    exact ⟨Nat.pos_of_ne_zero fun zero => nonzero (BitVec.eq_of_toNat_eq zero),
                      Nat.le_of_not_lt recommended⟩
          · exact isBurst

theorem parseQueueSize_ne_zero {optarg : Bytes} {size : BitVec 16}
    (parsed : parseQueueSize optarg = some size) : size ≠ 0#16 := by
  unfold parseQueueSize at parsed
  cases number : wholeUlong 10 optarg with
  | none => simp [number] at parsed
  | some value =>
      rw [number] at parsed
      dsimp only at parsed
      split at parsed
      · exact nomatch parsed
      · split at parsed
        · exact nomatch parsed
        · cases parsed
          intro zero
          have isZero := congrArg BitVec.toNat zero
          rw [BitVec.toNat_ofNat] at isZero
          simp at isZero
          omega

theorem parseMbcacheSize_le {optarg : Bytes} {before after : BitVec 32}
    (parsed : parseMbcacheSize optarg before = some after)
    (within : before.toNat ≤ mempoolCacheSize) : after.toNat ≤ mempoolCacheSize := by
  unfold parseMbcacheSize at parsed
  cases number : wholeUlong 10 optarg with
  | none =>
      rw [number] at parsed
      exact Option.some.inj parsed ▸ within
  | some value =>
      rw [number] at parsed
      dsimp only at parsed
      split at parsed
      · rename_i small
        cases parsed
        rw [BitVec.toNat_ofNat]
        exact Nat.le_trans (Nat.mod_le _ _) small
      · exact nomatch parsed

theorem parseEventEthRxQueues_ne_zero (optarg : Bytes) {before : BitVec 16}
    (nonzero : before ≠ 0#16) : parseEventEthRxQueues optarg before ≠ 0#16 := by
  unfold parseEventEthRxQueues
  cases wholeUlong 10 optarg with
  | none => exact nonzero
  | some value =>
      dsimp only
      split
      · exact nonzero
      · assumption

/-- Every option keeps its setting good. -/
theorem stepAt_good {setting : Setting} (opt : Opt) (value next : setting.Value)
    (stepped : Parts.stepAt Opt.setting (Opt.own platform) setting value opt = some next)
    (good : setting.Good value) : setting.Good next := by
  by_cases same : opt.setting = setting
  · subst same
    rw [Parts.stepAt_own] at stepped
    cases opt with
    | pktRxBurst optarg =>
        exact Option.some.inj stepped ▸ parsePktBurst_isBurst optarg true good
    | pktTxBurst optarg =>
        exact Option.some.inj stepped ▸ parsePktBurst_isBurst optarg false good
    | rxQueueSize optarg => exact parseQueueSize_ne_zero stepped
    | txQueueSize optarg => exact parseQueueSize_ne_zero stepped
    | mbCacheSize optarg => exact parseMbcacheSize_le stepped good
    | config optarg =>
        rcases Option.map_eq_some_iff.mp stepped with ⟨params, parsed, rfl⟩
        rcases parseConfig_some.mp parsed with ⟨_, _, _, within⟩
        exact ⟨within, nofun⟩
    | eventqSync optarg =>
        exact Option.some.inj stepped ▸ nofun
    | eventEthRxQueues optarg =>
        exact Option.some.inj stepped ▸
          ⟨parseEventEthRxQueues_ne_zero optarg good.1, nofun⟩
    | _ => trivial
  · rw [Parts.stepAt_other _ _ same] at stepped
    exact Option.some.inj stepped ▸ good

theorem initial_good (setting : Setting) : setting.Good (Options.initial.settings setting) := by
  cases setting with
  | pktRxBurst => exact ⟨by decide, by decide⟩
  | pktTxBurst => exact ⟨by decide, by decide⟩
  | rxQueueSize => exact (by decide : (1024#16 : BitVec 16) ≠ 0#16)
  | txQueueSize => exact (by decide : (1024#16 : BitVec 16) ≠ 0#16)
  | mbCacheSize => exact Nat.le_refl mempoolCacheSize
  | config => exact ⟨by decide, fun _ => rfl⟩
  | eventqSync => exact fun _ => rfl
  | eventEthRxQueues => exact ⟨by decide, fun _ => rfl⟩
  | _ => trivial

theorem parseOpts_good {line : List Opt} {options : Options}
    (parsed : line.foldlM (parseOpt platform) .initial = some options) (setting : Setting) :
    setting.Good (options.settings setting) :=
  Parts.runAt_keeps stepAt_good ((parseOpts_eq_some platform).mp parsed setting)
    (initial_good setting)

theorem withVectorDefaults_set (evtRsrc : EventOptions)
    (vectors : evtRsrc.vectorEnabled = true) :
    evtRsrc.withVectorDefaults.vectorSize ≠ 0#16 ∧
      evtRsrc.withVectorDefaults.vectorTmoNs ≠ 0#64 := by
  unfold EventOptions.withVectorDefaults
  dsimp only
  constructor
  · split
    · decide
    · rename_i unset
      exact fun zero => unset ⟨vectors, zero⟩
  · split
    · decide
    · rename_i unset
      exact fun zero => unset ⟨vectors, zero⟩

theorem checkOptions_eq_some {options after : Options} (checked : checkOptions options = some after) :
    (options.evtRsrc.enabled = true → options.lcoreParamsGiven = false) ∧
    (options.evtRsrc.enabled = false → options.eventqSched = false ∧ options.ethRxQ = false) ∧
    after = { options with
      evtRsrc := options.evtRsrc.withVectorDefaults
      lookupMode := some (options.lookupMode.getD .lpm) } := by
  unfold checkOptions at checked
  split at checked
  · exact nomatch checked
  · rename_i noConfig
    split at checked
    · exact nomatch checked
    · rename_i noQueues
      split at checked
      · exact nomatch checked
      · rename_i noSched
        refine ⟨?_, ?_, (Option.some.inj checked).symm⟩
        · intro enabled
          exact Bool.eq_false_iff.mpr fun given => noConfig ⟨enabled, given⟩
        · intro disabled
          exact ⟨Bool.eq_false_iff.mpr fun given => noSched ⟨disabled, given⟩,
            Bool.eq_false_iff.mpr fun given => noQueues ⟨disabled, given⟩⟩

theorem checkOptions_sound {line : List Opt} {before options : Options}
    (run : line.foldlM (parseOpt platform) .initial = some before)
    (checked : checkOptions before = some options) : options.Sound := by
  have good := parseOpts_good run
  rcases checkOptions_eq_some checked with ⟨withEvents, withPolls, rfl⟩
  exact {
    rxBurst := good .pktRxBurst
    txBurst := good .pktTxBurst
    rxQueueSize := good .rxQueueSize
    txQueueSize := good .txQueueSize
    cacheSize := good .mbCacheSize
    lcoreParams := (good .config).1
    lookupMode := Option.some_ne_none _
    ethRxQueues := (good .eventEthRxQueues).1
    vectors := withVectorDefaults_set before.evtRsrc
    events := fun enabled => (good .config).2 (withEvents enabled)
    polls := fun disabled => ⟨(good .eventqSync) (withPolls disabled).1,
      (good .eventEthRxQueues).2 (withPolls disabled).2⟩ }

/-- Whatever is on a command line that is accepted, bursts are of one packet at least and of no
more than fit, and what is not allowed in a transfer mode has its default value. -/
theorem parseArgs_sound {line : List Opt} {options : Options}
    (parsed : parseArgs platform line = some options) : options.Sound := by
  rcases Option.bind_eq_some_iff.mp parsed with ⟨before, run, checked⟩
  exact checkOptions_sound run checked

end

theorem parseArgs_sound_em :
    ∃ options, parseArgs plainPlatform emCommandLine = some options ∧ options.Sound := by
  have accepted : (parseArgs plainPlatform emCommandLine).isSome = true := by
    decide +kernel
  rcases Option.isSome_iff_exists.mp accepted with ⟨options, parsed⟩
  exact ⟨options, parsed, parseArgs_sound parsed⟩

end PacketForwarding.L3fwd
