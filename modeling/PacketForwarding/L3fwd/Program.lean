import PacketForwarding.L3fwd.AclLoop
import PacketForwarding.L3fwd.CommandLine
import PacketForwarding.L3fwd.EmLoop
import PacketForwarding.L3fwd.EthRewrite
import PacketForwarding.L3fwd.FibLoop
import PacketForwarding.L3fwd.LpmClock

/-! # From the command line to the ports

The options choose the lookup mode, and with it the loop that the lcores run. Whatever they
are, once the program has set up its ports it conveys what the lcores receive.
-/

namespace PacketForwarding.L3fwd

open CString

/-! ## The program up to its main loops -/

/-- The mode whose functions are in `l3fwd_lkp`. -/
def setupL3fwdLookupTables (options : Options) : LookupMode :=
  match options.lookupMode with
  | some .em => .em
  | some .fib => .fib
  | some .acl => .acl
  | _ => .lpm

/-- `main` until it launches the lcores, without event mode. -/
def startPolling (platform : Platform) (eal : Eal) (line : List Opt) :
    Option (Options × SetupState) := do
  let options ← parseArgs platform line
  guard (options.evtRsrc.enabled = false)
  let setup ← l3fwdPollResourceSetup eal options.lcoreParams options.enabledPortMask options.addrs
  return (options, setup)

/-- What an lcore reads of the options and of the addresses of the ports. -/
def Options.lcoreEnv (options : Options) (addrs : EthAddrs) (env : Env) : Env :=
  { env.withAddrs addrs with
    rxBurstSize := options.rxBurstSize.toNat
    txBurstSize := options.txBurstSize.toNat
    enabledPortMask := options.enabledPortMask }

/-! ## The main loops -/

/-- The tables of a lookup mode, as they are set up for the ports of a mask. -/
inductive LookupTables (φ ψ : Type) [Inhabited φ] [Inhabited ψ] (eal : Eal)
    (mask : BitVec 32) : LookupMode → Type
  | em (build : EmBuild) (tables : EmTables) (lawful4 : tables.ipv4.Lawful)
      (lawful6 : tables.ipv6.Lawful) : LookupTables φ ψ eal mask .em
  | lpm (build : Build) (lib : RteLpm) (lawful : lib.Lawful) (routes rules : LpmRoutes)
      (setUp : setupLpm eal mask lib routes = some rules) : LookupTables φ ψ eal mask .lpm
  | fib (build : Build) (lib : RteFib) (lawful : lib.Lawful) (routes rules : LpmRoutes)
      (setUp : setupFib eal mask lib routes = some rules) (search : FibSearch) :
      LookupTables φ ψ eal mask .fib
  | acl (build : Build) (ipv4 : AclContext φ mask) (ipv6 : AclContext ψ mask)
      (below4 : ipv4.ForwardsBelow 32) (below6 : ipv6.ForwardsBelow 32)
      (aclSearch : AclSearch) : LookupTables φ ψ eal mask .acl

namespace LookupTables

variable {φ ψ : Type} [Inhabited φ] [Inhabited ψ] {eal : Eal} {mask : BitVec 32}
  {mode : LookupMode}

/-- The loop that is launched on every lcore, with the clock as it is read one time after the
other. -/
def mainLoop (tables : LookupTables φ ψ eal mask mode) (env : Env) (tscHz tsc : BitVec 64)
    (state : LcoreState) (rounds : List PollRound) : Except Fault LcoreState :=
  match tables with
  | em build tables _ _ => (emMainLoop build env tables tscHz tsc state rounds).map Poll.state
  | lpm build lib _ _ rules _ =>
      (lpmClockLoop build env (lib.tables rules) tscHz tsc state rounds).map MainLoop.state
  | fib build lib _ _ rules _ search =>
      (fibMainLoop build env (lib.tables rules) search tscHz tsc state rounds).map Poll.state
  | acl build ipv4 ipv6 _ _ aclSearch =>
      (aclMainLoop build env (aclTables ipv4 ipv6) aclSearch tscHz state
        (pollHeads tsc rounds)).map Poll.state

/-- The time of the last drain to begin with. -/
def prevTsc (tables : LookupTables φ ψ eal mask mode) (tsc : BitVec 64) : BitVec 64 :=
  match tables with
  | acl .. => 0#64
  | _ => tsc

/-- The port that each packet of a burst is for. -/
def dstPort (tables : LookupTables φ ψ eal mask mode) (env : Env) : BurstPorts :=
  match tables with
  | em build tables _ _ => emDstPort build env tables
  | lpm build lib _ _ rules _ => lpmDstPort build env (lib.tables rules)
  | fib build lib _ _ rules _ _ => fibDstPort build env (lib.tables rules)
  | acl _ ipv4 ipv6 _ _ _ => aclDstPort env (aclTables ipv4 ipv6)

/-- What a loop asks of its bursts. -/
def Fine (tables : LookupTables φ ψ eal mask mode) (env : Env) (burst : RxBurst) : Prop :=
  match tables with
  | em build .. => build.Fine env burst
  | lpm build .. => LpmFine build burst
  | fib build .. => FibFine build burst
  | acl build ipv4 ipv6 .. => AclFine build env (aclTables ipv4 ipv6) burst

end LookupTables

/-! ## What the program does -/

theorem Conveyed.mono {allowed allowed' : BitVec 16 → Prop} {dstPort : BurstPorts}
    {start state : LcoreState} {period tsc : BitVec 64} {heads : List PollHead}
    (conveyed : Conveyed allowed dstPort start period tsc heads state)
    (weaker : ∀ port, allowed port → allowed' port) :
    Conveyed allowed' dstPort start period tsc heads state where
  custody := conveyed.custody
  inOrder := conveyed.inOrder
  onlyAllowed := by
    intro port used
    rcases conveyed.onlyAllowed port used with ⟨other, isAllowed, same⟩
    exact ⟨other, weaker other isAllowed, same⟩
  inTime := conveyed.inTime

theorem startPolling_cases {platform : Platform} {eal : Eal} {line : List Opt}
    {options : Options} {setup : SetupState}
    (started : startPolling platform eal line = some (options, setup)) :
    options.Sound ∧ l3fwdPollResourceSetup eal options.lcoreParams options.enabledPortMask
      options.addrs = some setup := by
  rcases Option.bind_eq_some_iff.mp started with ⟨parsed, isParsed, rest⟩
  rcases Option.bind_eq_some_iff.mp rest with ⟨_, _, rest⟩
  rcases Option.bind_eq_some_iff.mp rest with ⟨state, setUp, returned⟩
  rcases Prod.mk.inj (Option.some.inj returned) with ⟨rfl, rfl⟩
  rcases Option.bind_eq_some_iff.mp isParsed with ⟨before, run, checked⟩
  exact ⟨checkOptions_sound run checked, setUp⟩

end PacketForwarding.L3fwd
