import PacketForwarding.Foundation.Lanes
import PacketForwarding.Foundation.Threads
import PacketForwarding.L2fwd.LcoreMap

/-! # The loops of the lcores

Every lcore polls its ports and forwards what it gets to their destinations. All lcores
share the transmit buffers and the statistics and take no locks. A step of an lcore is one
access to what they share, so that a counter is read in one step and written in another.
-/

namespace PacketForwarding.L2fwd

open CString Lanes

def maxPktBurst : Nat := 32

/-! ## What is shared -/

structure RteMbuf where
  data : Nat → BitVec 8

/-- `struct l2fwd_port_statistics` -/
structure PortStatistics where
  tx : BitVec 64
  rx : BitVec 64
  dropped : BitVec 64

structure Memory where
  txBuffer : Nat → List RteMbuf
  portStatistics : Nat → PortStatistics

/-- The parts of the memory that are written for themselves. -/
inductive Location
  | txBuffer (port : Nat)
  | tx (port : Nat)
  | rx (port : Nat)
  | dropped (port : Nat)
  deriving DecidableEq

/-- The counters that the loops add to. -/
inductive Counter
  | tx (port : Nat)
  | rx (port : Nat)
  deriving DecidableEq

def Counter.location : Counter → Location
  | tx port => .tx port
  | rx port => .rx port

namespace Memory

def read (memory : Memory) : Counter → BitVec 64
  | .tx port => (memory.portStatistics port).tx
  | .rx port => (memory.portStatistics port).rx

def write (memory : Memory) (counter : Counter) (value : BitVec 64) : Memory :=
  match counter with
  | .tx port =>
      let statistics := { memory.portStatistics port with tx := value }
      { memory with portStatistics := Function.update memory.portStatistics port statistics }
  | .rx port =>
      let statistics := { memory.portStatistics port with rx := value }
      { memory with portStatistics := Function.update memory.portStatistics port statistics }

/-- `rte_eth_tx_buffer_flush`, where so many packets are sent. The others are freed, and the
callback of the buffer counts them for its port. -/
def flush (memory : Memory) (port sent : Nat) : Memory :=
  let unsent := (memory.txBuffer port).length - sent
  let statistics := memory.portStatistics port
  { txBuffer := Function.update memory.txBuffer port []
    portStatistics := Function.update memory.portStatistics port
      { statistics with dropped := statistics.dropped + BitVec.ofNat 64 unsent } }

/-- `rte_eth_tx_buffer`: what is returned, where so many packets are sent if the buffer is
flushed, and the memory afterwards. -/
def rteEthTxBuffer (memory : Memory) (port : Nat) (m : RteMbuf) (sent : Nat) : Nat × Memory :=
  let pkts := memory.txBuffer port ++ [m]
  let memory := { memory with txBuffer := Function.update memory.txBuffer port pkts }
  if pkts.length < maxPktBurst then (0, memory) else (sent, memory.flush port sent)

end Memory

/-! ## The loop -/

/-- What the lcores know from the initialisation. -/
structure Config where
  rxPortList : Nat → List Nat
  dstPorts : Nat → Nat
  macUpdating : Bool
  portsEthAddr : Nat → BitVec 48

/-- The destination address 02:00:00:00:00:xx is stored with two bytes of the source address,
which is written after it. -/
def l2fwdMacUpdating (config : Config) (m : RteMbuf) (destPortid : Nat) : RteMbuf :=
  let data := store 8 m.data 0 (0x02#64 + (BitVec.ofNat 64 destPortid <<< 40))
  ⟨store 6 data 6 (config.portsEthAddr destPortid)⟩

/-- `l2fwd_simple_forward` up to the count of what was sent. -/
def l2fwdSimpleForward (config : Config) (memory : Memory) (m : RteMbuf) (portid sent : Nat) :
    Nat × Memory :=
  let dstPort := config.dstPorts portid
  let m := if config.macUpdating then l2fwdMacUpdating config m dstPort else m
  memory.rteEthTxBuffer dstPort m sent

/-- Where an lcore is in its loop. In the burst of a port some packets are still to be
forwarded. -/
inductive Pc
  | top
  | drain (i : Nat)
  | poll (i : Nat)
  | forward (i : Nat) (pkts : List RteMbuf)
  | returned

/-- An addition to a counter that is under way. -/
inductive Addition
  | load (counter : Counter) (amount : Nat)
  | store (counter : Counter) (value : BitVec 64)

def Addition.counter : Addition → Counter
  | load counter _ => counter
  | store counter _ => counter

/-- An lcore first ends its addition, and then it goes on. -/
structure Lcore where
  pc : Pc
  adding : Option Addition

/-- `if (sent) port_statistics[port].tx += sent` -/
def addSent (port sent : Nat) : Option Addition :=
  if sent = 0 then none else some (.load (.tx port) sent)

/-- One step of an lcore. When it is time to drain or to quit, how many packets are received
and how many are sent comes from outside. The statistics are only read when they are
printed. -/
inductive LcoreStep (config : Config) (lcore : Nat) :
    Lcore → Memory → List Location → Lcore → Memory → Prop
  | load (pc : Pc) (counter : Counter) (amount : Nat) (memory : Memory) :
      LcoreStep config lcore ⟨pc, some (.load counter amount)⟩ memory []
        ⟨pc, some (.store counter (memory.read counter + BitVec.ofNat 64 amount))⟩ memory
  | store (pc : Pc) (counter : Counter) (value : BitVec 64) (memory : Memory) :
      LcoreStep config lcore ⟨pc, some (.store counter value)⟩ memory [counter.location]
        ⟨pc, none⟩ (memory.write counter value)
  | quit (memory : Memory) : LcoreStep config lcore ⟨.top, none⟩ memory [] ⟨.returned, none⟩ memory
  | due (memory : Memory) : LcoreStep config lcore ⟨.top, none⟩ memory [] ⟨.drain 0, none⟩ memory
  | notDue (memory : Memory) : LcoreStep config lcore ⟨.top, none⟩ memory [] ⟨.poll 0, none⟩ memory
  | flush (i sent : Nat) (memory : Memory) {portid : Nat}
      (port : (config.rxPortList lcore)[i]? = some portid)
      (enough : sent ≤ (memory.txBuffer (config.dstPorts portid)).length) :
      LcoreStep config lcore ⟨.drain i, none⟩ memory
        [.txBuffer (config.dstPorts portid), .dropped (config.dstPorts portid)]
        ⟨.drain (i + 1), addSent (config.dstPorts portid) sent⟩
        (memory.flush (config.dstPorts portid) sent)
  | drained (i : Nat) (memory : Memory) (done : (config.rxPortList lcore)[i]? = none) :
      LcoreStep config lcore ⟨.drain i, none⟩ memory [] ⟨.poll 0, none⟩ memory
  | noPackets (i : Nat) (memory : Memory) {portid : Nat}
      (port : (config.rxPortList lcore)[i]? = some portid) :
      LcoreStep config lcore ⟨.poll i, none⟩ memory [] ⟨.poll (i + 1), none⟩ memory
  | rxBurst (i : Nat) (pktsBurst : List RteMbuf) (memory : Memory) {portid : Nat}
      (port : (config.rxPortList lcore)[i]? = some portid) (some : pktsBurst ≠ [])
      (room : pktsBurst.length ≤ maxPktBurst) :
      LcoreStep config lcore ⟨.poll i, none⟩ memory []
        ⟨.forward i pktsBurst, Option.some (.load (.rx portid) pktsBurst.length)⟩ memory
  | simpleForward (i sent : Nat) (m : RteMbuf) (pkts : List RteMbuf) (memory : Memory) {portid : Nat}
      (port : (config.rxPortList lcore)[i]? = some portid)
      (enough : sent ≤ (memory.txBuffer (config.dstPorts portid)).length + 1) :
      LcoreStep config lcore ⟨.forward i (m :: pkts), none⟩ memory
        [.txBuffer (config.dstPorts portid), .dropped (config.dstPorts portid)]
        ⟨.forward i pkts,
          addSent (config.dstPorts portid) (l2fwdSimpleForward config memory m portid sent).1⟩
        (l2fwdSimpleForward config memory m portid sent).2
  | forwarded (i : Nat) (memory : Memory) :
      LcoreStep config lcore ⟨.forward i [], none⟩ memory [] ⟨.poll (i + 1), none⟩ memory
  | polled (i : Nat) (memory : Memory) (done : (config.rxPortList lcore)[i]? = none) :
      LcoreStep config lcore ⟨.poll i, none⟩ memory [] ⟨.top, none⟩ memory

/-- An lcore without ports has nothing to do. -/
def startLoops (config : Config) : Threads Nat Lcore Memory where
  locals := fun lcore => ⟨if config.rxPortList lcore = [] then .returned else .top, none⟩
  memory := ⟨fun _ => [], fun _ => ⟨0#64, 0#64, 0#64⟩⟩

/-- The runs of all lcores together. -/
abbrev LoopsRun (config : Config) : List (Nat × List Location) → Threads Nat Lcore Memory → Prop :=
  Threads.Run (LcoreStep config) (startLoops config)

end PacketForwarding.L2fwd
