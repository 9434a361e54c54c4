import PacketForwarding.Foundation.Custody
import PacketForwarding.Foundation.Lanes
import PacketForwarding.Ports

/-! # The state of one forwarding lcore

Arrays are functions from indices. An access that the source could make outside
an array of fixed size is checked and reported as a `Fault`; everything else is
total. Mbufs live in a heap and are named by pointers, so that one mbuf reached
through two pointers is one mbuf.
-/

namespace PacketForwarding.L3fwd

open Lanes

def maxPktBurst : Nat := 512

def fwdStep : Nat := 4

def prefetchOffset : Nat := 3

/-- Marks a destination port as invalid. -/
def badPort : BitVec 16 := 0xffff#16

theorem ne_badPort_of_valid {port : BitVec 16} (valid : port.toNat < rteMaxEthports) :
    port ≠ badPort := by
  rintro rfl
  revert valid
  decide

/-! ## Packets -/

abbrev MbufPtr := Nat

/-- The part of an mbuf the forwarding code reads or writes. `data` is the
packet from `rte_pktmbuf_mtod` on. -/
structure RteMbuf where
  packetType : BitVec 32
  port : BitVec 16
  pktLen : BitVec 32
  olFlags : BitVec 64
  txq : BitVec 16
  data : Nat → BitVec 8
  deriving Inhabited

abbrev MbufHeap := MbufPtr → RteMbuf

/-! ## Transmit buffers -/

inductive Fault
  | mTableIndex (index : Nat)
  | txMbufsIndex (port : BitVec 16)
  | pnumIndex (index : Nat)
  | nonTermination
  deriving DecidableEq, Repr

/-- `struct mbuf_table`: `m_table` has `maxPktBurst` entries. -/
structure MbufTable where
  len : Nat
  mTable : Nat → MbufPtr
  deriving Inhabited

namespace MbufTable

def put (table : MbufTable) (index : Nat) (mbuf : MbufPtr) : Except Fault MbufTable :=
  if index < maxPktBurst then
    .ok { table with mTable := Function.update table.mTable index mbuf }
  else
    .error (.mTableIndex index)

/-- The first `count` entries, as a driver that is handed the table reads them. -/
def read (table : MbufTable) (count : Nat) : Except Fault (List MbufPtr) :=
  if count ≤ maxPktBurst then
    .ok ((List.range count).map table.mTable)
  else
    .error (.mTableIndex maxPktBurst)

/-- The packets waiting in the table, oldest first. -/
def buffered (table : MbufTable) : List MbufPtr :=
  (List.range table.len).map table.mTable

@[simp] theorem length_buffered (table : MbufTable) :
    table.buffered.length = table.len := by
  simp [buffered]

end MbufTable

structure LcoreRxQueue where
  portId : BitVec 16
  queueId : BitVec 16
  deriving DecidableEq, Inhabited

/-- `struct lcore_conf` without the lookup tables. `tx_mbufs` has
`rteMaxEthports` entries; `txPortId` lists the first `n_tx_port` of its array. -/
structure LcoreConf where
  rxQueueList : List LcoreRxQueue
  txPortId : List (BitVec 16)
  txQueueId : BitVec 16 → BitVec 16
  txMbufs : Nat → MbufTable
  deriving Inhabited

/-- What a driver accepted in one call of `rte_eth_tx_burst`. -/
structure TxBurst where
  port : BitVec 16
  queue : BitVec 16
  mbufs : List MbufPtr

/-- What an lcore writes: mbufs, its configuration and, as seen from outside,
the bursts accepted by drivers and the mbufs given back, oldest first. -/
structure LcoreState where
  mbufs : MbufHeap
  qconf : LcoreConf
  txLog : List TxBurst
  freed : List MbufPtr
  deriving Inhabited

/-- What an lcore reads and never writes: options, addresses, the checksum
routine of the library, how many mbufs the driver takes at each call, and what
an uninitialised array on the stack happens to hold. -/
structure Env where
  rxBurstSize : Nat
  txBurstSize : Nat
  enabledPortMask : BitVec 32
  valEth : Nat → Register
  destEthAddr : Nat → BitVec 64
  portsEthAddr : Nat → BitVec 48
  rteIpv4Cksum : (Nat → BitVec 8) → Nat → BitVec 16
  txAccept : Nat → Nat
  stack : Nat → BitVec 16
  deriving Inhabited

/-- Fall back to the incoming port if a port is not enabled. -/
def enabledPort (env : Env) (dstPort portid : BitVec 16) : BitVec 16 :=
  if rteMaxEthports ≤ dstPort.toNat ∨ env.enabledPortMask.getLsbD dstPort.toNat = false then
    portid
  else
    dstPort

structure TxStats where
  sent : Nat
  dropped : Nat
  deriving DecidableEq, Repr

def TxStats.add (left right : TxStats) : TxStats where
  sent := left.sent + right.sent
  dropped := left.dropped + right.dropped

namespace LcoreState

def txTable (state : LcoreState) (port : BitVec 16) : Except Fault MbufTable :=
  if port.toNat < rteMaxEthports then
    .ok (state.qconf.txMbufs port.toNat)
  else
    .error (.txMbufsIndex port)

def setTable (state : LcoreState) (port : BitVec 16) (table : MbufTable) : LcoreState :=
  { state with qconf := { state.qconf with
      txMbufs := Function.update state.qconf.txMbufs port.toNat table } }

/-- `rte_pktmbuf_free` of `mbufs[first], ..., mbufs[last - 1]` in a loop. -/
def rtePktmbufFreeRange (state : LcoreState) (mbufs : Nat → MbufPtr)
    (first last : Nat) : LcoreState :=
  { state with freed := state.freed ++ (List.range' first (last - first)).map mbufs }

def rtePktmbufFree (state : LcoreState) (mbuf : MbufPtr) : LcoreState :=
  { state with freed := state.freed ++ [mbuf] }

def setMbuf (state : LcoreState) (m : MbufPtr) (pkt : RteMbuf) : LcoreState :=
  { state with mbufs := Function.update state.mbufs m pkt }

/-- The driver accepts some prefix of what it is offered. -/
def rteEthTxBurst (env : Env) (state : LcoreState) (port queue : BitVec 16)
    (mbufs : List MbufPtr) : LcoreState × Nat :=
  let taken := min (env.txAccept state.txLog.length) mbufs.length
  ({ state with txLog := state.txLog ++ [⟨port, queue, mbufs.take taken⟩] }, taken)

/-! ### What an observer sees -/

/-- The length of the buffer of a port. -/
def txLen (state : LcoreState) (port : Nat) : Nat :=
  (state.qconf.txMbufs port).len

/-- The mbufs that left through a port, oldest first. -/
def transmitted (state : LcoreState) (port : Nat) : List MbufPtr :=
  state.txLog.flatMap fun burst => if burst.port.toNat = port then burst.mbufs else []

/-- The custody of the mbufs handed to a port. -/
def custody (state : LcoreState) (port : Nat) : Custody MbufPtr where
  buffered := (state.qconf.txMbufs port).buffered
  sent := state.transmitted port
  discarded := state.freed

/-- The custody of the mbufs handed to any port. -/
def totalCustody (state : LcoreState) : Custody MbufPtr where
  buffered := (List.range rteMaxEthports).flatMap fun port =>
    (state.qconf.txMbufs port).buffered
  sent := state.txLog.flatMap TxBurst.mbufs
  discarded := state.freed

/-- The number of packets waiting in the buffers of all ports. -/
def waiting (state : LcoreState) : Nat :=
  ((List.range rteMaxEthports).map state.txLen).sum

end LcoreState

/-! ## Received packets -/

/-- Packets taken from a receive queue: where they were put and what they are. -/
structure RxBurst where
  packets : List (MbufPtr × RteMbuf)

namespace RxBurst

def nbRx (burst : RxBurst) : Nat := burst.packets.length

def pktsBurst (burst : RxBurst) (i : Nat) : MbufPtr :=
  (burst.packets.map Prod.fst).getD i 0

/-- The driver has written the packets into their mbufs. -/
def fill (burst : RxBurst) (mbufs : MbufHeap) : MbufHeap :=
  burst.packets.foldl (fun mbufs packet => Function.update mbufs packet.1 packet.2) mbufs

end RxBurst

end PacketForwarding.L3fwd
