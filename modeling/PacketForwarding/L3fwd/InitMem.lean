import PacketForwarding.Foundation.Endings
import PacketForwarding.L3fwd.PollSetup

/-! # Memory pools and lookup tables

The memory is set up for one port after the other. A pool that is there already is kept, and
so are the lookup tables of a socket. Each lcore gets the tables of its socket.
-/

namespace PacketForwarding.L3fwd

def nbSockets : Nat := 8

/-! ## Lookup tables -/

/-- `enum L3FWD_LOOKUP_MODE`, where the default is LPM. -/
inductive LookupMode
  | lpm
  | em
  | fib
  | acl
  deriving DecidableEq

/-- The static arrays of a mode, with a table for each socket. For ACL, these are the
contexts in `acl_config`. -/
structure SocketTables (τ : Type) where
  ipv4 : Nat → Option τ
  ipv6 : Nat → Option τ

/-- `get_ipv4_lookup_struct` and `get_ipv6_lookup_struct` of a mode. With ACL they return
NULL, and the contexts are used without them. -/
def LookupMode.getLookupStruct {τ : Type} (mode : LookupMode) (tables : Nat → Option τ)
    (socketid : Nat) : Option τ :=
  match mode with
  | .lpm | .em | .fib => tables socketid
  | .acl => none

/-! ## The state of the setup -/

/-- `rte_exit` with its reason. `lookupSetup` is for those inside the setup of the tables. -/
inductive MemExit
  | socketOutOfRange (socketid lcoreId : Nat)
  | cannotInitMbufPool (socketid : Nat)
  | cannotCreateVectorPool (portid : Nat)
  | lookupSetup (socketid : Nat)
  deriving DecidableEq

/-- A pool is known by the number of its mbufs or vectors, and NULL is `none`. What was
created and set up is kept in order: the port and socket of each mbuf pool, and for each
`l3fwd_lkp.setup` the socket with both tables. -/
structure MemState (τ : Type) where
  pktmbufPool : Nat → Nat → Option (BitVec 32)
  lkpPerSocket : Nat → Bool
  vectorPool : Nat → Option (BitVec 32)
  tables : SocketTables τ
  lookupStructs : Nat → Option τ × Option τ
  poolsCreated : List (Nat × Nat)
  setups : List (Nat × τ × τ)

/-- Before the first call. -/
def MemState.initial (τ : Type) : MemState τ where
  pktmbufPool := fun _ _ => none
  lkpPerSocket := fun _ => false
  vectorPool := fun _ => none
  tables := ⟨fun _ => none, fun _ => none⟩
  lookupStructs := fun _ => (none, none)
  poolsCreated := []
  setups := []

/-- The options and the libraries. Whether a call succeeds may depend on everything that
was done before it. `createTables` stands for the creation of both tables of a socket in a
mode, with all their routes. -/
structure MemEnv (τ : Type) where
  eal : Eal
  numaOn : Bool
  rteLcoreToSocketId : Nat → Nat
  mode : LookupMode
  vectorEnabled : Bool
  vectorSize : BitVec 16
  rtePktmbufPoolCreate : MemState τ → Nat → Nat → BitVec 32 → Bool
  rteEventVectorPoolCreate : MemState τ → Nat → Nat → BitVec 32 → Bool
  createTables : MemState τ → LookupMode → Nat → Option (τ × τ)

variable {τ : Type} (env : MemEnv τ)

namespace MemEnv

def socketOf (lcoreId : Nat) : Nat :=
  if env.numaOn then env.rteLcoreToSocketId lcoreId else 0

/-- A socket with an enabled lcore. -/
def Hosts (socketid : Nat) : Prop :=
  ∃ lcoreId, env.eal.rteLcoreIsEnabled lcoreId = true ∧ env.socketOf lcoreId = socketid

end MemEnv

/-! ## One call -/

/-- Setup ACL, LPM, EM or FIB. But, only once per available socket. -/
def setupLookup (socketid : Nat) (state : MemState τ) : Except MemExit (MemState τ) :=
  if state.lkpPerSocket socketid then
    .ok state
  else
    match env.createTables state env.mode socketid with
    | none => .error (.lookupSetup socketid)
    | some (ipv4, ipv6) =>
        .ok { state with
          tables.ipv4 := Function.update state.tables.ipv4 socketid (some ipv4)
          tables.ipv6 := Function.update state.tables.ipv6 socketid (some ipv6)
          setups := state.setups ++ [(socketid, ipv4, ipv6)]
          lkpPerSocket := Function.update state.lkpPerSocket socketid true }

/-- A state with one more pool. -/
def MemState.addPool (state : MemState τ) (portid socketid : Nat) (nbMbuf : BitVec 32) :
    MemState τ :=
  { state with
    pktmbufPool := Function.update state.pktmbufPool portid
      (Function.update (state.pktmbufPool portid) socketid (some nbMbuf))
    poolsCreated := state.poolsCreated ++ [(portid, socketid)] }

/-- The pool of a port on a socket. The tables are set up with a new pool only. -/
def initPool (portid socketid : Nat) (nbMbuf : BitVec 32) (state : MemState τ) :
    Except MemExit (MemState τ) :=
  if (state.pktmbufPool portid socketid).isSome then
    .ok state
  else if env.rtePktmbufPoolCreate state portid socketid nbMbuf then
    setupLookup env socketid (state.addPool portid socketid nbMbuf)
  else
    .error (.cannotInitMbufPool socketid)

/-- The number of vectors for a number of mbufs. -/
def nbVec (nbMbuf : BitVec 32) : BitVec 32 :=
  let vectorSize := env.vectorSize.setWidth 32
  let nbVec := (nbMbuf + vectorSize - 1#32) / vectorSize
  let nbVec := if nbVec < 512#32 then 512#32 else nbVec
  nbVec + BitVec.ofNat 32 (rteLcoreCount env.eal) * 32#32

def initVectorPool (portid socketid : Nat) (nbMbuf : BitVec 32) (state : MemState τ) :
    Except MemExit (MemState τ) :=
  if env.vectorEnabled && (state.vectorPool portid).isNone then
    let nbVec := nbVec env nbMbuf
    if env.rteEventVectorPoolCreate state portid socketid nbVec then
      .ok { state with vectorPool := Function.update state.vectorPool portid (some nbVec) }
    else
      .error (.cannotCreateVectorPool portid)
  else
    .ok state

/-- What is done for an lcore. -/
def initLcore (portid : Nat) (nbMbuf : BitVec 32) (state : MemState τ) (lcoreId : Nat) :
    Except MemExit (MemState τ) :=
  if env.eal.rteLcoreIsEnabled lcoreId = false then
    .ok state
  else
    let socketid := env.socketOf lcoreId
    if nbSockets ≤ socketid then
      .error (.socketOutOfRange socketid lcoreId)
    else do
      let state ← initPool env portid socketid nbMbuf state
      let state ← initVectorPool env portid socketid nbMbuf state
      return { state with
        lookupStructs := Function.update state.lookupStructs lcoreId
          (env.mode.getLookupStruct state.tables.ipv4 socketid,
            env.mode.getLookupStruct state.tables.ipv6 socketid) }

def initMem (portid : Nat) (nbMbuf : BitVec 32) (state : MemState τ) :
    Except MemExit (MemState τ) :=
  (List.range rteMaxLcore).foldlM (initLcore env portid nbMbuf) state

/-- One call after the other, each for a port with a number of mbufs. -/
def initMems (calls : List (Nat × BitVec 32)) : Except MemExit (MemState τ) :=
  calls.foldlM (fun state call => initMem env call.1 call.2 state) (MemState.initial τ)

/-! ## What is kept -/

/-- The two kinds of memory agree. A socket has its tables from the first pool on, and no
pool and no table is made twice. -/
structure MemInv (state : MemState τ) : Prop where
  flagged : ∀ socketid, state.lkpPerSocket socketid = true ↔
    ∃ portid, (state.pktmbufPool portid socketid).isSome
  hosted : ∀ portid socketid, (state.pktmbufPool portid socketid).isSome → env.Hosts socketid
  setUpOnce : ∀ socketid, (state.setups.map Prod.fst).count socketid =
    if state.lkpPerSocket socketid then 1 else 0
  made : ∀ socketid, state.lkpPerSocket socketid = true → ∃ ipv4 ipv6,
    (socketid, ipv4, ipv6) ∈ state.setups ∧ state.tables.ipv4 socketid = some ipv4 ∧
      state.tables.ipv6 socketid = some ipv6
  createdOnce : ∀ portid socketid, state.poolsCreated.count (portid, socketid) =
    if (state.pktmbufPool portid socketid).isSome then 1 else 0

theorem MemInv.initial : MemInv env (MemState.initial τ) where
  flagged := fun _ => ⟨fun impossible => absurd impossible Bool.false_ne_true,
    fun ⟨_, impossible⟩ => absurd impossible Bool.false_ne_true⟩
  hosted := fun _ _ impossible => absurd impossible Bool.false_ne_true
  setUpOnce := fun _ => rfl
  made := fun _ impossible => absurd impossible Bool.false_ne_true
  createdOnce := fun _ _ => rfl

/-- Pools and tables stay as they are, and all new pools are those of a port. -/
structure Extends (portid : Nat) (nbMbuf : BitVec 32) (before after : MemState τ) : Prop where
  pools : ∀ port socketid, after.pktmbufPool port socketid = before.pktmbufPool port socketid ∨
    before.pktmbufPool port socketid = none ∧ port = portid ∧
      after.pktmbufPool port socketid = some nbMbuf
  flags : ∀ socketid, before.lkpPerSocket socketid = true → after.lkpPerSocket socketid = true
  ipv4 : ∀ socketid, before.lkpPerSocket socketid = true →
    after.tables.ipv4 socketid = before.tables.ipv4 socketid
  ipv6 : ∀ socketid, before.lkpPerSocket socketid = true →
    after.tables.ipv6 socketid = before.tables.ipv6 socketid

section Extends

variable {portid : Nat} {nbMbuf : BitVec 32} {before middle after : MemState τ}

theorem Extends.refl (state : MemState τ) : Extends portid nbMbuf state state where
  pools := fun _ _ => .inl rfl
  flags := fun _ set => set
  ipv4 := fun _ _ => rfl
  ipv6 := fun _ _ => rfl

theorem Extends.trans (first : Extends portid nbMbuf before middle)
    (second : Extends portid nbMbuf middle after) : Extends portid nbMbuf before after where
  pools := by
    intro port socketid
    rcases second.pools port socketid with same | ⟨wasNone, isPort, added⟩
    · rw [same]
      exact first.pools port socketid
    · rcases first.pools port socketid with same | ⟨_, _, addedBefore⟩
      · exact .inr ⟨same.symm.trans wasNone, isPort, added⟩
      · rw [wasNone] at addedBefore
        cases addedBefore
  flags := fun socketid set => second.flags socketid (first.flags socketid set)
  ipv4 := fun socketid set =>
    (second.ipv4 socketid (first.flags socketid set)).trans (first.ipv4 socketid set)
  ipv6 := fun socketid set =>
    (second.ipv6 socketid (first.flags socketid set)).trans (first.ipv6 socketid set)

theorem Extends.keeps (extended : Extends portid nbMbuf before after) {port socketid : Nat}
    (present : (before.pktmbufPool port socketid).isSome) :
    after.pktmbufPool port socketid = before.pktmbufPool port socketid := by
  rcases extended.pools port socketid with same | ⟨wasNone, _, _⟩
  · exact same
  · rw [wasNone] at present
    cases present

end Extends

/-- Any reason to exit is allowed. -/
abbrev MayExit (_ : MemExit) : Prop := True

/-! ## A pool and the tables of its socket -/

section Pool

variable {env} {state : MemState τ} {portid socketid : Nat} {nbMbuf : BitVec 32}

theorem addPool_self (state : MemState τ) (portid socketid : Nat) (nbMbuf : BitVec 32) :
    (state.addPool portid socketid nbMbuf).pktmbufPool portid socketid = some nbMbuf := by
  rw [MemState.addPool]
  dsimp only
  rw [Function.update_self, Function.update_self]

theorem addPool_other (state : MemState τ) (nbMbuf : BitVec 32) {port socket : Nat}
    (other : ¬ (port = portid ∧ socket = socketid)) :
    (state.addPool portid socketid nbMbuf).pktmbufPool port socket =
      state.pktmbufPool port socket := by
  rw [MemState.addPool]
  dsimp only
  by_cases same : port = portid
  · have different : socket ≠ socketid := fun equal => other ⟨same, equal⟩
    rw [same, Function.update_self, Function.update_of_ne different]
  · rw [Function.update_of_ne same]

theorem addPool_pools (absent : state.pktmbufPool portid socketid = none) (port socket : Nat) :
    (state.addPool portid socketid nbMbuf).pktmbufPool port socket =
        state.pktmbufPool port socket ∨
      state.pktmbufPool port socket = none ∧ port = portid ∧
        (state.addPool portid socketid nbMbuf).pktmbufPool port socket = some nbMbuf := by
  by_cases same : port = portid ∧ socket = socketid
  · rw [same.1, same.2]
    exact .inr ⟨absent, rfl, addPool_self ..⟩
  · exact .inl (addPool_other _ _ same)

/-- There is a pool on a socket if there was one before, or if it is the new one's. -/
theorem addPool_exists (socket : Nat) :
    (∃ port, ((state.addPool portid socketid nbMbuf).pktmbufPool port socket).isSome) ↔
      socket = socketid ∨ ∃ port, (state.pktmbufPool port socket).isSome := by
  constructor
  · rintro ⟨port, present⟩
    by_cases same : port = portid ∧ socket = socketid
    · exact .inl same.2
    · rw [addPool_other _ _ same] at present
      exact .inr ⟨port, present⟩
  · rintro (rfl | ⟨port, present⟩)
    · exact ⟨portid, by rw [addPool_self]; rfl⟩
    · by_cases same : port = portid ∧ socket = socketid
      · exact ⟨portid, by rw [same.2, addPool_self]; rfl⟩
      · exact ⟨port, by rwa [addPool_other _ _ same]⟩

theorem addPool_hosted (inv : MemInv env state) (hosts : env.Hosts socketid) (port socket : Nat)
    (present : ((state.addPool portid socketid nbMbuf).pktmbufPool port socket).isSome) :
    env.Hosts socket := by
  by_cases same : port = portid ∧ socket = socketid
  · rw [same.2]
    exact hosts
  · rw [addPool_other _ _ same] at present
    exact inv.hosted port socket present

theorem addPool_createdOnce (inv : MemInv env state)
    (absent : state.pktmbufPool portid socketid = none) (port socket : Nat) :
    (state.addPool portid socketid nbMbuf).poolsCreated.count (port, socket) =
      if ((state.addPool portid socketid nbMbuf).pktmbufPool port socket).isSome then 1 else 0 := by
  have before := inv.createdOnce port socket
  rw [MemState.addPool, List.count_append, List.count_singleton, before]
  by_cases same : port = portid ∧ socket = socketid
  · rcases same with ⟨rfl, rfl⟩
    have isNew := addPool_self state port socket nbMbuf
    rw [MemState.addPool] at isNew
    rw [isNew, absent]
    simp
  · have kept := addPool_other state nbMbuf same
    rw [MemState.addPool] at kept
    have different : ((portid, socketid) == (port, socket)) = false := by
      rw [beq_eq_false_iff_ne]
      intro equal
      exact same ⟨(Prod.mk.inj equal).1.symm, (Prod.mk.inj equal).2.symm⟩
    rw [kept, different]
    rfl

/-- A pool that is not the first on its socket. -/
theorem addPool_inv (inv : MemInv env state) (hosts : env.Hosts socketid)
    (absent : state.pktmbufPool portid socketid = none)
    (set : state.lkpPerSocket socketid = true) :
    MemInv env (state.addPool portid socketid nbMbuf) where
  flagged := by
    intro socket
    rw [addPool_exists, ← inv.flagged]
    constructor
    · exact .inr
    · rintro (rfl | set')
      · exact set
      · exact set'
  hosted := addPool_hosted inv hosts
  setUpOnce := inv.setUpOnce
  made := inv.made
  createdOnce := addPool_createdOnce inv absent

theorem addPool_extends (absent : state.pktmbufPool portid socketid = none) :
    Extends portid nbMbuf state (state.addPool portid socketid nbMbuf) where
  pools := addPool_pools absent
  flags := fun _ set => set
  ipv4 := fun _ _ => rfl
  ipv6 := fun _ _ => rfl

/-- What a part of the setup leaves for a port and a socket. -/
structure PoolReady (env : MemEnv τ) (portid socketid : Nat) (nbMbuf : BitVec 32)
    (before after : MemState τ) : Prop where
  inv : MemInv env after
  extended : Extends portid nbMbuf before after
  structs : after.lookupStructs = before.lookupStructs
  pool : (after.pktmbufPool portid socketid).isSome

/-- The first pool on a socket comes with its tables. -/
theorem setupLookup_first (inv : MemInv env state) (hosts : env.Hosts socketid)
    (absent : state.pktmbufPool portid socketid = none)
    (unset : state.lkpPerSocket socketid = false) :
    Ends (PoolReady env portid socketid nbMbuf state) MayExit
      (setupLookup env socketid (state.addPool portid socketid nbMbuf)) := by
  have notSet : ¬ (state.addPool portid socketid nbMbuf).lkpPerSocket socketid = true := by
    rw [Bool.not_eq_true]
    exact unset
  have noneSet (socket : Nat) (set : state.lkpPerSocket socket = true) : socket ≠ socketid := by
    rintro rfl
    rw [unset] at set
    cases set
  rw [setupLookup, if_neg notSet]
  cases env.createTables (state.addPool portid socketid nbMbuf) env.mode socketid with
  | none => trivial
  | some created =>
      rcases created with ⟨ipv4, ipv6⟩
      refine ⟨?_, ?_, rfl, ?_⟩
      · constructor
        · intro socket
          refine Iff.trans ?_ (addPool_exists socket).symm
          rw [← inv.flagged]
          by_cases same : socket = socketid
          · rw [same]
            simp only [Function.update_self, true_or]
          · simp only [Function.update_of_ne same, same, false_or]
            rfl
        · exact addPool_hosted inv hosts
        · intro socket
          have before := inv.setUpOnce socket
          simp only [MemState.addPool, List.map_append, List.count_append, before]
          by_cases same : socket = socketid
          · rw [same, unset]
            simp
          · have different : (socketid == socket) = false := by
              rw [beq_eq_false_iff_ne]
              exact fun equal => same equal.symm
            simp [Function.update_of_ne same, List.count_singleton, different]
        · intro socket set
          by_cases same : socket = socketid
          · rw [same]
            refine ⟨ipv4, ipv6, List.mem_append_right _ List.mem_cons_self, ?_, ?_⟩
            · exact Function.update_self _ _ _
            · exact Function.update_self _ _ _
          · dsimp only at set
            rw [Function.update_of_ne same] at set
            rcases inv.made socket set with ⟨made4, made6, member, table4, table6⟩
            refine ⟨made4, made6, List.mem_append_left _ member, ?_, ?_⟩
            · exact (Function.update_of_ne same _ _).trans table4
            · exact (Function.update_of_ne same _ _).trans table6
        · exact addPool_createdOnce inv absent
      · constructor
        · exact addPool_pools absent
        · intro socket set
          exact (Function.update_of_ne (noneSet socket set) _ _).trans set
        · intro socket set
          exact Function.update_of_ne (noneSet socket set) _ _
        · intro socket set
          exact Function.update_of_ne (noneSet socket set) _ _
      · exact Option.isSome_iff_exists.mpr ⟨nbMbuf, addPool_self ..⟩

theorem initPool_ends (inv : MemInv env state) (hosts : env.Hosts socketid) :
    Ends (PoolReady env portid socketid nbMbuf state) MayExit
      (initPool env portid socketid nbMbuf state) := by
  rw [initPool]
  split
  · next present => exact ⟨inv, .refl state, rfl, present⟩
  · next missing =>
      have absent : state.pktmbufPool portid socketid = none := by
        rwa [Bool.not_eq_true, Option.isSome_eq_false_iff, Option.isNone_iff_eq_none] at missing
      split
      · cases set : state.lkpPerSocket socketid with
        | false => exact setupLookup_first inv hosts absent set
        | true =>
            have stays : (state.addPool portid socketid nbMbuf).lkpPerSocket socketid = true := set
            rw [setupLookup, if_pos stays]
            exact ⟨addPool_inv inv hosts absent set, addPool_extends absent, rfl,
              Option.isSome_iff_exists.mpr ⟨nbMbuf, addPool_self ..⟩⟩
      · trivial

end Pool

/-! ## The lcores -/

/-- An lcore has what the mode returns for its socket, which is set up. -/
structure LcoreReady (env : MemEnv τ) (state : MemState τ) (lcoreId : Nat) : Prop where
  flag : state.lkpPerSocket (env.socketOf lcoreId) = true
  structs : state.lookupStructs lcoreId =
    (env.mode.getLookupStruct state.tables.ipv4 (env.socketOf lcoreId),
      env.mode.getLookupStruct state.tables.ipv6 (env.socketOf lcoreId))

theorem getLookupStruct_congr {mode : LookupMode} {tables tables' : Nat → Option τ}
    {socketid : Nat} (same : tables' socketid = tables socketid) :
    mode.getLookupStruct tables' socketid = mode.getLookupStruct tables socketid := by
  cases mode with
  | lpm => exact same
  | em => exact same
  | fib => exact same
  | acl => rfl

section Lcores

variable {env} {before after : MemState τ} {portid : Nat} {nbMbuf : BitVec 32}

theorem LcoreReady.extends {lcoreId : Nat} (ready : LcoreReady env before lcoreId)
    (extended : Extends portid nbMbuf before after)
    (structs : after.lookupStructs lcoreId = before.lookupStructs lcoreId) :
    LcoreReady env after lcoreId where
  flag := extended.flags _ ready.flag
  structs := by
    rw [structs, ready.structs, getLookupStruct_congr (extended.ipv4 _ ready.flag),
      getLookupStruct_congr (extended.ipv6 _ ready.flag)]

/-- What a call leaves after some of the lcores. -/
structure CallDone (env : MemEnv τ) (portid : Nat) (nbMbuf : BitVec 32) (before : MemState τ)
    (done : Nat → Prop) (after : MemState τ) : Prop where
  inv : MemInv env after
  extended : Extends portid nbMbuf before after
  kept : ∀ lcoreId, LcoreReady env before lcoreId → LcoreReady env after lcoreId
  ready : ∀ lcoreId, done lcoreId → env.eal.rteLcoreIsEnabled lcoreId = true →
    LcoreReady env after lcoreId ∧
      (after.pktmbufPool portid (env.socketOf lcoreId)).isSome

theorem initVectorPool_ends {state : MemState τ} {socketid : Nat}
    (ready : PoolReady env portid socketid nbMbuf before state) :
    Ends (PoolReady env portid socketid nbMbuf before) MayExit
      (initVectorPool env portid socketid nbMbuf state) := by
  rw [initVectorPool]
  split
  · dsimp only
    split
    · exact ⟨⟨ready.inv.flagged, ready.inv.hosted, ready.inv.setUpOnce, ready.inv.made,
        ready.inv.createdOnce⟩, ⟨ready.extended.pools, ready.extended.flags, ready.extended.ipv4,
        ready.extended.ipv6⟩, ready.structs, ready.pool⟩
    · trivial
  · exact ready

theorem initLcore_ends {state : MemState τ} {count : Nat}
    (done : CallDone env portid nbMbuf before (· < count) state) :
    Ends (CallDone env portid nbMbuf before (· < count + 1)) MayExit
      (initLcore env portid nbMbuf state count) := by
  rw [initLcore]
  split
  · next disabled =>
      refine ⟨done.inv, done.extended, done.kept, ?_⟩
      intro lcoreId earlier enabled
      rcases Nat.lt_succ_iff_lt_or_eq.mp earlier with before | rfl
      · exact done.ready lcoreId before enabled
      · rw [disabled] at enabled
        cases enabled
  · next enabled =>
      have isEnabled : env.eal.rteLcoreIsEnabled count = true := by
        rwa [Bool.not_eq_false] at enabled
      dsimp only
      split
      · trivial
      · refine (initPool_ends done.inv ⟨count, isEnabled, rfl⟩).bind ?_
        intro _ poolReady
        refine (initVectorPool_ends poolReady).bind ?_
        intro next ready
        have flag := (ready.inv.flagged _).mpr ⟨portid, ready.pool⟩
        have stays (lcoreId : Nat) (before : LcoreReady env state lcoreId) :
            LcoreReady env { next with
              lookupStructs := Function.update next.lookupStructs count
                (env.mode.getLookupStruct next.tables.ipv4 (env.socketOf count),
                  env.mode.getLookupStruct next.tables.ipv6 (env.socketOf count)) } lcoreId := by
          by_cases same : lcoreId = count
          · rw [same]
            exact ⟨flag, Function.update_self _ _ _⟩
          · have other := before.extends ready.extended (congrFun ready.structs lcoreId)
            exact ⟨other.flag, (Function.update_of_ne same _ _).trans other.structs⟩
        refine ⟨⟨ready.inv.flagged, ready.inv.hosted, ready.inv.setUpOnce, ready.inv.made,
          ready.inv.createdOnce⟩, ?_, ?_, ?_⟩
        · have extended := done.extended.trans ready.extended
          exact ⟨extended.pools, extended.flags, extended.ipv4, extended.ipv6⟩
        · intro lcoreId before
          exact stays lcoreId (done.kept lcoreId before)
        · intro lcoreId earlier enabledLcore
          rcases Nat.lt_succ_iff_lt_or_eq.mp earlier with before | rfl
          · rcases done.ready lcoreId before enabledLcore with ⟨wasReady, pool⟩
            refine ⟨stays lcoreId wasReady, ?_⟩
            dsimp only
            rw [ready.extended.keeps pool]
            exact pool
          · exact ⟨⟨flag, Function.update_self _ _ _⟩, ready.pool⟩

theorem initMem_ends (inv : MemInv env before) :
    Ends (CallDone env portid nbMbuf before fun _ => True) MayExit
      (initMem env portid nbMbuf before) := by
  have all : Ends (CallDone env portid nbMbuf before (· < rteMaxLcore)) MayExit
      (initMem env portid nbMbuf before) := by
    apply Ends.foldlM_range fun count => CallDone env portid nbMbuf before (· < count)
    · intro count state _ done
      exact initLcore_ends done
    · exact ⟨inv, .refl before, fun _ ready => ready,
        fun _ impossible => absurd impossible (Nat.not_lt_zero _)⟩
  refine all.imp ?_ fun _ allowed => allowed
  intro after done
  exact ⟨done.inv, done.extended, done.kept,
    fun lcoreId _ enabled => done.ready lcoreId (env.eal.lcores lcoreId enabled) enabled⟩

end Lcores

/-! ## All calls -/

/-- What some calls leave. -/
structure CallsDone (env : MemEnv τ) (calls : List (Nat × BitVec 32)) (state : MemState τ) :
    Prop where
  inv : MemInv env state
  ready : calls ≠ [] → ∀ lcoreId, env.eal.rteLcoreIsEnabled lcoreId = true →
    LcoreReady env state lcoreId
  pools : ∀ call ∈ calls, ∀ socketid, env.Hosts socketid →
    (state.pktmbufPool call.1 socketid).isSome

theorem initMems_ends (calls : List (Nat × BitVec 32)) :
    Ends (CallsDone env calls) MayExit (initMems env calls) := by
  apply Ends.foldlM
  · intro done call state calls
    refine (initMem_ends calls.inv).imp ?_ fun _ allowed => allowed
    intro after last
    refine ⟨last.inv, ?_, ?_⟩
    · intro _ lcoreId enabled
      exact (last.ready lcoreId trivial enabled).1
    · intro earlier member socketid hosts
      rcases List.mem_append.mp member with before | isLast
      · have present := calls.pools earlier before socketid hosts
        rw [last.extended.keeps present]
        exact present
      · rcases hosts with ⟨lcoreId, enabled, rfl⟩
        rw [List.mem_singleton.mp isLast]
        exact (last.ready lcoreId trivial enabled).2
  · exact ⟨.initial env, fun impossible => absurd rfl impossible,
      fun _ impossible => absurd impossible List.not_mem_nil⟩

/-- Every socket with an lcore is set up once and no other, every lcore has the tables of its
socket, and every port has its pools. With ACL the lcores keep NULL, and the contexts of
their sockets are those that were set up. -/
structure MemReady (env : MemEnv τ) (calls : List (Nat × BitVec 32)) (state : MemState τ) :
    Prop where
  setUpOnce : ∀ socketid, env.Hosts socketid → (state.setups.map Prod.fst).count socketid = 1
  notSetUp : ∀ socketid, ¬ env.Hosts socketid → socketid ∉ state.setups.map Prod.fst
  structs : ∀ lcoreId, env.eal.rteLcoreIsEnabled lcoreId = true → ∃ ipv4 ipv6,
    (env.socketOf lcoreId, ipv4, ipv6) ∈ state.setups ∧
      state.tables.ipv4 (env.socketOf lcoreId) = some ipv4 ∧
      state.tables.ipv6 (env.socketOf lcoreId) = some ipv6 ∧
      state.lookupStructs lcoreId =
        if env.mode = .acl then (none, none) else (some ipv4, some ipv6)
  pools : ∀ call ∈ calls, ∀ socketid, env.Hosts socketid →
    (state.pktmbufPool call.1 socketid).isSome ∧
      state.poolsCreated.count (call.1, socketid) = 1

theorem getLookupStruct_eq {mode : LookupMode} {tables : Nat → Option τ} {socketid : Nat} :
    mode.getLookupStruct tables socketid = if mode = .acl then none else tables socketid := by
  cases mode with
  | lpm => rfl
  | em => rfl
  | fib => rfl
  | acl => rfl

/-- Any calls that do not exit leave everything ready. -/
theorem initMems_ready {calls : List (Nat × BitVec 32)} (nonempty : calls ≠ [])
    {state : MemState τ} (done : initMems env calls = .ok state) : MemReady env calls state := by
  have ended := (initMems_ends env calls).of_ok done
  have flagged {socketid : Nat} (hosts : env.Hosts socketid) :
      state.lkpPerSocket socketid = true := by
    rcases hosts with ⟨lcoreId, enabled, rfl⟩
    exact (ended.ready nonempty lcoreId enabled).flag
  constructor
  · intro socketid hosts
    rw [ended.inv.setUpOnce, if_pos (flagged hosts)]
  · intro socketid unhosted
    have unset : ¬ state.lkpPerSocket socketid = true := by
      intro set
      rcases (ended.inv.flagged socketid).mp set with ⟨portid, present⟩
      exact unhosted (ended.inv.hosted portid socketid present)
    rw [← List.count_eq_zero, ended.inv.setUpOnce, if_neg unset]
  · intro lcoreId enabled
    have ready := ended.ready nonempty lcoreId enabled
    rcases ended.inv.made _ ready.flag with ⟨ipv4, ipv6, member, table4, table6⟩
    refine ⟨ipv4, ipv6, member, table4, table6, ?_⟩
    rw [ready.structs, getLookupStruct_eq, getLookupStruct_eq, table4, table6]
    split
    · rfl
    · rfl
  · intro call member socketid hosts
    have present := ended.pools call member socketid hosts
    refine ⟨present, ?_⟩
    rw [ended.inv.createdOnce, if_pos present]

/-- Two lcores on two sockets, and everything succeeds. -/
def twoSockets (mode : LookupMode) : MemEnv Nat where
  eal := twoPortEal
  numaOn := true
  rteLcoreToSocketId := fun lcoreId => lcoreId % 2
  mode := mode
  vectorEnabled := true
  vectorSize := 64#16
  rtePktmbufPoolCreate := fun _ _ _ _ => true
  rteEventVectorPoolCreate := fun _ _ _ _ => true
  createTables := fun _ _ socketid => some (2 * socketid, 2 * socketid + 1)

/-- One pool for each port, and a port that comes twice. -/
theorem initMems_ready_lpm :
    ∃ state, initMems (twoSockets .lpm) [(0, 8192#32), (1, 8192#32), (0, 8192#32)] = .ok state ∧
      MemReady (twoSockets .lpm) [(0, 8192#32), (1, 8192#32), (0, 8192#32)] state := by
  have succeeds : (initMems (twoSockets .lpm)
      [(0, 8192#32), (1, 8192#32), (0, 8192#32)]).isOk = true := by
    decide +kernel
  cases done : initMems (twoSockets .lpm) [(0, 8192#32), (1, 8192#32), (0, 8192#32)] with
  | error reason =>
      rw [done] at succeeds
      cases succeeds
  | ok state => exact ⟨state, rfl, initMems_ready (twoSockets .lpm) (List.cons_ne_nil _ _) done⟩

/-- With ACL no lcore keeps a table. -/
theorem initMems_aclStructs :
    ∃ state, initMems (twoSockets .acl) [(0, 8192#32)] = .ok state ∧
      state.tables.ipv4 0 = some 0 ∧ state.tables.ipv6 0 = some 1 ∧
      state.lookupStructs 2 = (none, none) ∧
      ¬ ∀ lcoreId, (twoSockets .acl).eal.rteLcoreIsEnabled lcoreId = true → ∃ ipv4 ipv6,
        ((twoSockets .acl).socketOf lcoreId, ipv4, ipv6) ∈ state.setups ∧
          state.lookupStructs lcoreId = (some ipv4, some ipv6) := by
  have computed : ∃ state, initMems (twoSockets .acl) [(0, 8192#32)] = .ok state ∧
      state.tables.ipv4 0 = some 0 ∧ state.tables.ipv6 0 = some 1 ∧
      state.lookupStructs 2 = (none, none) := ⟨_, rfl, rfl, rfl, rfl⟩
  rcases computed with ⟨state, done, table4, table6, structs⟩
  refine ⟨state, done, table4, table6, structs, ?_⟩
  intro set
  rcases set 2 rfl with ⟨ipv4, ipv6, _, isSet⟩
  rw [structs] at isSet
  cases isSet

end PacketForwarding.L3fwd
