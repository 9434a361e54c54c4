import PacketForwarding.Foundation.Sections
import PacketForwarding.L3fwd.EventSetup

/-! # The event ports of the workers

Every worker asks once for an event port, under a lock. The calls come in any order, so what
the workers get is what they get one after the other. A call that finds no port left does
not give the lock back.
-/

namespace PacketForwarding.L3fwd

/-- What the function does while it has the lock. Its static index is what the callers
share. -/
def l3fwdGetFreeEventPort (evp : EventPorts) (index : Nat) : Visit Nat Int :=
  if evp.nbPorts.toNat ≤ index then
    -- returns before the lock is released
    ⟨index, -1, false⟩
  else
    ⟨index + 1, (evp.eventPId index).toNat, true⟩

/-! ## One call after the other -/

section Calls

variable {evp : EventPorts} {nbPorts : BitVec 8} (filled : evp.Filled nbPorts nbPorts.toNat)

include filled

theorem after_l3fwdGetFreeEventPort (count : Nat) :
    Sections.after (l3fwdGetFreeEventPort evp) 0 count = min count nbPorts.toNat := by
  induction count with
  | zero => exact (Nat.zero_min _).symm
  | succ count induction =>
      rw [Sections.after, induction, l3fwdGetFreeEventPort, filled.nbPorts]
      split
      · change min count nbPorts.toNat = _
        omega
      · change min count nbPorts.toNat + 1 = _
        omega

theorem visit_before {count : Nat} (before : count < nbPorts.toNat) :
    Sections.visit (l3fwdGetFreeEventPort evp) 0 count = ⟨count + 1, count, true⟩ := by
  have index := after_l3fwdGetFreeEventPort filled count
  rw [Nat.min_eq_left (Nat.le_of_lt before)] at index
  have small : count % 2 ^ 8 = count := Nat.mod_eq_of_lt (before.trans nbPorts.isLt)
  rw [Sections.visit, index, l3fwdGetFreeEventPort, filled.nbPorts,
    if_neg (Nat.not_le.mpr before), filled.entries count before, BitVec.toNat_ofNat, small]

theorem visit_behind {count : Nat} (behind : nbPorts.toNat ≤ count) :
    Sections.visit (l3fwdGetFreeEventPort evp) 0 count = ⟨nbPorts.toNat, -1, false⟩ := by
  have index := after_l3fwdGetFreeEventPort filled count
  rw [Nat.min_eq_right behind] at index
  rw [Sections.visit, index, l3fwdGetFreeEventPort, filled.nbPorts, if_pos (Nat.le_refl _)]

variable {π : Type*} {sections : Sections π Nat Int}
  (serial : sections.Serial (l3fwdGetFreeEventPort evp) 0)

include serial

/-- The first callers get the ports in order. -/
theorem take_results :
    (sections.results.map Prod.snd).take nbPorts.toNat =
      (List.range (min nbPorts.toNat sections.results.length)).map Int.ofNat := by
  rw [serial.results, ← List.map_take, List.take_range]
  refine List.map_congr_left ?_
  intro count member
  have before := (List.mem_range.mp member).trans_le (Nat.min_le_left _ _)
  rw [visit_before filled before]
  rfl

theorem drop_results {result : Int}
    (member : result ∈ (sections.results.map Prod.snd).drop nbPorts.toNat) : result = -1 := by
  rw [serial.results, ← List.map_drop, List.mem_map] at member
  rcases member with ⟨count, later, rfl⟩
  rw [List.range_eq_range', List.drop_range', List.mem_range'_1] at later
  rw [visit_behind filled (by omega)]

end Calls

/-! ## Every caller is served -/

/-- Nobody is blocked for ever, and there is a port for each of the first callers. -/
structure EventPortsServed {π : Type*} [DecidableEq π] (evp : EventPorts)
    (sections : Sections π Nat Int) : Prop where
  unblocked : sections.Open (l3fwdGetFreeEventPort evp)
  distinct : ((sections.results.map Prod.snd).take evp.nbPorts.toNat).Nodup
  ports : ∀ result ∈ (sections.results.map Prod.snd).take evp.nbPorts.toNat,
    ∃ index, index < evp.nbPorts.toNat ∧ result = (evp.eventPId index).toNat
  exhausted : ∀ result ∈ (sections.results.map Prod.snd).drop evp.nbPorts.toNat, result = -1

theorem eventPortsServed_of_open {π : Type*} [DecidableEq π] {evp : EventPorts}
    {nbPorts : BitVec 8} (filled : evp.Filled nbPorts nbPorts.toNat)
    {sections : Sections π Nat Int}
    (reached : Sections.Reaches (l3fwdGetFreeEventPort evp) (.start 0) sections)
    (unblocked : sections.Open (l3fwdGetFreeEventPort evp)) : EventPortsServed evp sections where
  unblocked := unblocked
  distinct := by
    rw [filled.nbPorts, take_results filled (.reaches reached)]
    exact List.nodup_range.map fun _ _ => Int.ofNat.inj
  ports := by
    intro result member
    rw [filled.nbPorts, take_results filled (.reaches reached)] at member
    rcases List.mem_map.mp member with ⟨index, within, rfl⟩
    have before : index < nbPorts.toNat :=
      (List.mem_range.mp within).trans_le (Nat.min_le_left _ _)
    refine ⟨index, by rwa [filled.nbPorts], ?_⟩
    rw [filled.entries index before, BitVec.toNat_ofNat,
      Nat.mod_eq_of_lt (before.trans nbPorts.isLt)]
    rfl
  exhausted := by
    intro result member
    rw [filled.nbPorts] at member
    exact drop_results filled (.reaches reached) member

/-- In every order of the calls every worker is served if and only if there is a port for
each of them. -/
theorem eventPorts_served_iff (lib : EventLib) (nbPorts : BitVec 8) {evp : EventPorts}
    (setUp : l3fwdEventPortSetup lib nbPorts = .ok evp) (workers : Nat) :
    (∀ sections : Sections (Fin workers) Nat Int,
      Sections.Reaches (l3fwdGetFreeEventPort evp) (.start 0) sections →
        EventPortsServed evp sections) ↔
      workers ≤ nbPorts.toNat := by
  have filled := (l3fwdEventPortSetup_ends lib nbPorts).of_ok setUp
  have all : (∀ sections : Sections (Fin workers) Nat Int,
      Sections.Reaches (l3fwdGetFreeEventPort evp) (.start 0) sections →
        sections.Open (l3fwdGetFreeEventPort evp)) ↔
      ∀ count, count < Fintype.card (Fin workers) →
        (Sections.visit (l3fwdGetFreeEventPort evp) 0 count).released = true := Sections.open_iff
  rw [Fintype.card_fin] at all
  constructor
  · intro served
    have released := all.mp fun sections reached => (served sections reached).unblocked
    by_contra fewer
    have last := released nbPorts.toNat (Nat.not_le.mp fewer)
    rw [visit_behind filled (Nat.le_refl _)] at last
    cases last
  · intro enough sections reached
    refine eventPortsServed_of_open filled reached (all.mpr ?_ sections reached)
    intro count before
    rw [visit_before filled (before.trans_le enough)]

theorem eventPorts_served_iff_two :
    ∃ evp, l3fwdEventPortSetup (.accepting 2#8) 2#8 = .ok evp ∧
      ∀ sections : Sections (Fin 2) Nat Int,
        Sections.Reaches (l3fwdGetFreeEventPort evp) (.start 0) sections →
          EventPortsServed evp sections :=
  ⟨_, rfl, (eventPorts_served_iff (.accepting 2#8) 2#8 rfl 2).mpr (by decide)⟩

/-- Two workers on a device with one event port: the second keeps the lock. -/
theorem eventPorts_lockKept :
    ∃ evp, l3fwdEventPortSetup (.accepting 2#8) 1#8 = .ok evp ∧
      ∃ sections : Sections (Fin 2) Nat Int,
        Sections.Reaches (l3fwdGetFreeEventPort evp) (.start 0) sections ∧
          sections.phase 1 = .returned ∧ sections.locked = true ∧
          ¬ EventPortsServed evp sections := by
  let evp : EventPorts := ⟨Function.update (fun _ => 0#8) 0 0#8, 1#8⟩
  let first : Sections (Fin 2) Nat Int := .start 0
  let middle := (first.enter 0).leave (l3fwdGetFreeEventPort evp) 0
  let last := (middle.enter 1).leave (l3fwdGetFreeEventPort evp) 1
  have toMiddle : Sections.Reaches (l3fwdGetFreeEventPort evp) first middle :=
    Sections.reaches_leave rfl rfl
  have toLast : Sections.Reaches (l3fwdGetFreeEventPort evp) middle last :=
    Sections.reaches_leave rfl rfl
  refine ⟨evp, rfl, last, toMiddle.trans toLast, rfl, rfl, ?_⟩
  intro served
  rcases served.unblocked.held rfl with ⟨party, inside⟩
  revert inside
  revert party
  decide

end PacketForwarding.L3fwd
