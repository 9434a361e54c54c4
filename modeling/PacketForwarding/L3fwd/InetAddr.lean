import PacketForwarding.Foundation.Lanes
import PacketForwarding.L3fwd.RuleFields

/-! # Addresses as texts

`inet_pton` and `inet_ntop` belong to the C library. An address is taken as it lies in
memory, its first byte least significant.
-/

namespace PacketForwarding.L3fwd

open CString Lanes

/-- The functions of the library. A text that is no address may still leave something
behind in the destination. -/
structure Inet where
  pton4 : Text → Option (BitVec 32)
  left4 : Text → BitVec 32 → BitVec 32
  pton6 : Text → Option (BitVec 128)
  left6 : Text → BitVec 128 → BitVec 128
  ntop4 : BitVec 32 → Text

/-- `inet_pton(AF_INET, ...)`: what is returned, and the destination afterwards. -/
def Inet.inetPton4 (inet : Inet) (text : Text) (dst : BitVec 32) : Int × BitVec 32 :=
  match inet.pton4 text with
  | some addr => (1, addr)
  | none => (0, inet.left4 text dst)

/-- `inet_pton(AF_INET6, ...)` -/
def Inet.inetPton6 (inet : Inet) (text : Text) (dst : BitVec 128) : Int × BitVec 128 :=
  match inet.pton6 text with
  | some addr => (1, addr)
  | none => (0, inet.left6 text dst)

/-- What is printed is read back, and it is made of digits and dots. -/
structure Inet.Lawful (inet : Inet) : Prop where
  pton4_ntop4 : ∀ addr, inet.pton4 (inet.ntop4 addr) = some addr
  ntop4_ne_nil : ∀ addr, inet.ntop4 addr ≠ []
  ntop4_bytes : ∀ addr, ∀ byte ∈ inet.ntop4 addr, isDigit 10 byte = true ∨ byte = 46#8

/-! ## Dotted quads -/

/-- At most three digits, with no zero in front. -/
def octet (text : Text) : Option (BitVec 8) :=
  if text ≠ [] ∧ text.length ≤ 3 ∧ text.all (isDigit 10) ∧
      (text.head? = some 48#8 → text.length = 1) ∧ digitsValue 10 text ≤ 255 then
    some (BitVec.ofNat 8 (digitsValue 10 text))
  else
    none

def dot : BitVec 8 := 46#8

def readQuad (text : Text) : Option (BitVec 32) :=
  match text.splitOnP fun byte => byte == dot with
  | [a, b, c, d] => do
      let a ← octet a
      let b ← octet b
      let c ← octet c
      let d ← octet d
      return ofLanes 8 4 fun index => [a, b, c, d].getD index 0#8
  | _ => none

def printOctet (byte : BitVec 8) : Text :=
  printNat 10 byte.toNat

def printQuad (addr : BitVec 32) : Text :=
  printOctet (lane 8 addr 0) ++ dot :: (printOctet (lane 8 addr 1) ++
    dot :: (printOctet (lane 8 addr 2) ++ dot :: printOctet (lane 8 addr 3)))

/-- A library that knows the addresses of IPv4. -/
def quadInet : Inet where
  pton4 := readQuad
  left4 := fun _ dst => dst
  pton6 := fun _ => none
  left6 := fun _ dst => dst
  ntop4 := printQuad

theorem octet_printOctet (byte : BitVec 8) : octet (printOctet byte) = some byte := by
  have all : ∀ value < 256, octet (printNat 10 value) = some (BitVec.ofNat 8 value) := by
    decide +kernel
  exact (all byte.toNat byte.isLt).trans (congrArg some (BitVec.ofNat_toNat 8 byte))

theorem printOctet_noDot (byte : BitVec 8) :
    ∀ other ∈ printOctet byte, (other == dot) = false := by
  intro other member
  have digit := printNat_digits (by decide) (by decide) byte.toNat other member
  rw [beq_eq_false_iff_ne]
  rintro rfl
  exact absurd digit (by decide)

theorem splitOnP_printQuad (addr : BitVec 32) :
    (printQuad addr).splitOnP (fun byte => byte == dot) =
      [printOctet (lane 8 addr 0), printOctet (lane 8 addr 1), printOctet (lane 8 addr 2),
        printOctet (lane 8 addr 3)] := by
  have cut : ∀ (byte : BitVec 8) (rest : Text),
      (printOctet byte ++ dot :: rest).splitOnP (fun byte => byte == dot) =
        printOctet byte :: rest.splitOnP (fun byte => byte == dot) := fun byte rest =>
    List.splitOnP_append_cons_of_forall_mem (printOctet_noDot byte) dot (by decide) rest
  rw [printQuad, cut, cut, cut, List.splitOnP_eq_singleton (printOctet_noDot _)]

theorem quadInet_lawful : quadInet.Lawful where
  pton4_ntop4 := by
    intro addr
    change readQuad (printQuad addr) = some addr
    rw [readQuad, splitOnP_printQuad]
    simp only [octet_printOctet]
    refine congrArg some (ext_lanes 8 4 _ _ ?_)
    intro index inside
    rw [lane_ofLanes 8 4 _ index inside]
    interval_cases index
    · rfl
    · rfl
    · rfl
    · rfl
  ntop4_ne_nil := by
    intro addr empty
    have noQuad := congrArg List.length empty
    change (printQuad addr).length = 0 at noQuad
    rw [printQuad, List.length_append, List.length_cons] at noQuad
    omega
  ntop4_bytes := by
    intro addr byte member
    have digits : ∀ part, byte ∈ printOctet part → isDigit 10 byte = true := fun part inside =>
      printNat_digits (by decide) (by decide) part.toNat byte inside
    change byte ∈ printQuad addr at member
    simp only [printQuad, List.mem_append, List.mem_cons] at member
    rcases member with first | isDot | second | isDot | third | isDot | fourth
    · exact .inl (digits _ first)
    · exact .inr isDot
    · exact .inl (digits _ second)
    · exact .inr isDot
    · exact .inl (digits _ third)
    · exact .inr isDot
    · exact .inl (digits _ fourth)

end PacketForwarding.L3fwd
