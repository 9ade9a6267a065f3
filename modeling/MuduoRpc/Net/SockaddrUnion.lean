import MuduoRpc.Lib.Slice
import MuduoRpc.Net.InetAddress

/-!
The memory of `Inet_address`: 28 bytes in which a `sockaddr_in` and a `sockaddr_in6`
overlap. The port lies at the same place in both and is stored in network byte order,
except by the constructor of an IPv6 address from a port, which swaps it as a 32-bit
integer and keeps the low half.
-/

namespace MuduoRpc

open Slice Endian Decimal

namespace InetAddress.Family

def number : Family → Nat
  | .AF_INET => 2
  | .AF_INET6 => 10

/-- The size of an address and where it lies in the structure of the family. -/
def size : Family → Nat
  | .AF_INET => 4
  | .AF_INET6 => 16

def offset : Family → Nat
  | .AF_INET => 4
  | .AF_INET6 => 8

def sockaddrSize : Family → Nat
  | .AF_INET => 16
  | .AF_INET6 => 28

/-- `INET_ADDRSTRLEN` and `INET6_ADDRSTRLEN`. -/
def addrstrlen : Family → Nat
  | .AF_INET => 16
  | .AF_INET6 => 46

theorem offset_add_size_le (family : Family) : family.offset + family.size ≤ 28 := by
  cases family <;> decide

end InetAddress.Family

open InetAddress (Family)

/-- The bytes of an address in network order. -/
def Address (family : Family) : Type := { bytes : List UInt8 // bytes.length = family.size }

namespace Address

def zero (family : Family) : Address family :=
  ⟨List.replicate family.size 0, List.length_replicate⟩

/-- An `s_addr` as the host stores it. -/
def ofNat (s_addr : Nat) : Address .AF_INET := ⟨toMemory 4 s_addr, length_toMemory 4 s_addr⟩

def in6addr_loopback : Address .AF_INET6 := ⟨List.replicate 15 0 ++ [1], rfl⟩

end Address

/-- The conversions of the C library. -/
structure Resolver where
  inet_pton : (family : Family) → List Char → Option (Address family)
  inet_ntop : (family : Family) → Address family → List Char

/-- The text of an address and its terminator take at most the documented length. -/
structure Resolver.Lawful (r : Resolver) : Prop where
  length_lt : ∀ family address, (r.inet_ntop family address).length < family.addrstrlen

structure SockaddrUnion where
  bytes : List UInt8
  size : bytes.length = 28

namespace SockaddrUnion

def field (a : SockaddrUnion) (offset size : Nat) : List UInt8 :=
  a.bytes.extract offset (offset + size)

def store (a : SockaddrUnion) (offset : Nat) (data : List UInt8) (h : offset + data.length ≤ 28) :
    SockaddrUnion where
  bytes := overwrite a.bytes offset data
  size := by rw [length_overwrite (by rw [a.size]; exact h), a.size]

def family_4 (a : SockaddrUnion) : Nat := ofMemory (a.field 0 2)

def portNetEndian (a : SockaddrUnion) : Nat := ofMemory (a.field 2 2)

def port (a : SockaddrUnion) : Nat := net_to_host_16 a.portNetEndian

def address (a : SockaddrUnion) (family : Family) : Address family :=
  ⟨a.field family.offset family.size, by
    rw [field, length_extract (by rw [a.size]; exact family.offset_add_size_le),
      Nat.add_sub_cancel_left]⟩

/-- `memset` of the structure of the family. -/
def memset (a : SockaddrUnion) (family : Family) : SockaddrUnion :=
  a.store 0 (List.replicate family.sockaddrSize 0) (by cases family <;> simp [Family.sockaddrSize])

def setFamily (a : SockaddrUnion) (family : Family) : SockaddrUnion :=
  a.store 0 (toMemory 2 family.number) (by simp)

/-- The assignment of an integer keeps 16 bits of it. -/
def setPort (a : SockaddrUnion) (port : Nat) : SockaddrUnion :=
  a.store 2 (toMemory 2 port) (by simp)

def setAddress (a : SockaddrUnion) {family : Family} (address : Address family) : SockaddrUnion :=
  a.store family.offset address.val (by rw [address.property]; exact family.offset_add_size_le)

/-- `Inet_address(port, Loopbackonly, ipv6)`, in memory that holds anything. -/
def ofPort (a : SockaddrUnion) (port : UInt16) (Loopbackonly ipv6 : Bool) : SockaddrUnion :=
  if ipv6 then
    let a := (a.memset .AF_INET6).setFamily .AF_INET6
    let a := a.setAddress (if Loopbackonly then Address.in6addr_loopback else .zero .AF_INET6)
    a.setPort (host_to_net_32 port.toNat)
  else
    let a := (a.memset .AF_INET).setFamily .AF_INET
    let ip := if Loopbackonly then 0x7f000001 else 0
    let a := a.setAddress (Address.ofNat (host_to_net_32 ip))
    a.setPort (host_to_net_16 port.toNat)

/-- `socketops::fromIpPort` for the structure of the family; a text that is no address
is logged. -/
def fromIpPort (r : Resolver) (family : Family) (ip : List Char) (port : UInt16)
    (a : SockaddrUnion) : SockaddrUnion :=
  let a := (a.setFamily family).setPort (host_to_net_16 port.toNat)
  match r.inet_pton family ip with
  | some address => a.setAddress address
  | none => a

/-- `Inet_address(ip, port, Loopbackonly, ipv6)`, which ignores its third argument. -/
def ofText (r : Resolver) (a : SockaddrUnion) (ip : List Char) (port : UInt16)
    (_Loopbackonly ipv6 : Bool) : SockaddrUnion :=
  if ipv6 || ip.contains ':' then
    fromIpPort r .AF_INET6 ip port ((a.memset .AF_INET6).setFamily .AF_INET6)
  else
    fromIpPort r .AF_INET ip port ((a.memset .AF_INET).setFamily .AF_INET)

/-- `inet_ntop` into a buffer that is zero before. -/
def writeIp (r : Resolver) (family : Family) (size : Nat) (a : SockaddrUnion) :
    Option (List Char) :=
  if family.addrstrlen ≤ size then
    let text := r.inet_ntop family (a.address family)
    some (if text.length < size then text else [])
  else none

def toIp (r : Resolver) (size : Nat) (a : SockaddrUnion) : Option (List Char) :=
  if a.family_4 = Family.AF_INET.number then a.writeIp r .AF_INET size
  else if a.family_4 = Family.AF_INET6.number then a.writeIp r .AF_INET6 size
  else some []

def toIpPort (r : Resolver) (size : Nat) (a : SockaddrUnion) : Option (List Char) :=
  if a.family_4 = Family.AF_INET6.number then do
    let ip ← a.toIp r (size - 1)
    let buf := '[' :: ip
    if buf.length < size then
      some (buf ++ snprintf (size - buf.length) (']' :: ':' :: decimal a.port))
    else none
  else do
    let buf ← a.toIp r size
    if buf.length < size then
      some (buf ++ snprintf (size - buf.length) (':' :: decimal a.port))
    else none

def Ip_Port_to_string (r : Resolver) (a : SockaddrUnion) : Option (List Char) := a.toIpPort r 64

section Fields

variable {a : SockaddrUnion} {family : Family}

theorem field_store_self {offset n : Nat} {data : List UInt8} (h : offset + data.length ≤ 28)
    (hn : data.length = n) : (a.store offset data h).field offset n = data := by
  subst hn
  exact extract_overwrite_same (by rw [a.size]; omega)

theorem field_store_apart {offset i n : Nat} {data : List UInt8} (h : offset + data.length ≤ 28)
    (happart : i + n ≤ offset ∨ offset + data.length ≤ i) :
    (a.store offset data h).field i n = a.field i n := by
  have hoffset : offset ≤ a.bytes.length := by
    rw [a.size]
    omega
  rcases happart with hbefore | hafter
  · exact extract_overwrite_before hbefore hoffset
  · exact extract_overwrite_after hafter hoffset

@[simp] theorem family_4_setFamily : (a.setFamily family).family_4 = family.number := by
  rw [family_4, setFamily, field_store_self _ (length_toMemory 2 family.number), ofMemory_toMemory]
  cases family <;> rfl

@[simp] theorem family_4_setPort (port : Nat) : (a.setPort port).family_4 = a.family_4 :=
  congrArg ofMemory (field_store_apart _ (.inl (Nat.le_refl 2)))

@[simp] theorem family_4_setAddress (address : Address family) :
    (a.setAddress address).family_4 = a.family_4 :=
  congrArg ofMemory (field_store_apart _ (.inl (by cases family <;> decide)))

@[simp] theorem port_setPort (port : Nat) : (a.setPort port).field 2 2 = toMemory 2 port :=
  field_store_self _ (length_toMemory 2 port)

@[simp] theorem port_setAddress (address : Address family) :
    (a.setAddress address).field 2 2 = a.field 2 2 :=
  field_store_apart _ (.inl (by cases family <;> decide))

@[simp] theorem address_setAddress (address : Address family) :
    (a.setAddress address).address family = address :=
  Subtype.ext (field_store_self _ address.property)

/-- The family and the port lie in front of both addresses. -/
theorem address_store_head {offset : Nat} {data : List UInt8} (h : offset + data.length ≤ 28)
    (hhead : offset + data.length ≤ 4) :
    (a.store offset data h).address family = a.address family := by
  apply Subtype.ext
  exact field_store_apart h (.inr (Nat.le_trans hhead (by cases family <;> decide)))

@[simp] theorem address_setPort (port : Nat) :
    (a.setPort port).address family = a.address family :=
  address_store_head _ (by simp)

@[simp] theorem address_setFamily (other : Family) :
    (a.setFamily other).address family = a.address family :=
  address_store_head _ (by simp)

@[simp] theorem address_memset : (a.memset family).address family = .zero family := by
  have hin : family.offset + family.size ≤
      (List.replicate family.sockaddrSize (0 : UInt8)).length := by
    cases family <;> decide
  apply Subtype.ext
  change (overwrite a.bytes 0 (List.replicate family.sockaddrSize 0)).extract family.offset
    (family.offset + family.size) = List.replicate family.size 0
  rw [overwrite, List.take_zero, List.nil_append, extract_append_left hin]
  cases family <;> rfl

/-- The low half of a port that is swapped as a 32-bit integer. -/
theorem toMemory_host_to_net_32 (port : UInt16) :
    toMemory 2 (host_to_net_32 port.toNat) = [0, 0] := by
  have hport := port.toNat_lt
  have hhigh : port.toNat / 256 / 256 = 0 := by omega
  have hswapped : host_to_net_32 port.toNat % 256 ^ 2 = 0 := by
    simp only [host_to_net_32, bswap, toMemory, hhigh, List.reverse_cons, List.reverse_nil,
      List.nil_append, List.cons_append, ofMemory, Nat.zero_div]
    simp
    omega
  rw [← toMemory_mod, hswapped]
  rfl

/-- What the text of the address is made of. -/
def view (r : Resolver) (a : SockaddrUnion) (family : Family) : InetAddress where
  sa_family := family
  ip := r.inet_ntop family (a.address family)
  sin_port := a.portNetEndian

theorem writeIp_eq {r : Resolver} (hr : r.Lawful) {size : Nat} (hsize : family.addrstrlen ≤ size) :
    a.writeIp r family size = some (r.inet_ntop family (a.address family)) := by
  have hfits := Nat.lt_of_lt_of_le (hr.length_lt family (a.address family)) hsize
  simp only [writeIp, if_pos hsize, if_pos hfits]

/-- The 64 bytes are enough for the assertions and for `inet_ntop`. -/
theorem Ip_Port_to_string_view {r : Resolver} (hr : r.Lawful) (h : a.family_4 = family.number) :
    a.Ip_Port_to_string r = some (a.view r family).Ip_Port_to_string := by
  have hlength := hr.length_lt family (a.address family)
  cases family with
  | AF_INET =>
      have hother : a.family_4 ≠ Family.AF_INET6.number := by
        rw [h]
        decide
      have hroom : (r.inet_ntop .AF_INET (a.address .AF_INET)).length < 64 :=
        Nat.lt_trans hlength (by decide)
      simp only [Ip_Port_to_string, toIpPort, if_neg hother, toIp, if_pos h,
        writeIp_eq hr (show Family.AF_INET.addrstrlen ≤ 64 by decide), Option.bind_eq_bind,
        Option.bind_some, if_pos hroom]
      rfl
  | AF_INET6 =>
      have hother : a.family_4 ≠ Family.AF_INET.number := by
        rw [h]
        decide
      have hroom : ('[' :: r.inet_ntop .AF_INET6 (a.address .AF_INET6)).length < 64 :=
        Nat.lt_of_le_of_lt hlength (by decide)
      simp only [Ip_Port_to_string, toIpPort, if_pos h, toIp, if_neg hother,
        writeIp_eq hr (show Family.AF_INET6.addrstrlen ≤ 64 - 1 by decide), Option.bind_eq_bind,
        Option.bind_some, if_pos hroom]
      rfl

end Fields

/-- The ways to build an `Inet_address`. -/
inductive Construction
  | ofPort (port : UInt16) (Loopbackonly ipv6 : Bool)
  | ofText (ip : List Char) (port : UInt16) (Loopbackonly ipv6 : Bool)
deriving DecidableEq

namespace Construction

def build (r : Resolver) (a : SockaddrUnion) : Construction → SockaddrUnion
  | .ofPort port Loopbackonly ipv6 => a.ofPort port Loopbackonly ipv6
  | .ofText ip port Loopbackonly ipv6 => SockaddrUnion.ofText r a ip port Loopbackonly ipv6

def port : Construction → UInt16
  | .ofPort port _ _ | .ofText _ port _ _ => port

def family : Construction → Family
  | .ofPort _ _ ipv6 => if ipv6 then .AF_INET6 else .AF_INET
  | .ofText ip _ _ ipv6 => if ipv6 || ip.contains ':' then .AF_INET6 else .AF_INET

/-- The text of the address that is asked for; what is no address stands for zero. -/
def ip (r : Resolver) : Construction → List Char
  | .ofPort _ Loopbackonly true =>
      r.inet_ntop .AF_INET6 (if Loopbackonly then Address.in6addr_loopback else .zero .AF_INET6)
  | .ofPort _ Loopbackonly false =>
      r.inet_ntop .AF_INET (if Loopbackonly then ⟨[127, 0, 0, 1], rfl⟩ else .zero .AF_INET)
  | .ofText ip _ _ ipv6 =>
      if ipv6 || ip.contains ':' then
        r.inet_ntop .AF_INET6 ((r.inet_pton .AF_INET6 ip).getD (.zero .AF_INET6))
      else r.inet_ntop .AF_INET ((r.inet_pton .AF_INET ip).getD (.zero .AF_INET))

/-- The constructor that swaps the port as a 32-bit integer. -/
def swapsLong : Construction → Bool
  | .ofPort _ _ ipv6 => ipv6
  | .ofText _ _ _ _ => false

/-- The address has the port that it was built with. -/
structure Agrees (how : Construction) (r : Resolver) (a : SockaddrUnion) : Prop where
  port : a.port = how.port.toNat
  portNetEndian : toMemory 2 a.portNetEndian = bigEndian 2 how.port.toNat
  text : a.Ip_Port_to_string r =
    some (how.family.enclose (how.ip r) ++ ':' :: decimal how.port.toNat)

theorem family_build (r : Resolver) (a : SockaddrUnion) (how : Construction) :
    (how.build r a).family_4 = how.family.number := by
  cases how with
  | ofPort port Loopbackonly ipv6 => cases ipv6 <;> simp [build, SockaddrUnion.ofPort, family]
  | ofText ip port Loopbackonly ipv6 =>
      simp only [build, SockaddrUnion.ofText, fromIpPort, family]
      split_ifs <;> split <;> simp

theorem port_build (r : Resolver) (a : SockaddrUnion) (how : Construction) :
    (how.build r a).field 2 2 =
      if how.swapsLong then [0, 0] else bigEndian 2 how.port.toNat := by
  cases how with
  | ofPort port Loopbackonly ipv6 =>
      cases ipv6
      · simp [build, SockaddrUnion.ofPort, swapsLong, Construction.port, host_to_net_16,
          toMemory_bswap]
      · simp [build, SockaddrUnion.ofPort, swapsLong, toMemory_host_to_net_32]
  | ofText ip port Loopbackonly ipv6 =>
      simp only [build, SockaddrUnion.ofText, fromIpPort, swapsLong, Construction.port]
      split_ifs <;> split <;> simp_all [host_to_net_16, toMemory_bswap]

theorem fromIpPort_address (r : Resolver) (a : SockaddrUnion) (family : Family) (ip : List Char)
    (port : UInt16) : (fromIpPort r family ip port ((a.memset family).setFamily family)).address
      family = (r.inet_pton family ip).getD (.zero family) := by
  cases hpton : r.inet_pton family ip <;> simp [fromIpPort, hpton]

theorem ip_build (r : Resolver) (a : SockaddrUnion) (how : Construction) :
    r.inet_ntop how.family ((how.build r a).address how.family) = how.ip r := by
  cases how with
  | ofPort port Loopbackonly ipv6 =>
      cases ipv6 with
      | false =>
          have hstored : Address.ofNat (host_to_net_32 (if Loopbackonly then 0x7f000001 else 0)) =
              if Loopbackonly then ⟨[127, 0, 0, 1], rfl⟩ else .zero .AF_INET := by
            cases Loopbackonly <;> rfl
          change r.inet_ntop .AF_INET _ = r.inet_ntop .AF_INET _
          rw [← hstored]
          exact congrArg _ ((address_setPort _).trans (address_setAddress _))
      | true =>
          change r.inet_ntop .AF_INET6 _ = r.inet_ntop .AF_INET6 _
          exact congrArg _ ((address_setPort _).trans (address_setAddress _))
  | ofText ip port Loopbackonly ipv6 =>
      cases hsix : ipv6 || ip.contains ':' with
      | true =>
          have hfamily : (ofText ip port Loopbackonly ipv6).family = .AF_INET6 := if_pos hsix
          have hbuild : (ofText ip port Loopbackonly ipv6).build r a =
              fromIpPort r .AF_INET6 ip port ((a.memset .AF_INET6).setFamily .AF_INET6) :=
            if_pos hsix
          rw [hfamily, hbuild, fromIpPort_address]
          exact (if_pos hsix).symm
      | false =>
          have hfour : ¬(ipv6 || ip.contains ':') = true := by
            rw [hsix]
            exact Bool.false_ne_true
          have hfamily : (ofText ip port Loopbackonly ipv6).family = .AF_INET := if_neg hfour
          have hbuild : (ofText ip port Loopbackonly ipv6).build r a =
              fromIpPort r .AF_INET ip port ((a.memset .AF_INET).setFamily .AF_INET) :=
            if_neg hfour
          rw [hfamily, hbuild, fromIpPort_address]
          exact (if_neg hfour).symm

/-- A port in network order is read back and printed as it is. -/
theorem agrees_of_port {r : Resolver} (hr : r.Lawful) {a : SockaddrUnion} {how : Construction}
    (hport : (how.build r a).field 2 2 = bigEndian 2 how.port.toNat) :
    how.Agrees r (how.build r a) := by
  have hbound := how.port.toNat_lt
  have hread : (how.build r a).port = how.port.toNat := by
    have hmemory := toMemory_ofMemory (bigEndian 2 how.port.toNat)
    rw [length_bigEndian] at hmemory
    rw [SockaddrUnion.port, portNetEndian, hport, net_to_host_16, bswap, hmemory, bigEndian,
      List.reverse_reverse, ofMemory_toMemory]
    exact Nat.mod_eq_of_lt hbound
  have hip : (how.ip r).length ≤ 45 := by
    have hlength := hr.length_lt how.family ((how.build r a).address how.family)
    rw [ip_build] at hlength
    have hlong : how.family.addrstrlen ≤ 46 := by cases how.family <;> decide
    omega
  refine ⟨hread, ?_, ?_⟩
  · have hmemory := toMemory_ofMemory (bigEndian 2 how.port.toNat)
    rw [length_bigEndian] at hmemory
    rw [portNetEndian, hport, hmemory]
  · have hview : (how.build r a).view r how.family =
        ⟨how.family, how.ip r, (how.build r a).portNetEndian⟩ := by
      rw [view, ip_build]
    rw [Ip_Port_to_string_view hr (family_build r a how), hview,
      InetAddress.Ip_Port_to_string_eq hip, ← hread]
    rfl

/-- Every way to build an address agrees on the port, except for the IPv6 address built
from a port other than zero. -/
theorem agrees_iff {r : Resolver} (hr : r.Lawful) (a : SockaddrUnion) (how : Construction) :
    how.Agrees r (how.build r a) ↔ (how.swapsLong = true → how.port = 0) := by
  have hfield := port_build r a how
  constructor
  · intro hagrees hswaps
    rw [if_pos hswaps] at hfield
    have hzero : (how.build r a).port = 0 := by
      rw [SockaddrUnion.port, portNetEndian, hfield]
      rfl
    have hport := hagrees.port
    rw [hzero] at hport
    exact UInt16.toNat_inj.mp hport.symm
  · intro hport
    apply agrees_of_port hr
    rw [hfield]
    split_ifs with hswaps
    · rw [hport hswaps]
      rfl
    · rfl

/-- The library's conversions for three addresses. -/
def sample : Resolver where
  inet_pton family text :=
    match family with
    | .AF_INET => if text = "127.0.0.1".toList then some ⟨[127, 0, 0, 1], rfl⟩ else none
    | .AF_INET6 => none
  inet_ntop family address :=
    match family with
    | .AF_INET => if address.val = [127, 0, 0, 1] then "127.0.0.1".toList else "0.0.0.0".toList
    | .AF_INET6 => "::".toList

theorem sample_lawful : sample.Lawful where
  length_lt family address := by
    cases family with
    | AF_INET =>
        change (if address.val = [127, 0, 0, 1] then _ else _ : List Char).length < 16
        split_ifs <;> decide
    | AF_INET6 =>
        change "::".toList.length < 46
        decide

/-- `Inet_address("127.0.0.1", 8080)`, in memory full of ones. -/
theorem agrees_iff_text :
    let a : SockaddrUnion := ⟨List.replicate 28 1, rfl⟩
    (SockaddrUnion.ofText sample a "127.0.0.1".toList 8080 false false).Ip_Port_to_string sample =
      some "127.0.0.1:8080".toList := by
  intro a
  have hagrees := (agrees_iff sample_lawful a (.ofText "127.0.0.1".toList 8080 false false)).mpr
    (by decide)
  exact hagrees.text

/-- `Inet_address(8080, false, true)` has the port 0. -/
theorem ipv6_port_lost :
    let a : SockaddrUnion := ⟨List.replicate 28 0, rfl⟩
    let how := Construction.ofPort 8080 false true
    (how.build sample a).port = 0 ∧
      (how.build sample a).Ip_Port_to_string sample = some "[::]:0".toList ∧
      ¬how.Agrees sample (how.build sample a) := by
  refine ⟨by decide, by decide, fun hagrees => ?_⟩
  have hport := hagrees.port
  revert hport
  decide

end Construction

end SockaddrUnion

end MuduoRpc
