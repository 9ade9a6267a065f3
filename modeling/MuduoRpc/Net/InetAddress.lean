import MuduoRpc.Lib.Decimal
import MuduoRpc.Net.Endian

/-!
`Inet_address` and its text. What `inet_ntop` writes for the address is taken
as given; the port is stored in network byte order.
-/

namespace MuduoRpc

inductive InetAddress.Family
  | AF_INET
  | AF_INET6
deriving DecidableEq, Repr

/-- `ip` is the text of the address, and `sin_port` the 16 bits as stored. -/
structure InetAddress where
  sa_family : InetAddress.Family
  ip : List Char
  sin_port : Nat
deriving DecidableEq, Repr

namespace InetAddress

open Decimal

def portNetEndian (addr : InetAddress) : Nat := addr.sin_port

def port (addr : InetAddress) : Nat := Endian.net_to_host_16 addr.portNetEndian

/-- `buf` has `size` bytes. The port is printed behind the address. -/
def toIpPort (size : Nat) (addr : InetAddress) : List Char :=
  match addr.sa_family with
  | .AF_INET6 =>
      let buf := '[' :: addr.ip
      buf ++ snprintf (size - buf.length) (']' :: ':' :: decimal addr.port)
  | .AF_INET => addr.ip ++ snprintf (size - addr.ip.length) (':' :: decimal addr.port)

def Ip_Port_to_string (addr : InetAddress) : List Char := toIpPort 64 addr

/-- The text of an address as it stands in front of a port. -/
def Family.enclose (text : List Char) : Family → List Char
  | .AF_INET => text
  | .AF_INET6 => '[' :: text ++ [']']

theorem port_lt (addr : InetAddress) : addr.port < 65536 := by
  have hbound := Endian.ofMemory_lt (Endian.toMemory 2 addr.sin_port).reverse
  rw [List.length_reverse, Endian.length_toMemory] at hbound
  exact hbound

theorem length_decimal_port (addr : InetAddress) : (decimal addr.port).length ≤ 5 := by
  have hport := addr.port_lt
  apply length_decimal_le (by decide)
  omega

/-- The 64 bytes hold the longest text of an address with its port. -/
theorem Ip_Port_to_string_eq {addr : InetAddress} (h : addr.ip.length ≤ 45) :
    addr.Ip_Port_to_string = addr.sa_family.enclose addr.ip ++ ':' :: decimal addr.port := by
  have hport := addr.length_decimal_port
  rcases addr with ⟨family, ip, sin_port⟩
  have hip : ip.length ≤ 45 := h
  cases family with
  | AF_INET =>
      change ip ++ snprintf (64 - ip.length) _ = _
      rw [snprintf_of_fits (by rw [List.length_cons]; omega)]
      rfl
  | AF_INET6 =>
      change ('[' :: ip) ++ snprintf (64 - ('[' :: ip).length) _ = _
      rw [snprintf_of_fits (by simp only [List.length_cons]; omega), Family.enclose,
        List.append_assoc]
      rfl

/-- The text has no characters but those of the address, brackets, colons and digits. -/
theorem not_mem_Ip_Port_to_string {addr : InetAddress} {c : Char} (hip : c ∉ addr.ip)
    (hc : c ∉ ['[', ']', ':']) (hdigit : c.isDigit = false) : c ∉ addr.Ip_Port_to_string := by
  have hport := not_mem_decimal hdigit addr.port
  simp only [List.mem_cons, List.not_mem_nil, or_false, not_or] at hc
  obtain ⟨hopen, hclose, hcolon⟩ := hc
  intro hmem
  rw [Ip_Port_to_string, toIpPort] at hmem
  cases hfamily : addr.sa_family with
  | AF_INET =>
      simp only [hfamily] at hmem
      rcases List.mem_append.mp hmem with hmem | hmem
      · exact hip hmem
      · have hfull := List.mem_of_mem_take hmem
        simp [hcolon, hport] at hfull
  | AF_INET6 =>
      simp only [hfamily] at hmem
      rcases List.mem_append.mp hmem with hmem | hmem
      · simp [hopen, hip] at hmem
      · have hfull := List.mem_of_mem_take hmem
        simp [hclose, hcolon, hport] at hfull

/-- Two brackets, a colon and five digits around the address. -/
theorem length_Ip_Port_to_string (addr : InetAddress) :
    addr.Ip_Port_to_string.length ≤ addr.ip.length + 8 := by
  have hport := addr.length_decimal_port
  rw [Ip_Port_to_string, toIpPort]
  split <;> simp only [snprintf, List.length_append, List.length_cons, List.length_take] <;> omega

end InetAddress

end MuduoRpc
