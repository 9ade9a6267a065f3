import Mathlib.Data.List.Nodup
import MuduoRpc.Lib.Table
import MuduoRpc.Lib.Transition
import MuduoRpc.Net.InetAddress

/-!
The names of a client's connections: the name of the client, the address of the peer
and a number. Address and number are formatted into 32 bytes, which an IPv6 address
fills without the number.
-/

namespace MuduoRpc.TcpClient

open Decimal

/-- What `newConnection` makes a name from. `given` are the connections so far, each by
its peer and its name. -/
structure Naming where
  name_ : List Char
  nxtconnid_ : BitVec 32
  given : List (InetAddress × List Char)

namespace Naming

def new (name : List Char) : Naming := ⟨name, 1, []⟩

def connname (s : Naming) (peerAddr : InetAddress) (id : BitVec 32) : List Char :=
  s.name_ ++ snprintf 32 (peerAddr.Ip_Port_to_string ++ '#' :: decimal id.toInt)

/-- The names that `TcpClient::newConnection` gives; `peerAddr` is what `getPeerAddr`
returns for the descriptor. -/
def newConnection (s : Naming) (peerAddr : InetAddress) : Naming :=
  { s with
    nxtconnid_ := s.nxtconnid_ + 1
    given := s.given ++ [(peerAddr, s.connname peerAddr s.nxtconnid_)] }

def system : Transition.System Naming InetAddress where
  init s := ∃ name, s = new name
  next s peerAddr := some (s.newConnection peerAddr)

/-- No two connections have the same name, and each name ends in the whole number of its
connection. -/
structure Distinguished (s : Naming) : Prop where
  distinct : (s.given.map Prod.snd).Nodup
  whole : ∀ serial conn, s.given[serial]? = some conn →
    '#' :: decimal (serial + 1 : Nat) <:+ conn.2

/-- The text of the peer and the number leave room for the separator and the terminator. -/
def Fits (s : Naming) : Prop :=
  ∀ serial conn, s.given[serial]? = some conn →
    conn.1.Ip_Port_to_string.length + (decimal (serial + 1 : Nat)).length ≤ 30

/-- The connections as they are numbered. -/
structure Numbered (s : Naming) : Prop where
  next : s.nxtconnid_ = BitVec.ofNat 32 (s.given.length + 1)
  names : ∀ serial conn, s.given[serial]? = some conn →
    conn.2 = s.connname conn.1 (BitVec.ofNat 32 (serial + 1))

variable {s : Naming}

theorem Numbered.newConnection (h : Numbered s) (peerAddr : InetAddress) :
    Numbered (s.newConnection peerAddr) where
  next := by
    simp only [Naming.newConnection, h.next, List.length_append, List.length_singleton]
    exact (BitVec.ofNat_add (s.given.length + 1) 1).symm
  names serial conn hserial := by
    rcases Table.getElem?_concat_eq_some hserial with hold | ⟨rfl, rfl⟩
    · exact h.names serial conn hold
    · rw [← h.next]
      rfl

theorem numbered (h : system.Reachable s) : Numbered s := by
  apply h.invariant (I := Numbered)
  · rintro _ ⟨name, rfl⟩
    refine ⟨rfl, fun serial conn hserial => ?_⟩
    cases hserial
  · intro s peerAddr s' hi _ hnext
    cases hnext
    exact hi.newConnection peerAddr

/-- What `inet_ntop` writes has no separator in it. -/
theorem separator_not_mem {peerAddr : InetAddress} (hip : '#' ∉ peerAddr.ip) :
    '#' ∉ peerAddr.Ip_Port_to_string :=
  InetAddress.not_mem_Ip_Port_to_string hip (by decide) (by decide)

theorem suffix_connname_iff {peerAddr : InetAddress} (hip : '#' ∉ peerAddr.ip) {id : Nat}
    (hid : id < 2 ^ 31) :
    '#' :: decimal id <:+ s.connname peerAddr (BitVec.ofNat 32 id) ↔
      peerAddr.Ip_Port_to_string.length + (decimal id).length ≤ 30 := by
  have hdigits := length_decimal_of_int hid
  rw [connname, toInt_ofNat_of_lt hid,
    suffix_snprintf_iff (separator_not_mem hip) (by omega), List.length_append, List.length_cons]
  omega

/-- The number of a connection can be told from a whole name, whatever the peers are. -/
theorem connname_injective {peerAddr peerAddr' : InetAddress} (hip : '#' ∉ peerAddr.ip)
    {id id' : Nat} (hid : id < 2 ^ 31) (hid' : id' < 2 ^ 31)
    (hfits : peerAddr.Ip_Port_to_string.length + (decimal id).length ≤ 30)
    (hfits' : peerAddr'.Ip_Port_to_string.length + (decimal id').length ≤ 30)
    (hsame : s.connname peerAddr (BitVec.ofNat 32 id) =
      s.connname peerAddr' (BitVec.ofNat 32 id')) : id = id' := by
  have hshort {text : List Char} {n : Nat} (h : text.length + (decimal n).length ≤ 30) :
      snprintf 32 (text ++ '#' :: decimal n) = text ++ '#' :: decimal n := by
    apply snprintf_of_fits
    rw [List.length_append, List.length_cons]
    omega
  rw [connname, connname, toInt_ofNat_of_lt hid, toInt_ofNat_of_lt hid', hshort hfits,
    hshort hfits', List.append_right_inj,
    List.append_cons_inj_of_notMem (separator_not_mem hip) (not_mem_decimal (by decide) id)] at hsame
  exact Int.ofNat.inj (decimal_injective hsame.2.2)

/-- The names of fewer than 2^31 connections are told apart by their numbers exactly if
every peer leaves room for the number. -/
theorem distinguished_iff (h : system.Reachable s) (hfew : s.given.length < 2 ^ 31)
    (hip : ∀ conn ∈ s.given, '#' ∉ conn.1.ip) : Distinguished s ↔ Fits s := by
  have hnumbered := numbered h
  have hid {serial : Nat} {conn : InetAddress × List Char} (hserial : s.given[serial]? = some conn) :
      serial + 1 < 2 ^ 31 := by
    have hbound := (List.getElem?_eq_some_iff.mp hserial).1
    omega
  have hsuffix {serial : Nat} {conn : InetAddress × List Char}
      (hserial : s.given[serial]? = some conn) :
      '#' :: decimal (serial + 1 : Nat) <:+ conn.2 ↔
        conn.1.Ip_Port_to_string.length + (decimal (serial + 1 : Nat)).length ≤ 30 := by
    rw [hnumbered.names serial conn hserial]
    exact suffix_connname_iff (hip conn (List.mem_of_getElem? hserial)) (hid hserial)
  constructor
  · intro hdistinguished serial conn hserial
    exact (hsuffix hserial).mp (hdistinguished.whole serial conn hserial)
  · intro hfits
    refine ⟨?_, fun serial conn hserial => (hsuffix hserial).mpr (hfits serial conn hserial)⟩
    rw [List.nodup_iff_getElem?_ne_getElem?]
    intro i j hij hj hsame
    rw [List.length_map] at hj
    have hconn : s.given[i]? = some s.given[i] := List.getElem?_eq_getElem (by omega)
    have hconn' : s.given[j]? = some s.given[j] := List.getElem?_eq_getElem hj
    rw [List.getElem?_map, List.getElem?_map, hconn, hconn', Option.map_some, Option.map_some,
      Option.some.injEq, hnumbered.names i _ hconn, hnumbered.names j _ hconn'] at hsame
    have hids := connname_injective (hip _ (List.mem_of_getElem? hconn)) (hid hconn) (hid hconn')
      (hfits i _ hconn) (hfits j _ hconn') hsame
    omega

/-- Two connections to an IPv4 peer. -/
theorem distinguished_iff_ipv4 : ∃ s, system.Reachable s ∧
    s.given.map Prod.snd = ["c10.0.0.1:80#1".toList, "c10.0.0.1:80#2".toList] ∧
    (Distinguished s ↔ Fits s) := by
  obtain ⟨s, hreach, hnames, hfew, hip⟩ : ∃ s, system.Reachable s ∧
      s.given.map Prod.snd = ["c10.0.0.1:80#1".toList, "c10.0.0.1:80#2".toList] ∧
      s.given.length < 2 ^ 31 ∧ ∀ conn ∈ s.given, '#' ∉ conn.1.ip :=
    Transition.System.exists_of_exec _ (new "c".toList)
      [⟨.AF_INET, "10.0.0.1".toList, 0x5000⟩, ⟨.AF_INET, "10.0.0.1".toList, 0x5000⟩]
      ⟨"c".toList, rfl⟩ (by decide)
  exact ⟨s, hreach, hnames, distinguished_iff hreach hfew hip⟩

/-- Two connections to an IPv6 peer have the same name, which is cut off in the address. -/
theorem long_peer_not_distinguished : ∃ s, system.Reachable s ∧
    s.given.map Prod.snd = ["c[2001:db8:85a3:8d3:1319:8a2e:37".toList,
      "c[2001:db8:85a3:8d3:1319:8a2e:37".toList] ∧ ¬Distinguished s := by
  obtain ⟨s, hreach, hnames⟩ : ∃ s, system.Reachable s ∧
      s.given.map Prod.snd = ["c[2001:db8:85a3:8d3:1319:8a2e:37".toList,
        "c[2001:db8:85a3:8d3:1319:8a2e:37".toList] :=
    Transition.System.exists_of_exec _ (new "c".toList)
      [⟨.AF_INET6, "2001:db8:85a3:8d3:1319:8a2e:370:7348".toList, 0x5000⟩,
        ⟨.AF_INET6, "2001:db8:85a3:8d3:1319:8a2e:370:7348".toList, 0x5000⟩]
      ⟨"c".toList, rfl⟩ (by decide)
  refine ⟨s, hreach, hnames, fun hdistinguished => ?_⟩
  have hdistinct := hdistinguished.distinct
  rw [hnames] at hdistinct
  simp at hdistinct

end Naming

end MuduoRpc.TcpClient
