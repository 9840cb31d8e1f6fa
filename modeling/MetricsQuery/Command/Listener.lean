import MetricsQuery.Url.Address

/-!
# Socket addresses

An IPv4 address and a port, or an IPv6 address in brackets, which may name a scope, and a port.
Names of hosts are no socket addresses.
-/

namespace MetricsQuery

/-- Where to listen: the bytes of an IPv4 address or the pieces of an IPv6 address, and a port. -/
structure SocketAddress where
  host : List Nat
  port : Nat
  deriving DecidableEq, Repr

namespace SocketAddress

/-- A decimal number below a limit. -/
def number? (limit : Nat) (cs : List Char) : Option Nat :=
  if cs = [] then none else (Url.digitsIn? 10 cs).filter (· < limit)

/-- The port after a colon. -/
def port? : List Char → Option Nat
  | ':' :: cs => number? UInt16.size cs
  | _ => none

/-- An IPv6 address with or without a scope. -/
def scoped? (cs : List Char) : Option (List Nat) :=
  let address := cs.takeWhile (· != '%')
  match cs.drop address.length with
  | [] => Url.ipv6? address
  | _ :: scope => (number? UInt32.size scope).bind fun _ => Url.ipv6? address

def ofText? (s : String) : Option SocketAddress :=
  match s.toList with
  | '[' :: cs => do
    let inner := cs.takeWhile (· != ']')
    .some ⟨← scoped? inner, ← port? (cs.drop (inner.length + 1))⟩
  | cs => do
    let address := cs.takeWhile (· != ':')
    .some ⟨← Url.trailingIpv4? address, ← port? (cs.drop address.length)⟩

end SocketAddress

end MetricsQuery
