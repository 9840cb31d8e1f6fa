/-!
# Faults of URLs

Why a text is no absolute URL.
-/

namespace MetricsQuery.Url

inductive Fault where
  | noScheme
  | emptyHost
  | badPort
  | badIpv4
  | badIpv6
  | badDomain
  | badHostCharacter
  deriving DecidableEq, Repr

def Fault.message : Fault → String
  | noScheme => "relative URL without a base"
  | emptyHost => "empty host"
  | badPort => "invalid port number"
  | badIpv4 => "invalid IPv4 address"
  | badIpv6 => "invalid IPv6 address"
  | badDomain => "invalid international domain name"
  | badHostCharacter => "invalid domain character"

end MetricsQuery.Url
