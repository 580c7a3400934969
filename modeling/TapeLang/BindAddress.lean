import TapeLang.Text.Numeral

/-!
Addresses a listener binds to. An address is a host and a port with a colon between them; the last
colon counts, square brackets around the host are dropped, and an address without a colon is a port
on every interface.
-/
namespace TapeLang

structure BindAddress where
  host : String
  port : Int
deriving DecidableEq, Repr

namespace BindAddress

/-- Splits characters at their last colon. -/
def splitLast (cs : List Char) : Option (List Char × List Char) :=
  let after := (cs.reverse.takeWhile (· != ':')).reverse
  match cs.reverse.dropWhile (· != ':') with
  | [] => none
  | _ :: before => some (before.reverse, after)

def isBracket (c : Char) : Bool := c == '[' || c == ']'

/-- A host without the brackets around it. -/
def bareHost (host : List Char) : String :=
  String.ofList ((host.dropWhile isBracket).reverse.dropWhile isBracket).reverse

/-- The address that a text spells, if the port is an integer. -/
def parse? (text : String) : Option BindAddress :=
  let (host, port) := (splitLast text.toList).getD ([], text.toList)
  match Text.Numeral.read (port.map Char.toNat) with
  | .ok port => some ⟨bareHost host, port⟩
  | .error _ => none

/-- The message for a text that spells no address. -/
def refusal (text : String) : String := s!"invalid bind address '{text}'"

/-- Whether the port exists. -/
def portInRange (a : BindAddress) : Bool := 0 ≤ a.port && a.port ≤ 65535

/-- One part of a numeric address: a number below 256. -/
def isOctet (part : String) : Bool :=
  !part.isEmpty && part.length ≤ 3 && part.all (fun c => '0' ≤ c && c ≤ '9') &&
    part.toList.foldl (fun n c => n * 10 + (c.toNat - 48)) 0 < 256

/-- Whether a host needs no name resolution: every interface, or an address in four parts. -/
def isNumeric (host : String) : Bool :=
  host == "" || (let parts := host.splitOn "."; parts.length == 4 && parts.all isOctet)

end BindAddress
end TapeLang
