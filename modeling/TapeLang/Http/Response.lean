import TapeLang.Http.Traffic

/-!
Responses as clients receive them. A connection that was registered gets status 200, a type, and the
length of its body.
-/
namespace TapeLang.Http

/-- A response as it goes out: its status, its header fields in order, and its body. -/
structure Response where
  status : Nat
  fields : List (String × String)
  body : List UInt8
deriving DecidableEq, Repr

/-- The response that carries a body of a type. -/
def Response.ofBody (type : String) (body : List UInt8) : Response :=
  { status := 200
    fields := [("Content-Type", type), ("Content-Length", toString body.length)]
    body }

/-- The response of a connection that was registered. One that was turned away gets none of these. -/
def Reply.response? : Reply → Option Response
  | .answered type body => some (.ofBody type body)
  | .refused .. => none

end TapeLang.Http
