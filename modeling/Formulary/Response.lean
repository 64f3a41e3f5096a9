import Formulary.Json.Reader
import Formulary.Log
import Formulary.Request.Basic

/-!
# Responses of the solver

A response is positional: its elements are the values of the names in the target of the request, in
their order. It is a list, an object that holds a list or a value as its result, or a single value.
-/

set_option autoImplicit false
set_option relaxedAutoImplicit false

namespace Formulary

/-- Values by the names in a target. -/
abbrev Results := Table Json.Value

/-- The values of a response in their order. -/
def responseValues (response : Json.Value) : List Json.Value :=
  let payload := ((response.field? "result").filter fun result ↦ !result.isNull).getD response
  match payload with
  | .list items => items
  | single => [single]

/-- Results, and what was reported about them. -/
structure Reply where
  results : Results
  log : List Notice

/-- The results of a target: each name gets the value at its place, and of a name that occurs twice
the later place counts. Values beyond the target are dropped, names beyond the values are reported
and get none. -/
def readReply (target : List String) (response : Json.Value) : Reply :=
  let values := responseValues response
  { results := Table.ofEntries (target.zip values)
    log :=
      if values.length < target.length then
        [.resultsMissing values.length target (target.drop values.length)]
      else [] }

/-- The results of a target from the text of a response; none where that is no JSON. -/
def readReplyText (target : List String) (body : String) : Option Reply :=
  (Json.parse body).map (readReply target)

/-- The results of a request. -/
def Request.readReply (request : Request) (response : Json.Value) : Reply :=
  Formulary.readReply request.target response

end Formulary
