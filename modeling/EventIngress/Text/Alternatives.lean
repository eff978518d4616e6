/-!
# Words to choose from

Results:

* `alternatives`: the known words of a choice, as a message lists them.
-/

namespace EventIngress.Text

/-- A word between backticks. -/
def ticked (word : String) : String :=
  "\x60" ++ word ++ "\x60"

/-- The known words of a choice, as a message lists them. -/
def alternatives : List String → String
  | [] => "there are no variants"
  | [a] => "expected " ++ ticked a
  | [a, b] => "expected " ++ ticked a ++ " or " ++ ticked b
  | a :: rest =>
    "expected one of " ++ ticked a ++ String.join (rest.map fun word => ", " ++ ticked word)

end EventIngress.Text
