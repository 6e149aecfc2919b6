/-! Maps as lists of entries, in the order of their keys. -/
namespace KeyholeMarkup.OrderedMap

variable {α β : Type} [DecidableEq α]

/-- The value of a key. -/
def find? (key : α) (entries : List (α × β)) : Option β :=
  (entries.find? fun entry => entry.1 == key).map (·.2)

/-- Sets the value of a key, given the one that it has had. A new key is entered in its place. -/
def set (before : α → α → Bool) (key : α) (value : Option β → β) : List (α × β) → List (α × β)
  | [] => [(key, value none)]
  | (other, held) :: rest =>
    if key = other then (other, value (some held)) :: rest
    else if before key other then (key, value none) :: (other, held) :: rest
    else (other, held) :: set before key value rest

/-- The order of texts by their characters. -/
def textBefore (first second : String) : Bool := first < second

end KeyholeMarkup.OrderedMap
