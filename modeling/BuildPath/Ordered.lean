/-!
# Lists without repetition

Where an order counts and repetitions do not, a list keeps the first of equal items. Equality is
whatever `==` says of the items.
-/

namespace BuildPath.Ordered

variable {Item : Type} [BEq Item]

/-- The item added at the end, unless an equal one is there. -/
def insert (items : List Item) (item : Item) : List Item :=
  if items.any (· == item) then items else items ++ [item]

/-- The items whose keys differ from those of all items before them and from those in `seen`. -/
def distinctFrom {Value : Type} (key : Value → Item) (seen : List Item) : List Value → List Value
  | [] => []
  | value :: rest =>
    let item := key value
    if seen.contains item then distinctFrom key seen rest
    else value :: distinctFrom key (item :: seen) rest

/-- The values in order, only the first of those with equal keys. -/
def distinctBy {Value : Type} (key : Value → Item) (values : List Value) : List Value :=
  distinctFrom key [] values

/-- The items in order, each at its first mention only. -/
def distinct (items : List Item) : List Item :=
  distinctBy id items

end BuildPath.Ordered
