import SolidityLint.Yaml.Objects

/-! The values of objects. A list, a mapping or a pair that is part of itself is cut off where it comes again, as seen
    from the value that is shown; so the values around that one have to be known. -/

namespace SolidityLint.Yaml

/-- What is done with a value: it can be shown, or it is only the way to its parts, each with a use of its own by its
    key (null for the items of a list), or nobody looks at it, and null may stand for it. -/
inductive Purpose where
  | shown
  | within (part : Value → Purpose)
  | unused

namespace Objects

/-- The value of an object, put together from the values of its parts by their keys; `pair` gives that of a pair by
    its place. -/
def assemble {m : Type → Type} [Monad m] (part : Value → Nat → m Value) (pair : Nat → Nat × Nat → m Value) :
    Object → m Value
  | .value value => return value
  | .list items => return .list (← items.mapM (part .null))
  | .pairs entries => return .list (← entries.zipIdx.mapM fun (entry, place) => pair place entry)
  | .mapping entries => return .mapping (← entries.mapM fun (key, value) => return (key, ← part key value))
  | .set members => return .set members

/-- The values of the objects that no chain of parts leads back to, by their numbers. Every such object comes behind
    its parts in `order`. -/
def closedValues (objects : Objects) (order : List Nat) : Array (Option Value) :=
  order.foldl (fun values id =>
      let part (id : Nat) : Option Value := values.getD id none
      let value := (objects.get? id).bind (assemble (fun _ => part) fun _ entry => do
        return .pair (← part entry.1) (← part entry.2))
      values.setIfInBounds id value)
    (Array.replicate objects.table.size none)

/-- What stands for an object inside itself. -/
def again : Option Object → Value
  | some (.mapping _) => .mappingAgain
  | _ => .listAgain

mutual

/-- The value of an object that can be shown. `around` are the objects that it is a part of and that are cut off where
    they come again, and the pairs with their places counted from one. -/
def shown (objects : Objects) (closed : Array (Option Value)) (around : List (Nat × Nat)) (id : Nat) :
    (fuel : Nat) → Value
  | 0 => again (objects.get? id)
  | fuel + 1 =>
    match closed.getD id none, objects.get? id with
    | some value, _ => value
    | none, none => .null
    | none, some object =>
      if around.contains (id, 0) then again object
      else Id.run (assemble (fun _ part => shown objects closed ((id, 0) :: around) part fuel)
        (shownPair objects closed ((id, 0) :: around) id · · fuel) object)

/-- The value of a pair that can be shown, given the object that it belongs to and its place there. -/
def shownPair (objects : Objects) (closed : Array (Option Value)) (around : List (Nat × Nat)) (id place : Nat)
    (entry : Nat × Nat) : (fuel : Nat) → Value
  | 0 => .pairAgain
  | fuel + 1 =>
    let spot := (id, place + 1)
    if around.contains spot then .pairAgain
    else .pair (shown objects closed (spot :: around) entry.1 fuel) (shown objects closed (spot :: around) entry.2 fuel)

end

/-- A number of steps that no chain of different objects and pairs exceeds. -/
def bound (objects : Objects) : Nat :=
  2 * objects.table.size + 2

/-- The value of an object for a purpose. -/
def valueOf (objects : Objects) (closed : Array (Option Value)) : (purpose : Purpose) → Nat → Value
  | .unused, _ => .null
  | .shown, id => objects.shown closed [] id objects.bound
  | .within use, id =>
    match objects.get? id with
    | none => .null
    | some object => Id.run (assemble (fun key part => valueOf objects closed (use key) part) (fun place entry =>
        match use .null with
        | .shown => objects.shownPair closed [] id place entry objects.bound
        | _ => .null) object)

/-- The value of the root for a purpose; `order` has every object that is no part of itself behind its parts. -/
def rootValue (objects : Objects) (order : List Nat) (purpose : Purpose) : Value :=
  objects.valueOf (objects.closedValues order) purpose objects.root

end Objects

end SolidityLint.Yaml
