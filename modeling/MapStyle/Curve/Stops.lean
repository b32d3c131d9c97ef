/-!
# Where an input falls among stops

A curve is a list of stops, each a label and an output. An input at or before the first label, or
at or after the last one, has the output of that stop; any other input lies between two
neighbouring stops, the earlier of which is the last whose label does not exceed it.

That stop is found by halving. With labels in ascending order, as every compiled curve has them,
it is the only stop of its kind; with labels in another order, the search still has one answer,
fixed by the labels that it looks at.
-/

namespace MapStyle.Curve

/-- Where an input falls. -/
inductive Spot (α β : Type) where
  | nowhere
  /-- The input has no place in the order. -/
  | unordered
  /-- At a stop, or beyond the stops on its side. -/
  | stop (output : β)
  /-- From the lower label to just below the upper one. -/
  | between (lower upper : α) (first second : β)

/-- The last of the `size` places from `start` on that is reached, where the first is taken to be
reached and every place before a reached one too. The place halfway is looked at: the search goes
on from there if it is reached, and with the places up to it if it is not. -/
def lastReached (reached : Nat → Bool) (start size : Nat) : Nat :=
  if size ≤ 1 then start
  else if reached (start + size / 2) then
    lastReached reached (start + size / 2) (size - size / 2)
  else lastReached reached start (size - size / 2)
termination_by size
decreasing_by all_goals omega

variable {α β : Type} [LE α] [DecidableLE α] [BEq α]

omit [BEq α] in
/-- Whether the label at place `i` is at most `x`. -/
def reaches (stops : List (α × β)) (x : α) (i : Nat) : Bool :=
  match stops[i]? with
  | some (label, _) => label ≤ x
  | none => false

def locate (stops : List (α × β)) (x : α) : Spot α β :=
  match stops with
  | [] => .nowhere
  | (first, output) :: rest =>
    let (last, lastOutput) := rest.getLastD (first, output)
    if x ≤ first then .stop output
    else if last ≤ x then .stop lastOutput
    else if !(x == x) then .unordered
    else
      match (stops.zip rest)[lastReached (reaches stops x) 0 stops.length]? with
      | some ((lower, first), (upper, second)) => .between lower upper first second
      | none => .stop lastOutput

end MapStyle.Curve
