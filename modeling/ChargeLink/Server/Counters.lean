import ChargeLink.Session.Station

/-!
# Counters

What a server counts while it works: answered calls by action and outcome, and
answers that matched no call. The page lists the counters that have ever moved,
one on a line.
-/

namespace ChargeLink

/-- How often each counter has moved, by its line without the number. -/
structure Counters where
  counts : List (String × Nat)

namespace Counters

/-- Nothing has been counted. -/
def empty : Counters := ⟨[]⟩

/-- Moves a counter by one. -/
def increment (c : Counters) (name : String) : Counters :=
  let count := ((c.counts.find? fun p => p.1 == name).map (·.2)).getD 0
  ⟨(name, count + 1) :: c.counts.filter fun p => p.1 != name⟩

/-- The counter of answered calls. -/
def dispatched (action outcome : String) : String :=
  "ocpp_dispatch_total\x7baction=\"" ++ action ++ "\",outcome=\"" ++ outcome ++ "\"\x7d"

/-- The counter of answers that matched no call. -/
def unmatched : String :=
  "ocpp_unmatched_responses_total"

/-- Counts what a note tells. -/
def count (c : Counters) : Note → Counters
  | .dispatched action outcome => c.increment (dispatched action outcome)
  | .published event =>
    match event.kind with
    | .unmatched _ => c.increment unmatched
    | _ => c
  | _ => c

/-- What has been counted over some notes. -/
def ofNotes (notes : List Note) : Counters :=
  notes.foldl count empty

/-- The lines of the page in their order. -/
def lines (c : Counters) : List String :=
  (c.counts.map fun p => p.1 ++ " " ++ toString p.2).mergeSort fun a b => !(b < a)

end Counters

end ChargeLink
