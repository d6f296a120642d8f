import ChargeLink.Session.Station

/-!
# Two stations back to back

Each end's texts are fed to the other end in order. Texts on their way arrive
before anything else happens; then comes work that needs no time, and then the
timer that is first of both ends.
-/

namespace ChargeLink

/-- Two stations and the texts on their way between them. -/
structure Exchange where
  chargePoint : Station
  centralSystem : Station
  /-- Texts on their way to the central system. -/
  up : List String
  /-- Texts on their way to the charge point. -/
  down : List String

namespace Exchange

/-- The station of a role. -/
def station (x : Exchange) : Role → Station
  | .chargePoint => x.chargePoint
  | .centralSystem => x.centralSystem

/-- The station with timers numbered on from those of the other end. -/
def numberedFrom (s other : Station) : Station :=
  { s with timers := { s.timers with nextKey := max s.timers.nextKey other.timers.nextKey } }

/-- Lets the station of a role do something; its new texts are on their way. -/
def onSide (x : Exchange) (role : Role) (f : Station → Station) : Exchange :=
  match role with
  | .chargePoint =>
    let s := f (numberedFrom x.chargePoint x.centralSystem)
    { x with chargePoint := s, up := x.up ++ Station.texts (s.notes.drop x.chargePoint.notes.length) }
  | .centralSystem =>
    let s := f (numberedFrom x.centralSystem x.chargePoint)
    { x with centralSystem := s, down := x.down ++ Station.texts (s.notes.drop x.centralSystem.notes.length) }

/-- Two stations whose opening has not been told to each other. -/
def create (chargePoint centralSystem : Station) : Exchange :=
  ⟨chargePoint, centralSystem, [], []⟩

/-- The end whose timer comes first, if it is within the limit. -/
def timerSide? (x : Exchange) (limit : Nat) : Option Role :=
  let within : Option (Nat × Nat × Station.Work) → Bool
    | some (d, _, _) => d ≤ limit
    | none => false
  let first : Option Role :=
    match x.chargePoint.timer?, x.centralSystem.timer? with
    | some (d, k, _), some (e, l, _) =>
      if e < d || (e == d && l < k) then some .centralSystem else some .chargePoint
    | some _, none => some .chargePoint
    | none, some _ => some .centralSystem
    | none, none => none
  first.filter fun role => within (x.station role).timer?

/-- Does the next piece of work up to the given time. -/
def step? (x : Exchange) (limit : Nat) : Option Exchange :=
  match x.up, x.down with
  | text :: rest, _ =>
    some ({ x with up := rest }.onSide .centralSystem fun s => s.act fun t => t.receive text)
  | [], text :: rest =>
    some ({ x with down := rest }.onSide .chargePoint fun s => s.act fun t => t.receive text)
  | [], [] =>
    match x.chargePoint.workNow?, x.centralSystem.workNow? with
    | some w, _ => some (x.onSide .chargePoint fun s => s.perform w)
    | none, some w => some (x.onSide .centralSystem fun s => s.perform w)
    | none, none =>
      match x.timerSide? limit with
      | none => none
      | some role =>
        match (x.station role).timer? with
        | none => none
        | some (deadline, _, w) =>
          let time (s : Station) : Station := { s with now := max s.now deadline }
          let x := { x with chargePoint := time x.chargePoint, centralSystem := time x.centralSystem }
          some (x.onSide role fun s => s.perform w)

/-- Does the work up to the given time, at most `fuel` pieces of it. -/
def runFor (limit : Nat) : (fuel : Nat) → Exchange → Exchange
  | 0, x => x
  | fuel + 1, x =>
    match x.step? limit with
    | some x => runFor limit fuel x
    | none => x

/-- A bound on the pieces of work that can come up without new input. -/
def workBound (x : Exchange) : Nat :=
  4 * (x.chargePoint.workBound + x.centralSystem.workBound + x.up.length + x.down.length)

/-- Does all work that needs no time to pass. -/
def settle (x : Exchange) : Exchange :=
  runFor x.chargePoint.now x.workBound x

/-- Lets time pass, and does all work that comes up. -/
def advance (x : Exchange) (ms : Nat) : Exchange :=
  let limit := x.chargePoint.now + ms
  let x := runFor limit x.workBound x
  { x with
    chargePoint := { x.chargePoint with now := limit }
    centralSystem := { x.centralSystem with now := limit } }

end Exchange

end ChargeLink
