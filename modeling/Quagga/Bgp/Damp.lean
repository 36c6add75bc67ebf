import Mathlib
import Quagga.Foundation.LinkedLists
import Quagga.Foundation.Transitions

/-!
# Route flap dampening

A route that was withdrawn gets a `struct bgp_damp_info`. It is linked into one of the reuse
lists while the route is suppressed, and into the list `no_reuse_list` otherwise. Which list it
is unlinked from is decided by the flag of the route. A timer takes the reuse list that is due
and decides anew about each of its members.
-/

namespace Quagga.Bgp

open Foundation

inductive LastRecord where
  | update
  | withdraw
deriving Repr, DecidableEq

structure BgpDampInfo where
  penalty : Nat
  tUpdated : Int
  suppressTime : Int
  /-- The route it belongs to. -/
  binfo : Nat
  /-- The reuse list it was last put on. -/
  index? : Option Nat
  lastrecord : LastRecord
deriving Repr, DecidableEq

inductive DampList where
  | noReuseList
  | reuseList (index : Nat)
deriving Repr, DecidableEq

structure DampRoute where
  damped : Bool
  history : Bool
  removed : Bool
  dampInfo? : Option Nat
deriving Repr, DecidableEq

def DampRoute.unseen : DampRoute := ⟨false, false, false, none⟩

/-- The parameters. How a penalty decays and which of the reuse lists ahead it selects are tables
of floating point numbers, here any functions. -/
structure DampConfig where
  suppressValue : Nat
  reuseLimit : Nat
  maxSuppressTime : Int
  ceiling : Nat
  decay : Int → Nat → Nat
  reuseIndex : Nat → Int
  reuseListSize : Nat
  hasLists : 0 < reuseListSize

def defaultPenalty : Nat := 1000

structure Dampening where
  lists : LinkedLists DampList BgpDampInfo
  routes : Nat → DampRoute
  reuseOffset : Nat
  /-- A pointer for the next allocation. -/
  next : Nat

inductive DampFault where
  | assertion
  | dangling
  | endless
deriving Repr, DecidableEq

abbrev DampRun (α : Type) := Except DampFault α

namespace Dampening

def initial : Dampening := ⟨.empty, fun _ => .unseen, 0, 0⟩

variable (damp : Dampening)

def info (pointer : Nat) : DampRun (ListCell BgpDampInfo) :=
  match damp.lists.cells pointer with
  | none => .error .dangling
  | some cell => .ok cell

def onLists (result? : Option (LinkedLists DampList BgpDampInfo)) : DampRun Dampening :=
  match result? with
  | none => .error .dangling
  | some lists => .ok { damp with lists := lists }

def write (pointer : Nat) (edit : BgpDampInfo → BgpDampInfo) : DampRun Dampening :=
  damp.onLists (damp.lists.change pointer (.changeValue edit))

def changeRoute (binfo : Nat) (edit : DampRoute → DampRoute) : Dampening :=
  { damp with routes := Function.update damp.routes binfo (edit (damp.routes binfo)) }

/-- `bgp_reuse_index`. The remainder is one of unsigned numbers. -/
def bgpReuseIndex (config : DampConfig) (penalty : Nat) : Nat :=
  ((damp.reuseOffset + config.reuseIndex penalty) % 2 ^ 32).toNat % config.reuseListSize

def bgpReuseListAdd (config : DampConfig) (pointer : Nat) : DampRun Dampening := do
  let cell ← damp.info pointer
  let index := damp.bgpReuseIndex config cell.value.penalty
  let damp ← damp.write pointer fun info => { info with index? := some index }
  damp.onLists (damp.lists.pushFront (.reuseList index) pointer)

def bgpReuseListDelete (pointer : Nat) : DampRun Dampening := do
  match (← damp.info pointer).value.index? with
  | none => .error .dangling
  | some index => damp.onLists (damp.lists.unlink (.reuseList index) pointer)

def dampListAdd (pointer : Nat) : DampRun Dampening :=
  damp.onLists (damp.lists.pushFront .noReuseList pointer)

def dampListDel (pointer : Nat) : DampRun Dampening :=
  damp.onLists (damp.lists.unlink .noReuseList pointer)

def unlinkByFlag (binfo pointer : Nat) : DampRun Dampening :=
  if (damp.routes binfo).damped then damp.bgpReuseListDelete pointer
  else damp.dampListDel pointer

def bgpDampInfoFree (pointer : Nat) (withdraw : Bool) : DampRun Dampening := do
  let cell ← damp.info pointer
  let binfo := cell.value.binfo
  let damp := damp.changeRoute binfo fun route => { route with dampInfo? := none }
  let damp ← damp.unlinkByFlag binfo pointer
  let damp := damp.changeRoute binfo fun route =>
    { route with
      history := false
      damped := false
      removed := route.removed || (withdraw && cell.value.lastrecord = .withdraw) }
  return { damp with lists := damp.lists.free pointer }

/-! ## Events of a route -/

def flapPenalty (attrChange : Bool) : Nat :=
  if attrChange then defaultPenalty / 2 else defaultPenalty

/-- The first part of `bgp_damp_withdraw`: the dampening information, new or with a higher
penalty, and the penalty it had. -/
def withdrawInfo (config : DampConfig) (binfo : Nat) (attrChange : Bool) (now : Int) :
    DampRun (Dampening × Nat × Nat) := do
  match (damp.routes binfo).dampInfo? with
  | none =>
    let pointer := damp.next
    let new : BgpDampInfo := ⟨flapPenalty attrChange, 0, 0, binfo, none, .withdraw⟩
    let damp := { damp with lists := damp.lists.allocate pointer new, next := pointer + 1 }
    let damp := damp.changeRoute binfo fun route => { route with dampInfo? := some pointer }
    return (← damp.dampListAdd pointer, pointer, 0)
  | some pointer =>
    let cell ← damp.info pointer
    let decayed := config.decay (now - cell.value.tUpdated) cell.value.penalty
    let damp ← damp.write pointer fun info =>
      { info with penalty := min (decayed + flapPenalty attrChange) config.ceiling }
    return (damp, pointer, cell.value.penalty)

def bgpDampWithdraw (config : DampConfig) (binfo : Nat) (attrChange : Bool) (now : Int) :
    DampRun Dampening := do
  let (damp, pointer, lastPenalty) ← damp.withdrawInfo config binfo attrChange now
  let cell ← damp.info pointer
  if cell.value.binfo ≠ binfo then .error .assertion
  else
    let damp ← damp.write pointer fun info =>
      { info with lastrecord := .withdraw, tUpdated := now }
    let damp := damp.changeRoute binfo fun route => { route with history := true }
    if (damp.routes binfo).damped then
      if cell.value.penalty ≠ lastPenalty then
        (← damp.bgpReuseListDelete pointer).bgpReuseListAdd config pointer
      else return damp
    else if config.suppressValue ≤ cell.value.penalty then
      let damp := damp.changeRoute binfo fun route => { route with damped := true }
      let damp ← damp.write pointer fun info => { info with suppressTime := now }
      (← damp.dampListDel pointer).bgpReuseListAdd config pointer
    else return damp

/-- A suppressed route that can be used again: its information changes lists. -/
def unsuppress (binfo pointer : Nat) (edit : BgpDampInfo → BgpDampInfo) : DampRun Dampening := do
  let damp := damp.changeRoute binfo fun route => { route with damped := false }
  let damp ← damp.bgpReuseListDelete pointer
  let damp ← damp.dampListAdd pointer
  damp.write pointer edit

def reconsider (config : DampConfig) (binfo pointer penalty : Nat) : DampRun Dampening :=
  if (damp.routes binfo).damped && penalty < config.reuseLimit then
    damp.unsuppress binfo pointer fun info => { info with suppressTime := 0 }
  else .ok damp

def bgpDampUpdate (config : DampConfig) (binfo : Nat) (now : Int) : DampRun Dampening := do
  match (damp.routes binfo).dampInfo? with
  | none => return damp
  | some pointer =>
    let damp := damp.changeRoute binfo fun route => { route with history := false }
    let cell ← damp.info pointer
    let penalty := config.decay (now - cell.value.tUpdated) cell.value.penalty
    let damp ← damp.write pointer fun info =>
      { info with lastrecord := .update, penalty := penalty }
    let damp ← damp.reconsider config binfo pointer penalty
    if config.reuseLimit < 2 * penalty then
      damp.write pointer fun info => { info with tUpdated := now }
    else damp.bgpDampInfoFree pointer false

def bgpDampScan (config : DampConfig) (binfo : Nat) (now : Int) : DampRun Dampening := do
  match (damp.routes binfo).dampInfo? with
  | none => .error .assertion
  | some pointer =>
    let cell ← damp.info pointer
    if (damp.routes binfo).damped then
      if config.maxSuppressTime ≤ now - cell.value.suppressTime then
        damp.unsuppress binfo pointer fun info =>
          { info with penalty := config.reuseLimit, suppressTime := 0, tUpdated := now }
      else return damp
    else
      let penalty := config.decay (now - cell.value.tUpdated) cell.value.penalty
      let damp ← damp.write pointer fun info => { info with penalty := penalty }
      if 2 * penalty ≤ config.reuseLimit then damp.bgpDampInfoFree pointer true
      else damp.write pointer fun info => { info with tUpdated := now }

/-! ## The timer -/

def reuse (config : DampConfig) (now : Int) (pointer : Nat) : DampRun Dampening := do
  let cell ← damp.info pointer
  let penalty := config.decay (now - cell.value.tUpdated) cell.value.penalty
  let damp ← damp.write pointer fun info => { info with penalty := penalty, tUpdated := now }
  if penalty < config.reuseLimit then
    let damp := damp.changeRoute cell.value.binfo fun route =>
      { route with
        damped := false
        history := route.history && cell.value.lastrecord ≠ .update }
    let damp ← damp.write pointer fun info => { info with suppressTime := 0 }
    if 2 * penalty ≤ config.reuseLimit then damp.bgpDampInfoFree pointer true
    else damp.dampListAdd pointer
  else damp.bgpReuseListAdd config pointer

def reuseLoop (config : DampConfig) (now : Int) :
    Nat → Option Nat → Dampening → DampRun Dampening
  | _, none, damp => .ok damp
  | 0, some _, _ => .error .endless
  | fuel + 1, some pointer, damp => do
      let next? := (← damp.info pointer).next?
      reuseLoop config now fuel next? (← damp.reuse config now pointer)

def bgpReuseTimer (config : DampConfig) (now : Int) : DampRun Dampening :=
  let due? := damp.lists.heads (.reuseList damp.reuseOffset)
  reuseLoop config now damp.next due? { damp with
    lists := damp.lists.setHead (.reuseList damp.reuseOffset) none
    reuseOffset := (damp.reuseOffset + 1) % config.reuseListSize }

end Dampening

/-! ## Runs -/

inductive DampEvent where
  | withdraw (binfo : Nat) (attrChange : Bool) (now : Int)
  | update (binfo : Nat) (now : Int)
  | scan (binfo : Nat) (now : Int)
  | reuseTimer (now : Int)
  | free (pointer : Nat) (withdraw : Bool)
deriving Repr, DecidableEq

/-- `bgp_scan` looks at routes with dampening information only, and information is freed by the
route that has it. -/
def dampStep (config : DampConfig) : StepFunction Dampening DampEvent DampFault :=
  fun damp event =>
    match event with
    | .withdraw binfo attrChange now => some (damp.bgpDampWithdraw config binfo attrChange now)
    | .update binfo now => some (damp.bgpDampUpdate config binfo now)
    | .scan binfo now =>
      if (damp.routes binfo).dampInfo?.isSome then some (damp.bgpDampScan config binfo now)
      else none
    | .reuseTimer now => some (damp.bgpReuseTimer config now)
    | .free pointer withdraw =>
      if (damp.lists.cells pointer).isSome then some (damp.bgpDampInfoFree pointer withdraw)
      else none

end Quagga.Bgp
