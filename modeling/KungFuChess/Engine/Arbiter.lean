import Mathlib.Data.List.Basic
import Mathlib.Algebra.Order.Group.Int
import Mathlib.Algebra.Order.Group.Unbundled.Abs
import KungFuChess.Library.Sorting
import KungFuChess.Engine.Board

/-!
# Motions and the real-time arbiter

A motion carries a piece from `startPos` to `endPos` (the source's `start` and `end`)
and lands when its remaining time is used up. A jump is a motion in place. The
arbiter owns the list of active motions, in launch order, and the counter that
numbers them; the number is what identifies a motion object.

`startMotion` launches a motion and then drops it again if an older motion is coming
the other way on the same line (`resolveCommonRouteCollision`). The piece has been
set to `moving` before that, and stays so.
-/

namespace KungFuChess

/-- `remainingTime` runs down from `originalDuration`; a jump ends where it has started. -/
structure Motion where
  motionId : Nat
  piece : PieceRef
  startPos : Position
  endPos : Position
  remainingTime : Int
  originalDuration : Int
  isJump : Bool := false
deriving DecidableEq, Repr

/-- The motions in flight, and the number of the last one. -/
structure RealTimeArbiter where
  activeMotions : List Motion := []
  motionCounter : Nat := 0
deriving DecidableEq, Repr

namespace RealTimeArbiter

/-- The direction of a difference of coordinates. -/
def sign (x : Int) : Int := if x > 0 then 1 else if x < 0 then -1 else 0

/-- Whether `motionB` starts on the straight path of `motionA` and heads the opposite
way. The three branches are a horizontal, a vertical and any other direction of
`motionA`. -/
def areOnCollisionCourse (motionA motionB : Motion) : Bool :=
  let drA := sign (motionA.endPos.row - motionA.startPos.row)
  let dcA := sign (motionA.endPos.col - motionA.startPos.col)
  let drB := sign (motionB.endPos.row - motionB.startPos.row)
  let dcB := sign (motionB.endPos.col - motionB.startPos.col)
  -- not opposite
  if drA + drB ≠ 0 ∨ dcA + dcB ≠ 0 then false
  else if drA = 0 ∧ dcA = 0 then false
  else
    let diffRow := motionB.startPos.row - motionA.startPos.row
    let diffCol := motionB.startPos.col - motionA.startPos.col
    let endRow := motionA.endPos.row - motionA.startPos.row
    let endCol := motionA.endPos.col - motionA.startPos.col
    -- `motionA` along its row
    if drA = 0 then
      if diffRow ≠ 0 then false
      else if dcA > 0 then decide (0 < diffCol ∧ diffCol ≤ endCol)
      else decide (endCol ≤ diffCol ∧ diffCol < 0)
    -- along its column
    else if dcA = 0 then
      if diffCol ≠ 0 then false
      else if drA > 0 then decide (0 < diffRow ∧ diffRow ≤ endRow)
      else decide (endRow ≤ diffRow ∧ diffRow < 0)
    -- anything else is taken for a diagonal
    else if diffRow = 0 ∨ diffCol = 0 then false
    else if |diffRow| ≠ |diffCol| then false
    else if sign diffRow ≠ drA ∨ sign diffCol ≠ dcA then false
    else decide (0 < |diffRow| ∧ |diffRow| ≤ |endRow|)

/-- The motion `start_jump` appends. -/
def jumpMotion (arbiter : RealTimeArbiter) (piece : PieceRef) (position : Position)
    (durationMs : Int) : Motion where
  motionId := arbiter.motionCounter + 1
  piece := piece
  startPos := position
  endPos := position
  remainingTime := durationMs
  originalDuration := durationMs
  isJump := true

/-- The motion `start_motion` appends. -/
def newMotion (arbiter : RealTimeArbiter) (piece : PieceRef) (startPos endPos : Position)
    (durationMs : Int) : Motion where
  motionId := arbiter.motionCounter + 1
  piece := piece
  startPos := startPos
  endPos := endPos
  remainingTime := durationMs
  originalDuration := durationMs

/-- A jump is appended to the list, and the piece is marked. -/
def startJump (arbiter : RealTimeArbiter) (board : Board) (piece : PieceRef)
    (position : Position) (durationMs : Int) : RealTimeArbiter × Board :=
  ({ motionCounter := arbiter.motionCounter + 1
     activeMotions := arbiter.activeMotions ++ [arbiter.jumpMotion piece position durationMs] },
    board.setStatus piece .jumping)

/-- Some active motion other than `motion` itself is coming the other way. -/
def meetsHeadOn (activeMotions : List Motion) (motion : Motion) : Bool :=
  activeMotions.any fun existing =>
    existing.motionId ≠ motion.motionId && areOnCollisionCourse existing motion

/-- The new motion is dropped again if an older one comes the other way; the older one flies on. -/
def resolveCommonRouteCollision (activeMotions : List Motion) (motion : Motion) : List Motion :=
  if meetsHeadOn activeMotions motion then activeMotions.erase motion else activeMotions

/-- The piece is marked before the collision is looked for, and stays `moving` if its motion is
dropped. -/
def startMotion (arbiter : RealTimeArbiter) (board : Board) (piece : PieceRef)
    (startPos endPos : Position) (durationMs : Int) : RealTimeArbiter × Board :=
  let motion := arbiter.newMotion piece startPos endPos durationMs
  ({ motionCounter := arbiter.motionCounter + 1
     activeMotions :=
      resolveCommonRouteCollision (arbiter.activeMotions ++ [motion]) motion },
    board.setStatus piece .moving)

/-- Something is in flight. -/
def hasActiveMotion (arbiter : RealTimeArbiter) : Bool := decide (0 < arbiter.activeMotions.length)

/-- A motion after `ms` more milliseconds. -/
def elapse (ms : Int) (motion : Motion) : Motion :=
  { motion with remainingTime := motion.remainingTime - ms }

/-- The motions that have completed, ordered by remaining time and then by launch. -/
def advanceTime (arbiter : RealTimeArbiter) (ms : Int) : List Motion × RealTimeArbiter :=
  let elapsed := arbiter.activeMotions.map (elapse ms)
  (Sorting.sortBy (fun m => toLex (m.remainingTime, m.motionId))
      (elapsed.filter fun m => decide (m.remainingTime ≤ 0)),
    { arbiter with activeMotions := elapsed.filter fun m => !decide (m.remainingTime ≤ 0) })

end RealTimeArbiter

end KungFuChess
