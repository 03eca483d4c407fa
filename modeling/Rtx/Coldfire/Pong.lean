import Mathlib.Tactic.NormNum
import Rtx.Coldfire.Utils
import Rtx.Lib.Run

/-!
# Pong

`init_pong`, `print_board` and the loop of `update_board`, one message a step. The envelopes are
left out: each message is released, or delayed, as it is.

The four commands have each a limit of their own, and that for `s` is `BOARD_COLS-5` in place of
`BOARD_ROWS-5`. Everything stays on the board exactly in those runs where no `s` comes when the left
paddle is at the bottom (`pong_on_board_iff`).
-/

namespace Rtx.Coldfire

open Transition

def paddleLength : ℤ := 5
def boardRows : ℤ := 24
def boardCols : ℤ := 75

/-! ## The code -/

/-- The statics, and, in the last two fields, which elements of `board` were read or written, and
what was sent to the console. -/
structure Pong where
  board : ℤ → ℤ → UInt8
  leftPaddlePos : ℤ
  rightPaddlePos : ℤ
  ballR : ℤ
  ballC : ℤ
  rSpeed : ℤ
  cSpeed : ℤ
  accesses : List (ℤ × ℤ)
  printed : List Text

/-- What `update_board` receives. -/
inductive PongMsg
  /-- `CONSOLE_INPUT`, with `msg[0]`. -/
  | consoleInput (c : Char)
  | wakeup10
  /-- Any other type. -/
  | other
  deriving DecidableEq

namespace Pong

/-- `board[r][c]`, as it is read. -/
def touch (s : Pong) (r c : ℤ) : Pong := { s with accesses := s.accesses ++ [(r, c)] }

/-- `board[r][c] = x`. -/
def set (s : Pong) (r c : ℤ) (x : Char) : Pong :=
  { s with
    board := fun r' c' => if r' = r ∧ c' = c then x.toUInt8 else s.board r' c'
    accesses := s.accesses ++ [(r, c)] }

/-- The assignments `board[r][c] = x r c`, one after the other. -/
def setAll (s : Pong) (cells : List (ℤ × ℤ)) (x : ℤ → ℤ → Char) : Pong :=
  cells.foldl (fun s cell => s.set cell.1 cell.2 (x cell.1 cell.2)) s

/-- `for (r = 0; r < n; r++)`. -/
def upTo (n : ℤ) : List ℤ := (List.range n.toNat).map Nat.cast

/-- The elements of `board`, row by row. -/
def cells : List (ℤ × ℤ) := (upTo boardRows).flatMap fun r => (upTo boardCols).map fun c => (r, c)

/-- The frame. -/
def border (r c : ℤ) : Char :=
  if (r = 0 ∧ c = 0) ∨ (r = 0 ∧ c = boardCols - 1) ∨ (r = boardRows - 1 ∧ c = 0) ∨
      (r = boardRows - 1 ∧ c = boardCols - 1) then '+'
  else if r = 0 ∨ r = boardRows - 1 then '-'
  else if c = 0 ∨ c = boardCols - 1 then '|'
  else ' '

/-- The elements of the two paddles, in the order of the loop. -/
def paddleCells (leftPaddlePos rightPaddlePos : ℤ) : List (ℤ × ℤ) :=
  (upTo paddleLength).flatMap fun r =>
    [(leftPaddlePos + r, 1), (rightPaddlePos + r, boardCols - 2)]

/-- `init_pong`. -/
def initPong (s : Pong) : Pong :=
  let s := s.setAll cells border
  let s := { s with
    leftPaddlePos := boardRows / 2 - 2
    rightPaddlePos := boardRows / 2 - 2 }
  let s := s.setAll (paddleCells s.leftPaddlePos s.rightPaddlePos) fun _ _ => 'M'
  let s := { s with
    ballR := boardRows / 2
    ballC := boardCols / 2 }
  let s := s.set s.ballR s.ballC 'O'
  { s with
    rSpeed := 1
    cSpeed := 1 }

/-- `print_board`. -/
def printBoard (s : Pong) : Pong :=
  { s with
    accesses := s.accesses ++ cells
    printed := s.printed ++ cstr "\x1b[0;0H" ::
      (upTo boardRows).map fun r => (upTo boardCols).map (s.board r) ++ cstr "\n\r" }

/-- The left paddle moves by `d`. -/
def moveLeftPaddle (s : Pong) (d : ℤ) : Pong :=
  let s := s.set (s.leftPaddlePos + 4) 1 ' '
  let s := { s with leftPaddlePos := s.leftPaddlePos + d }
  s.set s.leftPaddlePos 1 'M'

/-- The right paddle moves by `d`. -/
def moveRightPaddle (s : Pong) (d : ℤ) : Pong :=
  let s := s.set (s.rightPaddlePos + 4) (boardCols - 2) ' '
  let s := { s with rightPaddlePos := s.rightPaddlePos + d }
  s.set s.rightPaddlePos (boardCols - 2) 'M'

/-- The four commands, each with its own limit. -/
def command (s : Pong) (c : Char) : Pong :=
  if (c = 'a' ∨ c = 'A') ∧ s.leftPaddlePos > 0 then s.moveLeftPaddle (-1)
  else if (c = 's' ∨ c = 'S') ∧ s.leftPaddlePos < boardCols - 5 then s.moveLeftPaddle 1
  else if (c = 'k' ∨ c = 'K') ∧ s.rightPaddlePos > boardCols - 5 then s.moveRightPaddle (-1)
  else if (c = 'l' ∨ c = 'L') ∧ s.rightPaddlePos < 15 then s.moveRightPaddle 1
  else s

/-- The ball turns back from the upper and the lower border. -/
def bounceRow (s : Pong) : Pong :=
  if s.ballR = 1 ∨ s.ballR = boardRows - 2 then { s with rSpeed := s.rSpeed * -1 } else s

/-- The ball turns back from a paddle; `board` is read in front of the paddles only. -/
def bounceCol (s : Pong) : Pong :=
  if s.ballC = 2 then
    let s' := s.touch (s.ballR + s.rSpeed) 1
    if s.board (s.ballR + s.rSpeed) 1 = 'M'.toUInt8 then { s' with cSpeed := s.cSpeed * -1 } else s'
  else if s.ballC = boardCols - 3 then
    let s' := s.touch (s.ballR + s.rSpeed) (boardCols - 2)
    if s.board (s.ballR + s.rSpeed) (boardCols - 2) = 'M'.toUInt8 then
      { s' with cSpeed := s.cSpeed * -1 }
    else s'
  else s

/-- The ball moves on. -/
def moveBall (s : Pong) : Pong :=
  let s := s.set s.ballR s.ballC ' '
  let s := { s with
    ballR := s.ballR + s.rSpeed
    ballC := s.ballC + s.cSpeed }
  s.set s.ballR s.ballC 'O'

/-- A turn of the loop of `update_board`. -/
def updateBoard (s : Pong) : PongMsg → Pong
  | .consoleInput c => (s.command c).printBoard
  | .wakeup10 =>
    -- One of the players has scored.
    if s.ballC = 0 then s.initPong.printBoard
    else if s.ballC = boardCols - 1 then s.initPong.printBoard
    else s.bounceRow.bounceCol.moveBall.printBoard
  | .other => s.printBoard

def step (s : Pong) (message : PongMsg) : Option Pong := some (s.updateBoard message)

/-- The statics before the first call. -/
def statics : Pong where
  board _ _ := 0
  leftPaddlePos := 0
  rightPaddlePos := 0
  ballR := 0
  ballC := 0
  rSpeed := 0
  cSpeed := 0
  accesses := []
  printed := []

/-- Before the loop. -/
def start : Pong := statics.initPong.printBoard

/-- `board[r][c]` exists. -/
def OnBoard (cell : ℤ × ℤ) : Prop :=
  0 ≤ cell.1 ∧ cell.1 < boardRows ∧ 0 ≤ cell.2 ∧ cell.2 < boardCols

/-- The paddles and the ball are on the board, and nothing else was accessed. -/
structure Inside (s : Pong) : Prop where
  left : 0 ≤ s.leftPaddlePos ∧ s.leftPaddlePos ≤ boardRows - paddleLength
  right : 0 ≤ s.rightPaddlePos ∧ s.rightPaddlePos ≤ boardRows - paddleLength
  ball : OnBoard (s.ballR, s.ballC)
  accesses : ∀ cell ∈ s.accesses, OnBoard cell

/-- No `s` comes when the left paddle is at the bottom. -/
def Stopped (s : Pong) (message : PongMsg) : Prop :=
  message = .consoleInput 's' ∨ message = .consoleInput 'S' →
    s.leftPaddlePos ≠ boardRows - paddleLength

/-! ## The board -/

variable {s s' : Pong} {message : PongMsg}

theorem mem_upTo {n r : ℤ} : r ∈ upTo n ↔ 0 ≤ r ∧ r < n := by
  rw [upTo, List.mem_map]
  constructor
  · rintro ⟨k, hk, rfl⟩
    have hlt := List.mem_range.1 hk
    omega
  · intro h
    exact ⟨r.toNat, List.mem_range.2 (by omega), by omega⟩

theorem mem_cells {cell : ℤ × ℤ} : cell ∈ cells ↔ OnBoard cell := by
  simp only [cells, List.mem_flatMap, List.mem_map, mem_upTo, OnBoard]
  constructor
  · rintro ⟨r, hr, c, hc, rfl⟩
    exact ⟨hr.1, hr.2, hc⟩
  · intro h
    exact ⟨cell.1, ⟨h.1, h.2.1⟩, cell.2, h.2.2, rfl⟩

/-- Everything accessed is on the board. -/
def Accessed (s : Pong) : Prop := ∀ cell ∈ s.accesses, OnBoard cell

theorem Accessed.append (h : s.Accessed) {cs : List (ℤ × ℤ)}
    (haccesses : s'.accesses = s.accesses ++ cs) (hcs : ∀ cell ∈ cs, OnBoard cell) :
    s'.Accessed := by
  intro cell hcell
  rw [haccesses] at hcell
  rcases List.mem_append.1 hcell with hold | hnew
  · exact h cell hold
  · exact hcs cell hnew

theorem Accessed.one (h : s.Accessed) {r c : ℤ} (haccesses : s'.accesses = s.accesses ++ [(r, c)])
    (hcell : OnBoard (r, c)) : s'.Accessed := by
  apply h.append haccesses
  intro cell hmem
  rw [List.mem_singleton.1 hmem]
  exact hcell

theorem Accessed.printBoard (h : s.Accessed) : s.printBoard.Accessed :=
  h.append rfl fun _ => mem_cells.1

@[simp] theorem setAll_nil (s : Pong) (x : ℤ → ℤ → Char) : s.setAll [] x = s := rfl

@[simp] theorem setAll_cons (s : Pong) (cell : ℤ × ℤ) (cs : List (ℤ × ℤ)) (x : ℤ → ℤ → Char) :
    s.setAll (cell :: cs) x = (s.set cell.1 cell.2 (x cell.1 cell.2)).setAll cs x := rfl

@[simp] theorem accesses_setAll (s : Pong) (cs : List (ℤ × ℤ)) (x : ℤ → ℤ → Char) :
    (s.setAll cs x).accesses = s.accesses ++ cs := by
  induction cs generalizing s with
  | nil => simp
  | cons cell cs ih => simp [ih, set]

@[simp] theorem leftPaddlePos_setAll (s : Pong) (cs : List (ℤ × ℤ)) (x : ℤ → ℤ → Char) :
    (s.setAll cs x).leftPaddlePos = s.leftPaddlePos := by
  induction cs generalizing s with
  | nil => rfl
  | cons cell cs ih => exact ih _

@[simp] theorem rightPaddlePos_setAll (s : Pong) (cs : List (ℤ × ℤ)) (x : ℤ → ℤ → Char) :
    (s.setAll cs x).rightPaddlePos = s.rightPaddlePos := by
  induction cs generalizing s with
  | nil => rfl
  | cons cell cs ih => exact ih _

/-- A game is going on. The ball comes to the first and to the last row from inside. -/
structure InPlay (s : Pong) : Prop where
  left : 0 ≤ s.leftPaddlePos ∧ s.leftPaddlePos ≤ 19
  right : 10 ≤ s.rightPaddlePos ∧ s.rightPaddlePos ≤ 15
  row : 1 ≤ s.ballR ∧ s.ballR ≤ 22
  col : 0 ≤ s.ballC ∧ s.ballC ≤ 74
  rSpeed : s.rSpeed = 1 ∨ s.rSpeed = -1
  cSpeed : s.cSpeed = 1 ∨ s.cSpeed = -1
  top : s.ballR = 1 → s.rSpeed = -1
  bottom : s.ballR = 22 → s.rSpeed = 1
  accesses : s.Accessed

theorem InPlay.inside (h : s.InPlay) : s.Inside where
  left := by
    have hleft := h.left
    rw [boardRows, paddleLength]
    omega
  right := by
    have hright := h.right
    rw [boardRows, paddleLength]
    omega
  ball := by
    have hrow := h.row
    have hcol := h.col
    unfold OnBoard boardRows boardCols
    omega
  accesses := h.accesses

theorem InPlay.printBoard (h : s.InPlay) : s.printBoard.InPlay :=
  ⟨h.left, h.right, h.row, h.col, h.rSpeed, h.cSpeed, h.top, h.bottom, h.accesses.printBoard⟩

theorem onBoard_paddleCells {left right : ℤ} (hleft : 0 ≤ left ∧ left ≤ 19)
    (hright : 0 ≤ right ∧ right ≤ 19) : ∀ cell ∈ paddleCells left right, OnBoard cell := by
  intro cell hcell
  obtain ⟨r, hr, hcell⟩ := List.mem_flatMap.1 hcell
  obtain ⟨hr₀, hr₁⟩ := mem_upTo.1 hr
  rw [paddleLength] at hr₁
  simp only [List.mem_cons, List.not_mem_nil, or_false] at hcell
  rcases hcell with rfl | rfl
  · simp only [OnBoard, boardRows, boardCols]
    omega
  · simp only [OnBoard, boardRows, boardCols]
    omega

theorem accesses_initPong (s : Pong) :
    s.initPong.accesses = s.accesses ++ (cells ++ (paddleCells 10 10 ++ [(12, 37)])) := by
  simp [initPong, set, boardRows, boardCols]

theorem Accessed.initPong (h : s.Accessed) : s.initPong.InPlay where
  left := by simp [Pong.initPong, boardRows, set]
  right := by simp [Pong.initPong, boardRows, set]
  row := by simp [Pong.initPong, boardRows, set]
  col := by simp [Pong.initPong, boardCols, set]
  rSpeed := .inl rfl
  cSpeed := .inl rfl
  top := by simp [Pong.initPong, boardRows, set]
  bottom _ := rfl
  accesses := by
    apply h.append (accesses_initPong s)
    intro cell hcell
    rcases List.mem_append.1 hcell with hframe | hcell
    · exact mem_cells.1 hframe
    rcases List.mem_append.1 hcell with hpaddle | hball
    · exact onBoard_paddleCells (by decide) (by decide) cell hpaddle
    · rw [List.mem_singleton.1 hball]
      simp [OnBoard, boardRows, boardCols]

/-! ## Commands -/

theorem InPlay.moveLeftPaddle (h : s.InPlay) {d : ℤ}
    (hleft : 0 ≤ s.leftPaddlePos + d ∧ s.leftPaddlePos + d ≤ 19) : (s.moveLeftPaddle d).InPlay := by
  have hpos := h.left
  refine ⟨hleft, h.right, h.row, h.col, h.rSpeed, h.cSpeed, h.top, h.bottom, ?_⟩
  have hfirst : (s.set (s.leftPaddlePos + 4) 1 ' ').Accessed := by
    apply h.accesses.one rfl
    simp only [OnBoard, boardRows, boardCols]
    omega
  apply hfirst.one (r := s.leftPaddlePos + d) (c := 1) rfl
  simp only [OnBoard, boardRows, boardCols]
  omega

theorem InPlay.moveRightPaddle (h : s.InPlay) (hright : s.rightPaddlePos < 15) :
    (s.moveRightPaddle 1).InPlay := by
  have hpos := h.right
  refine ⟨h.left, ?_, h.row, h.col, h.rSpeed, h.cSpeed, h.top, h.bottom, ?_⟩
  · show 10 ≤ s.rightPaddlePos + 1 ∧ s.rightPaddlePos + 1 ≤ 15
    omega
  · have hfirst : (s.set (s.rightPaddlePos + 4) (boardCols - 2) ' ').Accessed := by
      apply h.accesses.one rfl
      simp only [OnBoard, boardRows, boardCols]
      omega
    apply hfirst.one (r := s.rightPaddlePos + 1) (c := boardCols - 2) rfl
    simp only [OnBoard, boardRows, boardCols]
    omega

theorem InPlay.command (h : s.InPlay) {c : Char} (hstop : s.Stopped (.consoleInput c)) :
    (s.command c).InPlay := by
  have hleft := h.left
  have hright := h.right
  unfold Pong.command
  split
  · next hup => exact h.moveLeftPaddle (by omega)
  split
  · next hdown =>
    have hbottom : s.leftPaddlePos ≠ boardRows - paddleLength := by
      apply hstop
      exact hdown.1.imp (congrArg PongMsg.consoleInput) (congrArg PongMsg.consoleInput)
    rw [boardRows, paddleLength] at hbottom
    exact h.moveLeftPaddle (by omega)
  split
  · next hup =>
    -- The limit of `k` is beyond the board, so that the paddle never moves up.
    have hlimit := hup.2
    rw [boardCols] at hlimit
    omega
  split
  · next hdown => exact h.moveRightPaddle hdown.2
  · exact h

/-! ## The ball -/

/-- Between `bounceRow` and `moveBall`: the row that comes next is free. -/
structure Aimed (s : Pong) : Prop where
  left : 0 ≤ s.leftPaddlePos ∧ s.leftPaddlePos ≤ 19
  right : 10 ≤ s.rightPaddlePos ∧ s.rightPaddlePos ≤ 15
  row : 1 ≤ s.ballR ∧ s.ballR ≤ 22
  next : 1 ≤ s.ballR + s.rSpeed ∧ s.ballR + s.rSpeed ≤ 22
  col : 1 ≤ s.ballC ∧ s.ballC ≤ 73
  rSpeed : s.rSpeed = 1 ∨ s.rSpeed = -1
  cSpeed : s.cSpeed = 1 ∨ s.cSpeed = -1
  accesses : s.Accessed

theorem InPlay.bounceRow (h : s.InPlay) (hfirst : s.ballC ≠ 0) (hlast : s.ballC ≠ boardCols - 1) :
    s.bounceRow.Aimed := by
  have hrow := h.row
  have hcol := h.col
  have htop := h.top
  have hbottom := h.bottom
  rw [boardCols] at hlast
  have hinner : 1 ≤ s.ballC ∧ s.ballC ≤ 73 := by omega
  unfold Pong.bounceRow
  split
  · next hborder =>
    rw [boardRows] at hborder
    have hspeed : s.rSpeed * -1 = 1 ∧ s.ballR = 1 ∨ s.rSpeed * -1 = -1 ∧ s.ballR = 22 := by omega
    refine ⟨h.left, h.right, h.row, ?_, hinner, ?_, h.cSpeed, h.accesses⟩
    · show 1 ≤ s.ballR + s.rSpeed * -1 ∧ s.ballR + s.rSpeed * -1 ≤ 22
      omega
    · exact hspeed.imp And.left And.left
  · next hborder =>
    rw [boardRows] at hborder
    have hspeed := h.rSpeed
    exact ⟨h.left, h.right, h.row, by omega, hinner, h.rSpeed, h.cSpeed, h.accesses⟩

/-- The element in front of a paddle is read on the way. -/
theorem Aimed.look (h : s.Aimed) {c cSpeed : ℤ} (hc : 0 ≤ c ∧ c < boardCols)
    (hspeed : cSpeed = 1 ∨ cSpeed = -1) :
    ({ s.touch (s.ballR + s.rSpeed) c with cSpeed := cSpeed } : Pong).Aimed := by
  have hnext := h.next
  refine ⟨h.left, h.right, h.row, h.next, h.col, h.rSpeed, hspeed, ?_⟩
  apply h.accesses.one (r := s.ballR + s.rSpeed) (c := c) rfl
  simp only [OnBoard, boardRows]
  omega

theorem Aimed.bounceCol (h : s.Aimed) : s.bounceCol.Aimed := by
  have hback : s.cSpeed * -1 = 1 ∨ s.cSpeed * -1 = -1 := by
    have hspeed := h.cSpeed
    omega
  unfold Pong.bounceCol
  split
  · split
    · exact h.look (by decide) hback
    · exact h.look (by decide) h.cSpeed
  split
  · split
    · exact h.look (by decide) hback
    · exact h.look (by decide) h.cSpeed
  · exact h

theorem Aimed.moveBall (h : s.Aimed) : s.moveBall.InPlay := by
  have hrow := h.row
  have hnext := h.next
  have hcol := h.col
  have hrSpeed := h.rSpeed
  have hcSpeed := h.cSpeed
  refine ⟨h.left, h.right, hnext, ?_, hrSpeed, hcSpeed, ?_, ?_, ?_⟩
  · show 0 ≤ s.ballC + s.cSpeed ∧ s.ballC + s.cSpeed ≤ 74
    omega
  · show s.ballR + s.rSpeed = 1 → s.rSpeed = -1
    omega
  · show s.ballR + s.rSpeed = 22 → s.rSpeed = 1
    omega
  · have hfirst : (s.set s.ballR s.ballC ' ').Accessed := by
      apply h.accesses.one rfl
      simp only [OnBoard, boardRows, boardCols]
      omega
    apply hfirst.one (r := s.ballR + s.rSpeed) (c := s.ballC + s.cSpeed) rfl
    simp only [OnBoard, boardRows, boardCols]
    omega

/-! ## Runs -/

theorem InPlay.step (h : s.InPlay) (hstop : s.Stopped message)
    (hstep : s.step message = some s') : s'.InPlay := by
  cases hstep
  cases message with
  | consoleInput c => exact (h.command hstop).printBoard
  | wakeup10 =>
    unfold updateBoard
    dsimp only
    split
    · exact h.accesses.initPong.printBoard
    split
    · exact h.accesses.initPong.printBoard
    · next hfirst hlast => exact (h.bounceRow hfirst hlast).bounceCol.moveBall.printBoard
  | other => exact h.printBoard

/-- The limit of `s` is beyond the board, too. -/
theorem command_down {c : Char} (hc : c = 's' ∨ c = 'S')
    (hleft : s.leftPaddlePos < boardCols - 5) : s.command c = s.moveLeftPaddle 1 := by
  have hup : ¬ ((c = 'a' ∨ c = 'A') ∧ s.leftPaddlePos > 0) := by
    rcases hc with rfl | rfl <;> simp
  rw [command, if_neg hup, if_pos ⟨hc, hleft⟩]

/-- From the bottom the left paddle moves out of the board. -/
theorem not_inside_of_not_stopped (hstop : ¬ s.Stopped message)
    (hstep : s.step message = some s') : ¬ s'.Inside := by
  intro hinside
  unfold Stopped at hstop
  push Not at hstop
  obtain ⟨hmessage, hbottom⟩ := hstop
  obtain ⟨c, hc, rfl⟩ : ∃ c, (c = 's' ∨ c = 'S') ∧ message = .consoleInput c := by
    rcases hmessage with rfl | rfl
    · exact ⟨'s', .inl rfl, rfl⟩
    · exact ⟨'S', .inr rfl, rfl⟩
  cases hstep
  have hleft : (s.updateBoard (.consoleInput c)).leftPaddlePos = s.leftPaddlePos + 1 := by
    rw [updateBoard, command_down hc (by rw [hbottom]; decide)]
    rfl
  have hinside := hinside.left.2
  rw [hleft, hbottom] at hinside
  omega

theorem inPlay_start : start.InPlay := by
  have hstatics : statics.Accessed := by simp [Accessed, statics]
  exact hstatics.initPong.printBoard

/-- In a game, the paddles, the ball and all accesses stay on the board exactly when no `s` comes
with the left paddle at the bottom. -/
theorem pong_on_board_iff (messages : List PongMsg) :
    Always step Inside start messages ↔ Along step Stopped start messages := by
  apply always_iff_along_of_step (I := InPlay)
  · intro s message s' h hstop hstep
    exact h.step hstop hstep
  · intro s h
    exact h.inside
  · intro s message s' _ hstop hstep
    exact not_inside_of_not_stopped hstop hstep
  · exact inPlay_start

/-- Ten times down, and once more. -/
theorem pong_leaves_board :
    ∃ s, exec step start (List.replicate 10 (.consoleInput 's')) = some s ∧
      s.leftPaddlePos = 20 ∧ ¬ s.Inside ∧
      (24, 1) ∈ (s.updateBoard (.consoleInput 's')).accesses := by
  have hrun : (exec step start (List.replicate 10 (.consoleInput 's'))).map (·.leftPaddlePos) =
      some 20 := by
    decide
  obtain ⟨s, hexec, hleft⟩ := Option.map_eq_some_iff.1 hrun
  refine ⟨s, hexec, hleft, fun hinside => ?_, ?_⟩
  · exact absurd hinside.left.2 (by rw [hleft]; decide)
  · rw [updateBoard, command_down (.inl rfl) (by rw [hleft]; decide)]
    simp [moveLeftPaddle, printBoard, set, hleft]

end Pong

end Rtx.Coldfire
