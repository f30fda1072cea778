import DragoonKernel.TetrisLines
import Mathlib.Data.List.Perm.Subperm

/-!
Where a piece stands, and what locking it does to the rows of the board.
-/

namespace DragoonKernel

/-- All cells of the piece are inside of the side and bottom walls and on no occupied cell. -/
def Board.Stands (board : Board) (piece rot : Nat) (px py : Int) : Prop :=
  ∀ r < 4, ∀ c < 4, pieceBit piece rot r c = true →
    (0 ≤ px + c ∧ px + c < boardW) ∧ py + r < boardH ∧
      (0 ≤ py + r → board.cell (py + r).toNat (px + c).toNat = 0)

theorem free_iff {board : Board} {x y : Int} :
    board.free x y = true ↔
      (0 ≤ x ∧ x < boardW) ∧ y < boardH ∧ (0 ≤ y → board.cell y.toNat x.toNat = 0) := by
  rw [Board.free]
  split
  next outside =>
    refine iff_of_false Bool.false_ne_true fun ⟨sides, bottom, _⟩ => ?_
    omega
  next inside =>
    have sides : 0 ≤ x ∧ x < boardW := by omega
    have bottom : y < boardH := by omega
    by_cases above : 0 ≤ y
    · simp [sides, bottom, above]
    · simp [sides, bottom, above]

theorem fits_iff {board : Board} {piece rot : Nat} {px py : Int} :
    board.fits piece rot px py = true ↔ board.Stands piece rot px py := by
  simp only [Board.fits, Board.Stands, List.all_eq_true, List.mem_range, Bool.or_eq_true,
    Bool.not_eq_true', free_iff]
  refine forall₄_congr fun r _ c _ => ?_
  cases pieceBit piece rot r c with
  | false => simp
  | true => simp

theorem pieceBit_some {piece rot : Nat} (known : piece < 7) (turned : rot < 4) :
    ∃ r < 4, ∃ c < 4, pieceBit piece rot r c = true := by
  have all : ∀ piece < 7, ∀ rot < 4, ∃ r < 4, ∃ c < 4, pieceBit piece rot r c = true := by decide
  exact all piece known rot turned

/-- A piece that stands somewhere is not below the board. -/
theorem Board.Stands.above {board : Board} {piece rot : Nat} {px py : Int}
    (stands : board.Stands piece rot px py) (known : piece < 7) (turned : rot < 4) :
    py < boardH := by
  obtain ⟨r, row, c, col, bit⟩ := pieceBit_some known turned
  have bottom := (stands r row c col bit).2.1
  omega

theorem hardDrop_stands {board : Board} {piece rot : Nat} {x y : Int} {turns : Nat}
    (known : piece < 7) (turned : rot < 4) (stands : board.Stands piece rot x y)
    (enough : boardH ≤ y + turns) :
    ∃ final, board.hardDrop piece rot x turns y = some final ∧ y ≤ final ∧
      board.Stands piece rot x final := by
  induction turns generalizing y with
  | zero =>
      have high := stands.above known turned
      omega
  | succ turns ih =>
      rw [Board.hardDrop]
      split
      next lower =>
        obtain ⟨final, run, below, there⟩ := ih (fits_iff.mp lower) (by omega)
        exact ⟨final, run, by omega, there⟩
      next => exact ⟨y, rfl, Int.le_refl y, stands⟩

/-- Each row has cells of the seven pieces or 0, and one of them is 0. -/
structure Board.Sound (board : Board) : Prop where
  cells : ∀ line ∈ board.contents, ∀ cell ∈ line, cell.toNat ≤ 7
  noneFull : ∀ line ∈ board.contents, fullLine line = false

theorem emptyLine_cells : ∀ cell ∈ emptyLine, cell.toNat ≤ 7 := by
  intro cell listed
  rw [List.eq_of_mem_replicate listed]
  exact Nat.zero_le 7

theorem emptyBoard_sound {board : Board} {n : Nat}
    (empty : board.contents = List.replicate n emptyLine) : board.Sound where
  cells line listed := by
    rw [empty] at listed
    rw [List.eq_of_mem_replicate listed]
    exact emptyLine_cells
  noneFull line listed := by
    rw [empty] at listed
    rw [List.eq_of_mem_replicate listed, fullLine_emptyLine]

/-- What a lock can have done to a board so far. -/
structure Board.LockedOnto (board : Board) (piece : Nat) (y : Int) (next : Board) : Prop where
  apart : ∀ i : Nat, ¬(y ≤ i ∧ i < y + 4) → next.row i = board.row i
  filled : ∀ i, ∀ cell ∈ next.row i, cell ∈ board.row i ∨ cell = BitVec.ofNat 8 (piece + 1)

theorem lockCell_lockedOnto {board state : Board} {piece rot : Nat} {x y : Int} {r c : Nat}
    (row : r < 4) (so : board.LockedOnto piece y state) :
    ∃ next, lockCell piece rot x y r c state = some next ∧ board.LockedOnto piece y next := by
  have unchanged : ∃ next, some state = some next ∧ board.LockedOnto piece y next :=
    ⟨state, rfl, so⟩
  rw [lockCell]
  split
  · dsimp only
    split
    next inside =>
      obtain ⟨next, stored, set, others⟩ := Grid.store_row state
        (show (y + r).toNat < boardH by omega) (show (x + c).toNat < boardW by omega)
        (BitVec.ofNat 8 (piece + 1))
      refine ⟨next, stored, fun i away => ?_, fun i cell listed => ?_⟩
      · rw [others i (by omega), so.apart i away]
      · by_cases here : i = (y + r).toNat
        · rw [here, set] at listed
          rcases List.mem_or_eq_of_mem_set listed with old | new
          · exact so.filled i cell (here ▸ old)
          · exact .inr new
        · exact so.filled i cell (others i here ▸ listed)
    next => exact unchanged
  · exact unchanged

theorem lockPiece_lockedOnto (board : Board) (piece rot : Nat) (x y : Int) :
    ∃ locked, board.lockPiece piece rot x y = some locked ∧ board.LockedOnto piece y locked := by
  have start : board.LockedOnto piece y board := ⟨fun _ _ => rfl, fun _ _ => .inl⟩
  refine loopUp_keeps start fun r row state so => ?_
  exact loopUp_keeps so fun c _ state so => lockCell_lockedOnto row so

/-- Without a full row before, only the four rows of the piece can be full after a lock. -/
theorem countP_fullLine_locked {board locked : Board} {piece : Nat} {y : Int} (sound : board.Sound)
    (so : board.LockedOnto piece y locked) : locked.contents.countP fullLine ≤ 4 := by
  let touched : List Nat := (List.range 4).map fun r => (y + (r : Nat)).toNat
  have within : (List.range boardH).filter (fullLine ∘ locked.row) ⊆ touched := by
    intro i listed
    obtain ⟨inside, full⟩ := List.mem_filter.mp listed
    by_cases near : y ≤ i ∧ i < y + 4
    · refine List.mem_map.mpr ⟨(i - y).toNat, List.mem_range.mpr (by omega), ?_⟩
      omega
    · rw [Function.comp_apply, so.apart i near,
        sound.noneFull _ (List.mem_map_of_mem inside)] at full
      exact absurd full Bool.false_ne_true
  have distinct : ((List.range boardH).filter (fullLine ∘ locked.row)).Nodup :=
    List.nodup_range.filter _
  calc locked.contents.countP fullLine
      = ((List.range boardH).filter (fullLine ∘ locked.row)).length := by
        rw [Grid.contents, List.countP_map, List.countP_eq_length_filter]
    _ ≤ touched.length := (List.subperm_of_subset distinct within).length_le
    _ = 4 := by rw [List.length_map, List.length_range]

theorem clearLines_sound {board locked : Board} {piece : Nat} {y : Int} (sound : board.Sound)
    (known : piece < 7) (so : board.LockedOnto piece y locked) :
    ∃ cleared cl, locked.clearLines = some (cleared, cl) ∧ cl ≤ 4 ∧ cleared.Sound := by
  obtain ⟨cleared, run, rows⟩ := clearLines_contents locked
  refine ⟨cleared, _, run, countP_fullLine_locked sound so, ?_, ?_⟩
  · intro line listed cell inLine
    rw [rows] at listed
    rcases List.mem_append.mp listed with empty | kept
    · rw [List.eq_of_mem_replicate empty] at inLine
      exact emptyLine_cells cell inLine
    · obtain ⟨i, row, rfl⟩ := List.mem_map.mp (List.mem_of_mem_filter kept)
      rcases so.filled i cell inLine with old | new
      · exact sound.cells _ (List.mem_map_of_mem row) cell old
      · rw [new, BitVec.toNat_ofNat]
        omega
  · intro line listed
    rw [rows] at listed
    rcases List.mem_append.mp listed with empty | kept
    · rw [List.eq_of_mem_replicate empty, fullLine_emptyLine]
    · exact Bool.not_eq_true' _ ▸ (List.mem_filter.mp kept).2

end DragoonKernel
