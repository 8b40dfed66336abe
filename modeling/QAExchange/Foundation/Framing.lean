import Mathlib.Data.List.Basic
import Mathlib.Tactic.Ring

/-! # Length-prefixed frames

Little-endian numbers and byte strings that are made of frames: a four-byte
length and the data behind it. A reader that goes from frame to frame ends
before an incomplete length or in the middle of a frame.
-/

namespace QAExchange.Foundation

/-- The lowest `width` bytes of a number, the lowest byte first. -/
def leBytes : ℕ → ℕ → List UInt8
  | 0, _ => []
  | width + 1, number => UInt8.ofNat number :: leBytes width (number / 256)

def ofLeBytes : List UInt8 → ℕ
  | [] => 0
  | byte :: bytes => byte.toNat + 256 * ofLeBytes bytes

@[simp] theorem length_leBytes (width number : ℕ) : (leBytes width number).length = width := by
  induction width generalizing number with
  | zero => rfl
  | succ width induction => simp [leBytes, induction]

theorem ofLeBytes_leBytes (width number : ℕ) :
    ofLeBytes (leBytes width number) = number % 256 ^ width := by
  induction width generalizing number with
  | zero => simp [leBytes, ofLeBytes, Nat.mod_one]
  | succ width induction =>
    have split := Nat.mod_mul (x := number) (a := 256) (b := 256 ^ width)
    simp only [leBytes, ofLeBytes, induction, pow_succ', split]
    congr 1

namespace Framing

/-- How the reading of frames ends: at the end of the bytes, where up to three
bytes of a length may stand, or inside a frame. -/
inductive Ending
  | eof
  | cut
  deriving DecidableEq

def frame (data : List UInt8) : List UInt8 := leBytes 4 data.length ++ data

/-- The data of the frames in the bytes, with room for `fuel` frames. -/
def readFrames : ℕ → List UInt8 → List (List UInt8) × Ending
  | 0, _ => ([], .eof)
  | fuel + 1, bytes =>
    if bytes.length < 4 then ([], .eof)
    else if (bytes.drop 4).length < ofLeBytes (bytes.take 4) then ([], .cut)
    else
      let next := readFrames fuel ((bytes.drop 4).drop (ofLeBytes (bytes.take 4)))
      ((bytes.drop 4).take (ofLeBytes (bytes.take 4)) :: next.1, next.2)

/-- A frame takes four bytes or more, so that the fuel never runs out. -/
def frames (bytes : List UInt8) : List (List UInt8) × Ending := readFrames (bytes.length + 1) bytes

@[simp] theorem length_frame (data : List UInt8) : (frame data).length = data.length + 4 := by
  simp [frame, Nat.add_comm]

theorem readFrames_of_short {bytes : List UInt8} (short : bytes.length < 4) (fuel : ℕ) :
    readFrames fuel bytes = ([], .eof) := by
  cases fuel with
  | zero => rfl
  | succ fuel => simp [readFrames, short]

theorem readFrames_of_lt {bytes : List UInt8} (enough : bytes.length < fuel) :
    readFrames fuel bytes = frames bytes := by
  induction fuel using Nat.strong_induction_on generalizing bytes with
  | _ fuel induction =>
    by_cases short : bytes.length < 4
    · rw [frames, readFrames_of_short short, readFrames_of_short short]
    · cases fuel with
      | zero => omega
      | succ fuel =>
        simp only [frames, readFrames, short, if_false]
        split_ifs with isCut
        · rfl
        · have shorter : ((bytes.drop 4).drop (ofLeBytes (bytes.take 4))).length + 4 ≤
              bytes.length := by
            simp only [List.length_drop]
            omega
          rw [induction fuel (by omega) (by omega)]
          have fewer : ((bytes.drop 4).drop (ofLeBytes (bytes.take 4))).length <
              bytes.length := by omega
          rw [induction bytes.length (by omega) fewer]

theorem frames_of_short {bytes : List UInt8} (short : bytes.length < 4) :
    frames bytes = ([], .eof) := readFrames_of_short short _

theorem frames_step {bytes : List UInt8} (long : 4 ≤ bytes.length) :
    frames bytes =
      if (bytes.drop 4).length < ofLeBytes (bytes.take 4) then ([], .cut)
      else
        let next := frames ((bytes.drop 4).drop (ofLeBytes (bytes.take 4)))
        ((bytes.drop 4).take (ofLeBytes (bytes.take 4)) :: next.1, next.2) := by
  have shorter : ((bytes.drop 4).drop (ofLeBytes (bytes.take 4))).length < bytes.length := by
    simp only [List.length_drop]
    omega
  rw [frames, readFrames, if_neg (by omega), readFrames_of_lt shorter]

theorem ofLeBytes_length (small : length < 2 ^ 32) : ofLeBytes (leBytes 4 length) = length := by
  rw [ofLeBytes_leBytes]
  exact Nat.mod_eq_of_lt (by omega)

theorem take_frame_append (data rest : List UInt8) :
    (frame data ++ rest).take 4 = leBytes 4 data.length := by
  rw [frame, List.append_assoc]
  exact List.take_left' (length_leBytes 4 _)

theorem drop_frame_append (data rest : List UInt8) :
    (frame data ++ rest).drop 4 = data ++ rest := by
  rw [frame, List.append_assoc]
  exact List.drop_left' (length_leBytes 4 _)

theorem frames_frame_append {data : List UInt8} (small : data.length < 2 ^ 32) (rest : List UInt8) :
    frames (frame data ++ rest) = (data :: (frames rest).1, (frames rest).2) := by
  have long : 4 ≤ (frame data ++ rest).length := by
    simp only [List.length_append, length_frame]
    omega
  rw [frames_step long, take_frame_append, drop_frame_append, ofLeBytes_length small,
    if_neg (by simp)]
  simp

theorem frames_flatMap_append (small : ∀ data ∈ datas, data.length < 2 ^ 32) (rest : List UInt8) :
    frames (datas.flatMap frame ++ rest) = (datas ++ (frames rest).1, (frames rest).2) := by
  induction datas with
  | nil => rfl
  | cons data datas induction =>
    rw [List.flatMap_cons, List.append_assoc, frames_frame_append (small data (by simp)),
      induction fun data member => small data (List.mem_cons_of_mem _ member)]
    rfl

theorem frames_take_frame {data : List UInt8} (small : data.length < 2 ^ 32)
    (isCut : cut < data.length + 4) :
    frames ((frame data).take cut) = ([], if cut < 4 then .eof else .cut) := by
  have length : ((frame data).take cut).length = cut := by
    simp only [List.length_take, length_frame]
    omega
  split_ifs with short
  · exact frames_of_short (by omega)
  · have prefixBytes : ((frame data).take cut).take 4 = leBytes 4 data.length := by
      rw [List.take_take, Nat.min_eq_left (by omega), frame]
      exact List.take_left' (length_leBytes 4 _)
    have fewer : (((frame data).take cut).drop 4).length < data.length := by
      simp only [List.length_drop, length]
      omega
    rw [frames_step (by omega), prefixBytes, ofLeBytes_length small, if_pos fewer]

theorem sum_frames_le (bytes : List UInt8) :
    (((frames bytes).1).map fun data => data.length + 4).sum ≤ bytes.length := by
  induction size : bytes.length using Nat.strong_induction_on generalizing bytes with
  | _ _ induction =>
    by_cases short : bytes.length < 4
    · simp [frames_of_short short]
    · rw [frames_step (by omega)]
      split_ifs with isCut
      · simp
      · have left : ((bytes.drop 4).drop (ofLeBytes (bytes.take 4))).length =
            bytes.length - 4 - ofLeBytes (bytes.take 4) := by
          simp only [List.length_drop]
        have rest := induction _ (by simp only [List.length_drop]; omega)
          ((bytes.drop 4).drop (ofLeBytes (bytes.take 4))) rfl
        rw [left] at rest
        simp only [List.length_drop] at isCut
        simp only [List.map_cons, List.sum_cons, List.length_take, List.length_drop]
        omega

end Framing

end QAExchange.Foundation
