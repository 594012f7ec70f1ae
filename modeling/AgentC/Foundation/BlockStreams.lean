import Mathlib.Data.List.Basic
import Mathlib.Tactic.Common

/-! # Messages taken block by block

A function of a state and a block of fixed size, applied to a message that arrives in
pieces. The state after the whole blocks and the rest behind them do not depend on the
pieces. -/

namespace AgentC.BlockStream

variable {σ α : Type} (size : Nat) (compress : σ → List α → σ)

def consume (state : σ) (message : List α) : σ × List α :=
  if 0 < size ∧ size ≤ message.length then
    consume (compress state (message.take size)) (message.drop size)
  else (state, message)
termination_by message.length
decreasing_by
  rw [List.length_drop]
  omega

def blocks (message : List α) : List (List α) :=
  (List.range (message.length / size)).map fun index => (message.drop (size * index)).take size

section Consume

variable {size compress} {state : σ} {message : List α}

theorem consume_short (short : message.length < size) :
    consume size compress state message = (state, message) := by
  rw [consume, if_neg (by omega)]

theorem consume_block {block : List α} (positive : 0 < size) (whole : block.length = size)
    (rest : List α) : consume size compress state (block ++ rest) =
      consume size compress (compress state block) rest := by
  have fits : size ≤ (block ++ rest).length := by
    rw [List.length_append]
    omega
  rw [consume, if_pos ⟨positive, fits⟩, List.take_left' whole, List.drop_left' whole]

theorem consume_whole {block : List α} (positive : 0 < size) (whole : block.length = size) :
    consume size compress state block = (compress state block, []) := by
  have split := @consume_block σ α size compress state block positive whole []
  rw [List.append_nil, consume_short (show ([] : List α).length < size from positive)] at split
  exact split

theorem length_consume (positive : 0 < size) :
    (consume size compress state message).2.length = message.length % size := by
  induction state, message using consume.induct size compress with
  | case1 state message whole induction =>
    rw [consume, if_pos whole, induction, List.length_drop, ← Nat.mod_eq_sub_mod whole.2]
  | case2 state message short =>
    rw [consume, if_neg short,
      Nat.mod_eq_of_lt (Nat.lt_of_not_le fun fits => short ⟨positive, fits⟩)]

theorem consume_append (positive : 0 < size) (behind : List α) :
    consume size compress state (message ++ behind) =
      consume size compress (consume size compress state message).1
        ((consume size compress state message).2 ++ behind) := by
  induction state, message using consume.induct size compress with
  | case1 state message whole induction =>
    have front : (message.take size).length = size := List.length_take_of_le whole.2
    rw [consume.eq_def size compress state message, if_pos whole, ← induction,
      ← consume_block positive front, ← List.append_assoc, List.take_append_drop]
  | case2 state message short => rw [consume.eq_def size compress state message, if_neg short]

theorem consume_congr {other : σ → List α → σ}
    (same : ∀ state block, block.length = size → compress state block = other state block) :
    consume size compress state message = consume size other state message := by
  induction state, message using consume.induct size compress with
  | case1 state message whole induction =>
    have front : (message.take size).length = size := List.length_take_of_le whole.2
    rw [consume, if_pos whole, induction, consume.eq_def size other state message, if_pos whole,
      same state _ front]
  | case2 state message short => rw [consume, if_neg short, consume, if_neg short]

theorem blocks_short (short : message.length < size) : blocks size message = [] := by
  rw [blocks, Nat.div_eq_of_lt short]
  rfl

theorem blocks_append {block : List α} (positive : 0 < size) (whole : block.length = size)
    (rest : List α) : blocks size (block ++ rest) = block :: blocks size rest := by
  have count : (block ++ rest).length / size = rest.length / size + 1 := by
    rw [List.length_append, whole, Nat.add_div_left _ positive]
  rw [blocks, count, List.range_succ_eq_map, List.map_cons, List.map_map]
  congr 1
  · rw [Nat.mul_zero, List.drop_zero, List.take_left' whole]
  · apply List.map_congr_left
    intro index _
    have behind : size * index.succ = block.length + size * index := by
      rw [whole, Nat.mul_succ, Nat.add_comm]
    rw [Function.comp_apply, behind, ← List.drop_drop, List.drop_left' rfl]

theorem consume_fst (positive : 0 < size) :
    (consume size compress state message).1 = (blocks size message).foldl compress state := by
  induction state, message using consume.induct size compress with
  | case1 state message whole induction =>
    have front : (message.take size).length = size := List.length_take_of_le whole.2
    have split := blocks_append positive front (message.drop size)
    rw [List.take_append_drop] at split
    rw [consume, if_pos whole, induction, split, List.foldl_cons]
  | case2 state message short =>
    rw [consume, if_neg short, blocks_short (Nat.lt_of_not_le fun fits => short ⟨positive, fits⟩)]
    rfl

end Consume

end AgentC.BlockStream
