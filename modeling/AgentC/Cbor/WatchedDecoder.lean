import AgentC.Cbor.RoundTrip
import AgentC.Foundation.CallDepth

/-! # The calls of the daemon's decoder

The decoder of `daemon/src/cbor_decode.cpp` once more, noting how many calls of
`decode_item` are active, and with its depth limit as an argument: the source has 64. -/

namespace AgentC.Cbor

open Watched

def checkContainerTo (deepest n depth : Nat) (tooLarge : String) : Except String Unit :=
  if 100000 < n then .error tooLarge
  else if deepest ≤ depth then .error "cbor: max depth exceeded"
  else .ok ()

mutual

def watchedItem (deepest : Nat) : Nat → Nat → Bytes → Watched String (Item × Bytes)
  | 0, _, _ => quiet (.error "out of fuel")
  | fuel + 1, depth, input => called do
      let (ib, rest) ← quiet (readBe 1 input)
      if ib / 32 = 7 then quiet (decodeSimple (ib % 32) rest)
      else
        let (n, rest) ← quiet (readAi (ib % 32) rest)
        if ib / 32 = 0 then return (decodeUint n, rest)
        else if ib / 32 = 1 then
          let number ← quiet (decodeNegative n)
          return (number, rest)
        else if ib / 32 = 2 then quiet (decodeBytes n rest)
        else if ib / 32 = 3 then
          let (text, rest) ← quiet (decodeText n rest)
          return (.string text, rest)
        else if ib / 32 = 4 then
          quiet (checkContainerTo deepest n depth "cbor: array too large")
          let (items, rest) ← watchedItems deepest fuel (depth + 1) n [] rest
          return (.array items, rest)
        else if ib / 32 = 5 then
          quiet (checkContainerTo deepest n depth "cbor: map too large")
          let (members, rest) ← watchedMembers deepest fuel (depth + 1) n [] rest
          return (.object members, rest)
        else watchedItem deepest fuel depth rest

def watchedItems (deepest : Nat) : Nat → Nat → Nat → List Item → Bytes →
    Watched String (List Item × Bytes)
  | 0, _, _, _, _ => quiet (.error "out of fuel")
  | _ + 1, _, 0, items, input => return (items, input)
  | fuel + 1, depth, n + 1, items, input => do
    let (item, rest) ← watchedItem deepest fuel depth input
    watchedItems deepest fuel depth n (items ++ [item]) rest

def watchedMembers (deepest : Nat) : Nat → Nat → Nat → List (Bytes × Item) → Bytes →
    Watched String (List (Bytes × Item) × Bytes)
  | 0, _, _, _, _ => quiet (.error "out of fuel")
  | _ + 1, _, 0, members, input => return (members, input)
  | fuel + 1, depth, n + 1, members, input => do
    let (key, rest) ← quiet (decodeKey input)
    let (value, rest) ← watchedItem deepest fuel depth rest
    watchedMembers deepest fuel depth n (assign key value members) rest

end

/-- How many calls of `decode_item` are active in `cbor_decode_to_json_value`, noted at the
beginning of each of them. -/
def activeCalls (input : Bytes) : List Nat :=
  if input = [] then []
  else if 1024 * 1024 < input.length then []
  else (watchedItem 64 (2 * input.length + 1) 0 input 0).2

-- A map with an array in it.
example : activeCalls [0xa1, 0x61, 0x61, 0x82, 0x00, 0xc0, 0xf6] = [1, 2, 3, 3, 4] := by
  decide +kernel

theorem checkContainerTo_64 (n depth : Nat) (tooLarge : String) :
    checkContainerTo 64 n depth tooLarge = checkContainer n depth tooLarge := rfl

theorem watched_eq_decode (fuel : Nat) : (∀ depth input active,
      (watchedItem 64 fuel depth input active).1 = decodeItem fuel depth input) ∧
    (∀ depth n items input active, (watchedItems 64 fuel depth n items input active).1 =
        decodeItems fuel depth n items input) ∧ ∀ depth n members input active,
      (watchedMembers 64 fuel depth n members input active).1 =
        decodeMembers fuel depth n members input := by
  induction fuel with
  | zero =>
    refine ⟨?_, ?_, ?_⟩
    · intro depth input active
      rw [watchedItem, decodeItem, result_quiet]
    · intro depth n items input active
      rw [watchedItems, decodeItems, result_quiet]
    · intro depth n members input active
      rw [watchedMembers, decodeMembers, result_quiet]
  | succ fuel induction =>
    rcases induction with ⟨itemSame, itemsSame, membersSame⟩
    refine ⟨?_, ?_, ?_⟩
    · intro depth input active
      rw [watchedItem, decodeItem, result_called, result_bind, result_quiet]
      congr 1
      funext first
      rcases first with ⟨ib, behind⟩
      dsimp only
      split
      · rw [result_quiet]
      · rw [result_bind, result_quiet]
        congr 1
        funext second
        rcases second with ⟨n, rest⟩
        dsimp only
        split
        · rfl
        · split
          · rw [result_bind]
            rfl
          · split
            · rfl
            · split
              · rw [result_bind]
                rfl
              · split
                · rw [result_bind, result_quiet, checkContainerTo_64]
                  congr 1
                  funext checked
                  rw [result_bind, itemsSame]
                  rfl
                · split
                  · rw [result_bind, result_quiet, checkContainerTo_64]
                    congr 1
                    funext checked
                    rw [result_bind, membersSame]
                    rfl
                  · exact itemSame depth rest (active + 1)
    · intro depth n items input active
      cases n with
      | zero => rw [watchedItems, decodeItems]; rfl
      | succ n =>
        rw [watchedItems, decodeItems, result_bind, itemSame]
        congr 1
        funext read
        exact itemsSame depth n _ _ active
    · intro depth n members input active
      cases n with
      | zero => rw [watchedMembers, decodeMembers]; rfl
      | succ n =>
        rw [watchedMembers, decodeMembers, result_bind, result_quiet]
        congr 1
        funext key
        rw [result_bind, itemSame]
        congr 1
        funext read
        exact membersSame depth n _ _ active

end AgentC.Cbor
