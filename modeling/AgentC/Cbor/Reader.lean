import AgentC.Cbor.Encode

/-! # The core library's reader

`core/src/agent_cbor_read.c`. A call takes the bytes between the offset and the end of
the buffer and returns what it has read with the bytes behind it. -/

namespace AgentC.Cbor.Reader

/-- `max_depth` and `max_container_items` of `agent_cbor_reader_init`. -/
def maxDepth : Nat := 16
def maxContainerItems : Nat := 4096

/-- `read_be_u64`, and `read_u8` for one byte. -/
def readBeU64 (nBytes : Nat) (input : Bytes) : Except Status (Nat × Bytes) :=
  if input.length < nBytes then .error .bounds
  else .ok (beValue (input.take nBytes), input.drop nBytes)

/-- What `read_head` returns, without the additional information. -/
structure Head where
  major : Nat
  arg : Nat

def readArg (major nBytes : Nat) (input : Bytes) : Except Status (Head × Bytes) := do
  let (arg, rest) ← readBeU64 nBytes input
  return (⟨major, arg⟩, rest)

def readHead (input : Bytes) : Except Status (Head × Bytes) := do
  let (b, rest) ← readBeU64 1 input
  let major := b / 32
  let ai := b % 32
  if ai < 24 then return (⟨major, ai⟩, rest)
  else if ai = 24 then readArg major 1 rest
  else if ai = 25 then readArg major 2 rest
  else if ai = 26 then readArg major 4 rest
  else if ai = 27 then readArg major 8 rest
  else .error .invalidArgument

def readContainerCount (arg : Nat) : Except Status Nat :=
  if maxContainerItems < arg then .error .limit else .ok arg

def readUint (input : Bytes) : Except Status (Nat × Bytes) := do
  let (head, rest) ← readHead input
  if head.major ≠ 0 then .error .invalidArgument else return (head.arg, rest)

def readText (input : Bytes) : Except Status (Bytes × Bytes) := do
  let (head, rest) ← readHead input
  if head.major ≠ 3 then .error .invalidArgument
  else if rest.length < head.arg then .error .bounds
  else return (rest.take head.arg, rest.drop head.arg)

def readMapStart (input : Bytes) : Except Status (Nat × Bytes) := do
  let (head, rest) ← readHead input
  if head.major ≠ 5 then .error .invalidArgument
  else
    let n ← readContainerCount head.arg
    return (n, rest)

def skipN (n : Nat) (input : Bytes) : Except Status Bytes :=
  if input.length < n then .error .bounds else .ok (input.drop n)

/-- The loops of `agent_cbor_skip_item`. -/
def skipTimes (skip : Bytes → Except Status Bytes) : Nat → Bytes → Except Status Bytes
  | 0, input => .ok input
  | n + 1, input => do
    let rest ← skip input
    skipTimes skip n rest

/-- The call one level deeper, where `max_depth` is not reached. -/
def descend (deeper : Option (Bytes → Except Status Bytes)) :
    Except Status (Bytes → Except Status Bytes) :=
  match deeper with
  | none => .error .limit
  | some skip => .ok skip

/-- One call of `agent_cbor_skip_item`. -/
def skipBelow (deeper : Option (Bytes → Except Status Bytes)) (input : Bytes) :
    Except Status Bytes := do
  let (head, rest) ← readHead input
  if head.major = 0 ∨ head.major = 1 then return rest
  else if head.major = 2 ∨ head.major = 3 then skipN head.arg rest
  else if head.major = 4 then
    let n ← readContainerCount head.arg
    let skip ← descend deeper
    skipTimes skip n rest
  else if head.major = 5 then
    let n ← readContainerCount head.arg
    let skip ← descend deeper
    -- A key and a value for every pair.
    skipTimes skip (2 * n) rest
  else if head.major = 6 then
    let skip ← descend deeper
    skip rest
  else return rest

/-- `agent_cbor_skip_item`; `levels` is how much deeper it may go. -/
def skipItem : Nat → Bytes → Except Status Bytes
  | 0 => skipBelow none
  | levels + 1 => skipBelow (some (skipItem levels))

def readItemView (input : Bytes) : Except Status (Bytes × Bytes) := do
  let rest ← skipItem maxDepth input
  return (input.take (input.length - rest.length), rest)

section Reads

variable {major : UInt8} {n : Nat} {head : Bytes}

theorem readBeU64_one (byte : UInt8) (rest : Bytes) :
    readBeU64 1 (byte :: rest) = .ok (byte.toNat, rest) := by
  rw [readBeU64, if_neg (by rw [List.length_cons]; omega)]
  simp [beValue]

theorem readBeU64_beBytes {width value : Nat} (bounded : value < 256 ^ width) (rest : Bytes) :
    readBeU64 width (beBytes width value ++ rest) = .ok (value, rest) := by
  have length := length_beBytes width value
  rw [readBeU64, if_neg (by rw [List.length_append, length]; omega), List.take_left' length,
    List.drop_left' length, beValue_beBytes bounded]

theorem readHead_isHead (shifted : major.toNat % 32 = 0) (isHead : IsHead major n head)
    (rest : Bytes) : readHead (head ++ rest) = .ok (⟨major.toNat / 32, n⟩, rest) := by
  cases isHead with
  | short small =>
    have quotient : (major.toNat + n) / 32 = major.toNat / 32 := by omega
    have remainder : (major.toNat + n) % 32 = n := by omega
    simp only [readHead, List.cons_append, List.nil_append, readBeU64_one,
      toNat_or shifted (show n < 32 by omega), bind, Except.bind, quotient, remainder, if_pos small]
    rfl
  | wide listed bounded =>
    next ai width =>
      have small : ai < 32 := by
        simp only [List.mem_cons, Prod.mk.injEq, List.not_mem_nil, or_false] at listed
        omega
      have quotient : (major.toNat + ai) / 32 = major.toNat / 32 := by omega
      have remainder : (major.toNat + ai) % 32 = ai := by omega
      have arg : readArg (major.toNat / 32) width (beBytes width n ++ rest) =
          .ok (⟨major.toNat / 32, n⟩, rest) := by
        rw [readArg, readBeU64_beBytes bounded]
        rfl
      simp only [readHead, List.cons_append, readBeU64_one, toNat_or shifted small, bind,
        Except.bind, quotient, remainder]
      simp only [List.mem_cons, Prod.mk.injEq, List.not_mem_nil, or_false] at listed
      rcases listed with ⟨rfl, rfl⟩ | ⟨rfl, rfl⟩ | ⟨rfl, rfl⟩ | ⟨rfl, rfl⟩
      · exact arg
      · exact arg
      · exact arg
      · exact arg

theorem readUint_isHead (isHead : IsHead majorUint n head) (rest : Bytes) :
    readUint (head ++ rest) = .ok (n, rest) := by
  have read : readHead (head ++ rest) = .ok (⟨0, n⟩, rest) :=
    readHead_isHead (by decide) isHead rest
  rw [readUint, read]
  rfl

theorem readText_isHead {text : Bytes} (isHead : IsHead majorText text.length head)
    (rest : Bytes) : readText (head ++ (text ++ rest)) = .ok (text, rest) := by
  have read : readHead (head ++ (text ++ rest)) = .ok (⟨3, text.length⟩, text ++ rest) :=
    readHead_isHead (by decide) isHead _
  have enough : ¬(text ++ rest).length < text.length := by
    rw [List.length_append]
    omega
  simp only [readText, read, bind, Except.bind, ne_eq, not_true_eq_false, if_false, if_neg enough,
    List.take_left, List.drop_left]
  rfl

theorem readMapStart_isHead (isHead : IsHead majorMap n head) (few : n ≤ maxContainerItems)
    (rest : Bytes) : readMapStart (head ++ rest) = .ok (n, rest) := by
  have read : readHead (head ++ rest) = .ok (⟨5, n⟩, rest) :=
    readHead_isHead (by decide) isHead rest
  have counted : readContainerCount n = .ok n := if_neg (by omega)
  simp only [readMapStart, read, bind, Except.bind, ne_eq, not_true_eq_false, if_false, counted]
  rfl

end Reads

def Skips (skip : Bytes → Except Status Bytes) (item : Bytes) : Prop :=
  ∀ rest, skip (item ++ rest) = .ok rest

theorem skipTimes_items {skip : Bytes → Except Status Bytes} {items : List Bytes}
    (each : ∀ item ∈ items, Skips skip item) :
    Skips (skipTimes skip items.length) items.flatten := by
  intro rest
  induction items with
  | nil => rfl
  | cons item more induction =>
    rw [List.length_cons, List.flatten_cons, List.append_assoc, skipTimes,
      each item (List.mem_cons_self ..)]
    exact induction fun other member => each other (List.mem_cons_of_mem _ member)

theorem skipTimes_pairs {skip : Bytes → Except Status Bytes} {pairs : List (Bytes × Bytes)}
    (keys : ∀ pair ∈ pairs, Skips skip pair.1) (values : ∀ pair ∈ pairs, Skips skip pair.2) :
    Skips (skipTimes skip (2 * pairs.length)) (pairs.flatMap fun pair => pair.1 ++ pair.2) := by
  intro rest
  induction pairs with
  | nil => rfl
  | cons pair more induction =>
    have later := induction (fun other member => keys other (List.mem_cons_of_mem _ member))
      fun other member => values other (List.mem_cons_of_mem _ member)
    rw [List.length_cons, Nat.mul_succ, List.flatMap_cons, List.append_assoc,
      List.append_assoc, skipTimes, keys pair (List.mem_cons_self ..)]
    simp only [bind, Except.bind, skipTimes]
    rw [values pair (List.mem_cons_self ..)]
    exact later

variable {item : Bytes}

section Levels

variable {major : UInt8} {n : Nat} {head content : Bytes}
  {deeper : Option (Bytes → Except Status Bytes)}

theorem skips_number (isHead : IsHead majorUint n head ∨ IsHead majorNegative n head) :
    Skips (skipBelow deeper) head := by
  intro rest
  rcases isHead with isHead | isHead
  · rw [skipBelow, readHead_isHead (by decide) isHead]
    rfl
  · rw [skipBelow, readHead_isHead (by decide) isHead]
    rfl

theorem skipN_append (content rest : Bytes) : skipN content.length (content ++ rest) = .ok rest := by
  rw [skipN, if_neg (by rw [List.length_append]; omega), List.drop_left]

theorem skips_string
    (isHead : IsHead majorBytes content.length head ∨ IsHead majorText content.length head) :
    Skips (skipBelow deeper) (head ++ content) := by
  intro rest
  rw [List.append_assoc]
  rcases isHead with isHead | isHead
  · rw [skipBelow, readHead_isHead (by decide) isHead]
    exact skipN_append content rest
  · rw [skipBelow, readHead_isHead (by decide) isHead]
    exact skipN_append content rest

theorem skips_simple (isHead : IsHead majorSimple n head) : Skips (skipBelow deeper) head := by
  intro rest
  rw [skipBelow, readHead_isHead (by decide) isHead]
  rfl

variable {skip : Bytes → Except Status Bytes}

theorem skips_tag (isHead : IsHead majorTag n head) (tagged : Skips skip item) :
    Skips (skipBelow (some skip)) (head ++ item) := by
  intro rest
  rw [List.append_assoc, skipBelow, readHead_isHead (by decide) isHead]
  exact tagged rest

theorem skips_array (isHead : IsHead majorArray n head) (few : n ≤ maxContainerItems)
    (items : Skips (skipTimes skip n) content) :
    Skips (skipBelow (some skip)) (head ++ content) := by
  intro rest
  have read : readHead (head ++ (content ++ rest)) = .ok (⟨4, n⟩, content ++ rest) :=
    readHead_isHead (by decide) isHead _
  have counted : readContainerCount n = .ok n := if_neg (by omega)
  rw [List.append_assoc, skipBelow, read]
  simp [bind, Except.bind, counted, descend, items rest]

theorem skips_map (isHead : IsHead majorMap n head) (few : n ≤ maxContainerItems)
    (pairs : Skips (skipTimes skip (2 * n)) content) :
    Skips (skipBelow (some skip)) (head ++ content) := by
  intro rest
  have read : readHead (head ++ (content ++ rest)) = .ok (⟨5, n⟩, content ++ rest) :=
    readHead_isHead (by decide) isHead _
  have counted : readContainerCount n = .ok n := if_neg (by omega)
  rw [List.append_assoc, skipBelow, read]
  simp [bind, Except.bind, counted, descend, pairs rest]

end Levels

def FewItems (n : Nat) : Prop := n ≤ maxContainerItems

theorem skips_definite {levels : Nat} (definite : DefiniteItem FewItems levels item) :
    Skips (skipItem levels) item := by
  induction definite with
  | @number levels n head isHead =>
    cases levels with
    | zero => exact skips_number isHead
    | succ levels => exact skips_number isHead
  | @string levels head content isHead =>
    cases levels with
    | zero => exact skips_string isHead
    | succ levels => exact skips_string isHead
  | array isHead isFew each induction => exact skips_array isHead isFew (skipTimes_items induction)
  | map isHead isFew keys values keysInduction valuesInduction =>
    exact skips_map isHead isFew (skipTimes_pairs keysInduction valuesInduction)
  | tag isHead tagged induction => exact skips_tag isHead induction
  | @simple levels n head isHead =>
    cases levels with
    | zero => exact skips_simple isHead
    | succ levels => exact skips_simple isHead

theorem readItemView_definite (definite : DefiniteItem FewItems maxDepth item) (rest : Bytes) :
    readItemView (item ++ rest) = .ok (item, rest) := by
  have length : (item ++ rest).length - rest.length = item.length := by
    rw [List.length_append]
    omega
  rw [readItemView, skips_definite definite rest]
  simp only [bind, Except.bind, length, List.take_left]
  rfl

end AgentC.Cbor.Reader
