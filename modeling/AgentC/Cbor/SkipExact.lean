import AgentC.Cbor.ReaderState

/-! # Skipping is exact

`agent_cbor_skip_item` goes past one complete item or fails; either way only the
offset changes. -/

namespace AgentC.Cbor

namespace CborReader

def levels (reader : CborReader) : Nat :=
  reader.maxDepth.toNat - reader.depth.toNat

/-- A complete item within the limits of the reader starts at the offset. -/
structure ItemAt (reader : CborReader) (item : Bytes) : Prop where
  begins : reader.Begins item
  definite : DefiniteItem (· ≤ reader.maxContainerItems) reader.levels item

theorem levels_entered {reader : CborReader} (shallow : ¬reader.maxDepth ≤ reader.depth) :
    reader.levels = reader.entered.levels + 1 := by
  rw [UInt8.le_iff_toNat_le] at shallow
  have bound := reader.maxDepth.toNat_lt
  have deeper : (reader.depth + 1).toNat = reader.depth.toNat + 1 := by
    rw [UInt8.toNat_add]
    exact Nat.mod_eq_of_lt (by
      change reader.depth.toNat + 1 < 256
      omega)
  rw [levels, levels]
  change _ = reader.maxDepth.toNat - (reader.depth + 1).toNat + 1
  omega

end CborReader

namespace Call

/-- What `skipItem` does behind the head. -/
def skipBehind (fuel : Nat) (head : Head) : Call Unit :=
  if head.major = 0 ∨ head.major = 1 then pure ()
  else if head.major = 2 ∨ head.major = 3 then
    if sizeMax < head.arg then fail .limit
    else skipN head.arg.toNat
  else if head.major = 4 then do
    let n ← readContainerCount head.arg
    below do
      skipItems (skipItem fuel) n
      modify (·.left)
  else if head.major = 5 then do
    let n ← readContainerCount head.arg
    below do
      skipPairs (skipItem fuel) n
      modify (·.left)
  else if head.major = 6 then
    below do
      inside (skipItem fuel)
      modify (·.left)
  else if head.major = 7 then pure ()
  else fail .invalidArgument

theorem skipItem_succ (fuel : Nat) : skipItem (fuel + 1) = readHead >>= skipBehind fuel := rfl

variable {reader : CborReader}

theorem not_sizeMax_lt (arg : UInt64) : ¬sizeMax < arg := by
  rw [UInt64.lt_iff_toNat_lt]
  exact Nat.not_lt.mpr (Nat.le_of_lt_succ arg.toNat_lt)

theorem readContainerCount_of_le {arg : UInt64} (few : arg.toNat ≤ reader.maxContainerItems) :
    readContainerCount arg reader = (.ok arg.toNat, reader) := by
  rw [readContainerCount, if_neg (not_sizeMax_lt arg)]
  change (if reader.maxContainerItems < arg.toNat then fail .limit else pure arg.toNat : Call Nat)
    reader = _
  rw [if_neg (Nat.not_lt.mpr few)]
  rfl

theorem readContainerCount_of_lt {arg : UInt64} (many : reader.maxContainerItems < arg.toNat) :
    readContainerCount arg reader = (.error (.status .limit), reader) := by
  rw [readContainerCount, if_neg (not_sizeMax_lt arg)]
  change (if reader.maxContainerItems < arg.toNat then fail .limit else pure arg.toNat : Call Nat)
    reader = _
  rw [if_pos many]
  rfl

theorem below_of_shallow (shallow : ¬reader.maxDepth ≤ reader.depth) (call : Call Unit) :
    below call reader = call reader.entered := by
  change (if reader.maxDepth ≤ reader.depth then fail .limit else modify (·.entered) >>= fun _ =>
    call : Call Unit) reader = _
  rw [if_neg shallow]
  rfl

theorem below_of_deep (deep : reader.maxDepth ≤ reader.depth) (call : Call Unit) :
    below call reader = (.error (.status .limit), reader) := by
  change (if reader.maxDepth ≤ reader.depth then fail .limit else modify (·.entered) >>= fun _ =>
    call : Call Unit) reader = _
  rw [if_pos deep]
  rfl

theorem skipN_of_begins {content : Bytes} (begins : reader.Begins content) :
    skipN content.length reader = (.ok (), reader.moved content.length) := by
  rw [skipN, bind_ok (ensure_of_begins begins (Nat.le_refl _))]
  rfl

theorem inside_ok {call : Call Unit} {after : CborReader} (done : call reader = (.ok (), after)) :
    inside call reader = (.ok (), after) := by
  rw [inside, done]

theorem inside_error {call : Call Unit} {halt : Halt} {after : CborReader}
    (failed : call reader = (.error halt, after)) :
    inside call reader = (.error halt, after.left) := by
  rw [inside, failed]

/-- The call goes past one item at the offset, or it fails. -/
def Exact (call : Call Unit) (reader : CborReader) : Prop :=
  (∃ item, reader.ItemAt item ∧ call reader = (.ok (), reader.moved item.length)) ∨
    Fails call reader

/-- A call in a container goes past the items of the container, or it fails and has left
the container. -/
def ExactInside (call : Call Unit) (reader : CborReader) (holds : Bytes → Prop) : Prop :=
  (∃ content, reader.Begins content ∧ holds content ∧
    call reader = (.ok (), reader.moved content.length)) ∨
  ∃ code n, call reader = (.error (.status code), (reader.moved n).left)

theorem skipItems_exact {skip : Call Unit} (n : Nat) :
    ∀ reader : CborReader, reader.Begins [] → (∀ m, Exact skip (reader.moved m)) →
      ExactInside (skipItems skip n) reader fun content => ∃ items : List Bytes,
        items.length = n ∧ items.flatten = content ∧
          ∀ item ∈ items, DefiniteItem (· ≤ reader.maxContainerItems) reader.levels item := by
  induction n with
  | zero =>
    intro reader inside _
    exact .inl ⟨[], inside, ⟨[], rfl, rfl, fun _ member => nomatch member⟩, rfl⟩
  | succ n induction =>
    intro reader inBuffer exact
    have here : Exact skip reader := exact 0
    rcases here with ⟨item, itemAt, done⟩ | ⟨code, m, failed⟩
    · have behind : ∀ m, Exact skip ((reader.moved item.length).moved m) := by
        intro m
        rw [CborReader.moved_moved]
        exact exact _
      rcases induction (reader.moved item.length) itemAt.begins.behind behind with
        ⟨content, begins, ⟨items, length, rfl, each⟩, doneBehind⟩ | ⟨code, m, failed⟩
      · refine .inl ⟨item ++ items.flatten, itemAt.begins.append begins,
          ⟨item :: items, by rw [List.length_cons, length], rfl, ?_⟩, ?_⟩
        · intro other member
          rcases List.mem_cons.mp member with rfl | later
          · exact itemAt.definite
          · exact each other later
        · rw [skipItems, bind_ok (inside_ok done)]
          rw [CborReader.moved_moved] at doneBehind
          rw [List.length_append]
          exact doneBehind
      · refine .inr ⟨code, item.length + m, ?_⟩
        rw [skipItems, bind_ok (inside_ok done)]
        rw [CborReader.moved_moved] at failed
        exact failed
    · refine .inr ⟨code, m, ?_⟩
      rw [skipItems, bind_error (inside_error failed)]

theorem skipPairs_eq (skip : Call Unit) (n : Nat) : skipPairs skip n = skipItems skip (2 * n) := by
  induction n with
  | zero => rfl
  | succ n induction => rw [skipPairs, induction, Nat.mul_succ, skipItems, skipItems]

theorem pairs_of_items : ∀ {n : Nat} {items : List Bytes}, items.length = 2 * n →
    ∃ pairs : List (Bytes × Bytes), pairs.length = n ∧
      items = pairs.flatMap fun pair => [pair.1, pair.2]
  | 0, [], _ => ⟨[], rfl, rfl⟩
  | n + 1, key :: value :: rest, length => by
    simp only [List.length_cons] at length
    rcases @pairs_of_items n rest (by omega) with ⟨pairs, count, rfl⟩
    exact ⟨(key, value) :: pairs, by rw [List.length_cons, count], rfl⟩
  | 0, _ :: _, length => nomatch length
  | n + 1, [], length => by
    simp only [List.length_nil] at length
    omega
  | n + 1, [_], length => by
    simp only [List.length_cons, List.length_nil] at length
    omega

theorem flatten_pairs (pairs : List (Bytes × Bytes)) :
    (pairs.flatMap fun pair => [pair.1, pair.2]).flatten =
      pairs.flatMap fun pair => pair.1 ++ pair.2 := by
  induction pairs with
  | nil => rfl
  | cons pair rest induction => simp [List.flatMap_cons, induction]

theorem below_exact {body : Call Unit} {holds : Bytes → Prop}
    (exact : ¬reader.maxDepth ≤ reader.depth → ExactInside body reader.entered holds) :
    (¬reader.maxDepth ≤ reader.depth ∧ ∃ content, reader.Begins content ∧ holds content ∧
      below (body >>= fun _ => modify (·.left)) reader =
        (.ok (), reader.moved content.length)) ∨
    Fails (below (body >>= fun _ => modify (·.left))) reader := by
  by_cases deep : reader.maxDepth ≤ reader.depth
  · exact .inr ⟨.limit, 0, below_of_deep deep _⟩
  · rcases exact deep with ⟨content, begins, held, done⟩ | ⟨code, n, failed⟩
    · refine .inl ⟨deep, content, begins, held, ?_⟩
      rw [below_of_shallow deep, bind_ok done]
      exact congrArg (Prod.mk _) (CborReader.left_entered (reader.moved content.length))
    · refine .inr ⟨code, n, ?_⟩
      rw [below_of_shallow deep, bind_error failed]
      exact congrArg (Prod.mk _) (CborReader.left_entered (reader.moved n))

theorem container_exact {arg : UInt64} {body : Nat → Call Unit} {holds : Bytes → Prop}
    (exact : arg.toNat ≤ reader.maxContainerItems → ¬reader.maxDepth ≤ reader.depth →
      ExactInside (body arg.toNat) reader.entered holds) :
    (arg.toNat ≤ reader.maxContainerItems ∧ ¬reader.maxDepth ≤ reader.depth ∧
      ∃ content, reader.Begins content ∧ holds content ∧
        (readContainerCount arg >>= fun n => below (body n >>= fun _ => modify (·.left))) reader =
          (.ok (), reader.moved content.length)) ∨
    Fails (readContainerCount arg >>= fun n => below (body n >>= fun _ => modify (·.left)))
      reader := by
  by_cases few : arg.toNat ≤ reader.maxContainerItems
  · have counted := readContainerCount_of_le few
    rcases below_exact (exact few) with ⟨shallow, content, begins, held, done⟩ | failed
    · exact .inl ⟨few, shallow, content, begins, held, by rw [bind_ok counted, done]⟩
    · exact .inr (failed.behind (n := 0) counted)
  · exact .inr ⟨.limit, 0, bind_error (readContainerCount_of_lt (Nat.lt_of_not_le few))⟩

set_option maxRecDepth 2000 in
theorem major_cases : ∀ major : UInt8, major < 8 →
    major = 0 ∨ major = 1 ∨ major = 2 ∨ major = 3 ∨ major = 4 ∨ major = 5 ∨ major = 6 ∨ major = 7 :=
  forall_byte (by decide)

theorem skipN_exact (n : Nat) (reader : CborReader) :
    (∃ content : Bytes, content.length = n ∧ reader.Begins content ∧
      skipN n reader = (.ok (), reader.moved n)) ∨ Fails (skipN n) reader := by
  rcases ensure_cases n reader with ⟨content, rfl, begins, _⟩ | ⟨code, failed⟩
  · exact .inl ⟨content, rfl, begins, skipN_of_begins begins⟩
  · exact .inr ⟨code, 0, bind_error failed⟩

/-- An item whose head is read: the rest of it, or a failure. -/
def ExactBehind (call : Call Unit) (reader : CborReader) (headBytes : Bytes) : Prop :=
  (∃ content, reader.Begins content ∧
    DefiniteItem (· ≤ reader.maxContainerItems) reader.levels (headBytes ++ content) ∧
    call reader = (.ok (), reader.moved content.length)) ∨ Fails call reader

variable {major : UInt8} {α : Type} {call : Call α}

theorem skipBehind_string (fuel : Nat) (isString : major = 2 ∨ major = 3) (ai : UInt8)
    (arg : UInt64) : skipBehind fuel ⟨major, ai, arg⟩ = skipN arg.toNat := by
  have fits := not_sizeMax_lt arg
  rcases isString with rfl | rfl
  · change (if sizeMax < arg then fail .limit else skipN arg.toNat) = _
    rw [if_neg fits]
  · change (if sizeMax < arg then fail .limit else skipN arg.toNat) = _
    rw [if_neg fits]

theorem skipBehind_array (fuel : Nat) (ai : UInt8) (arg : UInt64) :
    skipBehind fuel ⟨4, ai, arg⟩ = readContainerCount arg >>= fun n =>
      below (skipItems (skipItem fuel) n >>= fun _ => modify (·.left)) := rfl

theorem skipBehind_map (fuel : Nat) (ai : UInt8) (arg : UInt64) :
    skipBehind fuel ⟨5, ai, arg⟩ = readContainerCount arg >>= fun n =>
      below (skipItems (skipItem fuel) (2 * n) >>= fun _ => modify (·.left)) := by
  change (readContainerCount arg >>= fun n =>
    below (skipPairs (skipItem fuel) n >>= fun _ => modify (·.left))) = _
  simp only [skipPairs_eq]

theorem skipBehind_tag (fuel : Nat) (ai : UInt8) (arg : UInt64) :
    skipBehind fuel ⟨6, ai, arg⟩ =
      below (inside (skipItem fuel) >>= fun _ => modify (·.left)) := rfl

section Behind

variable {fuel : Nat} {arg : UInt64} {headBytes : Bytes}

theorem string_exact (isString : major = 2 ∨ major = 3) (ai : UInt8)
    (isHead : IsHead (major <<< 5) arg.toNat headBytes) :
    ExactBehind (skipBehind fuel ⟨major, ai, arg⟩) reader headBytes := by
  rw [skipBehind_string fuel isString]
  rcases skipN_exact arg.toNat reader with ⟨content, length, begins, done⟩ | failed
  · rw [← length] at isHead done
    refine .inl ⟨content, begins, .string ?_, ?_⟩
    · rcases isString with rfl | rfl
      · exact .inl isHead
      · exact .inr isHead
    · rw [← length]
      exact done
  · exact .inr failed

variable (deeper : ∀ reader : CborReader, reader.levels < fuel → Exact (skipItem fuel) reader)
include deeper

theorem deeper_entered (enough : reader.levels < fuel + 1)
    (shallow : ¬reader.maxDepth ≤ reader.depth) (m : Nat) :
    Exact (skipItem fuel) (reader.entered.moved m) := by
  have levels := CborReader.levels_entered shallow
  apply deeper
  change reader.entered.levels < fuel
  omega

theorem array_exact (ai : UInt8) (isHead : IsHead majorArray arg.toNat headBytes)
    (inBuffer : reader.Begins []) (enough : reader.levels < fuel + 1) :
    ExactBehind (skipBehind fuel ⟨4, ai, arg⟩) reader headBytes := by
  rw [skipBehind_array]
  rcases @container_exact reader arg (skipItems (skipItem fuel)) _ fun _ shallow =>
    skipItems_exact arg.toNat reader.entered inBuffer (deeper_entered deeper enough shallow) with
    ⟨few, shallow, content, begins, ⟨items, length, rfl, each⟩, done⟩ | failed
  · refine .inl ⟨items.flatten, begins, ?_, done⟩
    rw [CborReader.levels_entered shallow]
    exact .array (length ▸ isHead) (length ▸ few) each
  · exact .inr failed

theorem map_exact (ai : UInt8) (isHead : IsHead majorMap arg.toNat headBytes)
    (inBuffer : reader.Begins []) (enough : reader.levels < fuel + 1) :
    ExactBehind (skipBehind fuel ⟨5, ai, arg⟩) reader headBytes := by
  rw [skipBehind_map]
  rcases @container_exact reader arg (fun n => skipItems (skipItem fuel) (2 * n)) _
    fun _ shallow => skipItems_exact (2 * arg.toNat) reader.entered inBuffer
      (deeper_entered deeper enough shallow) with
    ⟨few, shallow, content, begins, ⟨items, length, rfl, each⟩, done⟩ | failed
  · rcases pairs_of_items length with ⟨pairs, count, rfl⟩
    have item : ∀ pair ∈ pairs, ∀ part, part = pair.1 ∨ part = pair.2 →
        DefiniteItem (· ≤ reader.maxContainerItems) reader.entered.levels part := by
      intro pair member part isPart
      exact each part (List.mem_flatMap.mpr ⟨pair, member, by simpa using isPart⟩)
    rw [flatten_pairs] at begins done
    refine .inl ⟨_, begins, ?_, done⟩
    rw [CborReader.levels_entered shallow]
    exact .map (count ▸ isHead) (count ▸ few) (fun pair member => item pair member _ (.inl rfl))
      fun pair member => item pair member _ (.inr rfl)
  · exact .inr failed

theorem tag_exact (ai : UInt8) (isHead : IsHead majorTag arg.toNat headBytes)
    (enough : reader.levels < fuel + 1) :
    ExactBehind (skipBehind fuel ⟨6, ai, arg⟩) reader headBytes := by
  rw [skipBehind_tag]
  have exact : ¬reader.maxDepth ≤ reader.depth → ExactInside (inside (skipItem fuel))
      reader.entered (DefiniteItem (· ≤ reader.maxContainerItems) reader.entered.levels) := by
    intro shallow
    rcases deeper_entered deeper enough shallow 0 with ⟨item, itemAt, done⟩ | ⟨code, n, failed⟩
    · exact .inl ⟨item, itemAt.begins, itemAt.definite, inside_ok done⟩
    · exact .inr ⟨code, n, inside_error failed⟩
  rcases below_exact exact with ⟨shallow, item, begins, definite, done⟩ | failed
  · refine .inl ⟨item, begins, ?_, done⟩
    rw [CborReader.levels_entered shallow]
    exact .tag isHead definite
  · exact .inr failed

theorem skipBehind_exact {head : Head} (headOf : HeadOf head headBytes)
    (inBuffer : reader.Begins []) (enough : reader.levels < fuel + 1) :
    ExactBehind (skipBehind fuel head) reader headBytes := by
  rcases head with ⟨major, ai, arg⟩
  have isHead := headOf.isHead
  have small := major_cases major headOf.major_lt
  rcases small with rfl | rfl | rfl | rfl | rfl | rfl | rfl | rfl
  · exact .inl ⟨[], inBuffer, by rw [List.append_nil]; exact .number (.inl isHead), rfl⟩
  · exact .inl ⟨[], inBuffer, by rw [List.append_nil]; exact .number (.inr isHead), rfl⟩
  · exact string_exact (.inl rfl) ai isHead
  · exact string_exact (.inr rfl) ai isHead
  · exact array_exact deeper ai isHead inBuffer enough
  · exact map_exact deeper ai isHead inBuffer enough
  · exact tag_exact deeper ai isHead enough
  · exact .inl ⟨[], inBuffer, by rw [List.append_nil]; exact .simple isHead, rfl⟩

end Behind

/-- With fuel for every level the call goes past one item, or it fails. -/
theorem skipItem_exact (fuel : Nat) :
    ∀ reader : CborReader, reader.levels < fuel → Exact (skipItem fuel) reader := by
  induction fuel with
  | zero =>
    intro reader enough
    exact absurd enough (Nat.not_lt_zero _)
  | succ fuel induction =>
    intro reader enough
    rw [skipItem_succ]
    rcases readHead_cases reader with ⟨head, headBytes, headOf, begins, done⟩ | failed
    · rcases skipBehind_exact induction headOf begins.behind enough with
        ⟨content, beginsBehind, definite, doneBehind⟩ | failed
      · refine .inl ⟨headBytes ++ content, ⟨begins.append beginsBehind, definite⟩, ?_⟩
        rw [bind_ok done, doneBehind, CborReader.moved_moved, List.length_append]
      · exact .inr (failed.behind done)
    · exact .inr (failed.first _)

def GoesPast (call : Call Unit) (reader : CborReader) (item : Bytes) : Prop :=
  ∀ m, (reader.moved m).Begins item →
    call (reader.moved m) = (.ok (), (reader.moved m).moved item.length)

theorem skipItems_past {skip : Call Unit} {items : List Bytes}
    (each : ∀ item ∈ items, GoesPast skip reader item) :
    GoesPast (skipItems skip items.length) reader items.flatten := by
  induction items with
  | nil => exact fun _ _ => rfl
  | cons item rest induction =>
    intro m begins
    rw [List.flatten_cons] at begins ⊢
    have first := each item (List.mem_cons_self ..) m begins.left
    have behind := begins.right
    rw [CborReader.moved_moved] at behind first
    have later := induction (fun other member => each other (List.mem_cons_of_mem _ member)) _
      behind
    rw [List.length_cons, skipItems, bind_ok (inside_ok first), later, CborReader.moved_moved,
      CborReader.moved_moved, List.length_append, Nat.add_assoc]

theorem skipBehind_simple (fuel : Nat) (isSimple : major = 0 ∨ major = 1 ∨ major = 7) (ai : UInt8)
    (arg : UInt64) : skipBehind fuel ⟨major, ai, arg⟩ = pure () := by
  rcases isSimple with rfl | rfl | rfl
  · rfl
  · rfl
  · rfl

theorem skipItem_of_head {fuel : Nat} {major : UInt8} {n : Nat} {headBytes content : Bytes}
    (multiple : major.toNat % 32 = 0) (isHead : IsHead major n headBytes)
    (begins : reader.Begins (headBytes ++ content))
    (past : ∀ ai after, after = reader.moved headBytes.length → after.Begins content →
      skipBehind fuel ⟨major >>> 5, ai, UInt64.ofNat n⟩ after =
        (.ok (), after.moved content.length)) :
    skipItem (fuel + 1) reader = (.ok (), reader.moved (headBytes ++ content).length) := by
  rcases readHead_isHead multiple isHead begins.left with ⟨ai, read⟩
  rw [skipItem_succ, bind_ok read, past ai _ rfl begins.right, CborReader.moved_moved,
    List.length_append]

variable {fuel : Nat} {item : Bytes} {n : Nat}

theorem skipItem_of_simple {headBytes : Bytes} (multiple : major.toNat % 32 = 0)
    (isSimple : major >>> 5 = 0 ∨ major >>> 5 = 1 ∨ major >>> 5 = 7)
    (isHead : IsHead major n headBytes) (begins : reader.Begins headBytes) :
    skipItem (fuel + 1) reader = (.ok (), reader.moved headBytes.length) := by
  have item : reader.Begins (headBytes ++ []) := by rwa [List.append_nil]
  have skipped := @skipItem_of_head reader fuel _ _ _ _ multiple isHead item fun ai after _ _ => by
    rw [skipBehind_simple fuel isSimple]
    rfl
  rwa [List.append_nil] at skipped

theorem left_moved_entered (reader : CborReader) (n : Nat) :
    (reader.entered.moved n).left = reader.moved n :=
  CborReader.left_entered (reader.moved n)

theorem below_past {body : Call Unit} {content : Bytes} (shallow : ¬reader.maxDepth ≤ reader.depth)
    (past : body reader.entered = (.ok (), reader.entered.moved content.length)) :
    below (body >>= fun _ => modify (·.left)) reader = (.ok (), reader.moved content.length) := by
  rw [below_of_shallow shallow, bind_ok past]
  exact congrArg (Prod.mk _) (left_moved_entered reader _)

theorem shallow_of_levels {levels : Nat} (le : levels + 1 ≤ reader.levels) :
    ¬reader.maxDepth ≤ reader.depth ∧ levels ≤ reader.entered.levels := by
  have shallow : ¬reader.maxDepth ≤ reader.depth := by
    rw [UInt8.le_iff_toNat_le]
    rw [CborReader.levels] at le
    omega
  have deeper := CborReader.levels_entered shallow
  exact ⟨shallow, by omega⟩

theorem container_past {n : Nat} {body : Nat → Call Unit} {content : Bytes} (small : n < 2 ^ 64)
    (few : n ≤ reader.maxContainerItems) (shallow : ¬reader.maxDepth ≤ reader.depth)
    (past : body n reader.entered = (.ok (), reader.entered.moved content.length)) :
    (readContainerCount (UInt64.ofNat n) >>= fun n => below (body n >>= fun _ =>
      modify (·.left))) reader = (.ok (), reader.moved content.length) := by
  have value : (UInt64.ofNat n).toNat = n := by
    rw [UInt64.toNat_ofNat', Nat.mod_eq_of_lt small]
  rw [bind_ok (readContainerCount_of_le (value.trans_le few)), value]
  exact below_past shallow past

theorem skipItem_of_nested {levels : Nat} {headBytes content : Bytes}
    (multiple : major.toNat % 32 = 0) (isHead : IsHead major n headBytes)
    (begins : reader.Begins (headBytes ++ content)) (le : levels + 1 ≤ reader.levels)
    (enough : reader.levels < fuel + 1)
    (past : ∀ less ai after, fuel = less + 1 → after = reader.moved headBytes.length →
      ¬after.maxDepth ≤ after.depth → levels ≤ after.entered.levels →
      after.entered.levels < less + 1 → after.Begins content →
      skipBehind (less + 1) ⟨major >>> 5, ai, UInt64.ofNat n⟩ after =
        (.ok (), after.moved content.length)) :
    skipItem (fuel + 1) reader = (.ok (), reader.moved (headBytes ++ content).length) := by
  rcases Nat.exists_eq_succ_of_ne_zero (show fuel ≠ 0 by omega) with ⟨less, rfl⟩
  refine skipItem_of_head multiple isHead begins fun ai after same beginsBehind => ?_
  subst same
  have shallow := @shallow_of_levels (reader.moved headBytes.length) levels le
  have deeper := CborReader.levels_entered shallow.1
  change reader.levels = _ at deeper
  exact past less ai _ rfl rfl shallow.1 shallow.2 (by omega) beginsBehind

theorem skipItem_definite {levels : Nat} {few : Nat → Prop}
    (definite : DefiniteItem few levels item) :
    ∀ {reader : CborReader} {fuel : Nat}, (∀ n, few n → n ≤ reader.maxContainerItems) →
      levels ≤ reader.levels → reader.levels < fuel + 1 → reader.Begins item →
        skipItem (fuel + 1) reader = (.ok (), reader.moved item.length) := by
  induction definite with
  | number isHead =>
    intro reader fuel _ _ _ begins
    rcases isHead with isHead | isHead
    · exact skipItem_of_simple (by decide) (by decide) isHead begins
    · exact skipItem_of_simple (by decide) (by decide) isHead begins
  | @string levels head content isHead =>
    intro reader fuel _ _ _ begins
    have past : ∀ {major : UInt8} ai after, (major >>> 5 = 2 ∨ major >>> 5 = 3) →
        content.length < 2 ^ 64 → after.Begins content →
        skipBehind fuel ⟨major >>> 5, ai, UInt64.ofNat content.length⟩ after =
          (.ok (), after.moved content.length) := by
      intro major ai after isString small beginsBehind
      rw [skipBehind_string fuel isString, UInt64.toNat_ofNat', Nat.mod_eq_of_lt small]
      exact skipN_of_begins beginsBehind
    rcases isHead with isHead | isHead
    · exact skipItem_of_head (by decide) isHead begins fun ai after _ =>
        past ai after (by decide) (IsHead.lt isHead)
    · exact skipItem_of_head (by decide) isHead begins fun ai after _ =>
        past ai after (by decide) (IsHead.lt isHead)
  | @array levels head items isHead isFew each induction =>
    intro reader fuel within le enough begins
    refine skipItem_of_nested (by decide) isHead begins le enough ?_
    intro fuel ai after same place shallow deep enoughDeeper beginsBehind
    subst same place
    have past : GoesPast (skipItems (skipItem (fuel + 1)) items.length)
        (reader.moved head.length).entered items.flatten :=
      skipItems_past fun item member m beginsItem =>
        induction item member within deep enoughDeeper beginsItem
    change skipBehind _ ⟨4, ai, _⟩ _ = _
    rw [skipBehind_array]
    exact container_past (IsHead.lt isHead) (within _ isFew) shallow (past 0 beginsBehind)
  | @map levels head pairs isHead isFew keys values keysInduction valuesInduction =>
    intro reader fuel within le enough begins
    refine skipItem_of_nested (by decide) isHead begins le enough ?_
    intro fuel ai after same place shallow deep enoughDeeper beginsBehind
    subst same place
    have past : GoesPast (skipItems (skipItem (fuel + 1)) (2 * pairs.length))
        (reader.moved head.length).entered (pairs.flatMap fun pair => pair.1 ++ pair.2) := by
      have count : 2 * pairs.length = (pairs.flatMap fun pair => [pair.1, pair.2]).length := by
        simp [Nat.mul_comm]
      rw [← flatten_pairs, count]
      apply skipItems_past
      intro item member m beginsItem
      rcases List.mem_flatMap.mp member with ⟨pair, isPair, isPart⟩
      rcases List.mem_pair.mp isPart with rfl | rfl
      · exact keysInduction pair isPair within deep enoughDeeper beginsItem
      · exact valuesInduction pair isPair within deep enoughDeeper beginsItem
    change skipBehind _ ⟨5, ai, _⟩ _ = _
    rw [skipBehind_map]
    exact @container_past _ pairs.length (fun n => skipItems (skipItem (fuel + 1)) (2 * n)) _
      (IsHead.lt isHead) (within _ isFew) shallow (past 0 beginsBehind)
  | @tag levels n head item isHead tagged induction =>
    intro reader fuel within le enough begins
    refine skipItem_of_nested (by decide) isHead begins le enough ?_
    intro fuel ai after same place shallow deep enoughDeeper beginsBehind
    change skipBehind _ ⟨6, ai, _⟩ _ = _
    subst same place
    rw [skipBehind_tag]
    exact below_past shallow (inside_ok (induction within deep enoughDeeper beginsBehind))
  | simple isHead =>
    intro reader fuel _ _ _ begins
    exact skipItem_of_simple (by decide) (by decide) isHead begins

/-- The call reads no byte outside of the buffer, ends within the fuel, and changes
nothing of the reader but the offset. -/
structure Contained {α : Type} (call : Call α) (reader : CborReader) : Prop where
  inBuffer : (call reader).1 ≠ .error .outside
  ends : (call reader).1 ≠ .error .outOfFuel
  onlyMoved : ∃ n, (call reader).2 = reader.moved n
  depth : (call reader).2.depth = reader.depth

theorem contained_of_ok {value : α} (done : call reader = (.ok value, reader.moved n)) :
    Contained call reader := by
  refine ⟨?_, ?_, ⟨n, by rw [done]⟩, by rw [done]; rfl⟩
  · rw [done]
    exact nofun
  · rw [done]
    exact nofun

theorem contained_of_fails (fails : Fails call reader) : Contained call reader := by
  rcases fails with ⟨code, n, failed⟩
  refine ⟨?_, ?_, ⟨n, by rw [failed]⟩, by rw [failed]; rfl⟩
  · rw [failed]
    exact nofun
  · rw [failed]
    exact nofun

theorem Fails.not_ok (fails : Fails call reader) (value : α) : (call reader).1 ≠ .ok value := by
  rcases fails with ⟨code, n, failed⟩
  rw [failed]
  exact nofun

theorem skipItem_itemAt (enough : reader.levels < fuel) (itemAt : reader.ItemAt item) :
    skipItem fuel reader = (.ok (), reader.moved item.length) := by
  cases fuel with
  | zero => exact absurd enough (Nat.not_lt_zero _)
  | succ fuel =>
    exact skipItem_definite itemAt.definite (fun _ few => few) (Nat.le_refl _) enough itemAt.begins

theorem readItemView_of_inBuffer (inBuffer : reader.off ≤ reader.buf.length) (fuel : Nat) :
    readItemView fuel reader = (skipItem fuel >>= fun _ => do
      let after ← Call.reader
      if after.off < reader.off then fail .internal
      else return (reader.buf.drop reader.off).take (after.off - reader.off)) reader := by
  change (if reader.buf.length < reader.off then fail .internal else skipItem fuel >>= fun _ => do
      let after ← Call.reader
      if after.off < reader.off then fail .internal
      else return (reader.buf.drop reader.off).take (after.off - reader.off)) reader = _
  rw [if_neg (Nat.not_lt.mpr inBuffer)]

theorem readItemView_itemAt (enough : reader.levels < fuel) (itemAt : reader.ItemAt item) :
    readItemView fuel reader = (.ok item, reader.moved item.length) := by
  have view : (reader.buf.drop reader.off).take item.length = item := by
    rcases itemAt.begins.2 with ⟨rest, equal⟩
    rw [← equal, List.take_left]
  rw [readItemView_of_inBuffer itemAt.begins.1, bind_ok (skipItem_itemAt enough itemAt)]
  change (if reader.off + item.length < reader.off then fail .internal
    else pure ((reader.buf.drop reader.off).take (reader.off + item.length - reader.off)) :
      Call Bytes) (reader.moved item.length) = _
  rw [if_neg (by omega), Nat.add_sub_cancel_left, view]
  rfl

theorem readItemView_fails (fails : Fails (skipItem fuel) reader) :
    Fails (readItemView fuel) reader := by
  by_cases inBuffer : reader.off ≤ reader.buf.length
  · rcases fails.first fun _ => do
      let after ← Call.reader
      if after.off < reader.off then fail .internal
      else return (reader.buf.drop reader.off).take (after.off - reader.off) with ⟨code, n, failed⟩
    exact ⟨code, n, (readItemView_of_inBuffer inBuffer fuel).trans failed⟩
  · refine ⟨.internal, 0, ?_⟩
    change (if reader.buf.length < reader.off then fail .internal else _ : Call Bytes) reader = _
    rw [if_pos (Nat.lt_of_not_le inBuffer)]
    rfl

/-- Both calls are contained; they succeed exactly at a complete item within the limits
of the reader, and then go past this item and return it. -/
theorem skip_and_view_exact (reader : CborReader) {fuel : Nat} (enough : reader.levels < fuel) :
    Contained (skipItem fuel) reader ∧ Contained (readItemView fuel) reader ∧
      ((skipItem fuel reader).1 = .ok () ↔ ∃ item, reader.ItemAt item) ∧
      (∀ item, (readItemView fuel reader).1 = .ok item ↔ reader.ItemAt item) ∧
      ∀ item, reader.ItemAt item →
        skipItem fuel reader = (.ok (), reader.moved item.length) ∧
          readItemView fuel reader = (.ok item, reader.moved item.length) := by
  rcases skipItem_exact fuel reader enough with ⟨item, itemAt, done⟩ | failed
  · have viewed := readItemView_itemAt enough itemAt
    refine ⟨contained_of_ok done, contained_of_ok viewed, ?_, fun other => ?_, fun other otherAt =>
      ⟨skipItem_itemAt enough otherAt, readItemView_itemAt enough otherAt⟩⟩
    · exact ⟨fun _ => ⟨item, itemAt⟩, fun _ => by rw [done]⟩
    · constructor
      · intro isView
        rw [viewed] at isView
        exact Except.ok.inj isView ▸ itemAt
      · intro otherAt
        rw [readItemView_itemAt enough otherAt]
  · have viewFails := readItemView_fails failed
    have none : ∀ item, ¬reader.ItemAt item := fun item itemAt =>
      failed.not_ok () (by rw [skipItem_itemAt enough itemAt])
    refine ⟨contained_of_fails failed, contained_of_fails viewFails, ?_, fun other => ?_,
      fun other otherAt => absurd otherAt (none other)⟩
    · exact ⟨fun done => absurd done (failed.not_ok ()),
        fun found => absurd found.choose_spec (none _)⟩
    · exact ⟨fun done => absurd done (viewFails.not_ok other),
        fun otherAt => absurd otherAt (none other)⟩

/-- A tagged array behind two bytes, at a depth of three out of five. -/
theorem skip_and_view_exact_sample :
    ((readItemView 3 ⟨[0, 0, 0xc1, 0x81, 0x18, 7], 2, 3, 5, 4096⟩).1 = .ok [0xc1, 0x81, 0x18, 7] ↔
      CborReader.ItemAt ⟨[0, 0, 0xc1, 0x81, 0x18, 7], 2, 3, 5, 4096⟩ [0xc1, 0x81, 0x18, 7]) :=
  (skip_and_view_exact ⟨[0, 0, 0xc1, 0x81, 0x18, 7], 2, 3, 5, 4096⟩ (by decide)).2.2.2.1 _

example : (readItemView 3 ⟨[0, 0, 0xc1, 0x81, 0x18, 7], 2, 3, 5, 4096⟩).1 =
    .ok [0xc1, 0x81, 0x18, 7] := by decide

end Call

end AgentC.Cbor
