import AgentC.Cbor.AcceptedItems

/-! # How deep the daemon's decoder recurses -/

namespace AgentC.Cbor

open Watched

/-- The input comes to an item that stands inside `count` arrays, maps and tags, of which
at most `levels` are arrays and maps. What is in front of that item is accepted. -/
inductive Inside : Nat → Nat → Bytes → Prop
  | here {levels : Nat} {input : Bytes} : Inside levels 0 input
  | array {levels count n : Nat} {head rest : Bytes} {before : List Bytes}
      (isHead : IsHead majorArray n head) (few : n ≤ 100000)
      (each : ∀ item ∈ before, AcceptedItem levels item) (missing : before.length < n)
      (inside : Inside levels count rest) :
      Inside (levels + 1) (count + 1) (head ++ (before.flatten ++ rest))
  | map {levels count n : Nat} {head rest : Bytes} {before : List TextEntry} {entry : TextEntry}
      (isHead : IsHead majorMap n head) (few : n ≤ 100000)
      (keys : ∀ earlier ∈ before, earlier.Keyed)
      (values : ∀ earlier ∈ before, AcceptedItem levels earlier.value)
      (missing : before.length < n) (keyed : entry.Keyed) (inside : Inside levels count rest) :
      Inside (levels + 1) (count + 1)
        (head ++ (before.flatMap TextEntry.bytes ++ (entry.keyHead ++ entry.key ++ rest)))
  | tag {levels count n : Nat} {head rest : Bytes} (isHead : IsHead majorTag n head)
      (inside : Inside levels count rest) : Inside levels (count + 1) (head ++ rest)

variable {levels : Nat} {input : Bytes}

theorem Inside.fewer {count : Nat} (inside : Inside levels count input) :
    ∀ less ≤ count, Inside levels less input := by
  induction inside with
  | here =>
    intro less le
    rw [Nat.le_zero.mp le]
    exact .here
  | array isHead few each missing inside induction =>
    intro less le
    cases less with
    | zero => exact .here
    | succ less => exact .array isHead few each missing (induction less (by omega))
  | map isHead few keys values missing keyed inside induction =>
    intro less le
    cases less with
    | zero => exact .here
    | succ less => exact .map isHead few keys values missing keyed (induction less (by omega))
  | tag isHead inside induction =>
    intro less le
    cases less with
    | zero => exact .here
    | succ less => exact .tag isHead (induction less (by omega))

/-! ## What is read is accepted -/

def Takes {α : Type} (call : Watched String (α × Bytes)) (input : Bytes)
    (holds : Bytes → Prop) : Prop :=
  ∀ active value rest, (call active).1 = .ok (value, rest) →
    ∃ bytes, holds bytes ∧ input = bytes ++ rest

def ItemBytes (levels n : Nat) (bytes : Bytes) : Prop :=
  ∃ items : List Bytes, items.length = n ∧ (∀ item ∈ items, AcceptedItem levels item) ∧
    bytes = items.flatten

def MemberBytes (levels n : Nat) (bytes : Bytes) : Prop :=
  ∃ entries : List TextEntry, entries.length = n ∧ (∀ entry ∈ entries, entry.Keyed) ∧
    (∀ entry ∈ entries, AcceptedItem levels entry.value) ∧
    bytes = entries.flatMap TextEntry.bytes

variable {deepest n depth : Nat}

theorem checkContainerTo_eq_ok {tooLarge : String}
    (checked : checkContainerTo deepest n depth tooLarge = .ok ()) :
    n ≤ 100000 ∧ depth < deepest := by
  rw [checkContainerTo] at checked
  split at checked
  · cases checked
  · split at checked
    · cases checked
    · omega

theorem checkContainerTo_of_le (few : n ≤ 100000) (shallow : depth < deepest) (tooLarge : String) :
    checkContainerTo deepest n depth tooLarge = .ok () := by
  rw [checkContainerTo, if_neg (by omega), if_neg (by omega)]

variable {fuel : Nat}

theorem takes_items
    (item : ∀ input, Takes (watchedItem deepest fuel depth input) input (AcceptedItem levels))
    (more : ∀ n items input,
      Takes (watchedItems deepest fuel depth n items input) input (ItemBytes levels n)) :
    ∀ n items input,
      Takes (watchedItems deepest (fuel + 1) depth n items input) input (ItemBytes levels n) := by
  intro n items input active value rest done
  cases n with
  | zero =>
    rw [watchedItems, pure_eq, result_quiet] at done
    cases done
    exact ⟨[], ⟨[], rfl, List.forall_mem_nil _, rfl⟩, rfl⟩
  | succ n =>
    rw [watchedItems, result_bind_eq_ok] at done
    rcases done with ⟨⟨first, left⟩, readFirst, readMore⟩
    rcases item input active first left readFirst with ⟨bytes, accepted, equal⟩
    rcases more n _ left active value rest readMore with
      ⟨others, ⟨parts, length, each, flat⟩, split⟩
    refine ⟨bytes ++ others, ⟨bytes :: parts, ?_, ?_, ?_⟩, ?_⟩
    · rw [List.length_cons, length]
    · exact List.forall_mem_cons.mpr ⟨accepted, each⟩
    · rw [List.flatten_cons, flat]
    · rw [equal, split, List.append_assoc]

theorem takes_members
    (item : ∀ input, Takes (watchedItem deepest fuel depth input) input (AcceptedItem levels))
    (more : ∀ n members input,
      Takes (watchedMembers deepest fuel depth n members input) input (MemberBytes levels n)) :
    ∀ n members input, Takes (watchedMembers deepest (fuel + 1) depth n members input) input
        (MemberBytes levels n) := by
  intro n members input active value rest done
  cases n with
  | zero =>
    rw [watchedMembers, pure_eq, result_quiet] at done
    cases done
    exact ⟨[], ⟨[], rfl, List.forall_mem_nil _, List.forall_mem_nil _, rfl⟩, rfl⟩
  | succ n =>
    rw [watchedMembers, result_bind_eq_ok] at done
    rcases done with ⟨⟨key, behindKey⟩, readKey, behind⟩
    rcases result_bind_eq_ok.mp behind with ⟨⟨first, left⟩, readFirst, readMore⟩
    rcases decodeKey_eq_ok readKey with ⟨keyHead, isHead, nonempty, keyEqual⟩
    rcases item behindKey active first left readFirst with ⟨bytes, accepted, equal⟩
    rcases more n _ left active value rest readMore with
      ⟨others, ⟨entries, length, keys, values, flat⟩, split⟩
    let entry : TextEntry := ⟨keyHead, key, bytes⟩
    refine ⟨entry.bytes ++ others, ⟨entry :: entries, ?_, ?_, ?_, ?_⟩, ?_⟩
    · rw [List.length_cons, length]
    · exact List.forall_mem_cons.mpr ⟨⟨isHead, nonempty⟩, keys⟩
    · exact List.forall_mem_cons.mpr ⟨accepted, values⟩
    · rw [List.flatMap_cons, flat]
    · rw [keyEqual, equal, split, TextEntry.bytes]
      simp only [List.append_assoc]
      rfl

theorem takes_array {head rest : Bytes} (isHead : IsHead majorArray n head)
    (items : Takes (watchedItems deepest fuel (depth + 1) n [] rest) rest
      (ItemBytes (deepest - (depth + 1)) n)) :
    Takes (arrayCall deepest fuel depth n rest) (head ++ rest)
      (AcceptedItem (deepest - depth)) := by
  intro active value left done
  rw [arrayCall, result_bind_eq_ok] at done
  rcases done with ⟨checked, shallow, done⟩
  rcases checkContainerTo_eq_ok shallow with ⟨few, shallow⟩
  rcases result_bind_eq_ok.mp done with ⟨⟨read, behind⟩, readItems, final⟩
  cases final
  rcases items active read left readItems with ⟨bytes, ⟨parts, length, each, flat⟩, split⟩
  have levels : deepest - depth = deepest - (depth + 1) + 1 := by omega
  refine ⟨head ++ parts.flatten, ?_, ?_⟩
  · rw [levels]
    exact .array (length.symm ▸ isHead) (by omega) each
  · rw [split, flat, List.append_assoc]

theorem takes_map {head rest : Bytes} (isHead : IsHead majorMap n head)
    (members : Takes (watchedMembers deepest fuel (depth + 1) n [] rest) rest
      (MemberBytes (deepest - (depth + 1)) n)) :
    Takes (mapCall deepest fuel depth n rest) (head ++ rest) (AcceptedItem (deepest - depth)) := by
  intro active value left done
  rw [mapCall, result_bind_eq_ok] at done
  rcases done with ⟨checked, shallow, done⟩
  rcases checkContainerTo_eq_ok shallow with ⟨few, shallow⟩
  rcases result_bind_eq_ok.mp done with ⟨⟨read, behind⟩, readMembers, final⟩
  cases final
  rcases members active read left readMembers with
    ⟨bytes, ⟨entries, length, keys, values, flat⟩, split⟩
  have levels : deepest - depth = deepest - (depth + 1) + 1 := by omega
  refine ⟨head ++ entries.flatMap TextEntry.bytes, ?_, ?_⟩
  · rw [levels]
    exact .map (length.symm ▸ isHead) (by omega) keys values
  · rw [split, flat, List.append_assoc]

theorem takes_watched (deepest fuel : Nat) : (∀ depth input,
      Takes (watchedItem deepest fuel depth input) input (AcceptedItem (deepest - depth))) ∧
    (∀ depth n items input, Takes (watchedItems deepest fuel depth n items input) input
      (ItemBytes (deepest - depth) n)) ∧
    ∀ depth n members input, Takes (watchedMembers deepest fuel depth n members input) input
      (MemberBytes (deepest - depth) n) := by
  induction fuel with
  | zero =>
    refine ⟨?_, ?_, ?_⟩
    · intro depth input active value rest done
      rw [watchedItem] at done
      cases done
    · intro depth n items input active value rest done
      rw [watchedItems] at done
      cases done
    · intro depth n members input active value rest done
      rw [watchedMembers] at done
      cases done
  | succ fuel induction =>
    rcases induction with ⟨item, items, members⟩
    refine ⟨?_, ?_, ?_⟩
    · intro depth input active value rest done
      rcases item_cases input with ⟨result, alone, leaf⟩ | ⟨n, behind, array | map | tag⟩
      · rw [alone] at done
        rcases leaf value rest done with ⟨bytes, isLeaf, equal⟩
        exact ⟨bytes, .leaf isLeaf, equal⟩
      · rcases array.exists_isHead (by decide) with ⟨head, isHead, equal⟩
        rw [watchedItem_array array] at done
        rw [equal]
        exact takes_array isHead (items (depth + 1) n [] behind) (active + 1) value rest done
      · rcases map.exists_isHead (by decide) with ⟨head, isHead, equal⟩
        rw [watchedItem_map map] at done
        rw [equal]
        exact takes_map isHead (members (depth + 1) n [] behind) (active + 1) value rest done
      · rcases tag.exists_isHead (by decide) with ⟨head, isHead, equal⟩
        rw [watchedItem_tag tag] at done
        rcases item depth behind (active + 1) value rest done with ⟨bytes, tagged, split⟩
        refine ⟨head ++ bytes, .tag isHead tagged, ?_⟩
        rw [equal, split, List.append_assoc]
    · exact fun depth => takes_items (item depth) (items depth)
    · exact fun depth => takes_members (item depth) (members depth)

theorem agrees_deeper {more : Nat} (le : deepest ≤ more) (fuel : Nat) : (∀ depth input,
      Agrees (watchedItem deepest fuel depth input) (watchedItem more fuel depth input)) ∧
    (∀ depth n items input, Agrees (watchedItems deepest fuel depth n items input)
      (watchedItems more fuel depth n items input)) ∧
    ∀ depth n members input, Agrees (watchedMembers deepest fuel depth n members input)
      (watchedMembers more fuel depth n members input) := by
  have check : ∀ n depth tooLarge, Agrees (quiet (checkContainerTo deepest n depth tooLarge))
      (quiet (checkContainerTo more n depth tooLarge)) := by
    intro n depth tooLarge
    refine Agrees.quiet fun value checked => ?_
    rcases checkContainerTo_eq_ok checked with ⟨few, shallow⟩
    exact checkContainerTo_of_le few (by omega) tooLarge
  induction fuel with
  | zero =>
    refine ⟨?_, ?_, ?_⟩
    · intro depth input
      rw [watchedItem, watchedItem]
      exact .refl _
    · intro depth n items input
      rw [watchedItems, watchedItems]
      exact .refl _
    · intro depth n members input
      rw [watchedMembers, watchedMembers]
      exact .refl _
  | succ fuel induction =>
    rcases induction with ⟨item, items, members⟩
    refine ⟨?_, ?_, ?_⟩
    · intro depth input
      rcases item_cases input with ⟨result, alone, leaf⟩ | ⟨n, behind, array | map | tag⟩
      · rw [alone, alone]
        exact .refl _
      · rw [watchedItem_array array, watchedItem_array array]
        exact .called (.bind (check _ _ _) fun checked =>
          .bind (items _ _ _ _) fun read => .refl _)
      · rw [watchedItem_map map, watchedItem_map map]
        exact .called (.bind (check _ _ _) fun checked =>
          .bind (members _ _ _ _) fun read => .refl _)
      · rw [watchedItem_tag tag, watchedItem_tag tag]
        exact .called (item depth behind)
    · intro depth n read input
      cases n with
      | zero =>
        rw [watchedItems, watchedItems]
        exact .refl _
      | succ n =>
        rw [watchedItems, watchedItems]
        exact .bind (item depth input) fun first => items depth n _ _
    · intro depth n read input
      cases n with
      | zero =>
        rw [watchedMembers, watchedMembers]
        exact .refl _
      | succ n =>
        rw [watchedMembers, watchedMembers]
        exact .bind (.refl _) fun key => .bind (item depth _) fun value => members depth n _ _

/-! ## What is accepted is read -/

def Readable (deepest depth : Nat) (item : Bytes) : Prop :=
  0 < item.length ∧ ∀ fuel rest active, 2 * item.length ≤ fuel →
    ∃ value, (watchedItem deepest fuel depth (item ++ rest) active).1 = .ok (value, rest)

theorem exists_succ (enough : 0 < fuel) : ∃ less, fuel = less + 1 :=
  ⟨fuel - 1, by omega⟩

section Past

variable {deepest depth : Nat}

theorem items_past {before : List Bytes} (each : ∀ item ∈ before, Readable deepest depth item)
    (more : Nat) {spare : Nat} (some : 0 < spare) (rest : Bytes) (active : Nat) :
    ∀ fuel items, 2 * before.flatten.length + spare ≤ fuel → ∃ left read, spare ≤ left ∧
      LeadsTo active
        (watchedItems deepest fuel depth (before.length + more) items (before.flatten ++ rest))
        (watchedItems deepest left depth more read rest) := by
  induction before with
  | nil =>
    intro fuel items enough
    rw [List.flatten_nil, List.length_nil, List.nil_append, Nat.zero_add]
    exact ⟨fuel, items, by simpa using enough, .refl _⟩
  | cons item others induction =>
    intro fuel items enough
    rw [List.forall_mem_cons] at each
    rcases each with ⟨⟨nonempty, reads⟩, each⟩
    rw [List.flatten_cons, List.length_append] at enough
    rcases exists_succ (show 0 < fuel by omega) with ⟨less, equal⟩
    rcases reads less (others.flatten ++ rest) active (by omega) with ⟨value, first⟩
    rcases induction each less (items ++ [value]) (by omega) with ⟨left, read, spared, leads⟩
    refine ⟨left, read, spared, LeadsTo.trans ?_ leads⟩
    rw [equal, List.length_cons, Nat.add_right_comm, watchedItems, List.flatten_cons,
      List.append_assoc]
    exact leadsTo_of_ok first

theorem members_past {before : List TextEntry} (keys : ∀ entry ∈ before, entry.Keyed)
    (values : ∀ entry ∈ before, Readable deepest depth entry.value) (more : Nat) {spare : Nat}
    (some : 0 < spare) (rest : Bytes) (active : Nat) :
    ∀ fuel members, 2 * (before.flatMap TextEntry.bytes).length + spare ≤ fuel →
      ∃ left read, spare ≤ left ∧ LeadsTo active
        (watchedMembers deepest fuel depth (before.length + more) members
          (before.flatMap TextEntry.bytes ++ rest))
        (watchedMembers deepest left depth more read rest) := by
  induction before with
  | nil =>
    intro fuel members enough
    rw [List.flatMap_nil, List.length_nil, List.nil_append, Nat.zero_add]
    exact ⟨fuel, members, by simpa using enough, .refl _⟩
  | cons entry others induction =>
    intro fuel members enough
    rw [List.forall_mem_cons] at keys values
    rcases keys with ⟨keyed, keys⟩
    rcases values with ⟨⟨nonempty, reads⟩, values⟩
    rw [List.flatMap_cons, List.length_append, TextEntry.bytes, List.length_append] at enough
    rcases exists_succ (show 0 < fuel by omega) with ⟨less, equal⟩
    let behind : Bytes := others.flatMap TextEntry.bytes ++ rest
    rcases reads less behind active (by omega) with ⟨value, first⟩
    rcases induction keys values less (assign entry.key value members) (by omega) with
      ⟨left, read, spared, leads⟩
    refine ⟨left, read, spared, LeadsTo.trans ?_ leads⟩
    have input : (entry :: others).flatMap TextEntry.bytes ++ rest =
        entry.keyHead ++ entry.key ++ (entry.value ++ behind) := by
      rw [List.flatMap_cons, TextEntry.bytes]
      simp only [List.append_assoc, behind]
    rw [equal, List.length_cons, Nat.add_right_comm, watchedMembers, input,
      decodeKey_keyed keyed, quiet_bind_ok]
    exact leadsTo_of_ok first

end Past

/-- What is accepted within the limit is read. -/
theorem readable_accepted {item : Bytes} (accepted : AcceptedItem levels item) :
    ∀ deepest depth, levels + depth ≤ deepest → Readable deepest depth item := by
  induction accepted with
  | leaf isLeaf =>
    intro deepest depth within
    refine ⟨isLeaf.length_pos, ?_⟩
    intro fuel rest active enough
    have positive := isLeaf.length_pos
    rcases exists_succ (show 0 < fuel by omega) with ⟨less, equal⟩
    rcases alone_leaf isLeaf rest with ⟨value, alone⟩
    rw [equal, alone]
    exact ⟨value, rfl⟩
  | @array levels head items isHead few each induction =>
    intro deepest depth within
    have positive := isHead.length_pos
    refine ⟨by rw [List.length_append]; omega, ?_⟩
    intro fuel rest active enough
    rw [List.length_append] at enough
    rcases exists_succ (show 0 < fuel by omega) with ⟨less, equal⟩
    rcases items_past (fun item member => induction item member deepest (depth + 1) (by omega))
      0 Nat.one_pos rest (active + 1) less [] (by omega) with ⟨left, read, spared, leads⟩
    rcases exists_succ spared with ⟨behind, leftEqual⟩
    rw [leftEqual, watchedItems] at leads
    refine ⟨.array read, ?_⟩
    rw [equal, List.append_assoc, watchedItem_array (readsHead_of_isHead (by decide) isHead _),
      result_called, arrayCall, checkContainerTo_of_le few (by omega), quiet_bind_ok,
      result_bind_eq_ok]
    exact ⟨_, leads.1, rfl⟩
  | @map levels head entries isHead few keys values induction =>
    intro deepest depth within
    have positive := isHead.length_pos
    refine ⟨by rw [List.length_append]; omega, ?_⟩
    intro fuel rest active enough
    rw [List.length_append] at enough
    rcases exists_succ (show 0 < fuel by omega) with ⟨less, equal⟩
    rcases members_past keys
      (fun entry member => induction entry member deepest (depth + 1) (by omega))
      0 Nat.one_pos rest (active + 1) less [] (by omega) with ⟨left, read, spared, leads⟩
    rcases exists_succ spared with ⟨behind, leftEqual⟩
    rw [leftEqual, watchedMembers] at leads
    refine ⟨.object read, ?_⟩
    rw [equal, List.append_assoc, watchedItem_map (readsHead_of_isHead (by decide) isHead _),
      result_called, mapCall, checkContainerTo_of_le few (by omega), quiet_bind_ok,
      result_bind_eq_ok]
    exact ⟨_, leads.1, rfl⟩
  | tag isHead tagged induction =>
    intro deepest depth within
    rcases induction deepest depth within with ⟨nonempty, reads⟩
    refine ⟨by rw [List.length_append]; omega, ?_⟩
    intro fuel rest active enough
    have positive := isHead.length_pos
    rw [List.length_append] at enough
    rcases exists_succ (show 0 < fuel by omega) with ⟨less, equal⟩
    rw [equal, List.append_assoc, watchedItem_tag (readsHead_of_isHead (by decide) isHead _)]
    exact reads less rest (active + 1) (by omega)

/-! ## The calls that are noted -/

def InsideItems (levels n inner : Nat) (input : Bytes) : Prop :=
  ∃ (before : List Bytes) (rest : Bytes), before.length < n ∧
    (∀ item ∈ before, AcceptedItem levels item) ∧ input = before.flatten ++ rest ∧
    Inside levels inner rest

def InsideMembers (levels n inner : Nat) (input : Bytes) : Prop :=
  ∃ (before : List TextEntry) (entry : TextEntry) (rest : Bytes), before.length < n ∧
    (∀ earlier ∈ before, earlier.Keyed) ∧
    (∀ earlier ∈ before, AcceptedItem levels earlier.value) ∧ entry.Keyed ∧
    input = before.flatMap TextEntry.bytes ++ (entry.keyHead ++ entry.key ++ rest) ∧
    Inside levels inner rest

def NotesInside {α : Type} (call : Watched String α) (holds : Nat → Prop) : Prop :=
  ∀ active count, count ∈ (call active).2 → ∃ inner, count = active + 1 + inner ∧ holds inner

theorem inside_of_noted (deepest fuel : Nat) :
    (∀ depth input, NotesInside (watchedItem deepest fuel depth input)
      fun inner => Inside (deepest - depth) inner input) ∧
    (∀ depth n items input, NotesInside (watchedItems deepest fuel depth n items input)
      fun inner => InsideItems (deepest - depth) n inner input) ∧
    ∀ depth n members input, NotesInside (watchedMembers deepest fuel depth n members input)
      fun inner => InsideMembers (deepest - depth) n inner input := by
  induction fuel with
  | zero =>
    refine ⟨?_, ?_, ?_⟩
    · intro depth input active count noted
      rw [watchedItem] at noted
      cases noted
    · intro depth n items input active count noted
      rw [watchedItems] at noted
      cases noted
    · intro depth n members input active count noted
      rw [watchedMembers] at noted
      cases noted
  | succ fuel induction =>
    rcases induction with ⟨item, items, members⟩
    refine ⟨?_, ?_, ?_⟩
    · intro depth input active count noted
      rcases item_cases input with ⟨result, alone, leaf⟩ | ⟨n, behind, array | map | tag⟩
      · rw [alone, mem_called] at noted
        rcases noted with here | within
        · exact ⟨0, here, .here⟩
        · cases within
      · rcases array.exists_isHead (by decide) with ⟨head, isHead, equal⟩
        rw [watchedItem_array array, mem_called] at noted
        rcases noted with here | within
        · exact ⟨0, here, .here⟩
        · rw [arrayCall, mem_bind] at within
          rcases within with nothing | ⟨checked, shallow, within⟩
          · cases nothing
          · rcases checkContainerTo_eq_ok shallow with ⟨few, shallow⟩
            rcases mem_bind.mp within with within | ⟨read, done, nothing⟩
            · rcases items _ _ _ _ _ _ within with
                ⟨inner, same, before, rest, missing, each, split, inside⟩
              have levels : deepest - depth = deepest - (depth + 1) + 1 := by omega
              rw [levels, equal, split]
              exact ⟨inner + 1, by omega, .array isHead few each missing inside⟩
            · cases nothing
      · rcases map.exists_isHead (by decide) with ⟨head, isHead, equal⟩
        rw [watchedItem_map map, mem_called] at noted
        rcases noted with here | within
        · exact ⟨0, here, .here⟩
        · rw [mapCall, mem_bind] at within
          rcases within with nothing | ⟨checked, shallow, within⟩
          · cases nothing
          · rcases checkContainerTo_eq_ok shallow with ⟨few, shallow⟩
            rcases mem_bind.mp within with within | ⟨read, done, nothing⟩
            · rcases members _ _ _ _ _ _ within with
                ⟨inner, same, before, entry, rest, missing, keys, values, keyed, split, inside⟩
              have levels : deepest - depth = deepest - (depth + 1) + 1 := by omega
              rw [levels, equal, split]
              exact ⟨inner + 1, by omega, .map isHead few keys values missing keyed inside⟩
            · cases nothing
      · rcases tag.exists_isHead (by decide) with ⟨head, isHead, equal⟩
        rw [watchedItem_tag tag, mem_called] at noted
        rcases noted with here | within
        · exact ⟨0, here, .here⟩
        · rcases item depth behind (active + 1) count within with ⟨inner, same, inside⟩
          rw [equal]
          exact ⟨inner + 1, by omega, .tag isHead inside⟩
    · intro depth n read input active count noted
      cases n with
      | zero =>
        rw [watchedItems] at noted
        cases noted
      | succ n =>
        rw [watchedItems, mem_bind] at noted
        rcases noted with first | ⟨⟨value, left⟩, done, later⟩
        · rcases item depth input active count first with ⟨inner, same, inside⟩
          exact ⟨inner, same, [], input, Nat.succ_pos n, List.forall_mem_nil _, rfl, inside⟩
        · rcases (takes_watched deepest fuel).1 depth input active value left done with
            ⟨bytes, accepted, equal⟩
          rcases items _ _ _ _ _ _ later with
            ⟨inner, same, before, rest, missing, each, split, inside⟩
          refine ⟨inner, same, bytes :: before, rest, Nat.succ_lt_succ missing,
            List.forall_mem_cons.mpr ⟨accepted, each⟩, ?_, inside⟩
          rw [equal, split, List.flatten_cons, List.append_assoc]
    · intro depth n read input active count noted
      cases n with
      | zero =>
        rw [watchedMembers] at noted
        cases noted
      | succ n =>
        rw [watchedMembers, mem_bind] at noted
        rcases noted with nothing | ⟨⟨key, behindKey⟩, readKey, noted⟩
        · cases nothing
        · rcases decodeKey_eq_ok readKey with ⟨keyHead, isHead, nonempty, keyEqual⟩
          rcases mem_bind.mp noted with first | ⟨⟨value, left⟩, done, later⟩
          · rcases item depth behindKey active count first with ⟨inner, same, inside⟩
            exact ⟨inner, same, [], ⟨keyHead, key, []⟩, behindKey, Nat.succ_pos n,
              List.forall_mem_nil _, List.forall_mem_nil _, ⟨isHead, nonempty⟩, keyEqual,
              inside⟩
          · rcases (takes_watched deepest fuel).1 depth behindKey active value left done with
              ⟨bytes, accepted, equal⟩
            rcases members _ _ _ _ _ _ later with
              ⟨inner, same, before, entry, rest, missing, keys, values, keyed, split, inside⟩
            refine ⟨inner, same, ⟨keyHead, key, bytes⟩ :: before, entry, rest,
              Nat.succ_lt_succ missing, List.forall_mem_cons.mpr ⟨⟨isHead, nonempty⟩, keys⟩,
              List.forall_mem_cons.mpr ⟨accepted, values⟩, keyed, ?_, inside⟩
            rw [keyEqual, equal, split, List.flatMap_cons, TextEntry.bytes]
            simp only [List.append_assoc]

theorem noted_of_inside {inner : Nat} (inside : Inside levels inner input) :
    ∀ deepest depth fuel active, levels + depth ≤ deepest → 2 * input.length < fuel →
      active + 1 + inner ∈ (watchedItem deepest fuel depth input active).2 := by
  induction inside with
  | here =>
    intro deepest depth fuel active within enough
    rcases exists_succ (show 0 < fuel by omega) with ⟨less, equal⟩
    rw [equal, watchedItem, mem_called]
    exact .inl rfl
  | @array levels count n head rest before isHead few each missing inside induction =>
    intro deepest depth fuel active within enough
    have positive := isHead.length_pos
    rw [List.length_append, List.length_append] at enough
    rcases exists_succ (show 0 < fuel by omega) with ⟨less, equal⟩
    rcases Nat.exists_eq_add_of_lt missing with ⟨more, total⟩
    rw [Nat.add_assoc] at total
    have readable : ∀ item ∈ before, Readable deepest (depth + 1) item :=
      fun item member => readable_accepted (each item member) deepest (depth + 1) (by omega)
    rcases @items_past deepest (depth + 1) before readable (more + 1) (2 * rest.length + 2)
      (by omega) rest (active + 1) less [] (by omega) with ⟨left, read, spared, leads⟩
    rcases exists_succ (show 0 < left by omega) with ⟨behind, leftEqual⟩
    rw [leftEqual, watchedItems, ← total] at leads
    have first := induction deepest (depth + 1) behind (active + 1) (by omega) (by omega)
    have noted := leads.2 (mem_bind.mpr (.inl first))
    rw [equal, watchedItem_array (readsHead_of_isHead (by decide) isHead _), mem_called,
      arrayCall, checkContainerTo_of_le few (by omega), quiet_bind_ok, mem_bind]
    rw [show active + 1 + (count + 1) = active + 1 + 1 + count by omega]
    exact .inr (.inl noted)
  | @map levels count n head rest before entry isHead few keys values missing keyed inside
      induction =>
    intro deepest depth fuel active within enough
    have positive := isHead.length_pos
    rw [List.length_append, List.length_append, List.length_append] at enough
    rcases exists_succ (show 0 < fuel by omega) with ⟨less, equal⟩
    rcases Nat.exists_eq_add_of_lt missing with ⟨more, total⟩
    rw [Nat.add_assoc] at total
    have readable : ∀ earlier ∈ before, Readable deepest (depth + 1) earlier.value :=
      fun earlier member =>
        readable_accepted (values earlier member) deepest (depth + 1) (by omega)
    rcases @members_past deepest (depth + 1) before keys readable (more + 1)
      (2 * rest.length + 2) (by omega) (entry.keyHead ++ entry.key ++ rest) (active + 1) less []
      (by omega) with ⟨left, read, spared, leads⟩
    rcases exists_succ (show 0 < left by omega) with ⟨behind, leftEqual⟩
    rw [leftEqual, watchedMembers, decodeKey_keyed keyed, quiet_bind_ok, ← total] at leads
    have first := induction deepest (depth + 1) behind (active + 1) (by omega) (by omega)
    have noted := leads.2 (mem_bind.mpr (.inl first))
    rw [equal, watchedItem_map (readsHead_of_isHead (by decide) isHead _), mem_called,
      mapCall, checkContainerTo_of_le few (by omega), quiet_bind_ok, mem_bind]
    rw [show active + 1 + (count + 1) = active + 1 + 1 + count by omega]
    exact .inr (.inl noted)
  | tag isHead inside induction =>
    intro deepest depth fuel active within enough
    have positive := isHead.length_pos
    rw [List.length_append] at enough
    rcases exists_succ (show 0 < fuel by omega) with ⟨less, equal⟩
    have noted := induction deepest depth less (active + 1) within (by omega)
    rw [equal, watchedItem_tag (readsHead_of_isHead (by decide) isHead _), mem_called]
    rw [Nat.add_right_comm] at noted
    exact .inr (by rwa [Nat.add_assoc (active + 1)] at noted)

theorem Inside.le_length {inner : Nat} (inside : Inside levels inner input) :
    inner ≤ input.length := by
  induction inside with
  | here => exact Nat.zero_le _
  | array isHead few each missing inside induction =>
    have positive := isHead.length_pos
    rw [List.length_append, List.length_append]
    omega
  | map isHead few keys values missing keyed inside induction =>
    have positive := isHead.length_pos
    rw [List.length_append, List.length_append, List.length_append]
    omega
  | tag isHead inside induction =>
    have positive := isHead.length_pos
    rw [List.length_append]
    omega

theorem mem_activeCalls_iff (small : input.length ≤ 1024 * 1024) (nonempty : input ≠ [])
    (count : Nat) :
    count ∈ activeCalls input ↔ ∃ inner, count = 1 + inner ∧ Inside 64 inner input := by
  rw [activeCalls, if_neg nonempty, if_neg (by omega)]
  constructor
  · intro noted
    rcases (inside_of_noted 64 _).1 0 input 0 count noted with ⟨inner, same, inside⟩
    exact ⟨inner, by omega, inside⟩
  · intro within
    rcases within with ⟨inner, same, inside⟩
    have noted := noted_of_inside inside 64 0 (2 * input.length + 1) 0 (by omega) (by omega)
    rw [same, show 1 + inner = 0 + 1 + inner by omega]
    exact noted

/-- At most 65 calls are active at once, and an input that comes to an item further inside,
whatever the limit, is rejected. -/
def NestingBounded (input : Bytes) : Prop :=
  (∀ active ∈ activeCalls input, active ≤ 65) ∧
    ((∃ levels, Inside levels 65 input) → ∃ error, cborDecode input = .error error)

theorem accepted_of_cborDecode {item : Item} (decoded : cborDecode input = .ok item) :
    (watchedItem 64 (2 * input.length + 1) 0 input 0).1 = .ok (item, []) := by
  rw [(watched_eq_decode _).1]
  rw [cborDecode] at decoded
  split at decoded
  · cases decoded
  · split at decoded
    · cases decoded
    · rcases read : decodeItem (2 * input.length + 1) 0 input with error | ⟨value, rest⟩
      · simp [read, bind, Except.bind] at decoded
      · simp only [read, bind, Except.bind, pure, Except.pure] at decoded
        split at decoded
        · next empty =>
          cases decoded
          rw [empty]
        · cases decoded

/-- The recursion is bounded, and what is too deep rejected, exactly if no item that the
decoder comes to stands inside more than 64 arrays, maps and tags together. -/
theorem nesting_bounded_iff (input : Bytes) (small : input.length ≤ 1024 * 1024) :
    NestingBounded input ↔ ¬Inside 64 65 input := by
  constructor
  · intro bounded inside
    have nonempty : input ≠ [] := by
      have length := inside.le_length
      exact List.length_pos_iff.mp (by omega)
    have active := bounded.1 66 ((mem_activeCalls_iff small nonempty 66).mpr ⟨65, rfl, inside⟩)
    omega
  · intro shallow
    constructor
    · intro active noted
      by_cases nonempty : input = []
      · rw [activeCalls, if_pos nonempty] at noted
        cases noted
      · rcases (mem_activeCalls_iff small nonempty active).mp noted with ⟨inner, same, inside⟩
        by_contra more
        exact shallow (inside.fewer 65 (by omega))
    · intro deep
      rcases deep with ⟨levels, inside⟩
      cases decoded : cborDecode input with
      | error error => exact ⟨error, rfl⟩
      | ok item =>
        have read := accepted_of_cborDecode decoded
        -- With a limit that is great enough the decoder does the same.
        have same := (agrees_deeper (Nat.le_max_left 64 levels) _).1 0 input 0 _ read
        have noted := noted_of_inside inside (max 64 levels) 0 (2 * input.length + 1) 0
          (by omega) (by omega)
        rw [same] at noted
        rcases (inside_of_noted 64 _).1 0 input 0 _ noted with ⟨inner, equal, within⟩
        exact absurd (within.fewer 65 (by omega)) shallow

/-! ## Tags -/

/-- The number zero under this many tags. -/
def tagged (tags : Nat) : Bytes := List.replicate tags 0xc0 ++ [0x00]

theorem tagged_succ (tags : Nat) : tagged (tags + 1) = [0xc0] ++ tagged tags := rfl

theorem length_tagged (tags : Nat) : (tagged tags).length = tags + 1 := by
  rw [tagged, List.length_append, List.length_replicate, List.length_singleton]

theorem inside_tagged (levels tags : Nat) : Inside levels tags (tagged tags) := by
  induction tags with
  | zero => exact .here
  | succ tags induction =>
    rw [tagged_succ]
    exact @Inside.tag _ _ 0 [0xc0] _ (.short (by decide)) induction

theorem decodeItem_tagged (depth tags : Nat) :
    ∀ fuel, tags < fuel → decodeItem fuel depth (tagged tags) = .ok (decodeUint 0, []) := by
  induction tags with
  | zero =>
    intro fuel enough
    rcases exists_succ enough with ⟨less, equal⟩
    have reads : ReadsHead (tagged 0) majorUint 0 [] :=
      @readsHead_short majorUint (by decide) 0 (by decide) []
    rw [equal]
    exact decodeItem_uint reads
  | succ tags induction =>
    intro fuel enough
    rcases exists_succ (show 0 < fuel by omega) with ⟨less, equal⟩
    have behind := induction less (by omega)
    rw [equal, tagged_succ, List.singleton_append]
    simp [decodeItem, readBe_one, readAi, behind, bind, Except.bind]

/-- Nothing limits the tags but the length of the input. -/
theorem calls_tagged {tags : Nat} (small : tags < 1024 * 1024) :
    tags + 1 ∈ activeCalls (tagged tags) ∧ cborDecode (tagged tags) = .ok (decodeUint 0) := by
  have length := length_tagged tags
  have nonempty : tagged tags ≠ [] := List.length_pos_iff.mp (by omega)
  constructor
  · exact (mem_activeCalls_iff (by omega) nonempty _).mpr
      ⟨tags, Nat.add_comm .., inside_tagged 64 tags⟩
  · rw [cborDecode, if_neg nonempty, if_neg (by omega), decodeItem_tagged 0 tags _ (by omega)]
    rfl

/-- With 63 tags the recursion is bounded. -/
theorem nesting_bounded_iff_sample : NestingBounded (tagged 63) := by
  refine (nesting_bounded_iff (tagged 63) (by rw [length_tagged]; omega)).mpr ?_
  intro inside
  have length := inside.le_length
  rw [length_tagged] at length
  omega

theorem tags_are_not_counted :
    ¬NestingBounded (tagged 65) ∧ 1048576 ∈ activeCalls (tagged 1048575) ∧
      cborDecode (tagged 1048575) = .ok (decodeUint 0) := by
  refine ⟨?_, calls_tagged (by decide)⟩
  intro bounded
  have active := bounded.1 66 (calls_tagged (by decide)).1
  omega

end AgentC.Cbor
