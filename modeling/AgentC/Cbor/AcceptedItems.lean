import AgentC.Cbor.WatchedDecoder

/-! # The items that the daemon's decoder accepts -/

namespace AgentC.Cbor

open Watched

inductive LeafItem : Bytes → Prop
  | uint {n : Nat} {head : Bytes} (isHead : IsHead majorUint n head) : LeafItem head
  | negative {n : Nat} {head : Bytes} (isHead : IsHead majorNegative n head)
      (small : n ≤ 2 ^ 63 - 1) : LeafItem head
  | text {head text : Bytes} (isHead : IsHead majorText text.length head) : LeafItem (head ++ text)
  | constant {n : Nat} (listed : n ∈ [20, 21, 22, 23]) : LeafItem [majorSimple ||| UInt8.ofNat n]
  | float {ai width : Nat} {payload : Bytes} (listed : (ai, width) ∈ [(25, 2), (26, 4), (27, 8)])
      (length : payload.length = width) : LeafItem ((majorSimple ||| UInt8.ofNat ai) :: payload)

/-- The key has the right length and is not empty. -/
def TextEntry.Keyed (entry : TextEntry) : Prop :=
  IsHead majorText entry.key.length entry.keyHead ∧ entry.key ≠ []

/-- Items with at most `levels` arrays and maps around each other. Tags do not count. -/
inductive AcceptedItem : Nat → Bytes → Prop
  | leaf {levels : Nat} {item : Bytes} (isLeaf : LeafItem item) : AcceptedItem levels item
  | array {levels : Nat} {head : Bytes} {items : List Bytes}
      (isHead : IsHead majorArray items.length head) (few : items.length ≤ 100000)
      (each : ∀ item ∈ items, AcceptedItem levels item) :
      AcceptedItem (levels + 1) (head ++ items.flatten)
  | map {levels : Nat} {head : Bytes} {entries : List TextEntry}
      (isHead : IsHead majorMap entries.length head) (few : entries.length ≤ 100000)
      (keys : ∀ entry ∈ entries, entry.Keyed)
      (values : ∀ entry ∈ entries, AcceptedItem levels entry.value) :
      AcceptedItem (levels + 1) (head ++ entries.flatMap TextEntry.bytes)
  | tag {levels n : Nat} {head item : Bytes} (isHead : IsHead majorTag n head)
      (tagged : AcceptedItem levels item) : AcceptedItem levels (head ++ item)

variable {major : UInt8} {n : Nat}

theorem IsHead.length_pos {head : Bytes} (isHead : IsHead major n head) : 0 < head.length := by
  cases isHead with
  | short small => exact Nat.one_pos
  | wide => exact Nat.succ_pos _

theorem LeafItem.length_pos {item : Bytes} (isLeaf : LeafItem item) : 0 < item.length := by
  cases isLeaf with
  | uint isHead => exact isHead.length_pos
  | negative isHead small => exact isHead.length_pos
  | text isHead =>
    rw [List.length_append]
    exact Nat.lt_add_right _ isHead.length_pos
  | constant listed => exact Nat.one_pos
  | float => exact Nat.succ_pos _

variable {width value : Nat} {input rest : Bytes}

theorem readBe_eq_ok (read : readBe width input = .ok (value, rest)) :
    ∃ piece, piece.length = width ∧ input = piece ++ rest ∧ value = beValue piece := by
  rw [readBe] at read
  split at read
  · cases read
  · cases read
    exact ⟨input.take width, by rw [List.length_take]; omega, (List.take_append_drop ..).symm, rfl⟩

theorem readBe_one_eq_ok (read : readBe 1 input = .ok (value, rest)) :
    ∃ byte : UInt8, input = byte :: rest ∧ value = byte.toNat := by
  rcases readBe_eq_ok read with ⟨piece, length, equal, same⟩
  rcases List.length_eq_one_iff.mp length with ⟨byte, single⟩
  rw [single] at equal same
  exact ⟨byte, equal, by simpa [beValue] using same⟩

theorem eq_or_of_div {byte : UInt8} (shifted : major.toNat % 32 = 0)
    (same : byte.toNat / 32 = major.toNat / 32) :
    byte = major ||| UInt8.ofNat (byte.toNat % 32) := by
  rw [← UInt8.toNat_inj, toNat_or shifted (by omega)]
  omega

theorem readsHead_of_isHead (shifted : major.toNat % 32 = 0) {head : Bytes}
    (isHead : IsHead major n head) (rest : Bytes) : ReadsHead (head ++ rest) major n rest := by
  cases isHead with
  | short small => exact readsHead_short shifted small rest
  | wide listed bounded =>
    simp only [List.mem_cons, Prod.mk.injEq, List.not_mem_nil, or_false] at listed
    rcases listed with ⟨ai, width⟩ | ⟨ai, width⟩ | ⟨ai, width⟩ | ⟨ai, width⟩ <;> subst ai width
    · exact readsHead_wide shifted 24 (by omega) (fun input => rfl) bounded rest
    · exact readsHead_wide shifted 25 (by omega) (fun input => rfl) bounded rest
    · exact readsHead_wide shifted 26 (by omega) (fun input => rfl) bounded rest
    · exact readsHead_wide shifted 27 (by omega) (fun input => rfl) bounded rest

variable {behind : Bytes}

theorem isHead_wide {ai : Nat} (listed : (ai, width) ∈ [(24, 1), (25, 2), (26, 4), (27, 8)])
    (read : readBe width behind = .ok (n, rest)) :
    ∃ head, IsHead major n head ∧ (major ||| UInt8.ofNat ai) :: behind = head ++ rest := by
  rcases readBe_eq_ok read with ⟨piece, length, equal, same⟩
  have bounded := beValue_lt piece
  have spelled := beBytes_beValue piece
  rw [length, ← same] at bounded spelled
  refine ⟨_, .wide listed bounded, ?_⟩
  rw [spelled, equal]
  rfl

theorem ReadsHead.exists_isHead (shifted : major.toNat % 32 = 0)
    (reads : ReadsHead input major n rest) :
    ∃ head, IsHead major n head ∧ input = head ++ rest := by
  rcases reads with ⟨ib, behind, first, same, second⟩
  rcases readBe_one_eq_ok first with ⟨byte, equal, value⟩
  rw [value] at same second
  rw [equal, eq_or_of_div shifted same]
  rw [readAi] at second
  split at second
  · next small =>
    cases second
    exact ⟨_, .short small, rfl⟩
  · split at second
    · next ai =>
      rw [ai]
      exact isHead_wide (by decide) second
    · split at second
      · next ai =>
        rw [ai]
        exact isHead_wide (by decide) second
      · split at second
        · next ai =>
          rw [ai]
          exact isHead_wide (by decide) second
        · split at second
          · next ai =>
            rw [ai]
            exact isHead_wide (by decide) second
          · split at second <;> cases second

theorem decodeText_eq_ok {text : Bytes} (read : decodeText n input = .ok (text, rest)) :
    text.length = n ∧ input = text ++ rest := by
  rw [decodeText] at read
  split at read
  · cases read
  · cases read
    exact ⟨by rw [List.length_take]; omega, (List.take_append_drop ..).symm⟩

theorem decodeKey_of_reads (reads : ReadsHead input majorText n behind) :
    decodeKey input = (decodeText n behind).bind fun read =>
      if read.1 = [] then .error "cbor: empty key" else .ok read := by
  rcases reads with ⟨ib, rest, first, major, second⟩
  have major : ib / 32 = 3 := major
  simp [decodeKey, first, major, second, bind, Except.bind, pure, Except.pure]

theorem decodeKey_eq_ok {key : Bytes} (read : decodeKey input = .ok (key, rest)) :
    ∃ keyHead, IsHead majorText key.length keyHead ∧ key ≠ [] ∧ input = keyHead ++ key ++ rest := by
  rcases reads : readBe 1 input with error | ⟨ib, behind⟩
  · simp [decodeKey, reads, bind, Except.bind] at read
  · by_cases major : ib / 32 = 3
    · rcases number : readAi (ib % 32) behind with error | ⟨n, behindHead⟩
      · simp [decodeKey, reads, major, number, bind, Except.bind] at read
      · have head : ReadsHead input majorText n behindHead := ⟨ib, behind, reads, major, number⟩
        rw [decodeKey_of_reads head] at read
        rcases text : decodeText n behindHead with error | ⟨name, behindText⟩
        · simp [text, Except.bind] at read
        · rcases decodeText_eq_ok text with ⟨length, equal⟩
          rcases head.exists_isHead (by decide) with ⟨keyHead, isHead, split⟩
          simp only [text, Except.bind] at read
          split at read
          · cases read
          · next nonempty =>
            cases read
            refine ⟨keyHead, length.symm ▸ isHead, nonempty, ?_⟩
            rw [split, equal, List.append_assoc]
    · simp [decodeKey, reads, major, bind, Except.bind] at read

theorem decodeKey_keyed {entry : TextEntry} (keyed : entry.Keyed) (rest : Bytes) :
    decodeKey (entry.keyHead ++ entry.key ++ rest) = .ok (entry.key, rest) := by
  rw [List.append_assoc,
    decodeKey_of_reads (readsHead_of_isHead (by decide) keyed.1 (entry.key ++ rest)),
    decodeText_append]
  exact if_neg keyed.2

section Calls

variable {deepest fuel depth n : Nat} {input rest : Bytes}

/-- The branch of `decode_item` for arrays. -/
def arrayCall (deepest fuel depth n : Nat) (rest : Bytes) : Watched String (Item × Bytes) := do
  quiet (checkContainerTo deepest n depth "cbor: array too large")
  let (items, rest) ← watchedItems deepest fuel (depth + 1) n [] rest
  return (.array items, rest)

/-- The branch of `decode_item` for maps. -/
def mapCall (deepest fuel depth n : Nat) (rest : Bytes) : Watched String (Item × Bytes) := do
  quiet (checkContainerTo deepest n depth "cbor: map too large")
  let (members, rest) ← watchedMembers deepest fuel (depth + 1) n [] rest
  return (.object members, rest)

theorem watchedItem_array (reads : ReadsHead input majorArray n rest) :
    watchedItem deepest (fuel + 1) depth input = called (arrayCall deepest fuel depth n rest) := by
  rcases reads with ⟨ib, behind, first, major, second⟩
  have major : ib / 32 = 4 := major
  simp [-Nat.div_eq_zero_iff, watchedItem, arrayCall, first, major, second]

theorem watchedItem_map (reads : ReadsHead input majorMap n rest) :
    watchedItem deepest (fuel + 1) depth input = called (mapCall deepest fuel depth n rest) := by
  rcases reads with ⟨ib, behind, first, major, second⟩
  have major : ib / 32 = 5 := major
  simp [-Nat.div_eq_zero_iff, watchedItem, mapCall, first, major, second]

theorem watchedItem_tag (reads : ReadsHead input majorTag n rest) :
    watchedItem deepest (fuel + 1) depth input = called (watchedItem deepest fuel depth rest) := by
  rcases reads with ⟨ib, behind, first, major, second⟩
  have major : ib / 32 = 6 := major
  simp [-Nat.div_eq_zero_iff, watchedItem, first, major, second]

end Calls

/-- The decoder reads the input without calling itself. -/
def Alone (input : Bytes) (result : Except String (Item × Bytes)) : Prop :=
  ∀ deepest fuel depth, watchedItem deepest (fuel + 1) depth input = called (quiet result)

theorem alone_uint (reads : ReadsHead input majorUint n rest) :
    Alone input (.ok (decodeUint n, rest)) := by
  intro deepest fuel depth
  rcases reads with ⟨ib, behind, first, major, second⟩
  have major : ib / 32 = 0 := major
  simp [-Nat.div_eq_zero_iff, watchedItem, first, major, second, pure_eq]

theorem alone_negative (reads : ReadsHead input majorNegative n rest) :
    Alone input ((decodeNegative n).map fun number => (number, rest)) := by
  intro deepest fuel depth
  rcases reads with ⟨ib, behind, first, major, second⟩
  have major : ib / 32 = 1 := major
  cases number : decodeNegative n with
  | error error =>
    simp [-Nat.div_eq_zero_iff, watchedItem, first, major, second, number, Except.map]
  | ok value =>
    simp [-Nat.div_eq_zero_iff, watchedItem, first, major, second, number, pure_eq, Except.map]

theorem alone_bytes (reads : ReadsHead input majorBytes n rest) :
    Alone input (decodeBytes n rest) := by
  intro deepest fuel depth
  rcases reads with ⟨ib, behind, first, major, second⟩
  have major : ib / 32 = 2 := major
  simp [-Nat.div_eq_zero_iff, watchedItem, first, major, second]

theorem alone_text (reads : ReadsHead input majorText n rest) :
    Alone input ((decodeText n rest).map fun text => (.string text.1, text.2)) := by
  intro deepest fuel depth
  rcases reads with ⟨ib, behind, first, major, second⟩
  have major : ib / 32 = 3 := major
  rcases text : decodeText n rest with error | ⟨name, behindText⟩
  · simp [-Nat.div_eq_zero_iff, watchedItem, first, major, second, text, Except.map]
  · simp [-Nat.div_eq_zero_iff, watchedItem, first, major, second, text, pure_eq, Except.map]

theorem alone_simple {byte : UInt8} (simple : byte.toNat / 32 = 7) (rest : Bytes) :
    Alone (byte :: rest) (decodeSimple (byte.toNat % 32) rest) := by
  intro deepest fuel depth
  simp [-Nat.div_eq_zero_iff, watchedItem, readBe_one, simple]

def ReadsLeaf (input : Bytes) : Prop :=
  ∃ result, Alone input result ∧ ∀ item rest, result = .ok (item, rest) →
    ∃ bytes, LeafItem bytes ∧ input = bytes ++ rest

theorem readBe_of_then {item : Item} (number : Nat → Item)
    (done : (do let (value, left) ← readBe width behind; return (number value, left)) =
      (.ok (item, rest) : Except String (Item × Bytes))) :
    ∃ value, readBe width behind = .ok (value, rest) := by
  rcases found : readBe width behind with error | ⟨value, left⟩
  · simp [found, bind, Except.bind] at done
  · simp only [found, bind, Except.bind, pure, Except.pure] at done
    cases done
    exact ⟨value, rfl⟩

theorem decodeSimple_eq_ok {byte : UInt8} (simple : byte.toNat / 32 = 7) {item : Item}
    (read : decodeSimple (byte.toNat % 32) behind = .ok (item, rest)) :
    ∃ bytes, LeafItem bytes ∧ byte :: behind = bytes ++ rest := by
  have spelled : byte = majorSimple ||| UInt8.ofNat (byte.toNat % 32) :=
    eq_or_of_div (by decide) simple
  have float : ∀ width, (byte.toNat % 32, width) ∈ [(25, 2), (26, 4), (27, 8)] →
      ∀ value, readBe width behind = .ok (value, rest) →
      ∃ bytes, LeafItem bytes ∧ byte :: behind = bytes ++ rest := by
    intro width listed value found
    rcases readBe_eq_ok found with ⟨piece, length, equal, same⟩
    refine ⟨_, .float listed length, ?_⟩
    rw [← spelled, equal, List.cons_append]
  have constant : byte.toNat % 32 ∈ [20, 21, 22, 23] → behind = rest →
      ∃ bytes, LeafItem bytes ∧ byte :: behind = bytes ++ rest := by
    intro listed equal
    refine ⟨_, .constant listed, ?_⟩
    rw [← spelled, equal, List.singleton_append]
  rw [decodeSimple] at read
  split at read
  · next ai => cases read; exact constant (by rw [ai]; decide) rfl
  · split at read
    · next ai => cases read; exact constant (by rw [ai]; decide) rfl
    · split at read
      · next ai => cases read; exact constant (by rw [ai]; decide) rfl
      · split at read
        · next ai => cases read; exact constant (by rw [ai]; decide) rfl
        · split at read
          · next ai =>
            rcases readBe_of_then (fun half => .real (halfToDouble half)) read with ⟨half, found⟩
            exact float 2 (by rw [ai]; decide) half found
          · split at read
            · next ai =>
              rcases readBe_of_then (fun single => .real (floatToDouble single)) read with
                ⟨single, found⟩
              exact float 4 (by rw [ai]; decide) single found
            · split at read
              · next ai =>
                rcases readBe_of_then (fun bits => .real (UInt64.ofNat bits)) read with
                  ⟨bits, found⟩
                exact float 8 (by rw [ai]; decide) bits found
              · split at read
                · rcases found : readBe 1 behind with error | ⟨simple, left⟩
                  · simp [found, bind, Except.bind] at read
                  · simp [found, bind, Except.bind] at read
                · cases read

theorem item_cases (input : Bytes) : ReadsLeaf input ∨ ∃ n rest, ReadsHead input majorArray n rest ∨
      ReadsHead input majorMap n rest ∨ ReadsHead input majorTag n rest := by
  rcases first : readBe 1 input with error | ⟨ib, behind⟩
  · refine .inl ⟨.error error, ?_, fun item rest impossible => nomatch impossible⟩
    intro deepest fuel depth
    simp [watchedItem, first]
  · rcases readBe_one_eq_ok first with ⟨byte, equal, value⟩
    have small := byte.toNat_lt
    by_cases simple : byte.toNat / 32 = 7
    · rw [equal]
      exact .inl ⟨_, alone_simple simple behind, fun item rest => decodeSimple_eq_ok simple⟩
    · rcases second : readAi (ib % 32) behind with error | ⟨n, rest⟩
      · refine .inl ⟨.error error, ?_, fun item rest impossible => nomatch impossible⟩
        intro deepest fuel depth
        rw [← value] at simple
        simp [watchedItem, first, simple, second]
      · have reads : ∀ major : UInt8, ib / 32 = major.toNat / 32 → ReadsHead input major n rest :=
          fun major same => ⟨ib, behind, first, same, second⟩
        have majors : ib / 32 = 0 ∨ ib / 32 = 1 ∨ ib / 32 = 2 ∨ ib / 32 = 3 ∨ ib / 32 = 4 ∨
            ib / 32 = 5 ∨ ib / 32 = 6 := by omega
        rcases majors with major | major | major | major | major | major | major
        · refine .inl ⟨_, alone_uint (reads majorUint major), ?_⟩
          intro item left done
          cases done
          rcases (reads majorUint major).exists_isHead (by decide) with ⟨head, isHead, split⟩
          exact ⟨head, .uint isHead, split⟩
        · refine .inl ⟨_, alone_negative (reads majorNegative major), ?_⟩
          intro item left done
          rcases (reads majorNegative major).exists_isHead (by decide) with ⟨head, isHead, split⟩
          rw [decodeNegative] at done
          split at done
          · next small =>
            cases done
            exact ⟨head, .negative isHead small, split⟩
          · cases done
        · refine .inl ⟨_, alone_bytes (reads majorBytes major), ?_⟩
          intro item left done
          rw [decodeBytes] at done
          split at done <;> cases done
        · refine .inl ⟨_, alone_text (reads majorText major), ?_⟩
          intro item left done
          rcases (reads majorText major).exists_isHead (by decide) with ⟨head, isHead, split⟩
          rcases text : decodeText n rest with error | ⟨name, behindText⟩
          · rw [text] at done
            cases done
          · rw [text] at done
            cases done
            rcases decodeText_eq_ok text with ⟨length, rest⟩
            refine ⟨_, .text (length.symm ▸ isHead), ?_⟩
            rw [split, rest, List.append_assoc]
        · exact .inr ⟨n, rest, .inl (reads majorArray major)⟩
        · exact .inr ⟨n, rest, .inr (.inl (reads majorMap major))⟩
        · exact .inr ⟨n, rest, .inr (.inr (reads majorTag major))⟩

theorem decodeSimple_float {ai : Nat} (listed : (ai, width) ∈ [(25, 2), (26, 4), (27, 8)])
    (read : readBe width behind = .ok (value, rest)) :
    ∃ item, decodeSimple ai behind = .ok (item, rest) := by
  simp only [List.mem_cons, Prod.mk.injEq, List.not_mem_nil, or_false] at listed
  rcases listed with ⟨ai, width⟩ | ⟨ai, width⟩ | ⟨ai, width⟩ <;> subst ai width
  · exact ⟨.real (halfToDouble value), by simp [decodeSimple, read, bind, Except.bind, pure,
      Except.pure]⟩
  · exact ⟨.real (floatToDouble value), by simp [decodeSimple, read, bind, Except.bind, pure,
      Except.pure]⟩
  · exact ⟨.real (UInt64.ofNat value), by simp [decodeSimple, read, bind, Except.bind, pure,
      Except.pure]⟩

theorem alone_leaf {bytes : Bytes} (isLeaf : LeafItem bytes) (rest : Bytes) :
    ∃ item, Alone (bytes ++ rest) (.ok (item, rest)) := by
  cases isLeaf with
  | uint isHead => exact ⟨_, alone_uint (readsHead_of_isHead (by decide) isHead rest)⟩
  | negative isHead small =>
    have alone := alone_negative (readsHead_of_isHead (by decide) isHead rest)
    rw [decodeNegative, dif_pos small] at alone
    exact ⟨_, alone⟩
  | @text head text isHead =>
    have alone := alone_text (readsHead_of_isHead (by decide) isHead (text ++ rest))
    rw [decodeText_append, ← List.append_assoc] at alone
    exact ⟨_, alone⟩
  | constant listed =>
    simp only [List.mem_cons, List.not_mem_nil, or_false] at listed
    rcases listed with equal | equal | equal | equal <;> subst equal
    · exact ⟨_, alone_simple (by decide) rest⟩
    · exact ⟨_, alone_simple (by decide) rest⟩
    · exact ⟨_, alone_simple (by decide) rest⟩
    · exact ⟨_, alone_simple (by decide) rest⟩
  | @float ai width payload listed length =>
    have read : readBe width (payload ++ rest) = .ok (beValue payload, rest) := by
      have bounded := beValue_lt payload
      have spelled := beBytes_beValue payload
      rw [length] at bounded spelled
      have read := readBe_beBytes bounded rest
      rwa [spelled] at read
    have small : ai < 32 := by
      simp only [List.mem_cons, Prod.mk.injEq, List.not_mem_nil, or_false] at listed
      omega
    have value := toNat_or (show majorSimple.toNat % 32 = 0 by decide) small
    have seven : majorSimple.toNat = 224 := rfl
    rcases decodeSimple_float listed read with ⟨item, done⟩
    refine ⟨item, ?_⟩
    have alone := @alone_simple (majorSimple ||| UInt8.ofNat ai) (by omega) (payload ++ rest)
    rw [show (majorSimple ||| UInt8.ofNat ai).toNat % 32 = ai by omega, done] at alone
    exact alone

end AgentC.Cbor
