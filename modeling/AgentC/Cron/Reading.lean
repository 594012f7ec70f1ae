import AgentC.Cron.Expressions

/-! # Reading a field

What the parser makes of one field of an expression: each element of the list marks
its values, except that day 7 of the week is replaced before a range is marked. -/

namespace AgentC.Cron

theorem markLoop_length {min finish step : Int} (fuel : Nat) (value : Int) (allowed : List Bool) :
    (markLoop min finish step fuel value allowed).length = allowed.length := by
  induction fuel generalizing value allowed with
  | zero => rfl
  | succ fuel induction =>
    rw [markLoop]
    split
    · rw [induction, List.length_set]
    · rfl

theorem markLoop_getD {min finish step : Int} (positive : 0 < step) {fuel : Nat} {value : Int}
    (enough : finish - value < fuel) (from_min : min ≤ value) (allowed : List Bool) {index : Nat}
    (inside : index < allowed.length) :
    (markLoop min finish step fuel value allowed).getD index false = true ↔
      allowed.getD index false = true ∨
        value ≤ min + index ∧ min + index ≤ finish ∧ step ∣ min + index - value := by
  induction fuel generalizing value allowed with
  | zero =>
    refine ⟨.inl, fun marked => marked.elim id fun between => ?_⟩
    push_cast at enough
    omega
  | succ fuel induction =>
    rw [markLoop]
    split
    · next more =>
      have place : min + ((value - min).toNat : Int) = value := by omega
      rw [induction (by push_cast at enough; omega) (by omega) _ (by simpa using inside)]
      have marked : (allowed.set (value - min).toNat true).getD index false = true ↔
          allowed.getD index false = true ∨ min + index = value := by
        rw [List.getD_eq_getElem?_getD, List.getD_eq_getElem?_getD, List.getElem?_set]
        by_cases here : (value - min).toNat = index
        · rw [here] at place
          simp [here, inside, place]
        · have elsewhere : min + (index : Int) ≠ value := by omega
          simp [here, elsewhere]
      have shifted : step ∣ min + index - (value + step) ↔ step ∣ min + index - value := by
        rw [← sub_sub, dvd_sub_self_right]
      rw [marked, shifted]
      constructor
      · rintro ((before | here) | ⟨from_next, to_finish, divides⟩)
        · exact .inl before
        · exact .inr ⟨here.ge, by omega, by rw [here, sub_self]; exact dvd_zero step⟩
        · exact .inr ⟨by omega, to_finish, divides⟩
      · rintro (before | ⟨from_value, to_finish, divides⟩)
        · exact .inl (.inl before)
        · by_cases here : min + (index : Int) = value
          · exact .inl (.inr here)
          · have far := Int.le_of_dvd (by omega) divides
            exact .inr ⟨by omega, to_finish, divides⟩
    · next done =>
      refine ⟨.inl, fun marked => marked.elim id fun between => ?_⟩
      omega

structure CronField.Allows (low high : Nat) (field : CronField) (values : Nat → Prop) : Prop where
  min : field.min = low
  max : field.max = high
  length : field.allowed.length = high + 1 - low
  allows : ∀ value : Nat, field.allows value = true ↔ values value

theorem allows_iff {low high : Nat} {field : CronField} (min : field.min = low)
    (max : field.max = high) (value : Nat) : field.allows value = true ↔
      low ≤ value ∧ value ≤ high ∧ field.allowed.getD (value - low) false = true := by
  have place : ((value : Int) - low).toNat = value - low := by omega
  rw [CronField.allows, min, max, place, Bool.and_eq_true, Bool.and_eq_true, decide_eq_true_eq,
    decide_eq_true_eq, Int.ofNat_le, Int.ofNat_le, and_assoc]

theorem CronField.Allows.markRange {low high : Nat} {field : CronField} {values : Nat → Prop}
    (holds : field.Allows low high values) {start finish step : Nat} (fromLow : low ≤ start)
    (ordered : start ≤ finish) (toHigh : finish ≤ high) (positive : 0 < step) :
    ∃ marked, cronFieldMarkRange field start finish step = .ok marked ∧
      marked.any = field.any ∧
      marked.Allows low high fun value =>
        values value ∨ start ≤ value ∧ value ≤ finish ∧ step ∣ value - start := by
  have stepped : ¬(step : Int) ≤ 0 := by omega
  have inRange : ¬((decide ((start : Int) < field.min) || decide ((finish : Int) > field.max) ||
      decide ((start : Int) > finish)) = true) := by
    simp only [holds.min, holds.max, gt_iff_lt, Bool.or_eq_true, decide_eq_true_eq]
    omega
  rw [cronFieldMarkRange, if_neg stepped, if_neg inRange]
  refine ⟨_, rfl, rfl, holds.min, holds.max, ?_, ?_⟩
  · dsimp only
    rw [markLoop_length]
    exact holds.length
  · intro value
    have before := holds.allows value
    rw [allows_iff holds.min holds.max] at before
    have after := @allows_iff low high
      ⟨field.min, field.max, field.any,
        markLoop field.min finish step ((finish : Int) - start + 1).toNat start field.allowed⟩
      holds.min holds.max value
    rw [after, ← before]
    by_cases inside : low ≤ value ∧ value ≤ high
    · have marks := @markLoop_getD field.min finish step (by omega)
        ((finish : Int) - start + 1).toNat start (by omega) (by rw [holds.min]; omega)
        field.allowed (value - low) (by rw [holds.length]; omega)
      have place : field.min + ((value - low : Nat) : Int) = value := by
        rw [holds.min]
        omega
      have divides : start ≤ value → ((step : Int) ∣ value - start ↔ step ∣ value - start) :=
        fun later => by rw [← Int.natCast_dvd_natCast, Int.ofNat_sub later]
      rw [place, Int.ofNat_le, Int.ofNat_le] at marks
      rw [marks]
      constructor
      · rintro ⟨fromLow, toHigh, before | ⟨fromStart, toFinish, divided⟩⟩
        · exact .inl ⟨fromLow, toHigh, before⟩
        · exact .inr ⟨fromStart, toFinish, (divides fromStart).mp divided⟩
      · rintro (⟨fromLow, toHigh, before⟩ | ⟨fromStart, toFinish, divided⟩)
        · exact ⟨fromLow, toHigh, .inl before⟩
        · exact ⟨inside.1, inside.2, .inr ⟨fromStart, toFinish, (divides fromStart).mpr divided⟩⟩
    · constructor
      · rintro ⟨fromLow, toHigh, _⟩
        exact absurd ⟨fromLow, toHigh⟩ inside
      · rintro (⟨fromLow, toHigh, _⟩ | ⟨fromStart, toFinish, _⟩)
        · exact absurd ⟨fromLow, toHigh⟩ inside
        · exact absurd ⟨Nat.le_trans fromLow fromStart, Nat.le_trans toFinish toHigh⟩ inside

def sunday (allow7ForSunday : Bool) (value : Nat) : Nat :=
  if allow7ForSunday && value = 7 then 0 else value

namespace Element

variable (allow7ForSunday : Bool)

/-- A range is accepted if it is in order after the replacement of day 7. -/
def Accepted : Element → Prop
  | range first last _ => sunday allow7ForSunday first.value ≤ sunday allow7ForSunday last.value
  | _ => True

def Reads (low high : Nat) : Element → Nat → Prop
  | number value, other => other = sunday allow7ForSunday value.value
  | star step, other => low ≤ other ∧ other ≤ high ∧ (star step).stepValue ∣ other - low
  | range first last step, other =>
    sunday allow7ForSunday first.value ≤ other ∧ other ≤ sunday allow7ForSunday last.value ∧
      (range first last step).stepValue ∣ other - sunday allow7ForSunday first.value

end Element

theorem sunday_eq (allow7ForSunday : Bool) (value : Nat) :
    (if allow7ForSunday && (value : Int) = 7 then (0 : Int) else value) =
      sunday allow7ForSunday value := by
  rw [sunday]
  have same : ((value : Int) = 7) ↔ value = 7 := by omega
  simp only [same]
  split <;> rfl

theorem parseToken_text (allow7ForSunday : Bool) (field : CronField) (element : Element)
    (positive : 0 < element.stepValue) :
    parseToken allow7ForSunday field element.text =
      match element with
      | .star _ =>
        cronFieldMarkRange { field with any := true } field.min field.max element.stepValue
      | .number value =>
        cronFieldMarkRange field (sunday allow7ForSunday value.value)
          (sunday allow7ForSunday value.value) element.stepValue
      | .range first last _ =>
        cronFieldMarkRange field (sunday allow7ForSunday first.value)
          (sunday allow7ForSunday last.value) element.stepValue := by
  have present : ¬element.text.isEmpty = true := by
    rw [List.isEmpty_iff]
    exact element.text_ne_nil
  simp only [parseToken, element.trim_text, if_neg present, tokenStep_text positive]
  cases element with
  | star step => rfl
  | number value =>
    change (if (Element.number value).base = [star] then _ else _) = _
    rw [if_neg (number_base_ne_star value), tokenRange_number]
    simp only [← sunday_eq]
    rfl
  | range first last step =>
    change (if (Element.range first last step).base = [star] then _ else _) = _
    rw [if_neg (range_base_ne_star first last step), tokenRange_range]
    simp only [← sunday_eq]
    rfl

variable {element : Element}

section Elements

variable {allow7ForSunday : Bool} {low high top : Nat} {field : CronField}
  {values : Nat → Prop}

/-- The bounds of a field of the program hold for the values of an expression after
the replacement of day 7. -/
structure Bounded (allow7ForSunday : Bool) (low high top : Nat) : Prop where
  ordered : low ≤ high
  fits : ∀ value, low ≤ value → value ≤ top →
    low ≤ sunday allow7ForSunday value ∧ sunday allow7ForSunday value ≤ high

theorem bounded_self (ordered : low ≤ high) : Bounded false low high high :=
  ⟨ordered, fun _ fromLow toHigh => ⟨fromLow, toHigh⟩⟩

theorem bounded_weekday : Bounded true 0 6 7 := by
  refine ⟨by decide, fun value _ toSeven => ⟨Nat.zero_le _, ?_⟩⟩
  rw [sunday]
  split
  · decide
  · next other =>
    simp only [Bool.true_and, decide_eq_true_eq] at other
    omega

theorem Element.InRange.positive (inRange : element.InRange low top) : 0 < element.stepValue := by
  cases element with
  | number value => exact Nat.one_pos
  | star step => exact inRange
  | range => exact inRange.2.2.2

theorem parseToken_accepted (bounded : Bounded allow7ForSunday low high top)
    (inRange : element.InRange low top) (accepted : element.Accepted allow7ForSunday)
    (holds : field.Allows low high values) :
    ∃ next, parseToken allow7ForSunday field element.text = .ok next ∧
      next.any = (field.any || element.isStar) ∧
      next.Allows low high fun value =>
        values value ∨ element.Reads allow7ForSunday low high value := by
  have positive := inRange.positive
  rw [parseToken_text allow7ForSunday field element positive]
  cases element with
  | number value =>
    have fits := bounded.fits value.value inRange.1 inRange.2
    rcases holds.markRange fits.1 (Nat.le_refl _) fits.2 positive with
      ⟨next, marked, any, allows⟩
    refine ⟨next, marked, any.trans (Bool.or_false _).symm, ?_⟩
    have single : ∀ other, sunday allow7ForSunday value.value ≤ other ∧
        other ≤ sunday allow7ForSunday value.value ∧
          (Element.number value).stepValue ∣ other - sunday allow7ForSunday value.value ↔
        other = sunday allow7ForSunday value.value := by
      intro other
      constructor
      · rintro ⟨above, below, _⟩
        exact Nat.le_antisymm below above
      · intro same
        rw [same, Nat.sub_self]
        exact ⟨Nat.le_refl _, Nat.le_refl _, Nat.dvd_zero _⟩
    simpa only [Element.Reads, single] using allows
  | star step =>
    have starred : CronField.Allows low high { field with any := true } values :=
      ⟨holds.min, holds.max, holds.length, holds.allows⟩
    have bounds : cronFieldMarkRange { field with any := true } field.min field.max
        (Element.star step).stepValue =
          cronFieldMarkRange { field with any := true } low high (Element.star step).stepValue := by
      rw [holds.min, holds.max]
    rcases starred.markRange (Nat.le_refl low) bounded.ordered (Nat.le_refl high) positive with
      ⟨next, marked, any, allows⟩
    exact ⟨next, bounds.trans marked, any.trans (Bool.or_true _).symm, allows⟩
  | range first last step =>
    rcases inRange with ⟨fromLow, ordered, toTop, _⟩
    have firstFits := bounded.fits first.value fromLow (Nat.le_trans ordered toTop)
    have lastFits := bounded.fits last.value (Nat.le_trans fromLow ordered) toTop
    rcases holds.markRange firstFits.1 accepted lastFits.2 positive with
      ⟨next, marked, any, allows⟩
    exact ⟨next, marked, any.trans (Bool.or_false _).symm, allows⟩

theorem parseToken_refused (inRange : element.InRange low top)
    (refused : ¬element.Accepted allow7ForSunday) (field : CronField) :
    parseToken allow7ForSunday field element.text = .error (ascii "cron value out of range") := by
  have positive := inRange.positive
  rw [parseToken_text allow7ForSunday field element positive]
  cases element with
  | number value => exact absurd trivial refused
  | star step => exact absurd trivial refused
  | range first last step =>
    have stepped : ¬((Element.range first last step).stepValue : Int) ≤ 0 := by omega
    rw [Element.Accepted] at refused
    simp only [cronFieldMarkRange, if_neg stepped]
    rw [if_pos]
    · rfl
    · simp only [gt_iff_lt, Bool.or_eq_true, decide_eq_true_eq]
      omega

theorem foldlM_accepted (bounded : Bounded allow7ForSunday low high top)
    {elements : List Element} (inRange : ∀ element ∈ elements, element.InRange low top)
    (accepted : ∀ element ∈ elements, element.Accepted allow7ForSunday)
    (holds : field.Allows low high values) :
    ∃ last, (elements.map Element.text).foldlM (parseToken allow7ForSunday) field = .ok last ∧
      last.any = (field.any || elements.any Element.isStar) ∧
      last.Allows low high fun value =>
        values value ∨ ∃ element ∈ elements, element.Reads allow7ForSunday low high value := by
  induction elements generalizing field values with
  | nil =>
    refine ⟨field, rfl, (Bool.or_false _).symm, ?_⟩
    simpa using holds
  | cons element elements induction =>
    rcases List.forall_mem_cons.mp inRange with ⟨now, later⟩
    rcases List.forall_mem_cons.mp accepted with ⟨accepted, acceptedLater⟩
    rcases parseToken_accepted bounded now accepted holds with ⟨next, parsed, any, allows⟩
    rcases induction later acceptedLater allows with ⟨last, rest, restAny, restAllows⟩
    refine ⟨last, ?_, ?_, ?_⟩
    · rw [List.map_cons, List.foldlM_cons, parsed]
      exact rest
    · rw [restAny, any, List.any_cons, Bool.or_assoc]
    · simpa only [List.exists_mem_cons_iff, or_assoc] using restAllows

theorem foldlM_refused (bounded : Bounded allow7ForSunday low high top)
    {elements : List Element} (inRange : ∀ element ∈ elements, element.InRange low top)
    (refused : ∃ element ∈ elements, ¬element.Accepted allow7ForSunday)
    (holds : field.Allows low high values) :
    ∃ error, (elements.map Element.text).foldlM (parseToken allow7ForSunday) field =
      .error error := by
  induction elements generalizing field values with
  | nil =>
    rcases refused with ⟨_, member, _⟩
    exact nomatch member
  | cons element elements induction =>
    rcases List.forall_mem_cons.mp inRange with ⟨now, later⟩
    rw [List.map_cons, List.foldlM_cons]
    by_cases accepted : element.Accepted allow7ForSunday
    · rcases parseToken_accepted bounded now accepted holds with ⟨next, parsed, _, allows⟩
      rw [parsed]
      apply induction later _ allows
      rcases refused with ⟨other, member, refused⟩
      rcases List.mem_cons.mp member with same | rest
      · exact absurd accepted (same ▸ refused)
      · exact ⟨other, rest, refused⟩
    · rw [parseToken_refused now accepted]
      exact ⟨_, rfl⟩

def Field.Reads (field : Field low top) (allow7ForSunday : Bool) (high value : Nat) : Prop :=
  ∃ element ∈ field.elements, element.Reads allow7ForSunday low high value

theorem intercalate_bytes {texts : List Bytes}
    (solid : ∀ text ∈ texts, ∀ byte ∈ text, isSpace byte = false) :
    ∀ byte ∈ [comma].intercalate texts, isSpace byte = false := by
  induction texts with
  | nil => exact nofun
  | cons text texts induction =>
    rcases List.forall_mem_cons.mp solid with ⟨now, later⟩
    cases texts with
    | nil =>
      rw [List.intercalate_singleton]
      exact now
    | cons =>
      rw [List.intercalate_cons_cons]
      intro byte member
      rcases List.mem_append.mp member with front | back
      · rcases List.mem_append.mp front with inside | separator
        · exact now byte inside
        · rw [List.mem_singleton.mp separator]
          decide
      · exact induction later byte back

theorem Field.text_bytes (field : Field low top) : ∀ byte ∈ field.text, isSpace byte = false := by
  apply intercalate_bytes
  intro text listed byte member
  rcases List.mem_map.mp listed with ⟨element, _, same⟩
  exact (element.text_bytes byte (same ▸ member)).1

theorem Field.text_split (field : Field low top) :
    field.text.splitOn comma = field.elements.map Element.text := by
  apply List.splitOn_intercalate
  · intro text listed member
    rcases List.mem_map.mp listed with ⟨element, _, same⟩
    exact (element.text_bytes comma (same ▸ member)).2 rfl
  · simpa using field.nonempty

theorem Field.text_ne_nil (field : Field low top) : field.text ≠ [] := by
  intro empty
  have split := field.text_split
  rw [empty, List.splitOn_nil] at split
  rcases List.exists_mem_of_ne_nil _ field.nonempty with ⟨element, member⟩
  have listed : element.text ∈ [[]] := split ▸ List.mem_map_of_mem member
  exact element.text_ne_nil (List.mem_singleton.mp listed)

theorem allows_initial (ordered : low ≤ high) : CronField.Allows low high
      { min := low, max := high, any := false
        allowed := List.replicate ((high : Int) - low + 1).toNat false } fun _ => False := by
  refine ⟨rfl, rfl, ?_, ?_⟩
  · rw [List.length_replicate]
    omega
  · intro value
    rw [@allows_iff low high ⟨low, high, false, _⟩ rfl rfl]
    simp

theorem cronParseField_eq (field : Field low top) (allow7ForSunday : Bool) (high : Nat) :
    cronParseField field.text low high allow7ForSunday =
      (field.elements.map Element.text).foldlM (parseToken allow7ForSunday)
        { min := low, max := high, any := false
          allowed := List.replicate ((high : Int) - low + 1).toNat false } := by
  have present : ¬field.text.isEmpty = true := by
    rw [List.isEmpty_iff]
    exact field.text_ne_nil
  simp only [cronParseField, trimCopy_eq_self field.text_bytes, if_neg present, field.text_split]

theorem cronParseField_accepted (bounded : Bounded allow7ForSunday low high top)
    (field : Field low top)
    (accepted : ∀ element ∈ field.elements, element.Accepted allow7ForSunday) :
    ∃ parsed, cronParseField field.text low high allow7ForSunday = .ok parsed ∧
      parsed.any = field.elements.any Element.isStar ∧
      ∀ value : Nat, parsed.allows value = true ↔ field.Reads allow7ForSunday high value := by
  rw [cronParseField_eq]
  rcases foldlM_accepted bounded field.inRange accepted (allows_initial bounded.ordered) with
    ⟨parsed, last, any, allows⟩
  refine ⟨parsed, last, any.trans (Bool.false_or _), fun value => ?_⟩
  rw [allows.allows, false_or, Field.Reads]

theorem cronParseField_refused (bounded : Bounded allow7ForSunday low high top)
    (field : Field low top)
    (refused : ∃ element ∈ field.elements, ¬element.Accepted allow7ForSunday) :
    ∃ error, cronParseField field.text low high allow7ForSunday = .error error := by
  rw [cronParseField_eq]
  exact foldlM_refused bounded field.inRange refused (allows_initial bounded.ordered)

end Elements

section Plain

variable {low high : Nat}

theorem accepted_plain (inRange : element.InRange low high) : element.Accepted false := by
  cases element with
  | number value => trivial
  | star step => trivial
  | range => exact inRange.2.1

theorem reads_plain (field : Field low high) (value : Nat) :
    field.Reads false high value ↔ field.Denotes value := by
  have same : ∀ element : Element,
      element.Reads false low high value ↔ element.Denotes low high value := by
    intro element
    cases element <;> rfl
  simp only [Field.Reads, Field.Denotes, same]

theorem cronParseField_plain (ordered : low ≤ high) (field : Field low high) :
    ∃ parsed, cronParseField field.text low high false = .ok parsed ∧
      parsed.any = field.elements.any Element.isStar ∧
      ∀ value : Nat, parsed.allows value = true ↔ field.Denotes value := by
  rcases cronParseField_accepted (bounded_self ordered) field
    (fun element member => accepted_plain (field.inRange element member)) with
    ⟨parsed, accepted, any, allows⟩
  exact ⟨parsed, accepted, any, fun value => (allows value).trans (reads_plain field value)⟩

end Plain

end AgentC.Cron
