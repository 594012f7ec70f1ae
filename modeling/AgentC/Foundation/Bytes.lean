import Mathlib.Algebra.Order.Ring.Int
import Mathlib.Data.FinEnum
import Mathlib.Data.List.DropRight

/-! # Byte strings

Strings of the modelled programs are sequences of bytes; nothing in them
depends on a text encoding except where a function decodes one. -/

namespace AgentC

abbrev Bytes := List UInt8

instance : LawfulBEq Bytes := inferInstance

def ascii (text : String) : Bytes :=
  text.toList.map fun character => UInt8.ofNat character.toNat

example : ascii "id:1" = [105, 100, 58, 49] := rfl

theorem forall_byte {statement : UInt8 → Prop}
    (holds : ∀ number : Fin 256, statement (UInt8.ofFin number)) (byte : UInt8) : statement byte :=
  holds byte.toFin

/-- `isspace` in the C locale: tab, line feed, vertical tab, form feed,
carriage return and space. -/
def isSpace (c : UInt8) : Bool :=
  (9 ≤ c && c ≤ 13) || c == 32

def cString (text : Bytes) : Bytes :=
  text.takeWhile fun byte => byte != 0

/-- Drop the longest prefix and the longest suffix of bytes satisfying `drop`. -/
def trimBoth (drop : UInt8 → Bool) (text : Bytes) : Bytes :=
  ((text.dropWhile drop).reverse.dropWhile drop).reverse

theorem dropWhile_eq_self {drop : UInt8 → Bool} :
    ∀ {text : Bytes}, (∀ byte ∈ text, drop byte = false) → text.dropWhile drop = text
  | [], _ => rfl
  | byte :: rest, kept => by
    rw [List.dropWhile_cons, kept byte (List.mem_cons_self ..)]
    rfl

theorem trimBoth_eq_self {drop : UInt8 → Bool} {text : Bytes}
    (kept : ∀ byte ∈ text, drop byte = false) : trimBoth drop text = text := by
  have reversed : ∀ byte ∈ text.reverse, drop byte = false :=
    fun byte member => kept byte (List.mem_reverse.mp member)
  rw [trimBoth, dropWhile_eq_self kept, dropWhile_eq_self reversed,
    List.reverse_reverse]

theorem trimBoth_trimBoth (drop : UInt8 → Bool) (text : Bytes) :
    trimBoth drop (trimBoth drop text) = trimBoth drop text := by
  have front : (trimBoth drop text).dropWhile drop = trimBoth drop text := by
    rw [List.dropWhile_eq_self_iff]
    intro nonempty
    have start : trimBoth drop text <+: text.dropWhile drop := List.rdropWhile_prefix drop _
    rw [start.getElem nonempty]
    exact List.dropWhile_get_zero_not drop text (Nat.lt_of_lt_of_le nonempty start.length_le)
  rw [trimBoth, front]
  exact List.rdropWhile_idempotent drop _

/-- Every byte of `text` is in the class. -/
def AllIn (inClass : UInt8 → Bool) (text : Bytes) : Prop :=
  ∀ byte ∈ text, inClass byte = true

def StopsAt (inClass : UInt8 → Bool) (text : Bytes) : Prop :=
  ∀ byte, text.head? = some byte → inClass byte = false

theorem allIn_nil (inClass : UInt8 → Bool) : AllIn inClass [] :=
  fun _ member => nomatch member

variable {inClass : UInt8 → Bool} {rest : Bytes}

theorem allIn_append {left right : Bytes} :
    AllIn inClass (left ++ right) ↔ AllIn inClass left ∧ AllIn inClass right := by
  simp only [AllIn, List.mem_append]
  constructor
  · intro all
    exact ⟨fun byte member => all byte (.inl member), fun byte member => all byte (.inr member)⟩
  · intro both byte member
    exact member.elim (both.1 byte) (both.2 byte)

theorem allIn_cons {byte : UInt8} :
    AllIn inClass (byte :: rest) ↔ inClass byte = true ∧ AllIn inClass rest := by
  simp [AllIn]

theorem allIn_takeWhile (inClass : UInt8 → Bool) (text : Bytes) :
    AllIn inClass (text.takeWhile inClass) := by
  intro byte member
  exact List.all_eq_true.mp List.all_takeWhile byte member

theorem cString_cString (text : Bytes) : cString (cString text) = cString text := by
  rw [cString, List.takeWhile_eq_self_iff]
  exact allIn_takeWhile _ text

theorem stopsAt_dropWhile (inClass : UInt8 → Bool) (text : Bytes) :
    StopsAt inClass (text.dropWhile inClass) := by
  induction text with
  | nil => exact fun _ found => nomatch found
  | cons byte rest induction =>
    rw [List.dropWhile_cons]
    split
    · exact induction
    · next outside =>
      intro first found
      cases found
      simpa using outside

theorem stopsAt_cons {byte : UInt8} : StopsAt inClass (byte :: rest) ↔ inClass byte = false := by
  simp [StopsAt]

theorem takeWhile_append_of_stop {front : Bytes} (inside : AllIn inClass front)
    (stops : StopsAt inClass rest) : (front ++ rest).takeWhile inClass = front := by
  induction front with
  | nil =>
    cases rest with
    | nil => rfl
    | cons =>
      rw [List.nil_append, List.takeWhile_cons, stopsAt_cons.mp stops]
      rfl
  | cons byte front induction =>
    rw [allIn_cons] at inside
    rw [List.cons_append, List.takeWhile_cons, if_pos inside.1, induction inside.2]

theorem dropWhile_append_of_stop {front : Bytes} (inside : AllIn inClass front)
    (stops : StopsAt inClass rest) : (front ++ rest).dropWhile inClass = rest := by
  induction front with
  | nil =>
    cases rest with
    | nil => rfl
    | cons =>
      rw [List.nil_append, List.dropWhile_cons, stopsAt_cons.mp stops]
      rfl
  | cons byte front induction =>
    rw [allIn_cons] at inside
    rw [List.cons_append, List.dropWhile_cons, if_pos inside.1, induction inside.2]

theorem split_at_separator {separator : UInt8} {left right leftRest rightRest : Bytes}
    (outside : inClass separator = false) (leftIn : AllIn inClass left)
    (rightIn : AllIn inClass right)
    (same : left ++ separator :: leftRest = right ++ separator :: rightRest) :
    left = right ∧ leftRest = rightRest := by
  have fronts := congrArg (List.takeWhile inClass) same
  have ends := congrArg (List.dropWhile inClass) same
  have stops : ∀ rest, StopsAt inClass (separator :: rest) := fun _ => stopsAt_cons.mpr outside
  rw [takeWhile_append_of_stop leftIn (stops _), takeWhile_append_of_stop rightIn (stops _)]
    at fronts
  rw [dropWhile_append_of_stop leftIn (stops _), dropWhile_append_of_stop rightIn (stops _)] at ends
  exact ⟨fronts, (List.cons.inj ends).2⟩

def decimal (value : Nat) : Bytes :=
  (Nat.toDigits 10 value).map fun digit => UInt8.ofNat digit.toNat

example : decimal 1024 = ascii "1024" := rfl

inductive Status
  | ok
  | invalidArgument
  | oom
  | bounds
  | internal
  | contextTooLong
  | cancelled
  | limit
deriving DecidableEq, Repr

end AgentC
